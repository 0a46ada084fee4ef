import EngineBridge.Lifecycle

/-!
# An event bus with a bounded backlog

Every event goes to all listeners attached at that moment. The bus keeps the last `capacity`
events; a listener further behind is told once how many it lost and goes on with the oldest kept.
-/

namespace EngineBridge

/-- Twice `n` until it reaches `goal`, at most `fuel` times. -/
def doubled (goal : Nat) : Nat → Nat → Nat
  | 0, n => n
  | fuel + 1, n => if goal ≤ n then n else doubled goal fuel (2 * n)

/-- The least power of two that holds `n` events, and at least one. -/
def capacityFor (n : Nat) : Nat := doubled n n 1

structure Bus (ε : Type) where
  capacity : Nat
  /-- How many events have been published. -/
  sent : Nat
  /-- The last of them, oldest first. -/
  kept : List ε
  /-- For each listener ever attached, how many events lie behind it; none once it has left. -/
  cursors : List (Option Nat)
  deriving Repr

/-- What a listener finds. -/
inductive Reception (ε : Type) where
  | event (e : ε)
  | empty
  | lagged (lost : Nat)
  | detached
  deriving DecidableEq, Repr

namespace Bus

variable {ε : Type}

def withBacklog (backlog : Nat) : Bus ε := ⟨capacityFor backlog, 0, [], []⟩

/-- The backlog of a bridge's own bus. -/
def defaultBacklog : Nat := 16

/-- How many listeners are attached. -/
def listeners (b : Bus ε) : Nat := b.cursors.countP Option.isSome

/-- Attach a listener; its number is how many came before it. -/
def listen (b : Bus ε) : Bus ε × Nat :=
  ({ b with cursors := b.cursors ++ [some b.sent] }, b.cursors.length)

/-- Publish an event and count the listeners that will see it. -/
def publish (b : Bus ε) (e : ε) : Bus ε × Nat :=
  let all := b.kept ++ [e]
  ({ b with sent := b.sent + 1, kept := all.drop (all.length - b.capacity) }, b.listeners)

/-- How many of the published events are no longer kept. -/
def lost (b : Bus ε) : Nat := b.sent - b.kept.length

/-- The next event for a listener. -/
def receive (b : Bus ε) (listener : Nat) : Bus ε × Reception ε :=
  match b.cursors[listener]?.join with
  | none => (b, .detached)
  | some seen =>
    if seen < b.lost then
      ({ b with cursors := b.cursors.set listener (some b.lost) }, .lagged (b.lost - seen))
    else
      match b.kept[seen - b.lost]? with
      | none => (b, .empty)
      | some e => ({ b with cursors := b.cursors.set listener (some (seen + 1)) }, .event e)

/-- Detach a listener. -/
def leave (b : Bus ε) (listener : Nat) : Bus ε :=
  { b with cursors := b.cursors.set listener none }

end Bus

end EngineBridge
