/-!
# Bounded channels

A first-in first-out queue between a sending and a receiving side, either of which may leave.
-/

namespace EngineBridge

structure Channel (μ : Type) where
  capacity : Nat
  /-- What has been sent and not yet taken, oldest first. -/
  items : List μ := []
  /-- The sending side is there. -/
  sending : Bool := true
  /-- The receiving side is there. -/
  receiving : Bool := true
  deriving Repr

namespace Channel

variable {μ : Type}

def hasRoom (c : Channel μ) : Bool := c.items.length < c.capacity

def push (c : Channel μ) (m : μ) : Channel μ := { c with items := c.items ++ [m] }

/-- The oldest message, and the channel without it. -/
def take? (c : Channel μ) : Option (μ × Channel μ) :=
  match c.items with
  | [] => none
  | m :: rest => some (m, { c with items := rest })

/-- Nothing more will come. -/
def exhausted (c : Channel μ) : Bool := c.items.isEmpty && !c.sending

/-- The sending side leaves; what was sent stays. -/
def closeSender (c : Channel μ) : Channel μ := { c with sending := false }

/-- The receiving side leaves, and what was not taken goes with it. -/
def closeReceiver (c : Channel μ) : Channel μ := { c with items := [], receiving := false }

end Channel

end EngineBridge
