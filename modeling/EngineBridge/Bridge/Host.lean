import EngineBridge.Bridge.Session

/-!
# A host that never lags behind

A host that takes every message as soon as it is posted, and lets the bridge run until it waits
before it does anything else.
-/

namespace EngineBridge

structure Host (σ : Type) where
  session : Session σ
  /-- What the bridge has posted since the host last looked, oldest first. -/
  received : List Outbound := []

/-- What became of a message that the host sent. -/
inductive Delivery where
  | sent
  /-- The channel stayed full. -/
  | blocked
  | refused (e : BridgeError)
  deriving DecidableEq, Repr

namespace Host

variable {σ : Type} [Interpreter σ]

def create (registry : Registry σ) (settings : BridgeSettings) : Host σ :=
  ⟨.create registry settings, []⟩

/-- Take every message from the channel. -/
def collect (h : Host σ) : Host σ :=
  let s := h.session
  { session := { s with outbound := { s.outbound with items := [] } }
    received := h.received ++ s.outbound.items }

/-- Let the bridge run, and time pass as it needs, but not beyond `stop`. -/
def runFor (stop : Option Nat) : Nat → Host σ → Host σ
  | 0, h => h
  | fuel + 1, h =>
    match h.session.advance with
    | some s => runFor stop fuel { h with session := s }.collect
    | none =>
      if h.session.yields then runFor stop fuel { h with session := h.session.wake }
      else
        match h.session.timer with
        | none => h
        | some t =>
          if stop.all (t ≤ ·) then
            runFor stop fuel { h with session := { h.session with now := t }.wake }
          else h

def run (h : Host σ) (stop : Option Nat) : Host σ :=
  runFor stop h.session.effort { h with session := h.session.wake }

/-- Let the bridge run until it waits; no time passes. -/
def settle (h : Host σ) : Host σ := h.run (some h.session.now)

/-- Send a message. The bridge runs first if the channel is full. -/
def send (h : Host σ) (m : Inbound) : Host σ × Delivery :=
  let there (h : Host σ) := h.session.inbound.sending && h.session.inbound.receiving
  let put (h : Host σ) : Host σ :=
    { h with session := { h.session with inbound := h.session.inbound.push m } }
  if !there h then (h, .refused .disconnected)
  else if h.session.inbound.hasRoom then (put h, .sent)
  else
    let h := h.settle
    if !there h then (h, .refused .disconnected)
    else if h.session.inbound.hasRoom then (put h, .sent)
    else (h, .blocked)

/-- Let time pass. -/
def wait (h : Host σ) (millis : Nat) : Host σ :=
  let stop := h.session.now + millis
  let h := h.run (some stop)
  { h with session := { h.session with now := stop } }

/-- Send no more. -/
def close (h : Host σ) : Host σ :=
  { h with session := { h.session with inbound := h.session.inbound.closeSender } }

/-- Take no more. -/
def disconnect (h : Host σ) : Host σ :=
  { h with session := { h.session with outbound := h.session.outbound.closeReceiver } }

/-- Send no more, and let the bridge come to its end. -/
def shutdown (h : Host σ) : Host σ := h.close.run none

/-- Open the gates of the registrations with these serial numbers, once each. -/
def release (h : Host σ) (serials : List Nat) : Host σ :=
  { h with session := { h.session with releases := serials.foldl (·.insert ·) h.session.releases } }

def register (h : Host σ) (m : Module σ) : Host σ :=
  { h with session := { h.session with registry := h.session.registry.register m } }

def unregister (h : Host σ) (name : String) : Host σ :=
  { h with session := { h.session with registry := h.session.registry.unregister name } }

end Host

end EngineBridge
