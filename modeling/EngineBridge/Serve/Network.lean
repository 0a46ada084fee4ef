import EngineBridge.Bridge.Session
import EngineBridge.Serve.Framing
import EngineBridge.Serve.Source
import EngineBridge.Serve.Sink

/-!
# Serving a stream

Three tasks and two channels: lines go to the bridge as messages, and the bridge's messages go to
the output. Input is read on its own, so that a host which writes before it reads does no harm.
-/

namespace EngineBridge

/-- A task that gets its turn in the order in which it was woken. The output has its turn when no
other task can go on. -/
inductive Role where
  | bridge
  | reader
  deriving DecidableEq, Repr

/-- Whose turn it is. -/
structure Schedule where
  /-- The tasks that can go on, the next one first. -/
  queue : List Role := [.bridge, .reader]
  /-- Turns since the output had one. -/
  turns : Nat := 0
  /-- The output has its turn. -/
  writing : Bool := false
  /-- The output has something to do. -/
  awake : Bool := false
  /-- The bridge goes on once all others have had their turn. -/
  deferred : Bool := false
  deriving DecidableEq, Repr

/-- A stream being served. -/
structure Service (σ : Type) where
  session : Session σ
  framing : Framing
  source : Source
  sink : Sink := {}
  /-- Lines written to the diagnostics, latest first. -/
  diagnostics : List String := []
  /-- Why the service ended early. -/
  failure : Option Fault := none
  schedule : Schedule := {}

namespace Schedule

/-- Turns after which the output has its own, even if others could go on. -/
def interval : Nat := 61

/-- The task at the head has to wait. -/
def rest (k : Schedule) : Schedule := { k with queue := k.queue.drop 1, turns := k.turns + 1 }

/-- All have had their turns, and the output has its own. -/
def round (k : Schedule) : Schedule :=
  { k with turns := 0, writing := k.awake, awake := false, deferred := false }

end Schedule

namespace Service

variable {σ : Type} [Interpreter σ]

/-- A service that has read nothing yet. What the host asks for at the start is sent first. -/
def create (registry : Registry σ) (settings : BridgeSettings) (framing : Framing)
    (first : Option Control) (source : Source) (room : Option Nat) : Service σ :=
  let s : Session σ := .create registry settings
  { session := first.elim s fun c => { s with inbound := s.inbound.push (.control c) }
    framing, source, sink := { room } }

/-- Read one line, or see the end of the input. None if there is nothing to read yet, or if the
channel is full. Once the bridge has ended nothing more is read. -/
def readStep (v : Service σ) : Option (Service σ) :=
  let s := v.session
  let stop : Service σ :=
    { v with
      source := ⟨[], v.source.closes⟩, session := { s with inbound := s.inbound.closeSender } }
  match v.source.lines with
  | [] => if s.inbound.sending && v.source.closes ≤ s.now then some stop else none
  | (t, line) :: rest =>
    if s.now < t then none
    else
      let v := { v with source := { v.source with lines := rest } }
      match v.framing.message? line with
      | none => some v
      | some m =>
        if !s.inbound.receiving then some stop
        else if s.inbound.hasRoom then
          some { v with session := { s with inbound := s.inbound.push m } }
        else none

/-- Write one message of the bridge. If that fails the service ends, and nobody listens to the
bridge any more. -/
def writeStep (v : Service σ) : Option (Service σ) :=
  let s := v.session
  s.outbound.take?.map fun (m, outbound) =>
    let (sink, failure) := v.sink.put ((v.framing.pieces m).map Text.utf8)
    let diagnostics := (v.framing.diagnostic? m).toList ++ v.diagnostics
    let v := { v with session := { s with outbound }, sink, diagnostics, failure }
    if failure.isNone then v
    else { v with session := { s with outbound := outbound.closeReceiver } }

/-- Let the bridge do one thing. None if it has to wait. -/
def bridgeStep (v : Service σ) : Option (Service σ) :=
  v.session.advance.map fun session => { v with session }

/-- Whether the service has come to its end: the bridge has ended and all its messages are
written, or the output has failed. -/
def ended (v : Service σ) : Bool :=
  v.failure.isSome || (v.session.stopped && v.session.outbound.items.isEmpty)

/-- When something happens next, if all tasks wait. -/
def timer (v : Service σ) : Option Nat :=
  let arrival :=
    match v.source.lines with
    | (t, _) :: _ => if v.session.now < t then some t else none
    | [] =>
      if v.session.inbound.sending && v.session.now < v.source.closes then some v.source.closes
      else none
  match arrival, v.session.timer with
  | some a, some b => some (min a b)
  | a, b => a <|> b

/-- Let time pass until a task can go on. -/
def clockStep (v : Service σ) : Option (Service σ) :=
  v.timer.map fun now => { v with session := { v.session with now } }

/-- Let the bridge go on, if it does not already. -/
def wakeBridge (v : Service σ) (needed : Bool) : Service σ :=
  let k := v.schedule
  if needed && !k.queue.contains .bridge then
    { v with session := v.session.wake, schedule := { k with queue := k.queue ++ [.bridge] } }
  else v

/-- Let the reader go on, if it does not already. -/
def wakeReader (v : Service σ) (needed : Bool) : Service σ :=
  let k := v.schedule
  if needed && !k.queue.contains .reader then
    { v with schedule := { k with queue := k.queue ++ [.reader] } }
  else v

/-- Whether a line waits for room in the channel. -/
def isPushing (v : Service σ) : Bool :=
  match v.source.lines with
  | (t, _) :: _ => t ≤ v.session.now
  | [] => false

/-- The turn of the output: it writes all messages that are there. -/
def outputTurn (v : Service σ) : Service σ :=
  match v.writeStep with
  | none => { v with schedule := { v.schedule with writing := false } }
  | some w => w.wakeBridge (!v.session.agenda.isEmpty)

/-- The turn of the bridge: it goes on until it has to wait. -/
def bridgeTurn (v : Service σ) : Service σ :=
  match v.session.advance with
  | none => { v with schedule := v.schedule.rest }
  | some s =>
    let taken := s.inbound.items.length < v.session.inbound.items.length
    let posted := v.session.outbound.items.length < s.outbound.items.length
    let k := v.schedule
    let schedule :=
      { k with
        awake := k.awake || posted || s.stopped, deferred := k.deferred || s.yields }
    { v with session := s, schedule }.wakeReader ((taken || s.stopped) && v.isPushing)

/-- The turn of the reader: it goes on until there is nothing to read or no room. -/
def readerTurn (v : Service σ) : Service σ :=
  match v.readStep with
  | none => { v with schedule := v.schedule.rest }
  | some w =>
    let pushed := v.session.inbound.items.length < w.session.inbound.items.length
    w.wakeBridge (v.session.listens && (pushed || !w.session.inbound.sending))

/-- One step of the task whose turn it is; time passes only when no task can go on. -/
def step (v : Service σ) : Option (Service σ) :=
  let k := v.schedule
  if v.ended then none
  else if k.writing then some v.outputTurn
  else if Schedule.interval ≤ k.turns then
    some ({ v with schedule := k.round }.wakeBridge k.deferred)
  else
    match k.queue with
    | .bridge :: _ => some v.bridgeTurn
    | .reader :: _ => some v.readerTurn
    | [] =>
      if k.deferred || k.awake then
        some ({ v with schedule := k.round }.wakeBridge k.deferred)
      else
        v.clockStep.map fun w =>
          let due := w.session.timer.any (· ≤ w.session.now)
          ({ w with schedule := k.round }.wakeBridge due).wakeReader true

def runFor : Nat → Service σ → Service σ
  | 0, v => v
  | fuel + 1, v =>
    match v.step with
    | none => v
    | some v => runFor fuel v

/-- A bound on the steps that a service can take. -/
def effort (v : Service σ) : Nat :=
  16 * v.session.effort + 128 * (v.source.lines.length + 2)

/-- Serve the stream to its end. -/
def run (v : Service σ) : Service σ := runFor v.effort v

/-- The fault that the service ends with: the output failed, or the bridge was lost. -/
def fault? (v : Service σ) : Option Fault :=
  v.failure <|> v.session.crash.map fun p => (Fault.ofText p.message).context "bridge task failed"

end Service

end EngineBridge
