import EngineBridge.Bridge.Basic
import EngineBridge.Bridge.Channel
import EngineBridge.Engine.Registry
import EngineBridge.Event.Bus

/-!
# A bridge at work

The bridge between its two channels, with the registry it loads from, on a virtual clock. The
bridge carries out its effects in order; between effects it waits for a load, a call, or the next
message. A load is looked at before any message, once each time the bridge has its turn and once
more after each message.
-/

namespace EngineBridge

/-- What the bridge is waiting for besides messages. -/
inductive Job (σ : Type) where
  | none
  /-- The load has been looked at, and what it waits for has not changed since, if it is `seen`. -/
  | loading (x : Registration σ) (progress : Progress) (deadline : Nat) (seen : Bool)
  | calling (since : Nat) (x : Execution σ)
  deriving Repr

structure Session (σ : Type) where
  /-- The time, in milliseconds. -/
  now : Nat := 0
  registry : Registry σ
  /-- The registrations whose gate has a release that nobody has taken. -/
  releases : List Nat := []
  inbound : Channel Inbound
  outbound : Channel Outbound
  events : Bus Transition := .withBacklog Bus.defaultBacklog
  bridge : Bridge (Adapter σ)
  /-- What the bridge has still to do before it waits again. -/
  agenda : List (Effect (Adapter σ)) := []
  job : Job σ := .none
  /-- The registration that a load has started. -/
  started : Option (Registration σ) := none
  /-- The bridge has ended. -/
  stopped : Bool := false
  /-- The panic that ended the bridge. -/
  crash : Option Panic := none

namespace Session

variable {σ : Type} [Interpreter σ]

/-- A bridge that has seen nothing yet. -/
def create (registry : Registry σ) (settings : BridgeSettings) : Session σ where
  registry
  inbound := { capacity := settings.capacity }
  outbound := { capacity := settings.capacity }
  bridge := { settings }

/-- Give the bridge an event, and note what it is to do. -/
def feed (s : Session σ) (e : BridgeEvent (Adapter σ)) : Session σ :=
  let (bridge, effects) := s.bridge.step e
  { s with bridge, agenda := s.agenda ++ effects }

/-- The bridge ends: it takes no more messages, and what it had still to do is not done. -/
def stop (s : Session σ) : Session σ :=
  { s with
    stopped := true, inbound := s.inbound.closeReceiver, outbound := s.outbound.closeSender }

/-- A panic that nobody catches ends the bridge. -/
def crashed (s : Session σ) (p : Panic) : Session σ := { s.stop with crash := some p }

/-- Begin a load. A name that is not registered fails at once. -/
def beginLoad (s : Session σ) (name : String) : Session σ :=
  match s.registry.find? name with
  | none => s.feed (.loaded (.error (.unknownModule name)))
  | some x =>
    { s with
      started := some x
      job := .loading x (.start x.module.starting) (s.now + s.bridge.settings.loadTimeout) false }

def beginCall (s : Session σ) (a : Adapter σ) (command : String) : Session σ :=
  { s with job := .calling s.now (a.execute s.bridge.settings.contextId command) }

/-- Carry out one effect. A post to a host that has left ends the bridge; one to a full channel
waits. -/
def perform (s : Session σ) (e : Effect (Adapter σ)) (rest : List (Effect (Adapter σ))) :
    Option (Session σ) :=
  match e with
  | .publish t => some { s with agenda := rest, events := (s.events.publish t).1 }
  | .post m =>
    if !s.outbound.receiving then some s.stop
    else if s.outbound.hasRoom then
      some { s with agenda := rest, outbound := s.outbound.push m }
    else none
  | .load name => some ({ s with agenda := rest }.beginLoad name)
  | .call a command => some ({ s with agenda := rest }.beginCall a command)

/-- Take the next message, if there is one. -/
def takeMessage (s : Session σ) : Option (Session σ) :=
  s.inbound.take?.map fun (m, inbound) => { s with inbound }.feed (.received m)

/-- End the load with what it gave. -/
def finishLoad (s : Session σ) : Loaded σ → Session σ
  | .ready a => { s with job := .none }.feed (.loaded (.ok a))
  | .refused e => { s with job := .none }.feed (.loaded (.error e))
  | .crashed p => s.crashed p

/-- Look at the load, then at its deadline. -/
def look (s : Session σ) (x : Registration σ) (p : Progress) (deadline : Nat) : Session σ :=
  let settings := s.bridge.settings
  let conclude := x.module.conclude settings.loadTimeout settings.execTimeout
  let (result, released) := p.poll s.now (s.releases.contains x.serial)
  let s := if released then s else { s with releases := s.releases.erase x.serial }
  match result with
  | .inr verdict => s.finishLoad (conclude verdict)
  | .inl p =>
    if deadline ≤ s.now then s.finishLoad (conclude .late)
    else { s with job := .loading x p deadline true }

/-- Let the bridge have its turn: it looks at its load again. -/
def wake (s : Session σ) : Session σ :=
  match s.job with
  | .loading x p deadline _ => { s with job := .loading x p deadline false }
  | _ => s

/-- End a call with its answer. -/
def finishCall (s : Session σ) (x : Execution σ) : Session σ :=
  match x.answer with
  | .ok text => { s with job := .none }.feed (.answered x.after (.ok text))
  | .error e => { s with job := .none }.feed (.answered x.after (.error e))
  | .crashed p => s.crashed p

/-- One step of the bridge; none if it has to wait. -/
def advance (s : Session σ) : Option (Session σ) :=
  if s.stopped then none
  else
    match s.agenda, s.job with
    | e :: rest, _ => s.perform e rest
    | [], .none =>
      if s.inbound.exhausted then some s.stop else s.takeMessage
    | [], .loading x p deadline seen =>
      if seen then s.wake.takeMessage else some (s.look x p deadline)
    | [], .calling since x =>
      if since + x.millis ≤ s.now then some (s.finishCall x) else none

/-- Whether a load has let others run first. -/
def yields (s : Session σ) : Bool :=
  !s.stopped &&
    match s.job with
    | .loading _ p _ seen => seen && p.wait = .turn
    | _ => false

/-- Whether the bridge waits for messages. -/
def listens (s : Session σ) : Bool :=
  !s.stopped && s.agenda.isEmpty &&
    match s.job with
    | .calling _ _ => false
    | _ => true

/-- The time at which the bridge goes on without a message. -/
def timer (s : Session σ) : Option Nat :=
  if s.stopped || !s.agenda.isEmpty then none
  else
    match s.job with
    | .none => none
    | .loading _ p deadline _ =>
      some (match p.wakes with | some t => min t deadline | none => deadline)
    | .calling since x => some (since + x.millis)

/-- A bound on the steps that the bridge can take before it needs another message. Each message and
each waiting command costs a few; a load costs one for each of its acts. -/
def effort (s : Session σ) : Nat :=
  let acts (script : Script) := script.acts.length + 2
  let load :=
    match s.job with
    | .loading _ p _ _ => acts p.rest
    | _ => s.registry.entries.foldl (fun n x => n + acts x.module.starting) 0
  8 * (s.inbound.items.length + s.bridge.pending.length + s.agenda.length + 4) + 2 * load

/-- The engine that an effect hands out. -/
def Effect.engine? : Effect (Adapter σ) → Option (Adapter σ)
  | .call a _ => some a
  | _ => none

/-- The adapter as it is at this time, once a load has handed it out. -/
def adapter? (s : Session σ) : Option (Adapter σ) :=
  match s.job, s.bridge.phase with
  | .calling since x, _ => some (x.adapterAt (s.now - since))
  | _, .ready _ a => some a
  | _, _ => s.agenda.findSome? Effect.engine?

end Session

end EngineBridge
