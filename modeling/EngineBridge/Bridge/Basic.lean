import EngineBridge.Settings.Basic
import EngineBridge.Wire.Message

/-!
# The bridge

A bridge takes one event at a time: a message of the host, the end of a load, or the answer to a
call. For each it says what to do, in order. It loads at most one engine, runs one command at a
time, and keeps the commands that arrive before the engine is ready.
-/

namespace EngineBridge

/-- How far the bridge has come, with the engine where there is one. -/
inductive Phase (α : Type) where
  | uninitialized
  | loading (module : String)
  | ready (module : String) (engine : α)
  /-- The engine is away on a call. -/
  | running (module : String)
  | failed (module : Option String) (error : LoadError)
  deriving Repr

namespace Phase

variable {α : Type}

def lifecycle : Phase α → Lifecycle
  | .uninitialized => .uninitialized
  | .loading _ => .loading
  | .ready _ _ => .ready
  | .running _ => .ready
  | .failed _ _ => .failed

/-- The module that was to be loaded. -/
def module : Phase α → Option String
  | .uninitialized => none
  | .loading m => some m
  | .ready m _ => some m
  | .running m => some m
  | .failed m _ => m

end Phase

structure Bridge (α : Type) where
  settings : BridgeSettings
  phase : Phase α := .uninitialized
  /-- Commands that wait for the engine, oldest first. -/
  pending : List String := []
  deriving Repr

inductive BridgeEvent (α : Type) where
  | received (m : Inbound)
  | loaded (result : Except LoadError α)
  | answered (engine : α) (result : Except EngineError String)

inductive Effect (α : Type) where
  | publish (t : Transition)
  | post (m : Outbound)
  | load (module : String)
  | call (engine : α) (command : String)

namespace Bridge

variable {α : Type}

def lifecycle (b : Bridge α) : Lifecycle := b.phase.lifecycle

def status (b : Bridge α) : Outbound :=
  .notice (.status b.lifecycle b.phase.module b.pending.length)

/-- What the host sees of a call: its output, its error, or nothing. -/
def answerPosts : Except EngineError String → List Outbound
  | .ok text => if text.isEmpty then [] else [.response text]
  | .error e => [(BridgeError.engine e).notice]

/-- Keep or refuse a command that arrives before the engine is ready. -/
def defer (b : Bridge α) (text : String) : Bridge α × List (Effect α) :=
  match b.settings.pendingPolicy with
  | .reject => (b, [.post (BridgeError.engine .notReady).notice])
  | .queue =>
    if b.settings.maxPending ≤ b.pending.length then
      (b, [.post (BridgeError.queueFull b.settings.maxPending).notice])
    else ({ b with pending := b.pending ++ [text] }, [])

/-- End a load without an engine: the failure is told once, and once for each waiting command. -/
def fail (b : Bridge α) (module : Option String) (e : LoadError) : Bridge α × List (Effect α) :=
  let post : Effect α := .post (BridgeError.load e).notice
  ({ b with phase := .failed module e, pending := [] },
    .publish ⟨.loading, .failed⟩ :: post :: b.pending.map fun _ => post)

/-- Run the oldest waiting command, or be ready for the next message. -/
def proceed (b : Bridge α) (module : String) (engine : α) : Bridge α × List (Effect α) :=
  match b.pending with
  | [] => ({ b with phase := .ready module engine }, [])
  | text :: rest =>
    ({ b with phase := .running module, pending := rest }, [.call engine text])

/-- Begin the one load of a bridge, of the module named or else of the configured one. -/
def start (b : Bridge α) (module : Option String) : Bridge α × List (Effect α) :=
  match b.phase with
  | .uninitialized =>
    let begun : Effect α := .publish ⟨.uninitialized, .loading⟩
    match module.or b.settings.defaultModule with
    | none =>
      let (b, effects) := b.fail none .noModule
      (b, begun :: effects)
    | some m => ({ b with phase := .loading m }, [begun, .load m])
  | _ => (b, [])

def command (b : Bridge α) (text : String) : Bridge α × List (Effect α) :=
  match b.phase with
  | .uninitialized | .loading _ => b.defer text
  | .ready m engine => ({ b with phase := .running m }, [.call engine text])
  | .failed _ e => (b, [.post (BridgeError.load e).notice])
  | .running _ => (b, [])

def receive (b : Bridge α) : Inbound → Bridge α × List (Effect α)
  | .control (.start module) => b.start module
  | .control .status => (b, [.post b.status])
  | .command text => b.command text
  | .malformed reason => (b, [.post (BridgeError.malformed reason).notice])

/-- Take one event. What the phase does not wait for changes nothing. -/
def step (b : Bridge α) : BridgeEvent α → Bridge α × List (Effect α)
  | .received m => b.receive m
  | .loaded result =>
    match b.phase, result with
    | .loading m, .ok engine =>
      let (b, effects) := b.proceed m engine
      (b, .publish ⟨.loading, .ready⟩ :: .post (.notice .ready) :: effects)
    | .loading m, .error e => b.fail (some m) e
    | _, _ => (b, [])
  | .answered engine result =>
    match b.phase with
    | .running m =>
      let (b, effects) := b.proceed m engine
      (b, (answerPosts result).map .post ++ effects)
    | _ => (b, [])

end Bridge

end EngineBridge
