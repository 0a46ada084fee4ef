import EngineBridge.Bridge.Basic

/-!
# The statements of a bridge

The same bridge, one assignment after another. Its fields are set each by a statement of its own,
and nothing but these statements keeps them in step. What a statement needs it looks up in the
fields, and has an answer for the case that it is not there.
-/

namespace EngineBridge

/-- What a bridge keeps, field by field. Any of them may be there or not, whatever the state. -/
structure Fields (α : Type) where
  settings : BridgeSettings
  state : Lifecycle := .uninitialized
  adapter : Option α := none
  pending : List String := []
  module : Option String := none
  failure : Option LoadError := none

/-- One statement of a bridge. The statements of a larger one are told by the fields as they stand
when it is reached. -/
inductive Statement (α : Type) where
  | start (module : Option String)
  | command (text : String)
  | execute (text : String)
  /-- Execute the waiting commands, oldest first. -/
  | drain
  | fail (e : LoadError)
  /-- Answer each waiting command with the error of the load. -/
  | refuse (e : LoadError)
  | status
  | setState (target : Lifecycle)
  | setAdapter (a : α)
  | setModule (name : String)
  | setFailure (e : LoadError)
  | post (m : Outbound)
  /-- Wait for the load of a module. -/
  | load (module : String)
  /-- Wait for the adapter to execute a command. -/
  | call (a : α) (command : String)

namespace Statement

variable {α : Type}

def error (e : BridgeError) : Statement α := .post e.notice

/-- What a message asks for that is taken between two others. -/
def ofMessage : Inbound → Statement α
  | .control (.start module) => .start module
  | .control .status => .status
  | .command text => .command text
  | .malformed reason => .error (.malformed reason)

/-- What a message asks for that is taken during a load. -/
def whileLoading : Inbound → List (Statement α)
  | .control (.start _) => []
  | .control .status => [.status]
  | .command text => [.command text]
  | .malformed reason => [.error (.malformed reason)]

/-- What is done when the load has ended. -/
def afterLoad : Except LoadError α → List (Statement α)
  | .ok a => [.setAdapter a, .setState .ready, .post (.notice .ready), .drain]
  | .error e => [.fail e]

end Statement

namespace Fields

variable {α : Type}

def start (f : Fields α) (module : Option String) : List (Statement α) :=
  if f.state ≠ .uninitialized then []
  else
    .setState .loading ::
      match module.or f.settings.defaultModule with
      | none => [.fail .noModule]
      | some name => [.setModule name, .load name]

def execute (f : Fields α) (text : String) : List (Statement α) :=
  match f.adapter with
  | none => [.error (.engine .notReady)]
  | some a => [.call a text]

def defer (f : Fields α) (text : String) : Fields α × List (Statement α) :=
  match f.settings.pendingPolicy with
  | .reject => (f, [.error (.engine .notReady)])
  | .queue =>
    if f.settings.maxPending ≤ f.pending.length then
      (f, [.error (.queueFull f.settings.maxPending)])
    else ({ f with pending := f.pending ++ [text] }, [])

def command (f : Fields α) (text : String) : Fields α × List (Statement α) :=
  match f.state with
  | .ready => (f, [.execute text])
  | .uninitialized | .loading => f.defer text
  | .failed =>
    match f.failure with
    | some e => (f, [.error (.load e)])
    | none => (f, [.error (.engine .notReady)])

def drain (f : Fields α) : Fields α × List (Statement α) :=
  match f.pending with
  | [] => (f, [])
  | text :: rest => ({ f with pending := rest }, [.execute text, .drain])

def refuse (f : Fields α) (e : LoadError) : Fields α × List (Statement α) :=
  match f.pending with
  | [] => (f, [])
  | _ :: rest => ({ f with pending := rest }, [.error (.load e), .refuse e])

/-- Carry out one statement: the fields behind it, the statements that come in its place, and what
is seen of it from outside. -/
def run (f : Fields α) : Statement α → (Fields α × List (Statement α)) × Option (Effect α)
  | .start module => ((f, f.start module), none)
  | .command text => (f.command text, none)
  | .execute text => ((f, f.execute text), none)
  | .drain => (f.drain, none)
  | .fail e => ((f, [.setState .failed, .setFailure e, .error (.load e), .refuse e]), none)
  | .refuse e => (f.refuse e, none)
  | .status => ((f, [.post (.notice (.status f.state f.module f.pending.length))]), none)
  | .setState target =>
    (({ f with state := target }, []), some (.publish ⟨f.state, target⟩))
  | .setAdapter a => (({ f with adapter := some a }, []), none)
  | .setModule name => (({ f with module := some name }, []), none)
  | .setFailure e => (({ f with failure := some e }, []), none)
  | .post m => ((f, []), some (.post m))
  | .load name => ((f, []), some (.load name))
  | .call a text => ((f, []), some (.call a text))

end Fields

/-- What a bridge turns to once it has nothing left to do. -/
inductive Awaiting (α : Type) where
  | message
  /-- The end of the load, or a message. -/
  | load
  /-- The end of a call. Until then nothing else is done. -/
  | answer (a : α) (command : String)
  /-- Nothing more: the bridge has ended. -/
  | nothing

/-- Whether no call is under way, nor the end reached. -/
def Awaiting.free {α : Type} : Awaiting α → Bool
  | .message | .load => true
  | .answer _ _ | .nothing => false

/-- A bridge between two statements. -/
structure Worker (α : Type) where
  fields : Fields α
  todo : List (Statement α) := []
  awaiting : Awaiting α := .message

namespace Worker

variable {α : Type}

/-- A bridge that has seen nothing yet. -/
def create (settings : BridgeSettings) : Worker α := { fields := { settings } }

/-- Whether the bridge is about to take a message, in its loop or in that of a load. -/
def listens (w : Worker α) : Bool := w.awaiting.free && w.todo.isEmpty

/-- What is waited for behind an effect. -/
def awaitingAfter (w : Worker α) : Option (Effect α) → Awaiting α
  | some (.load _) => .load
  | some (.call a text) => .answer a text
  | _ => w.awaiting

/-- Carry out the next statement, if there is one. -/
def advance (w : Worker α) : Option (Worker α × Option (Effect α)) :=
  match w.awaiting.free, w.todo with
  | true, s :: rest =>
    let ((fields, more), effect) := w.fields.run s
    some ({ fields, todo := more ++ rest, awaiting := w.awaitingAfter effect }, effect)
  | _, _ => none

/-- Take a message. -/
def take (w : Worker α) (m : Inbound) : Worker α :=
  match w.awaiting with
  | .load => { w with todo := Statement.whileLoading m }
  | _ => { w with todo := [.ofMessage m] }

@[simp] theorem take_fields (w : Worker α) (m : Inbound) : (w.take m).fields = w.fields := by
  unfold take
  split <;> rfl

@[simp] theorem take_awaiting (w : Worker α) (m : Inbound) :
    (w.take m).awaiting = w.awaiting := by
  unfold take
  split <;> rfl

/-- The load has ended. -/
def loaded (w : Worker α) (result : Except LoadError α) : Worker α :=
  { w with todo := Statement.afterLoad result, awaiting := .message }

/-- A call has ended, which has left the adapter changed. -/
def answered (w : Worker α) (after : α) (result : Except EngineError String) : Worker α where
  fields := { w.fields with adapter := some after }
  todo := (Bridge.answerPosts result).map .post ++ w.todo
  awaiting := .message

/-- What is left to be done is not done. -/
def stop (w : Worker α) : Worker α := { w with todo := [], awaiting := .nothing }

end Worker

end EngineBridge
