import EngineBridge.Engine.Registry

/-!
# Scripted engines

Engines that answer exact command texts from a table, and count what they are asked to do.
-/

namespace EngineBridge

/-- What a scripted engine does for one command. -/
inductive Reply where
  | output (text : String)
  /-- Print the fragments one after another, and let others run after each. -/
  | chunks (fragments : List String)
  | silent
  | fault (reason : String)
  | panic (reason : String)
  | hang
  deriving DecidableEq, Repr

def Reply.script : Reply → Script
  | .output text => ⟨[.emit text], .done⟩
  | .chunks fragments => ⟨fragments.flatMap fun s => [.emit s, .yield], .done⟩
  | .silent => .nothing
  | .fault reason => ⟨[], .fault (.ofText reason)⟩
  | .panic reason => ⟨[], .panic (.text reason)⟩
  | .hang => ⟨[], .hang⟩

/-- A table of work by command text, and what was asked of it so far, latest first. -/
structure Scripted where
  replies : List (String × Script)
  /-- The fault of a command that the table lacks. -/
  missing : String → Fault
  recovery : Option Script
  version : Option String
  executed : List (Nat × String) := []
  recoveries : Nat := 0

namespace Scripted

def script (s : Scripted) (command : String) : Script :=
  match s.replies.find? (·.1 = command) with
  | some (_, script) => script
  | none => ⟨[], .fault (s.missing command)⟩

instance : Interpreter Scripted where
  execute s context command :=
    .settled (s.script command) { s with executed := (context, command) :: s.executed }
  recover s := s.recovery.map fun r => (r, { s with recoveries := s.recoveries + 1 })
  version s := s.version

/-- A table of replies; its recovery succeeds or fails at once. -/
def ofReplies (replies : List (String × Reply)) (failingRecovery : Bool) : Scripted where
  replies := replies.map fun (command, reply) => (command, reply.script)
  missing command := .ofText ("ScriptedInterpreter: no reply for `" ++ command ++ "`")
  recovery :=
    some (if failingRecovery then ⟨[], .fault (.ofText "scripted recovery failure")⟩
      else .nothing)
  version := some "scripted"

/-- How a scripted module starts: it waits for a release if it is gated, and then may fail. -/
def starting (gated : Bool) (failure : Option String) : Script :=
  ⟨if gated then [.gate] else [],
    match failure with
    | none => .done
    | some reason => .fault (.ofText reason)⟩

def description : String := "Scripted interpreter with fixed replies"

end Scripted

end EngineBridge
