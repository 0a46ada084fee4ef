import EngineBridge.Programs.Shell.Builtin.Basic
import EngineBridge.Programs.Shell.Condition
import EngineBridge.Programs.Shell.Format

/-!
# Builtin commands that write, test and leave
-/

namespace EngineBridge.Shell.Builtin

def echo (args : Args) : Run Unit := answer (Format.echo args)

/-- Complaints come before the text. -/
def printf (args : Args) : Run Unit := do
  let (_, args) ← options "" args
  match args with
  | [] => Run.failWith "usage: printf format [arg ...]"
  | format :: args =>
    let p := Format.printf format args
    for w in p.warnings.reverse do
      Run.warn w
    if let some reason := p.fatal then Run.warn reason
    Run.setStatus (if p.fatal.isSome then 2 else if p.warnings.isEmpty then 0 else 1)
    put p.text.reverse

def test (args : Args) : Run Unit := do
  Run.setStatus (if ← Condition.holds (args.length + 4) args then 0 else 1)

/-- The test whose last argument is a closing bracket. -/
def bracket (args : Args) : Run Unit := do
  if (args.getLast?.bind List.head?) = some ']' then test args.dropLast
  else Run.failWith "missing ]"

def exit (args : Args) : Run Unit := do
  match args with
  | a :: _ =>
    let n ← count a
    modify fun s => { s with status := n, statusBefore := some n }
  | [] => modify fun s => { s with status := s.statusBefore.getD s.status }
  throw .exit

def returnCommand (args : Args) : Run Unit := do
  if let a :: _ := args then Run.setStatus (← count a)
  throw .leaveFunction

/-- `break` and `continue`, out of as many loops as there are. -/
def leave (interrupt : Nat → Interrupt) (args : Args) : Run Unit := do
  let n ← match args with | a :: _ => count a | [] => pure 1
  if n = 0 then Run.fail ("Illegal number: ".toList ++ args.head?.getD [])
  Run.setStatus 0
  match min n (← get).loops with
  | 0 => return ()
  | n + 1 => throw (interrupt n)

def times : Run Unit := do
  let line := "0m0.000000s 0m0.000000s\n"
  answer (line ++ line).toList

def ulimit (args : Args) : Run Unit := do
  let (_, args) ← options "HSatfdscmlpnvwr" args
  if args.isEmpty then answer "unlimited\n".toList else Run.setStatus 0

def noCurrentJob : Run Unit := Run.failWith "No current job"

end EngineBridge.Shell.Builtin
