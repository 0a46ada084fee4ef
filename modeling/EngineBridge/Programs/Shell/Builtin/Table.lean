import EngineBridge.Programs.Shell.Builtin.Control
import EngineBridge.Programs.Shell.Builtin.Input
import EngineBridge.Programs.Shell.Builtin.Signals
import EngineBridge.Programs.Shell.Builtin.Surroundings

/-!
# The table of builtin commands

All that do not run other commands.
-/

namespace EngineBridge.Shell.Builtin

/-- What `command` does when it runs nothing. -/
def describeCommand (args : Args) : Run Unit := do
  let (opts, args) ← options "pvV" args
  Run.setStatus 0
  let asked := opts.filter (·.1 ≠ 'p')
  let path ←
    if opts.any (·.1 = 'p') then pure standardPath.toList else searchPath
  if let a :: _ := args then
    if !asked.isEmpty then
      if !(← describe (asked.any (·.1 = 'V')) path a) then Run.setStatus 127

/-- Look for programs. -/
def hash (args : Args) : Run Unit := do
  let (_, args) ← options "rv" args
  Run.setStatus 0
  for a in args do
    if !isBuiltin (String.ofList a) && ((← get).functions.lookup (String.ofList a)).isNone then
      if let .error _ ← findProgram a (← searchPath) then
        Run.warn (a ++ ": not found".toList)
        Run.setStatus 1

def plain? (name : String) : Option (Args → Run Unit) :=
  match name with
  | ":" | "true" => some fun _ => Run.setStatus 0
  | "false" => some fun _ => Run.setStatus 1
  | "[" => some bracket
  | "alias" => some aliasCommand
  | "bg" | "fg" => some fun _ => noCurrentJob
  | "break" => some (leave .leaveLoop)
  | "cd" | "chdir" => some cd
  | "command" => some describeCommand
  | "continue" => some (leave .nextRound)
  | "echo" => some echo
  | "exit" => some exit
  | "export" =>
    some (mark "export" (·.exported) fun v => { v with exported := true })
  | "getopts" => some getopts
  | "hash" => some hash
  | "jobs" => some fun _ => Run.setStatus 0
  | "kill" => some kill
  | "local" => some localCommand
  | "printf" => some printf
  | "pwd" => some pwd
  | "read" => some read
  | "readonly" => some (mark "readonly" (·.fixed) fun v => { v with fixed := true })
  | "return" => some returnCommand
  | "set" => some set
  | "shift" => some shift
  | "test" => some test
  | "times" => some fun _ => times
  | "trap" => some trap
  | "type" => some typeOf
  | "ulimit" => some ulimit
  | "umask" => some umask
  | "unalias" => some unalias
  | "unset" => some unset
  | "wait" => some wait
  | _ => none

end EngineBridge.Shell.Builtin
