import EngineBridge.Programs.Shell.Builtin.Signals
import EngineBridge.Programs.Shell.Builtin.Surroundings
import EngineBridge.Programs.Shell.Builtin.Variables
import EngineBridge.Programs.Shell.Grammar

/-!
# Scripts

A script is read and run a line at a time, so that what a line does can change how the next one is
read.
-/

namespace EngineBridge.Shell

/-- Where a script comes from. -/
inductive Origin where
  | argument
  /-- Its lines may be shown as they are read. -/
  | file
  deriving DecidableEq, Repr

namespace Run

/-- Several commands as one. -/
def together : List Command → Command
  | [c] => c
  | cs => .sequence cs

/-- Run what is left to be read. The status is zero if there is nothing, unless something has been
run before, which `some_` says. -/
def runFrom (nested : Nested) (origin : Origin) (tested : Bool) : Nat → Bool → Reader → Run Unit
  | 0, _, _ => throw .busy
  | fuel + 1, ran, r => do
    let s ← get
    let (outcome, next) :=
      nextLine.run.run { r with aliases := s.aliases, documents := s.documents }
    if origin = .file && (← hasOption 'v') then
      let _ ← writeTo 2 (r.rest.take (r.rest.length - next.rest.length))
    match outcome with
    | .error .starved => throw .waiting
    | .error .exhausted => throw (.killed 11)
    | .error (.malformed line message) =>
      modify fun s => { s with line }
      failWith ("Syntax error: " ++ message)
    | .ok none => if !ran then setStatus 0
    | .ok (some []) => runFrom nested origin tested fuel ran next
    | .ok (some cs) =>
      modify fun s => { s with documents := next.documents }
      nested (.command tested (together cs))
      runFrom nested origin tested fuel true next

def runText (nested : Nested) (origin : Origin) (tested : Bool) (source : List Char) : Run Unit :=
  runFrom nested origin tested (source.length + 2) false { rest := source }

/-- Run what has been asked for at the end of a shell. It changes the status only if it says so. -/
def finish (nested : Nested) : Run Unit := do
  let s ← get
  match s.traps.lookup 0 with
  | none => return ()
  | some action =>
    Builtin.setTrap 0 none
    modify fun t => { t with statusBefore := some s.status, loops := 0 }
    match ← attempt (runText nested .argument false action) with
    | some .waiting => throw .waiting
    | some .busy => throw .busy
    | some (.killed n) => throw (.killed n)
    | some .failure => return ()
    | _ => modify fun t => { t with status := t.statusBefore.getD s.status }

/-- Answer one signal. -/
def answerSignal (nested : Nested) (n : Nat) : Run Unit := do
  let s ← get
  match s.traps.lookup n with
  | none => Builtin.meetSignal n
  | some action =>
    let status := s.statusBefore.getD s.status
    modify fun t => { t with statusBefore := some status }
    runText nested .argument false action
    modify fun t => { t with status, statusBefore := s.statusBefore }

/-- Answer the signals that have come, in the order of their numbers. -/
def answerSignals (nested : Nested) : Run Unit := do
  let s ← get
  if s.depth = 0 && !s.signals.isEmpty then
    set { s with signals := [] }
    for n in List.range Builtin.signalLimit do
      if s.signals.contains n then answerSignal nested n

/-- The options that a shell is started with, and whether a script is among its arguments. -/
def startOptions : Nat → Bool → Args → Run (Bool × Args)
  | 0, hasScript, args => return (hasScript, args)
  | fuel + 1, hasScript, args => do
    match args with
    | ['-'] :: rest | ['-', '-'] :: rest => return (hasScript, rest)
    | ('-' :: cs) :: rest => letters fuel true hasScript cs rest
    | ('+' :: cs) :: rest => letters fuel false hasScript cs rest
    | args => return (hasScript, args)
where
  letters (fuel : Nat) (on hasScript : Bool) : List Char → Args → Run (Bool × Args)
    | [], rest => startOptions fuel hasScript rest
    | 'c' :: cs, rest => letters fuel on true cs rest
    | 'l' :: cs, rest => letters fuel on hasScript cs rest
    | 'o' :: cs, rest => do
      if let name :: _ := rest then Builtin.setNamedOption on name
      letters fuel on hasScript cs (rest.drop 1)
    | c :: cs, rest => do
      Builtin.setOption on c
      letters fuel on hasScript cs rest

/-- Variables that every shell has. -/
def firstVariables : List (String × String) :=
  [("IFS", " \t\n"), ("OPTIND", "1"), ("PPID", "0"), ("PS1", "# "), ("PS2", "> "), ("PS4", "+ ")]

/-- Become a shell: keep only what a process inherits. -/
def becomeShell (name : List Char) : Run Unit :=
  modify fun s =>
    let inherited := s.scope.filter fun v => v.2.exported && isName v.1.toList
    let own := firstVariables.filter fun v =>
      ["IFS", "OPTIND", "PPID"].contains v.1 || (inherited.lookup v.1).isNone
    let path : List (String × Variable) :=
      if (inherited.lookup "PATH").isSome then []
      else [("PATH", { value := some Builtin.standardPath.toList })]
    let kept := inherited.filter fun v => (own.lookup v.1).isNone && v.1 ≠ "PWD"
    let directory : Variable := { value := some s.directoryName, exported := true }
    let made := own.map fun v =>
      (v.1, ({ value := some v.2.toList
               exported := (inherited.lookup v.1).isSome } : Variable))
    { s with
      scope := ("PWD", directory) :: kept ++ made ++ path
      scriptName := name, functions := [], aliases := [], arguments := [], options := []
      status := 0, outputStatus := 0, line := 0, functionLine := 0, command := none, loops := 0
      optionPlace := 1, optionOffset := none, locals := [], statusBefore := none, depth := 0
      signals := [] }

/-- The script that a shell reads from its input: all that is there. -/
def inputScript : Run Reader := do
  match ← streamOf 0 with
  | some (n, stream) =>
    setStream n { stream with rest := [] }
    return { rest := stream.rest, more := stream.more }
  | none => return { rest := [] }

/-- Run the script that the arguments of a shell name. -/
def shellScript (nested : Nested) (args : Args) : Run Unit := do
  let size := args.foldl (fun n a => n + a.length + 1) 1
  let (hasScript, args) ← startOptions size false args
  if hasScript && args.isEmpty then failWith "-c requires an argument"
  let fromInput := hasOption 's'
  let readInput : Run Unit := do
    let r ← inputScript
    runFrom nested .file false (r.rest.length + 2) false r
  if hasScript then
    let rest := args.drop 1
    modify fun s =>
      { s with scriptName := rest.head?.getD s.scriptName, arguments := rest.drop 1, line := 1 }
    runText nested .argument false (args.head?.getD [])
    if ← fromInput then readInput
  else if args.isEmpty || (← fromInput) then
    modify fun s =>
      { s with arguments := args, line := 1, options := 's' :: s.options.filter (· ≠ 's') }
    readInput
  else
    let path := args.head?.getD []
    let s ← get
    match s.files.read s.directory path with
    | .ok source =>
      modify fun s => { s with scriptName := path, arguments := args.drop 1, line := 1 }
      runText nested .file false source
    | .error e =>
      fail ("cannot open ".toList ++ path ++
        (": " ++ (if e = .isDirectory then "Is a directory" else "No such file")).toList)

/-- A shell from its start to its end. -/
def shell (nested : Nested) (name : List Char) (args : Args) : Run Unit := do
  becomeShell name
  concluding (finish nested) (shellScript nested args)

end Run

end EngineBridge.Shell
