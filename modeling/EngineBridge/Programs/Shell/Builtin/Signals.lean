import EngineBridge.Programs.Shell.Builtin.Basic

/-!
# Signals

The signals that a shell sends and answers, and the jobs that it waits for.
-/

namespace EngineBridge.Shell.Builtin

/-- The names of signals, in the order of their numbers. Zero stands for the end of the shell. -/
def signalNames : List String :=
  ["EXIT", "HUP", "INT", "QUIT", "ILL", "TRAP", "ABRT", "BUS", "FPE", "KILL", "USR1", "SEGV",
    "USR2", "PIPE", "ALRM", "TERM", "STKFLT", "CHLD", "CONT", "STOP", "TSTP", "TTIN", "TTOU", "URG",
    "XCPU", "XFSZ", "VTALRM", "PROF", "WINCH", "IO", "PWR", "SYS"]

/-- One more than the greatest number. -/
def signalLimit : Nat := 65

/-- The signal that a number or a name means. -/
def signal? (cs : List Char) : Option Nat :=
  if !cs.isEmpty && cs.all Char.isDigit then
    match (String.ofList cs).toNat? with
    | some n => if n < signalLimit then some n else none
    | none => none
  else
    let name := String.ofList (cs.map Char.toUpper)
    signalNames.findIdx? (· = name)

def signalName (n : Nat) : String := (signalNames[n]?).getD n.repr

/-- Signals that do nothing unless there is a trap. -/
def harmless : List Nat := [17, 18, 23, 28]

/-- Signals that stop what they meet. -/
def stopping : List Nat := [19, 20, 21, 22]

def setTrap (n : Nat) (action : Option (List Char)) : Run Unit :=
  modify fun s =>
    let others := s.traps.filter (·.1 ≠ n)
    { s with traps := match action with | some a => (n, a) :: others | none => others }

def trapListing : Run (List Char) := do
  let traps := (← get).traps
  return (List.range signalLimit).flatMap fun n =>
    match traps.lookup n with
    | some action => "trap -- ".toList ++ shown action ++ (" " ++ signalName n ++ "\n").toList
    | none => []

def trap (args : Args) : Run Unit := do
  let (_, args) ← options "" args
  match args with
  | [] => answer (← trapListing)
  | first :: rest =>
    let resets := rest.isEmpty || (signal? first).isSome && first.all Char.isDigit
    let action := if resets || first = ['-'] then none else some first
    Run.setStatus 0
    for a in (if resets then first :: rest else rest) do
      match signal? a with
      | some n => setTrap n action
      | none =>
        let _ ← Run.writeTo 2 ("trap: ".toList ++ a ++ ": bad trap\n".toList)
        Run.setStatus 1
        return ()

/-- The number by which a shell knows itself. -/
def ownNumber : Nat := 1

/-- What a signal does that the shell has no trap for. -/
def meetSignal (n : Nat) : Run Unit := do
  if harmless.contains n then return ()
  else if stopping.contains n then throw .waiting
  else throw (.killed n)

def killUsage : String :=
  "Usage: kill [-s sigspec | -signum | -sigspec] [pid | job]... or\nkill -l [exitstatus]"

/-- The signal that `kill` is asked for, and whom to send it to. -/
def killArguments (args : Args) : Run (Nat × Args) := do
  let bad {α : Type} (cs : List Char) : Run α :=
    Run.fail ("invalid signal number or name: ".toList ++ cs)
  match args with
  | ['-', 's'] :: name :: rest =>
    match signal? name with
    | some n => return (n, rest)
    | none => bad name
  | ['-', '-'] :: rest => return (15, rest)
  | ('-' :: name) :: rest =>
    match signal? name with
    | some n => return (n, if rest.head? = some ['-', '-'] then rest.drop 1 else rest)
    | none =>
      match name with
      | c :: _ => Run.fail ("Illegal option -".toList ++ [c])
      | [] => Run.failWith killUsage
  | _ => return (15, args)

def kill (args : Args) : Run Unit := do
  match args with
  | ['-', 'l'] :: rest =>
    Run.setStatus 0
    match rest with
    | [] =>
      put ("0\n".toList ++ ((List.range signalLimit).drop 1).flatMap fun n =>
        (signalName n ++ "\n").toList)
    | a :: _ =>
      let n ← count a
      let n := if 128 < n then n - 128 else n
      if 0 < n && n < signalLimit then putLine (signalName n).toList
      else Run.fail ("invalid signal number or exit status: ".toList ++ a)
  | _ =>
    let (n, whom) ← killArguments args
    if whom.isEmpty then Run.failWith killUsage
    Run.setStatus 0
    for a in whom do
      if a = ownNumber.repr.toList then
        if n ≠ 0 then modify fun s => { s with signals := n :: s.signals }
      else if (← get).jobs.any (·.number.repr.toList = a) then
        modify fun s =>
          { s with
            jobs := s.jobs.map fun j =>
              if j.number.repr.toList = a && !j.events.isEmpty && n ≠ 0 then
                { j with events := [], status := Run.signalStatus n }
              else j }
      else
        let _ ← count (if a.head? = some '-' then a.drop 1 else a)
        Run.warn "No such process\n".toList
        Run.setStatus 1

/-- Let a job come to its end. -/
def finishJob (j : Job) : Run Unit :=
  modify fun s =>
    { s with
      log := j.events.reverse ++ s.log
      jobs := s.jobs.map fun k => if k.number = j.number then { k with events := [] } else k }

def wait (args : Args) : Run Unit := do
  Run.setStatus 0
  if args.isEmpty then
    for j in (← get).jobs do
      finishJob j
  for a in args do
    match (← get).jobs.find? (·.number.repr.toList = a) with
    | some j =>
      finishJob j
      Run.setStatus j.status
    | none => Run.setStatus 127

end EngineBridge.Shell.Builtin
