import EngineBridge.Programs.Shell.Execution

/-!
# Running commands

What compound commands do, and runs of whole processes. Commands are nested to a depth that is
given, and a script takes only so many steps.
-/

namespace EngineBridge.Shell

namespace Run

/-- How a round of a loop has ended. -/
inductive Round where
  | done
  | again
  | last
  deriving DecidableEq, Repr

def round (act : Run Unit) : Run Round :=
  tryCatch (do act; return .done) fun
    | .leaveLoop 0 => return .last
    | .leaveLoop (n + 1) => throw (.leaveLoop n)
    | .nextRound 0 => return .again
    | .nextRound (n + 1) => throw (.nextRound n)
    | e => throw e

/-- Run a loop, from inside of which it can be left. -/
def looping (act : Run Unit) : Run Unit := do
  let outer := (← get).loops
  modify fun s => { s with loops := outer + 1 }
  let interrupt ← attempt act
  modify fun s => { s with loops := outer }
  if let some e := interrupt then throw e

/-- The rounds of a loop with a test. Its status is that of the last round. -/
def rounds (nested : Nested) (tested whileTrue : Bool) (test body : Command) : Nat → Nat → Run Unit
  | 0, _ => throw .busy
  | fuel + 1, status => do
    step
    match ← round (nested (.command true test)) with
    | .last => setStatus status
    | .again => rounds nested tested whileTrue test body fuel status
    | .done =>
      if ((← get).status == 0) == whileTrue then
        match ← round (nested (.command tested body)) with
        | .last => return ()
        | _ => rounds nested tested whileTrue test body fuel (← get).status
      else setStatus status

/-- The rounds of a loop over values. -/
def roundsOver (nested : Nested) (tested : Bool) (name : String) (body : Command) :
    List (List Char) → Run Unit
  | [] => return ()
  | v :: rest => do
    assign name v
    match ← round (nested (.command tested body)) with
    | .last => return ()
    | _ => roundsOver nested tested name body rest

def runEach (nested : Nested) (tested : Bool) (line : Nat) (name : String)
    (words : Option (List Word)) (body : Command) : Run Unit := do
  modify fun s => { s with line }
  let values ←
    match words with
    | some ws => expandAll nested false ws
    | none => pure (← get).arguments
  if values.isEmpty then setStatus 0
  else looping (roundsOver nested tested name body values)

/-- Whether one of the patterns covers the subject. -/
def anyCovers (nested : Nested) (subject : List Char) : List Word → Run Bool
  | [] => return false
  | w :: rest => do
    let pattern := Pattern.ofGlyphs (glyphs (← nested (.word {} w)))
    if Pattern.covers pattern subject then return true else anyCovers nested subject rest

def chooseArm (nested : Nested) (tested : Bool) (subject : List Char) :
    List (List Word × List Command) → Run Unit
  | [] => setStatus 0
  | (patterns, body) :: rest => do
    if ← anyCovers nested subject patterns then
      if body.isEmpty then setStatus 0 else nested (.command tested (together body))
    else chooseArm nested tested subject rest

/-- Run commands as a process, with some descriptors changed. -/
def process (nested : Nested) (change act : Run Unit) : Run Unit :=
  isolated (finish nested) do
    change
    act

/-- Run the stages of a pipeline, each on what the one before it has written. Gives what has kept
the stages from their ends. -/
def runStages (nested : Nested) (tested : Bool) : Option Stream → List Command →
    Run (List (Option Interrupt))
  | _, [] => return []
  | input, c :: rest => do
    let change : Run Unit := do
      if let some stream := input then setDescriptor 0 (some (.stream (← newStream stream)))
    let act := nested (.command tested c)
    if rest.isEmpty then return [← attempt (process nested change act)]
    else
      let (interrupt, text) ← collecting fun sink =>
        process nested (do change; setDescriptor 1 (some (.sink sink))) act
      let others ← runStages nested tested (some { rest := text, more := interrupt.isSome }) rest
      return interrupt :: others

/-- Run a pipeline. A stage that goes on writing is ended by those behind it, one that waits is
waited for. -/
def runPipeline (nested : Nested) (tested : Bool) (stages : List Command) : Run Unit := do
  let outcomes ← runStages nested tested none stages
  let waits := outcomes.any (· = some .waiting)
  let busy := outcomes.any (· = some .busy)
  if (outcomes.getLast?.bind id).isSome && busy then throw .busy
  else if waits then throw .waiting

/-- Divide events at the first pause. -/
def untilPause (events : List Event) : List Event × List Event :=
  events.span fun | .pause _ => false | .write _ _ => true

/-- Start commands in the background. What they do after their first pause comes later. -/
def inBackground (nested : Nested) (change act : Run Unit) : Run Unit := do
  let outer := (← get).log
  modify fun s => { s with log := [] }
  let input : Run Unit := setDescriptor 0 (some (.device .null))
  let _ ← attempt (process nested (do input; change) act)
  modify fun s =>
    let (now, events) := untilPause s.log.reverse
    let number := s.jobs.length + 2
    { s with
      log := now.reverse ++ outer, status := 0, lastJob := some number
      jobs := s.jobs ++ [{ number, status := s.status, events }] }

def command (nested : Nested) (tested : Bool) : Command → Run Unit
  | .simple line assignments words redirections =>
    runSimple nested tested line assignments words redirections
  | .pipeline stages background => do
    if background then
      inBackground nested (return ()) (nested (.command tested (.pipeline stages false)))
    else
      runPipeline nested tested stages
      check tested
  | .negated body => do
    nested (.command true body)
    setStatus (if (← get).status = 0 then 1 else 0)
  | .both first second => do
    nested (.command true first)
    if (← get).status = 0 then nested (.command tested second)
  | .either first second => do
    nested (.command true first)
    if (← get).status ≠ 0 then nested (.command tested second)
  | .sequence items => items.forM fun c => nested (.command tested c)
  | .subshell line body redirections background => do
    modify fun s => { s with line }
    let ready ← redirections.mapM (expandRedirection nested)
    let change : Run Unit := ready.forM (redirect nested)
    if background then inBackground nested change (nested (.command false body))
    else
      process nested change (nested (.command tested body))
      check tested
  | .redirected line body redirections => do
    modify fun s => { s with line }
    redirecting nested redirections (setStatus 2) (nested (.command tested body))
  | .branch test body otherwise => do
    nested (.command true test)
    if (← get).status = 0 then nested (.command tested body)
    else
      match otherwise with
      | [] => setStatus 0
      | cs => nested (.command tested (together cs))
  | .loop whileTrue test body => do
    looping (rounds nested tested whileTrue test body ((← get).patience + 1) 0)
  | .each line name words body => runEach nested tested line name words body
  | .choose line subject arms => do
    modify fun s => { s with line }
    chooseArm nested tested (← expandText nested subject) arms
  | .define line name body =>
    modify fun s =>
      let others := s.functions.filter (·.1 ≠ name)
      { s with functions := (name, line, body) :: others, status := 0 }

/-- A text without the line feeds at its end, and without zero bytes. -/
def outputText (cs : List Char) : List Char :=
  ((cs.filter (· ≠ '\x00')).reverse.dropWhile (· = '\n')).reverse

/-- The output of commands. -/
def outputOf (nested : Nested) (body : List Command) : Run (List Char) := do
  let status := (← get).status
  let (interrupt, text) ← collecting fun sink =>
    process nested (setDescriptor 1 (some (.sink sink))) (nested (.command false (together body)))
  match interrupt with
  | some e => throw e
  | none =>
    modify fun s => { s with outputStatus := s.status, status }
    return outputText text

/-- What is nested to a depth. What is nested more deeply ends the shell. -/
def nested : Nat → Nested
  | 0 => fun _ => throw (.killed 11)
  | depth + 1 => fun
    | .command tested c => do
      step
      if !(← hasOption 'n') then
        command (nested depth) tested c
        answerSignals (nested depth)
    | .word mode w => expandWord (nested depth) mode w
    | .output body => outputOf (nested depth) body

/-- How deeply commands may be nested in a run. -/
def depthLimit : Nat := 10000

end Run

/-- Run a program with its arguments, from the state that it finds. Gives what it has done, and what
keeps it from its end. -/
def perform (program : String) (name : List Char) (args : Args) (s : State) :
    Option Interrupt × List Event :=
  let act := Run.become (Run.nested Run.depthLimit) (args.length + 1) program name args
  match (Run.attempt act).run.run s with
  | (.ok e, s) => (e, s.log.reverse ++ s.jobs.flatMap (·.events))
  | (.error e, s) => (some e, s.log.reverse)

end EngineBridge.Shell
