import EngineBridge.Programs.Shell.Number
import EngineBridge.Programs.Shell.Syntax
import EngineBridge.Programs.Tree

/-!
# The state of a shell

A script runs on the input that is there. When it wants more than that it waits, and what it has
written until then stands.
-/

namespace EngineBridge.Shell

/-- What can be seen of a run from outside, and when. -/
inductive Event where
  | write (sink : Nat) (cs : List Char)
  | pause (millis : Nat)
  deriving DecidableEq, Repr

/-- The sink that the shell's output goes to. -/
def outputSink : Nat := 0

/-- The sink that its diagnostics go to. -/
def diagnosticSink : Nat := 1

/-- What a descriptor leads to. -/
inductive Target where
  | stream (n : Nat)
  | sink (n : Nat)
  | file (p : Files.Path)
  | device (d : Files.Device)
  /-- It can be opened, but neither read nor written. -/
  | directory
  deriving DecidableEq, Repr

/-- Bytes that can be read once. -/
structure Stream where
  rest : List Char := []
  /-- More may come. -/
  more : Bool := false
  deriving DecidableEq, Repr

/-- Why a script does not go on with its next command. -/
inductive Interrupt where
  | exit
  /-- A command has failed in a way that ends the shell, unless a command that is run by the
  shell itself takes it as its own failure. -/
  | failure
  /-- It wants more input. -/
  | waiting
  /-- It runs on without an end. -/
  | busy
  /-- A signal has ended it. -/
  | killed (signal : Nat)
  | leaveFunction
  | leaveLoop (depth : Nat)
  | nextRound (depth : Nat)
  deriving DecidableEq, Repr

structure Variable where
  value : Option (List Char) := none
  exported : Bool := false
  fixed : Bool := false
  deriving DecidableEq, Repr

/-- A command in the background. -/
structure Job where
  number : Nat
  status : Nat
  /-- What it does after its first pause. -/
  events : List Event
  deriving DecidableEq, Repr

structure State where
  scope : List (String × Variable) := []
  functions : List (String × Nat × Command) := []
  aliases : List (String × List Char) := []
  /-- The name that the script goes by. -/
  scriptName : List Char := []
  arguments : List (List Char) := []
  /-- The letters of the options that are on. -/
  options : List Char := []
  status : Nat := 0
  /-- The status of the last output that was taken while words were expanded. -/
  outputStatus : Nat := 0
  /-- What to run at a signal; zero stands for the end of the shell. -/
  traps : List (Nat × List Char) := []
  /-- Signals that have come and not been answered, latest first. -/
  signals : List Nat := []
  descriptors : List (Nat × Target) := []
  streams : Array Stream := #[]
  sinks : Nat := 2
  /-- Latest first. -/
  log : List Event := []
  files : Files.Tree := []
  /-- The working directory, and what it is called. -/
  directory : Files.Path := []
  directoryName : List Char := ['/']
  documents : Array Word := #[]
  line : Nat := 1
  /-- Calls of functions that run inside of each other. -/
  calls : Nat := 0
  /-- The first line of the function that runs. -/
  functionLine : Nat := 0
  /-- The builtin command that runs. -/
  command : Option String := none
  /-- Loops around the command that runs, inside of its function. -/
  loops : Nat := 0
  /-- The next argument for `getopts`, and how much of the one before is done. -/
  optionPlace : Nat := 1
  optionOffset : Option Nat := none
  /-- What the variables were that each running function has made its own, latest first. -/
  locals : List (List (String × Option Variable)) := []
  /-- How many shells this one runs inside of. -/
  depth : Nat := 0
  jobs : List Job := []
  lastJob : Option Nat := none
  /-- The status before the trap that runs. -/
  statusBefore : Option Nat := none
  umask : Nat := 18
  /-- Commands that may still be run before the script counts as endless. -/
  patience : Nat := 100000

abbrev Run := ExceptT Interrupt (StateM State)

namespace Run

/-- Write to a descriptor; false if it takes nothing. -/
def writeTo (descriptor : Nat) (cs : List Char) : Run Bool := do
  let s ← get
  match s.descriptors.lookup descriptor with
  | some (.sink n) =>
    if !cs.isEmpty then set { s with log := .write n cs :: s.log }
    return true
  | some (.file p) =>
    let old := match s.files.get? p with | some (.file old) => old | _ => []
    set { s with files := s.files.insert p (.file (old ++ cs)) }
    return true
  | some (.device d) => return d ≠ .full || cs.isEmpty
  | some (.stream _) | some .directory | none => return cs.isEmpty

/-- What stands in front of a diagnostic. -/
def heading : Run (List Char) := do
  let s ← get
  let name := match s.command with | some c => c ++ ": " | none => ""
  return s.scriptName ++ (": " ++ s.line.repr ++ ": " ++ name).toList

def warn (message : List Char) : Run Unit := do
  let _ ← writeTo 2 ((← heading) ++ message ++ ['\n'])

def setStatus (n : Nat) : Run Unit := modify fun s => { s with status := n }

/-- Fail with a diagnostic. -/
def fail {α : Type} (message : List Char) : Run α := do
  warn message
  setStatus 2
  throw .failure

def failWith {α : Type} (message : String) : Run α := fail message.toList

/-- Take one step of those that are left. -/
def step : Run Unit := do
  let s ← get
  match s.patience with
  | 0 => throw .busy
  | n + 1 => set { s with patience := n }

def pause (millis : Nat) : Run Unit :=
  modify fun s => if millis = 0 then s else { s with log := .pause millis :: s.log }

def binding? (name : String) : Run (Option Variable) := do
  return (← get).scope.lookup name

def lookup (name : String) : Run (Option (List Char)) := do
  return (← binding? name).bind (·.value)

def putVariable (name : String) (v : Option Variable) : Run Unit :=
  modify fun s =>
    let others := s.scope.filter (·.1 ≠ name)
    { s with scope := match v with | some v => (name, v) :: others | none => others }

def hasOption (c : Char) : Run Bool := do return (← get).options.contains c

/-- Change a variable that may be changed. -/
def change (name : String) (f : Variable → Variable) : Run Unit := do
  let v := (← binding? name).getD {}
  if v.fixed then failWith (name ++ ": is read only")
  let v := f v
  putVariable name (some { v with exported := v.exported || (← hasOption 'a') })
  if name = "OPTIND" then
    if let some cs := v.value then
      match Number.ofArgument? cs with
      | some n =>
        if n < 0 then fail ("Illegal number: ".toList ++ cs)
        modify fun s =>
          { s with optionPlace := max 1 n.toNat, optionOffset := none }
      | none => fail ("Illegal number: ".toList ++ cs)

def assign (name : String) (value : List Char) : Run Unit :=
  change name fun v => { v with value := some value }

/-- The characters that separate fields. -/
def separators : Run (List Char) := do return (← lookup "IFS").getD [' ', '\t', '\n']

/-- The stream behind a descriptor, as far as it is there. -/
def streamOf (descriptor : Nat) : Run (Option (Option Nat × Stream)) := do
  let s ← get
  match s.descriptors.lookup descriptor with
  | some (.stream n) => return some (some n, (s.streams[n]?).getD {})
  | some (.device _) => return some (none, {})
  | some (.file _) | some (.sink _) | some .directory | none => return none

def setStream (n : Option Nat) (stream : Stream) : Run Unit :=
  match n with
  | some n => modify fun s => { s with streams := s.streams.setIfInBounds n stream }
  | none => return ()

/-- A new stream. -/
def newStream (stream : Stream) : Run Nat :=
  modifyGet fun s => (s.streams.size, { s with streams := s.streams.push stream })

def newSink : Run Nat := modifyGet fun s => (s.sinks, { s with sinks := s.sinks + 1 })

/-- Run to the end or to an interrupt. -/
def attempt (act : Run Unit) : Run (Option Interrupt) :=
  tryCatch (do act; return none) fun e => return some e

/-- Run with other descriptors, and with the old ones again afterwards. -/
def withDescriptors (change : Run Unit) (act : Run Unit) : Run Unit := do
  let outer := (← get).descriptors
  let restore : Run Unit := modify fun s => { s with descriptors := outer }
  tryCatch (do change; act) fun e => do
    restore
    throw e
  restore

def setDescriptor (descriptor : Nat) (t : Option Target) : Run Unit :=
  modify fun s =>
    let others := s.descriptors.filter (·.1 ≠ descriptor)
    { s with descriptors := match t with | some t => (descriptor, t) :: others | none => others }

/-- What has been written to a sink, and the other events; latest first both. -/
def divide (sink : Nat) (events : List Event) : List (List Char) × List Event :=
  events.foldr
    (fun e (texts, others) =>
      match e with
      | .write n cs => if n = sink then (cs :: texts, others) else (texts, e :: others)
      | .pause _ => (texts, e :: others))
    ([], [])

/-- Run, and take what is written to a new sink meanwhile. -/
def collecting (act : Nat → Run Unit) : Run (Option Interrupt × List Char) := do
  let sink ← newSink
  let outer := (← get).log
  modify fun s => { s with log := [] }
  let interrupt ← attempt (act sink)
  let (texts, others) := divide sink (← get).log
  modify fun s => { s with log := others ++ outer }
  return (interrupt, texts.reverse.flatten)

/-- A signal as the status of what it has ended. -/
def signalStatus (n : Nat) : Nat := 128 + n

/-- What is said of a process that a signal has ended. -/
def obituary? : Nat → Option String
  | 1 => some "Hangup"
  | 3 => some "Quit"
  | 4 => some "Illegal instruction"
  | 6 => some "Aborted"
  | 7 => some "Bus error"
  | 8 => some "Floating point exception"
  | 9 => some "Killed"
  | 10 => some "User defined signal 1"
  | 11 => some "Segmentation fault"
  | 12 => some "User defined signal 2"
  | 14 => some "Alarm clock"
  | 15 => some "Terminated"
  | _ => none

/-- Run up to the end, which `finish` follows unless a signal is the end. -/
def concluding (finish act : Run Unit) : Run Unit := do
  match ← attempt act with
  | some .waiting => throw .waiting
  | some .busy => throw .busy
  | some (.killed n) => throw (.killed n)
  | _ => finish

/-- Run as a process of its own, which hands on nothing but what it writes and its status. `finish`
is what it does at its end. -/
def isolated (finish : Run Unit) (act : Run Unit) : Run Unit := do
  let outer ← get
  modify fun s =>
    { s with traps := s.traps.filter (·.2.isEmpty), jobs := [], depth := s.depth + 1 }
  let interrupt ← attempt (concluding finish act)
  modify fun s =>
    { outer with
      status := s.status % 256, streams := s.streams, sinks := s.sinks, log := s.log
      files := s.files, documents := s.documents, signals := s.signals, patience := s.patience
      jobs := outer.jobs ++ s.jobs.filter (!·.events.isEmpty) }
  match interrupt with
  | some .waiting => throw .waiting
  | some .busy => throw .busy
  | some (.killed n) =>
    setStatus (signalStatus n)
    if let some text := obituary? n then
      let _ ← writeTo 2 (text ++ "\n").toList
  | _ => return ()

end Run

end EngineBridge.Shell
