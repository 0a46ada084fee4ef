import EngineBridge.Settings.Basic
import EngineBridge.Text.Digit

/-!
# Command-line options

Arguments are read from left to right. An option is given at most once; its value follows it, is
joined to it, or stands after an equals sign. The first fault found decides.
-/

namespace EngineBridge

namespace CommandLine

def programName : String := "forth-bridge"

def version : String := "0.1.0"

def author : String := "Assaf Sapir <assaf@sapir.io>"

end CommandLine

/-- What the command line asks for. -/
structure Options where
  config : Option String := none
  /-- The module to load at the start. -/
  module : Option String := none
  policy : Option PendingPolicy := none
  execTimeout : Option Nat := none
  maxPending : Option Nat := none
  /-- Every input line is a command. -/
  text : Bool := false
  logLevel : Option String := none
  /-- List the configured modules, and serve nothing. -/
  listing : Bool := false
  deriving DecidableEq, Repr

/-- What a command line that is in order asks to be done. -/
inductive Request where
  | run (o : Options)
  | help
  | version
  deriving DecidableEq, Repr

namespace CommandLine

inductive Switch where
  | config
  | module
  | policy
  | execTimeout
  | maxPending
  | logLevel
  | text
  | help
  | version
  deriving DecidableEq, Repr

/-- The names that stand after two hyphens. -/
def longNames : List (String × Switch) :=
  [("config", .config), ("module", .module), ("policy", .policy), ("timeout-ms", .execTimeout),
    ("max-pending", .maxPending), ("log-level", .logLevel), ("text", .text), ("help", .help),
    ("version", .version)]

/-- The letters that stand after one hyphen. -/
def shortNames : List (Char × Switch) :=
  [('c', .config), ('m', .module), ('t', .execTimeout), ('h', .help), ('V', .version)]

/-- A number of 64 bits; a plus sign may stand before it. -/
def number? (s : String) : Option Nat :=
  let ds := match s.toList with | '+' :: ds => ds | ds => ds
  let n := Text.valueOf 10 ds
  if !ds.isEmpty && ds.all Char.isDigit && n < Nat.pow 2 64 then some n else none

/-- Give an option a value for the first time. -/
def once {α : Type} (old : Option α) (read : String → Option α) (s : String) :
    Option (Option α) :=
  if old.isSome then none else (read s).map some

def policy? (s : String) : Option PendingPolicy := PendingPolicy.all.find? (·.name = s)

def nonempty? (s : String) : Option String := if s.isEmpty then none else some s

/-- Set a switch that takes a value; none if it is set already or the value will not do. -/
def setValue? (o : Options) (w : Switch) (s : String) : Option Options :=
  match w with
  | .config => (once o.config nonempty? s).map fun config => { o with config }
  | .module => (once o.module some s).map fun module => { o with module }
  | .policy => (once o.policy policy? s).map fun policy => { o with policy }
  | .execTimeout => (once o.execTimeout number? s).map fun execTimeout => { o with execTimeout }
  | .maxPending => (once o.maxPending number? s).map fun maxPending => { o with maxPending }
  | .logLevel => (once o.logLevel some s).map fun logLevel => { o with logLevel }
  | .text | .help | .version => none

/-- What is known after an argument. -/
inductive Progress where
  | more (o : Options)
  /-- The next argument is the value of a switch. -/
  | awaiting (o : Options) (w : Switch)
  | decided (r : Request)

/-- Meet a switch, perhaps with a value joined to it. -/
def meet? (o : Options) (w : Switch) (value : Option String) : Option Progress :=
  match w, value with
  | .help, none => some (.decided .help)
  | .version, none => some (.decided .version)
  | .text, none => if o.text then none else some (.more { o with text := true })
  | .help, some _ | .version, some _ | .text, some _ => none
  | w, some s => (setValue? o w s).map .more
  | w, none => some (.awaiting o w)

/-- The name before an equals sign, and the value after it. -/
def cutAtEquals (cs : List Char) : String × Option String :=
  let name := cs.takeWhile (· ≠ '=')
  (String.ofList name,
    match cs.drop name.length with
    | _ :: value => some (String.ofList value)
    | [] => none)

/-- Read an argument that begins with a hyphen, given what follows the hyphen. A letter's value may
follow it directly. -/
def option? (o : Options) : List Char → Option Progress
  | '-' :: cs =>
    let (name, value) := cutAtEquals cs
    (longNames.find? (·.1 = name)).bind fun (_, w) => meet? o w value
  | c :: cs =>
    (shortNames.find? (·.1 = c)).bind fun (_, w) =>
      match w, cs with
      | .help, _ | .version, _ | _, [] => meet? o w none
      | w, '=' :: value => meet? o w (some (String.ofList value))
      | w, value => meet? o w (some (String.ofList value))
  | [] => none

/-- Whether an argument is an option, and not a value: a lone hyphen is a value. -/
def isOption (arg : String) : Bool := arg.startsWith "-" && arg ≠ "-"

/-- The arguments after the name of a subcommand. -/
def subcommand? (o : Options) (name : String) (args : List String) : Option Request :=
  match name, args with
  | "modules", [] | "modules", ["--"] => some (.run { o with listing := true })
  | "modules", arg :: _ =>
    if arg = "--help" || arg.startsWith "-h" then some .help else none
  | "help", [] | "help", ["modules"] | "help", ["help"] => some .help
  | _, _ => none

/-- Read the arguments from here on. `awaiting` is the switch whose value comes next. -/
def parseFrom (o : Options) (awaiting : Option Switch) : List String → Option Request
  | [] => if awaiting.isSome then none else some (.run o)
  | arg :: rest =>
    match awaiting with
    | some w => if isOption arg then none else (setValue? o w arg).bind (parseFrom · none rest)
    | none =>
      if arg = "--" then
        if rest.isEmpty then some (.run o) else none
      else if isOption arg then
        match option? o (arg.toList.drop 1) with
        | none => none
        | some (.decided r) => some r
        | some (.more o) => parseFrom o none rest
        | some (.awaiting o w) => parseFrom o (some w) rest
      else subcommand? o arg rest

end CommandLine

/-- Read the arguments; none if they are not in order. -/
def Request.parse? (args : List String) : Option Request := CommandLine.parseFrom {} none args

end EngineBridge
