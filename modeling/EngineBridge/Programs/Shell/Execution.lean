import EngineBridge.Programs.Shell.Builtin.Table
import EngineBridge.Programs.Shell.Redirecting
import EngineBridge.Programs.Shell.Script
import EngineBridge.Programs.Shell.Tool.Table

/-!
# Simple commands

What the first word of a command means, and how it is run.
-/

namespace EngineBridge.Shell.Run

/-- What `env` makes of its arguments: the bindings, and what is left. -/
def bindings : Args → List (String × List Char) × Args
  | [] => ([], [])
  | a :: rest =>
    match Builtin.nameAndValue a with
    | (name, some value) =>
      let (more, rest) := bindings rest
      ((name, value) :: more, rest)
    | (_, none) => ([], a :: rest)

/-- Run a program in place of the process that there is. Programs may run others. -/
def become (nested : Nested) : Nat → String → List Char → Args → Run Unit
  | 0, _, _, _ => throw .busy
  | fuel + 1, program, name, args => do
    modify fun s => { s with status := 0, scope := s.scope.filter (·.2.exported) }
    match program with
    | "sh" | "dash" => shell nested name args
    | "env" =>
      let grammar : Tool.Grammar :=
        { letters := "iu:", long := [("ignore-environment", 'i'), ("unset", 'u')], mixed := false }
      let dashed := args.head? = some ['-']
      let i ← grammar.read "env" (if dashed then args.drop 1 else args) 125
      if dashed || i.has 'i' then modify fun s => { s with scope := [] }
      for (c, cs) in i.options do
        if c = 'u' then putVariable (String.ofList cs) none
      let (bound, rest) := bindings i.operands
      for (x, value) in bound do
        putVariable x (some { value := some value, exported := true })
      match rest with
      | [] => Tool.write (← Tool.environment)
      | command :: args =>
        let found ←
          if command.contains '/' then Builtin.programAt command
          else
            let path := (← lookup "PATH").getD Builtin.systemPath.toList
            pure ((← Builtin.findProgram command path).map (·.2))
        match found with
        | .ok p => become nested fuel p command args
        | .error e =>
          Tool.complain "env" ('\'' :: command ++ ("': " ++ Tool.reason e).toList)
            (if e = .notFound || e = .notDirectory then 127 else 126)
    | _ =>
      match Tool.table? program with
      | some tool => tool args
      | none => setStatus 127

/-- Run a program as a process of its own. -/
def runProgram (nested : Nested) (program : String) (name : List Char) (args : Args) : Run Unit :=
  isolated (return ()) (become nested (args.length + 1) program name args)

/-- Why a command cannot be run, and the status that it then has. -/
def cannotRun (name : List Char) (e : SystemError) : Run Nat := do
  let missing := e = .notFound || e = .notDirectory
  let text :=
    if missing then ": not found"
    else if e = .nameTooLong then ": File name too long"
    else ": Permission denied"
  warn (name ++ text.toList)
  return if missing then 127 else 126

/-- Run the program that a name means, with a list of directories to look in. -/
def runNamed (nested : Nested) (path name : List Char) (args : Args) : Run Unit := do
  if name.contains '/' then
    match ← Builtin.programAt name with
    | .ok p => runProgram nested p name args
    | .error e => setStatus (← cannotRun name e)
  else
    match ← Builtin.findProgram name path with
    | .ok (_, p) => runProgram nested p name args
    | .error e =>
      let _ ← cannotRun name e
      setStatus 127

/-- How many calls of functions may be inside of each other. -/
def callLimit : Nat := 1000

def callFunction (nested : Nested) (tested : Bool) (line : Nat) (body : Command) (args : Args) :
    Run Unit := do
  let outer ← get
  if callLimit ≤ outer.calls then
    failWith ("Maximum function recursion depth (" ++ callLimit.repr ++ ") reached")
  set { outer with
    calls := outer.calls + 1, arguments := args, functionLine := line, loops := 0
    optionPlace := 1, optionOffset := none }
  let interrupt ← attempt (nested (.command tested body))
  modify fun s =>
    { s with
      calls := outer.calls, arguments := outer.arguments, functionLine := outer.functionLine
      loops := outer.loops, optionPlace := outer.optionPlace, optionOffset := outer.optionOffset }
  match interrupt with
  | none | some .leaveFunction => return ()
  | some e => throw e

/-- Run a file in the shell itself. -/
def source (nested : Nested) (args : Args) : Run Unit := do
  let (_, args) ← Builtin.options "" args
  match args with
  | [] => setStatus 0
  | name :: _ =>
    let s ← get
    let path ← Builtin.searchPath
    let tries := if name.contains '/' then [name] else Builtin.below path name
    let readable (p : List Char) : Option (List Char × List Char) :=
      ((s.files.read s.directory p).toOption).map (p, ·)
    match tries.findSome? readable with
    | some (path, text) =>
      modify fun s => { s with command := some (String.ofList path) }
      match ← attempt (runText nested .file false text) with
      | none | some .leaveFunction => return ()
      | some e => throw e
    | none =>
      if name.contains '/' then fail ("cannot open ".toList ++ name ++ ": No such file".toList)
      else fail (name ++ ": not found".toList)

/-- Become another program. -/
def exec (nested : Nested) (args : Args) : Run Unit := do
  let (_, args) ← Builtin.options "" args
  match args with
  | [] => setStatus 0
  | name :: rest =>
    let found ←
      if name.contains '/' then Builtin.programAt name
      else pure ((← Builtin.findProgram name (← Builtin.searchPath)).map (·.2))
    match found with
    | .ok p =>
      modify fun s =>
        { s with traps := s.traps.filter (·.2.isEmpty), command := none }
      become nested (rest.length + 1) p name rest
    | .error e => setStatus (← cannotRun name e)
    throw .exit

def runBuiltin (nested : Nested) (tested : Bool) (name : String) (args : Args) : Run Unit :=
  match name with
  | "." => source nested args
  | "eval" => runText nested .argument tested (Format.joined args)
  | "exec" => exec nested args
  | _ => ((Builtin.plain? name).getD fun _ => setStatus 127) args

/-- Run a builtin command. A failure in it ends the shell only if it is special. -/
def callBuiltin (nested : Nested) (tested special : Bool) (name : String) (args : Args) :
    Run Unit := do
  let outer := (← get).command
  modify fun s => { s with command := some name }
  let interrupt ← attempt (runBuiltin nested tested name args)
  modify fun s => { s with command := outer }
  match interrupt with
  | none => return ()
  | some .failure => if special then throw .failure
  | some e => throw e

inductive Meaning where
  | function (line : Nat) (body : Command)
  | builtin (name : String)
  | program

def meaningOf (functions : Bool) (name : List Char) : Run Meaning := do
  let s ← get
  let name := String.ofList name
  match if functions then s.functions.lookup name else none with
  | some (line, body) => return .function line body
  | none => return if Builtin.isBuiltin name then .builtin name else .program

/-- The fields of a command as far as its words have been expanded. -/
structure Head where
  fields : Args
  words : List Word
  meaning : Meaning := .program
  /-- What is run is named behind `command`. -/
  behind : Bool := false
  /-- It is looked for in the standard directories. -/
  standard : Bool := false

/-- Expand words until there is a field behind the first `n`. -/
def fieldsBehind (nested : Nested) (n : Nat) (fields : Args) : List Word → Run (Args × List Word)
  | [] => return (fields, [])
  | w :: rest => do
    if n < fields.length then return (fields, w :: rest)
    else fieldsBehind nested n (fields ++ (← expandFields nested w)) rest

/-- The place among the fields of what is named behind `command`, if anything is to be run. -/
def placeBehind (nested : Nested) : Nat → Nat → Bool → Args → List Word →
    Run (Option (Nat × Bool) × Args × List Word)
  | 0, _, _, fields, words => return (none, fields, words)
  | fuel + 1, n, standard, fields, words => do
    let (fields, words) ← fieldsBehind nested n fields words
    match fields[n]? with
    | none => return (none, fields, words)
    | some ['-', '-'] =>
      let (fields, words) ← fieldsBehind nested (n + 1) fields words
      return (if n + 1 < fields.length then some (n + 1, standard) else none, fields, words)
    | some ('-' :: c :: cs) =>
      if (c :: cs).all (· = 'p') then placeBehind nested fuel (n + 1) true fields words
      else return (none, fields, words)
    | some _ => return (some (n, standard), fields, words)

/-- What a command means, without any `command` in front of it. -/
def headOf (nested : Nested) : Nat → Head → Run Head
  | 0, h => return h
  | fuel + 1, h => do
    match h.fields with
    | [] => return h
    | name :: _ =>
      let meaning ← meaningOf (!h.behind) name
      match meaning with
      | .builtin "command" =>
        let size := h.fields.length + h.words.length + 1
        match ← placeBehind nested size 1 h.standard h.fields h.words with
        | (some (n, standard), fields, words) =>
          headOf nested fuel { fields := fields.drop n, words, behind := true, standard }
        | (none, fields, words) =>
          return { h with fields, words, meaning, behind := true }
      | _ => return { h with meaning }

/-- Assign the values in front of a command, and say what has been assigned. -/
def assignValues (nested : Nested) (own exported : Bool) :
    List (String × Word) → Run (List (List Char))
  | [] => return []
  | (name, w) :: rest => do
    let value := plainText (← nested (.word { value := true } w))
    if own then Builtin.keep name
    change name fun v => { v with value := some value, exported := v.exported || own || exported }
    return (name.toList ++ '=' :: value) :: (← assignValues nested own exported rest)

/-- Show a command before it is run. -/
def trace (errors : Option Target) (texts : List (List Char)) : Run Unit := do
  if ← hasOption 'x' then
    let line := ((← lookup "PS4").getD []) ++ Format.joined texts ++ ['\n']
    withDescriptors (setDescriptor 2 errors) do
      let _ ← writeTo 2 line

/-- Leave a shell that ends at failures. -/
def check (tested : Bool) : Run Unit := do
  if !tested && (← get).status ≠ 0 && (← hasOption 'e') then throw .exit

/-- Run a command whose words have all been expanded. -/
def runHead (nested : Nested) (tested : Bool) (h : Head) (assignments : List (String × Word))
    (redirections : List Redirection) : Run Unit := do
  let name := h.fields.head?.getD []
  let args := h.fields.drop 1
  let errors := (← get).descriptors.lookup 2
  let special :=
    match h.meaning with
    | .builtin b => !h.behind && Builtin.special.contains b
    | _ => false
  let execs := match h.meaning with | .builtin "exec" => !args.isEmpty | _ => false
  let otherwise : Run Unit := do
    setStatus 2
    if special then throw .failure
  let act : Run Unit := do
    let texts ← assignValues nested (!special) execs assignments
    trace errors (texts ++ h.fields)
    match h.meaning with
    | .function line body => callFunction nested tested line body args
    | .builtin b => callBuiltin nested tested special b args
    | .program =>
      let path ← if h.standard then pure Builtin.standardPath.toList else Builtin.searchPath
      runNamed nested path name args
  let keeps := match h.meaning with | .builtin "exec" => args.isEmpty | _ => false
  let whole : Run Unit :=
    if keeps then do
      let ready ← redirections.mapM (expandRedirection nested)
      if ← succeeds (ready.forM (redirect nested)) then act else otherwise
    else redirecting nested redirections otherwise act
  if special then whole else Builtin.withLocals whole

def runSimple (nested : Nested) (tested : Bool) (line : Nat) (assignments : List (String × Word))
    (words : List Word) (redirections : List Redirection) : Run Unit := do
  modify fun s => { s with line, outputStatus := 0 }
  let (fields, words) ← fieldsBehind nested 0 [] words
  if fields.isEmpty then
    let errors := (← get).descriptors.lookup 2
    redirecting nested redirections (setStatus 2) do
      let texts ← assignValues nested false false assignments
      trace errors texts
      setStatus (← get).outputStatus
  else
    let h ← headOf nested (words.length + fields.length + 1) { fields, words }
    let assigns :=
      match h.meaning with | .builtin b => Builtin.assigning.contains b | _ => false
    let more ← expandAll nested assigns h.words
    runHead nested tested { h with fields := h.fields ++ more } assignments redirections
  check tested

end EngineBridge.Shell.Run
