import EngineBridge.Programs.Shell.Builtin.Basic

/-!
# Builtin commands on variables

What they make of variables, arguments, options and aliases.
-/

namespace EngineBridge.Shell.Builtin

/-- The name and the value of an argument that assigns one. -/
def nameAndValue (a : List Char) : String × Option (List Char) :=
  let name := a.takeWhile (· ≠ '=')
  match a.drop name.length with
  | _ :: value => (String.ofList name, some value)
  | [] => (String.ofList name, none)

/-- A name that a variable can have. -/
def checked (name : String) : Run Unit :=
  if isName name.toList then return () else Run.failWith (name ++ ": bad variable name")

/-- The variables that satisfy `p`, as commands that would make them. -/
def listing (heading : String) (p : Variable → Bool) : Run (List Char) := do
  let chosen := sorted ((← get).scope.filter fun v => p v.2)
  return chosen.flatMap fun (name, v) =>
    let value := match v.value with | some cs => '=' :: shown cs | none => []
    heading.toList ++ name.toList ++ value ++ ['\n']

/-- `export` and `readonly`. -/
def mark (command : String) (has : Variable → Bool) (give : Variable → Variable) (args : Args) :
    Run Unit := do
  let (opts, args) ← options "p" args
  if !opts.isEmpty || args.isEmpty then answer (← listing (command ++ " ") has)
  else
    for a in args do
      let (name, value) := nameAndValue a
      match value, ← Run.binding? name with
      | none, some v => Run.putVariable name (some (give v))
      | _, _ =>
        checked name
        Run.change name fun v => give { v with value }
    Run.setStatus 0

/-- Remember a value until the function that runs has ended. -/
def remember (name : String) (old : Option Variable) : Run Unit :=
  modify fun s =>
    match s.locals with
    | [] => s
    | here :: outer => { s with locals := ((name, old) :: here) :: outer }

/-- Remember what a variable is, until the function that runs has ended. -/
def keep (name : String) : Run Unit := do
  let old ← Run.binding? name
  remember name old

/-- The name under which the options are kept. -/
def optionsName : String := "-"

def localCommand (args : Args) : Run Unit := do
  let (_, args) ← options "" args
  if (← get).locals.isEmpty then Run.failWith "not in a function"
  for a in args do
    if a = ['-'] then
      let letters := (← get).options
      remember optionsName (some { value := some letters })
    else
      let (name, value) := nameAndValue a
      checked name
      keep name
      match value with
      | some value => Run.assign name value
      | none =>
        if (← Run.binding? name).isNone then Run.putVariable name (some {})
  Run.setStatus 0

/-- Give variables back what they were. -/
def restore (kept : List (String × Option Variable)) : Run Unit := do
  for (name, old) in kept do
    if name = optionsName then
      modify fun s => { s with options := (old.bind (·.value)).getD [] }
    else Run.putVariable name old

/-- Run with variables of its own. If that ends the shell they stay as they are, and what runs
around it gives them back if the shell goes on. -/
def withLocals (act : Run Unit) : Run Unit := do
  let outer := (← get).locals
  modify fun s => { s with locals := [] :: outer }
  let interrupt ← Run.attempt act
  let ends := match interrupt with | some .exit | some .failure => true | _ => false
  if !ends then
    let inner := (← get).locals
    modify fun s => { s with locals := outer }
    for kept in inner.take (inner.length - outer.length) do
      restore kept
  if let some e := interrupt then throw e

def unset (args : Args) : Run Unit := do
  let (opts, args) ← options "vf" args
  let functions := opts.getLast?.any (·.1 = 'f')
  for a in args do
    let name := String.ofList a
    if functions then
      modify fun s => { s with functions := s.functions.filter (·.1 ≠ name) }
    else
      checked name
      if (← Run.binding? name).any (·.fixed) then Run.failWith (name ++ ": is read only")
      Run.putVariable name none
  Run.setStatus 0

/-- Options by their letters, where they have one, in the order in which they are listed. -/
def optionNames : List (Option Char × String) :=
  [(some 'e', "errexit"), (some 'f', "noglob"), (some 'I', "ignoreeof"), (some 'i', "interactive"),
    (some 'm', "monitor"), (some 'n', "noexec"), (some 's', "stdin"), (some 'x', "xtrace"),
    (some 'v', "verbose"), (some 'V', "vi"), (some 'E', "emacs"), (some 'C', "noclobber"),
    (some 'a', "allexport"), (some 'b', "notify"), (some 'u', "nounset"), (some 'p', "privileged"),
    (none, "nolog"), (none, "debug")]

def setOption (on : Bool) (c : Char) : Run Unit := do
  if optionNames.any (·.1 = some c) then
    modify fun s =>
      let others := s.options.filter (· ≠ c)
      { s with options := if on then c :: others else others }
  else Run.fail ("Illegal option -".toList ++ [c])

def setNamedOption (on : Bool) (name : List Char) : Run Unit := do
  match optionNames.find? (·.2.toList = name) with
  | some (some c, _) => setOption on c
  | some (none, _) => return ()
  | none => Run.fail ("Illegal option -o ".toList ++ name)

def optionTable (asCommands : Bool) : Run (List Char) := do
  let s ← get
  let lines := optionNames.flatMap fun (c, name) =>
    let on := c.any s.options.contains
    if asCommands then ("set " ++ (if on then "-o " else "+o ") ++ name ++ "\n").toList
    else
      name.toList ++ List.replicate (16 - name.length) ' ' ++
        (if on then "on\n" else "off\n").toList
  return if asCommands then lines else "Current option settings\n".toList ++ lines

/-- The letters of one argument. Gives what is left of the arguments behind it. -/
def setLetters (on : Bool) : List Char → Args → Run Args
  | [], rest => return rest
  | 'o' :: cs, rest => do
    match rest with
    | [] =>
      put (← optionTable (!on))
      setLetters on cs []
    | name :: rest =>
      setNamedOption on name
      setLetters on cs rest
  | c :: cs, rest => do
    setOption on c
    setLetters on cs rest

def setArguments (args : Args) : Run Unit :=
  modify fun s => { s with arguments := args, optionPlace := 1, optionOffset := none }

/-- Read options, up to what is none. -/
def setFrom : Nat → Args → Run Unit
  | 0, _ => return ()
  | fuel + 1, args => do
    match args with
    | [] => return ()
    | ['-'] :: rest =>
      modify fun s => { s with options := s.options.filter fun c => c ≠ 'x' && c ≠ 'v' }
      if !rest.isEmpty then setArguments rest
    | ['-', '-'] :: rest => setArguments rest
    | ('-' :: cs) :: rest => setFrom fuel (← setLetters true cs rest)
    | ('+' :: cs) :: rest => setFrom fuel (← setLetters false cs rest)
    | args => setArguments args

def set (args : Args) : Run Unit := do
  Run.setStatus 0
  if args.isEmpty then put (← listing "" fun v => v.value.isSome)
  else setFrom (args.length + 1) args

def shift (args : Args) : Run Unit := do
  let n ← match args with | a :: _ => count a | [] => pure 1
  if (← get).arguments.length < n then Run.failWith "can't shift that many"
  setArguments ((← get).arguments.drop n)
  Run.setStatus 0

/-- What `getopts` finds: the option, its argument, and where the search is then. -/
structure Found where
  letter : Char
  argument : Option (List Char)
  place : Nat
  offset : Option Nat
  complaint : List Char := []
  finished : Bool := false

/-- The next option among arguments, from a place and the offset in the argument before it. -/
def nextOption (spec : List Char) (args : Args) (place : Nat) (offset : Option Nat) : Found :=
  let before := if place ≤ 1 then none else args[place - 2]?
  let inside :=
    match before, offset with
    | some a, some n => a.drop n
    | _, _ => []
  if !inside.isEmpty then letter inside place
  else
    match args[place - 1]? with
    | some ('-' :: c :: cs) =>
      if c = '-' && cs.isEmpty then
        { letter := '?', argument := none, place := place + 1, offset := none, finished := true }
      else letter (c :: cs) (place + 1)
    | _ => { letter := '?', argument := none, place, offset := none, finished := true }
where
  letter (cs : List Char) (place : Nat) : Found :=
    match cs with
    | [] => { letter := '?', argument := none, place, offset := none, finished := true }
    | c :: rest =>
      let quiet := spec.head? = some ':'
      let known := if c = ':' then [] else spec.dropWhile (· ≠ c)
      let offset := (args[place - 2]?).map fun a => a.length - rest.length
      match known with
      | [] =>
        if quiet then { letter := '?', argument := some [c], place, offset }
        else
          { letter := '?', argument := none, place, offset
            complaint := "Illegal option -".toList ++ [c, '\n'] }
      | _ :: ':' :: _ =>
        if !rest.isEmpty then { letter := c, argument := some rest, place, offset := none }
        else
          match args[place - 1]? with
          | some a => { letter := c, argument := some a, place := place + 1, offset := none }
          | none =>
            if quiet then { letter := ':', argument := some [c], place, offset }
            else
              { letter := '?', argument := none, place, offset
                complaint := "No arg for -".toList ++ c :: " option\n".toList }
      | _ => { letter := c, argument := some [], place, offset }

def getopts (args : Args) : Run Unit := do
  let (_, args) ← options "" args
  match args with
  | spec :: name :: given =>
    let s ← get
    let args := if given.isEmpty then s.arguments else given
    let inside := s.optionPlace ≤ args.length + 1
    let found :=
      nextOption spec args (if inside then s.optionPlace else 1)
        (if inside then s.optionOffset else none)
    let _ ← Run.writeTo 2 found.complaint
    if !found.finished then
      match found.argument with
      | some a => Run.assign "OPTARG" a
      | none => Run.putVariable "OPTARG" none
    Run.assign "OPTIND" found.place.repr.toList
    checked (String.ofList name)
    Run.assign (String.ofList name) [found.letter]
    modify fun s => { s with optionPlace := found.place, optionOffset := found.offset }
    Run.setStatus (if found.finished then 1 else 0)
  | _ => Run.failWith "Usage: getopts optstring var [arg...]"

/-- The place of a name among the aliases that are listed. -/
def aliasPlace (name : String) : Nat :=
  match name.toList with
  | [] => 0
  | c :: rest => (c.toNat * 16 + (c :: rest).foldl (fun n c => n + c.toNat) 0) % 39

def aliasLine (a : String × List Char) : List Char :=
  a.1.toList ++ '=' :: shown a.2 ++ ['\n']

def aliasCommand (args : Args) : Run Unit := do
  Run.setStatus 0
  if args.isEmpty then
    let as := (← get).aliases
    put ((List.range 39).flatMap fun n =>
      (as.filter fun a => aliasPlace a.1 = n).flatMap aliasLine)
  for a in args do
    match a with
    | [] => return ()
    | c :: rest =>
      let head := c :: rest.takeWhile (· ≠ '=')
      let name := String.ofList head
      match a.drop head.length with
      | _ :: text =>
        modify fun s =>
          { s with
            aliases :=
              if s.aliases.any (·.1 = name) then
                s.aliases.map fun a => if a.1 = name then (name, text) else a
              else s.aliases ++ [(name, text)] }
      | [] =>
        match (← get).aliases.lookup name with
        | some text => put (aliasLine (name, text))
        | none =>
          let _ ← Run.writeTo 2 ("alias: " ++ name ++ " not found\n").toList
          Run.setStatus 1

def unalias (args : Args) : Run Unit := do
  let (opts, args) ← options "a" args
  Run.setStatus 0
  if !opts.isEmpty then modify fun s => { s with aliases := [] }
  else
    for a in args do
      let name := String.ofList a
      if (← get).aliases.any (·.1 = name) then
        modify fun s => { s with aliases := s.aliases.filter (·.1 ≠ name) }
      else
        let _ ← Run.writeTo 2 ("unalias: " ++ name ++ " not found\n").toList
        Run.setStatus 1

end EngineBridge.Shell.Builtin
