import EngineBridge.Programs.Shell.Builtin.Basic
import EngineBridge.Programs.Shell.Reader

/-!
# Builtin commands on what is around a shell

The working directory, the programs that can be found, and what names mean.
-/

namespace EngineBridge.Shell.Builtin

/-- The names of a path when `.` and `..` are taken out of its text. -/
def normalNames (done : List (List Char)) : List (List Char) → List (List Char)
  | [] => done.reverse
  | name :: rest =>
    if name.isEmpty || name = ['.'] then normalNames done rest
    else if name = ['.', '.'] then normalNames (done.drop 1) rest
    else normalNames (name :: done) rest

def pathText (names : List (List Char)) : List Char :=
  if names.isEmpty then ['/'] else names.flatMap fun n => '/' :: n

/-- The text of a path from the working directory. -/
def absolute (path : List Char) : Run (List Char) := do
  let s ← get
  let whole := if path.head? = some '/' then path else s.directoryName ++ '/' :: path
  return pathText (normalNames [] (Files.components whole))

/-- Paths to try, each below a directory of a list. -/
def below (dirs : List Char) (name : List Char) : List (List Char) :=
  (split dirs).map fun d => if d.isEmpty then name else d ++ '/' :: name
where
  split : List Char → List (List Char)
    | [] => [[]]
    | c :: rest =>
      if c = ':' then [] :: split rest
      else
        match split rest with
        | [] => [[c]]
        | d :: ds => (c :: d) :: ds

def isDirectory (path : List Char) : Run Bool := do
  let s ← get
  return (s.files.find s.directory path).toOption = some .directory

def cd (args : Args) : Run Unit := do
  let (_, args) ← options "LP" args
  let back := args.head? = some ['-']
  let dest ←
    match args.head? with
    | none => pure ((← Run.lookup "HOME").getD [])
    | some d => if back then pure ((← Run.lookup "OLDPWD").getD []) else pure d
  let dest := if dest.isEmpty then ['.'] else dest
  let first := (Files.components dest).head?.getD []
  let fixed := dest.head? = some '/' || first = ['.'] || first = ['.', '.']
  let roots := (← Run.lookup "CDPATH").getD []
  let tries := if fixed then [dest] else below roots dest
  let found ← tries.findM? isDirectory
  let text ← absolute (found.getD dest)
  let s ← get
  match s.files.locate s.directory text true with
  | .ok (p, some .directory) =>
    let old := s.directoryName
    modify fun s => { s with directory := p, directoryName := text }
    Run.change "OLDPWD" fun v => { v with value := some old, exported := true }
    Run.change "PWD" fun v => { v with value := some text, exported := true }
    Run.setStatus 0
    if back || found.any (· ≠ dest) then putLine text
  | _ => Run.fail ("can't cd to ".toList ++ dest)

def pwd (args : Args) : Run Unit := do
  let (opts, _) ← options "LP" args
  let s ← get
  let path := if opts.any (·.1 = 'P') then pathText s.directory else s.directoryName
  answer (path ++ ['\n'])

def octalText (width n : Nat) : List Char :=
  let ds := Nat.toDigits 8 n
  List.replicate (width - ds.length) '0' ++ ds

/-- What a class of users may do, when `n` is taken away from them. -/
def permissions (n : Nat) : List Char :=
  (if n / 4 % 2 = 0 then ['r'] else []) ++ (if n / 2 % 2 = 0 then ['w'] else []) ++
    if n % 2 = 0 then ['x'] else []

def umask (args : Args) : Run Unit := do
  let (opts, args) ← options "S" args
  Run.setStatus 0
  match args with
  | [] =>
    let n := (← get).umask
    if opts.isEmpty then putLine (octalText 4 n)
    else
      putLine ("u=".toList ++ permissions (n / 64) ++ ",g=".toList ++ permissions (n / 8) ++
        ",o=".toList ++ permissions n)
  | a :: _ =>
    if a.all fun c => (Text.digit? 8 c).isSome then
      modify fun s => { s with umask := Text.valueOf 8 a % 512 }
    else Run.fail ("Illegal number: ".toList ++ a)

/-- The program that a path leads to, or why it cannot be run. -/
def programAt (path : List Char) : Run (Except SystemError String) := do
  let s ← get
  match s.files.find s.directory path with
  | .ok (.program p) => return .ok p
  | .ok _ => return .error .denied
  | .error e => return .error e

/-- The program that a name means, and its path. Else why there is none: that it cannot be found is
the last reason. -/
def findProgram (name path : List Char) : Run (Except SystemError (List Char × String)) := do
  let tries ← (below path name).mapM fun p => do return (p, ← programAt p)
  let found := tries.findSome? fun
    | (p, .ok program) => some (p, program)
    | (_, .error _) => none
  let reason := tries.findSome? fun
    | (_, .error e) => if e = .notFound || e = .notDirectory then none else some e
    | (_, .ok _) => none
  return match found with
    | some f => .ok f
    | none => .error (reason.getD .notFound)

/-- Where programs are looked for if nothing else is said. -/
def standardPath : String :=
  "/usr/local/sbin:/usr/local/bin:/usr/sbin:/usr/bin:/sbin:/bin"

/-- Where the system looks for programs if no variable says it. -/
def systemPath : String := "/bin:/usr/bin"

def searchPath : Run (List Char) := do return (← Run.lookup "PATH").getD []

/-- Say what a name means, in a sentence or as a command; false if it means nothing. -/
def describe (sentence : Bool) (path : List Char) (cs : List Char) : Run Bool := do
  let name := String.ofList cs
  let s ← get
  let say (tail : String) : Run Bool := do
    putLine (if sentence then cs ++ tail.toList else cs)
    return true
  if Token.keywords.contains name then say " is a shell keyword"
  else
    match s.aliases.lookup name with
    | some text =>
      putLine (if sentence then cs ++ " is an alias for ".toList ++ text
        else "alias ".toList ++ cs ++ '=' :: shown text)
      return true
    | none =>
      if (s.functions.lookup name).isSome then say " is a shell function"
      else if special.contains name then say " is a special shell builtin"
      else if isBuiltin name then say " is a shell builtin"
      else
        let found ←
          if cs.contains '/' then
            match ← programAt cs with
            | .ok p => pure (some (cs, p))
            | .error _ => pure none
          else pure (← findProgram cs path).toOption
        match found with
        | some (p, _) =>
          putLine (if sentence then cs ++ " is ".toList ++ p else p)
          return true
        | none =>
          if sentence then putLine (cs ++ ": not found".toList)
          return false

def typeOf (args : Args) : Run Unit := do
  Run.setStatus 0
  for a in args do
    if !(← describe true (← searchPath) a) then Run.setStatus 127

end EngineBridge.Shell.Builtin
