import EngineBridge.Programs.Shell.Builtin.Surroundings
import EngineBridge.Programs.Shell.Tool.Basic

/-!
# Programs on paths and files, and on what is around a process
-/

namespace EngineBridge.Shell.Tool

/-- A path without the slashes at its end. -/
def trimmed (cs : List Char) : List Char := (cs.reverse.dropWhile (· = '/')).reverse

/-- The hint that stands below complaints about arguments. -/
def hint (name : String) : String := "\nTry '" ++ name ++ " --help' for more information."

/-- Give up if there are no operands. -/
def needOperand (name : String) (i : Invocation) (what : String := "operand") : Run Unit := do
  if i.operands.isEmpty then giveUp name ("missing " ++ what ++ hint name).toList

/-- The last name of a path, without a suffix. -/
def lastName (suffix path : List Char) : List Char :=
  let body := trimmed path
  let name := (body.reverse.takeWhile (· ≠ '/')).reverse
  let name := if body.isEmpty && !path.isEmpty then ['/'] else name
  if name ≠ suffix && suffix.isSuffixOf name then name.take (name.length - suffix.length) else name

def basename : Tool := fun args => do
  let grammar : Grammar :=
    { letters := "as:z", long := [("multiple", 'a'), ("suffix", 's')], mixed := false }
  let i ← grammar.read "basename" args
  needOperand "basename" i
  Run.setStatus 0
  if i.has 'a' || i.has 's' then
    for path in i.operands do
      write (lastName ((i.value? 's').getD []) path ++ ['\n'])
  else
    if let some extra := i.operands[2]? then
      giveUp "basename" ("extra operand '".toList ++ extra ++ '\'' :: (hint "basename").toList)
    write (lastName ((i.operands[1]?).getD []) (i.operands.head?.getD []) ++ ['\n'])

def dirname : Tool := fun args => do
  let args := if args.head? = some ['-', '-'] then args.drop 1 else args
  if args.isEmpty then
    giveUp "dirname" "missing operand\nTry 'dirname --help' for more information.".toList
  Run.setStatus 0
  for path in args do
    let body := trimmed path
    let head := (body.reverse.dropWhile (· ≠ '/')).reverse
    let directory := trimmed head
    write ((if !directory.isEmpty then directory
      else if path.head? = some '/' then ['/'] else ['.']) ++ ['\n'])

def pwdProgram : Tool := fun _ => do
  let s ← get
  Run.setStatus 0
  write ((if s.directory.isEmpty then ['/'] else s.directory.flatMap ('/' :: ·)) ++ ['\n'])

/-- Why something cannot be done with a path. -/
def cannot (name what : String) (path : List Char) (why : String) : Run Unit :=
  complain name (("cannot " ++ what ++ " '").toList ++ path ++ ("': " ++ why).toList)

def rm : Tool := fun args => do
  let grammar : Grammar :=
    { letters := "rRfdiv", long := [("recursive", 'r'), ("force", 'f'), ("dir", 'd')] }
  let i ← grammar.read "rm" args
  if !i.has 'f' then needOperand "rm" i
  Run.setStatus 0
  for path in i.operands do
    let s ← get
    match s.files.locate s.directory path false with
    | .ok (p, some .directory) =>
      if i.has 'r' || i.has 'R' || (i.has 'd' && (s.files.names p).isEmpty) then
        set { s with files := s.files.filter fun e => !p.isPrefixOf e.1 }
      else if i.has 'd' then cannot "rm" "remove" path "Directory not empty"
      else cannot "rm" "remove" path "Is a directory"
    | .ok (p, some _) => set { s with files := s.files.erase p }
    | .ok (_, none) | .error .notFound =>
      if !i.has 'f' then cannot "rm" "remove" path "No such file or directory"
    | .error e => cannot "rm" "remove" path (reason e)

/-- Make a directory, and those before it if that is wanted. -/
def makeDirectory (parents : Bool) (path : List Char) : Run Unit := do
  let s ← get
  match s.files.locate s.directory (trimmed path) true with
  | .ok (_, some n) =>
    if !(parents && n = .directory) then
      complain "mkdir" ("cannot create directory '".toList ++ path ++ "': File exists".toList)
  | .ok (p, none) => set { s with files := s.files.insert p .directory }
  | .error e =>
    complain "mkdir" ("cannot create directory '".toList ++ path ++ ("': " ++ reason e).toList)

def mkdir : Tool := fun args => do
  let i ← ({ letters := "pm:v", long := [("parents", 'p'), ("mode", 'm')] } : Grammar).read
    "mkdir" args
  needOperand "mkdir" i
  Run.setStatus 0
  for path in i.operands do
    if i.has 'p' then
      let names := Files.components (trimmed path)
      for n in List.range names.length do
        let head := ['/'].intercalate (names.take (n + 1))
        if !head.isEmpty then makeDirectory true head
    else makeDirectory false path

def rmdir : Tool := fun args => do
  let i ← ({ letters := "pv" } : Grammar).read "rmdir" args
  needOperand "rmdir" i
  Run.setStatus 0
  for path in i.operands do
    let s ← get
    let failed (why : String) : Run Unit :=
      complain "rmdir" ("failed to remove '".toList ++ path ++ ("': " ++ why).toList)
    match s.files.locate s.directory path true with
    | .ok (p, some .directory) =>
      if (s.files.names p).isEmpty then set { s with files := s.files.erase p }
      else failed "Directory not empty"
    | .ok (_, some _) => failed "Not a directory"
    | .ok (_, none) => failed "No such file or directory"
    | .error e => failed (reason e)

def touch : Tool := fun args => do
  let i ← ({ letters := "acmt:d:r:" } : Grammar).read "touch" args
  needOperand "touch" i "file operand"
  Run.setStatus 0
  for path in i.operands do
    let s ← get
    match s.files.locate s.directory path true with
    | .ok (_, some _) => pure ()
    | .ok (p, none) => if !i.has 'c' then set { s with files := s.files.insert p (.file []) }
    | .error e => complain "touch" ("cannot touch '".toList ++ path ++ ("': " ++ reason e).toList)

def ls : Tool := fun args => do
  let i ← ({ letters := "aA1dCFlrtR", long := [("all", 'a')] } : Grammar).read "ls" args
  Run.setStatus 0
  let s ← get
  let operands := if i.operands.isEmpty then [['.']] else i.operands
  let sorted (xs : List (List Char)) : List (List Char) :=
    let up := Run.sortTexts xs
    if i.has 'r' then up.reverse else up
  let mut plain := []
  let mut directories := []
  for path in sorted operands do
    match s.files.locate s.directory path true with
    | .ok (p, some .directory) =>
      if i.has 'd' then plain := plain ++ [path] else directories := directories ++ [(path, p)]
    | .ok (_, some _) => plain := plain ++ [path]
    | .ok (_, none) =>
      complain "ls" ("cannot access '".toList ++ path ++ "': No such file or directory".toList) 2
    | .error e =>
      complain "ls" ("cannot access '".toList ++ path ++ ("': " ++ reason e).toList) 2
  write (plain.flatMap (· ++ ['\n']))
  let several := 1 < operands.length
  for (path, p) in directories do
    let all := if i.has 'a' then [['.'], ['.', '.']] else []
    let names := (s.files.names p).filter fun n => i.has 'a' || i.has 'A' || n.head? ≠ some '.'
    if several then
      if !plain.isEmpty || some (path, p) ≠ directories.head? then write ['\n']
      write (path ++ [':', '\n'])
    write ((sorted (all ++ names)).flatMap (· ++ ['\n']))

/-- Copy a file, or a directory with all in it if `whole` says so. The old one is taken away if
`moves` says so. -/
def copyNode (name : String) (whole moves : Bool) (source target : List Char) : Run Unit := do
  let s ← get
  match s.files.locate s.directory source true with
  | .ok (_, none) => cannot name "stat" source "No such file or directory"
  | .error e => cannot name "stat" source (reason e)
  | .ok (p, some node) =>
    if node = .directory && !whole then
      complain name ("-r not specified; omitting directory '".toList ++ source ++ ['\''])
    else
      let inside := (s.files.find s.directory target).toOption = some .directory
      let target := if inside then trimmed target ++ '/' :: lastName [] source else target
      match s.files.locate s.directory (trimmed target) true with
      | .ok (q, _) =>
        let copied := (s.files.filter fun e => p.isPrefixOf e.1).map fun (r, n) =>
          (q ++ r.drop p.length, n)
        let kept := s.files.filter fun e => !(moves && p.isPrefixOf e.1)
        set { s with files := copied.foldl (fun t (r, n) => t.insert r n) kept }
      | .error e =>
        complain name
          ("cannot create regular file '".toList ++ target ++ ("': " ++ reason e).toList)

def copy (name : String) (moves : Bool) : Tool := fun args => do
  let i ← ({ letters := "afiprRvn", long := [("recursive", 'r')] } : Grammar).read name args
  needOperand name i "file operand"
  Run.setStatus 0
  let whole := moves || i.has 'r' || i.has 'R' || i.has 'a'
  match i.operands.reverse with
  | target :: source :: more =>
    for path in (source :: more).reverse do
      copyNode name whole moves path target
  | operands =>
    giveUp name ("missing destination file operand after '".toList ++ operands.flatten ++
      '\'' :: (hint name).toList)

/-- Say where programs are. -/
def which : Tool := fun args => do
  let i ← ({ letters := "as" } : Grammar).read "which" args 2
  Run.setStatus (if i.operands.isEmpty then 1 else 0)
  for name in i.operands do
    let found ←
      if name.contains '/' then
        match ← Builtin.programAt name with
        | .ok _ => pure (some name)
        | .error _ => pure none
      else pure ((← Builtin.findProgram name (← Builtin.searchPath)).toOption.map (·.1))
    match found with
    | some path => write (path ++ ['\n'])
    | none => Run.setStatus 1

/-- Write the values of variables, or all variables. -/
def printenv : Tool := fun args => do
  let i ← ({ letters := "0" } : Grammar).read "printenv" args 2
  Run.setStatus 0
  if i.operands.isEmpty then write (← environment)
  for name in i.operands do
    match ((← get).scope.lookup (String.ofList name)).bind (·.value) with
    | some cs => write (cs ++ ['\n'])
    | none => Run.setStatus 1

/-- Say what terminal the input is; it is none. -/
def tty : Tool := fun args => do
  let i ← ({ letters := "s", long := [("silent", 's'), ("quiet", 's')] } : Grammar).read
    "tty" args 2
  if !i.has 's' then write "not a tty\n".toList
  Run.setStatus 1

end EngineBridge.Shell.Tool
