import EngineBridge.Programs.Shell.Builtin.Basic

/-!
# Programs that a script can use

How such a program reads its arguments and its input, and how it complains.
-/

namespace EngineBridge.Shell

/-- What a program does with its arguments. -/
abbrev Tool := Args → Run Unit

namespace Tool

/-- Arguments that have been told apart. -/
structure Invocation where
  options : List (Char × List Char) := []
  operands : Args := []
  deriving DecidableEq, Repr

def Invocation.has (i : Invocation) (c : Char) : Bool := i.options.any (·.1 = c)

def Invocation.add (i : Invocation) (c : Char) (value : List Char) : Invocation :=
  { i with options := i.options ++ [(c, value)] }

/-- The argument of the last option of this name. -/
def Invocation.value? (i : Invocation) (c : Char) : Option (List Char) :=
  (i.options.reverse.find? (·.1 = c)).map (·.2)

/-- Options and their letters. -/
structure Grammar where
  /-- The letters; a colon stands behind one that takes an argument. -/
  letters : String
  long : List (String × Char) := []
  /-- Options may follow operands. -/
  mixed : Bool := true

def write (cs : List Char) : Run Unit := do
  let _ ← Run.writeTo 1 cs

/-- The variables that a program can see, a line for each. -/
def environment : Run (List Char) := do
  let given := (← get).scope.filter (·.2.exported)
  return given.reverse.flatMap fun (name, v) =>
    match v.value with
    | some cs => name.toList ++ '=' :: cs ++ ['\n']
    | none => []

/-- Complain, and fail. -/
def complain (name : String) (message : List Char) (status : Nat := 1) : Run Unit := do
  let _ ← Run.writeTo 2 ((name ++ ": ").toList ++ message ++ ['\n'])
  Run.setStatus status

/-- Complain and end. -/
def giveUp {α : Type} (name : String) (message : List Char) (status : Nat := 1) : Run α := do
  complain name message status
  throw .exit

namespace Grammar

/-- Whether a letter is known, and takes an argument. -/
def letter? (g : Grammar) (c : Char) : Option Bool :=
  match if c = ':' then [] else g.letters.toList.dropWhile (· ≠ c) with
  | [] => none
  | _ :: ':' :: _ => some true
  | _ => some false

/-- The letter of a long option, which may be cut short. -/
def long? (g : Grammar) (name : List Char) : Option Char :=
  match g.long.find? (·.1.toList = name) with
  | some o => some o.2
  | none =>
    match g.long.filter fun o => name.isPrefixOf o.1.toList with
    | [o] => some o.2
    | _ => none

/-- Tell arguments apart, behind those that have been, which are reversed. -/
def readFrom (g : Grammar) : Nat → Invocation → Args → Except String Invocation
  | 0, i, args => .ok { i with operands := i.operands.reverse ++ args }
  | fuel + 1, i, args =>
    match args with
    | [] => .ok { i with operands := i.operands.reverse }
    | ['-', '-'] :: rest => .ok { i with operands := i.operands.reverse ++ rest }
    | ('-' :: '-' :: text) :: rest =>
      let name := text.takeWhile (· ≠ '=')
      let given := text.drop name.length
      match g.long? name with
      | none => .error ("unrecognized option '--" ++ String.ofList name ++ "'")
      | some c =>
        if g.letter? c = some true then
          match given, rest with
          | _ :: value, _ => readFrom g fuel (i.add c value) rest
          | [], value :: rest => readFrom g fuel (i.add c value) rest
          | [], [] => .error ("option '--" ++ String.ofList name ++ "' requires an argument")
        else readFrom g fuel (i.add c (given.drop 1)) rest
    | ('-' :: c :: cs) :: rest =>
      match g.letter? c with
      | none => .error ("invalid option -- '" ++ String.ofList [c] ++ "'")
      | some false =>
        readFrom g fuel (i.add c []) (if cs.isEmpty then rest else ('-' :: cs) :: rest)
      | some true =>
        match cs, rest with
        | [], value :: rest => readFrom g fuel (i.add c value) rest
        | [], [] => .error ("option requires an argument -- '" ++ String.ofList [c] ++ "'")
        | cs, rest => readFrom g fuel (i.add c cs) rest
    | a :: rest =>
      if g.mixed then readFrom g fuel { i with operands := a :: i.operands } rest
      else .ok { i with operands := i.operands.reverse ++ a :: rest }

/-- Tell the arguments of a program apart, or end it. -/
def read (g : Grammar) (name : String) (args : Args) (status : Nat := 1) : Run Invocation := do
  let size := args.foldl (fun n a => n + a.length + 1) 1
  match g.readFrom size {} args with
  | .ok i => return i
  | .error e =>
    complain name (e ++ "\nTry '" ++ name ++ " --help' for more information.").toList status
    throw .exit

end Grammar

/-- Text that can be read, and whether more may follow it. -/
structure Source where
  text : List Char
  more : Bool := false
  deriving DecidableEq, Repr

def reason : SystemError → String
  | .notFound => "No such file or directory"
  | .notDirectory => "Not a directory"
  | .isDirectory => "Is a directory"
  | .nameTooLong => "File name too long"
  | .tooManyLinks => "Too many levels of symbolic links"
  | .brokenPipe => "Broken pipe"
  | .denied | .badText | .nulByte => "Permission denied"

/-- All that can be read from what a descriptor leads to. -/
def takeFrom (descriptor : Nat) : Run (Except SystemError Source) := do
  match (← get).descriptors.lookup descriptor with
  | some (.stream n) =>
    let stream := ((← get).streams[n]?).getD {}
    Run.setStream (some n) { stream with rest := [] }
    return .ok ⟨stream.rest, stream.more⟩
  | some (.device .zero) => return .ok ⟨List.replicate 65536 '\x00', true⟩
  | some (.device _) => return .ok ⟨[], false⟩
  | _ => return .error .isDirectory

def takeInput : Run (Except SystemError Source) := takeFrom 0

/-- What an operand leads to. A dash is the input. -/
def sourceOf (operand : List Char) : Run (Except SystemError Source) := do
  if operand = ['-'] then takeInput
  else
    let s ← get
    match s.files.find s.directory operand with
    | .ok (.device .zero) => return .ok ⟨List.replicate 65536 '\x00', true⟩
    | .ok (.device (.descriptor n)) => takeFrom n
    | .ok _ | .error _ => return (s.files.read s.directory operand).map (⟨·, false⟩)

/-- What the operands lead to, or the input if there are none. Those that cannot be read are left
out with a complaint, in which `opening` and `closing` stand around the operand. -/
def sources (name : String) (operands : Args) (status : Nat := 1) (opening closing : String := "") :
    Run (List (List Char × Source)) := do
  let mut found := []
  for operand in (if operands.isEmpty then [['-']] else operands) do
    match ← sourceOf operand with
    | .ok source => found := (operand, source) :: found
    | .error e =>
      complain name (opening.toList ++ operand ++ (closing ++ ": " ++ reason e).toList) status
  return found.reverse

/-- Write text to what a path leads to, behind what is there already if `append` says so. -/
def store (name : String) (append : Bool) (path text : List Char) : Run Unit := do
  let s ← get
  match s.files.locate s.directory path true with
  | .ok (p, none) => set { s with files := s.files.insert p (.file text) }
  | .ok (p, some (.file old)) =>
    set { s with files := s.files.insert p (.file ((if append then old else []) ++ text)) }
  | .ok (_, some (.device (.descriptor n))) =>
    let _ ← Run.writeTo n text
  | .ok (_, some (.device _)) => pure ()
  | .ok (_, some .directory) => complain name (path ++ ": Is a directory".toList)
  | .ok _ => complain name (path ++ ": Permission denied".toList)
  | .error e => complain name (path ++ (": " ++ reason e).toList)

/-- All text of sources. -/
def wholeText (sources : List (List Char × Source)) : List Char :=
  sources.flatMap fun s => s.2.text

/-- Wait if more may follow. -/
def untilEnd (sources : List (List Char × Source)) : Run Unit := do
  if sources.any (·.2.more) then throw .waiting

/-- All lines of a text without the marks that end them, and whether a mark ends each. -/
def linesOf (cs : List Char) (mark : Char := '\n') : List (List Char × Bool) := from_ [] cs
where
  from_ (line : List Char) : List Char → List (List Char × Bool)
    | [] => if line.isEmpty then [] else [(line.reverse, false)]
    | c :: rest =>
      if c = mark then (line.reverse, true) :: from_ [] rest else from_ (c :: line) rest

/-- A number of an operand. -/
def natural? (cs : List Char) : Option Nat :=
  if !cs.isEmpty && cs.all Char.isDigit then some (Text.valueOf 10 cs) else none

end Tool

end EngineBridge.Shell
