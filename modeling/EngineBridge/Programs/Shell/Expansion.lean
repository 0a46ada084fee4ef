import EngineBridge.Programs.Shell.Arithmetic
import EngineBridge.Programs.Shell.Fields
import EngineBridge.Programs.Shell.State

/-!
# Expanded words

What parameters, arithmetic and the output of commands stand for, and the files that patterns name.
-/

namespace EngineBridge.Shell

/-- How a word is expanded. -/
structure Mode where
  /-- It is cut into fields. -/
  fields : Bool := false
  /-- It is an operand, which is cut with the word around it. -/
  operand : Bool := false
  /-- It is a value, in which a home directory may stand behind each colon. -/
  value : Bool := false
  deriving DecidableEq, Repr

/-- Runs that run parts of themselves. -/
inductive Task where
  /-- `tested` says that a failure does not end the shell. -/
  | command (tested : Bool) (c : Command)
  | word (mode : Mode) (w : Word)
  /-- The output of commands. -/
  | output (body : List Command)

abbrev Task.Result : Task → Type
  | .command _ _ => Unit
  | .word _ _ => List Piece
  | .output _ => List Char

/-- Runs what is nested inside. -/
abbrev Nested := (t : Task) → Run t.Result

namespace Run

def quote (cs : List Char) : List Atom := cs.map (.glyph · true)

/-- A value in a word. -/
def pieceOf (quoted : Bool) (cs : List Char) : Piece :=
  if quoted then ⟨.never, quote cs⟩ else ⟨.separators, cs.map (.glyph · false)⟩

/-- The letters of the options, in the order in which they are shown. -/
def optionLetters : List Char :=
  ['u', 'b', 'a', 'C', 'E', 'V', 'v', 'x', 's', 'n', 'm', 'i', 'I', 'f', 'e']

/-- The arguments in one text. -/
def joinedArguments (name : String) (quoted fields : Bool) : Run (List Char) := do
  let args := (← get).arguments
  if name = "@" && quoted && fields then return [Fields.argumentEnd].intercalate args
  else
    let ifs ← lookup "IFS"
    let between :=
      match ifs with
      | none => [' ']
      | some [] => if fields && !quoted then [Fields.argumentEnd] else []
      | some (c :: _) => [c]
    return between.intercalate args

/-- The value of a parameter. -/
def parameter (name : String) (quoted fields : Bool) : Run (Option (List Char)) := do
  let s ← get
  match name with
  | "?" => return some s.status.repr.toList
  | "#" => return some s.arguments.length.repr.toList
  | "$" => return some "1".toList
  | "!" => return s.lastJob.map (·.repr.toList)
  | "-" => return some (optionLetters.filter s.options.contains)
  | "@" | "*" => return some (← joinedArguments name quoted fields)
  | _ =>
    if name.toList.all Char.isDigit then
      match name.toNat? with
      | some 0 => return some s.scriptName
      | some (n + 1) => return s.arguments[n]?
      | none => return none
    else lookup name

/-- The value of an arithmetic expression. -/
def calculate (source : List Char) : Run (List Char) := do
  let vars := (← get).scope
  let (result, assigned) :=
    Arithmetic.evaluate (fun x => (vars.lookup x).bind (·.value)) source
  for (x, n) in assigned do
    assign x (Number.text n)
  match result with
  | .ok n => return Number.text n
  | .error (.wrong m) =>
    fail ("arithmetic expression: ".toList ++ m.toList ++ ": \"".toList ++ source ++ ['"'])
  | .error (.noNumber v) => fail ("Illegal number: ".toList ++ v)
  | .error .crash => throw (.killed 8)

def unset {α : Type} (name : String) : Run α := failWith (name ++ ": parameter not set")

/-- A parameter with its modifier. -/
def expandParameter (nested : Nested) (mode : Mode) (name : String) (m : Modifier) (colon : Bool)
    (operand : Word) (quoted : Bool) : Run (List Piece) := do
  if m = .malformed then failWith "Bad substitution"
  let value ← parameter name quoted mode.fields
  let known := match value with | some cs => !(colon && cs.isEmpty) | none => false
  let cs := value.getD []
  let arguments := name = "@" && quoted && !(← get).arguments.isEmpty
  let here (cs : List Char) : List Piece :=
    if arguments then [⟨.arguments, quote cs⟩] else [pieceOf quoted cs]
  let demanded : Run Unit := do
    if value.isNone && (← hasOption 'u') then unset name
  let inOperand : Run (List Piece) :=
    nested (.word { mode with operand := true, value := false } operand)
  match m with
  | .plain =>
    demanded
    return here cs
  | .length =>
    demanded
    return [pieceOf quoted cs.length.repr.toList]
  | .fallback => if known then return here cs else inOperand
  | .replacement => if known then inOperand else return []
  | .assignment =>
    if known then return here cs
    let v := plainText (← nested (.word {} operand))
    if !isName name.toList then failWith (name ++ ": bad variable name")
    assign name v
    return here v
  | .requirement =>
    if known then return here cs
    if operand.isEmpty then
      if colon then failWith (name ++ ": parameter not set or null") else unset name
    fail (name.toList ++ ": ".toList ++ plainText (← nested (.word {} operand)))
  | .dropHead longest =>
    demanded
    if value.isNone then return here []
    let p := Pattern.ofGlyphs (glyphs (← nested (.word {} operand)))
    return here (Pattern.dropHead longest p cs)
  | .dropTail longest =>
    demanded
    if value.isNone then return here []
    let p := Pattern.ofGlyphs (glyphs (← nested (.word {} operand)))
    return here (Pattern.dropTail longest p cs)
  | .malformed => return []

/-- The name behind a tilde at the head of a word, and what follows it. -/
def tildeName? (value : Bool) : Word → Option (List Char × Word)
  | [] => some ([], [])
  | .char c quoted :: rest =>
    if quoted then none
    else if c = '/' || (value && c = ':') then some ([], .char c false :: rest)
    else (tildeName? value rest).map fun (name, rest) => (c :: name, rest)
  | _ :: _ => none

/-- The home directory that a word begins with, and what follows it. -/
def homeAtHead (value : Bool) (w : Word) : Run (Option (List Char × Word)) := do
  match w with
  | .char '~' false :: rest =>
    match tildeName? value rest with
    | some (name, rest) =>
      let home ←
        if name.isEmpty then lookup "HOME"
        else pure (if name = "root".toList then some "/root".toList else none)
      return (home.filter (!·.isEmpty)).map (·, rest)
    | none => return none
  | _ => return none

/-- Put a character that stands in the word itself in front of pieces. -/
def literal (mode : Mode) (c : Char) (quoted : Bool) (ps : List Piece) : List Piece :=
  let cutting : Cutting := if mode.operand && !quoted then .separators else .never
  let own : Piece := ⟨cutting, [.glyph c quoted]⟩
  match ps with
  | p :: rest =>
    if p.cutting = cutting && cutting = .never then ⟨.never, .glyph c quoted :: p.atoms⟩ :: rest
    else own :: ps
  | [] => [own]

/-- Join pieces that stand in the word itself, so that blanks among them are seen together. -/
def gather : Word → List Atom × Word
  | .char c false :: rest =>
    let (as, rest) := gather rest
    (.glyph c false :: as, rest)
  | w => ([], w)

/-- The pieces of a word. `inside` says that quotes are open, `atStart` that a home directory may
stand here. -/
def expandParts (nested : Nested) (mode : Mode) : Nat → Bool → Bool → Word → Run (List Piece)
  | 0, _, _, _ => return []
  | fuel + 1, inside, atStart, w => do
    let home ← if atStart then homeAtHead mode.value w else pure none
    match home with
    | some (home, rest) =>
      return ⟨.never, quote home⟩ :: (← expandParts nested mode fuel inside false rest)
    | none =>
      match w with
      | [] => return []
      | .char c true :: rest =>
        return literal mode c true (← expandParts nested mode fuel inside false rest)
      | .char c false :: rest =>
        if mode.operand then
          let (as, rest) := gather w
          return ⟨.separators, as⟩ :: (← expandParts nested mode fuel inside false rest)
        else
          let again := mode.value && c = ':'
          return literal mode c false (← expandParts nested mode fuel inside again rest)
      | .mark :: rest =>
        match inside, rest with
        | false, .param "@" .plain colon operand quoted :: .mark :: rest =>
          let ps ← expandParameter nested mode "@" .plain colon operand quoted
          return ps ++ (← expandParts nested mode fuel false false rest)
        | _, _ => return ⟨.never, [.mark]⟩ :: (← expandParts nested mode fuel (!inside) false rest)
      | .param name m colon operand quoted :: rest =>
        let ps ← expandParameter nested mode name m colon operand quoted
        return ps ++ (← expandParts nested mode fuel inside false rest)
      | .arithmetic source quoted :: rest =>
        let cs ← calculate (plainText (← nested (.word {} source)))
        return pieceOf quoted cs :: (← expandParts nested mode fuel inside false rest)
      | .output body quoted :: rest =>
        let cs ← nested (.output body)
        return pieceOf quoted cs :: (← expandParts nested mode fuel inside false rest)

def expandWord (nested : Nested) (mode : Mode) (w : Word) : Run (List Piece) :=
  expandParts nested mode (2 * w.length + 2) false true w

/-- The text of a word that is not cut. -/
def expandText (nested : Nested) (w : Word) : Run (List Char) := do
  return plainText (← nested (.word {} w))

/-- Whether anything in a text is not to be taken as it is. -/
def isActive (gs : List Glyph) : Bool := gs.any fun (c, q) => !q && ['*', '?', '['].contains c

def slashes : List Glyph → List (List Glyph)
  | [] => [[]]
  | g :: rest =>
    if g.1 = '/' then [] :: slashes rest
    else
      match slashes rest with
      | [] => [[g]]
      | p :: ps => (g :: p) :: ps

/-- Put texts in order. -/
def insertText (x : List Char) : List (List Char) → List (List Char)
  | [] => [x]
  | y :: rest => if y < x then y :: insertText x rest else x :: y :: rest

def sortTexts (xs : List (List Char)) : List (List Char) :=
  xs.foldl (fun done x => insertText x done) []

/-- The paths that begin with `head` and go on as the components say. -/
def pathsFrom (t : Files.Tree) (here : Files.Path) :
    List Char → List (List Glyph) → List (List Char)
  | head, [] => [head]
  | head, [last] => (namesFor head last).map (head ++ ·)
  | head, c :: rest =>
    (namesFor head c).flatMap fun name => pathsFrom t here (head ++ name ++ ['/']) rest
where
  namesFor (head : List Char) (c : List Glyph) : List (List Char) :=
    let text := c.map (·.1)
    if !isActive c then
      if text.isEmpty || (t.find here (head ++ text)).isOk then [text] else []
    else
      match t.locate here (if head.isEmpty then ['.'] else head) true with
      | .ok (p, some .directory) =>
        let pattern := Pattern.ofGlyphs c
        let fits (name : List Char) : Bool :=
          Pattern.covers pattern name && (name.head? ≠ some '.' || text.head? = some '.')
        sortTexts ((['.'] :: ['.', '.'] :: t.names p).filter fits)
      | _ => []

/-- The texts that a field stands for. -/
def matching (gs : List Glyph) : Run (List (List Char)) := do
  let s ← get
  let plain := [gs.map (·.1)]
  if s.options.contains 'f' || !isActive gs then return plain
  let found := pathsFrom s.files s.directory [] (slashes gs)
  return if found.isEmpty then plain else found

/-- The fields of a word. -/
def expandFields (nested : Nested) (w : Word) : Run (List (List Char)) := do
  let pieces ← nested (.word { fields := true } w)
  let found := Fields.split (← separators) none pieces
  return (← found.mapM fun as => matching (atomGlyphs as)).flatten

/-- The fields of words. A word that assigns is kept whole if `assigns` says so. -/
def expandAll (nested : Nested) (assigns : Bool) : List Word → Run (List (List Char))
  | [] => return []
  | w :: rest => do
    let here ←
      match if assigns then assignment? w else none with
      | some (name, value) =>
        let v ← nested (.word { value := true } value)
        pure [name.toList ++ '=' :: plainText v]
      | none => expandFields nested w
    return here ++ (← expandAll nested assigns rest)

end Run

end EngineBridge.Shell
