import EngineBridge.Toml.Scalar
import EngineBridge.Toml.Document

/-!
# Reading documents

Arrays and inline tables nest, and dotted keys go, to a depth of 79.
-/

namespace EngineBridge.Toml

namespace Reader

/-- The depth to which values nest and keys go. -/
def depthLimit : Nat := 79

/-- The rest after a comment, if there is one; what cannot stand in a comment ends it. -/
def skipComment (cs : List Char) : List Char :=
  match skipBlank cs with
  | '#' :: rest => rest.dropWhile isPlain
  | rest => rest

/-- The rest after the end of a line: blanks, a comment, and a line feed or the end. -/
def lineEnd? (cs : List Char) : Option (List Char) :=
  match skipComment cs with
  | [] => some []
  | rest => lineFeed? rest

/-- The rest after blanks, line feeds, and comments that end in a line feed. -/
def skipGaps : (commented : Bool) → List Char → List Char
  | _, '\n' :: rest | _, '\r' :: '\n' :: rest => skipGaps false rest
  | false, ' ' :: rest | false, '\t' :: rest => skipGaps false rest
  | false, '#' :: rest => skipGaps true rest
  | true, c :: rest => if isPlain c then skipGaps true rest else c :: rest
  | _, cs => cs

def isBare (c : Char) : Bool := c.isAlphanum || c == '_' || c == '-'

/-- One part of a key. -/
def part? (cs : List Char) : Option (String × List Char) :=
  match lineText? cs with
  | some r => some r
  | none =>
    let name := cs.takeWhile isBare
    if name.isEmpty then none else some (String.ofList name, cs.drop name.length)

/-- A key of at most so many parts, with blanks around each. -/
def path? : Nat → List Char → Option (Path × List Char)
  | 0, _ => none
  | n + 1, cs => do
    let (name, rest) ← part? (skipBlank cs)
    match skipBlank rest with
    | '.' :: rest =>
      let (path, rest) ← path? n rest
      return (⟨name :: path.tables, path.name⟩, rest)
    | rest => return (⟨[], name⟩, rest)

/-- The items of an array up to its bracket; those before, reversed, are in `done`. -/
def items? (item : List Char → Option (Toml × List Char)) :
    Nat → List Toml → List Char → Option (Toml × List Char)
  | 0, _, _ => none
  | fuel + 1, done, cs =>
    match skipGaps false cs with
    | ']' :: rest => some (.array done.reverse, rest)
    | cs => do
      let (v, rest) ← item cs
      match skipGaps false rest with
      | ',' :: rest => items? item fuel (v :: done) rest
      | ']' :: rest => return (.array (v :: done).reverse, rest)
      | _ => none

def assignment? (value : List Char → Option (Toml × List Char)) (cs : List Char) :
    Option (Assignment × List Char) := do
  let (path, rest) ← path? depthLimit cs
  let rest ← expect? '=' rest
  let (v, rest) ← value (skipBlank rest)
  return (⟨path, v⟩, rest)

/-- The assignments of an inline table from the next one on, up to its brace. -/
def entries? (value : List Char → Option (Toml × List Char)) :
    Nat → List Assignment → List Char → Option (Toml × List Char)
  | 0, _, _ => none
  | fuel + 1, done, cs => do
    let (a, rest) ← assignment? value cs
    match skipBlank rest with
    | ',' :: rest => entries? value fuel (a :: done) rest
    | '\x7d' :: rest => (ofBraces (a :: done).reverse).map fun t => (t, rest)
    | _ => none

/-- A value in which brackets and braces nest at most so deep. -/
def value? : Nat → List Char → Option (Toml × List Char)
  | 0, cs => scalar? cs
  | depth + 1, '[' :: rest => items? (value? depth) (rest.length + 1) [] rest
  | depth + 1, '\x7b' :: rest =>
    match skipBlank rest with
    | '\x7d' :: rest => some (.table .inline [], rest)
    | cs => entries? (value? depth) (cs.length + 1) [] cs
  | _, cs => scalar? cs

inductive Line where
  | header (h : Header)
  | assignment (a : Assignment)

/-- A line that is not blank, up to its end. -/
def line? (cs : List Char) : Option (Line × List Char) :=
  match cs with
  | '[' :: '[' :: rest => do
    let (path, rest) ← path? depthLimit rest
    let rest ← expect? ']' rest
    let rest ← expect? ']' rest
    return (.header (.row path), rest)
  | '[' :: rest => do
    let (path, rest) ← path? depthLimit rest
    let rest ← expect? ']' rest
    return (.header (.table path), rest)
  | cs => (assignment? (value? depthLimit) cs).map fun (a, rest) => (.assignment a, rest)

def lines? : Nat → List Char → Option (List Line)
  | 0, _ => none
  | fuel + 1, cs =>
    match skipBlank cs with
    | [] => some []
    | cs =>
      match lineEnd? cs with
      | some rest => lines? fuel rest
      | none => do
        let (line, rest) ← line? cs
        let rest ← lineEnd? rest
        return line :: (← lines? fuel rest)

/-- Lines by the header that they stand under. -/
def sections (header : Header) (done : List Assignment) : List Line → List Section
  | [] => [⟨header, done.reverse⟩]
  | .assignment a :: rest => sections header (a :: done) rest
  | .header h :: rest => ⟨header, done.reverse⟩ :: sections h [] rest

end Reader

/-- The mark that may stand before all text. -/
def byteOrderMark : Char := '\ufeff'

/-- Read a document. -/
def read? (s : String) : Option Table := do
  let cs := s.toList
  let cs := if cs.head? = some byteOrderMark then cs.drop 1 else cs
  let lines ← Reader.lines? (cs.length + 1) cs
  ofSections (Reader.sections .root [] lines)

end EngineBridge.Toml
