import EngineBridge.Programs.Shell.Syntax

/-!
# Reading a script

The characters of a script, the text of aliases in front of them, and the words that they make up.
A line feed behind a backslash is as if it were not there, except between single quotes.
-/

namespace EngineBridge.Shell

inductive Token where
  | finish
  | newline
  | word
  | redirection
  | operator (s : String)
  | keyword (s : String)
  deriving DecidableEq, Repr

namespace Token

/-- How a diagnostic names a token. -/
def shown : Token → String
  | .finish => "end of file"
  | .newline => "newline"
  | .word => "word"
  | .redirection => "redirection"
  | .operator s | .keyword s => "\"" ++ s ++ "\""

def keywords : List String :=
  ["!", "case", "do", "done", "elif", "else", "esac", "fi", "for", "if", "in", "then", "until",
    "while", "\x7b", "\x7d"]

/-- Whether a list of commands ends in front of this token. -/
def endsList : Token → Bool
  | .finish => true
  | .operator s => s = ")" || s = ";;"
  | .keyword s => ["do", "done", "elif", "else", "esac", "fi", "then", "\x7d"].contains s
  | _ => false

end Token

/-- What is looked for when a token is read. -/
structure Expected where
  /-- Line feeds are skipped. -/
  skipLines : Bool := false
  keywords : Bool := false
  aliases : Bool := false
  /-- The word ends a here-document; nothing in it is expanded. -/
  delimiter : Bool := false
  deriving DecidableEq, Repr

/-- The text of an alias that is being read. -/
structure Replacement where
  name : String
  rest : List Char
  /-- It ends in a blank, so that the word after it may be an alias too. -/
  blankEnd : Bool
  deriving DecidableEq, Repr

/-- A here-document whose text has not been read. -/
structure Pending where
  place : Nat
  delimiter : List Char
  literal : Bool
  stripTabs : Bool
  deriving DecidableEq, Repr

structure Reader where
  rest : List Char
  /-- More may come after `rest`. -/
  more : Bool := false
  line : Nat := 1
  aliases : List (String × List Char) := []
  replacements : List Replacement := []
  expected : Expected := {}
  last : Token := .newline
  /-- The last token is to be read again. -/
  pushed : Bool := false
  /-- The last word, and whether anything in it is quoted. -/
  word : Word := []
  quoted : Bool := false
  /-- The last redirection, which still lacks its target. -/
  redirection : Word → Nat → Redirection := fun w _ => .copy 0 w
  /-- Whether it wants a here-document, and one without leading tabs. -/
  document : Option Bool := none
  pending : List Pending := []
  documents : Array Word := #[]

/-- Why a script cannot be read on. -/
inductive Obstacle where
  /-- More input has to come. -/
  | starved
  | malformed (line : Nat) (message : String)
  /-- It is nested too deeply. -/
  | exhausted
  deriving DecidableEq, Repr

abbrev Reading := ExceptT Obstacle (StateM Reader)

/-- Readers that read parts of themselves. -/
inductive Goal where
  /-- Commands up to what can follow them. There may be none if `empty` says so. -/
  | list (empty : Bool)
  | command
  /-- The operand of a parameter, up to its closing brace. -/
  | operand (quoted : Bool)
  /-- Arithmetic, up to its closing brackets. -/
  | arithmetic
  /-- The here-documents that are due. -/
  | documents

abbrev Goal.Result : Goal → Type
  | .list _ => List Command
  | .command => Command
  | .operand _ => Word
  | .arithmetic => Word
  | .documents => Unit

/-- Reads what is nested inside. -/
abbrev Inner := (g : Goal) → Reading g.Result

namespace Reading

/-- The script is no script. -/
def malformed {α : Type} (message : String) : Reading α := do
  throw (.malformed (← get).line message)

/-- Leave the aliases whose text has been read. -/
def leave (rs : List Replacement) (again : Bool) : List Replacement × Bool :=
  match rs with
  | r :: more => if r.rest.isEmpty then leave more (again || r.blankEnd) else (r :: more, again)
  | [] => ([], again)

/-- The next character, which stays. -/
def peekRaw : Reading (Option Char) := do
  let r ← get
  let (replacements, again) := leave r.replacements false
  set { r with
    replacements
    expected := { r.expected with aliases := r.expected.aliases || again } }
  match replacements with
  | a :: _ => return a.rest.head?
  | [] =>
    match r.rest with
    | c :: _ => return some c
    | [] => if r.more then throw .starved else return none

/-- Drop the next character. -/
def skip : Reading Unit := do
  let c ← peekRaw
  modify fun r =>
    let line := if c = some '\n' then r.line + 1 else r.line
    match r.replacements with
    | a :: more => { r with line, replacements := { a with rest := a.rest.drop 1 } :: more }
    | [] => { r with line, rest := r.rest.drop 1 }

/-- Bytes that are there. -/
def size : Reading Nat := do
  let r ← get
  return r.replacements.foldl (fun n a => n + a.rest.length) r.rest.length

/-- Join lines at a backslash that ends one. -/
def join : Nat → Reading Unit
  | 0 => return ()
  | fuel + 1 => do
    if (← peekRaw) = some '\\' then
      let before ← get
      skip
      if (← peekRaw) = some '\n' then
        skip
        join fuel
      else set before

/-- The next character of joined lines, which stays. -/
def peek : Reading (Option Char) := do
  if (← peekRaw) = some '\\' then join ((← size) + 1)
  peekRaw

/-- The next character of joined lines. -/
def next : Reading (Option Char) := do
  let c ← peek
  if c.isSome then skip
  return c

/-- Drop the next character if it is this one. -/
def accept (c : Char) : Reading Bool := do
  if (← peek) = some c then
    skip
    return true
  else return false

/-- The characters that satisfy `p`. -/
def takeWhile (p : Char → Bool) : Nat → List Char → Reading (List Char)
  | 0, _ => throw .exhausted
  | fuel + 1, done => do
    match ← peek with
    | some c =>
      if p c then
        skip
        takeWhile p fuel (c :: done)
      else return done.reverse
    | none => return done.reverse

/-- What stands between single quotes, behind a word that is reversed. -/
def singleQuoted : Nat → Word → Reading Word
  | 0, _ => throw .exhausted
  | fuel + 1, done => do
    match ← peekRaw with
    | none => malformed "Unterminated quoted string"
    | some c =>
      skip
      if c = '\'' then return done else singleQuoted fuel (.char c true :: done)

/-- The character behind a backslash between double quotes. Only before some characters is the
backslash not a character itself. -/
def escaped (special : List Char) (done : Word) : Reading Word := do
  match ← peekRaw with
  | none => return .char '\\' true :: done
  | some c =>
    skip
    return if special.contains c then .char c true :: done
      else .char c true :: .char '\\' true :: done

end Reading

end EngineBridge.Shell
