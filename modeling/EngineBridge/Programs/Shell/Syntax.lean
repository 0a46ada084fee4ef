/-!
# The syntax of shell scripts

Words and commands as they are read. Characters stand for single bytes.
-/

namespace EngineBridge.Shell

/-- What is made of the value of a parameter. -/
inductive Modifier where
  | plain
  | length
  /-- The operand stands for a missing value. -/
  | fallback
  /-- The operand stands for a value that is there. -/
  | replacement
  /-- The operand is assigned where the value is missing. -/
  | assignment
  /-- A missing value is an error. -/
  | requirement
  | dropHead (longest : Bool)
  | dropTail (longest : Bool)
  | malformed
  deriving DecidableEq, Repr

/-- How a redirection opens its file. -/
inductive Opening where
  | read
  /-- A careful one may be kept from files that are there. -/
  | write (careful : Bool)
  | append
  | readWrite
  deriving DecidableEq, Repr

mutual

/-- A piece of a word, and whether quotes are around it. -/
inductive Part where
  | char (c : Char) (quoted : Bool)
  /-- Quotes begin or end here. They make a field even of nothing. -/
  | mark
  /-- A parameter. With a colon an empty value counts as missing. -/
  | param (name : String) (modifier : Modifier) (colon : Bool) (operand : List Part) (quoted : Bool)
  | arithmetic (source : List Part) (quoted : Bool)
  /-- The output of commands. -/
  | output (body : List Command) (quoted : Bool)

inductive Redirection where
  | file (descriptor : Nat) (opening : Opening) (target : List Part)
  /-- As another descriptor, or closed. -/
  | copy (descriptor : Nat) (source : List Part)
  /-- Text of the script itself, which is kept in a table. -/
  | document (descriptor : Nat) (place : Nat)

inductive Command where
  | simple (line : Nat) (assignments : List (String × List Part)) (words : List (List Part))
      (redirections : List Redirection)
  | pipeline (stages : List Command) (background : Bool)
  | negated (body : Command)
  | both (first second : Command)
  | either (first second : Command)
  | sequence (items : List Command)
  | subshell (line : Nat) (body : Command) (redirections : List Redirection) (background : Bool)
  | redirected (line : Nat) (body : Command) (redirections : List Redirection)
  | branch (test body : Command) (otherwise : List Command)
  /-- A loop that runs while the test has succeeded, or until it has. -/
  | loop (whileTrue : Bool) (test body : Command)
  /-- A loop over words, or over the arguments where there are none. -/
  | each (line : Nat) (name : String) (words : Option (List (List Part))) (body : Command)
  | choose (line : Nat) (subject : List Part) (arms : List (List (List Part) × List Command))
  | define (line : Nat) (name : String) (body : Command)

end

abbrev Word := List Part

instance : Inhabited Command := ⟨.sequence []⟩

def isNameStart (c : Char) : Bool := c.isAlpha || c == '_'

def isNameChar (c : Char) : Bool := c.isAlphanum || c == '_'

/-- Parameters with names of one character that is no letter and no digit. -/
def isSpecial (c : Char) : Bool := ['?', '#', '@', '*', '$', '!', '-'].contains c

def isName (cs : List Char) : Bool :=
  match cs with
  | [] => false
  | c :: rest => isNameStart c && rest.all isNameChar

/-- The text of a word in which nothing is quoted or expanded. -/
def plain? (w : Word) : Option (List Char) :=
  w.mapM fun part =>
    match part with
    | .char c false => some c
    | _ => none

/-- The name and the value of a word that assigns one. -/
def assignment? (w : Word) : Option (String × Word) :=
  let head := w.takeWhile fun | .char c false => isNameChar c | _ => false
  match plain? head, w.drop head.length with
  | some name, .char '=' false :: value =>
    if isName name then some (String.ofList name, value) else none
  | _, _ => none

end EngineBridge.Shell
