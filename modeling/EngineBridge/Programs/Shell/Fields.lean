import EngineBridge.Programs.Shell.Pattern

/-!
# Fields

The fields that an expanded word falls into. Only what comes from an expansion without quotes is
cut, at the separators; blanks next to a separator belong to it.
-/

namespace EngineBridge.Shell

/-- A character of an expanded word, or quotes that have been there. -/
inductive Atom where
  | glyph (c : Char) (quoted : Bool)
  | mark
  deriving DecidableEq, Repr

/-- Whether a piece of an expanded word may be cut. -/
inductive Cutting where
  | never
  /-- At the separators. -/
  | separators
  /-- Only between arguments. -/
  | arguments
  deriving DecidableEq, Repr

/-- A piece of an expanded word. -/
structure Piece where
  cutting : Cutting
  atoms : List Atom
  deriving DecidableEq, Repr

namespace Fields

/-- What stands between arguments. -/
def argumentEnd : Char := '\x00'

def isSeparator (ifs : List Char) (c : Char) : Bool := c == argumentEnd || ifs.contains c

/-- Separators that are blanks. -/
def isSpace (c : Char) : Bool := [argumentEnd, ' ', '\t', '\n'].contains c

structure Cutter where
  /-- Fields that have been cut off, latest first. -/
  done : List (List Atom) := []
  /-- What belongs to the next field, latest first. -/
  current : List Atom := []
  /-- A blank has just ended a field. -/
  afterSpace : Bool := false
  /-- The field before ended with an argument. -/
  afterArgument : Bool := false
  /-- How many more fields there may be; none if any number. -/
  room : Option Nat := none
  /-- What is left of the last field if its end is dropped. -/
  kept : Option (List Atom) := none

namespace Cutter

def cut (k : Cutter) : Cutter := { k with done := k.current.reverse :: k.done, current := [] }

/-- One character of the last field that there may be. -/
def last (k : Cutter) (a : Atom) (separator space : Bool) : Cutter :=
  let kept :=
    if space then k.kept <|> some k.current
    else if separator && k.afterSpace then k.kept
    else none
  { k with current := a :: k.current, kept, afterSpace := k.afterSpace && space }

/-- One character of a piece that may be cut. -/
def take (ifs : List Char) (onlyArguments : Bool) (k : Cutter) (a : Atom) : Cutter :=
  let c := match a with | .glyph c _ => c | .mark => 'x'
  let separator := isSeparator (if onlyArguments then [] else ifs) c
  let space := separator && isSpace c
  if k.room = some 0 then k.last a separator space
  else if k.afterSpace && space then k
  else if k.afterSpace && separator then { k with afterSpace := false }
  else if separator then
    let afterSpace := if k.afterArgument || onlyArguments then false else space
    if k.current.isEmpty && afterSpace then { k with afterSpace := false }
    else
      match k.room with
      | some 1 =>
        { k with
          room := some 0, kept := some k.current, current := a :: k.current, afterSpace }
      | room => { k.cut with room := room.map (· - 1), afterSpace }
  else { k with current := a :: k.current, afterSpace := false }

def piece (ifs : List Char) (k : Cutter × Bool) (p : Piece) : Cutter × Bool :=
  match p.cutting with
  | .never => ({ k.1 with current := p.atoms.reverse ++ k.1.current }, k.2)
  | cutting =>
    let onlyArguments := cutting = .arguments
    let start := { k.1 with afterSpace := false, afterArgument := k.2 }
    (p.atoms.foldl (take ifs onlyArguments) start, onlyArguments)

end Cutter

/-- The fields of pieces, of which there are no more than `room`. -/
def split (ifs : List Char) (room : Option Nat) (ps : List Piece) : List (List Atom) :=
  let (k, afterArguments) := ps.foldl (Cutter.piece ifs) ({ room }, false)
  let current := if afterArguments then k.current else k.kept.getD k.current
  (if current.isEmpty && !afterArguments then k.done else current.reverse :: k.done).reverse

end Fields

/-- The characters of pieces. -/
def glyphs (ps : List Piece) : List Glyph :=
  ps.flatMap fun p => p.atoms.filterMap fun
    | .glyph c q => some (c, q)
    | .mark => none

def plainText (ps : List Piece) : List Char := (glyphs ps).map (·.1)

def atomGlyphs (as : List Atom) : List Glyph :=
  as.filterMap fun
    | .glyph c q => some (c, q)
    | .mark => none

end EngineBridge.Shell
