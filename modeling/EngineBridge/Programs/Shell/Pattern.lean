/-!
# Shell patterns

A star stands for any text, a question mark for one character, and brackets for one character out
of a set. A backslash takes the meaning of the character behind it.
-/

namespace EngineBridge.Shell

/-- A character, and whether it is quoted. -/
abbrev Glyph := Char × Bool

/-- A pattern, with backslashes before quoted characters. -/
abbrev Pattern := List Char

namespace Pattern

def ofGlyphs (gs : List Glyph) : Pattern :=
  gs.flatMap fun (c, quoted) => if quoted then ['\\', c] else [c]

/-- The named classes of characters. -/
def classes : List (String × (Char → Bool)) :=
  [("alnum", Char.isAlphanum), ("alpha", Char.isAlpha), ("blank", fun c => c == ' ' || c == '\t'),
    ("cntrl", fun c => c.toNat < 32 || c.toNat == 127), ("digit", Char.isDigit),
    ("graph", fun c => 32 < c.toNat && c.toNat < 127), ("lower", Char.isLower),
    ("print", fun c => 31 < c.toNat && c.toNat < 127),
    ("punct", fun c => 32 < c.toNat && c.toNat < 127 && !c.isAlphanum),
    ("space", fun c => c == ' ' || (8 < c.toNat && c.toNat < 14)), ("upper", Char.isUpper),
    ("xdigit", fun c => c.isDigit || ('a' ≤ c && c ≤ 'f') || ('A' ≤ c && c ≤ 'F'))]

/-- A named class behind its opening bracket, and what follows it. -/
def named? (p : Pattern) : Option ((Char → Bool) × Pattern) :=
  classes.findSome? fun (name, has) =>
    let written := (":" ++ name ++ ":]").toList
    if written.isPrefixOf p then some (has, p.drop written.length) else none

/-- A character of a set, without its backslash, and the rest. -/
def member : Pattern → Option (Char × Pattern)
  | '\\' :: c :: rest => some (c, rest)
  | c :: rest => some (c, rest)
  | [] => none

/-- Whether a set has a character, and what follows the set; none if the set has no end. A closing
bracket that comes first is a member. -/
def inSet (x : Char) : Nat → Bool → Bool → Pattern → Option (Bool × Pattern)
  | 0, _, _, _ => none
  | _, _, _, [] => none
  | fuel + 1, first, found, c :: rest =>
    if c = ']' && !first then some (found, rest)
    else
      match if c = '[' then named? rest else none with
      | some (has, rest) => inSet x fuel false (found || has x) rest
      | none =>
        match member (c :: rest) with
        | none => none
        | some (lo, '-' :: rest) =>
          match rest with
          | ']' :: _ => inSet x fuel false (found || x == lo) ('-' :: rest)
          | _ =>
            match member rest with
            | none => none
            | some (hi, rest) => inSet x fuel false (found || (lo ≤ x && x ≤ hi)) rest
        | some (d, rest) => inSet x fuel false (found || x == d) rest

/-- Whether a pattern matches the whole of a text. -/
def coversFor : Nat → Pattern → List Char → Bool
  | 0, _, _ => false
  | _, [], cs => cs.isEmpty
  | fuel + 1, p :: ps, cs =>
    if p = '*' then
      coversFor fuel ps cs ||
        match cs with
        | [] => false
        | _ :: cs => coversFor fuel (p :: ps) cs
    else
      match cs with
      | [] => false
      | c :: cs =>
        if p = '?' then coversFor fuel ps cs
        else if p = '\\' then
          match ps with
          | [] => c == '\\' && cs.isEmpty
          | q :: ps => q == c && coversFor fuel ps cs
        else if p = '[' then
          let negated := ps.head? = some '!'
          let set := if negated then ps.drop 1 else ps
          match inSet c (set.length + 1) true false set with
          | some (found, rest) => found != negated && coversFor fuel rest cs
          | none => c == '[' && coversFor fuel ps cs
        else p == c && coversFor fuel ps cs

def covers (p : Pattern) (cs : List Char) : Bool :=
  coversFor (p.length + cs.length + 1) p cs

/-- The ways to cut a text in two, the shortest head first. -/
def cuts (cs : List Char) : List (List Char × List Char) :=
  (List.range (cs.length + 1)).map fun n => (cs.take n, cs.drop n)

/-- The text without a head that matches. -/
def dropHead (longest : Bool) (p : Pattern) (cs : List Char) : List Char :=
  let ways := if longest then (cuts cs).reverse else cuts cs
  ((ways.find? fun (head, _) => covers p head).map (·.2)).getD cs

/-- The text without a tail that matches. -/
def dropTail (longest : Bool) (p : Pattern) (cs : List Char) : List Char :=
  let ways := if longest then cuts cs else (cuts cs).reverse
  ((ways.find? fun (_, tail) => covers p tail).map (·.1)).getD cs

end Pattern

end EngineBridge.Shell
