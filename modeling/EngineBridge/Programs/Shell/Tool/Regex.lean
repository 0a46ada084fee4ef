import EngineBridge.Programs.Shell.Pattern
import EngineBridge.Text.Digit

/-!
# Regular expressions

The basic and the extended kind. Of all matches the first one counts, and of those the longest.
-/

namespace EngineBridge.Shell.Tool

inductive Edge where
  | lineStart
  | lineEnd
  | wordStart
  | wordEnd
  | word
  | noWord
  /-- No word goes on from the left, or to the right. -/
  | apartLeft
  | apartRight
  deriving DecidableEq, Repr

inductive Regex where
  | nothing
  | one (has : Char → Bool)
  | edge (e : Edge)
  | both (first second : Regex)
  | either (first second : Regex)
  | group (n : Nat) (r : Regex)
  /-- What a group has matched, again. -/
  | again (n : Nat)
  | repeated (r : Regex) (least : Nat) (most : Option Nat)

namespace Regex

/-- How many groups there are. -/
def groupCount : Regex → Nat
  | .group _ r => groupCount r + 1
  | .both a b | .either a b => groupCount a + groupCount b
  | .repeated r _ _ => groupCount r
  | .nothing | .one _ | .edge _ | .again _ => 0

/-- A place in a text, and what the groups have matched so far. -/
structure Place where
  /-- Latest first. -/
  before : List Char
  rest : List Char
  groups : List (Nat × List Char) := []
  deriving DecidableEq, Repr

def isWordChar (c : Char) : Bool := c.isAlphanum || c == '_'

/-- Whether an edge is at a place. -/
def isAt (e : Edge) (multiline : Bool) (p : Place) : Bool :=
  let left := (p.before.head?.map isWordChar).getD false
  let right := (p.rest.head?.map isWordChar).getD false
  match e with
  | .lineStart => p.before.isEmpty || (multiline && p.before.head? = some '\n')
  | .lineEnd => p.rest.isEmpty || (multiline && p.rest.head? = some '\n')
  | .wordStart => !left && right
  | .wordEnd => left && !right
  | .word => left != right
  | .noWord => left == right
  | .apartLeft => !left
  | .apartRight => !right

structure Options where
  ignoreCase : Bool := false
  multiline : Bool := false
  deriving DecidableEq, Repr

def same (o : Options) (a b : Char) : Bool :=
  a == b || (o.ignoreCase && a.toLower == b.toLower)

/-- Go on by characters that are equal to these. -/
def along (o : Options) : List Char → Place → Option Place
  | [], p => some p
  | c :: cs, p =>
    match p.rest with
    | x :: rest =>
      if same o c x then along o cs { p with before := x :: p.before, rest } else none
    | [] => none

/-- Repeat steps that move on, the longest ways first. -/
def iterate (step : Place → List Place) : Nat → Nat → Option Nat → Place → List Place
  | 0, least, _, p => if least = 0 then [p] else []
  | fuel + 1, least, most, p =>
    let on :=
      if most = some 0 then []
      else
        ((step p).filter fun q => q.rest.length < p.rest.length || 0 < least).flatMap
          (iterate step fuel (least - 1) (most.map (· - 1)))
    if least = 0 then on ++ [p] else on

/-- All places where a match that begins here can end, in the order of preference. -/
def ends (o : Options) : Regex → Place → List Place
  | .nothing, p => [p]
  | .one has, p =>
    match p.rest with
    | x :: rest =>
      if has x || (o.ignoreCase && (has x.toLower || has x.toUpper)) then
        [{ p with before := x :: p.before, rest }]
      else []
    | [] => []
  | .edge e, p => if isAt e o.multiline p then [p] else []
  | .both a b, p => (ends o a p).flatMap (ends o b)
  | .either a b, p => ends o a p ++ ends o b p
  | .group n r, p =>
    (ends o r p).map fun q =>
      let found := p.rest.take (p.rest.length - q.rest.length)
      { q with groups := (n, found) :: q.groups.filter (·.1 ≠ n) }
  | .again n, p =>
    match p.groups.lookup n with
    | some cs => (along o cs p).toList
    | none => []
  | .repeated r least most, p => iterate (ends o r) (p.rest.length + least + 1) least most p

/-- A match: what is before it, itself, and what is behind it. -/
structure Match where
  before : List Char
  found : List Char
  after : List Char
  groups : List (Nat × List Char)
  deriving DecidableEq, Repr

/-- The longest match that begins here. -/
def longest (o : Options) (r : Regex) (p : Place) : Option Place :=
  (ends o r p).foldl
    (fun best q =>
      match best with
      | some b => if q.rest.length < b.rest.length then some q else best
      | none => some q)
    none

/-- The first match from a place on. -/
def searchFrom (o : Options) (r : Regex) : List Char → List Char → Option Match
  | before, cs =>
    match longest o r { before, rest := cs } with
    | some q =>
      some ⟨before.reverse, cs.take (cs.length - q.rest.length), q.rest, q.groups⟩
    | none =>
      match cs with
      | [] => none
      | c :: rest => searchFrom o r (c :: before) rest

def search (o : Options) (r : Regex) (cs : List Char) : Option Match := searchFrom o r [] cs

/-- How a regular expression is written. -/
structure Dialect where
  /-- Special characters stand without a backslash. -/
  extended : Bool
  /-- The dialect of the editor: letters behind a backslash stand for control characters, and where
  there is nothing to repeat, repetitions are wrong. -/
  editor : Bool := false
  deriving DecidableEq, Repr

/-- What a letter behind a backslash stands for to the editor. -/
def control? : Char → Option Char
  | 'n' => some '\n'
  | 't' => some '\t'
  | 'r' => some '\r'
  | 'f' => some '\x0c'
  | 'v' => some '\x0b'
  | 'a' => some '\x07'
  | _ => none

def unmatchedBracket : String := "Unmatched [, [^, [:, [., or [="

inductive Member where
  | char (c : Char)
  | named (has : Char → Bool)

/-- The text before a mark with a closing bracket, and what follows. -/
def upTo (mark : Char) (done : List Char) : List Char → Option (List Char × List Char)
  | [] => none
  | c :: rest =>
    if c = mark && rest.head? = some ']' then some (done.reverse, rest.drop 1)
    else upTo mark (c :: done) rest

/-- The next member of a set, and the rest. -/
def member (editor : Bool) : List Char → Except String (Member × List Char)
  | [] => .error unmatchedBracket
  | '[' :: mark :: rest =>
    if [':', '.', '='].contains mark then
      match upTo mark [] rest with
      | none => .error unmatchedBracket
      | some (name, rest) =>
        match if mark = ':' then Pattern.classes.lookup (String.ofList name) else none, name with
        | some has, _ => .ok (.named has, rest)
        | none, [c] => .ok (.char c, rest)
        | none, _ =>
          .error (if mark = ':' then "Invalid character class name"
            else "Invalid collation character")
    else .ok (.char '[', mark :: rest)
  | '\\' :: c :: rest =>
    match if editor then control? c else none with
    | some x => .ok (.char x, rest)
    | none => .ok (.char '\\', c :: rest)
  | c :: rest => .ok (.char c, rest)

/-- The characters of a set and what follows it, behind those that have been read. -/
def setFrom (editor : Bool) : Nat → Bool → (Char → Bool) → List Char →
    Except String ((Char → Bool) × List Char)
  | 0, _, _, _ => .error unmatchedBracket
  | fuel + 1, first, has, cs => do
    if cs.head? = some ']' && !first then return (has, cs.drop 1)
    let (m, rest) ← member editor cs
    let ranges := rest.head? = some '-' && (rest.drop 1).head? ≠ some ']'
    match m with
    | .named named =>
      if ranges then throw "Invalid range end"
      setFrom editor fuel false (fun x => has x || named x) rest
    | .char lo =>
      if !ranges then setFrom editor fuel false (fun x => has x || x == lo) rest
      else
        match ← member editor (rest.drop 1) with
        | (.char hi, rest) =>
          if hi < lo then throw "Invalid range end"
          setFrom editor fuel false (fun x => has x || (lo ≤ x && x ≤ hi)) rest
        | (.named _, _) => throw "Invalid range end"

/-- A set behind its opening bracket. -/
def charSet (editor : Bool) (cs : List Char) : Except String ((Char → Bool) × List Char) :=
  match cs with
  | '^' :: rest =>
    (setFrom editor (rest.length + 1) true (fun _ => false) rest).map fun (has, rest) =>
      (fun x => !has x, rest)
  | _ => setFrom editor (cs.length + 1) true (fun _ => false) cs

/-- A sign of a regular expression. -/
inductive Sign where
  | single (r : Regex)
  | again (n : Nat)
  | open
  | close
  | bar
  | repeats (least : Nat) (most : Option Nat)
  | lineStart
  | lineEnd

/-- The bounds of a repetition behind its opening brace, and what follows `close`. -/
def bounds? (close : List Char) (cs : List Char) : Option (Nat × Option Nat × List Char) :=
  let low := cs.takeWhile Char.isDigit
  let rest := cs.drop low.length
  let least := Text.valueOf 10 low
  let closed (most : Option Nat) (rest : List Char) : Option (Nat × Option Nat × List Char) :=
    if close.isPrefixOf rest then some (least, most, rest.drop close.length) else none
  match rest with
  | ',' :: rest =>
    let high := rest.takeWhile Char.isDigit
    closed (if high.isEmpty then none else some (Text.valueOf 10 high)) (rest.drop high.length)
  | _ => if low.isEmpty then none else closed (some least) rest

/-- The most that a repetition can ask for. -/
def repetitionLimit : Nat := 32767

/-- A repetition behind its opening brace. `literal` is what the brace means otherwise. -/
def repetition (close : List Char) (literal : Option (Sign × List Char)) (cs : List Char) :
    Except String (Sign × List Char) :=
  match bounds? close cs, literal with
  | some (least, most, rest), _ =>
    if most.any (· < least) then .error "Invalid content of \\\x7b\\\x7d"
    else if repetitionLimit < most.getD least then .error "Regular expression too big"
    else .ok (.repeats least most, rest)
  | none, some literal => .ok literal
  | none, none =>
    .error (if cs.all fun c => c.isDigit || c == ',' then "Unmatched \\\x7b"
      else "Invalid content of \\\x7b\\\x7d")

/-- What a letter behind a backslash stands for in either dialect. -/
def escaped (d : Dialect) (c : Char) : Sign :=
  match c with
  | 'w' => .single (.one isWordChar)
  | 'W' => .single (.one fun x => !isWordChar x)
  | 's' => .single (.one fun x => x == ' ' || (8 < x.toNat && x.toNat < 14))
  | 'S' => .single (.one fun x => !(x == ' ' || (8 < x.toNat && x.toNat < 14)))
  | 'b' => .single (.edge .word)
  | 'B' => .single (.edge .noWord)
  | '<' => .single (.edge .wordStart)
  | '>' => .single (.edge .wordEnd)
  | _ =>
    if c.isDigit && c ≠ '0' then .again (c.toNat - '0'.toNat)
    else
      let x := ((if d.editor then control? c else none).getD c)
      .single (.one (· == x))

/-- The next sign, and the rest. `first` says that nothing stands before it in its branch, and
`last` that nothing but an edge does. -/
def sign (d : Dialect) (first atEdge : Bool) : List Char → Except String (Sign × List Char)
  | [] => .error "Premature end of regular expression"
  | ['\\'] => .error "Trailing backslash"
  | '\\' :: c :: rest =>
    if d.extended then .ok (escaped d c, rest)
    else
      match c with
      | '(' => .ok (.open, rest)
      | ')' => .ok (.close, rest)
      | '|' => .ok (.bar, rest)
      | '+' => .ok (if atEdge then .single (.one (· == '+')) else .repeats 1 none, rest)
      | '?' => .ok (if atEdge then .single (.one (· == '?')) else .repeats 0 (some 1), rest)
      | '\x7b' =>
        if atEdge && d.editor then .error "Invalid preceding regular expression"
        else if atEdge then .ok (.single (.one (· == '\x7b')), rest)
        else repetition ['\\', '\x7d'] none rest
      | _ => .ok (escaped d c, rest)
  | '[' :: rest => (charSet d.editor rest).map fun (has, rest) => (.single (.one has), rest)
  | c :: rest =>
    let literal : Sign × List Char := (.single (.one (· == c)), rest)
    match c with
    | '.' => .ok (.single (.one fun _ => true), rest)
    | '*' => .ok (if atEdge && !d.extended then literal else (.repeats 0 none, rest))
    | '^' => .ok (if d.extended || first then (.lineStart, rest) else literal)
    | '$' =>
      let last := rest.isEmpty || ['\\', ')'].isPrefixOf rest || ['\\', '|'].isPrefixOf rest
      .ok (if d.extended || last then (.lineEnd, rest) else literal)
    | '(' => .ok (if d.extended then (.open, rest) else literal)
    | ')' => .ok (if d.extended then (.close, rest) else literal)
    | '|' => .ok (if d.extended then (.bar, rest) else literal)
    | '+' => .ok (if d.extended then (.repeats 1 none, rest) else literal)
    | '?' => .ok (if d.extended then (.repeats 0 (some 1), rest) else literal)
    | '\x7b' =>
      if d.extended then repetition ['\x7d'] (if d.editor then none else some literal) rest
      else .ok literal
    | _ => .ok literal

/-- What has been read of one group. -/
structure Branches where
  /-- Branches that are complete. -/
  done : Option Regex := none
  /-- What stands before the last part of this branch. -/
  current : Option Regex := none
  last : Option Regex := none
  /-- The number of the group. -/
  number : Nat := 0

namespace Branches

def branch (b : Branches) : Regex :=
  match b.current, b.last with
  | none, none => .nothing
  | some r, none | none, some r => r
  | some r, some s => .both r s

def add (b : Branches) (r : Regex) : Branches :=
  match b.last with
  | none => { b with last := some r }
  | some _ => { b with current := some b.branch, last := some r }

def whole (b : Branches) : Regex :=
  match b.done with
  | none => b.branch
  | some r => .either r b.branch

end Branches

/-- Whether nothing stands before a place but an edge. -/
def Branches.atEdge (b : Branches) : Bool :=
  match b.last with
  | none | some (.edge .lineStart) => true
  | some _ => false

/-- Read on; `outer` are the groups around the one that is read, the innermost first. -/
def readFrom (d : Dialect) : Nat → Nat → Branches → List Branches → List Char →
    Except String Regex
  | 0, _, _, _, _ => .error "Regular expression too big"
  | _, _, b, outer, [] => if outer.isEmpty then .ok b.whole else .error "Unmatched ( or \\("
  | fuel + 1, groups, b, outer, cs => do
    let (s, rest) ← sign d b.last.isNone b.atEdge cs
    let on (r : Regex) : Except String Regex := readFrom d fuel groups (b.add r) outer rest
    match s with
    | .single r => on r
    | .again n =>
      if n ≤ groups && !(b :: outer).any (·.number = n) then on (.again n)
      else throw "Invalid back reference"
    | .lineStart => on (.edge .lineStart)
    | .lineEnd => on (.edge .lineEnd)
    | .open => readFrom d fuel (groups + 1) { number := groups + 1 } (b :: outer) rest
    | .close =>
      match outer with
      | o :: outer => readFrom d fuel groups (o.add (.group b.number b.whole)) outer rest
      | [] =>
        if d.extended && !d.editor then on (.one (· == ')')) else throw "Unmatched ) or \\)"
    | .bar => readFrom d fuel groups { done := some b.whole, number := b.number } outer rest
    | .repeats least most =>
      match if d.extended && b.atEdge then none else b.last with
      | some r => readFrom d fuel groups { b with last := some (.repeated r least most) } outer rest
      | none =>
        if d.editor then throw "Invalid preceding regular expression"
        else readFrom d fuel groups b outer rest

/-- The regular expression that a text writes, or what is wrong with it. -/
def read (d : Dialect) (cs : List Char) : Except String Regex :=
  readFrom d (cs.length + 1) 0 {} [] cs

end Regex

end EngineBridge.Shell.Tool
