import EngineBridge.Programs.Shell.Tool.Basic
import EngineBridge.Programs.Shell.Tool.Regex

/-!
# Expressions whose tokens are arguments
-/

namespace EngineBridge.Shell.Tool.Calculating

/-- What is left to be read. -/
abbrev Reading := ExceptT (String × Nat) (StateM Args)

def wrong {α : Type} (message : String) : Reading α := throw (message, 2)

def integer? (cs : List Char) : Option Int :=
  match cs with
  | '-' :: ds => if !ds.isEmpty && ds.all Char.isDigit then some (-Text.valueOf 10 ds) else none
  | ds => if !ds.isEmpty && ds.all Char.isDigit then some (Text.valueOf 10 ds) else none

/-- Whether a value counts as nothing. -/
def isNull (cs : List Char) : Bool :=
  cs.isEmpty || (integer? cs).any (· = 0)

def text (n : Int) : List Char := (toString n).toList

def truth (b : Bool) : List Char := if b then ['1'] else ['0']

/-- What of the head of a text a pattern matches: its group, or how long it is. -/
def headMatch (cs pattern : List Char) : Except String (List Char) :=
  match Regex.read { extended := false } pattern with
  | .error m => .error m
  | .ok r =>
    let hasGroup := pattern.zip (pattern.drop 1) |>.contains ('\\', '(')
    match Regex.longest {} r { before := [], rest := cs } with
    | some q =>
      .ok (if hasGroup then (q.groups.lookup 1).getD []
        else text (cs.length - q.rest.length))
    | none => .ok (if hasGroup then [] else ['0'])

inductive Level where
  | either
  | both
  | comparison
  | sum
  | product
  | matching
  | primary
  deriving DecidableEq, Repr

abbrev Inner := Level → Reading (List Char)

def accept (names : List String) : Reading (Option String) := do
  match ← get with
  | a :: rest =>
    if names.contains (String.ofList a) then
      set rest
      return some (String.ofList a)
    else return none
  | [] => return none

/-- An operator between values. -/
def apply (o : String) (a b : List Char) : Reading (List Char) := do
  let numbers : Reading (Int × Int) := do
    match integer? a, integer? b with
    | some m, some n => return (m, n)
    | _, _ => wrong "non-integer argument"
  let compared : Ordering :=
    match integer? a, integer? b with
    | some m, some n => compare m n
    | _, _ => compare (String.ofList a) (String.ofList b)
  match o with
  | "|" => return if !isNull a then a else if isNull b then ['0'] else b
  | "&" => return if isNull a || isNull b then ['0'] else a
  | "=" | "==" => return truth (compared = .eq)
  | "!=" => return truth (compared ≠ .eq)
  | "<" => return truth (compared = .lt)
  | "<=" => return truth (compared ≠ .gt)
  | ">" => return truth (compared = .gt)
  | ">=" => return truth (compared ≠ .lt)
  | "+" =>
    let (m, n) ← numbers
    return text (m + n)
  | "-" =>
    let (m, n) ← numbers
    return text (m - n)
  | "*" =>
    let (m, n) ← numbers
    return text (m * n)
  | ":" =>
    match headMatch a b with
    | .ok cs => return cs
    | .error m => wrong m
  | _ =>
    let (m, n) ← numbers
    if n = 0 then wrong "division by zero"
    return text (if o = "/" then m.tdiv n else m.tmod n)

/-- Operators of one level, each between what the next level reads. -/
def chain (inner : Inner) (names : List String) (level : Level) :
    Nat → List Char → Reading (List Char)
  | 0, a => return a
  | fuel + 1, a => do
    match ← accept names with
    | none => return a
    | some o =>
      if (← get).isEmpty then wrong ("syntax error: missing argument after '" ++ o ++ "'")
      let b ← inner level
      chain inner names level fuel (← apply o a b)

def take : Reading (List Char) := do
  match ← get with
  | [] => wrong "syntax error: missing argument"
  | a :: rest =>
    set rest
    return a

def primary (inner : Inner) : Reading (List Char) := do
  let before ← get
  let last := before.head?.getD []
  match ← get with
  | [] => wrong "syntax error: missing argument"
  | _ =>
    let a ← take
    match String.ofList a, (← get).isEmpty with
    | "(", _ =>
      let v ← inner .either
      match ← accept [")"] with
      | some _ => return v
      | none =>
        match ← get with
        | [] => wrong "syntax error: expecting ')'"
        | b :: _ => wrong ("syntax error: expecting ')' instead of '" ++ String.ofList b ++ "'")
    | ")", _ => wrong "syntax error: unexpected ')'"
    | "+", false => take
    | "length", false => do return text (← inner .primary).length
    | "match", false =>
      let cs ← inner .primary
      let p ← inner .primary
      apply ":" cs p
    | "index", false =>
      let cs ← inner .primary
      let set ← inner .primary
      let place : Nat := ((cs.findIdx? set.contains).map (· + 1)).getD 0
      return text place
    | "substr", false =>
      let cs ← inner .primary
      let pos ← inner .primary
      let len ← inner .primary
      match integer? pos, integer? len with
      | some (.ofNat (p + 1)), some (.ofNat n) => return (cs.drop p).take n
      | _, _ => return []
    | _, _ => return last

def level (inner : Inner) (fuel : Nat) : Level → Reading (List Char)
  | .either => do chain inner ["|"] .both fuel (← inner .both)
  | .both => do chain inner ["&"] .comparison fuel (← inner .comparison)
  | .comparison => do
    chain inner ["<", "<=", "=", "==", "!=", ">=", ">"] .sum fuel (← inner .sum)
  | .sum => do chain inner ["+", "-"] .product fuel (← inner .product)
  | .product => do chain inner ["*", "/", "%"] .matching fuel (← inner .matching)
  | .matching => do chain inner [":"] .primary fuel (← inner .primary)
  | .primary => primary inner

def inner (fuel : Nat) : Nat → Inner
  | 0 => fun _ => wrong "syntax error"
  | depth + 1 => level (inner fuel depth) fuel

end EngineBridge.Shell.Tool.Calculating

namespace EngineBridge.Shell.Tool

open Calculating in
def expr : Tool := fun args => do
  let args := if args.head? = some ['-', '-'] then args.drop 1 else args
  if args.isEmpty then
    giveUp "expr" "missing operand\nTry 'expr --help' for more information.".toList 2
  let fuel := args.length + 1
  match (Calculating.inner fuel (8 * fuel) .either).run.run args with
  | (.error (m, n), _) => giveUp "expr" m.toList n
  | (.ok v, rest) =>
    match rest with
    | a :: _ => giveUp "expr" ("syntax error: unexpected argument '".toList ++ a ++ ['\'']) 2
    | [] =>
      write (v ++ ['\n'])
      Run.setStatus (if isNull v then 1 else 0)

end EngineBridge.Shell.Tool
