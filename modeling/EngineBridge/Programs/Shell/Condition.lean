import EngineBridge.Programs.Shell.State

/-!
# Conditions

What the arguments of `test` state about texts, numbers and files.
-/

namespace EngineBridge.Shell

namespace Condition

/-- What an argument of `test` can be. -/
inductive Sign where
  | finish
  | operand
  | negation
  | conjunction
  | disjunction
  | opening
  | closing
  | unary
  | binary
  deriving DecidableEq, Repr

def unaryOperators : List String :=
  ["-r", "-w", "-x", "-e", "-f", "-d", "-c", "-b", "-p", "-u", "-g", "-k", "-s", "-t", "-z", "-n",
    "-h", "-O", "-G", "-L", "-S"]

def binaryOperators : List String :=
  ["=", "!=", "<", ">", "-eq", "-ne", "-ge", "-gt", "-le", "-lt", "-nt", "-ot", "-ef"]

def signOf (s : String) : Sign :=
  match s with
  | "!" => .negation
  | "-a" => .conjunction
  | "-o" => .disjunction
  | "(" => .opening
  | ")" => .closing
  | s =>
    if unaryOperators.contains s then .unary
    else if binaryOperators.contains s then .binary
    else .operand

/-- The arguments that are left, the first of which is looked at. -/
abbrev Args := List (List Char)

/-- Whether a unary operator is an operand after all: nothing follows it, or a binary operator. -/
def isOperand (rest : Args) : Bool :=
  match rest with
  | [] => true
  | [_] => false
  | next :: _ => signOf (String.ofList next) = .binary

def lex (args : Args) : Sign :=
  match args with
  | [] => .finish
  | a :: rest =>
    match signOf (String.ofList a) with
    | .unary => if isOperand rest then .operand else .unary
    | .opening => if rest.isEmpty then .operand else .opening
    | s => s

def wrong {α : Type} (operator : Option (List Char)) (message : String) : Run α :=
  match operator with
  | some o => Run.fail (o ++ ": ".toList ++ message.toList)
  | none => Run.failWith message

def number (cs : List Char) : Run Int := do
  match Number.ofArgument? cs with
  | some n => return n
  | none => Run.fail ("Illegal number: ".toList ++ cs)

/-- What a path leads to, with links followed or not. -/
def nodeAt (path : List Char) (follow : Bool) : Run (Option Files.Node) := do
  let s ← get
  match s.files.locate s.directory path follow with
  | .ok (_, n) => return n
  | .error _ => return none

/-- A condition on one operand. -/
def holdsOf (operator : String) (operand : List Char) : Run Bool := do
  match operator with
  | "-z" => return operand.isEmpty
  | "-n" => return !operand.isEmpty
  | "-t" =>
    let _ ← number operand
    return false
  | "-h" | "-L" => return (match ← nodeAt operand false with | some (.link _) => true | _ => false)
  | _ =>
    match operator, ← nodeAt operand true with
    | _, none => return false
    | "-f", some n => return (match n with | .file _ | .program _ => true | _ => false)
    | "-d", some n => return n = .directory
    | "-c", some (.device (.descriptor n)) =>
      return (match (← get).descriptors.lookup n with | some (.device _) => true | _ => false)
    | "-c", some n => return (match n with | .device _ => true | _ => false)
    | "-p", some (.device (.descriptor n)) =>
      return (match (← get).descriptors.lookup n with
        | some (.stream _) | some (.sink _) => true
        | _ => false)
    | "-x", some n => return (match n with | .program _ | .directory => true | _ => false)
    | "-s", some n => return (match n with | .file c => !c.isEmpty | .device _ => false | _ => true)
    | "-b", _ | "-p", _ | "-S", _ | "-u", _ | "-g", _ | "-k", _ => return false
    | _, _ => return true

/-- A condition on two operands. -/
def holdsBetween (operator : String) (a b : List Char) : Run Bool := do
  let compare (p : Int → Int → Bool) : Run Bool := do
    let x ← number a
    let y ← number b
    return p x y
  match operator with
  | "=" => return a = b
  | "!=" => return a ≠ b
  | "<" => return a < b
  | ">" => return b < a
  | "-eq" => compare (· == ·)
  | "-ne" => compare (· != ·)
  | "-ge" => compare (· ≥ ·)
  | "-gt" => compare (· > ·)
  | "-le" => compare (· ≤ ·)
  | "-lt" => compare (· < ·)
  | "-ef" =>
    let s ← get
    match s.files.locate s.directory a true, s.files.locate s.directory b true with
    | .ok (p, some _), .ok (q, some _) => return p = q
    | _, _ => return false
  | "-nt" => return (← nodeAt a true).isSome && (← nodeAt b true).isNone
  | _ => return (← nodeAt b true).isSome && (← nodeAt a true).isNone

/-- An operand with what belongs to it; gives the arguments from its last one on. -/
def comparison (args : Args) : Run (Bool × Args) := do
  match args with
  | [] => return (false, args)
  | a :: rest =>
    if lex rest = .binary then
      match rest with
      | o :: b :: _ => return (← holdsBetween (String.ofList o) a b, rest.drop 1)
      | o :: _ => wrong (some o) "argument expected"
      | [] => return (!a.isEmpty, args)
    else return (!a.isEmpty, args)

/-- Readers of conditions inside of conditions. -/
abbrev Within := Sign → Args → Run (Bool × Args)

def primary (within : Within) (sign : Sign) (args : Args) : Run (Bool × Args) := do
  match sign with
  | .finish => return (false, args)
  | .opening =>
    let rest := args.drop 1
    if lex rest = .closing then return (false, rest)
    let (b, rest) ← within (lex rest) rest
    if lex (rest.drop 1) ≠ .closing then wrong none "closing paren expected"
    return (b, rest.drop 1)
  | .unary =>
    match args with
    | o :: operand :: rest => return (← holdsOf (String.ofList o) operand, operand :: rest)
    | o :: _ => wrong (some o) "argument expected"
    | [] => return (false, [])
  | _ => comparison args

def negations (within : Within) : Nat → Sign → Args → Run (Bool × Args)
  | 0, _, args => return (false, args)
  | fuel + 1, sign, args => do
    if sign ≠ .negation then primary within sign args
    else
      let rest := args.drop 1
      let (b, rest) ← negations within fuel (lex rest) (if rest.isEmpty then args else rest)
      return (!b, rest)

/-- Conditions joined by `-a`; all of them are looked at. -/
def conjunction (within : Within) : Nat → Sign → Args → Run (Bool × Args)
  | 0, _, args => return (false, args)
  | fuel + 1, sign, args => do
    let (a, rest) ← negations within (args.length + 1) sign args
    if lex (rest.drop 1) = .conjunction then
      let (b, rest) ← conjunction within fuel (lex (rest.drop 2)) (rest.drop 2)
      return (a && b, rest)
    else return (a, rest)

def disjunction (within : Within) : Nat → Sign → Args → Run (Bool × Args)
  | 0, _, args => return (false, args)
  | fuel + 1, sign, args => do
    let (a, rest) ← conjunction within (args.length + 1) sign args
    if lex (rest.drop 1) = .disjunction then
      let (b, rest) ← disjunction within fuel (lex (rest.drop 2)) (rest.drop 2)
      return (a || b, rest)
    else return (a, rest)

def within : Nat → Within
  | 0 => fun _ args => return (false, args)
  | depth + 1 => fun sign args => disjunction (within depth) (args.length + 1) sign args

/-- Read the whole condition. What follows it, if anything does, is an error. -/
def whole (sign : Sign) (args : Args) : Run Bool := do
  let (b, rest) ← within (args.length + 1) sign args
  match rest with
  | a :: _ :: _ => wrong (some a) "unexpected operator"
  | _ => return b

/-- Whether the arguments state something true. Their number decides how a few are read. -/
def holds : Nat → Args → Run Bool
  | 0, _ => return false
  | fuel + 1, args => do
    match args with
    | [] => return false
    | [_, o, _] =>
      if signOf (String.ofList o) = .binary then whole .operand args else few fuel args
    | [_, _, _, _] => few fuel args
    | _ => whole (lex args) args
where
  few (fuel : Nat) (args : Args) : Run Bool := do
    if args.head? = some ['('] && args.getLast? = some [')'] then
      let inside := args.dropLast.drop 1
      whole (lex inside) inside
    else if args.head? = some ['!'] then return !(← holds fuel (args.drop 1))
    else whole (lex args) args

end Condition

end EngineBridge.Shell
