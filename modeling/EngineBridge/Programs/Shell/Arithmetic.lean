import EngineBridge.Programs.Shell.Number
import EngineBridge.Programs.Shell.Syntax

/-!
# Arithmetic expansion

Expressions on integers of 64 bits. What a condition leaves out is read and not carried out.
-/

namespace EngineBridge.Shell.Arithmetic

inductive Lexeme where
  | number (n : Int)
  | name (s : String)
  | symbol (s : String)
  /-- A character that means nothing. -/
  | stray (c : Char)
  deriving DecidableEq, Repr

/-- Longer ones first. -/
def symbols : List String :=
  ["<<=", ">>=", "==", "!=", "<=", ">=", "&&", "||", "<<", ">>", "+=", "-=", "*=", "/=", "%=",
    "&=", "|=", "^=", "+", "-", "*", "/", "%", "(", ")", "<", ">", "!", "=", "&", "|", "^", "~",
    "?", ":"]

def lexemes : Nat → List Lexeme → List Char → List Lexeme
  | 0, done, _ => done.reverse
  | _, done, [] => done.reverse
  | fuel + 1, done, c :: rest =>
    let cs := c :: rest
    if c == ' ' || c == '\t' || c == '\n' then lexemes fuel done rest
    else if c.isDigit then
      match Number.natural cs with
      | some (n, rest) => lexemes fuel (.number (Number.clamp n) :: done) rest
      | none => lexemes fuel (.stray c :: done) rest
    else if isNameStart c then
      lexemes fuel (.name (String.ofList (cs.takeWhile isNameChar)) :: done)
        (cs.dropWhile isNameChar)
    else
      match symbols.find? fun o => o.toList.isPrefixOf cs with
      | some o => lexemes fuel (.symbol o :: done) (cs.drop o.length)
      | none => lexemes fuel (.stray c :: done) rest

/-- Why an expression has no value. -/
inductive Failure where
  /-- It is no expression, or divides by zero. -/
  | wrong (message : String)
  /-- The value of a variable is no number. -/
  | noNumber (value : List Char)
  /-- The shell itself breaks down. -/
  | crash
  deriving DecidableEq, Repr

structure Desk where
  rest : List Lexeme
  /-- The values of variables. -/
  lookup : String → Option (List Char)
  /-- What has been assigned, latest first. -/
  assigned : List (String × Int) := []

abbrev Calculation := ExceptT Failure (StateM Desk)

def wrong {α : Type} (message : String) : Calculation α := throw (.wrong message)

def upcoming : Calculation (Option Lexeme) := do return (← get).rest.head?

def advance : Calculation Unit := modify fun d => { d with rest := d.rest.drop 1 }

/-- Drop the next lexeme if it is this symbol. -/
def accept (s : String) : Calculation Bool := do
  if (← upcoming) = some (.symbol s) then
    advance
    return true
  else return false

/-- The value of a variable. One that is missing or empty is zero. -/
def valueOf (name : String) : Calculation Int := do
  let d ← get
  match d.assigned.find? (·.1 = name) with
  | some (_, n) => return n
  | none =>
    let cs := (d.lookup name).getD []
    match Number.ofValue? cs with
    | some n => return n
    | none => throw (.noNumber cs)

private def ofBool (b : Bool) : Int := if b then 1 else 0

def apply (o : String) (a b : Int) : Calculation Int := do
  let places := (Number.bits b).toNat % 64
  match o with
  | "+" => return Number.wrap (a + b)
  | "-" => return Number.wrap (a - b)
  | "*" => return Number.wrap (a * b)
  | "/" | "%" =>
    if b = 0 then wrong "division by zero"
    if a = Number.least && b = -1 then throw .crash
    return if o = "/" then a.tdiv b else a.tmod b
  | "<<" => return (Number.bits a <<< places).toInt
  | ">>" => return ((Number.bits a).sshiftRight places).toInt
  | "&" => return (Number.bits a &&& Number.bits b).toInt
  | "|" => return (Number.bits a ||| Number.bits b).toInt
  | "^" => return (Number.bits a ^^^ Number.bits b).toInt
  | "<" => return ofBool (a < b)
  | ">" => return ofBool (a > b)
  | "<=" => return ofBool (a ≤ b)
  | ">=" => return ofBool (a ≥ b)
  | "==" => return ofBool (a = b)
  | _ => return ofBool (a ≠ b)

/-- Binary operators, from those that bind least. -/
def levels : List (List String) :=
  [["|"], ["^"], ["&"], ["==", "!="], ["<", ">", "<=", ">="], ["<<", ">>"], ["+", "-"],
    ["*", "/", "%"]]

def assignments : List String :=
  ["=", "+=", "-=", "*=", "/=", "%=", "&=", "|=", "^=", "<<=", ">>="]

/-- Carry out an assignment with its operator. -/
def assign (o name : String) (n : Int) : Calculation Int := do
  let n ←
    if o = "=" then pure n
    else apply (String.ofList (o.toList.take (o.length - 1))) (← valueOf name) n
  modify fun d => { d with assigned := (name, n) :: d.assigned }
  return n

inductive Goal where
  | assignment
  | condition
  | primary

/-- Reads an expression inside of another one. `idle` says that it is not carried out. -/
abbrev Inner := Goal → (idle : Bool) → Calculation Int

/-- A number, a variable, or an expression behind unary operators or in brackets. -/
def primary (inner : Inner) (idle : Bool) : Calculation Int := do
  let l ← upcoming
  if l.isSome then advance
  match l with
  | some (.symbol "(") =>
    let n ← inner .assignment idle
    if !(← accept ")") then wrong "expecting ')'"
    return n
  | some (.number n) => return n
  | some (.name x) => if idle then return 0 else valueOf x
  | some (.symbol "+") => inner .primary idle
  | some (.symbol "-") => return Number.wrap (-(← inner .primary idle))
  | some (.symbol "!") => return ofBool ((← inner .primary idle) = 0)
  | some (.symbol "~") => return -(← inner .primary idle) - 1
  | _ => wrong "expecting primary"

/-- Binary operators of these levels, from the left to the right. -/
def binary (inner : Inner) (idle : Bool) (fuel : Nat) : List (List String) → Calculation Int
  | [] => primary inner idle
  | here :: tighter => do more here tighter fuel (← binary inner idle fuel tighter)
where
  more (here : List String) (tighter : List (List String)) : Nat → Int → Calculation Int
    | 0, a => return a
    | n + 1, a => do
      match ← upcoming with
      | some (.symbol o) =>
        if here.contains o then
          advance
          let b ← binary inner idle fuel tighter
          more here tighter n (← if idle then pure b else apply o a b)
        else return a
      | _ => return a

/-- Operands of `&&`, up to the first that settles the matter. -/
def conjunction (inner : Inner) : Nat → Bool → Calculation Int
  | 0, _ => return 0
  | fuel + 1, idle => do
    let a ← binary inner idle (fuel + 1) levels
    if ← accept "&&" then
      let b ← conjunction inner fuel (idle || a = 0)
      return ofBool (a ≠ 0 ∧ b ≠ 0)
    else return a

def disjunction (inner : Inner) : Nat → Bool → Calculation Int
  | 0, _ => return 0
  | fuel + 1, idle => do
    let a ← conjunction inner (fuel + 1) idle
    if ← accept "||" then
      let b ← disjunction inner fuel (idle || a ≠ 0)
      return ofBool (a ≠ 0 ∨ b ≠ 0)
    else return a

def condition (inner : Inner) (idle : Bool) : Calculation Int := do
  let a ← disjunction inner ((← get).rest.length + 1) idle
  if ← accept "?" then
    let b ← inner .assignment (idle || a = 0)
    if !(← accept ":") then wrong "expecting ':'"
    let c ← inner .condition (idle || a ≠ 0)
    return if a ≠ 0 then b else c
  else return a

def assignment (inner : Inner) (idle : Bool) : Calculation Int := do
  match (← get).rest with
  | .name x :: .symbol o :: rest =>
    if assignments.contains o then
      modify fun d => { d with rest }
      let n ← inner .assignment idle
      if idle then return n else assign o x n
    else condition inner idle
  | _ => condition inner idle

/-- Readers of inner expressions, down to a depth. -/
def inner : Nat → Inner
  | 0 => fun _ _ => wrong "expecting primary"
  | depth + 1 => fun
    | .assignment => assignment (inner depth)
    | .condition => condition (inner depth)
    | .primary => primary (inner depth)

/-- The value of an expression, and what it has assigned, in order. -/
def evaluate (lookup : String → Option (List Char)) (source : List Char) :
    Except Failure Int × List (String × Int) :=
  let ls := lexemes (source.length + 1) [] source
  let whole : Calculation Int := do
    let n ← inner (2 * ls.length + 2) .assignment false
    if (← upcoming).isSome then wrong "expecting EOF"
    return n
  let (result, desk) := whole.run.run { rest := ls, lookup }
  (result, desk.assigned.reverse)

end EngineBridge.Shell.Arithmetic
