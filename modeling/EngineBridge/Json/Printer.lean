import EngineBridge.Json.Value
import EngineBridge.Text.Quoted

/-!
# Compact JSON text
-/

namespace EngineBridge.Json

/-- Where decimal text of a floating-point value changes its form. -/
structure NumberFormat where
  /-- The least decade written positionally. -/
  leastDecade : Int
  /-- The first decade above those that are written positionally. -/
  firstLarge : Int
  deriving Repr

/-- Values from `10 ^ -5` up to `10 ^ 16` are positional and keep a point; the exponent of all
others has a sign and no leading zero. -/
def numberFormat : NumberFormat := ⟨-5, 16⟩

/-- Decimal digits with a point after `place` of them, and a zero where a side is empty. -/
def positional (digits : List Char) (place : Int) : List Char :=
  if place ≤ 0 then
    ['0', '.'] ++ List.replicate (-place).toNat '0' ++ digits
  else if (digits.length : Int) ≤ place then
    digits ++ List.replicate (place.toNat - digits.length) '0' ++ ['.', '0']
  else
    digits.take place.toNat ++ '.' :: digits.drop place.toNat

def scientific (digits : List Char) (decade : Int) : List Char :=
  let mantissa :=
    match digits with
    | [] => ['0']
    | [d] => [d]
    | d :: rest => d :: '.' :: rest
  mantissa ++ ['e', if decade < 0 then '-' else '+'] ++ decade.natAbs.repr.toList

def writeReal (f : NumberFormat) (negative : Bool) (b : Decimal.Binary) : List Char :=
  let sign := if negative then ['-'] else []
  let d := b.shortest
  let digits := d.digits.repr.toList
  let decade := d.exponent + digits.length - 1
  sign ++
    if b.isZero then ['0', '.', '0']
    else if f.leastDecade ≤ decade ∧ decade < f.firstLarge then positional digits (decade + 1)
    else scientific digits decade

def Number.write : Number → List Char
  | .integer n => (toString n).toList
  | .real negative b => writeReal numberFormat negative b

def fourHexDigits (n : Nat) : List Char :=
  let digits := Text.hexDigits n
  List.replicate (4 - digits.length) '0' ++ digits

/-- Only the quote, the backslash and the controls below U+0020 are escaped. -/
def escapeChar (c : Char) : List Char :=
  match c with
  | '"' => ['\\', '"']
  | '\\' => ['\\', '\\']
  | '\n' => ['\\', 'n']
  | '\r' => ['\\', 'r']
  | '\t' => ['\\', 't']
  | _ =>
    if c.toNat = 0x08 then ['\\', 'b']
    else if c.toNat = 0x0c then ['\\', 'f']
    else if c.toNat < 0x20 then '\\' :: 'u' :: fourHexDigits c.toNat
    else [c]

def writeText (s : String) : List Char :=
  '"' :: s.toList.flatMap escapeChar ++ ['"']

mutual

def write : Json → List Char
  | .null => ['n', 'u', 'l', 'l']
  | .bool true => ['t', 'r', 'u', 'e']
  | .bool false => ['f', 'a', 'l', 's', 'e']
  | .number n => n.write
  | .text s => writeText s
  | .array [] => ['[', ']']
  | .array (x :: xs) => '[' :: write x ++ writeItems xs
  | .object [] => ['\x7b', '\x7d']
  | .object ((k, v) :: rest) => '\x7b' :: writeText k ++ ':' :: write v ++ writeMembers rest

/-- The items after the first one, and the closing bracket. -/
def writeItems : List Json → List Char
  | [] => [']']
  | x :: xs => ',' :: write x ++ writeItems xs

/-- The members after the first one, and the closing brace. -/
def writeMembers : List (String × Json) → List Char
  | [] => ['\x7d']
  | (k, v) :: rest => ',' :: writeText k ++ ':' :: write v ++ writeMembers rest

end

/-- The compact text of a value. -/
def render (j : Json) : String := String.ofList j.write

end EngineBridge.Json
