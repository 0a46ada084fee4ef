import EngineBridge.Decimal.Shortest
import EngineBridge.Programs.Shell.Number

/-!
# Real numbers of shell scripts

Binary floating-point values as arguments write them, and as they are written with a given number
of digits. What is written is the exact value, rounded once, ties to even.
-/

namespace EngineBridge.Shell

open Decimal (Binary)

inductive Real where
  | finite (negative : Bool) (b : Binary)
  | infinite (negative : Bool)
  | nan (negative : Bool)
  deriving DecidableEq, Repr

namespace Real

/-- Digits with a point among them: their value without the point, how many stand behind it, and
the rest. None if there is no digit. -/
def pointed (base : Nat) (cs : List Char) : Option (Nat × Nat × List Char) :=
  let isDigit (c : Char) : Bool := (Text.digit? base c).isSome
  let whole := cs.takeWhile isDigit
  let rest := cs.drop whole.length
  let (places, after) :=
    match rest with
    | '.' :: more => (more.takeWhile isDigit, more.dropWhile isDigit)
    | _ => ([], rest)
  if whole.isEmpty && places.isEmpty then none
  else some (Text.valueOf base (whole ++ places), places.length, after)

/-- An exponent behind one of these letters, and the rest. -/
def exponent (letters : List Char) (cs : List Char) : Int × List Char :=
  match cs with
  | c :: rest =>
    if letters.contains c then
      let (negative, ds) := Number.signed rest
      match Number.decimal ds with
      | some (n, after) => (if negative then -n else n, after)
      | none => (0, cs)
    else (0, cs)
  | [] => (0, cs)

/-- A value with its sign; what is beyond the finite values is infinite. -/
def ofBinary? (negative : Bool) (b : Option Binary) : Real :=
  match b with
  | some b => .finite negative b
  | none => .infinite negative

/-- The power of a base, as a quotient. -/
def scaledBy (base : Nat) (n : Nat) (e : Int) : Nat × Nat :=
  (n * Nat.pow base e.toNat, Nat.pow base (-e).toNat)

/-- Drop a word, whatever the case of its letters. -/
def dropWord? (word : String) (cs : List Char) : Option (List Char) :=
  if word.toList.isPrefixOf (cs.map Char.toLower) then some (cs.drop word.length) else none

/-- The number at the head of a text, whether it is too large or too small, and the rest. Nothing is
read where there is no number. -/
def leading (cs : List Char) : Real × Bool × List Char :=
  let (negative, rest) := Number.signed (cs.dropWhile Number.isBlank)
  let hexadecimal : Option (Real × Bool × List Char) :=
    match rest with
    | '0' :: x :: ds =>
      if x = 'x' || x = 'X' then
        (pointed 16 ds).map fun (n, places, after) =>
          let (e, after) := exponent ['p', 'P'] after
          let e := e - 4 * places
          let clamped : Int := max (-5000) (min 5000 e)
          let (a, b) := scaledBy 2 n clamped
          let value := Binary.round a b
          (ofBinary? negative value, value.isNone, after)
      else none
    | _ => none
  match hexadecimal with
  | some r => r
  | none =>
    match pointed 10 rest with
    | some (n, places, after) =>
      let (e, after) := exponent ['e', 'E'] after
      let value := Decimal.nearest n (e - places)
      let small := n ≠ 0 && value.any fun b => b.mantissa < Nat.pow 2 52
      (ofBinary? negative value, value.isNone || small, after)
    | none =>
      match dropWord? "infinity" rest <|> dropWord? "inf" rest with
      | some after => (.infinite negative, false, after)
      | none =>
        match dropWord? "nan" rest with
        | some after => (.nan negative, false, after)
        | none => (.finite false .zero, false, cs)

def digits (n : Nat) : List Char := n.repr.toList

/-- At least so many digits, with zeros in front. -/
def atLeast (width n : Nat) : List Char :=
  List.replicate (width - (digits n).length) '0' ++ digits n

/-- With so many digits behind the point. -/
def fixed (point : Bool) (places : Nat) (b : Binary) : List Char :=
  let n := Binary.roundDiv (b.num * Nat.pow 10 places) b.den
  let whole := digits (n / Nat.pow 10 places)
  if places = 0 then whole ++ if point then ['.'] else []
  else whole ++ '.' :: atLeast places (n % Nat.pow 10 places)

/-- The leading digits, one more than `places`, and the exponent of the first. -/
def normal (places : Nat) (b : Binary) : Nat × Int :=
  if b.isZero then (0, 0)
  else
    let e := Decimal.decade b.num b.den
    let p := e - places
    let n := Binary.roundDiv (b.num * Nat.pow 10 (-p).toNat) (b.den * Nat.pow 10 p.toNat)
    if n = Nat.pow 10 (places + 1) then (Nat.pow 10 places, e + 1) else (n, e)

/-- With an exponent. -/
def scientific (letter : Char) (point : Bool) (places : Nat) (b : Binary) : List Char :=
  let (n, e) := normal places b
  let mantissa :=
    match atLeast (places + 1) n with
    | [] => []
    | d :: ds => if ds.isEmpty then d :: (if point then ['.'] else []) else d :: '.' :: ds
  mantissa ++ letter :: (if e < 0 then '-' else '+') :: atLeast 2 e.natAbs

/-- Without zeros at the end of what stands behind the point. -/
def withoutZeros (cs : List Char) : List Char :=
  let (mantissa, e) := (cs.takeWhile (· ∉ ['e', 'E']), cs.dropWhile (· ∉ ['e', 'E']))
  if mantissa.contains '.' then
    let kept := mantissa.reverse.dropWhile (· = '0')
    (if kept.head? = some '.' then kept.drop 1 else kept).reverse ++ e
  else cs

/-- With so many digits, in the shorter of the two ways. -/
def general (letter : Char) (point : Bool) (count : Nat) (b : Binary) : List Char :=
  let count := max 1 count
  let e := (normal (count - 1) b).2
  let cs :=
    if -4 ≤ e ∧ e < count then fixed point ((count : Int) - 1 - e).toNat b
    else scientific letter point (count - 1) b
  if point then cs else withoutZeros cs

/-- In binary digits, written in base sixteen. -/
def binary (letter : Char) (b : Binary) : List Char :=
  let (lead, m, e) : Char × Nat × Int :=
    if b.isZero then ('0', 0, 0)
    else if b.mantissa < Nat.pow 2 52 then ('0', b.mantissa, b.exponent + 52)
    else ('1', b.mantissa - Nat.pow 2 52, b.exponent + 52)
  let hex := Nat.toDigits 16 m
  let padded := List.replicate (13 - hex.length) '0' ++ hex
  let kept := (padded.reverse.dropWhile (· = '0')).reverse
  lead :: (if kept.isEmpty then [] else '.' :: kept) ++
    letter :: (if e < 0 then '-' else '+') :: digits e.natAbs

end Real

end EngineBridge.Shell
