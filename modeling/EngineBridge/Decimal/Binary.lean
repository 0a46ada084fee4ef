/-!
# Binary floating-point values

A magnitude `m * 2 ^ e` with at most 53 significant bits, and the arithmetic on it that decimal
text needs. Every operation rounds the exact result once, to the nearest value, ties to even.
-/

namespace EngineBridge.Decimal

/-- The magnitude `mantissa * 2 ^ exponent`. Values built by `Binary.round` have a mantissa below
`2 ^ 53`, and one of at least `2 ^ 52` unless the exponent is `-1074`. -/
structure Binary where
  mantissa : Nat
  exponent : Int
  deriving DecidableEq, Repr

namespace Binary

/-- Bits of a full mantissa. -/
def precision : Nat := 53

/-- The exponent of the smallest positive value. -/
def least : Int := -1074

/-- The largest exponent of a finite value with a full mantissa. -/
def greatest : Int := 971

def zero : Binary := ⟨0, least⟩

def isZero (b : Binary) : Bool := b.mantissa == 0

/-- Numerator of the value as a quotient of naturals. -/
def num (b : Binary) : Nat := b.mantissa * Nat.pow 2 b.exponent.toNat

/-- Denominator of the value as a quotient of naturals. -/
def den (b : Binary) : Nat := Nat.pow 2 (-b.exponent).toNat

/-- The quotient `n / d` rounded to a natural, ties to even. -/
def roundDiv (n d : Nat) : Nat :=
  let q := n / d
  let r := n % d
  if d < 2 * r ∨ (2 * r = d ∧ q % 2 = 1) then q + 1 else q

/-- The quotient `n / d` counted in units of `2 ^ e`, as a quotient of naturals. -/
def inUnits (n d : Nat) (e : Int) : Nat × Nat :=
  (n * Nat.pow 2 (-e).toNat, d * Nat.pow 2 e.toNat)

/-- The exponent at which `n / d` has a full mantissa, never below `least`. -/
def exponentFor (n d : Nat) : Int :=
  let e : Int := (n.log2 : Int) - d.log2 - 52
  let (a, b) := inUnits n d e
  max least (if a / b < Nat.pow 2 52 then e - 1 else e)

/-- The value nearest to `n / d`, ties to even; none when it is beyond the finite values. -/
def round (n d : Nat) : Option Binary :=
  if n = 0 then some zero else
    let e := exponentFor n d
    let (a, b) := inUnits n d e
    let m := roundDiv a b
    let (m, e) := if m = Nat.pow 2 precision then (Nat.pow 2 (precision - 1), e + 1) else (m, e)
    if greatest < e then none else some ⟨m, e⟩

def ofNat (n : Nat) : Option Binary := round n 1

def mul (x y : Binary) : Option Binary := round (x.num * y.num) (x.den * y.den)

/-- The quotient of two values; zero by zero is zero. -/
def div (x y : Binary) : Option Binary := round (x.num * y.den) (x.den * y.num)

end Binary

/-- The value of a power of ten. -/
def powerOfTen (k : Nat) : Option Binary := Binary.ofNat (Nat.pow 10 k)

/-- The largest power of ten that is a finite value. -/
def topPower : Nat := 308

/-- The value `b * 10 ^ e`, by one product or quotient when the power is a finite value, else by
quotients of `10 ^ 308` first; none beyond the finite values. -/
def Binary.timesPower (b : Binary) (e : Int) : Option Binary :=
  if e.natAbs ≤ topPower then
    (powerOfTen e.natAbs).bind fun p => if 0 ≤ e then b.mul p else b.div p
  else if b.isZero then some b
  else if 0 ≤ e then none
  else
    ((powerOfTen topPower).bind b.div).bind fun q => q.timesPower (e + topPower)
termination_by e.natAbs
decreasing_by have h : topPower = 308 := rfl; omega

/-- The value of `significand * 10 ^ exponent`: the significand is rounded before it is scaled. -/
def scaled (significand : Nat) (exponent : Int) : Option Binary :=
  (Binary.ofNat significand).bind (·.timesPower exponent)

/-- Decimal digits of a natural. -/
def digitCount (n : Nat) : Nat := n.repr.length

/-- The value nearest to `significand * 10 ^ exponent`, ties to even; none beyond the finite values.
What is far outside the range of the values is told by its count of digits. -/
def nearest (significand : Nat) (exponent : Int) : Option Binary :=
  let digits : Int := digitCount significand
  if significand = 0 || digits + exponent < -400 then some .zero
  else if 400 < digits + exponent then none
  else Binary.round (significand * Nat.pow 10 exponent.toNat) (Nat.pow 10 (-exponent).toNat)

end EngineBridge.Decimal
