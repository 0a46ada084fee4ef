import EngineBridge.Decimal.Binary

/-!
# Shortest decimal digits

The fewest significant digits whose decimal lies in the interval of reals that round to a value,
and of the candidates with that many digits the one nearest to the value.
-/

namespace EngineBridge.Decimal

/-- The decimal `digits * 10 ^ exponent`. -/
structure Digits where
  digits : Nat
  exponent : Int
  deriving DecidableEq, Repr

/-- The exponent of the leading decimal digit of a positive `n / d` above `10 ^ -400`. -/
def decade (n d : Nat) : Int :=
  ((n * Nat.pow 10 400 / d).repr.length : Int) - 401

/-- The reals that round to a value, in quarters of its unit in the last place: the ends of the
interval, as multiples of `2 ^ (exponent - 2)`. -/
def Binary.ends (b : Binary) : Nat × Nat :=
  let m := 4 * b.mantissa
  (if b.mantissa = Nat.pow 2 52 ∧ Binary.least < b.exponent then m - 1 else m - 2, m + 2)

/-- Whether the decimal `c * 10 ^ p` rounds to `b`. The ends count when the mantissa is even. -/
def Binary.reads (b : Binary) (c : Nat) (p : Int) : Bool :=
  let (lo, hi) := b.ends
  let e := b.exponent - 2
  let x := c * Nat.pow 10 p.toNat * Nat.pow 2 (-e).toNat
  let unit := Nat.pow 2 e.toNat * Nat.pow 10 (-p).toNat
  if b.mantissa % 2 = 0 then lo * unit ≤ x && x ≤ hi * unit else lo * unit < x && x < hi * unit

/-- The better of the two neighbours of `b` on the grid of multiples of `10 ^ p`, if one of them
rounds to `b`. An exact tie goes to the even neighbour. -/
def Binary.onGrid (b : Binary) (p : Int) : Option Nat :=
  let n := b.num * Nat.pow 10 (-p).toNat
  let d := b.den * Nat.pow 10 p.toNat
  let below := n / d
  let above := below + 1
  let r := n % d
  let nearer := if 2 * r < d ∨ (2 * r = d ∧ below % 2 = 0) then below else above
  let other := if nearer = below then above else below
  if b.reads nearer p then some nearer
  else if b.reads other p then some other
  else none

/-- The shortest decimal that reads back as `b`, without trailing zeros. -/
def Binary.shortest (b : Binary) : Digits :=
  if b.isZero then ⟨0, 0⟩ else
    let top := decade b.num b.den
    let (c, p) := search b top 17 1
    strip c p 17
where
  search (b : Binary) (top : Int) : Nat → Nat → Nat × Int
    | 0, _ => (b.num / b.den, 0)
    | fuel + 1, count =>
      let p := top - count + 1
      match b.onGrid p with
      | some c => (c, p)
      | none => search b top fuel (count + 1)
  strip (c : Nat) (p : Int) : Nat → Digits
    | 0 => ⟨c, p⟩
    | fuel + 1 => if c % 10 = 0 ∧ c ≠ 0 then strip (c / 10) (p + 1) fuel else ⟨c, p⟩

end EngineBridge.Decimal
