import EngineBridge.Text.Digit

/-!
# Numbers of shell scripts

Integers of 64 bits with a sign, and the ways in which they are written.
-/

namespace EngineBridge.Shell.Number

def least : Int := -9223372036854775808

def greatest : Int := 9223372036854775807

/-- The number of 64 bits that is equal up to a multiple of 2 to the 64. -/
def wrap (n : Int) : Int := Int.bmod n 18446744073709551616

def isBlank (c : Char) : Bool := c == ' ' || (9 ≤ c.toNat && c.toNat ≤ 13)

/-- The bits of a number. -/
def bits (n : Int) : BitVec 64 := BitVec.ofInt 64 n

/-- The base that the head of a number tells, and its digits. -/
def based (cs : List Char) : Nat × List Char :=
  let digitAfter (base : Nat) (rest : List Char) : Bool :=
    (rest.head?.bind (Text.digit? base)).isSome
  match cs with
  | '0' :: x :: rest =>
    if (x = 'x' || x = 'X') && digitAfter 16 rest then (16, rest)
    else if (x = 'b' || x = 'B') && digitAfter 2 rest then (2, rest)
    else (8, cs)
  | '0' :: _ => (8, cs)
  | _ => (10, cs)

/-- A number at the head of a text, without limits, and the rest; none if there are no digits. -/
def natural (cs : List Char) : Option (Nat × List Char) :=
  let (base, ds) := based cs
  let digits := ds.takeWhile fun c => (Text.digit? base c).isSome
  if digits.isEmpty then none
  else some (Text.valueOf base digits, ds.drop digits.length)

/-- A number of ten digits only. -/
def decimal (cs : List Char) : Option (Nat × List Char) :=
  let digits := cs.takeWhile Char.isDigit
  if digits.isEmpty then none
  else some (Text.valueOf 10 digits, cs.drop digits.length)

/-- A sign, and what follows it. -/
def signed (cs : List Char) : Bool × List Char :=
  match cs with
  | '-' :: rest => (true, rest)
  | '+' :: rest => (false, rest)
  | _ => (false, cs)

/-- A number with a sign behind blanks, and the rest. Without digits it is zero and nothing is
read. -/
def leading (read : List Char → Option (Nat × List Char)) (cs : List Char) : Int × List Char :=
  let (negative, rest) := signed (cs.dropWhile isBlank)
  match read rest with
  | none => (0, cs)
  | some (n, rest) => (if negative then -n else n, rest)

def inRange (n : Int) : Bool := least ≤ n && n ≤ greatest

/-- Bring a number into the range. -/
def clamp (n : Int) : Int := max least (min greatest n)

/-- The number that a value of a variable writes. -/
def ofValue? (cs : List Char) : Option Int :=
  let (n, rest) := leading natural cs
  if inRange n && rest.all isBlank then some n else none

/-- The number that an argument writes in ten digits. -/
def ofArgument? (cs : List Char) : Option Int :=
  let (n, rest) := leading decimal cs
  let blank := rest.all isBlank && !(rest.length = cs.length)
  if inRange n && blank then some n else none

def text (n : Int) : List Char := (toString n).toList

end EngineBridge.Shell.Number
