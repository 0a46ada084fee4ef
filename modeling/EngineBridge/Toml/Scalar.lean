import EngineBridge.Text.Digit
import EngineBridge.Toml.Value

/-!
# Reading single values

Texts in four kinds of quotes, numbers, truth values, dates and times. A reader gives the value and
the rest of the text.
-/

namespace EngineBridge.Toml.Reader

/-- A character that may stand in texts and comments. -/
def isPlain (c : Char) : Bool := c == '\t' || (0x20 ≤ c.toNat && c.toNat ≠ 0x7f)

def skipBlank (cs : List Char) : List Char := cs.dropWhile fun c => c == ' ' || c == '\t'

/-- The rest after a line feed, with or without a carriage return before it. -/
def lineFeed? : List Char → Option (List Char)
  | '\n' :: rest => some rest
  | '\r' :: '\n' :: rest => some rest
  | _ => none

/-- The character with a code of `width` hexadecimal digits. -/
def codePoint? (width : Nat) (cs : List Char) : Option (Char × List Char) :=
  let ds := (cs.take width).filterMap Text.hexDigit?
  let n := ds.foldl (fun n d => n * 16 + d) 0
  if ds.length = width ∧ n.isValidChar then some (Char.ofNat n, cs.drop width) else none

/-- The character that an escape stands for, after its backslash. -/
def escaped? : List Char → Option (Char × List Char)
  | 'b' :: rest => some ('\x08', rest)
  | 't' :: rest => some ('\t', rest)
  | 'n' :: rest => some ('\n', rest)
  | 'f' :: rest => some ('\x0c', rest)
  | 'r' :: rest => some ('\r', rest)
  | '"' :: rest => some ('"', rest)
  | '\\' :: rest => some ('\\', rest)
  | 'u' :: rest => codePoint? 4 rest
  | 'U' :: rest => codePoint? 8 rest
  | _ => none

private def reversed (done : List Char) : String := String.ofList done.reverse

/-- A text up to its double quote, behind the characters in `done`. -/
def escapedText? : Nat → List Char → List Char → Option (String × List Char)
  | 0, _, _ | _, _, [] => none
  | _, done, '"' :: rest => some (reversed done, rest)
  | fuel + 1, done, '\\' :: rest =>
    (escaped? rest).bind fun (c, rest) => escapedText? fuel (c :: done) rest
  | fuel + 1, done, c :: rest => if isPlain c then escapedText? fuel (c :: done) rest else none

/-- A text up to its single quote. -/
def verbatimText? (cs : List Char) : Option (String × List Char) :=
  let body := cs.takeWhile fun c => isPlain c && c ≠ '\''
  match cs.drop body.length with
  | '\'' :: rest => some (String.ofList body, rest)
  | _ => none

/-- The rest after a line end that a backslash hides, and the blanks and line ends after it. -/
def fold? (cs : List Char) : Option (List Char) := (lineFeed? (skipBlank cs)).map skipSpace
where
  skipSpace : List Char → List Char
    | ' ' :: rest | '\t' :: rest | '\n' :: rest | '\r' :: '\n' :: rest => skipSpace rest
    | cs => cs

/-- A text of several lines up to its three quotes. One or two more quotes before them belong to
the text. -/
def longText? (quote : Char) : Nat → List Char → List Char → Option (String × List Char)
  | 0, _, _ | _, _, [] => none
  | fuel + 1, done, '\r' :: '\n' :: rest => longText? quote fuel ('\n' :: done) rest
  | fuel + 1, done, c :: rest =>
    if c = quote then
      let run := (c :: rest).takeWhile (· = quote)
      let after := (c :: rest).drop run.length
      if run.length < 3 then longText? quote fuel (run ++ done) after
      else
        let kept := min (run.length - 3) 2
        some (reversed (run.take kept ++ done), run.drop (kept + 3) ++ after)
    else if c = '\\' ∧ quote = '"' then
      match fold? rest with
      | some rest => longText? quote fuel done rest
      | none => (escaped? rest).bind fun (c, rest) => longText? quote fuel (c :: done) rest
    else if c = '\n' ∨ isPlain c then longText? quote fuel (c :: done) rest
    else none

/-- A text of one line. -/
def lineText? : List Char → Option (String × List Char)
  | '"' :: rest => escapedText? (rest.length + 1) [] rest
  | '\'' :: rest => verbatimText? rest
  | _ => none

/-- A text; a line end right after three quotes does not belong to it. -/
def text? (cs : List Char) : Option (String × List Char) :=
  match cs with
  | a :: b :: c :: rest =>
    if a = b ∧ b = c ∧ (a = '"' ∨ a = '\'') then
      longText? a (rest.length + 1) [] ((lineFeed? rest).getD rest)
    else lineText? cs
  | _ => lineText? cs

/-- Digits, with single underscores between them dropped. -/
def digits (base : Nat) : Bool → List Char → List Char × List Char
  | _, [] => ([], [])
  | true, '_' :: c :: rest =>
    if (Text.digit? base c).isSome then
      let (ds, rest) := digits base true rest
      (c :: ds, rest)
    else ([], '_' :: c :: rest)
  | _, c :: rest =>
    if (Text.digit? base c).isSome then
      let (ds, rest) := digits base true rest
      (c :: ds, rest)
    else ([], c :: rest)

def digits? (base : Nat) (cs : List Char) : Option (List Char × List Char) :=
  match digits base false cs with
  | ([], _) => none
  | r => some r

/-- An integer of 64 bits with a sign. -/
def word? (negative : Bool) (n : Nat) : Option Toml :=
  if negative ∧ n ≤ Nat.pow 2 63 then some (.integer (-n))
  else if n < Nat.pow 2 63 then some (.integer n)
  else none

/-- A real number. One that is too large is refused, one that is too small is not. -/
def real? (negative : Bool) (significand : Nat) (exponent : Int) : Option Toml :=
  match Decimal.nearest significand exponent, negative with
  | some b, _ => some (.real (.finite negative b))
  | none, true => some (.real (.infinite true))
  | none, false => none

def sign : List Char → Bool × List Char
  | '-' :: rest => (true, rest)
  | '+' :: rest => (false, rest)
  | cs => (false, cs)

/-- The exponent of a real number, if one follows. -/
def exponent? (cs : List Char) : Option (Int × List Char) :=
  match cs with
  | [] => some (0, [])
  | c :: rest =>
    if c = 'e' ∨ c = 'E' then
      let (negative, rest) := sign rest
      (digits? 10 rest).map fun (ds, rest) =>
        let n : Int := Text.valueOf 10 ds
        (if negative then -n else n, rest)
    else some (0, cs)

/-- A number after its sign. A leading zero stands alone. -/
def decimal? (negative : Bool) : List Char → Option (Toml × List Char)
  | 'i' :: 'n' :: 'f' :: rest => some (.real (.infinite negative), rest)
  | 'n' :: 'a' :: 'n' :: rest => some (.real .nan, rest)
  | cs => do
    let (whole, rest) ← digits? 10 cs
    if whole.head? = some '0' ∧ whole.length ≠ 1 then none
    match rest with
    | '.' :: rest =>
      let (fraction, rest) ← digits? 10 rest
      let (e, rest) ← exponent? rest
      let v ← real? negative (Text.valueOf 10 (whole ++ fraction)) (e - fraction.length)
      return (v, rest)
    | 'e' :: _ | 'E' :: _ =>
      let (e, rest) ← exponent? rest
      let v ← real? negative (Text.valueOf 10 whole) e
      return (v, rest)
    | _ =>
      let v ← word? negative (Text.valueOf 10 whole)
      return (v, rest)

/-- An integer in another base. -/
def based? (base : Nat) (cs : List Char) : Option (Toml × List Char) := do
  let (ds, rest) ← digits? base cs
  let v ← word? false (Text.valueOf base ds)
  return (v, rest)

def number? : List Char → Option (Toml × List Char)
  | '0' :: 'x' :: rest => based? 16 rest
  | '0' :: 'o' :: rest => based? 8 rest
  | '0' :: 'b' :: rest => based? 2 rest
  | cs =>
    let (negative, rest) := sign cs
    decimal? negative rest

/-- A number of exactly so many digits. -/
def fixed? (width : Nat) (cs : List Char) : Option (Nat × List Char) :=
  let ds := (cs.take width).filterMap (Text.digit? 10)
  if ds.length = width then some (ds.foldl (fun n d => n * 10 + d) 0, cs.drop width) else none

def expect? (c : Char) : List Char → Option (List Char)
  | d :: rest => if d = c then some rest else none
  | [] => none

def date? (cs : List Char) : Option (Date × List Char) := do
  let (year, cs) ← fixed? 4 cs
  let cs ← expect? '-' cs
  let (month, cs) ← fixed? 2 cs
  let cs ← expect? '-' cs
  let (day, cs) ← fixed? 2 cs
  let date : Date := ⟨year, month, day⟩
  if date.isValid then return (date, cs) else none

/-- Nanoseconds after a point; further digits are dropped. -/
def fraction : List Char → Nat × List Char
  | '.' :: c :: rest =>
    if c.isDigit then
      let ds := (c :: rest).takeWhile Char.isDigit
      (Text.valueOf 10 ((ds ++ List.replicate 9 '0').take 9), (c :: rest).drop ds.length)
    else (0, '.' :: c :: rest)
  | cs => (0, cs)

def time? (cs : List Char) : Option (Time × List Char) := do
  let (hour, cs) ← fixed? 2 cs
  let cs ← expect? ':' cs
  let (minute, cs) ← fixed? 2 cs
  let cs ← expect? ':' cs
  let (second, cs) ← fixed? 2 cs
  let (nanosecond, cs) := fraction cs
  let time : Time := ⟨hour, minute, second, nanosecond⟩
  if time.isValid then return (time, cs) else none

/-- The offset from universal time, if one follows. -/
def offset? : List Char → Option Offset × List Char
  | 'Z' :: rest | 'z' :: rest => (some .zulu, rest)
  | c :: rest =>
    let read : Option (Offset × List Char) := do
      let (hour, rest) ← fixed? 2 rest
      let rest ← expect? ':' rest
      let (minute, rest) ← fixed? 2 rest
      let n : Int := hour * 60 + minute
      if hour ≤ 23 ∧ minute ≤ 59 then return (.minutes (if c = '-' then -n else n), rest) else none
    match read with
    | some (offset, more) => if c = '+' ∨ c = '-' then (some offset, more) else (none, c :: rest)
    | none => (none, c :: rest)
  | [] => (none, [])

def moment? (cs : List Char) : Option (Moment × List Char) :=
  match date? cs with
  | none => (time? cs).map fun (t, rest) => (.time t, rest)
  | some (d, rest) =>
    match rest with
    | [] => some (.date d, [])
    | c :: more =>
      match if c = 'T' ∨ c = 't' ∨ c = ' ' then time? more else none with
      | none => some (.date d, rest)
      | some (t, more) =>
        let (offset, more) := offset? more
        some (.dateTime d t offset, more)

/-- A value that holds no other. -/
def scalar? : List Char → Option (Toml × List Char)
  | 't' :: 'r' :: 'u' :: 'e' :: rest => some (.bool true, rest)
  | 'f' :: 'a' :: 'l' :: 's' :: 'e' :: rest => some (.bool false, rest)
  | '"' :: rest => (text? ('"' :: rest)).map fun (s, rest) => (.text s, rest)
  | '\'' :: rest => (text? ('\'' :: rest)).map fun (s, rest) => (.text s, rest)
  | cs =>
    match moment? cs with
    | some (m, rest) => some (.moment m, rest)
    | none => number? cs

end EngineBridge.Toml.Reader
