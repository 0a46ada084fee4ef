import EngineBridge.Json.Value
import EngineBridge.Json.Failure
import EngineBridge.Text.Digit

/-!
# Reading JSON text

A recursive-descent reader that stops at the first failure and says where it is. Arrays and
objects nest to a depth of 127.
-/

namespace EngineBridge.Json.Reader

/-- What a reader gives: a value and the unread rest, or the failure. -/
abbrev Reading (α : Type) := Except Failure (α × List Char)

def isSpace (c : Char) : Bool := c == ' ' || c == '\n' || c == '\t' || c == '\r'

def skipSpace (cs : List Char) : List Char := cs.dropWhile isSpace

def digit? (c : Char) : Option Nat := Text.digit? 10 c

/-- Four hexadecimal digits. A failure counts the four bytes as read. -/
def hexUnit (cs : List Char) : Reading Nat :=
  if byteLength cs < 4 then .error ⟨.endInText, 0⟩
  else
    match cs with
    | a :: b :: c :: d :: rest =>
      match Text.hexDigit? a, Text.hexDigit? b, Text.hexDigit? c, Text.hexDigit? d with
      | some a, some b, some c, some d => .ok (((a * 16 + b) * 16 + c) * 16 + d, rest)
      | _, _, _, _ => .error ⟨.invalidEscape, byteLength cs - 4⟩
    | _ => .error ⟨.invalidEscape, byteLength cs - 4⟩

def isHighSurrogate (n : Nat) : Bool := 0xd800 ≤ n && n ≤ 0xdbff

def isLowSurrogate (n : Nat) : Bool := 0xdc00 ≤ n && n ≤ 0xdfff

/-- The character after `\u`: one unit, or a high and a low surrogate. -/
def unicodeEscape (cs : List Char) : Reading Char :=
  match hexUnit cs with
  | .error f => .error f
  | .ok (n, rest) =>
    if isLowSurrogate n then .error (.before .loneSurrogate rest)
    else if isHighSurrogate n then lowHalf n rest
    else .ok (Char.ofNat n, rest)
where
  /-- The second escape of a pair whose first unit is `n`. -/
  lowHalf (n : Nat) : List Char → Reading Char
    | [] => .error (.before .endInText [])
    | '\\' :: [] => .error (.before .endInText [])
    | '\\' :: 'u' :: rest =>
      match hexUnit rest with
      | .error f => .error f
      | .ok (m, rest) =>
        if isLowSurrogate m then
          .ok (Char.ofNat ((n - 0xd800) * 0x400 + (m - 0xdc00) + 0x10000), rest)
        else .error (.before .loneSurrogate rest)
    | '\\' :: rest => .error (.at .endOfEscape rest)
    | rest => .error (.at .endOfEscape rest)

/-- The character that an escape stands for, after its backslash. -/
def escaped : List Char → Reading Char
  | [] => .error (.before .endInText [])
  | '"' :: rest => .ok ('"', rest)
  | '\\' :: rest => .ok ('\\', rest)
  | '/' :: rest => .ok ('/', rest)
  | 'b' :: rest => .ok ('\x08', rest)
  | 'f' :: rest => .ok ('\x0c', rest)
  | 'n' :: rest => .ok ('\n', rest)
  | 'r' :: rest => .ok ('\r', rest)
  | 't' :: rest => .ok ('\t', rest)
  | 'u' :: rest => unicodeEscape rest
  | cs => .error (.at .invalidEscape cs)

/-- The characters up to the closing quote, in front of those in `done`, which is reversed. -/
def textBody : Nat → List Char → List Char → Reading String
  | 0, _, rest => .error (.before .endInText rest)
  | _, _, [] => .error (.before .endInText [])
  | fuel + 1, done, c :: rest =>
    if c = '"' then .ok (String.ofList done.reverse, rest)
    else if c = '\\' then
      match escaped rest with
      | .error f => .error f
      | .ok (e, rest) => textBody fuel (e :: done) rest
    else if c.toNat < 0x20 then .error (.before .controlInText rest)
    else textBody fuel (c :: done) rest

/-- A text after its opening quote. -/
def text (cs : List Char) : Reading String := textBody (cs.length + 1) [] cs

def wordLimit : Nat := Nat.pow 2 64

def exponentLimit : Nat := Nat.pow 2 31

/-- Append digits to a significand while it fits 64 bits; count the digits appended. -/
def significand (n count : Nat) : List Char → Nat × Nat × List Char
  | [] => (n, count, [])
  | c :: rest =>
    match digit? c with
    | none => (n, count, c :: rest)
    | some d =>
      if n * 10 + d < wordLimit then significand (n * 10 + d) (count + 1) rest
      else (n, count, c :: rest)

def startsWithDigit : List Char → Bool
  | c :: _ => c.isDigit
  | [] => false

def startsExponent : List Char → Bool
  | c :: _ => c == 'e' || c == 'E'
  | [] => false

/-- The value `n * 10 ^ e`; one beyond the finite values fails where its text ends. -/
def real (negative : Bool) (n : Nat) (e : Int) (rest : List Char) : Reading Number :=
  match Decimal.scaled n e with
  | some b => .ok (.real negative b, rest)
  | none => .error (.before .numberTooLarge rest)

/-- Digits of an exponent while it fits 31 bits; none when it does not, with the rest after the
digit that made it too large. -/
def exponentDigits (n : Nat) : List Char → Option Nat × List Char
  | [] => (some n, [])
  | c :: rest =>
    match digit? c with
    | none => (some n, c :: rest)
    | some d =>
      if n * 10 + d < exponentLimit then exponentDigits (n * 10 + d) rest else (none, rest)

/-- The exponent after its letter, applied to `n * 10 ^ e`. -/
def exponent (negative : Bool) (n : Nat) (e : Int) (cs : List Char) : Reading Number :=
  let (down, cs) :=
    match cs with
    | '+' :: rest => (false, rest)
    | '-' :: rest => (true, rest)
    | _ => (false, cs)
  match cs with
  | [] => .error (.before .endInValue [])
  | c :: rest =>
    match digit? c with
    | none => .error (.at .invalidNumber (c :: rest))
    | some d =>
      match exponentDigits d rest with
      | (some x, rest) => real negative n (if down then e - x else e + x) rest
      | (none, rest) =>
        if n ≠ 0 ∧ ¬down then .error (.before .numberTooLarge rest)
        else .ok (.real negative .zero, rest.dropWhile Char.isDigit)

/-- The digits after a decimal point, applied to `n * 10 ^ e`. Those that do not fit are dropped. -/
def fraction (negative : Bool) (n : Nat) (e : Int) (cs : List Char) : Reading Number :=
  let (m, count, rest) := significand n 0 cs
  let more := startsWithDigit rest
  if count = 0 ∧ ¬more then
    .error (.at (if rest.isEmpty then .endInValue else .invalidNumber) rest)
  else
    let rest := rest.dropWhile Char.isDigit
    if startsExponent rest then exponent negative m (e - count) (rest.drop 1)
    else real negative m (e - count) rest

/-- What follows the integer digits of `n * 10 ^ e`. -/
def afterInteger (negative : Bool) (n : Nat) (e : Int) (exact : Bool) (cs : List Char) :
    Reading Number :=
  match cs with
  | '.' :: rest => fraction negative n e rest
  | _ =>
    if startsExponent cs then exponent negative n e (cs.drop 1)
    else if ¬exact then real negative n e cs
    else if ¬negative then .ok (.integer n, cs)
    else if 0 < n ∧ n ≤ Nat.pow 2 63 then .ok (.integer (-n), cs)
    else real true n 0 cs

/-- A number after its sign. A leading zero stands alone. -/
def number (negative : Bool) (cs : List Char) : Reading Number :=
  match cs with
  | [] => .error (.before .endInValue [])
  | '0' :: rest =>
    if startsWithDigit rest then .error (.at .invalidNumber rest)
    else afterInteger negative 0 0 true rest
  | c :: rest =>
    match digit? c with
    | none => .error (.at .invalidNumber (c :: rest))
    | some _ =>
      let (n, _, rest) := significand 0 0 cs
      let excess := rest.takeWhile Char.isDigit
      afterInteger negative n excess.length excess.isEmpty (rest.dropWhile Char.isDigit)

/-- The remaining letters of a literal. -/
def literal (value : Json) : List Char → List Char → Reading Json
  | [], rest => .ok (value, rest)
  | _ :: _, [] => .error (.before .endInValue [])
  | e :: es, c :: rest =>
    if c = e then literal value es rest else .error (.at .wrongLetter (c :: rest))

/-- The depth at which a bracket is refused. -/
def depthLimit : Nat := 128

/-- The rest after the colon that follows a key. -/
def colon (cs : List Char) : Except Failure (List Char) :=
  match skipSpace cs with
  | ':' :: rest => .ok rest
  | [] => .error (.at .endInObject [])
  | cs => .error (.at .noColon cs)

mutual

/-- A value, after any space. `depth` is how deep brackets may still nest. -/
def value (fuel depth : Nat) (cs : List Char) : Reading Json :=
  match fuel with
  | 0 => .error (.before .endInValue cs)
  | fuel + 1 =>
    match skipSpace cs with
    | [] => .error (.at .endInValue [])
    | 'n' :: rest => literal .null ['u', 'l', 'l'] rest
    | 't' :: rest => literal (.bool true) ['r', 'u', 'e'] rest
    | 'f' :: rest => literal (.bool false) ['a', 'l', 's', 'e'] rest
    | '-' :: rest => (number true rest).map fun (n, rest) => (.number n, rest)
    | '"' :: rest => (text rest).map fun (s, rest) => (.text s, rest)
    | '[' :: rest =>
      if depth ≤ 1 then .error (.at .tooDeep ('[' :: rest))
      else
        match skipSpace rest with
        | [] => .error (.at .endInArray [])
        | ']' :: rest => .ok (.array [], rest)
        | rest => items fuel (depth - 1) [] rest
    | '\x7b' :: rest =>
      if depth ≤ 1 then .error (.at .tooDeep ('\x7b' :: rest))
      else
        match skipSpace rest with
        | [] => .error (.at .endInObject [])
        | '\x7d' :: rest => .ok (.object [], rest)
        | '"' :: rest => members fuel (depth - 1) [] rest
        | rest => .error (.at .keyNotText rest)
    | c :: rest =>
      if c.isDigit then (number false (c :: rest)).map fun (n, rest) => (.number n, rest)
      else .error (.at .noValue (c :: rest))

/-- The items of an array from the next one on; those before it, reversed, are in `done`. -/
def items (fuel depth : Nat) (done : List Json) (cs : List Char) : Reading Json :=
  match fuel with
  | 0 => .error (.before .endInArray cs)
  | fuel + 1 =>
    match value fuel depth cs with
    | .error f => .error f
    | .ok (v, rest) =>
      match skipSpace rest with
      | [] => .error (.at .endInArray [])
      | ']' :: rest => .ok (.array (v :: done).reverse, rest)
      | ',' :: rest =>
        match skipSpace rest with
        | [] => .error (.at .endInValue [])
        | ']' :: rest => .error (.at .trailingComma (']' :: rest))
        | rest => items fuel depth (v :: done) rest
      | rest => .error (.at .noCommaOrBracket rest)

/-- The members of an object from the next key on, after its quote. -/
def members (fuel depth : Nat) (done : List (String × Json)) (cs : List Char) : Reading Json :=
  match fuel with
  | 0 => .error (.before .endInObject cs)
  | fuel + 1 =>
    match text cs with
    | .error f => .error f
    | .ok (key, rest) =>
      match colon rest with
      | .error f => .error f
      | .ok rest =>
        match value fuel depth rest with
        | .error f => .error f
        | .ok (v, rest) =>
          match skipSpace rest with
          | [] => .error (.at .endInObject [])
          | '\x7d' :: rest => .ok (.object (ofMembers ((key, v) :: done).reverse), rest)
          | ',' :: rest =>
            match skipSpace rest with
            | [] => .error (.at .endInValue [])
            | '"' :: rest => members fuel depth ((key, v) :: done) rest
            | '\x7d' :: rest => .error (.at .trailingComma ('\x7d' :: rest))
            | rest => .error (.at .keyNotText rest)
          | rest => .error (.at .noCommaOrBrace rest)

end

end Reader

/-- Read a whole text as one value. -/
def read (s : String) : Except Failure Json :=
  let cs := s.toList
  match Reader.value (2 * cs.length + 2) Reader.depthLimit cs with
  | .error f => .error f
  | .ok (v, rest) =>
    match Reader.skipSpace rest with
    | [] => .ok v
    | rest => .error (.at .trailingCharacters rest)

end EngineBridge.Json
