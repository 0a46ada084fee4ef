import EngineBridge.Programs.Shell.Real

/-!
# Formatted output of shell commands
-/

namespace EngineBridge.Shell.Format

/-- The byte of at most `count` octal digits. -/
def octal (n : Nat) : Nat → List Char → Char × List Char
  | 0, cs => (Char.ofNat (n % 256), cs)
  | _ + 1, [] => (Char.ofNat (n % 256), [])
  | count + 1, c :: rest =>
    match Text.digit? 8 c with
    | some d => octal (n * 8 + d) count rest
    | none => (Char.ofNat (n % 256), c :: rest)

def letter? : Char → Option Char
  | 'a' => some '\x07'
  | 'b' => some '\x08'
  | 'e' => some '\x1b'
  | 'f' => some '\x0c'
  | 'n' => some '\n'
  | 'r' => some '\r'
  | 't' => some '\t'
  | 'v' => some '\x0b'
  | '\\' => some '\\'
  | _ => none

/-- What a backslash makes of the characters behind it, and the rest. -/
def escape (cs : List Char) : Char × List Char :=
  match cs with
  | [] => ('\\', [])
  | e :: rest =>
    if (Text.digit? 8 e).isSome then octal 0 3 cs
    else
      match letter? e with
      | some c => (c, rest)
      | none => ('\\', cs)

/-- Text with its escapes replaced, and whether `\c` ended it. A zero may stand in front of an octal
number. -/
def escapes : Nat → List Char → List Char → List Char × Bool
  | 0, done, _ => (done.reverse, false)
  | _, done, [] => (done.reverse, false)
  | fuel + 1, done, c :: rest =>
    if c ≠ '\\' then escapes fuel (c :: done) rest
    else
      match rest with
      | 'c' :: _ => (done.reverse, true)
      | '0' :: d :: more =>
        let (b, rest) := escape (if (Text.digit? 8 d).isSome then d :: more else rest)
        escapes fuel (b :: done) rest
      | _ =>
        let (b, rest) := escape rest
        escapes fuel (b :: done) rest

def unescaped (cs : List Char) : List Char × Bool := escapes (cs.length + 1) [] cs

def joined (args : List (List Char)) : List Char := [' '].intercalate args

/-- What `echo` writes. -/
def echo (args : List (List Char)) : List Char :=
  match args with
  | ['-', 'n'] :: rest => words [] rest
  | _ => words ['\n'] args
where
  words (ending : List Char) : List (List Char) → List Char
    | [] => ending
    | a :: rest =>
      let (text, stopped) := unescaped a
      if stopped then text
      else
        match rest with
        | [] => text ++ ending
        | _ => text ++ ' ' :: words ending rest

/-- How a directive writes its argument. -/
structure Layout where
  flags : List Char := []
  width : Nat := 0
  precision : Option Nat := none
  deriving DecidableEq, Repr

namespace Layout

def has (l : Layout) (c : Char) : Bool := l.flags.contains c

/-- Fill up to the width. Zeros go between `head` and the digits. -/
def fill (l : Layout) (zeros : Bool) (head cs : List Char) : List Char :=
  let missing := l.width - (head.length + cs.length)
  if l.has '-' then head ++ cs ++ List.replicate missing ' '
  else if zeros && l.has '0' then head ++ List.replicate missing '0' ++ cs
  else List.replicate missing ' ' ++ head ++ cs

def text (l : Layout) (cs : List Char) : List Char :=
  l.fill false [] (match l.precision with | some n => cs.take n | none => cs)

/-- The sign of a number. -/
def sign (l : Layout) (negative : Bool) : List Char :=
  if negative then ['-'] else if l.has '+' then ['+'] else if l.has ' ' then [' '] else []

/-- Digits of a number, of which there are at least as many as the precision says. -/
def digits (l : Layout) (n : Nat) (cs : List Char) : List Char :=
  if n = 0 && l.precision = some 0 then []
  else List.replicate (l.precision.getD 1 - cs.length) '0' ++ cs

def integer (l : Layout) (n : Int) : List Char :=
  l.fill l.precision.isNone (l.sign (n < 0)) (l.digits n.natAbs n.natAbs.repr.toList)

def natural (l : Layout) (kind : Char) (n : Nat) : List Char :=
  let upper (cs : List Char) := if kind = 'X' then cs.map Char.toUpper else cs
  let base := match kind with | 'o' => 8 | 'u' => 10 | _ => 16
  let ds := l.digits n (upper (Nat.toDigits base n))
  let ds := if kind = 'o' && l.has '#' && ds.head? ≠ some '0' then '0' :: ds else ds
  let head := if base = 16 && l.has '#' && n ≠ 0 then upper ['0', 'x'] else []
  l.fill l.precision.isNone head ds

def real (l : Layout) (kind : Char) (r : Real) : List Char :=
  let case (cs : List Char) := if kind.isUpper then cs.map Char.toUpper else cs
  let point := l.has '#'
  let places := l.precision.getD 6
  match r with
  | .infinite negative => l.fill false (l.sign negative) (case "inf".toList)
  | .nan negative => l.fill false (l.sign negative) (case "nan".toList)
  | .finite negative b =>
    match kind.toLower with
    | 'f' => l.fill true (l.sign negative) (Real.fixed point places b)
    | 'e' => l.fill true (l.sign negative) (case (Real.scientific 'e' point places b))
    | 'g' => l.fill true (l.sign negative) (case (Real.general 'e' point places b))
    | _ => l.fill true (l.sign negative ++ case ['0', 'x']) (case (Real.binary 'p' b))

end Layout

/-- What `printf` has come to. -/
structure Printer where
  args : List (List Char)
  /-- Latest first. -/
  text : List Char := []
  /-- Latest first. -/
  warnings : List (List Char) := []
  /-- Why it gives up. -/
  fatal : Option (List Char) := none
  /-- Nothing more is to be written. -/
  stopped : Bool := false

namespace Printer

def write (p : Printer) (cs : List Char) : Printer := { p with text := cs.reverse ++ p.text }

def argument (p : Printer) : Option (List Char) × Printer :=
  match p.args with
  | [] => (none, p)
  | a :: rest => (some a, { p with args := rest })

def warn (p : Printer) (arg : List Char) (message : String) : Printer :=
  { p with warnings := (arg ++ message.toList) :: p.warnings }

/-- Say what is wrong with an argument of which `rest` has not been read. -/
def check (p : Printer) (arg rest : List Char) (outside : Bool) : Printer :=
  if !rest.isEmpty then
    p.warn arg
      (if rest.length = arg.length then ": expected numeric value"
        else ": not completely converted")
  else if outside then p.warn arg ": Numerical result out of range"
  else p

/-- The character code that an argument in quotes stands for. -/
def code? (arg : List Char) : Option Nat :=
  match arg with
  | q :: rest =>
    if q = '\'' || q = '"' then some ((rest.head?.map Char.toNat).getD 0) else none
  | [] => none

/-- An integer argument; `signed` says which numbers there are. -/
def integer (p : Printer) (signed : Bool) : Int × Printer :=
  match p.argument with
  | (none, p) => (0, p)
  | (some arg, p) =>
    match code? arg with
    | some n => (n, p)
    | none =>
      let (n, rest) := Number.leading Number.natural arg
      let top : Int := 18446744073709551615
      let inside := if signed then Number.inRange n else n.natAbs ≤ top.natAbs
      let value :=
        if signed then Number.clamp n
        else if inside then n % (top + 1)
        else top
      (value, p.check arg rest (!inside))

def real (p : Printer) : Real × Printer :=
  match p.argument with
  | (none, p) => (.finite false .zero, p)
  | (some arg, p) =>
    match code? arg with
    | some n => (Real.ofBinary? false (Decimal.Binary.ofNat n), p)
    | none =>
      let (r, outside, rest) := Real.leading arg
      (r, p.check arg rest outside)

/-- A number in a directive: digits, or a star for an argument. -/
def count (p : Printer) (cs : List Char) : Option Int × Printer × List Char :=
  match cs with
  | '*' :: rest =>
    let (n, p) := p.integer true
    (some n, p, rest)
  | _ =>
    match Number.decimal cs with
    | some (n, rest) => (some n, p, rest)
    | none => (none, p, cs)

/-- Write one argument as a directive of this kind says. -/
def convert (p : Printer) (l : Layout) (kind : Char) (directive : List Char) : Printer :=
  match kind with
  | 's' =>
    let (a, p) := p.argument
    p.write (l.text (a.getD []))
  | 'b' =>
    let (a, p) := p.argument
    let (text, stopped) := unescaped (a.getD [])
    { p.write (l.text text) with stopped }
  | 'c' =>
    let (a, p) := p.argument
    p.write (l.fill false [] [((a.getD []).head?).getD '\x00'])
  | 'd' | 'i' =>
    let (n, p) := p.integer true
    p.write (l.integer n)
  | 'o' | 'u' | 'x' | 'X' =>
    let (n, p) := p.integer false
    p.write (l.natural kind n.toNat)
  | 'e' | 'E' | 'f' | 'F' | 'g' | 'G' | 'a' | 'A' =>
    let (r, p) := p.real
    p.write (l.real kind r)
  | _ => { p with fatal := some (directive ++ ": invalid directive".toList) }

/-- Carry out the directive behind a percent sign; gives the rest of the format. -/
def directive (p : Printer) (cs : List Char) : Printer × List Char :=
  let flags := cs.takeWhile fun c => ['#', '-', '+', ' ', '0'].contains c
  let (width, p, rest) := p.count (cs.drop flags.length)
  let flags := if width.any (· < 0) then '-' :: flags else flags
  let (precision, p, rest) : Option Nat × Printer × List Char :=
    match rest with
    | '.' :: more =>
      let (n, p, rest) := p.count more
      match n with
      | some (.ofNat n) => (some n, p, rest)
      | some (.negSucc _) => (none, p, rest)
      | none => (some 0, p, rest)
    | _ => (none, p, rest)
  match rest with
  | [] => ({ p with fatal := some "missing format character".toList }, [])
  | kind :: rest =>
    let l : Layout := { flags, width := ((width.map Int.natAbs)).getD 0, precision }
    (p.convert l kind ('%' :: cs.take (cs.length - rest.length)), rest)

/-- One pass over a format. -/
def pass : Nat → Printer → List Char → Printer
  | 0, p, _ => p
  | _, p, [] => p
  | fuel + 1, p, c :: rest =>
    if p.stopped || p.fatal.isSome then p
    else if c = '\\' then
      let (b, rest) := escape rest
      pass fuel (p.write [b]) rest
    else if c = '%' then
      match rest with
      | '%' :: rest => pass fuel (p.write ['%']) rest
      | _ =>
        let (p, rest) := p.directive rest
        pass fuel p rest
    else pass fuel (p.write [c]) rest

/-- Use the format again while it uses up arguments. -/
def passes (format : List Char) : Nat → Printer → Printer
  | 0, p => p
  | fuel + 1, p =>
    let q := pass (format.length + 1) p format
    if q.stopped || q.fatal.isSome || q.args.isEmpty || q.args.length = p.args.length then q
    else passes format fuel q

end Printer

/-- What `printf` writes and what it complains of. -/
def printf (format : List Char) (args : List (List Char)) : Printer :=
  Printer.passes format (args.length + 1) { args }

end EngineBridge.Shell.Format
