import EngineBridge.Programs.Shell.Format
import EngineBridge.Programs.Shell.Tool.Basic

/-!
# Programs that pass their input on
-/

namespace EngineBridge.Shell.Tool

/-- A byte that can be seen. -/
def visible (tabs : Bool) (c : Char) : List Char :=
  let n := c.toNat
  let low (n : Nat) : List Char :=
    if n < 32 then ['^', Char.ofNat (n + 64)]
    else if n = 127 then ['^', '?']
    else [Char.ofNat n]
  if c = '\n' then [c]
  else if c = '\t' then if tabs then ['^', 'I'] else [c]
  else if n < 128 then low n
  else ['M', '-'] ++ low (n - 128)

def catGrammar : Grammar where
  letters := "AbeEnstTuv"
  long := [("show-all", 'A'), ("number-nonblank", 'b'), ("show-ends", 'E'), ("number", 'n'),
    ("squeeze-blank", 's'), ("show-tabs", 'T'), ("show-nonprinting", 'v')]

/-- How lines are shown: which line comes next, and whether the one before was empty. -/
structure Numbering where
  next : Nat := 1
  empties : Nat := 0

def shownLines (i : Invocation) : Numbering → List (List Char × Bool) → List Char
  | _, [] => []
  | k, (line, ended) :: rest =>
    let empty := line.isEmpty && ended
    let empties := if empty then k.empties + 1 else 0
    if i.has 's' && 1 < empties then shownLines i { k with empties } rest
    else
      let numbered := if i.has 'b' then !empty else i.has 'n'
      let number :=
        if numbered then
          let ds := k.next.repr.toList
          List.replicate (6 - ds.length) ' ' ++ ds ++ ['\t']
        else []
      let tabs := i.has 'A' || i.has 't' || i.has 'T'
      let unseen := i.has 'A' || i.has 'e' || i.has 't' || i.has 'v'
      let text :=
        if unseen then line.flatMap (visible tabs)
        else if tabs then line.flatMap fun c => if c = '\t' then ['^', 'I'] else [c]
        else line
      let ends := i.has 'A' || i.has 'e' || i.has 'E'
      let tail := if ended then (if ends then ['$', '\n'] else ['\n']) else []
      number ++ text ++ tail ++
        shownLines i { next := if numbered then k.next + 1 else k.next, empties } rest

/-- Write all that can be read, as soon as it can be. -/
def cat : Tool := fun args => do
  let i ← catGrammar.read "cat" args
  let plain := i.options.all (·.1 = 'u')
  Run.setStatus 0
  let mut before := []
  for operand in (if i.operands.isEmpty then [['-']] else i.operands) do
    match ← sourceOf operand with
    | .error e => complain "cat" (operand ++ (": " ++ reason e).toList)
    | .ok source =>
      if plain then write source.text
      else before := before ++ source.text
      if source.more then
        if !plain then write (shownLines i {} (linesOf before))
        throw .waiting
  if !plain then write (shownLines i {} (linesOf before))

/-- Write all that can be read, and keep it in files. -/
def tee : Tool := fun args => do
  let i ← ({ letters := "aip", long := [("append", 'a')] } : Grammar).read "tee" args
  Run.setStatus 0
  match ← takeInput with
  | .error e => complain "tee" ("-: " ++ reason e).toList
  | .ok source =>
    write source.text
    for operand in i.operands do
      store "tee" (i.has 'a') operand source.text
    if source.more then throw .waiting

/-- The character of at most `count` digits, and the rest; none if there is no digit. -/
def digitsAt (base count : Nat) (cs : List Char) : Option (Char × List Char) :=
  let ds := (cs.take count).takeWhile fun c => (Text.digit? base c).isSome
  if ds.isEmpty then none
  else some (Char.ofNat (Text.valueOf base ds % 256), cs.drop ds.length)

/-- Text with its escapes replaced, and whether it ends all output. -/
def withEscapes : Nat → List Char → List Char × Bool
  | 0, cs => (cs, false)
  | _, [] => ([], false)
  | fuel + 1, '\\' :: c :: rest =>
    let put (c : Char) (rest : List Char) : List Char × Bool :=
      let (text, stopped) := withEscapes fuel rest
      (c :: text, stopped)
    let literal : List Char × Bool := put '\\' (c :: rest)
    match c with
    | 'c' => ([], true)
    | 'x' => (digitsAt 16 2 rest).elim literal fun (x, rest) => put x rest
    | '0' => (digitsAt 8 3 rest).elim (put '\x00' rest) fun (x, rest) => put x rest
    | c =>
      match digitsAt 8 3 (c :: rest), Format.letter? c with
      | some (x, rest), _ => put x rest
      | none, some x => put x rest
      | none, none => literal
  | fuel + 1, c :: rest =>
    let (text, stopped) := withEscapes fuel rest
    (c :: text, stopped)

/-- Write the arguments in a line. -/
def echo : Tool := fun args => do
  let options := args.takeWhile fun a =>
    a.head? = some '-' && 1 < a.length && (a.drop 1).all fun c => ['n', 'e', 'E'].contains c
  let letters := options.flatMap (·.drop 1)
  let text := Format.joined (args.drop options.length)
  let (text, stopped) :=
    if (letters.filter (· ≠ 'n')).getLast? = some 'e' then withEscapes (text.length + 1) text
    else (text, false)
  Run.setStatus 0
  write (text ++ if stopped || letters.contains 'n' then [] else ['\n'])

/-- Write a line again and again. -/
def yes : Tool := fun args => do
  let line := (if args.isEmpty then ['y'] else [' '].intercalate args) ++ ['\n']
  write (List.replicate 1024 line).flatten
  throw .busy

/-- The milliseconds of a number of seconds with its unit; none if it is no number. -/
def duration? (cs : List Char) : Option Nat :=
  let (number, factor) :=
    match cs.getLast? with
    | some 's' => (cs.dropLast, 1)
    | some 'm' => (cs.dropLast, 60)
    | some 'h' => (cs.dropLast, 3600)
    | some 'd' => (cs.dropLast, 86400)
    | _ => (cs, 1)
  let head := number.takeWhile (· ≠ '.')
  let tail := number.drop (head.length + 1)
  let digits := head ++ tail
  if digits.isEmpty || !digits.all Char.isDigit then none
  else
    let thousandths := Text.valueOf 10 ((tail ++ ['0', '0', '0']).take 3)
    some ((Text.valueOf 10 head * 1000 + thousandths) * factor)

def sleep : Tool := fun args => do
  let args := if args.head? = some ['-', '-'] then args.drop 1 else args
  if args.isEmpty then
    giveUp "sleep" "missing operand\nTry 'sleep --help' for more information.".toList
  match args.mapM duration? with
  | some ms =>
    Run.pause (ms.foldl (· + ·) 0)
    Run.setStatus 0
  | none =>
    for a in args do
      if (duration? a).isNone then
        complain "sleep" ("invalid time interval '".toList ++ a ++ ['\''])
    let _ ← Run.writeTo 2 "Try 'sleep --help' for more information.\n".toList

end EngineBridge.Shell.Tool
