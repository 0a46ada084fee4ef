import EngineBridge.Programs.Shell.Tool.Basic

/-!
# Programs that take parts of their input
-/

namespace EngineBridge.Shell.Tool

/-- Whole lines, each with the line feed that ends it. -/
def wholeLines (cs : List Char) : List (List Char) :=
  (linesOf cs).map fun (line, ended) => line ++ if ended then ['\n'] else []

/-- An argument such as `-5` as the count that it means. -/
def withOldCount (letters : List Char) (args : Args) : Args :=
  match args with
  | (s :: d :: ds) :: rest =>
    if (s = '-' || letters.contains s) && d.isDigit && ds.all Char.isDigit then
      ['-', 'n'] :: (if s = '-' then d :: ds else s :: d :: ds) :: rest
    else args
  | _ => args

/-- Write headings before the parts of several sources. -/
def withHeadings (i : Invocation) (parts : List (List Char × List Char)) : List Char :=
  let several := (1 < i.operands.length && !i.has 'q') || i.has 'v'
  (parts.zipIdx.map fun ((name, text), n) =>
    if several then
      let shown := if name = ['-'] then "standard input".toList else name
      (if n = 0 then [] else ['\n']) ++ "==> ".toList ++ shown ++ " <==\n".toList ++ text
    else text).flatten

def badCount {α : Type} (name what : String) (cs : List Char) : Run α :=
  giveUp name (("invalid number of " ++ what ++ ": '").toList ++ cs ++ ['\''])

def head : Tool := fun args => do
  let grammar : Grammar :=
    { letters := "n:c:qvz", long := [("lines", 'n'), ("bytes", 'c'), ("quiet", 'q'),
        ("silent", 'q'), ("verbose", 'v')] }
  let i ← grammar.read "head" (withOldCount [] args)
  Run.setStatus 0
  let (unit, given) := (i.options.filter fun o => o.1 = 'n' || o.1 = 'c').getLast?.getD
    ('n', ['1', '0'])
  let fromEnd := given.head? = some '-'
  let digits := if fromEnd then given.drop 1 else given
  match natural? digits with
  | none => badCount "head" (if unit = 'n' then "lines" else "bytes") given
  | some n =>
    let part {α : Type} (xs : List α) : List α :=
      if fromEnd then xs.take (xs.length - n) else xs.take n
    let found ← sources "head" i.operands 1 "cannot open '" "' for reading"
    let parts := found.map fun (name, source) =>
      if unit = 'c' then (name, part source.text, source.text.length)
      else
        let lines := linesOf source.text
        (name, (part (wholeLines source.text)).flatten, (lines.filter (·.2)).length)
    let starved := (found.zip parts).any fun ((_, source), (_, _, size)) =>
      source.more && (fromEnd || size < n)
    if starved then throw .waiting
    write (withHeadings i (parts.map fun (name, text, _) => (name, text)))

def tail : Tool := fun args => do
  let grammar : Grammar :=
    { letters := "n:c:qvfz", long := [("lines", 'n'), ("bytes", 'c'), ("quiet", 'q'),
        ("silent", 'q'), ("verbose", 'v'), ("follow", 'f')] }
  let i ← grammar.read "tail" (withOldCount ['+'] args)
  Run.setStatus 0
  let (unit, given) := (i.options.filter fun o => o.1 = 'n' || o.1 = 'c').getLast?.getD
    ('n', ['1', '0'])
  let fromStart := given.head? = some '+'
  let digits := if fromStart || given.head? = some '-' then given.drop 1 else given
  match natural? digits with
  | none => badCount "tail" (if unit = 'n' then "lines" else "bytes") given
  | some n =>
    let part {α : Type} (xs : List α) : List α :=
      if fromStart then xs.drop (n - 1) else xs.drop (xs.length - n)
    let found ← sources "tail" i.operands 1 "cannot open '" "' for reading"
    untilEnd found
    write (withHeadings i (found.map fun (name, source) =>
      (name, if unit = 'c' then part source.text else (part (wholeLines source.text)).flatten)))
    if i.has 'f' then throw .busy

/-- Places that a list of ranges names. -/
def ranges? (cs : List Char) : Option (List (Nat × Option Nat)) :=
  (split [] cs).mapM fun part =>
    let low := part.takeWhile Char.isDigit
    match part.drop low.length with
    | [] => (natural? low).bind fun n => if n = 0 then none else some (n, some n)
    | '-' :: high =>
      let least := if low.isEmpty then some 1 else natural? low
      let most := if high.isEmpty then some none else (natural? high).map some
      if low.isEmpty && high.isEmpty then none
      else
        match least, most with
        | some a, some b => if a = 0 || b.any (· < a) then none else some (a, b)
        | _, _ => none
    | _ => none
where
  split (done : List Char) : List Char → List (List Char)
    | [] => [done.reverse]
    | c :: rest =>
      if c = ',' || c = ' ' then done.reverse :: split [] rest else split (c :: done) rest

/-- The numbers with which the ranges of a list begin. -/
def rangeStarts (cs : List Char) : List Nat :=
  (ranges?.split [] cs).map fun part =>
    let low := part.takeWhile Char.isDigit
    if low.isEmpty && part.head? = some '-' then 1 else Text.valueOf 10 low

def isChosen (rs : List (Nat × Option Nat)) (n : Nat) : Bool :=
  rs.any fun (a, b) => a ≤ n && b.all (n ≤ ·)

/-- The pieces between a delimiter. -/
def fieldsOf (d : Char) : List Char → List (List Char)
  | [] => [[]]
  | c :: rest =>
    if c = d then [] :: fieldsOf d rest
    else
      match fieldsOf d rest with
      | [] => [[c]]
      | f :: fs => (c :: f) :: fs

def cutGrammar : Grammar where
  letters := "b:c:f:d:nsz"
  long := [("bytes", 'b'), ("characters", 'c'), ("fields", 'f'), ("delimiter", 'd'),
    ("only-delimited", 's'), ("complement", 'n')]

def cut : Tool := fun args => do
  let marked := args.map fun a => if a = "--complement".toList then ['-', 'n'] else a
  let glue := (marked.find? fun a => "--output-delimiter=".toList.isPrefixOf a).map (·.drop 19)
  let rest := marked.filter fun a => !"--output-delimiter=".toList.isPrefixOf a
  let i ← cutGrammar.read "cut" rest
  Run.setStatus 0
  let hint := "\nTry 'cut --help' for more information.".toList
  match i.options.filter fun o => ['b', 'c', 'f'].contains o.1 with
  | [] => giveUp "cut" ("you must specify a list of bytes, characters, or fields".toList ++ hint)
  | [(unit, list)] =>
    match ranges? list with
    | none =>
      let what := if unit = 'f' then "field" else "byte/character"
      let text :=
        if list.any fun c => !(c.isDigit || c = ',' || c = '-' || c = ' ') then
          "invalid " ++ what ++ " value '" ++ String.ofList list ++ "'"
        else if !(rangeStarts list).contains 0 then "invalid decreasing range"
        else if unit = 'f' then "fields are numbered from 1"
        else "byte/character positions are numbered from 1"
      giveUp "cut" (text.toList ++ hint)
    | some rs =>
      let delimiter := (i.value? 'd').getD ['\t']
      if delimiter.length > 1 then
        giveUp "cut" ("the delimiter must be a single character".toList ++ hint)
      let d := delimiter.head?.getD '\x00'
      let glue := glue.getD (if unit = 'f' then [d] else [])
      let chosen {α : Type} (xs : List α) : List α :=
        (xs.zipIdx.filter fun (_, n) => isChosen rs (n + 1) != i.has 'n').map (·.1)
      let part (line : List Char) : Option (List Char) :=
        if unit ≠ 'f' then some (chosen line)
        else if line.contains d then some (glue.intercalate (chosen (fieldsOf d line)))
        else if i.has 's' then none
        else some line
      let found ← sources "cut" i.operands
      untilEnd found
      write (found.flatMap fun (_, source) =>
        (linesOf source.text).flatMap fun (line, _) =>
          match part line with
          | some cs => cs ++ ['\n']
          | none => [])
  | _ => giveUp "cut" ("only one list may be specified".toList ++ hint)

def rev : Tool := fun args => do
  Run.setStatus 0
  let found ← sources "rev" args
  write (found.flatMap fun (_, source) =>
    (linesOf source.text).flatMap fun (line, ended) =>
      if source.more && !ended then [] else line.reverse ++ if ended then ['\n'] else [])
  untilEnd found

def tac : Tool := fun args => do
  Run.setStatus 0
  let found ← sources "tac" args
  untilEnd found
  write (found.flatMap fun (_, source) => (wholeLines source.text).reverse.flatten)

/-- Pieces of a line, none of them longer than `width`. They end behind a blank if `atBlanks` says
so and there is one. -/
def folded (width : Nat) (atBlanks : Bool) : Nat → List Char → List (List Char)
  | 0, cs => [cs]
  | fuel + 1, cs =>
    if cs.length ≤ width then [cs]
    else
      let head := cs.take width
      let short := (head.reverse.dropWhile fun c => c ≠ ' ' && c ≠ '\t').reverse
      let piece := if atBlanks && !short.isEmpty then short else head
      piece :: folded width atBlanks fuel (cs.drop piece.length)

def fold : Tool := fun args => do
  let i ← ({ letters := "w:bs", long := [("width", 'w')] } : Grammar).read "fold" args
  Run.setStatus 0
  let found ← sources "fold" i.operands
  untilEnd found
  let width := max 1 (((i.value? 'w').bind natural?).getD 80)
  write ((linesOf (wholeText found)).flatMap fun (line, ended) =>
    ['\n'].intercalate (folded width (i.has 's') line.length line) ++ if ended then ['\n'] else [])

/-- Join lines that stand at the same place. -/
def pasted (delimiters : List Char) : Nat → List (List (List Char)) → List Char
  | 0, _ => []
  | fuel + 1, columns =>
    if columns.all (·.isEmpty) then []
    else
      let row := columns.map fun c => c.head?.getD []
      joinedBy delimiters 0 row ++ '\n' :: pasted delimiters fuel (columns.map (·.drop 1))
where
  joinedBy (ds : List Char) (n : Nat) : List (List Char) → List Char
    | [] => []
    | [x] => x
    | x :: rest =>
      x ++ (if ds.isEmpty then [] else (ds[n % ds.length]?).toList) ++ joinedBy ds (n + 1) rest

def paste : Tool := fun args => do
  let i ← ({ letters := "d:sz", long := [("delimiters", 'd'), ("serial", 's')] } : Grammar).read
    "paste" args
  Run.setStatus 0
  let found ← sources "paste" i.operands
  untilEnd found
  let ds := (i.value? 'd').getD ['\t']
  let ds := if ds = ['\\', 'n'] then ['\n'] else if ds = ['\\', 't'] then ['\t'] else ds
  let columns := found.map fun (_, source) => (linesOf source.text).map (·.1)
  if i.has 's' then
    write (columns.flatMap fun lines => pasted.joinedBy ds 0 lines ++ ['\n'])
  else
    let inputs := (found.filter (·.1 = ['-'])).length
    let shared := (found.find? (·.1 = ['-'])).elim [] fun f => (linesOf f.2.text).map (·.1)
    let columns := (found.zip columns).foldl
      (fun (done : List (List (List Char)) × Nat) ((name, _), lines) =>
        if name = ['-'] then
          let own := shared.zipIdx.filter fun (_, n) => n % inputs = done.2
          (done.1 ++ [own.map (·.1)], done.2 + 1)
        else (done.1 ++ [lines], done.2))
      ([], 0)
    let longest := columns.1.foldl (fun n c => max n c.length) 0
    write (pasted ds (longest + 1) columns.1)

/-- How lines are numbered. -/
structure LineNumbers where
  /-- All lines have numbers, or those with text, or none. -/
  kind : Char := 't'
  width : Nat := 6
  separator : List Char := ['\t']
  step : Nat := 1
  /-- Numbers stand at the left, or at the right, or have zeros before them. -/
  place : List Char := ['r', 'n']

/-- Lines with their numbers. -/
def numbered (k : LineNumbers) : Nat → List (List Char × Bool) → List Char
  | _, [] => []
  | n, (line, _) :: rest =>
    if k.kind = 'a' || (k.kind = 't' && !line.isEmpty) then
      let ds := n.repr.toList
      let fill := List.replicate (k.width - ds.length) (if k.place = ['r', 'z'] then '0' else ' ')
      let shown := if k.place = ['l', 'n'] then ds ++ fill else fill ++ ds
      shown ++ k.separator ++ line ++ '\n' :: numbered k (n + k.step) rest
    else
      List.replicate (k.width + k.separator.length) ' ' ++ line ++ '\n' :: numbered k n rest

def nl : Tool := fun args => do
  let grammar : Grammar :=
    { letters := "b:w:s:v:i:n:", long := [("body-numbering", 'b'), ("number-width", 'w'),
        ("number-separator", 's'), ("starting-line-number", 'v'), ("line-increment", 'i'),
        ("number-format", 'n')] }
  let i ← grammar.read "nl" args
  Run.setStatus 0
  let found ← sources "nl" i.operands
  untilEnd found
  let number (c : Char) (otherwise : Nat) : Nat := ((i.value? c).bind natural?).getD otherwise
  let k : LineNumbers :=
    { kind := ((i.value? 'b').bind List.head?).getD 't', width := number 'w' 6
      separator := (i.value? 's').getD ['\t'], step := number 'i' 1
      place := (i.value? 'n').getD ['r', 'n'] }
  write (numbered k (number 'v' 1) (linesOf (wholeText found)))

end EngineBridge.Shell.Tool
