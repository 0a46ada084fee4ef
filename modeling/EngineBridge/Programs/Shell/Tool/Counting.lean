import EngineBridge.Programs.Shell.Tool.Cutting

/-!
# Programs that count and sort
-/

namespace EngineBridge.Shell.Tool

structure Counts where
  lines : Nat := 0
  words : Nat := 0
  bytes : Nat := 0
  longest : Nat := 0
  deriving DecidableEq, Repr

def wordCount (inside : Bool) : List Char → Nat
  | [] => 0
  | c :: rest =>
    let blank := c = ' ' || (8 < c.toNat && c.toNat < 14)
    if blank then wordCount false rest
    else if 32 < c.toNat && c.toNat < 127 then
      (if inside then 0 else 1) + wordCount true rest
    else wordCount inside rest

def countsOf (cs : List Char) : Counts where
  lines := cs.countP (· = '\n')
  words := wordCount false cs
  bytes := cs.length
  longest := (linesOf cs).foldl (fun n l => max n l.1.length) 0

def Counts.add (a b : Counts) : Counts :=
  ⟨a.lines + b.lines, a.words + b.words, a.bytes + b.bytes, max a.longest b.longest⟩

def wc : Tool := fun args => do
  let grammar : Grammar :=
    { letters := "clmwL", long := [("bytes", 'c'), ("lines", 'l'), ("chars", 'm'), ("words", 'w'),
        ("max-line-length", 'L')] }
  let i ← grammar.read "wc" args
  Run.setStatus 0
  let found ← sources "wc" i.operands
  untilEnd found
  let all := ['c', 'l', 'm', 'w', 'L'].all (!i.has ·)
  let shownOf (k : Counts) : List Nat :=
    (if all || i.has 'l' then [k.lines] else []) ++ (if all || i.has 'w' then [k.words] else []) ++
      (if i.has 'm' then [k.bytes] else []) ++ (if all || i.has 'c' then [k.bytes] else []) ++
      if i.has 'L' then [k.longest] else []
  let rows := found.map fun (name, source) => (name, countsOf source.text)
  let total := rows.foldl (fun k r => k.add r.2) {}
  let fromInput := i.operands.isEmpty || i.operands.contains ['-']
  let width :=
    if (shownOf total).length = 1 && rows.length = 1 then 1
    else if fromInput then 7
    else total.bytes.repr.length
  let line (name : List Char) (k : Counts) : List Char :=
    let texts := (shownOf k).map fun n =>
      List.replicate (width - n.repr.length) ' ' ++ n.repr.toList
    [' '].intercalate texts ++ (if i.operands.isEmpty then [] else ' ' :: name) ++ ['\n']
  write (rows.flatMap fun (name, k) => line name k)
  if 1 < i.operands.length then write (line "total".toList total)

/-- Groups of neighbours that are the same. -/
def neighbours (same : List Char → List Char → Bool) : List (List Char) → List (List Char × Nat)
  | [] => []
  | x :: rest =>
    match neighbours same rest with
    | (y, n) :: more => if same x y then (x, n + 1) :: more else (x, 1) :: (y, n) :: more
    | [] => [(x, 1)]

/-- A line without fields and characters that are passed by. -/
def withoutHead (fields chars : Nat) (cs : List Char) : List Char :=
  match fields with
  | 0 => cs.drop chars
  | n + 1 =>
    let isBlank (c : Char) : Bool := c = ' ' || c = '\t'
    withoutHead n chars ((cs.dropWhile isBlank).dropWhile fun c => !isBlank c)

def uniq : Tool := fun args => do
  let grammar : Grammar :=
    { letters := "cdDuif:s:w:z", long := [("count", 'c'), ("repeated", 'd'), ("unique", 'u'),
        ("ignore-case", 'i'), ("skip-fields", 'f'), ("skip-chars", 's'), ("check-chars", 'w')] }
  let i ← grammar.read "uniq" args
  Run.setStatus 0
  let number (c : Char) : Option Nat := (i.value? c).bind natural?
  let key (cs : List Char) : List Char :=
    let cs := withoutHead ((number 'f').getD 0) ((number 's').getD 0) cs
    let cs := match number 'w' with | some n => cs.take n | none => cs
    if i.has 'i' then cs.map Char.toLower else cs
  let found ← sources "uniq" (i.operands.take 1)
  untilEnd found
  let lines := (linesOf (wholeText found)).map (·.1)
  let groups := neighbours (fun a b => key a = key b) lines
  let chosen := groups.filter fun (_, n) =>
    (!i.has 'd' || 1 < n) && (!i.has 'u' || n = 1)
  write (chosen.flatMap fun (line, n) =>
    let count := n.repr.toList
    (if i.has 'c' then List.replicate (7 - count.length) ' ' ++ count ++ [' '] else []) ++
      line ++ ['\n'])

/-- How keys are compared. -/
structure Comparison where
  numeric : Bool := false
  reverse : Bool := false
  ignoreCase : Bool := false
  skipBlanks : Bool := false
  dictionary : Bool := false
  deriving DecidableEq, Repr

/-- A key: the field and the character where it begins, and where it ends. -/
structure Key where
  field : Nat
  char : Nat
  last : Option (Nat × Nat)
  comparison : Option Comparison
  deriving DecidableEq, Repr

/-- The sign, the whole part and the fraction of a number at the head of a text. -/
def numberOf (cs : List Char) : Bool × Nat × List Char :=
  let cs := cs.dropWhile fun c => c = ' ' || c = '\t'
  let negative := cs.head? = some '-'
  let cs := if negative then cs.drop 1 else cs
  let whole := cs.takeWhile Char.isDigit
  let fraction :=
    match cs.drop whole.length with
    | '.' :: rest => rest.takeWhile Char.isDigit
    | _ => []
  let fraction := (fraction.reverse.dropWhile (· = '0')).reverse
  (negative, Text.valueOf 10 whole, fraction)

def compareNumbers (a b : List Char) : Ordering :=
  let (s, m, f) := numberOf a
  let (t, n, g) := numberOf b
  let size := (compare m n).then (compare (String.ofList f) (String.ofList g))
  let zero (m : Nat) (f : List Char) : Bool := m = 0 && f.isEmpty
  if zero m f && zero n g then .eq
  else
    match s && !zero m f, t && !zero n g with
    | false, false => size
    | true, true => size.swap
    | true, false => .lt
    | false, true => .gt

def compareBytes (a b : List Char) : Ordering := compare (String.ofList a) (String.ofList b)

def Comparison.apply (c : Comparison) (a b : List Char) : Ordering :=
  let prepared (cs : List Char) : List Char :=
    let cs := if c.skipBlanks then cs.dropWhile fun x => x = ' ' || x = '\t' else cs
    let cs := if c.dictionary then cs.filter fun x => x.isAlphanum || x = ' ' || x = '\t' else cs
    if c.ignoreCase then cs.map Char.toUpper else cs
  let o :=
    if c.numeric then compareNumbers a b else compareBytes (prepared a) (prepared b)
  if c.reverse then o.swap else o

/-- The fields of a line. Without a delimiter each begins with the blanks before it. -/
def sortFields (delimiter : Option Char) (cs : List Char) : List (List Char) :=
  match delimiter with
  | some d => fieldsOf d cs
  | none => blankFields (cs.length + 1) cs
where
  blankFields : Nat → List Char → List (List Char)
    | 0, _ => []
    | fuel + 1, cs =>
      let isBlank (c : Char) : Bool := c = ' ' || c = '\t'
      let blanks := cs.takeWhile isBlank
      let word := (cs.drop blanks.length).takeWhile fun c => !isBlank c
      let rest := cs.drop (blanks.length + word.length)
      if cs.isEmpty then [] else (blanks ++ word) :: blankFields fuel rest

def Key.text (k : Key) (delimiter : Option Char) (skipBlanks : Bool) (line : List Char) :
    List Char :=
  let fields := sortFields delimiter line
  let glue := match delimiter with | some d => [d] | none => []
  let inner (n : Nat) (fs : List (List Char)) : List Char :=
    match fs with
    | [] => []
    | f :: rest =>
      let f := if skipBlanks then f.dropWhile fun c => c = ' ' || c = '\t' else f
      glue.intercalate (f.drop n :: rest)
  match k.last with
  | none => inner (k.char - 1) (fields.drop (k.field - 1))
  | some (field, char) =>
    let fields :=
      if char = 0 then fields.take field
      else
        fields.zipIdx.filterMap fun (f, n) =>
          if n + 1 < field then some f else if n + 1 = field then some (f.take char) else none
    inner (k.char - 1) (fields.drop (k.field - 1))

/-- A place of a key with the letters behind it. -/
def keyPlace? (cs : List Char) : Option (Nat × Option Nat × List Char) :=
  let field := cs.takeWhile Char.isDigit
  match natural? field, cs.drop field.length with
  | some f, '.' :: rest =>
    let char := rest.takeWhile Char.isDigit
    (natural? char).map fun c => (f, some c, rest.drop char.length)
  | some f, rest => some (f, none, rest)
  | none, _ => none

def Comparison.ofLetters (letters : List Char) : Comparison where
  numeric := letters.contains 'n' || letters.contains 'g'
  reverse := letters.contains 'r'
  ignoreCase := letters.contains 'f'
  skipBlanks := letters.contains 'b'
  dictionary := letters.contains 'd'

def key? (cs : List Char) : Option Key :=
  match keyPlace? cs with
  | none | some (0, _, _) => none
  | some (field, char, rest) =>
    let first := rest.takeWhile (· ≠ ',')
    let make (last : Option (Nat × Nat)) (letters : List Char) : Option Key :=
      some ⟨field, char.getD 1, last, if letters.isEmpty then none else some (.ofLetters letters)⟩
    match rest.drop first.length with
    | [] => make none first
    | _ :: second =>
      match keyPlace? second with
      | some (f, c, letters) => make (some (f, c.getD 0)) (first ++ letters)
      | none => none

def sort : Tool := fun args => do
  let grammar : Grammar :=
    { letters := "bcdfgiMnrsuzk:o:t:mhV", long := [("numeric-sort", 'n'), ("reverse", 'r'),
        ("unique", 'u'), ("ignore-case", 'f'), ("key", 'k'), ("field-separator", 't'),
        ("stable", 's'), ("output", 'o'), ("ignore-leading-blanks", 'b')] }
  let i ← grammar.read "sort" args 2
  Run.setStatus 0
  let whole : Comparison := .ofLetters (i.options.map (·.1))
  let delimiter := (i.value? 't').bind List.head?
  let keys ← (i.options.filter (·.1 = 'k')).mapM fun (_, cs) => do
    match key? cs with
    | some k => return k
    | none => giveUp "sort" ("invalid number at field start: invalid count at start of '".toList ++
        cs ++ ['\'']) 2
  let byKeys (a b : List Char) : Ordering :=
    if keys.isEmpty then whole.apply a b
    else
      keys.foldl
        (fun o k =>
          let c := k.comparison.getD whole
          o.then (c.apply (k.text delimiter c.skipBlanks a) (k.text delimiter c.skipBlanks b)))
        .eq
  let lastResort (a b : List Char) : Ordering :=
    if i.has 's' || i.has 'u' then .eq
    else if whole.reverse then (compareBytes a b).swap
    else compareBytes a b
  let found ← sources "sort" i.operands 2
  untilEnd found
  let lines := found.flatMap fun (_, source) => (linesOf source.text).map (·.1)
  let sorted := lines.mergeSort fun a b => ((byKeys a b).then (lastResort a b)) ≠ .gt
  let kept :=
    if i.has 'u' then
      (neighbours (fun a b => byKeys a b = .eq) sorted.reverse).reverse.map (·.1)
    else sorted
  if i.has 'c' then
    let wrongs := (lines.zip (lines.drop 1)).zipIdx.filter fun ((a, b), _) =>
      let o := (byKeys a b).then (lastResort a b)
      o = .gt || (i.has 'u' && o = .eq)
    if let some ((_, b), n) := wrongs.head? then
      let name := i.operands.head?.getD ['-']
      complain "sort" (name ++ (":" ++ (n + 2).repr ++ ": disorder: ").toList ++ b)
  else if let some path := i.value? 'o' then store "sort" false path (kept.flatMap (· ++ ['\n']))
  else write (kept.flatMap (· ++ ['\n']))

/-- A decimal number: its digits without the point, and how many are behind the point. -/
def decimal? (cs : List Char) : Option (Int × Nat) :=
  let negative := cs.head? = some '-'
  let body := if negative || cs.head? = some '+' then cs.drop 1 else cs
  let whole := body.takeWhile Char.isDigit
  let fraction :=
    match body.drop whole.length with
    | [] => some []
    | '.' :: rest => if rest.all Char.isDigit then some rest else none
    | _ => none
  match fraction with
  | some f =>
    if whole.isEmpty && f.isEmpty then none
    else
      let n : Int := Text.valueOf 10 (whole ++ f)
      some (if negative then -n else n, f.length)
  | none => none

def scaled (n : Int) (places wanted : Nat) : Int := n * (10 : Int).pow (wanted - places)

/-- A number with so many digits behind its point. -/
def pointText (places : Nat) (n : Int) : List Char :=
  let ds := n.natAbs.repr.toList
  let ds := List.replicate (places + 1 - ds.length) '0' ++ ds
  let whole := ds.take (ds.length - places)
  let sign := if n < 0 then ['-'] else []
  sign ++ whole ++ if places = 0 then [] else '.' :: ds.drop whole.length

/-- Numbers from `first` by `step` up to `last`. -/
def progression (first step last : Int) : Nat → List Int
  | 0 => []
  | fuel + 1 =>
    if (0 ≤ step && last < first) || (step < 0 && first < last) then []
    else first :: progression (first + step) step last fuel

def seq : Tool := fun args => do
  let isNumber (a : List Char) : Bool := (decimal? a).isSome
  let head := args.takeWhile fun a => a.head? = some '-' && !isNumber a
  let withValue :=
    match head.getLast? with
    | some ['-', 's'] => (args.drop head.length).take 1
    | _ => []
  let grammar : Grammar :=
    { letters := "s:wf:", long := [("separator", 's'), ("equal-width", 'w')], mixed := false }
  let i ← grammar.read "seq" (head ++ withValue)
  let operands := args.drop (head.length + withValue.length)
  Run.setStatus 0
  let hint := "\nTry 'seq --help' for more information."
  match operands.mapM decimal? with
  | none =>
    let bad := (operands.find? fun a => !isNumber a).getD []
    giveUp "seq" ("invalid floating point argument: '".toList ++ bad ++ ('\'' :: hint.toList))
  | some numbers =>
    let (first, step, last) ←
      match numbers with
      | [last] => pure ((1, 0), (1, 0), last)
      | [first, last] => pure (first, (1, 0), last)
      | [first, step, last] => pure (first, step, last)
      | [] => giveUp "seq" ("missing operand" ++ hint).toList
      | _ =>
        giveUp "seq" ("extra operand '".toList ++ ((operands[3]?).getD []) ++ ('\'' :: hint.toList))
    let places := max first.2 step.2
    let most := max places last.2
    if step.1 = 0 then
      giveUp "seq" ("invalid Zero increment value: '".toList ++ ((operands[1]?).getD []) ++
        ('\'' :: hint.toList))
    let factor := (10 : Int).pow (most - places)
    let values := progression (scaled first.1 first.2 most) (scaled step.1 step.2 most)
      (scaled last.1 last.2 most) 100000
    let texts := values.map fun n => pointText places (n / factor)
    let widest := max (pointText places (scaled first.1 first.2 places)).length
      (texts.foldl (fun n t => max n t.length) 0)
    let padded (t : List Char) : List Char :=
      if i.has 'w' then
        match t with
        | '-' :: ds => '-' :: List.replicate (widest - t.length) '0' ++ ds
        | ds => List.replicate (widest - t.length) '0' ++ ds
      else t
    let separator := (i.value? 's').getD ['\n']
    if !texts.isEmpty then write (separator.intercalate (texts.map padded) ++ ['\n'])

end EngineBridge.Shell.Tool
