import EngineBridge.Programs.Shell.Tool.Basic
import EngineBridge.Programs.Shell.Tool.Editing

/-!
# Programs with regular expressions
-/

namespace EngineBridge.Shell.Tool

def sedGrammar : Grammar where
  letters := "bsnrzuEie:f:l:"
  long := [("quiet", 'n'), ("silent", 'n'), ("expression", 'e'), ("file", 'f'),
    ("regexp-extended", 'E'), ("unbuffered", 'u'), ("separate", 's'), ("posix", 'b'),
    ("in-place", 'i')]

/-- The script that the options give, or the first operand; and the operands that are left. -/
def sedScript (i : Invocation) : Run (List Char × Args) := do
  let pieces ← i.options.filterMapM fun (c, cs) => do
    if c = 'e' then return some cs
    else if c = 'f' then
      match ← sourceOf cs with
      | .ok source =>
        let ended := source.text.getLast? = some '\n'
        return some (if ended then source.text.dropLast else source.text)
      | .error e => giveUp "sed" ("couldn't open file ".toList ++ cs ++ (": " ++ reason e).toList)
    else return none
  match pieces, i.operands with
  | [], [] => giveUp "sed" "no script specified".toList
  | [], script :: operands => return (script, operands)
  | _, operands => return (['\n'].intercalate pieces, operands)

/-- The commands of a script. -/
def sedCommands (extended : Bool) (script : List Char) : Run (List Editing.Instruction) := do
  match Editing.read extended script with
  | .error (message, place) =>
    giveUp "sed" ("-e expression #1, char " ++ place.repr ++ ": " ++ message).toList
  | .ok instructions =>
    let missing := instructions.findSome? fun k =>
      match k.action with
      | .branch _ name =>
        let found := instructions.any fun k =>
          match k.action with | .label l => l = name | _ => false
        if name.isEmpty || found then none else some name
      | _ => none
    if let some name := missing then
      giveUp "sed" ("can't find label for jump to `".toList ++ name ++ ['\'']) 4
    return instructions

/-- What the operands lead to; those that cannot be read are left out with a complaint. -/
def sedSources (operands : Args) : Run (List (List Char × Source)) :=
  operands.filterMapM fun operand => do
    match ← sourceOf operand with
    | .ok source => return some (operand, source)
    | .error e =>
      let text :=
        if e = .isDirectory then
          "couldn't edit ".toList ++ operand ++ ": not a regular file".toList
        else "can't read ".toList ++ operand ++ (": " ++ reason e).toList
      complain "sed" text 2
      return none

/-- Edit lines as a script says. The output is held back while more input may come. -/
def sed : Tool := fun args => do
  let i ← sedGrammar.read "sed" args
  let (script, operands) ← sedScript i
  let silent := ['#', 'n'].isPrefixOf script && (script.drop 2).head?.all (· = '\n')
  let instructions ← sedCommands (i.has 'E' || i.has 'r') script
  if i.has 'i' && operands.isEmpty then giveUp "sed" "no input files".toList 4
  let s ← get
  Run.setStatus 0
  let found ← sedSources (if operands.isEmpty then [['-']] else operands)
  let setting : Editing.Setting :=
    { quiet := i.has 'n' || silent
      instructions := instructions.toArray
      files := fun p => ((s.files.read s.directory p)).toOption }
  let mark := if i.has 'z' then '\x00' else '\n'
  let lines := found.map fun (_, source) => linesOf source.text mark
  let edit (lines : List (List Char × Bool)) (more : Bool) (target : List Char → Run Unit) :
      Run Unit := do
    let (outcome, d) := Editing.run mark setting lines more
    let put : Run Unit := do
      for path in Editing.targets instructions do
        if path ≠ "/dev/stdout".toList then
          store "sed" false path ((d.filed.reverse.filter (·.1 = path)).flatMap (·.2))
      target d.output.reverse.flatten
    match outcome with
    | .starved =>
      if i.has 'u' then put
      throw .waiting
    | .status n =>
      put
      if n ≠ 0 then
        Run.setStatus n
        throw .exit
    | .mistake m =>
      put
      giveUp "sed" ("-e expression #1, char 0: " ++ m).toList
  if i.has 'i' then
    for ((operand, _), lines) in found.zip lines do
      edit lines false (store "sed" false operand)
  else
    let joined := lines.zipIdx.flatMap fun (ls, n) =>
      if n + 1 < lines.length then ls.map fun (line, _) => (line, true) else ls
    edit joined (found.any (·.2.more)) write

def grepGrammar : Grammar where
  letters := "EFGPcHhilLm:noqsvwxye:f:aUubA:B:C:"
  long := [("extended-regexp", 'E'), ("fixed-strings", 'F'), ("basic-regexp", 'G'), ("count", 'c'),
    ("with-filename", 'H'), ("no-filename", 'h'), ("ignore-case", 'i'),
    ("files-with-matches", 'l'), ("files-without-match", 'L'), ("max-count", 'm'),
    ("line-number", 'n'), ("only-matching", 'o'), ("quiet", 'q'), ("silent", 'q'),
    ("no-messages", 's'), ("invert-match", 'v'), ("word-regexp", 'w'), ("line-regexp", 'x'),
    ("regexp", 'e'), ("file", 'f'), ("text", 'a'), ("line-buffered", 'u'), ("color", 'U'),
    ("colour", 'U'), ("byte-offset", 'b'), ("after-context", 'A'), ("before-context", 'B'),
    ("context", 'C')]

/-- What has to be found in a line for one pattern. -/
def patternRegex (i : Invocation) (cs : List Char) : Except String Regex := do
  let r ←
    if i.has 'F' then pure (cs.foldr (fun c r => Regex.both (.one (· == c)) r) .nothing)
    else Regex.read { extended := i.has 'E' || i.has 'P' } cs
  return if i.has 'x' then .both (.edge .lineStart) (.both r (.edge .lineEnd))
    else if i.has 'w' then .both (.edge .apartLeft) (.both r (.edge .apartRight))
    else r

/-- All matches in a line that are not empty, each with its place. -/
def allMatches (o : Regex.Options) (r : Regex) :
    Nat → List Char → List Char → List (Nat × List Char)
  | 0, _, _ => []
  | fuel + 1, before, cs =>
    match Regex.searchFrom o r before cs with
    | none => []
    | some m =>
      match m.found, m.after with
      | [], [] => []
      | [], c :: after => allMatches o r fuel (c :: m.before.reverse) after
      | found, after =>
        (m.before.length, found) ::
          allMatches o r fuel (found.reverse ++ m.before.reverse) after

/-- A line of a source. -/
structure Candidate where
  text : List Char
  number : Nat
  offset : Nat
  chosen : Bool

/-- The lines of a source, and those of them that are chosen. -/
def candidates (i : Invocation) (r : Regex) (o : Regex.Options) (source : Source) :
    List Candidate :=
  let (_, _, cs) := (linesOf source.text).foldl
    (fun (offset, left, done) (line, ended) =>
      let chosen := left ≠ some 0 && (Regex.search o r line).isSome != i.has 'v'
      let left := if chosen then left.map (· - 1) else left
      (offset + line.length + (if ended then 1 else 0), left,
        ⟨line, done.length + 1, offset, chosen⟩ :: done))
    (0, (i.value? 'm').bind natural?, ([] : List Candidate))
  cs.reverse

/-- How many lines are shown before and after a line that is chosen. -/
def contextOf (i : Invocation) : Nat × Nat :=
  let number (c : Char) : Option Nat := (i.value? c).bind natural?
  let both := (number 'C').getD 0
  ((number 'B').getD both, (number 'A').getD both)

/-- What is written of one source, and how many lines were chosen. -/
def searched (i : Invocation) (r : Regex) (label : List Char) (source : Source) :
    List Char × Nat :=
  let o : Regex.Options := { ignoreCase := i.has 'i' || i.has 'y' }
  let all := candidates i r o source
  let chosen := all.filter (·.chosen)
  let mark (c : Candidate) : Char := if c.chosen then ':' else '-'
  let heading (c : Candidate) (place : Nat) : List Char :=
    (if label.isEmpty then [] else label ++ [mark c]) ++
      (if i.has 'n' then c.number.repr.toList ++ [mark c] else []) ++
      if i.has 'b' then (c.offset + place).repr.toList ++ [mark c] else []
  let (before, after) := contextOf i
  let shown := all.filter fun c =>
    chosen.any fun d => d.number ≤ c.number + before && c.number ≤ d.number + after
  let apart := before + after ≠ 0
  let rows := (shown.zip (none :: shown.map some)).flatMap fun (c, earlier) =>
    let gap := apart && earlier.any fun d => d.number + 1 < c.number
    (if gap then ['-', '-', '\n'] else []) ++ heading c 0 ++ c.text ++ ['\n']
  let matchRows := chosen.flatMap fun c =>
    if i.has 'v' then []
    else
      (allMatches o r (c.text.length + 1) [] c.text).flatMap fun (place, found) =>
        heading c place ++ found ++ ['\n']
  (if i.has 'o' then matchRows else rows, chosen.length)

def grep : Tool := fun args => do
  let i ← grepGrammar.read "grep" args 2
  let given := (i.options.filter (·.1 = 'e')).map (·.2)
  let fromFiles ← (i.options.filter (·.1 = 'f')).mapM fun (_, path) => do
    match ← sourceOf path with
    | .ok source => return (linesOf source.text).map (·.1)
    | .error e => giveUp "grep" (path ++ (": " ++ reason e).toList) 2
  let patterns := given.flatMap (fun cs => if cs.isEmpty then [[]] else (linesOf cs).map (·.1)) ++
    fromFiles.flatten
  let (patterns, operands) ←
    if !given.isEmpty || !fromFiles.isEmpty then pure (patterns, i.operands)
    else
      match i.operands with
      | [] =>
        let _ ← Run.writeTo 2
          ("Usage: grep [OPTION]... PATTERNS [FILE]...\n" ++
            "Try 'grep --help' for more information.\n").toList
        Run.setStatus 2
        throw .exit
      | p :: operands =>
        pure (if p.isEmpty then [[]] else (linesOf p).map (·.1), operands)
  match patterns.mapM (patternRegex i) with
  | .error message => giveUp "grep" message.toList 2
  | .ok rs =>
    let r := match rs with | [] => .edge .noWord | r :: more => more.foldl .either r
    let r := if patterns.isEmpty then .both (.one fun _ => false) r else r
    Run.setStatus 0
    let mut total := 0
    for operand in (if operands.isEmpty then [['-']] else operands) do
      let named := i.has 'H' || (1 < operands.length && !i.has 'h')
      let name := if operand = ['-'] then "(standard input)".toList else operand
      match ← sourceOf operand with
      | .error e =>
        if i.has 's' then Run.setStatus 2
        else complain "grep" (operand ++ (": " ++ reason e).toList) 2
      | .ok source =>
        let (text, n) := searched i r (if named then name else []) source
        total := total + n
        let full := ((i.value? 'm').bind natural?).any (· ≤ n)
        if i.has 'q' && 0 < n then
          Run.setStatus 0
          throw .exit
        if source.more && !full && !((i.has 'l' || i.has 'L') && 0 < n) then
          if i.has 'u' && ['q', 'l', 'L', 'c'].all (!i.has ·) then write text
          throw .waiting
        if i.has 'q' then pure ()
        else if i.has 'l' then
          if 0 < n then write (name ++ ['\n'])
        else if i.has 'L' then
          if n = 0 then write (name ++ ['\n'])
        else if i.has 'c' then
          write ((if named then name ++ [':'] else []) ++ n.repr.toList ++ ['\n'])
        else write text
    if (← get).status = 0 && total = 0 then Run.setStatus 1

end EngineBridge.Shell.Tool
