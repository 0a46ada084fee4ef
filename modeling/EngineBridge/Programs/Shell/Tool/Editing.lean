import EngineBridge.Programs.Shell.Tool.Regex

/-!
# Scripts of the stream editor
-/

namespace EngineBridge.Shell.Tool.Editing

/-- A regular expression with the way in which it is looked for. None stands for the last one. -/
structure Wanted where
  regex : Option Regex
  options : Regex.Options := {}

inductive Address where
  | line (n : Nat)
  | every (first step : Nat)
  | last
  | found (w : Wanted)

/-- Where a range of lines ends. -/
inductive Limit where
  | at (a : Address)
  | after (n : Nat)
  | multiple (n : Nat)

structure Lines where
  first : Address
  limit : Option Limit := none

/-- A piece of a replacement. -/
inductive Filling where
  | text (cs : List Char)
  /-- What a group has matched; zero is the whole match. -/
  | group (n : Nat)
  /-- The case of what follows. -/
  | caseOf (letter : Char)

structure Substitution where
  wanted : Wanted
  filling : List Filling
  every : Bool := false
  /-- The match with which it begins. -/
  number : Nat := 1
  prints : Bool := false
  /-- The file that the line is written to. -/
  file : Option (List Char) := none

inductive Action where
  /-- Commands up to the one of this number belong together. -/
  | block (close : Nat)
  | close
  | append (cs : List Char)
  | insert (cs : List Char)
  | change (cs : List Char)
  /-- Go on at a label, or at the end: always, or if a substitution has been made, or if not. -/
  | branch (kind : Char) (label : List Char)
  | label (name : List Char)
  | substitute (s : Substitution)
  | exchange (pairs : List (Char × Char))
  | quit (prints : Bool) (status : Nat)
  | readFile (path : List Char)
  | writeFile (path : List Char)
  /-- A command of one letter. -/
  | letter (c : Char)

structure Instruction where
  lines : Option Lines
  negated : Bool
  action : Action

/-- What is wrong, and what is left of the script then. -/
structure Mistake where
  message : String
  rest : Option (List Char)

abbrev Reading := ExceptT Mistake (StateM (List Char))

namespace Reading

def peek : Reading (Option Char) := do return (← get).head?

def next : Reading (Option Char) := modifyGet fun cs => (cs.head?, cs.drop 1)

def wrong {α : Type} (message : String) : Reading α := do throw ⟨message, some (← get)⟩

def skipWhile (p : Char → Bool) : Reading Unit := modify fun cs => cs.dropWhile p

def takeWhile (p : Char → Bool) : Reading (List Char) :=
  modifyGet fun cs => (cs.takeWhile p, cs.dropWhile p)

def isBlank (c : Char) : Bool := c == ' ' || c == '\t'

def isSpace (c : Char) : Bool := c == ' ' || (8 < c.toNat && c.toNat < 14)

def number : Reading (Option Nat) := do
  let ds ← takeWhile Char.isDigit
  return if ds.isEmpty then none else some (Text.valueOf 10 ds)

/-- The length of a set behind its opening bracket; none if it has no end. -/
def setLength? (cs : List Char) : Option Nat :=
  let negation := if cs.head? = some '^' then 1 else 0
  let first := if (cs.drop negation).head? = some ']' then 1 else 0
  (members (cs.length + 1) (cs.drop (negation + first))).map (· + negation + first)
where
  members : Nat → List Char → Option Nat
    | 0, _ => none
    | _, [] => none
    | fuel + 1, c :: rest =>
      if c = ']' then some 1
      else
        let named : Option (List Char × List Char) :=
          match rest with
          | mark :: more =>
            if c = '[' && [':', '.', '='].contains mark then Regex.upTo mark [] more else none
          | [] => none
        let after := (named.map (·.2)).getD rest
        (members fuel after).map (· + (rest.length + 1 - after.length))

/-- The text up to a delimiter; none if there is none. A delimiter in a set of a regular expression
does not count. -/
def delimited (delimiter : Char) (regex : Bool) : Reading (Option (List Char)) := do
  let cs ← get
  match scan delimiter regex (cs.length + 1) [] cs with
  | some (text, rest) =>
    set rest
    return some text
  | none =>
    set ([] : List Char)
    return none
where
  scan (delimiter : Char) (regex : Bool) : Nat → List Char → List Char →
      Option (List Char × List Char)
    | 0, _, _ => none
    | _, _, [] => none
    | fuel + 1, done, '\\' :: c :: rest =>
      let shown :=
        if c = 'n' && regex then if c = delimiter then ['n'] else ['n', '\\']
        else if c = delimiter && !(c = '&' && !regex) then [c]
        else [c, '\\']
      scan delimiter regex fuel (shown ++ done) rest
    | fuel + 1, done, c :: rest =>
      if c = delimiter then some (done.reverse, rest)
      else if c = '\n' && regex then none
      else if c = '[' && regex then do
        let n ← setLength? rest
        scan delimiter regex fuel ((rest.take n).reverse ++ c :: done) (rest.drop n)
      else scan delimiter regex fuel (c :: done) rest

def regexOf (extended : Bool) (cs : List Char) : Reading (Option Regex) := do
  if cs.isEmpty then return none
  match Regex.read { extended, editor := true } cs with
  | .ok r => return some r
  | .error message => wrong message

/-- Flags of a regular expression in an address. -/
def addressOptions : Nat → Regex.Options → Reading Regex.Options
  | 0, o => return o
  | fuel + 1, o => do
    match ← peek with
    | some 'I' =>
      let _ ← next
      addressOptions fuel { o with ignoreCase := true }
    | some 'M' =>
      let _ ← next
      addressOptions fuel { o with multiline := true }
    | _ => return o

def address (extended : Bool) : Reading (Option Address) := do
  let found (delimiter : Char) : Reading (Option Address) := do
    match ← delimited delimiter true with
    | none => wrong "unterminated address regex"
    | some cs =>
      let regex ← regexOf extended cs
      return some (.found ⟨regex, ← addressOptions 8 {}⟩)
  match ← peek with
  | some '$' =>
    let _ ← next
    return some .last
  | some '/' =>
    let _ ← next
    found '/'
  | some '\\' =>
    let _ ← next
    match ← next with
    | some c => found c
    | none => wrong "unterminated address regex"
  | _ =>
    match ← number with
    | none => return none
    | some n =>
      skipWhile isBlank
      if (← peek) = some '~' then
        let _ ← next
        return some (.every n ((← number).getD 0))
      else return some (.line n)

def limit (extended : Bool) : Reading Limit := do
  skipWhile isSpace
  match ← peek with
  | some '+' =>
    let _ ← next
    match ← number with
    | some n => return .after n
    | none => wrong "expected number"
  | some '~' =>
    let _ ← next
    return .multiple ((← number).getD 0)
  | _ =>
    match ← address extended with
    | some a => return .at a
    | none => wrong "unexpected `,'"

/-- The text behind a command that takes one. -/
def textArgument : Reading (List Char) := do
  skipWhile isBlank
  if (← get).isEmpty then wrong "expected \\ after `a', `c' or `i'"
  if (← peek) = some '\\' then
    let _ ← next
    skipWhile isBlank
    if (← peek) = some '\n' then
      let _ ← next
  let cs ← get
  let (text, rest) := scan [] cs
  set rest
  return text ++ ['\n']
where
  scan (done : List Char) : List Char → List Char × List Char
    | [] => (done.reverse, [])
    | ['\\'] => (done.reverse, [])
    | '\\' :: c :: rest => scan (c :: done) rest
    | c :: rest => if c = '\n' then (done.reverse, rest) else scan (c :: done) rest

/-- The pieces of a replacement. -/
def fillings : List Char → List Char → List Filling
  | done, [] => flush done []
  | done, '\\' :: c :: rest =>
    if c.isDigit then flush done (.group (c.toNat - '0'.toNat) :: fillings [] rest)
    else if ['L', 'U', 'l', 'u', 'E'].contains c then
      flush done (.caseOf c :: fillings [] rest)
    else
      let x :=
        match c with
        | 'n' => '\n'
        | 't' => '\t'
        | 'r' => '\r'
        | 'f' => '\x0c'
        | 'v' => '\x0b'
        | 'a' => '\x07'
        | c => c
      fillings (x :: done) rest
  | done, '&' :: rest => flush done (.group 0 :: fillings [] rest)
  | done, c :: rest => fillings (c :: done) rest
where
  flush (done : List Char) (more : List Filling) : List Filling :=
    if done.isEmpty then more else .text done.reverse :: more

/-- The path behind a command that takes one; the line ends with it. -/
def fileArgument : Reading (List Char) := do
  skipWhile isBlank
  let path ← takeWhile (· ≠ '\n')
  if path.isEmpty then wrong "missing filename in r/R/w/W commands"
  return path

/-- The flags of a substitution. -/
def substitutionFlags : Nat → Substitution → Reading Substitution
  | 0, s => return s
  | fuel + 1, s => do
    let go (s : Substitution) : Reading Substitution := do
      let _ ← next
      substitutionFlags fuel s
    match ← peek with
    | some 'g' =>
      let _ ← next
      if s.every then wrong "multiple `g' options to `s' command"
      substitutionFlags fuel { s with every := true }
    | some 'p' =>
      let _ ← next
      if s.prints then wrong "multiple `p' options to `s' command"
      substitutionFlags fuel { s with prints := true }
    | some 'w' =>
      let _ ← next
      return { s with file := some (← fileArgument) }
    | some 'i' | some 'I' =>
      go { s with wanted.options.ignoreCase := true }
    | some 'm' | some 'M' =>
      go { s with wanted.options.multiline := true }
    | some c =>
      if c.isDigit then
        let n := (← number).getD 0
        if n = 0 then wrong "number option to `s' command may not be zero"
        substitutionFlags fuel { s with number := n }
      else if isBlank c || [';', '\n', '\x7d', '#'].contains c then return s
      else
        let _ ← next
        wrong "unknown option to `s'"
    | none => return s

def substitution (extended : Bool) : Reading Action := do
  let unterminated {α : Type} : Reading α := wrong "unterminated `s' command"
  match ← next with
  | none => unterminated
  | some delimiter =>
    match ← delimited delimiter true with
    | none => unterminated
    | some pattern =>
      match ← delimited delimiter false with
      | none => unterminated
      | some replacement =>
        let s ← substitutionFlags ((← get).length + 1)
          { wanted := ⟨none, {}⟩, filling := fillings [] replacement }
        let regex ← regexOf extended pattern
        let groups := (regex.map Regex.groupCount).getD 9
        let most := s.filling.foldl (fun m f => match f with | .group n => max m n | _ => m) 0
        if groups < most then
          wrong ("invalid reference \\" ++ most.repr ++ " on `s' command's RHS")
        return .substitute { s with wanted.regex := regex }

/-- The characters of a list of characters to exchange. -/
def plainChars : List Char → List Char
  | '\\' :: c :: rest => (if c = 'n' then '\n' else if c = 't' then '\t' else c) :: plainChars rest
  | c :: rest => c :: plainChars rest
  | [] => []

def exchange : Reading Action := do
  let unterminated {α : Type} : Reading α := wrong "unterminated `y' command"
  match ← next with
  | none => unterminated
  | some delimiter =>
    match ← delimited delimiter false with
    | none => unterminated
    | some source =>
      match ← delimited delimiter false with
      | none => unterminated
      | some target =>
        let (source, target) := (plainChars source, plainChars target)
        if source.length ≠ target.length then
          wrong "strings for `y' command are different lengths"
        return .exchange (source.zip target)

/-- What may follow a command. -/
def ending : Reading Unit := do
  skipWhile isBlank
  match ← peek with
  | none | some '\x7d' | some '#' => return ()
  | some '\n' | some ';' =>
    let _ ← next
  | some _ =>
    let _ ← next
    wrong "extra characters after command"

def labelArgument : Reading (List Char) := do
  skipWhile isBlank
  takeWhile fun c => !isSpace c && c ≠ ';' && c ≠ '\x7d'

/-- The action of a command, whose letter has been read. -/
def action (extended : Bool) (c : Char) : Reading Action := do
  match c with
  | '\x7b' => return .block 0
  | '\x7d' =>
    ending
    return .close
  | 'a' => return .append (← textArgument)
  | 'i' => return .insert (← textArgument)
  | 'c' => return .change (← textArgument)
  | ':' =>
    let name ← labelArgument
    if name.isEmpty then wrong "\":\" lacks a label"
    ending
    return .label name
  | 'b' | 't' | 'T' =>
    let name ← labelArgument
    ending
    return .branch c name
  | 's' =>
    let a ← substitution extended
    ending
    return a
  | 'y' =>
    let a ← exchange
    ending
    return a
  | 'q' | 'Q' =>
    skipWhile isBlank
    let status := (← number).getD 0
    ending
    return .quit (c = 'q') status
  | 'r' => return .readFile (← fileArgument)
  | 'w' => return .writeFile (← fileArgument)
  | _ =>
    if ['=', 'd', 'D', 'g', 'G', 'h', 'H', 'l', 'n', 'N', 'p', 'P', 'x', 'z'].contains c then
      ending
      return .letter c
    else wrong ("unknown command: `" ++ String.ofList [c] ++ "'")

/-- Commands behind those that have been read, which are reversed. `opened` are the numbers of the
blocks that are open. -/
def instructions (extended : Bool) : Nat → List Nat → List Instruction →
    Reading (List Instruction)
  | 0, _, done => return done.reverse
  | fuel + 1, opened, done => do
    skipWhile fun c => isSpace c || c == ';'
    match ← peek with
    | none =>
      if opened.isEmpty then return done.reverse else throw ⟨"unmatched `\x7b'", none⟩
    | some '#' =>
      skipWhile (· ≠ '\n')
      instructions extended fuel opened done
    | some _ =>
      let first ← address extended
      skipWhile isBlank
      let lines ←
        match first with
        | none => pure none
        | some first =>
          if (← peek) = some ',' then
            let _ ← next
            pure (some { first, limit := some (← limit extended) : Lines })
          else pure (some { first })
      skipWhile isBlank
      let negated := (← peek) = some '!'
      skipWhile fun c => c == '!' || isBlank c
      match ← next with
      | none => wrong "missing command"
      | some c =>
        if let some { first := .line 0, limit } := lines then
          match limit with
          | some (.at (.found _)) => pure ()
          | _ => wrong "invalid usage of line address 0"
        if c = '\x7d' && opened.isEmpty then wrong "unexpected `\x7d'"
        if c = ':' && lines.isSome then wrong ": doesn't want any addresses"
        let a ← action extended c
        let here := done.length
        let done := ⟨lines, negated, a⟩ :: done
        match a, opened with
        | .block _, _ => instructions extended fuel (here :: opened) done
        | .close, k :: opened =>
          let closed := done.reverse.zipIdx.map fun (i, n) =>
            if n = k then { i with action := .block here } else i
          instructions extended fuel opened closed.reverse
        | _, _ => instructions extended fuel opened done

end Reading

/-- The commands of a script; else what is wrong, and at which character. -/
def read (extended : Bool) (cs : List Char) : Except (String × Nat) (List Instruction) :=
  match (Reading.instructions extended (2 * cs.length + 2) [] []).run.run cs with
  | (.ok is, _) => .ok is
  | (.error m, _) =>
    .error (m.message, match m.rest with | some rest => cs.length - rest.length | none => 0)

structure Desk where
  /-- What ends a line. -/
  mark : Char
  /-- The line at hand, and whether it ended. -/
  line : List Char := []
  ended : Bool := true
  hold : List Char := []
  holdEnded : Bool := true
  number : Nat := 0
  /-- Lines to come. -/
  input : List (List Char × Bool)
  /-- More may come after them. -/
  more : Bool
  /-- The ranges that are open, and the last line of each if that is known. -/
  opened : List (Nat × Option Nat) := []
  /-- What is written before the next line is read, latest first. -/
  queue : List (List Char) := []
  substituted : Bool := false
  /-- The last regular expression. -/
  last : Option Regex := none
  /-- Latest first. -/
  output : List (List Char) := []
  /-- The last line that has been written lacks its line feed. -/
  missing : Bool := false
  /-- What is written to files, latest first. -/
  filed : List (List Char × List Char) := []

/-- Why a cycle ends. -/
inductive Halt where
  | next (prints : Bool)
  /-- The commands begin again with what is left of the line. -/
  | again
  | quit (prints : Bool) (status : Nat)
  | starved
  | mistake (message : String)

structure Setting where
  quiet : Bool
  instructions : Array Instruction
  files : List Char → Option (List Char)

abbrev Cycle := ExceptT Halt (StateM Desk)

namespace Cycle

/-- Write text, after the line feed that is missing before it. -/
def put (cs : List Char) (ended : Bool) : Cycle Unit :=
  modify fun d =>
    let before := if d.missing then [d.mark] else []
    { d with
      output := (before ++ cs ++ if ended then [d.mark] else []) :: d.output, missing := !ended }

def putLine : Cycle Unit := do
  let d ← get
  put d.line d.ended

/-- Write text that has its own line feeds. -/
def putText (cs : List Char) : Cycle Unit :=
  modify fun d =>
    let before := if d.missing then [d.mark] else []
    { d with output := (before ++ cs) :: d.output, missing := false }

/-- Write the line to a file. -/
def file (path : List Char) : Cycle Unit :=
  modify fun d =>
    let text := d.line ++ if d.ended then [d.mark] else []
    if path = "/dev/stdout".toList then { d with output := text :: d.output }
    else { d with filed := (path, text) :: d.filed }

def isLast : Cycle Bool := do
  let d ← get
  if d.input.isEmpty && d.more then throw .starved
  return d.input.isEmpty

def search (w : Wanted) (before cs : List Char) : Cycle (Option Regex.Match) := do
  match w.regex <|> (← get).last with
  | none => throw (.mistake "no previous regular expression")
  | some r =>
    modify fun d => { d with last := some r }
    return Regex.searchFrom w.options r before cs

def holds (a : Address) : Cycle Bool := do
  let d ← get
  match a with
  | .line n => return d.number = n
  | .every first step =>
    return if step = 0 then d.number = first
      else first ≤ d.number && (d.number - first) % step = 0
  | .last => isLast
  | .found w => return (← search w [] d.line).isSome

def openRange (k : Nat) (last : Option Nat) : Cycle Unit :=
  modify fun d => { d with opened := (k, last) :: d.opened.filter (·.1 ≠ k) }

def closeRange (k : Nat) : Cycle Unit :=
  modify fun d => { d with opened := d.opened.filter (·.1 ≠ k) }

/-- Begin a range at this line, if it goes on after it. -/
def beginRange (k : Nat) (limit : Limit) : Cycle Bool := do
  let n := (← get).number
  match limit with
  | .at (.line m) => if n < m then openRange k (some m)
  | .after m => if 0 < m then openRange k (some (n + m))
  | .multiple m => if m ≠ 0 && n % m ≠ 0 then openRange k (some ((n / m + 1) * m))
  | .at _ => openRange k none
  return true

/-- Whether the command of number `k` is meant for the line at hand. -/
def isMeant (k : Nat) (lines : Lines) : Cycle Bool := do
  let d ← get
  match lines.limit with
  | none => holds lines.first
  | some limit =>
    match d.opened.lookup k with
    | some (some last) =>
      if last ≤ d.number then closeRange k
      if last < d.number then
        if ← holds lines.first then beginRange k limit else return false
      else return true
    | some none =>
      if let .at a := limit then
        if ← holds a then closeRange k
      return true
    | none =>
      match lines.first with
      | .line 0 =>
        if d.number = 1 then
          let ends ← match limit with | .at a => holds a | _ => pure true
          if !ends then openRange k none
          return true
        else return false
      | first => if ← holds first then beginRange k limit else return false

/-- A text in the case that is asked for: for all of it, and for its first character. -/
def cased (whole first : Option Char) (cs : List Char) : List Char :=
  let change (letter : Option Char) (c : Char) : Char :=
    match letter with
    | some 'U' | some 'u' => c.toUpper
    | some 'L' | some 'l' => c.toLower
    | _ => c
  match cs.map (change whole) with
  | [] => []
  | c :: rest => (if first.isSome then change first c else c) :: rest

/-- What a replacement makes of a match. -/
def filled (m : Regex.Match) : Option Char → Option Char → List Filling → List Char
  | _, _, [] => []
  | whole, first, f :: rest =>
    let put (cs : List Char) : List Char :=
      cased whole first cs ++ filled m whole (if cs.isEmpty then first else none) rest
    match f with
    | .text cs => put cs
    | .group 0 => put m.found
    | .group n => put ((m.groups.lookup n).getD [])
    | .caseOf 'E' => filled m none none rest
    | .caseOf c =>
      if c = 'l' || c = 'u' then filled m whole (some c) rest
      else filled m (some c) none rest

/-- Substitute from a place on. Gives what is made of the rest, and whether anything is. `count`
matches come before; one that is empty may not follow another match at once. -/
def replaced (s : Substitution) : Nat → Nat → Bool → List Char → List Char →
    Cycle (List Char × Bool)
  | 0, _, _, _, cs => return (cs, false)
  | fuel + 1, count, afterMatch, before, cs => do
    match ← search s.wanted before cs with
    | none => return (cs, false)
    | some m =>
      let head := m.before.drop before.length
      let skipped := m.found.isEmpty && afterMatch && head.isEmpty
      let count := if skipped then count else count + 1
      let counts := !skipped && (count = s.number || (s.every && s.number ≤ count))
      let made := if counts then filled m none none s.filling else m.found
      let text := head ++ made
      if counts && !s.every then return (text ++ m.after, true)
      else
        let place := m.found.reverse ++ m.before.reverse
        match m.found, m.after with
        | [], c :: after =>
          let (tail, any) ← replaced s fuel count false (c :: place) after
          return (text ++ c :: tail, any || counts)
        | [], [] => return (text, counts)
        | _, after =>
          let (tail, any) ← replaced s fuel count true place after
          return (text ++ tail, any || counts)

/-- Write what waits for the end of the cycle. -/
def putQueue : Cycle Unit := do
  for cs in (← get).queue.reverse do
    putText cs
  modify fun d => { d with queue := [] }

/-- Take the next line; false if there is none. -/
def takeLine (join : Bool) : Cycle Bool := do
  let d ← get
  match d.input with
  | [] => if d.more then throw .starved else return false
  | (line, ended) :: input =>
    set { d with
      line := if join then d.line ++ d.mark :: line else line
      ended, input, number := d.number + 1 }
    return true

/-- A line with its invisible characters shown. -/
def shownChar (c : Char) : List Char :=
  match c with
  | '\\' => ['\\', '\\']
  | '\n' => ['\\', 'n']
  | '\t' => ['\\', 't']
  | '\r' => ['\\', 'r']
  | '\x07' => ['\\', 'a']
  | '\x08' => ['\\', 'b']
  | '\x0c' => ['\\', 'f']
  | '\x0b' => ['\\', 'v']
  | c =>
    if 31 < c.toNat && c.toNat < 127 then [c]
    else
      let ds := Nat.toDigits 8 c.toNat
      '\\' :: List.replicate (3 - ds.length) '0' ++ ds

def wrapped (width : Nat) : Nat → List (List Char) → List Char
  | _, [] => []
  | used, w :: rest =>
    if width < used + w.length then '\\' :: '\n' :: w ++ wrapped width w.length rest
    else w ++ wrapped width (used + w.length) rest

def letter (s : Setting) (c : Char) : Cycle Unit := do
  let d ← get
  match c with
  | '=' => putText (d.number.repr.toList ++ ['\n'])
  | 'd' => throw (.next false)
  | 'D' =>
    if d.line.contains d.mark then
      set { d with line := (d.line.dropWhile (· ≠ d.mark)).drop 1 }
      throw .again
    else throw (.next false)
  | 'g' => set { d with line := d.hold, ended := d.holdEnded }
  | 'G' => set { d with line := d.line ++ d.mark :: d.hold, ended := d.holdEnded }
  | 'h' => set { d with hold := d.line, holdEnded := d.ended }
  | 'H' => set { d with hold := d.hold ++ d.mark :: d.line, holdEnded := d.ended }
  | 'l' => putText (wrapped 69 0 (d.line.map shownChar) ++ ['$', '\n'])
  | 'n' =>
    if d.input.isEmpty && !d.more then throw (.quit true 0)
    if !s.quiet then putLine
    putQueue
    let _ ← takeLine false
  | 'N' =>
    if d.input.isEmpty && !d.more then throw (.quit true 0)
    putQueue
    let _ ← takeLine true
  | 'p' => putLine
  | 'P' => put (d.line.takeWhile (· ≠ d.mark)) (d.ended || d.line.contains d.mark)
  | 'x' =>
    set { d with line := d.hold, ended := d.holdEnded, hold := d.line, holdEnded := d.ended }
  | 'z' => set { d with line := [] }
  | _ => return ()

/-- Run commands from the one of number `k` on. -/
def runFrom (s : Setting) : Nat → Nat → Cycle Unit
  | 0, _ => throw (.mistake "endless script")
  | fuel + 1, k => do
    match s.instructions[k]? with
    | none => return ()
    | some i =>
      let d ← get
      let meant ← match i.lines with | none => pure true | some lines => isMeant k lines
      let jump (name : List Char) : Nat :=
        if name.isEmpty then s.instructions.size
        else
          (s.instructions.findIdx? fun i =>
            match i.action with | .label l => l = name | _ => false).getD s.instructions.size
      if meant = i.negated then
        runFrom s fuel (match i.action with | .block close => close + 1 | _ => k + 1)
      else
        match i.action with
        | .block _ | .close | .label _ => runFrom s fuel (k + 1)
        | .append cs =>
          modify fun d => { d with queue := cs :: d.queue }
          runFrom s fuel (k + 1)
        | .insert cs =>
          putText cs
          runFrom s fuel (k + 1)
        | .change cs =>
          let inside := ((← get).opened.lookup k).isSome
          let isRange := (i.lines.bind (·.limit)).isSome
          if !isRange || i.negated || !inside then putText cs
          throw (.next false)
        | .branch kind name =>
          let goes :=
            match kind with
            | 't' => d.substituted
            | 'T' => !d.substituted
            | _ => true
          if kind ≠ 'b' then modify fun d => { d with substituted := false }
          runFrom s fuel (if goes then jump name else k + 1)
        | .substitute sub =>
          let (line, any) ← replaced sub (d.line.length + 2) 0 false [] d.line
          if any then
            modify fun d => { d with line, substituted := true }
            if sub.prints then putLine
            if let some path := sub.file then file path
          runFrom s fuel (k + 1)
        | .exchange pairs =>
          modify fun d => { d with line := d.line.map fun c => (pairs.lookup c).getD c }
          runFrom s fuel (k + 1)
        | .quit prints status => throw (.quit prints status)
        | .readFile path =>
          modify fun d => { d with queue := (s.files path).getD [] :: d.queue }
          runFrom s fuel (k + 1)
        | .writeFile path =>
          file path
          runFrom s fuel (k + 1)
        | .letter c =>
          letter s c
          runFrom s fuel (k + 1)

end Cycle

/-- How a run of a script ends. -/
inductive Outcome where
  | status (n : Nat)
  | starved
  | mistake (message : String)

/-- Run a script on the line at hand, and on those after it. -/
def cycles (s : Setting) : Nat → Desk → Outcome × Desk
  | 0, d => (.mistake "endless script", d)
  | fuel + 1, d =>
    let (outcome, d) := (Cycle.runFrom s 100000 0).run.run d
    let close (prints : Bool) (d : Desk) : Desk :=
      let act : Cycle Unit := do
        if prints && !s.quiet then Cycle.putLine
        Cycle.putQueue
      (act.run.run d).2
    let onward (d : Desk) : Outcome × Desk :=
      match (Cycle.takeLine false).run.run { d with substituted := false } with
      | (.ok true, d) => cycles s fuel d
      | (.ok false, d) => (.status 0, d)
      | (.error _, d) => (.starved, d)
    match outcome with
    | .ok _ => onward (close true d)
    | .error (.next prints) => onward (close prints d)
    | .error .again => cycles s fuel (close false d)
    | .error (.quit prints status) => (.status status, if prints then close true d else d)
    | .error .starved => (.starved, d)
    | .error (.mistake m) => (.mistake m, d)

/-- Run a script on lines that end with a mark, and give what is at hand in the end. -/
def run (mark : Char) (s : Setting) (input : List (List Char × Bool)) (more : Bool) :
    Outcome × Desk :=
  match input with
  | [] => (if more then .starved else .status 0, { mark, input := [], more })
  | (line, ended) :: rest =>
    let d : Desk := { mark, line, ended, number := 1, input := rest, more }
    cycles s (input.length + 100000) d

/-- The files that a script writes to. -/
def targets (is : List Instruction) : List (List Char) :=
  is.filterMap fun i =>
    match i.action with
    | .writeFile path => some path
    | .substitute s => s.file
    | _ => none

end EngineBridge.Shell.Tool.Editing
