import EngineBridge.Programs.Shell.Word

/-!
# Commands

The tokens of a script and the commands that they make up.
-/

namespace EngineBridge.Shell.Reading

/-- Drop blanks, and a comment up to the end of its line. -/
def skipBlanks : Nat → Reading Unit
  | 0 => throw .exhausted
  | fuel + 1 => do
    match ← peek with
    | some ' ' | some '\t' =>
      skip
      skipBlanks fuel
    | some '#' =>
      comment fuel
      skipBlanks fuel
    | _ => return ()
where
  comment : Nat → Reading Unit
    | 0 => return ()
    | fuel + 1 => do
      match ← peekRaw with
      | none => return ()
      | some c =>
        if c ≠ '\n' then
          skip
          comment fuel

/-- A redirection behind its first character, which opens for writing if `output` says so. -/
def redirectionHead (output : Bool) (number : Option Nat) : Reading Unit := do
  let n := number.getD (if output then 1 else 0)
  let opens (o : Opening) : Reading Unit :=
    modify fun r => { r with redirection := fun w _ => .file n o w, document := none }
  let copies : Reading Unit :=
    modify fun r => { r with redirection := fun w _ => .copy n w, document := none }
  if output then
    if ← accept '>' then opens .append
    else if ← accept '|' then opens (.write false)
    else if ← accept '&' then copies
    else opens (.write true)
  else if ← accept '<' then
    let stripTabs ← accept '-'
    modify fun r =>
      { r with redirection := fun _ place => .document n place, document := some stripTabs }
  else if ← accept '&' then copies
  else if ← accept '>' then opens .readWrite
  else opens .read

/-- The next token as it is written. -/
def rawToken (inner : Inner) : Reading Token := do
  let r ← get
  if r.pushed then
    set { r with pushed := false }
    return r.last
  let fuel := (← size) + 2
  skipBlanks fuel
  let pair (c : Char) : Reading Token := do
    return .operator (String.ofList (if ← accept c then [c, c] else [c]))
  match ← peek with
  | none => return .finish
  | some c =>
    if c = '\n' then
      skip
      return .newline
    else if c = '&' || c = '|' || c = ';' then
      skip
      pair c
    else if c = '(' || c = ')' then
      skip
      return .operator (String.ofList [c])
    else
      modify fun r => { r with quoted := false }
      let word ← parts inner fuel []
      let redirects (number : Option Nat) : Reading Token := do
        let output := (← peek) = some '>'
        skip
        redirectionHead output number
        return .redirection
      let c ← peek
      if c = some '<' || c = some '>' then
        match plain? word with
        | some [] => return ← redirects none
        | some [d] => if d.isDigit then return ← redirects (some (d.toNat - '0'.toNat))
        | _ => pure ()
      modify fun r => { r with word }
      return .word

/-- Put the text of an alias in front of what is to be read. Empty text is just left out. -/
def replace (name : String) (text : List Char) : Reading Unit :=
  modify fun r =>
    if text.isEmpty then r
    else
      let blankEnd := text.getLast? = some ' ' || text.getLast? = some '\t'
      { r with replacements := { name, rest := text, blankEnd } :: r.replacements }

/-- The next token, with what is expected of it. -/
def tokenFor (inner : Inner) : Nat → Reading Token
  | 0 => throw .exhausted
  | fuel + 1 => do
    let t ← rawToken inner
    let r ← get
    let found (t : Token) : Reading Token := do
      modify fun r => { r with last := t, expected := {} }
      return t
    if r.expected.skipLines && t = .newline then
      inner .documents
      tokenFor inner fuel
    else if t ≠ .word || r.quoted then found t
    else
      match (plain? r.word).map String.ofList with
      | none => found t
      | some s =>
        if r.expected.keywords && Token.keywords.contains s then found (.keyword s)
        else
          let known := r.aliases.find? fun a => a.1 = s && r.replacements.all (·.name ≠ s)
          match if r.expected.aliases then known else none with
          | some (name, text) =>
            replace name text
            tokenFor inner fuel
          | none => found t

def token (inner : Inner) (expected : Expected) : Reading Token := do
  modify fun r => { r with expected }
  tokenFor inner ((← size) + 2 * (← get).aliases.length + 8)

/-- The next token, where the one before it may have said what is expected. -/
def anyToken (inner : Inner) : Reading Token := do token inner (← get).expected

/-- Read the last token again. -/
def pushBack : Reading Unit := modify fun r => { r with pushed := true }

/-- A token that cannot stand here, and what would have been right if that is one thing. -/
def unexpected {α : Type} (wanted : Option Token) : Reading α := do
  let expecting :=
    match wanted with
    | some t => " (expecting " ++ t.shown ++ ")"
    | none => ""
  malformed ((← get).last.shown ++ " unexpected" ++ expecting)

/-- Read one certain token. -/
def demand (inner : Inner) (t : Token) : Reading Unit := do
  if (← anyToken inner) ≠ t then unexpected (some t)

/-- What is expected where a command begins. -/
def atCommand : Expected := { keywords := true, aliases := true }

def atNextCommand : Expected := { atCommand with skipLines := true }

/-- A word without its quotes. -/
def textOf (w : Word) : List Char :=
  w.filterMap fun | .char c _ => some c | _ => none

/-- The target of a redirection whose head has been read. -/
def redirection (inner : Inner) : Reading Redirection := do
  let r ← get
  let t ← token inner { delimiter := r.document.isSome }
  if t ≠ .word then unexpected none
  let read ← get
  match r.document with
  | none =>
    return r.redirection read.word 0
  | some stripTabs =>
    let place := read.documents.size
    let pending : Pending :=
      { place, delimiter := textOf read.word, literal := read.quoted, stripTabs }
    set { read with
      documents := read.documents.push []
      pending := read.pending ++ [pending] }
    return r.redirection [] place

/-- Redirections behind a compound command. -/
def redirections (inner : Inner) : Nat → Reading (List Redirection)
  | 0 => throw .exhausted
  | fuel + 1 => do
    if (← anyToken inner) = .redirection then
      let r ← redirection inner
      return r :: (← redirections inner fuel)
    else
      pushBack
      return []

/-- Builtin commands whose names no function can have. -/
def specialNames : List String :=
  [".", ":", "break", "continue", "eval", "exec", "exit", "export", "local", "readonly", "return",
    "set", "shift", "times", "trap", "unset"]

structure Simple where
  assignments : List (String × Word) := []
  words : List Word := []
  redirections : List Redirection := []

/-- A simple command, or the definition of a function. -/
def simple (inner : Inner) (line : Nat) : Nat → Simple → Reading Command
  | 0, _ => throw .exhausted
  | fuel + 1, s => do
    match ← token inner { aliases := s.words.isEmpty } with
    | .word =>
      let w := (← get).word
      match if s.words.isEmpty then assignment? w else none with
      | some a => simple inner line fuel { s with assignments := a :: s.assignments }
      | none => simple inner line fuel { s with words := w :: s.words }
    | .redirection =>
      let r ← redirection inner
      simple inner line fuel { s with redirections := r :: s.redirections }
    | t =>
      match t, s.words, s.assignments, s.redirections with
      | .operator "(", [name], [], [] =>
        demand inner (.operator ")")
        match plain? name with
        | some cs =>
          let name := String.ofList cs
          if !isName cs || specialNames.contains name then malformed "Bad function name"
          modify fun r => { r with expected := atNextCommand }
          let line := (← get).line
          return .define line name (← inner .command)
        | none => malformed "Bad function name"
      | _, _, _, _ =>
        pushBack
        return .simple line s.assignments.reverse s.words.reverse s.redirections.reverse

/-- Several commands as one. -/
def joined : List Command → Command
  | [c] => c
  | cs => .sequence cs

def body (inner : Inner) : Reading Command := do return joined (← inner (.list false))

/-- What follows `if` or `elif`. -/
def branches (inner : Inner) : Nat → Reading Command
  | 0 => throw .exhausted
  | fuel + 1 => do
    let test ← body inner
    demand inner (.keyword "then")
    let then_ ← body inner
    match ← anyToken inner with
    | .keyword "elif" => return .branch test then_ [← branches inner fuel]
    | .keyword "else" => return .branch test then_ [← body inner]
    | _ =>
      pushBack
      return .branch test then_ []

/-- Words up to a token that is none. -/
def wordList (inner : Inner) : Nat → Reading (List Word)
  | 0 => throw .exhausted
  | fuel + 1 => do
    if (← token inner {}) = .word then
      let w := (← get).word
      return w :: (← wordList inner fuel)
    else return []

/-- What follows `for`. -/
def loopOver (inner : Inner) (line fuel : Nat) : Reading Command := do
  let t ← token inner {}
  let r ← get
  match if t = .word && !r.quoted then plain? r.word else none with
  | none => malformed "Bad for loop variable"
  | some cs =>
    if !isName cs then malformed "Bad for loop variable"
    let words : Option (List Word) ←
      match ← token inner atNextCommand with
      | .keyword "in" =>
        let ws ← wordList inner fuel
        let last := (← get).last
        if last ≠ .newline && last ≠ .operator ";" then unexpected none
        pure (some ws)
      | t =>
        if t ≠ .operator ";" then pushBack
        pure none
    if (← token inner atNextCommand) ≠ .keyword "do" then unexpected (some (.keyword "do"))
    return .each line (String.ofList cs) words (← body inner)

/-- The patterns of an arm, up to its closing bracket. -/
def patterns (inner : Inner) : Nat → Reading (List Word)
  | 0 => throw .exhausted
  | fuel + 1 => do
    let w := (← get).word
    if (← token inner {}) = .operator "|" then
      let _ ← token inner {}
      return w :: (← patterns inner fuel)
    else return [w]

/-- The arms of `case`, up to `esac`. -/
def arms (inner : Inner) : Nat → Reading (List (List Word × List Command))
  | 0 => throw .exhausted
  | fuel + 1 => do
    let t ← token inner { skipLines := true, keywords := true }
    if t = .keyword "esac" then return []
    if t = .operator "(" then
      let _ ← token inner {}
    let ws ← patterns inner fuel
    if (← get).last ≠ .operator ")" then unexpected (some (.operator ")"))
    let commands ← inner (.list true)
    match ← token inner { skipLines := true, keywords := true } with
    | .keyword "esac" => return [(ws, commands)]
    | .operator ";;" => return (ws, commands) :: (← arms inner fuel)
    | _ => unexpected (some (.operator ";;"))

/-- What follows `case`. -/
def choice (inner : Inner) (line fuel : Nat) : Reading Command := do
  if (← token inner {}) ≠ .word then unexpected (some .word)
  let subject := (← get).word
  if (← token inner atNextCommand) ≠ .keyword "in" then unexpected (some (.keyword "in"))
  return .choose line subject (← arms inner fuel)

/-- A command with redirections behind it. -/
def redirected (inner : Inner) (line fuel : Nat) (c : Command) : Reading Command := do
  modify fun r => { r with expected := atCommand }
  let rs ← redirections inner fuel
  return match c with
    | .subshell _ body _ _ => .subshell line body rs false
    | c => if rs.isEmpty then c else .redirected line c rs

def command (inner : Inner) : Reading Command := do
  let t ← anyToken inner
  let line := (← get).line
  let fuel := (← size) + 2
  let upTo (last : Token) (c : Reading Command) : Reading Command := do
    let c ← c
    demand inner last
    redirected inner line fuel c
  let loop (whileTrue : Bool) : Reading Command := do
    let test ← body inner
    demand inner (.keyword "do")
    return .loop whileTrue test (← body inner)
  match t with
  | .keyword "if" => upTo (.keyword "fi") (branches inner fuel)
  | .keyword "while" => upTo (.keyword "done") (loop true)
  | .keyword "until" => upTo (.keyword "done") (loop false)
  | .keyword "for" => upTo (.keyword "done") (loopOver inner line fuel)
  | .keyword "case" => do redirected inner line fuel (← choice inner line fuel)
  | .keyword "\x7b" => upTo (.keyword "\x7d") (body inner)
  | .operator "(" =>
    upTo (.operator ")") (do return .subshell line (← body inner) [] false)
  | .word | .redirection =>
    pushBack
    simple inner line fuel {}
  | _ => unexpected none

def stages (inner : Inner) : Nat → Reading (List Command)
  | 0 => throw .exhausted
  | fuel + 1 => do
    let c ← command inner
    if (← anyToken inner) = .operator "|" then
      modify fun r => { r with expected := atNextCommand }
      return c :: (← stages inner fuel)
    else
      pushBack
      return [c]

def pipeline (inner : Inner) : Reading Command := do
  let negated := (← anyToken inner) = .keyword "!"
  if negated then modify fun r => { r with expected := atCommand } else pushBack
  let c ←
    match ← stages inner ((← size) + 2) with
    | [c] => pure c
    | cs => pure (Command.pipeline cs false)
  return if negated then .negated c else c

def andOr (inner : Inner) : Nat → Command → Reading Command
  | 0, _ => throw .exhausted
  | fuel + 1, first => do
    match ← anyToken inner with
    | .operator "&&" =>
      modify fun r => { r with expected := atNextCommand }
      andOr inner fuel (.both first (← pipeline inner))
    | .operator "||" =>
      modify fun r => { r with expected := atNextCommand }
      andOr inner fuel (.either first (← pipeline inner))
    | _ =>
      pushBack
      return first

def inBackground : Command → Command
  | .pipeline cs _ => .pipeline cs true
  | .redirected line c rs => .subshell line c rs true
  | c => .subshell 0 c [] true

/-- How far a list goes. -/
inductive Extent where
  /-- One line of commands. -/
  | line
  /-- All that can be read; there is at least one command unless `empty` says so. -/
  | all (empty : Bool)

/-- Commands behind those that have been read, which are reversed. -/
def listFrom (inner : Inner) (extent : Extent) : Nat → List Command → Reading (List Command)
  | 0, _ => throw .exhausted
  | fuel + 1, done => do
    let expected := match extent with | .line => atCommand | .all _ => atNextCommand
    let t ← token inner expected
    let optional :=
      match extent with
      | .line => false
      | .all empty => empty || !done.isEmpty
    if t = .newline then
      inner .documents
      return done.reverse
    else if t = .finish then
      inner .documents
      pushBack
      return done.reverse
    else
      pushBack
      if optional && t.endsList then return done.reverse
      let first ← pipeline inner
      let c ← andOr inner fuel first
      let t ← anyToken inner
      let done := (if t = .operator "&" then inBackground c else c) :: done
      match t with
      | .finish =>
        inner .documents
        pushBack
        return done.reverse
      | .newline =>
        pushBack
        listFrom inner extent fuel done
      | .operator "&" | .operator ";" => listFrom inner extent fuel done
      | _ =>
        if let .line := extent then unexpected none
        pushBack
        return done.reverse

/-- Readers of nested parts, down to a depth. -/
def inner : Nat → Inner
  | 0 => fun _ => throw .exhausted
  | depth + 1 => fun
    | .list empty => do listFrom (inner depth) (.all empty) ((← size) + 2) []
    | .command => command (inner depth)
    | .operand quoted => do
      let fuel := (← size) + 1
      if quoted then quotedOperand (inner depth) false fuel []
      else openOperand (inner depth) fuel []
    | .arithmetic => do arithmetic (inner depth) ((← size) + 1) 0 []
    | .documents => do documents (inner depth) (← get).pending

end Reading

/-- How deeply commands may be nested in a script. -/
def nestingLimit : Nat := 1000

/-- The commands of the next line, or of as many lines as belong to them. None at the end. -/
def nextLine : Reading (Option (List Command)) := do
  modify fun r => { r with expected := {}, pushed := false, pending := [] }
  let commands ←
    Reading.listFrom (Reading.inner nestingLimit) .line ((← Reading.size) + 2) []
  return if commands.isEmpty && (← get).last = .finish then none else some commands

end EngineBridge.Shell
