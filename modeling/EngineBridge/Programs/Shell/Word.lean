import EngineBridge.Programs.Shell.Reader

/-!
# Words

What makes up a word: quotes, parameters, arithmetic and the output of commands. Where one of these
holds another, that one is read by `inner`.
-/

namespace EngineBridge.Shell.Reading

/-- Characters that a backslash takes the meaning of between double quotes. -/
def escapable : List Char := ['\\', '`', '$', '"']

/-- The source between backquotes. -/
def backquoted (quoted : Bool) : Nat → List Char → Reading (List Char)
  | 0, _ => throw .exhausted
  | fuel + 1, done => do
    match ← next with
    | none => malformed "EOF in backquote substitution"
    | some '`' => return done.reverse
    | some '\\' =>
      match ← peekRaw with
      | none => malformed "EOF in backquote substitution"
      | some c =>
        skip
        if c = '\\' || c = '`' || c = '$' || (quoted && c = '"') then
          backquoted quoted fuel (c :: done)
        else backquoted quoted fuel (c :: '\\' :: done)
    | some c => backquoted quoted fuel (c :: done)

/-- Read from another source, and come back. -/
def within {α : Type} (source : List Char) (act : Reading α) : Reading α := do
  let outer ← get
  set { outer with
    rest := source, more := false, line := 1, replacements := [], expected := {}
    pushed := false, pending := [] }
  let a ← act
  modify fun r => { outer with documents := r.documents }
  return a

/-- Commands between backquotes. What follows them there is passed over. -/
def oldOutput (inner : Inner) (quoted : Bool) : Reading Part := do
  let source ← backquoted quoted ((← size) + 1) []
  return .output (← within source (inner (.list true))) quoted

/-- The name at the head of a parameter in braces, and whether its length is asked for. -/
def bracedName (fuel : Nat) : Reading (Option (List Char × Bool)) := do
  match ← peek with
  | none => return none
  | some c =>
    if isNameStart c then return some (← takeWhile isNameChar fuel [], false)
    else if c.isDigit then return some (← takeWhile Char.isDigit fuel [], false)
    else if c = '\x7d' then return none
    else
      skip
      if c ≠ '#' then return if isSpecial c then some ([c], false) else none
      else
        match ← peek with
        | none => return some ([c], false)
        | some d =>
          if isNameStart d then return some (← takeWhile isNameChar fuel [], true)
          else if d.isDigit then return some (← takeWhile Char.isDigit fuel [], true)
          else
            let before ← get
            skip
            if d ≠ '\x7d' && (← peek) = some '\x7d' then
              return if isSpecial d then some ([d], true) else none
            else
              set before
              return some ([c], false)

/-- The operator behind the name of a parameter in braces, and whether a colon is before it. -/
def modifier : Reading (Modifier × Bool) := do
  let colon ← accept ':'
  match ← next with
  | some '\x7d' => return (if colon then .malformed else .plain, colon)
  | some '-' => return (.fallback, colon)
  | some '+' => return (.replacement, colon)
  | some '=' => return (.assignment, colon)
  | some '?' => return (.requirement, colon)
  | some '%' =>
    if colon then return (.malformed, colon) else return (.dropTail (← accept '%'), false)
  | some '#' =>
    if colon then return (.malformed, colon) else return (.dropHead (← accept '#'), false)
  | _ => return (.malformed, colon)

/-- A parameter in braces, behind the opening one. -/
def braced (inner : Inner) (quoted : Bool) : Reading Part := do
  let fuel := (← size) + 1
  match ← bracedName fuel with
  | none => return .param "" .malformed false (← inner (.operand quoted)) quoted
  | some (name, true) =>
    let m := if (← peek) = some '\x7d' then .length else .malformed
    return .param (String.ofList name) m false (← inner (.operand quoted)) quoted
  | some (name, false) =>
    let (m, colon) ← modifier
    let operand ←
      match m with
      | .plain => pure []
      | .dropHead _ | .dropTail _ => inner (.operand false)
      | _ => inner (.operand quoted)
    return .param (String.ofList name) m colon operand quoted

/-- Commands between `$(` and the bracket that closes them. -/
def newOutput (inner : Inner) (quoted : Bool) : Reading Part := do
  let outer ← get
  set { outer with pending := [], expected := {}, pushed := false }
  let body ← inner (.list true)
  let r ← get
  if r.last ≠ .operator ")" then
    malformed (r.last.shown ++ " unexpected (expecting \")\")")
  set { r with pushed := false }
  inner .documents
  modify fun r =>
    { r with pending := outer.pending, expected := outer.expected, quoted := outer.quoted }
  return .output body quoted

/-- What follows a dollar sign. -/
def dollar (inner : Inner) (quoted : Bool) : Reading Part := do
  if (← get).expected.delimiter then return .char '$' quoted
  match ← peek with
  | none => return .char '$' quoted
  | some '(' =>
    skip
    if ← accept '(' then return .arithmetic (← inner .arithmetic) quoted
    else newOutput inner quoted
  | some '\x7b' =>
    skip
    braced inner quoted
  | some c =>
    if isNameStart c then
      let name ← takeWhile isNameChar ((← size) + 1) []
      return .param (String.ofList name) .plain false [] quoted
    else if c.isDigit || isSpecial c then
      skip
      return .param (String.ofList [c]) .plain false [] quoted
    else return .char '$' quoted

/-- A backquote, or what it begins. -/
def backquote (inner : Inner) (quoted : Bool) : Reading Part := do
  if (← get).expected.delimiter then return .char '`' quoted else oldOutput inner quoted

/-- Text between double quotes, behind a word that is reversed. Inside a parameter a closing brace
may be escaped. -/
def doubleQuoted (inner : Inner) (inParameter : Bool) : Nat → Word → Reading Word
  | 0, _ => throw .exhausted
  | fuel + 1, done => do
    match ← next with
    | none => malformed "Unterminated quoted string"
    | some '"' => return done
    | some '\\' =>
      let special := if inParameter then '\x7d' :: escapable else escapable
      doubleQuoted inner inParameter fuel (← escaped special done)
    | some '$' => doubleQuoted inner inParameter fuel ((← dollar inner true) :: done)
    | some '`' => doubleQuoted inner inParameter fuel ((← backquote inner true) :: done)
    | some c => doubleQuoted inner inParameter fuel (.char c true :: done)

/-- Quotes, a backslash, or a dollar sign outside of double quotes; none if there is no such thing.
Behind a word that is reversed. -/
def unquoted (inner : Inner) (inParameter : Bool) (c : Char) (done : Word) :
    Reading (Option Word) := do
  let quote (w : Reading Word) : Reading (Option Word) := do
    skip
    let w ← w
    modify fun r => { r with quoted := true }
    return some (.mark :: w)
  let plain (p : Reading Part) : Reading (Option Word) := do
    skip
    return some ((← p) :: done)
  match c with
  | '\'' => quote (do singleQuoted ((← size) + 1) (.mark :: done))
  | '"' => quote (do doubleQuoted inner inParameter ((← size) + 1) (.mark :: done))
  | '\\' =>
    skip
    modify fun r => { r with quoted := true }
    match ← peekRaw with
    | none => return some (.char '\\' true :: done)
    | some e =>
      skip
      return some (.char e true :: done)
  | '$' => plain (dollar inner false)
  | '`' => plain (backquote inner false)
  | _ => return none

/-- An operand outside of double quotes. -/
def openOperand (inner : Inner) : Nat → Word → Reading Word
  | 0, _ => throw .exhausted
  | fuel + 1, done => do
    match ← peek with
    | none => malformed "Missing '\x7d'"
    | some '\x7d' =>
      skip
      return done.reverse
    | some c =>
      match ← unquoted inner true c done with
      | some done => openOperand inner fuel done
      | none =>
        skip
        openOperand inner fuel (.char c false :: done)

/-- An operand between double quotes, where further double quotes hide a closing brace. -/
def quotedOperand (inner : Inner) (hidden : Bool) : Nat → Word → Reading Word
  | 0, _ => throw .exhausted
  | fuel + 1, done => do
    match ← next with
    | none => malformed "Unterminated quoted string"
    | some '\x7d' =>
      if hidden then quotedOperand inner hidden fuel (.char '\x7d' true :: done)
      else return done.reverse
    | some '"' => quotedOperand inner (!hidden) fuel done
    | some '\\' => quotedOperand inner hidden fuel (← escaped ('\x7d' :: escapable) done)
    | some '$' => quotedOperand inner hidden fuel ((← dollar inner true) :: done)
    | some '`' => quotedOperand inner hidden fuel ((← backquote inner true) :: done)
    | some c => quotedOperand inner hidden fuel (.char c true :: done)

/-- What stands between the brackets of an arithmetic expansion. -/
def arithmetic (inner : Inner) : Nat → Nat → Word → Reading Word
  | 0, _, _ => throw .exhausted
  | fuel + 1, depth, done => do
    match ← next with
    | none => malformed "Missing '))'"
    | some '(' => arithmetic inner fuel (depth + 1) (.char '(' true :: done)
    | some ')' =>
      if 0 < depth then arithmetic inner fuel (depth - 1) (.char ')' true :: done)
      else if ← accept ')' then return done.reverse
      else arithmetic inner fuel depth (.char ')' true :: done)
    | some '\\' => arithmetic inner fuel depth (← escaped escapable done)
    | some '`' => arithmetic inner fuel depth ((← oldOutput inner true) :: done)
    | some '$' => arithmetic inner fuel depth ((← dollar inner true) :: done)
    | some c => arithmetic inner fuel depth (.char c true :: done)

/-- Characters in front of which a word ends. -/
def endsWord (c : Char) : Bool :=
  [' ', '\t', '\n', ';', '&', '|', '(', ')', '<', '>'].contains c

/-- The parts of a word. -/
def parts (inner : Inner) : Nat → Word → Reading Word
  | 0, _ => throw .exhausted
  | fuel + 1, done => do
    match ← peek with
    | none => return done.reverse
    | some c =>
      if endsWord c then return done.reverse
      else
        match ← unquoted inner false c done with
        | some done => parts inner fuel done
        | none =>
          skip
          parts inner fuel (.char c false :: done)

/-- Drop this text. Of another one a part may be dropped. -/
def follows : List Char → Reading Bool
  | [] => return true
  | c :: rest => do
    if (← peekRaw) = some c then
      skip
      follows rest
    else return false

def dropTabs : Nat → Reading Unit
  | 0 => return ()
  | fuel + 1 => do
    if (← peekRaw) = some '\t' then
      skip
      dropTabs fuel

/-- Drop the next line if it ends a here-document. -/
def endLine (d : Pending) : Reading Bool := do
  if d.stripTabs then dropTabs ((← size) + 1)
  let start ← get
  if ← follows d.delimiter then
    match ← peekRaw with
    | none =>
      modify fun r => { r with line := r.line + 1 }
      return true
    | some c =>
      if c = '\n' then
        skip
        return true
  set start
  return false

/-- The text of a here-document, behind a word that is reversed. -/
def documentText (inner : Inner) (d : Pending) : Nat → Bool → Word → Reading Word
  | 0, _, _ => throw .exhausted
  | fuel + 1, atStart, done => do
    if !d.literal then
      let _ ← peek
    if atStart then
      if ← endLine d then return done.reverse
    if d.literal then
      match ← peekRaw with
      | none => return done.reverse
      | some c =>
        skip
        documentText inner d fuel (c = '\n') (.char c true :: done)
    else
      match ← next with
      | none => return done.reverse
      | some '\\' =>
        documentText inner d fuel false (← escaped ['\\', '`', '$'] done)
      | some '$' => documentText inner d fuel false ((← dollar inner true) :: done)
      | some '`' => documentText inner d fuel false ((← oldOutput inner true) :: done)
      | some c => documentText inner d fuel (c = '\n') (.char c true :: done)

/-- Read the here-documents that are due. -/
def documents (inner : Inner) : List Pending → Reading Unit
  | [] => modify fun r => { r with pending := [] }
  | d :: rest => do
    let text ← documentText inner d ((← size) + 2) true []
    modify fun r => { r with documents := r.documents.setIfInBounds d.place text }
    documents inner rest

end EngineBridge.Shell.Reading
