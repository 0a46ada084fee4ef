import EngineBridge.Programs.Shell.Builtin.Variables

/-!
# Reading input

Lines of the input, cut into variables.
-/

namespace EngineBridge.Shell.Builtin

/-- What has been read of a line, latest first; a character is fixed if it was escaped. -/
structure Line where
  pieces : List Piece := []
  ended : Bool := false

/-- One character of a line. -/
def Line.add (l : Line) (c : Char) (escaped : Bool) : Line :=
  let cutting : Cutting := if escaped then .never else .separators
  match l.pieces with
  | p :: rest =>
    if p.cutting = cutting then
      { l with pieces := { p with atoms := .glyph c true :: p.atoms } :: rest }
    else { l with pieces := ⟨cutting, [.glyph c true]⟩ :: l.pieces }
  | [] => { l with pieces := [⟨cutting, [.glyph c true]⟩] }

/-- Read up to the end of a line; gives the line and the rest. Unless `raw`, a backslash joins lines
and fixes what follows it. -/
def lineOf (raw : Bool) : List Char → Line → Line × List Char
  | [], l => (l, [])
  | '\\' :: c :: rest, l =>
    if raw then lineOf raw (c :: rest) (l.add '\\' false)
    else if c = '\n' then lineOf raw rest { l with pieces := ⟨.separators, []⟩ :: l.pieces }
    else lineOf raw rest (l.add c true)
  | c :: rest, l =>
    if c = '\n' then ({ l with ended := true }, rest)
    else if c = '\x00' || (c = '\\' && !raw) then lineOf raw rest l
    else lineOf raw rest (l.add c false)

/-- Give the fields of a line to variables; what is left over is empty. -/
def assignFields : List String → List (List Char) → Run Unit
  | [], _ => return ()
  | name :: names, fields => do
    checked name
    Run.assign name (fields.head?.getD [])
    assignFields names (fields.drop 1)

def read (args : Args) : Run Unit := do
  let (opts, names) ← options "p:r" args
  if names.isEmpty then Run.failWith "arg count"
  match ← Run.streamOf 0 with
  | none =>
    assignFields (names.map String.ofList) []
    Run.setStatus 1
  | some (n, stream) =>
    let raw := opts.any (·.1 = 'r')
    let (line, rest) := lineOf raw stream.rest {}
    if !line.ended && stream.more then
      Run.setStream n { stream with rest := [] }
      throw .waiting
    Run.setStream n { stream with rest }
    let pieces := line.pieces.reverse.map fun p => { p with atoms := p.atoms.reverse }
    let fields := Fields.split (← Run.separators) (some names.length) pieces
    let texts := fields.map fun as => (atomGlyphs as).map (·.1)
    Run.setStatus (if line.ended then 0 else 1)
    assignFields (names.map String.ofList) texts

end EngineBridge.Shell.Builtin
