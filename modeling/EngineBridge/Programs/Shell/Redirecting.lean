import EngineBridge.Programs.Shell.Expansion

/-!
# Redirections carried out

First the words of all redirections are expanded, then the descriptors are changed one after
another. A change that cannot be made is a failure with status 2.
-/

namespace EngineBridge.Shell

/-- A redirection whose words have been expanded. -/
inductive Redirected where
  | file (descriptor : Nat) (opening : Opening) (path : List Char)
  /-- No source closes the descriptor. -/
  | copy (descriptor : Nat) (source : Option Nat)
  | document (descriptor : Nat) (place : Nat)

namespace Run

/-- The descriptor that a word names; none to close one. -/
def descriptorOf (cs : List Char) : Run (Option Nat) := do
  match cs with
  | ['-'] => return none
  | [c] => if c.isDigit then return some (c.toNat - '0'.toNat) else bad
  | _ => bad
where
  bad : Run (Option Nat) := failWith "Syntax error: Bad fd number"

def expandRedirection (nested : Nested) : Redirection → Run Redirected
  | .file n opening w => do return .file n opening (← expandText nested w)
  | .copy n w => do return .copy n (← descriptorOf (← expandText nested w))
  | .document n place => return .document n place

/-- Fail to open a file, which was to be made if `creating` says so. -/
def cannotOpen {α : Type} (creating : Bool) (path : List Char) (reason : String) : Run α :=
  fail ((if creating then "cannot create " else "cannot open ").toList ++ path ++
    (": " ++ reason).toList)

/-- Why a file cannot be opened or made. -/
def openingReason (creating : Bool) : SystemError → String
  | .notFound | .notDirectory => if creating then "Directory nonexistent" else "No such file"
  | .isDirectory => "Is a directory"
  | .nameTooLong => "File name too long"
  | .tooManyLinks => "Too many levels of symbolic links"
  | _ => "Permission denied"

/-- What a device leads to. -/
def openDevice (creating : Bool) (path : List Char) : Files.Device → Run Target
  | .descriptor n => do
    match (← get).descriptors.lookup n with
    | some target => return target
    | none => cannotOpen creating path (openingReason creating .notFound)
  | d => return .device d

/-- Open a file for reading. -/
def openToRead (path : List Char) : Run Target := do
  let s ← get
  match s.files.find s.directory path with
  | .ok (.device d) => openDevice false path d
  | .ok .directory => return .directory
  | .ok (.file content) => return .stream (← newStream { rest := content })
  | .ok _ => return .stream (← newStream {})
  | .error e => cannotOpen false path (openingReason false e)

/-- Open a file for writing; `keeps` says that what is in it stays. -/
def openToWrite (path : List Char) (keeps careful : Bool) : Run Target := do
  let s ← get
  let trouble {α : Type} (e : SystemError) : Run α := cannotOpen true path (openingReason true e)
  match s.files.locate s.directory path true with
  | .error e => trouble e
  | .ok (p, node) =>
    match node with
    | none =>
      if path.getLast? = some '/' then trouble .isDirectory
      set { s with files := s.files.insert p (.file []) }
      return .file p
    | some (.file _) =>
      if careful then cannotOpen true path "File exists"
      if !keeps then set { s with files := s.files.insert p (.file []) }
      return .file p
    | some (.device d) => openDevice true path d
    | some .directory => trouble .isDirectory
    | some (.program _) | some (.link _) => trouble .denied

/-- Change a descriptor as a redirection says. -/
def redirect (nested : Nested) : Redirected → Run Unit
  | .file n opening path => do
    let target ←
      match opening with
      | .read => openToRead path
      | .readWrite =>
        let _ ← openToWrite path true false
        openToRead path
      | .write careful => openToWrite path false (careful && (← hasOption 'C'))
      | .append => openToWrite path true false
    setDescriptor n (some target)
  | .copy n source => do
    match source with
    | none => setDescriptor n none
    | some m =>
      match (← get).descriptors.lookup m with
      | some target => setDescriptor n (some target)
      | none => failWith (m.repr ++ ": Bad file descriptor")
  | .document n place => do
    let w := ((← get).documents[place]?).getD []
    let text ← expandText nested w
    setDescriptor n (some (.stream (← newStream { rest := text })))

/-- Run, and say whether that has not failed. -/
def succeeds (act : Run Unit) : Run Bool := do
  match ← attempt act with
  | none => return true
  | some .failure => return false
  | some e => throw e

/-- Run with descriptors as redirections say. If they cannot be carried out, the status is 2 and
`otherwise` follows. -/
def redirecting (nested : Nested) (rs : List Redirection) (otherwise act : Run Unit) :
    Run Unit := do
  if rs.isEmpty then act
  else
    let ready ← rs.mapM (expandRedirection nested)
    withDescriptors (return ()) do
      if ← succeeds (ready.forM (redirect nested)) then act else otherwise

end Run

end EngineBridge.Shell
