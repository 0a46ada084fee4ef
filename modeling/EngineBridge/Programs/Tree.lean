import EngineBridge.Fault

/-!
# The tree of files

Files by their absolute paths, and what a path written in bytes leads to. Characters stand for
single bytes.
-/

namespace EngineBridge.Files

/-- The names on the way from the root. -/
abbrev Path := List (List Char)

inductive Device where
  /-- It takes everything and gives nothing. -/
  | null
  /-- It takes everything and gives zero bytes without an end. -/
  | zero
  /-- It takes nothing. -/
  | full
  /-- What a process has open under this number. -/
  | descriptor (n : Nat)
  deriving DecidableEq, Repr

inductive Node where
  | directory
  | file (content : List Char)
  /-- A file that can be run. -/
  | program (name : String)
  | device (d : Device)
  | link (target : Path)
  deriving DecidableEq, Repr

abbrev Tree := List (Path × Node)

/-- Bytes that a name may have. -/
def nameLimit : Nat := 255

/-- Bytes that a whole path has to stay below. -/
def pathLimit : Nat := 4096

/-- Links that are followed on one way. -/
def linkLimit : Nat := 40

/-- The names between the slashes. -/
def components : List Char → List (List Char)
  | [] => [[]]
  | c :: rest =>
    if c = '/' then [] :: components rest
    else
      match components rest with
      | [] => [[c]]
      | name :: names => (c :: name) :: names

namespace Tree

/-- What has exactly this path. The root is always there. -/
def get? (t : Tree) (p : Path) : Option Node :=
  if p.isEmpty then some .directory else (t.find? (·.1 = p)).map (·.2)

def insert (t : Tree) (p : Path) (n : Node) : Tree := (p, n) :: t.filter (·.1 ≠ p)

def erase (t : Tree) (p : Path) : Tree := t.filter (·.1 ≠ p)

/-- The names in a directory. -/
def names (t : Tree) (p : Path) : List (List Char) :=
  t.filterMap fun e => e.1.getLast?.filter fun _ => e.1.dropLast = p

/-- Walk on from `here` by names. The end need not be there, but all before it must be directories.
A link is followed, at the end only if `follow` says so. -/
def walk (t : Tree) (follow : Bool) : Nat → Path → List (List Char) →
    Except SystemError (Path × Option Node)
  | 0, _, _ => .error .tooManyLinks
  | _, here, [] => .ok (here, t.get? here)
  | fuel + 1, here, name :: rest =>
    if t.get? here ≠ some .directory then .error .notDirectory
    else if name.isEmpty || name = ['.'] then walk t follow fuel here rest
    else if name = ['.', '.'] then walk t follow fuel here.dropLast rest
    else if nameLimit < name.length then .error .nameTooLong
    else
      match t.get? (here ++ [name]) with
      | none =>
        if rest.all (·.isEmpty) then .ok (here ++ [name], none) else .error .notFound
      | some (.link target) =>
        if rest.isEmpty && !follow then .ok (here ++ [name], some (.link target))
        else walk t follow fuel [] (target ++ rest)
      | some _ => walk t follow fuel (here ++ [name]) rest

/-- Where a path leads to, from a working directory. -/
def locate (t : Tree) (here : Path) (path : List Char) (follow : Bool) :
    Except SystemError (Path × Option Node) :=
  if path.isEmpty then .error .notFound
  else if pathLimit ≤ path.length then .error .nameTooLong
  else
    let start := if path.head? = some '/' then [] else here
    walk t follow (path.length + linkLimit * 8) start (components path)

/-- What is at the end of a path. -/
def find (t : Tree) (here : Path) (path : List Char) : Except SystemError Node :=
  match t.locate here path true with
  | .ok (_, some n) => .ok n
  | .ok (_, none) => .error .notFound
  | .error e => .error e

/-- The bytes of a file. A device that has no end gives none here. -/
def read (t : Tree) (here : Path) (path : List Char) : Except SystemError (List Char) :=
  match t.find here path with
  | .ok (.file content) => .ok content
  | .ok (.device _) => .ok []
  | .ok (.program _) => .error .badText
  | .ok .directory => .error .isDirectory
  | .ok (.link _) => .error .notFound
  | .error e => .error e

end Tree

/-- The path of a text without `.` and `..`. -/
def pathOf (s : String) : Path := (components s.toList).filter (!·.isEmpty)

/-- Directories that a system has. -/
def directories : List String :=
  ["usr", "usr/bin", "usr/sbin", "usr/lib", "usr/lib64", "usr/local", "usr/local/bin",
    "usr/local/sbin", "usr/local/lib", "usr/share", "usr/include", "usr/src", "etc", "dev",
    "dev/shm", "dev/pts", "dev/fd", "proc", "proc/self", "proc/self/fd", "sys", "tmp", "root",
    "home", "var", "var/tmp", "var/lib", "var/log", "var/cache", "opt", "run", "srv", "mnt",
    "media", "boot"]

/-- Directories that stand in two places. -/
def links : List (String × String) :=
  [("bin", "usr/bin"), ("sbin", "usr/sbin"), ("lib", "usr/lib"), ("lib64", "usr/lib64")]

/-- Files with text, as far as it is known. -/
def texts : List (String × String) :=
  [("etc/passwd", "root:x:0:0:root:/root:/bin/bash\n"), ("etc/group", "root:x:0:\n"),
    ("etc/hostname", "localhost\n"), ("etc/hosts", "127.0.0.1\tlocalhost\n"),
    ("proc/self/status", "Name:\tsh\n")]

/-- A system on which these programs are installed. -/
def system (programs : List String) : Tree :=
  directories.map (fun d => (pathOf d, .directory)) ++
    links.map (fun l => (pathOf l.1, .link (pathOf l.2))) ++
    texts.map (fun f => (pathOf f.1, .file f.2.toList)) ++
    [(pathOf "dev/null", .device .null), (pathOf "dev/zero", .device .zero),
      (pathOf "dev/full", .device .full), (pathOf "dev/stdin", .device (.descriptor 0)),
      (pathOf "dev/stdout", .device (.descriptor 1)),
      (pathOf "dev/stderr", .device (.descriptor 2))] ++
    (List.range 10).map (fun n =>
      (pathOf ("dev/fd/" ++ n.repr), .device (.descriptor n))) ++
    programs.map fun p => (pathOf ("usr/bin/" ++ p), .program p)

end EngineBridge.Files
