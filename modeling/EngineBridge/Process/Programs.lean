import EngineBridge.Process.Child
import EngineBridge.Programs.Shell.Run
import EngineBridge.Settings.File

/-!
# Programs

The programs that can be started as children, and how a command names one. They and the modules
under `Programs` stand in for an operating system, so that whole sessions can be run with a shell
for an interpreter. No theorem is about them: what is proved of children is proved of any child.
-/

namespace EngineBridge

/-- What a path leads to in a tree of files. -/
def Stored.ofTree (files : Files.Tree) (here : Files.Path) (path : String) : Stored :=
  match files.read here (Text.byteChars (Text.utf8 path)) with
  | .ok cs => .file (Text.charBytes cs)
  | .error .notFound => .nothing
  | .error _ => .unreadable

namespace Programs

open Text (Bytes)

def ofText (s : String) : List Char := Text.byteChars (Text.utf8 s)

/-- What a child finds around itself. -/
structure Surroundings where
  files : Files.Tree := Files.system Shell.Tool.names
  /-- The working directory. -/
  directory : List Char := "/root".toList
  environment : List (String × String) :=
    [("HOME", "/root"), ("PATH", Shell.Builtin.standardPath)]

namespace Surroundings

/-- With some variables set anew. -/
def withVariables (around : Surroundings) (env : List (String × String)) : Surroundings :=
  { around with
    environment :=
      around.environment.filter (fun v => (env.lookup v.1).isNone) ++ env }

def path (around : Surroundings) : Files.Path :=
  (Files.components around.directory).filter (!·.isEmpty)

def programAt (around : Surroundings) (path : List Char) : Except SystemError String :=
  match around.files.find around.path path with
  | .ok (.program p) => .ok p
  | .ok _ => .error .denied
  | .error e => .error e

/-- The program that a command means. One without a slash is looked for in the directories of the
search path; that one of them must not be looked into is remembered. -/
def program? (around : Surroundings) (command : List Char) : Except SystemError String :=
  if command.isEmpty then .error .notFound
  else if command.contains '/' then around.programAt command
  else if Files.nameLimit < command.length then .error .nameTooLong
  else
    let dirs := (around.environment.lookup "PATH").getD Shell.Builtin.systemPath
    search .notFound (Shell.Builtin.below (ofText dirs) command)
where
  search (reason : SystemError) : List (List Char) → Except SystemError String
    | [] => .error reason
    | p :: rest =>
      match around.programAt p with
      | .ok program => .ok program
      | .error .notFound | .error .notDirectory => search reason rest
      | .error .denied => search .denied rest
      | .error e => .error e

end Surroundings

/-- The timeline of a run. -/
def timeline (r : Option Shell.Interrupt × List Shell.Event) : Timeline where
  emissions := r.2.filterMap fun
    | .write n cs => if n = Shell.outputSink then some (.bytes (Text.charBytes cs)) else none
    | .pause ms => some (.pause ms)
  standing :=
    match r.1 with
    | some .waiting => .waiting
    | some .busy => .busy
    | _ => .closed

/-- The state in which a program with this input starts. -/
def start (around : Surroundings) (input : Bytes) : Shell.State where
  scope := around.environment.reverse.map fun (k, v) =>
    (k, { value := some (ofText v), exported := true })
  descriptors :=
    [(0, .stream 0), (1, .sink Shell.outputSink), (2, .sink Shell.diagnosticSink)]
  streams := #[{ rest := Text.byteChars input, more := true }]
  files := around.files
  directory := around.path
  directoryName := around.directory

/-- A child that runs a program. -/
def child (around : Surroundings) (program command : String) (args : List String) : Child :=
  fun input =>
    timeline (Shell.perform program (ofText command) (args.map ofText) (start around input))

/-- Start a command: what it does with its input, or why it cannot be started. -/
def launch (around : Surroundings) (command : String) (args : List String)
    (env : List (String × String)) : Except SystemError Child :=
  let texts := command :: args ++ env.flatMap fun (k, v) => [k, v]
  if texts.any (·.contains '\x00') then .error .nulByte
  else
    let around := around.withVariables env
    (around.program? (ofText command)).map fun program =>
      match program, args with
      | "cat", [] => Child.echo
      | program, args => child around program command args

end Programs

end EngineBridge
