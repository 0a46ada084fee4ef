import EngineBridge.Process.Sync
import EngineBridge.Text.Blank
import EngineBridge.Engine.Registry
import EngineBridge.Settings.Basic

/-!
# External interpreters

An interpreter that is a child process. It is started when it is needed, and given up as soon as it
is unclear what its output belongs to.
-/

namespace EngineBridge

open Text (Bytes)

/-- A child that runs. -/
structure Running where
  /-- How many starts came before its own. -/
  serial : Nat
  child : Child
  /-- All that it has been sent. -/
  sent : Bytes := []
  /-- Bytes of its output that belong to commands which are over. -/
  taken : Nat := 0

structure ChildInterpreter where
  name : String
  settings : ModuleSettings
  /-- What each start of the command gives. -/
  starts : Nat → Except SystemError Child
  /-- What it takes to kill the child of each start: one waits for its end. -/
  kills : Nat → Script := fun _ => ⟨[.yield], .done⟩
  /-- How many starts there have been. -/
  started : Nat := 0
  running : Option Running := none
  /-- What the last child that was started printed before its first marker. -/
  banner : String := ""

namespace ChildInterpreter

/-- Milliseconds until a child that has been started answers. -/
def startUp : Nat := 1

/-- The context that an external interpreter has. -/
def onlyContext : Nat := 0

/-- A line as it is sent: the text without the line feeds at its end, and one line feed. -/
def sentLine (text : String) : Bytes :=
  Text.utf8 (String.ofList (Text.dropEndWhile (· = '\n') text.toList) ++ "\n")

/-- The child when it has been sent `text` and the sync command. -/
def send (s : ModuleSettings) (r : Running) (text : Option String) : Running :=
  { r with sent := r.sent ++ (text.map sentLine).getD [] ++ sentLine s.syncCommand }

/-- Bytes that are collected before they are sent. -/
def bufferSize : Nat := 8192

/-- The fault of sending so many bytes to a child that has ended. What fits into the buffer is
noticed when the buffer is flushed. -/
def inputClosed (bytes : Nat) : Fault :=
  let f := Fault.ofSystem .brokenPipe
  if bytes ≤ bufferSize then f.context "interpreter closed its input" else f

/-- Send `text` and the sync command, and read up to the marker. Gives the child as it is then. -/
def exchange (s : ModuleSettings) (r : Running) (text : Option String) : Script × Running :=
  let next := send s r text
  if text.isSome && (r.child r.sent).standing = .closed then
    (⟨[.yield], .fault (inputClosed (next.sent.length - r.sent.length))⟩, r)
  else
    let timeline := next.child next.sent
    let result := Sync.listen s.syncCommand s.syncMarker timeline.standing
      (Sync.echoes s.syncCommand s.syncMarker) (timeline.after r.taken)
    (⟨.yield :: result.acts, result.ending⟩, { next with taken := r.taken + result.taken })

/-- Start a child and wait for its first marker. What it prints is not output of any command. A
child whose start is abandoned does not run on. -/
def start (p : ChildInterpreter) : Call ChildInterpreter :=
  let q := { p with started := p.started + 1 }
  match p.starts p.started with
  | .error e =>
    let what := "failed to spawn `" ++ p.settings.command ++ "`"
    .settled ⟨[], .fault ((Fault.ofSystem e).context what)⟩ q
  | .ok child =>
    let (script, r) := exchange p.settings { serial := p.started, child } none
    let quiet := script.acts.filter fun | .emit _ => false | _ => true
    let acts := .sleep startUp :: quiet
    match script.ending with
    | .done =>
      { script := ⟨acts, .done⟩
        after := { q with running := some r, banner := Script.printed script.acts }
        cut := fun _ => q }
    | .fault f =>
      .settled ⟨acts, .fault (f.context ("`" ++ p.name ++ "` did not answer the sync handshake"))⟩ q
    | e => .settled ⟨acts, e⟩ q

/-- One command, on a child that runs. A child that fails is given up; one that is abandoned stays,
and nobody knows how much of its output has been read. -/
def converse (p : ChildInterpreter) (command : String) : Call ChildInterpreter :=
  match p.running with
  | none => .settled ⟨[], .fault (.ofText "interpreter is not running")⟩ p
  | some r =>
    let (script, next) := exchange p.settings r (some command)
    let running : Option Running :=
      match script.ending with
      | .fault _ => none
      | _ => some next
    { script
      after := { p with running }
      cut := fun _ => { p with running := some (send p.settings r (some command)) } }

/-- One command; a child is started first if none runs. -/
def execute (p : ChildInterpreter) (context : Nat) (command : String) :
    Call ChildInterpreter :=
  if context ≠ onlyContext then
    .settled ⟨[], .fault (.ofText ("context " ++ context.repr ++ " is not available"))⟩ p
  else if p.running.isSome then p.converse command
  else
    let first := p.start
    match first.script.ending with
    | .done =>
      let second := first.after.converse command
      let count := first.script.acts.length
      { script := ⟨first.script.acts ++ second.script.acts, second.script.ending⟩
        after := second.after
        cut := fun n => if n < count then first.cut n else second.cut (n - count) }
    | _ => first

/-- Kill the child, if one runs. -/
def recover (p : ChildInterpreter) : Script × ChildInterpreter :=
  match p.running with
  | none => (.nothing, p)
  | some r =>
    let kill := p.kills r.serial
    let ending : Ending :=
      match kill.ending with
      | .fault f => .fault (f.context "failed to kill interpreter")
      | e => e
    (⟨kill.acts, ending⟩, { p with running := none })

/-- The first line of the banner that is not blank. -/
def version (p : ChildInterpreter) : Option String :=
  let lines := (p.banner.splitOn "\n").map Text.trimBlank
  lines.find? (! ·.isEmpty)

instance : Interpreter ChildInterpreter where
  execute := execute
  recover p := some p.recover
  version := version

/-- The module of a configured interpreter. -/
def module (name : String) (settings : ModuleSettings)
    (starts : Nat → Except SystemError Child) : Module ChildInterpreter :=
  let first := start { name, settings, starts }
  { name, description := settings.describe, starting := first.script, engine := first.after }

end ChildInterpreter

end EngineBridge
