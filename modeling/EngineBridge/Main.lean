import EngineBridge.CommandLine.Run
import EngineBridge.Process.Programs

/-!
# The program
-/

namespace EngineBridge

/-- What is stored at a path. -/
def storedAt (path : String) : IO Stored := do
  try
    return .file (← IO.FS.readBinFile path).toList
  catch e =>
    match e with
    | .noFileOrDirectory .. => return .nothing
    | _ => return .unreadable

/-- All that is left of a stream. -/
partial def readToEnd (stream : IO.FS.Stream) (sofar : ByteArray) : IO ByteArray := do
  let bytes ← stream.read 65536
  if bytes.isEmpty then return sofar else readToEnd stream (sofar ++ bytes)

def Request.outcome : Request → IO Outcome
  | .help => return .help
  | .version => return .version
  | .run o => do
    let home := (← IO.getEnv "HOME").getD "."
    let path := o.configPath home
    let stored ← storedAt path
    let around : Programs.Surroundings := {}
    let input ← if o.listing then pure ByteArray.empty else readToEnd (← IO.getStdin) .empty
    let start (m : ModuleSettings) := Programs.launch around m.command m.args m.env
    return o.perform start path stored input.toList

/-- Print what is to be printed, and give the exit code. -/
def Outcome.report (r : Outcome) : IO UInt32 := do
  let stdout ← IO.getStdout
  stdout.write ⟨r.output.toArray⟩
  stdout.flush
  for line in r.diagnostics do
    IO.eprintln line
  return .ofNat r.exit

end EngineBridge

def main (args : List String) : IO UInt32 := do
  match EngineBridge.Request.parse? args with
  | none => EngineBridge.Outcome.usage.report
  | some request => (← request.outcome).report
