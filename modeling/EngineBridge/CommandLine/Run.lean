import EngineBridge.CommandLine.Options
import EngineBridge.Process.Configured
import EngineBridge.Settings.File
import EngineBridge.Serve.Network

/-!
# What the program does

A command line, a configuration file and an input give an output, diagnostics and an exit code.
-/

namespace EngineBridge

structure Outcome where
  exit : Nat
  output : Text.Bytes := []
  /-- Lines for the diagnostics. -/
  diagnostics : List String := []
  deriving DecidableEq, Repr

namespace CommandLine

/-- The line that lists a module, with its name in a column of sixteen characters. -/
def listingLine (name description : String) : String :=
  let fill := String.ofList (List.replicate (16 - name.length) ' ')
  "  " ++ name ++ fill ++ " " ++ description ++ "\n"

def listing (modules : List (String × String)) : String :=
  if modules.isEmpty then "no modules configured\n"
  else String.join (modules.map fun (name, description) => listingLine name description)

def helpText : String :=
  "\n".intercalate [
    "Relay commands between a host and an isolated Forth interpreter.",
    "",
    "Usage: forth-bridge [OPTIONS] [COMMAND]",
    "",
    "Commands:",
    "  modules  List the engine modules the config file defines",
    "  help     Print this message or the help of the given subcommand(s)",
    "",
    "Options:",
    "  -c, --config <CONFIG>            Config file (default: ~/.forth-bridge/config.toml)",
    "  -m, --module <MODULE>            Load this module at startup instead of waiting for an " ++
      "initialize message",
    "      --policy <POLICY>            What to do with commands sent before the engine is " ++
      "ready [possible values: queue, reject]",
    "  -t, --timeout-ms <TIMEOUT_MS>    Per-command execution timeout in milliseconds",
    "      --max-pending <MAX_PENDING>  Maximum commands buffered while the engine loads",
    "      --text                       Plain-text framing: every input line is a command, " ++
      "output is raw",
    "      --log-level <LOG_LEVEL>      Log filter, e.g. \"info\" or " ++
      "\"forth_bridge=debug\" [default: info]",
    "  -h, --help                       Print help",
    "  -V, --version                    Print version",
    ""]

end CommandLine

namespace Options

open CommandLine

/-- The file that holds the configuration. -/
def configPath (o : Options) (home : String) : String :=
  o.config.getD ("/".intercalate (home :: Config.pathInHome))

/-- The settings of the configuration, under those of the command line. -/
def settings (o : Options) (b : BridgeSettings) : BridgeSettings :=
  { b with
    pendingPolicy := o.policy.getD b.pendingPolicy
    execTimeout := o.execTimeout.getD b.execTimeout
    maxPending := o.maxPending.getD b.maxPending }

def framing (o : Options) : Framing := if o.text then .text else .json

/-- Text framing cannot ask for a load, so it begins with one. -/
def first (o : Options) : Option Control :=
  if o.module.isSome || o.text then some (.start o.module) else none

/-- Serve the input to its end. -/
def serve (o : Options) (launch : Launcher) (c : Config) (input : Text.Bytes) : Outcome :=
  let v : Service ChildInterpreter :=
    .create (c.registry launch) (o.settings c.bridge) o.framing o.first
      (.ofSegments [.data input]) none
  let v := v.run
  let failure := v.fault?.map fun f => "error: " ++ f.message
  { exit := 0, output := v.sink.bytes, diagnostics := v.diagnostics.reverse ++ failure.toList }

/-- Do what the options ask for, with the configuration that is stored at `path`. -/
def perform (o : Options) (launch : Launcher) (path : String) (stored : Stored)
    (input : Text.Bytes) : Outcome :=
  match Config.load path stored with
  | .error e => { exit := 1, diagnostics := ["Error: " ++ e.message] }
  | .ok c =>
    if o.listing then
      { exit := 0, output := Text.utf8 (CommandLine.listing (c.registry launch).descriptions) }
    else o.serve launch c input

end Options

namespace Outcome

/-- The command line is not in order. -/
def usage : Outcome := { exit := 2, diagnostics := ["For more information, try '--help'."] }

def help : Outcome := { exit := 0, output := Text.utf8 CommandLine.helpText }

def version : Outcome :=
  { exit := 0, output := Text.utf8 (CommandLine.programName ++ " " ++ CommandLine.version ++ "\n") }

end Outcome

end EngineBridge
