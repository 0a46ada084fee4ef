/-!
# Settings

What a bridge can be told, how an external interpreter is started and spoken to, and the values
that hold where nothing is said.
-/

namespace EngineBridge

/-- What happens to a command that arrives before the engine is ready. -/
inductive PendingPolicy where
  /-- It waits, and is run once the engine is ready. -/
  | queue
  /-- It is answered with an error. -/
  | reject
  deriving DecidableEq, Repr

namespace PendingPolicy

def all : List PendingPolicy := [.queue, .reject]

def name : PendingPolicy → String
  | .queue => "queue"
  | .reject => "reject"

end PendingPolicy

structure BridgeSettings where
  pendingPolicy : PendingPolicy := .queue
  /-- How many commands may wait. -/
  maxPending : Nat := 256
  execTimeout : Nat := 5000
  loadTimeout : Nat := 30000
  /-- Messages that fit each of the bridge's two channels. -/
  channelCapacity : Nat := 64
  /-- The context that every command runs under. -/
  contextId : Nat := 0
  /-- The module that is loaded when none is named. -/
  defaultModule : Option String := none
  deriving DecidableEq, Repr

/-- A channel holds at least one message. -/
def BridgeSettings.capacity (s : BridgeSettings) : Nat := max s.channelCapacity 1

/-- The line after which a command's output is complete. -/
def defaultSyncMarker : String := "--bridge-sync--"

/-- Makes a Forth system print the marker on a line of its own. -/
def defaultSyncCommand : String := ".( --bridge-sync--) cr"

/-- How one external interpreter is started and spoken to. -/
structure ModuleSettings where
  command : String
  args : List String := []
  env : List (String × String) := []
  syncCommand : String := defaultSyncCommand
  syncMarker : String := defaultSyncMarker
  description : Option String := none
  deriving DecidableEq, Repr

/-- The description of an interpreter that has none of its own names its command. -/
def ModuleSettings.describe (s : ModuleSettings) : String :=
  s.description.getD ("external interpreter `" ++ s.command ++ "`")

/-- A configuration; its modules are in the order of their names. -/
structure Config where
  bridge : BridgeSettings := {}
  modules : List (String × ModuleSettings) := []
  deriving DecidableEq, Repr

namespace Config

/-- Where the configuration of a home directory is kept. -/
def pathInHome : List String := [".forth-bridge", "config.toml"]

end Config

end EngineBridge
