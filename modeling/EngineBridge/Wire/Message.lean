import EngineBridge.Error
import EngineBridge.Lifecycle

/-!
# Messages between a host and a bridge
-/

namespace EngineBridge

/-- What the host may ask of the bridge itself. -/
inductive Control where
  /-- Load the engine; without a module, the configured one. -/
  | start (module : Option String)
  | status
  deriving DecidableEq, Repr

/-- What arrives at a bridge. -/
inductive Inbound where
  | control (c : Control)
  | command (text : String)
  /-- A frame that could not be decoded, with the reason. -/
  | malformed (reason : String)
  deriving DecidableEq, Repr

inductive Notice where
  | ready
  | error (kind : ErrorKind) (detail : String)
  | status (state : Lifecycle) (module : Option String) (pending : Nat)
  deriving DecidableEq, Repr

/-- What a bridge sends. -/
inductive Outbound where
  | notice (n : Notice)
  /-- What the engine printed for one command; never empty. -/
  | response (text : String)
  deriving DecidableEq, Repr

def BridgeError.notice (e : BridgeError) : Outbound := .notice (.error e.kind e.message)

def Outbound.isReady (m : Outbound) : Bool := m = .notice .ready

end EngineBridge
