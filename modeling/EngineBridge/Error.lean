import EngineBridge.Fault

/-!
# Errors of a bridge

Each failure that can reach the host has a cause of its own, and each cause one kind on the wire.
-/

namespace EngineBridge

/-- The engine module could not be resolved or started. -/
inductive LoadError where
  | unknownModule (module : String)
  | noModule
  | failed (module : String) (fault : Fault)
  | timeout (module : String) (millis : Nat)
  deriving DecidableEq, Repr

def LoadError.message : LoadError → String
  | .unknownModule m => "unknown engine module: " ++ m
  | .noModule => "no engine module named and no default module configured"
  | .failed m f => "engine module `" ++ m ++ "` failed to initialize: " ++ f.message
  | .timeout m ms => "engine module `" ++ m ++ "` did not load within " ++ ms.repr ++ " ms"

/-- One command could not be executed. -/
inductive EngineError where
  | notReady
  | fault (reason : String)
  | timeout (millis : Nat)
  deriving DecidableEq, Repr

def EngineError.message : EngineError → String
  | .notReady => "engine not ready"
  | .fault reason => "execution fault: " ++ reason
  | .timeout ms => "command timed out after " ++ ms.repr ++ " ms"

inductive BridgeError where
  | load (e : LoadError)
  | engine (e : EngineError)
  | malformed (reason : String)
  | queueFull (limit : Nat)
  | disconnected
  deriving DecidableEq, Repr

def BridgeError.message : BridgeError → String
  | .load e => e.message
  | .engine e => e.message
  | .malformed reason => "malformed message: " ++ reason
  | .queueFull limit => "pending queue is full (" ++ limit.repr ++ " commands)"
  | .disconnected => "host disconnected"

/-- What a load error is about: names and numbers, and each cause of a fault. -/
def LoadError.data : LoadError → List String
  | .unknownModule m => [m]
  | .noModule => []
  | .failed m f => m :: f.chain.map Cause.message
  | .timeout m ms => [m, ms.repr]

def EngineError.data : EngineError → List String
  | .notReady => []
  | .fault reason => [reason]
  | .timeout ms => [ms.repr]

def BridgeError.data : BridgeError → List String
  | .load e => e.data
  | .engine e => e.data
  | .malformed reason => [reason]
  | .queueFull limit => [limit.repr]
  | .disconnected => []

private theorem infix_between (before t after : String) :
    t.toList <:+: (before ++ t ++ after).toList := by
  rw [String.toList_append, String.toList_append]
  exact List.infix_append _ _ _

private theorem infix_last (before t : String) : t.toList <:+: (before ++ t).toList := by
  rw [String.toList_append]
  exact (List.suffix_append _ _).isInfix

theorem LoadError.message_carries (e : LoadError) :
    ∀ t ∈ e.data, t.toList <:+: e.message.toList := by
  intro t ht
  cases e with
  | noModule => cases ht
  | unknownModule m =>
    rw [data, List.mem_singleton] at ht
    rw [ht]
    unfold message
    dsimp only
    exact infix_last _ m
  | failed m f =>
    rw [data, List.mem_cons, List.mem_map] at ht
    unfold message
    dsimp only
    rcases ht with ht | ⟨c, hc, ht⟩
    · rw [ht, String.append_assoc]
      exact infix_between _ m _
    · rw [← ht]
      exact (Fault.message_carries hc).trans (infix_last _ f.message)
  | timeout m ms =>
    rw [data, List.mem_cons, List.mem_singleton] at ht
    unfold message
    dsimp only
    rcases ht with ht | ht
    · rw [ht, String.append_assoc, String.append_assoc]
      exact infix_between _ m _
    · rw [ht]
      exact infix_between _ ms.repr _

theorem EngineError.message_carries (e : EngineError) :
    ∀ t ∈ e.data, t.toList <:+: e.message.toList := by
  intro t ht
  cases e with
  | notReady => cases ht
  | fault reason =>
    rw [data, List.mem_singleton] at ht
    rw [ht]
    unfold message
    dsimp only
    exact infix_last _ reason
  | timeout ms =>
    rw [data, List.mem_singleton] at ht
    rw [ht]
    unfold message
    dsimp only
    exact infix_between _ ms.repr _

/-- The text of an error tells everything that the error is about. -/
theorem BridgeError.message_carries (e : BridgeError) :
    ∀ t ∈ e.data, t.toList <:+: e.message.toList := by
  intro t ht
  cases e with
  | load e => exact e.message_carries t ht
  | engine e => exact e.message_carries t ht
  | disconnected => cases ht
  | malformed reason =>
    rw [data, List.mem_singleton] at ht
    rw [ht]
    unfold message
    dsimp only
    exact infix_last _ reason
  | queueFull limit =>
    rw [data, List.mem_singleton] at ht
    rw [ht]
    unfold message
    dsimp only
    exact infix_between _ limit.repr _

/-- The category that an error notice carries. -/
inductive ErrorKind where
  | load
  | notReady
  | fault
  | timeout
  | queueFull
  | malformed
  deriving DecidableEq, Repr

namespace ErrorKind

def all : List ErrorKind := [.load, .notReady, .fault, .timeout, .queueFull, .malformed]

def name : ErrorKind → String
  | .load => "load"
  | .notReady => "not_ready"
  | .fault => "fault"
  | .timeout => "timeout"
  | .queueFull => "queue_full"
  | .malformed => "malformed"

end ErrorKind

def BridgeError.kind : BridgeError → ErrorKind
  | .load _ => .load
  | .engine .notReady => .notReady
  | .engine (.fault _) => .fault
  | .engine (.timeout _) => .timeout
  | .malformed _ => .malformed
  | .queueFull _ => .queueFull
  | .disconnected => .fault

end EngineBridge
