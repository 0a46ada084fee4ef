/-!
# The life of a bridge
-/

namespace EngineBridge

/-- How far a bridge has come. A failed load is final. -/
inductive Lifecycle where
  | uninitialized
  | loading
  | ready
  | failed
  deriving DecidableEq, Repr

namespace Lifecycle

def all : List Lifecycle := [.uninitialized, .loading, .ready, .failed]

def name : Lifecycle → String
  | .uninitialized => "uninitialized"
  | .loading => "loading"
  | .ready => "ready"
  | .failed => "failed"

end Lifecycle

/-- A change of state. -/
structure Transition where
  source : Lifecycle
  target : Lifecycle
  deriving DecidableEq, Repr

end EngineBridge
