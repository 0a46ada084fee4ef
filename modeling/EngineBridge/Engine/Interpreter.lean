import EngineBridge.Engine.Script

/-!
# Interpreters

An interpreter is a state and what each call does to it. A call's work depends on nothing but the
calls that came before it.
-/

namespace EngineBridge

/-- The course of a call, and what becomes of the interpreter. -/
structure Call (σ : Type) where
  script : Script
  /-- The interpreter once the call has ended. -/
  after : σ
  /-- The interpreter if the call is abandoned when so many of its acts are done. -/
  cut : Nat → σ

/-- A call whose interpreter is the same wherever the call is abandoned. -/
def Call.settled {σ : Type} (script : Script) (after : σ) : Call σ :=
  ⟨script, after, fun _ => after⟩

def Call.map {σ τ : Type} (f : σ → τ) (c : Call σ) : Call τ := ⟨c.script, f c.after, f ∘ c.cut⟩

class Interpreter (σ : Type) where
  /-- Run one line under a context. -/
  execute : σ → (context : Nat) → (command : String) → Call σ
  /-- Come back to a usable state after a call was abandoned; none where there is nothing to do. -/
  recover : σ → Option (Script × σ)
  version : σ → Option String

end EngineBridge
