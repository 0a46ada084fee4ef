import EngineBridge.Engine.Scripted
import EngineBridge.Process.Interpreter

/-!
# Engines of either kind
-/

namespace EngineBridge

inductive Engine where
  | scripted (s : Scripted)
  | process (p : ChildInterpreter)

namespace Engine

instance : Interpreter Engine where
  execute
    | .scripted s, context, command => (Interpreter.execute s context command).map .scripted
    | .process p, context, command => (Interpreter.execute p context command).map .process
  recover
    | .scripted s => (Interpreter.recover s).map (·.map id .scripted)
    | .process p => (Interpreter.recover p).map (·.map id .process)
  version
    | .scripted s => Interpreter.version s
    | .process p => Interpreter.version p

end Engine

/-- A module whose engine is seen as one of another kind. -/
def Module.lift {σ τ : Type} (f : σ → τ) (m : Module σ) : Module τ :=
  { m with engine := f m.engine }

end EngineBridge
