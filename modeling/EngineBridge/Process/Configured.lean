import EngineBridge.Process.Interpreter

/-!
# Configured modules
-/

namespace EngineBridge

/-- Starts the command of a module. -/
abbrev Launcher := ModuleSettings → Except SystemError Child

/-- The modules of a configuration, each with an interpreter of its own. -/
def Config.registry (launch : Launcher) (c : Config) : Registry ChildInterpreter :=
  c.modules.foldl
    (fun r m => r.register (ChildInterpreter.module m.1 m.2 fun _ => launch m.2)) .empty

end EngineBridge
