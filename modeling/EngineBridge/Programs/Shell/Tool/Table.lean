import EngineBridge.Programs.Shell.Builtin.Control
import EngineBridge.Programs.Shell.Tool.Calculating
import EngineBridge.Programs.Shell.Tool.Copying
import EngineBridge.Programs.Shell.Tool.Counting
import EngineBridge.Programs.Shell.Tool.Exchanging
import EngineBridge.Programs.Shell.Tool.Managing
import EngineBridge.Programs.Shell.Tool.Searching

/-!
# The table of programs
-/

namespace EngineBridge.Shell.Tool

/-- Programs that do nothing but what a builtin command does too. -/
def ofBuiltin (name : String) (run : Args → Run Unit) : String × Tool :=
  (name, fun args => do
    modify fun s => { s with command := some name }
    run args)

/-- Programs that run no others. -/
def table : List (String × Tool) :=
  [("cat", cat), ("tee", tee), ("yes", yes), ("sleep", sleep),
    ("true", fun _ => Run.setStatus 0), ("false", fun _ => Run.setStatus 1),
    ("echo", echo), ofBuiltin "printf" Builtin.printf,
    ofBuiltin "test" Builtin.test, ofBuiltin "[" Builtin.bracket,
    ("sed", sed), ("grep", grep), ("tr", tr), ("head", head), ("tail", tail), ("cut", cut),
    ("rev", rev), ("tac", tac), ("fold", fold), ("paste", paste), ("nl", nl), ("wc", wc),
    ("uniq", uniq), ("sort", sort), ("seq", seq), ("expr", expr), ("basename", basename),
    ("dirname", dirname), ("pwd", pwdProgram), ("rm", rm), ("mkdir", mkdir), ("rmdir", rmdir),
    ("touch", touch), ("ls", ls), ("which", which), ("printenv", printenv), ("tty", tty),
    ("sync", fun _ => Run.setStatus 0), ("cp", copy "cp" false), ("mv", copy "mv" true)]

def table? (name : String) : Option Tool := table.lookup name

/-- Programs that run others. -/
def runners : List String := ["sh", "dash", "env"]

/-- The names of all programs. -/
def names : List String := runners ++ table.map (·.1)

end EngineBridge.Shell.Tool
