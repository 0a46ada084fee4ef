import EngineBridge.Settings.Decode
import EngineBridge.Text.Lines

/-!
# Configuration files
-/

namespace EngineBridge

inductive ConfigError where
  | invalid
  | invalidFile (path : String)
  | unreadable (path : String)
  deriving DecidableEq, Repr

def ConfigError.message : ConfigError → String
  | .invalid => "failed to parse config"
  | .invalidFile path => "invalid config file " ++ path
  | .unreadable path => "failed to read config file " ++ path

/-- What a path leads to. -/
inductive Stored where
  | nothing
  | file (content : Text.Bytes)
  /-- A directory, or a file that may not be read. -/
  | unreadable
  deriving DecidableEq, Repr

namespace Config

def parse (content : String) : Except ConfigError Config :=
  match (Toml.read? content).bind ofToml? with
  | some c => .ok c
  | none => .error .invalid

/-- The configuration at a path. Where there is no file the defaults hold. -/
def load (path : String) : Stored → Except ConfigError Config
  | .nothing => .ok {}
  | .unreadable => .error (.unreadable path)
  | .file bytes =>
    match Text.ofUtf8? bytes with
    | none => .error (.unreadable path)
    | some content => (parse content).mapError fun _ => .invalidFile path

end Config

end EngineBridge
