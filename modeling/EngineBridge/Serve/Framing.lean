import EngineBridge.Wire.Encode
import EngineBridge.Wire.Decode
import EngineBridge.Text.Blank

/-!
# Lines and messages

How a line of a stream becomes a message, and what a message writes.
-/

namespace EngineBridge

inductive Framing where
  /-- One JSON value a line, both ways. -/
  | json
  /-- Every line is a command, and responses are written as they are. -/
  | text
  deriving DecidableEq, Repr

namespace Framing

/-- The message of a line; blank lines have none. -/
def message? (f : Framing) (line : String) : Option Inbound :=
  if Text.isBlankLine line then none
  else
    match f with
    | .json => some (Inbound.decode line)
    | .text => some (.command line)

/-- The pieces that a message writes to the output, in order. A response in text framing ends its
line; notices are not written there. -/
def pieces (f : Framing) (m : Outbound) : List String :=
  match f, m with
  | .json, m => [m.encode, "\n"]
  | .text, .response s => if s.toList.getLast? = some '\n' then [s] else [s, "\n"]
  | .text, .notice _ => []

/-- The line that a message writes to the diagnostics. -/
def diagnostic? (f : Framing) (m : Outbound) : Option String :=
  match f, m with
  | .text, .notice (.error _ detail) => some ("error: " ++ detail)
  | _, _ => none

end Framing

end EngineBridge
