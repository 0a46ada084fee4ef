import EngineBridge.Wire.Message
import EngineBridge.Json.Printer

/-!
# Frames

A message is one line of compact JSON. Commands and responses are texts; all else is an object
whose first member `cmd` names it.
-/

namespace EngineBridge

namespace Wire

def moduleField : Option String → Json
  | none => .null
  | some m => .text m

def ofControl : Control → Json
  | .start none => .object [("cmd", .text "initialize")]
  | .start (some m) => .object [("cmd", .text "initialize"), ("moduleRef", .text m)]
  | .status => .object [("cmd", .text "status")]

/-- A malformed message is written as its reason. -/
def ofInbound : Inbound → Json
  | .control c => ofControl c
  | .command text => .text text
  | .malformed reason => .text reason

def ofNotice : Notice → Json
  | .ready => .object [("cmd", .text "ready")]
  | .error kind detail =>
    .object [("cmd", .text "error"), ("kind", .text kind.name), ("detail", .text detail)]
  | .status state module pending =>
    .object [("cmd", .text "status"), ("state", .text state.name), ("module", moduleField module),
      ("pending", .number (.integer pending))]

def ofOutbound : Outbound → Json
  | .notice n => ofNotice n
  | .response text => .text text

end Wire

def Inbound.encode (m : Inbound) : String := (Wire.ofInbound m).render

def Outbound.encode (m : Outbound) : String := (Wire.ofOutbound m).render

end EngineBridge
