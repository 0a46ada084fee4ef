import EngineBridge.Wire.Message
import EngineBridge.Json.Reader
import EngineBridge.Json.Shape

/-!
# Decoding frames

A frame is a JSON text or an object named by its member `cmd`. Members are checked in the order of
their keys, and those that are missing after that, in the order in which they are written.
-/

namespace EngineBridge

namespace Wire

open Json (Mismatch Shape)

/-- Why a frame is not a message. -/
inductive Refusal where
  | notJson (f : Json.Failure)
  | notTextOrObject (j : Json)
  | mismatch (m : Mismatch)
  deriving Repr

def Refusal.message (frame : String) : Refusal → String
  | .notJson f => f.message frame
  | .notTextOrObject j => "expected a string or an object, got `" ++ j.render ++ "`"
  | .mismatch m => m.message

inductive ControlTag where
  | start
  | status

inductive NoticeTag where
  | ready
  | error
  | status

def controlTags : List (String × ControlTag) :=
  [("init", .start), ("initialize", .start), ("status", .status)]

def noticeTags : List (String × NoticeTag) :=
  [("ready", .ready), ("error", .error), ("status", .status)]

def errorKinds : List (String × ErrorKind) := ErrorKind.all.map fun k => (k.name, k)

def lifecycles : List (String × Lifecycle) := Lifecycle.all.map fun l => (l.name, l)

/-- The name that `cmd` gives an object. -/
def commandTag {α : Type} (tags : List (String × α)) (members : List (String × Json)) :
    Except Mismatch α := do
  Shape.require "cmd" (← Shape.member? members "cmd" (Shape.tag tags))

def toControl (members : List (String × Json)) : Except Mismatch Control := do
  match ← commandTag controlTags members with
  | .start =>
    let module ← Shape.member? members "moduleRef" (Shape.optional Shape.text)
    return .start module.join
  | .status => return .status

def toNotice (members : List (String × Json)) : Except Mismatch Notice := do
  match ← commandTag noticeTags members with
  | .ready => return .ready
  | .error =>
    let detail ← Shape.member? members "detail" Shape.text
    let kind ← Shape.member? members "kind" (Shape.variant errorKinds)
    let kind ← Shape.require "kind" kind
    let detail ← Shape.require "detail" detail
    return .error kind detail
  | .status =>
    let module ← Shape.member? members "module" (Shape.optional Shape.text)
    let pending ← Shape.member? members "pending" Shape.count
    let state ← Shape.member? members "state" (Shape.variant lifecycles)
    let state ← Shape.require "state" state
    let pending ← Shape.require "pending" pending
    return .status state module.join pending

/-- Read a frame: a text, or an object by `members`. -/
def decode {α : Type} (ofText : String → α)
    (ofMembers : List (String × Json) → Except Mismatch α) (frame : String) :
    Except Refusal α :=
  match Json.read frame with
  | .error f => .error (.notJson f)
  | .ok (.text s) => .ok (ofText s)
  | .ok (.object members) => (ofMembers members).mapError .mismatch
  | .ok j => .error (.notTextOrObject j)

end Wire

/-- Decode a frame from the host. A frame that is no message is malformed, for a reason. -/
def Inbound.decode (frame : String) : Inbound :=
  match Wire.decode .command (fun members => (Wire.toControl members).map .control) frame with
  | .ok m => m
  | .error r => .malformed (r.message frame)

/-- Decode a frame from the bridge. -/
def Outbound.decode (frame : String) : Except BridgeError Outbound :=
  (Wire.decode .response (fun members => (Wire.toNotice members).map .notice) frame).mapError
    fun r => .malformed (r.message frame)

end EngineBridge
