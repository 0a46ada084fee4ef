import EngineBridge.Settings.Basic
import EngineBridge.Json.Shape

/-!
# Module settings as a JSON value

An object with a member for each setting, or an array with the settings in their order. Members are
checked in the order of their keys.
-/

namespace EngineBridge.ModuleSettings

open Json (Shape)

def environment : Shape (List (String × String)) := Shape.mapping Shape.text

def ofMembers (members : List (String × Json)) : Except Json.Mismatch ModuleSettings := do
  let d : ModuleSettings := { command := "" }
  let args ← Shape.member? members "args" (Shape.list Shape.text)
  let command ← Shape.member? members "command" Shape.text
  let description ← Shape.member? members "description" (Shape.optional Shape.text)
  let env ← Shape.member? members "env" environment
  let syncCommand ← Shape.member? members "sync_command" Shape.text
  let syncMarker ← Shape.member? members "sync_marker" Shape.text
  let command ← Shape.require "command" command
  return { command
           args := args.getD d.args
           env := env.getD d.env
           syncCommand := syncCommand.getD d.syncCommand
           syncMarker := syncMarker.getD d.syncMarker
           description := description.join }

def item? {α : Type} (items : List Json) (place : Nat) (shape : Shape α) :
    Except Json.Mismatch (Option α) :=
  match items[place]? with
  | none => .ok none
  | some v => (shape v).map some

def ofItems (items : List Json) : Except Json.Mismatch ModuleSettings := do
  let d : ModuleSettings := { command := "" }
  let command ← item? items 0 Shape.text
  let args ← item? items 1 (Shape.list Shape.text)
  let env ← item? items 2 environment
  let syncCommand ← item? items 3 Shape.text
  let syncMarker ← item? items 4 Shape.text
  let description ← item? items 5 (Shape.optional Shape.text)
  match command with
  | none => .error (.wrongLength 0 "struct ModuleConfig with 6 elements")
  | some command =>
    if 6 < items.length then .error (.wrongLength items.length "fewer elements in array")
    else
      return { command
               args := args.getD d.args
               env := env.getD d.env
               syncCommand := syncCommand.getD d.syncCommand
               syncMarker := syncMarker.getD d.syncMarker
               description := description.join }

def ofJson : Shape ModuleSettings
  | .object members => ofMembers members
  | .array items => ofItems items
  | j => .error (.wrongType j "struct ModuleConfig")

end EngineBridge.ModuleSettings
