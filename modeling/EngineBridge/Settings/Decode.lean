import EngineBridge.Settings.Basic
import EngineBridge.Toml.Reader

/-!
# Settings in a TOML document

Each setting is read on its own: where it is absent its default holds, and where it has a value out
of its range there is no configuration. Keys that name no setting are passed over.
-/

namespace EngineBridge

namespace Settings

/-- A group of settings: under their names, or at their places in a list. -/
inductive Group where
  | named (entries : Toml.Table)
  | placed (items : List Toml)

namespace Group

/-- A date has none of the names of any setting. -/
def ofToml? : Toml → Option Group
  | .table _ entries => some (.named entries)
  | .moment _ => some (.named [])
  | .array items => some (.placed items)
  | .tables rows => some (.placed (rows.map (.table .header)))
  | _ => none

def get? (g : Group) (place : Nat) (name : String) : Option Toml :=
  match g with
  | .named entries => entries.get? name
  | .placed items => items[place]?

/-- The value of a setting, read by `read` if it is there. -/
def setting {α : Type} (g : Group) (place : Nat) (name : String) (read : Toml → Option α)
    (default : α) : Option α :=
  match g.get? place name with
  | none => some default
  | some v => read v

end Group

/-- A limit above all numbers that a document can hold. -/
def wordLimit : Nat := Nat.pow 2 63

def contextLimit : Nat := Nat.pow 2 32

def text? : Toml → Option String
  | .text s => some s
  | _ => none

def textOrNone? (v : Toml) : Option (Option String) := (text? v).map some

def texts? : Toml → Option (List String)
  | .array items => items.mapM text?
  | _ => none

/-- A number below a limit. -/
def number? (limit : Nat) : Toml → Option Nat
  | .integer n => if 0 ≤ n ∧ n < limit then some n.toNat else none
  | _ => none

/-- Put a name in its place among others; none of them is equal to it. -/
def place {α : Type} (name : String) (value : α) : List (String × α) → List (String × α)
  | [] => [(name, value)]
  | (k, v) :: rest =>
    if name < k then (name, value) :: (k, v) :: rest else (k, v) :: place name value rest

/-- In the order of the names. -/
def sorted {α : Type} (xs : List (String × α)) : List (String × α) :=
  xs.foldl (fun done x => place x.1 x.2 done) []

/-- The entries of a table, each read by `read`, in the order of their keys. -/
def entries? {α : Type} (read : Toml → Option α) (t : Toml.Table) : Option (List (String × α)) :=
  (t.mapM fun e : String × Toml => (read e.2).map fun a => (e.1, a)).map sorted

/-- The key under which a date is an entry of a table. -/
def momentKey : String := "$__toml_private_datetime"

def environment? : Toml → Option (List (String × String))
  | .table _ entries => entries? text? entries
  | .moment m => some [(momentKey, m.render)]
  | _ => none

def named? (name : String) : Option PendingPolicy :=
  PendingPolicy.all.find? (·.name = name)

def isHollow : Toml → Bool
  | .table _ [] | .array [] => true
  | _ => false

/-- A policy is a name, or the only key of a table, with an empty value. -/
def policy? : Toml → Option PendingPolicy
  | .text s => named? s
  | .table _ [(k, v)] => if isHollow v then named? k else none
  | _ => none

end Settings

open Settings

def BridgeSettings.ofToml? (v : Toml) : Option BridgeSettings := do
  let g ← Group.ofToml? v
  let d : BridgeSettings := {}
  let pendingPolicy ← g.setting 0 "pending_policy" policy? d.pendingPolicy
  let maxPending ← g.setting 1 "max_pending" (number? wordLimit) d.maxPending
  let execTimeout ← g.setting 2 "exec_timeout_ms" (number? wordLimit) d.execTimeout
  let loadTimeout ← g.setting 3 "load_timeout_ms" (number? wordLimit) d.loadTimeout
  let channelCapacity ← g.setting 4 "channel_capacity" (number? wordLimit) d.channelCapacity
  let contextId ← g.setting 5 "context_id" (number? contextLimit) d.contextId
  let defaultModule ← g.setting 6 "default_module" textOrNone? d.defaultModule
  return { pendingPolicy, maxPending, execTimeout, loadTimeout, channelCapacity, contextId,
           defaultModule }

/-- A module needs a command. -/
def ModuleSettings.ofToml? (v : Toml) : Option ModuleSettings := do
  let g ← Group.ofToml? v
  let command ← (← g.setting 0 "command" textOrNone? none)
  let d : ModuleSettings := { command }
  let args ← g.setting 1 "args" texts? d.args
  let env ← g.setting 2 "env" environment? d.env
  let syncCommand ← g.setting 3 "sync_command" text? d.syncCommand
  let syncMarker ← g.setting 4 "sync_marker" text? d.syncMarker
  let description ← g.setting 5 "description" textOrNone? d.description
  return { command, args, env, syncCommand, syncMarker, description }

namespace Config

def modules? : Toml → Option (List (String × ModuleSettings))
  | .table _ entries => entries? ModuleSettings.ofToml? entries
  | _ => none

def ofToml? (document : Toml.Table) : Option Config := do
  let g := Group.named document
  let bridge ← g.setting 0 "bridge" BridgeSettings.ofToml? {}
  let modules ← g.setting 1 "modules" modules? []
  return { bridge, modules }

end Config

end EngineBridge
