import EngineBridge.Json.Printer

/-!
# Reading values of a known shape

Why a JSON value is not of the shape that is wanted, and readers for the shapes that messages and
settings are made of.
-/

namespace EngineBridge.Json

inductive Mismatch where
  | missingField (name : String)
  | unknownVariant (found : String) (known : List String)
  | wrongType (found : Json) (wanted : String)
  | wrongValue (found : Json) (wanted : String)
  | wrongLength (found : Nat) (wanted : String)
  deriving Repr

/-- A value as a diagnostic names it. -/
def describe : Json → String
  | .null => "null"
  | .bool b => "boolean `" ++ (if b then "true" else "false") ++ "`"
  | .number (.integer n) => "integer `" ++ toString n ++ "`"
  | .number n => "floating point `" ++ String.ofList n.write ++ "`"
  | .text s => "string " ++ Text.quoted s
  | .array _ => "sequence"
  | .object _ => "map"

/-- A choice of names. -/
def oneOf (names : List String) : String :=
  let ticked := names.map fun n => "`" ++ n ++ "`"
  match ticked with
  | [] => "there are no variants"
  | [a] => a
  | [a, b] => a ++ " or " ++ b
  | _ => "one of " ++ ", ".intercalate ticked

def Mismatch.message : Mismatch → String
  | .missingField name => "missing field `" ++ name ++ "`"
  | .unknownVariant found known =>
    "unknown variant `" ++ found ++ "`, expected " ++ oneOf known
  | .wrongType found wanted => "invalid type: " ++ found.describe ++ ", expected " ++ wanted
  | .wrongValue found wanted => "invalid value: " ++ found.describe ++ ", expected " ++ wanted
  | .wrongLength found wanted => "invalid length " ++ found.repr ++ ", expected " ++ wanted

abbrev Shape (α : Type) := Json → Except Mismatch α

namespace Shape

def text : Shape String
  | .text s => .ok s
  | j => .error (.wrongType j "a string")

/-- Null is no value. -/
def optional {α : Type} (shape : Shape α) : Shape (Option α)
  | .null => .ok none
  | j => (shape j).map some

def count : Shape Nat
  | .number (.integer n) =>
    if 0 ≤ n then .ok n.toNat else .error (.wrongValue (.number (.integer n)) "usize")
  | j => .error (.wrongType j "usize")

def list {α : Type} (item : Shape α) : Shape (List α)
  | .array xs => xs.mapM item
  | j => .error (.wrongType j "a sequence")

def mapping {α : Type} (value : Shape α) : Shape (List (String × α))
  | .object members => members.mapM fun (k, v) => (value v).map (k, ·)
  | j => .error (.wrongType j "a map")

def known {α : Type} (variants : List (String × α)) (name : String) :
    Except Mismatch α :=
  match variants.find? (·.1 = name) with
  | some (_, a) => .ok a
  | none => .error (.unknownVariant name (variants.map (·.1)))

/-- A name out of a list, alone. -/
def tag {α : Type} (variants : List (String × α)) : Shape α
  | .text s => known variants s
  | j => .error (.wrongType j "variant identifier")

/-- A name out of a list, alone or as the key of an object that holds nothing else. -/
def variant {α : Type} (variants : List (String × α)) : Shape α
  | .text s => known variants s
  | .object [(k, v)] => do
    let a ← known variants k
    match v with
    | .null | .object [] => .ok a
    | v => .error (.wrongType v "unit")
  | .object members => .error (.wrongValue (.object members) "map with a single key")
  | j => .error (.wrongType j "string or map")

/-- A member that may be absent; what is there must have the shape. -/
def member? {α : Type} (members : List (String × Json)) (key : String) (shape : Shape α) :
    Except Mismatch (Option α) :=
  match find? key members with
  | none => .ok none
  | some v => (shape v).map some

/-- A member's value, once its shape has been read. -/
def require {α : Type} (key : String) : Option α → Except Mismatch α
  | none => .error (.missingField key)
  | some a => .ok a

end Shape

end EngineBridge.Json
