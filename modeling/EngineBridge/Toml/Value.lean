import EngineBridge.Decimal.Binary
import EngineBridge.Toml.Moment

/-!
# TOML values
-/

namespace EngineBridge

namespace Toml

inductive Real where
  | finite (negative : Bool) (magnitude : Decimal.Binary)
  | infinite (negative : Bool)
  | nan
  deriving DecidableEq, Repr

/-- How a table has come about, which settles what may still be added to it. -/
inductive Origin where
  /-- It has a header of its own. -/
  | header
  /-- A header below it names it. -/
  | implied
  /-- A dotted key names it. -/
  | dotted
  /-- It is written between braces. -/
  | inline
  deriving DecidableEq, Repr

end Toml

inductive Toml where
  | text (s : String)
  /-- An integer of 64 bits with a sign. -/
  | integer (n : Int)
  | real (r : Toml.Real)
  | bool (b : Bool)
  | moment (m : Toml.Moment)
  | array (items : List Toml)
  /-- A table, with its entries in the order in which their keys came. -/
  | table (origin : Toml.Origin) (entries : List (String × Toml))
  /-- Tables with one header in double brackets each. There is at least one. -/
  | tables (rows : List (List (String × Toml)))
  deriving Repr

namespace Toml

instance : Inhabited Toml := ⟨.table .header []⟩

abbrev Table := List (String × Toml)

namespace Table

def get? (t : Table) (key : String) : Option Toml := (t.find? (·.1 = key)).map (·.2)

def has (t : Table) (key : String) : Bool := t.any (·.1 = key)

/-- Give a key that is there another value. -/
def replace (t : Table) (key : String) (v : Toml) : Table :=
  t.map fun (k, old) => if k = key then (k, v) else (k, old)

def remove (t : Table) (key : String) : Table := t.filter (·.1 ≠ key)

end Table

end Toml

end EngineBridge
