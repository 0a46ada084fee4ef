import EngineBridge.Decimal.Shortest

/-!
# JSON values

What is read from text keeps an object in the order of its keys' code points, one member for each
key.
-/

namespace EngineBridge

/-- An integer that fits a signed or unsigned 64-bit word, or a binary floating-point value. -/
inductive Json.Number where
  | integer (n : Int)
  | real (negative : Bool) (magnitude : Decimal.Binary)
  deriving DecidableEq, Repr

inductive Json where
  | null
  | bool (b : Bool)
  | number (n : Json.Number)
  | text (s : String)
  | array (items : List Json)
  | object (members : List (String × Json))
  deriving Repr

namespace Json

instance : Inhabited Json := ⟨.null⟩

/-- Give `key` a value in members that are in the order of their keys; an earlier one is lost. -/
def insert (key : String) (value : Json) : List (String × Json) → List (String × Json)
  | [] => [(key, value)]
  | (k, v) :: rest =>
    if key < k then (key, value) :: (k, v) :: rest
    else if key = k then (key, value) :: rest
    else (k, v) :: insert key value rest

/-- The members of an object written in this order: of equal keys the last one counts. -/
def ofMembers (members : List (String × Json)) : List (String × Json) :=
  members.foldl (fun sorted (k, v) => insert k v sorted) []

def find? (key : String) (members : List (String × Json)) : Option Json :=
  (members.find? (·.1 = key)).map (·.2)

theorem find?_insert (key k : String) (v : Json) (members : List (String × Json)) :
    find? key (insert k v members) = if k = key then some v else find? key members := by
  unfold find?
  induction members with
  | nil => by_cases h : k = key <;> simp [insert, h]
  | cons m rest ih =>
    unfold insert
    split
    · by_cases h : k = key <;> simp [h]
    · split
      next heq => by_cases h : k = key <;> simp [h, ← heq]
      next hne =>
        by_cases h : k = key
        · have hm : m.1 ≠ key := fun e => hne (h.trans e.symm)
          rw [if_pos h] at ih ⊢
          simp [hm, ih]
        · rw [if_neg h] at ih ⊢
          by_cases hm : m.1 = key <;> simp [hm, ih]

/-- Of members with one key the last one counts. -/
theorem find?_ofMembers (key : String) (members : List (String × Json)) :
    find? key (ofMembers members) = find? key members.reverse := by
  suffices h : ∀ sorted, find? key (members.foldl (fun sorted (k, v) => insert k v sorted) sorted) =
      (find? key members.reverse).or (find? key sorted) by
    have := h []
    simpa [ofMembers, find?] using this
  induction members with
  | nil => simp [find?]
  | cons m rest ih =>
    intro sorted
    rw [List.foldl_cons, ih, find?_insert, List.reverse_cons]
    unfold find?
    rw [List.find?_append]
    by_cases h : m.1 = key <;> cases rest.reverse.find? (·.1 = key) <;> simp [h]

end Json

end EngineBridge
