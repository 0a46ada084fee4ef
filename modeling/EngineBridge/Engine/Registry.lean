import EngineBridge.Engine.Adapter

/-!
# Engine modules

Modules are registered under their names. A name is resolved when a load begins; what is
registered or removed after that does not touch the load.
-/

namespace EngineBridge

structure Module (σ : Type) where
  name : String
  description : String
  /-- What starting an interpreter does. -/
  starting : Script
  /-- The interpreter that a start hands out. -/
  engine : σ
  deriving Repr

/-- A module and how many registrations came before it. -/
structure Registration (σ : Type) where
  serial : Nat
  module : Module σ
  deriving Repr

/-- The registered modules, in the order of their names. -/
structure Registry (σ : Type) where
  count : Nat
  entries : List (Registration σ)
  deriving Repr

namespace Registry

variable {σ : Type}

def empty : Registry σ := ⟨0, []⟩

/-- Put a registration in the place of its name. -/
def place (r : Registration σ) : List (Registration σ) → List (Registration σ)
  | [] => [r]
  | x :: rest =>
    if r.module.name < x.module.name then r :: x :: rest
    else if r.module.name = x.module.name then r :: rest
    else x :: place r rest

/-- Register a module; the last one of a name counts. -/
def register (r : Registry σ) (m : Module σ) : Registry σ :=
  ⟨r.count + 1, place ⟨r.count, m⟩ r.entries⟩

def unregister (r : Registry σ) (name : String) : Registry σ :=
  { r with entries := r.entries.filter (·.module.name ≠ name) }

def find? (r : Registry σ) (name : String) : Option (Registration σ) :=
  r.entries.find? (·.module.name = name)

/-- Names and descriptions, in the order of the names. -/
def descriptions (r : Registry σ) : List (String × String) :=
  r.entries.map fun x => (x.module.name, x.module.description)

end Registry

namespace Registry

variable {σ : Type}

theorem find?_place (r : Registration σ) (l : List (Registration σ)) (name : String) :
    (place r l).find? (·.module.name = name) =
      if r.module.name = name then some r else l.find? (·.module.name = name) := by
  induction l with
  | nil => by_cases h : r.module.name = name <;> simp [place, h]
  | cons x rest ih =>
    unfold place
    split
    · by_cases h : r.module.name = name <;> simp [h]
    · split
      next heq => by_cases h : r.module.name = name <;> simp [h, ← heq]
      next hne =>
        by_cases h : r.module.name = name
        · have hx : x.module.name ≠ name := fun e => hne (h.trans e.symm)
          simp [ih, h, hx]
        · simp [List.find?_cons, ih, h]

/-- The module registered last under a name is the one that is found. -/
theorem find?_register (r : Registry σ) (m : Module σ) (name : String) :
    (r.register m).find? name = if m.name = name then some ⟨r.count, m⟩ else r.find? name :=
  find?_place _ _ _

theorem find?_unregister (r : Registry σ) (gone name : String) :
    (r.unregister gone).find? name = if gone = name then none else r.find? name := by
  by_cases h : gone = name
  · subst h
    simp [unregister, find?]
  · simp only [unregister, find?, h, if_false]
    rw [List.find?_filter]
    congr 1
    funext x
    by_cases hx : x.module.name = name <;> simp [hx, Ne.symm h]

/-- The names ascend, and no name comes twice. -/
def Ascending (l : List (Registration σ)) : Prop :=
  l.Pairwise (·.module.name < ·.module.name)

theorem mem_place {r x : Registration σ} {l : List (Registration σ)} (h : x ∈ place r l) :
    x = r ∨ x ∈ l := by
  induction l with
  | nil => simpa [place] using h
  | cons y rest ih =>
    unfold place at h
    split at h
    · simpa using h
    · split at h <;> simp only [List.mem_cons] at h ⊢
      · exact h.imp_right .inr
      · rcases h with h | h
        · exact .inr (.inl h)
        · exact (ih h).imp_right .inr

theorem ascending_place {r : Registration σ} {l : List (Registration σ)} (h : Ascending l) :
    Ascending (place r l) := by
  induction l with
  | nil => exact List.pairwise_singleton _ _
  | cons y rest ih =>
    have ⟨hy, hrest⟩ := List.pairwise_cons.1 h
    unfold place
    split
    next hlt =>
      refine List.pairwise_cons.2 ⟨fun z hz => ?_, h⟩
      rcases List.mem_cons.1 hz with rfl | hz
      · exact hlt
      · exact String.lt_trans hlt (hy z hz)
    next hnl =>
      split
      next heq => exact List.pairwise_cons.2 ⟨fun z hz => heq ▸ hy z hz, hrest⟩
      next hne =>
        refine List.pairwise_cons.2 ⟨fun z hz => ?_, ih hrest⟩
        rcases mem_place hz with rfl | hz
        · exact Std.lt_of_le_of_ne (Std.not_lt.1 hnl) (Ne.symm hne)
        · exact hy z hz

theorem ascending_register {r : Registry σ} (h : Ascending r.entries) (m : Module σ) :
    Ascending (r.register m).entries :=
  ascending_place h

theorem ascending_unregister {r : Registry σ} (h : Ascending r.entries) (name : String) :
    Ascending (r.unregister name).entries :=
  List.Pairwise.filter _ h

end Registry

/-- How a load ends. A panic while a module starts is not contained. -/
inductive Loaded (σ : Type) where
  | ready (adapter : Adapter σ)
  | refused (e : LoadError)
  | crashed (p : Panic)
  deriving Repr

namespace Module

variable {σ : Type}

/-- What a start that ended in this way gives to the bridge. -/
def conclude (m : Module σ) (loadTimeout execTimeout : Nat) : Verdict → Loaded σ
  | .done => .ready { module := m.name, engine := m.engine, execTimeout }
  | .fault f => .refused (.failed m.name f)
  | .panic p => .crashed p
  | .late => .refused (.timeout m.name loadTimeout)

/-- Start an interpreter within `loadTimeout`, and how long that takes. -/
def load (m : Module σ) (loadTimeout execTimeout : Nat) : Loaded σ × Nat :=
  let f := m.starting.within loadTimeout
  (m.conclude loadTimeout execTimeout f.verdict, f.millis)

end Module

/-- Resolve a name and start an interpreter. -/
def Registry.load {σ : Type} (r : Registry σ) (name : String) (loadTimeout execTimeout : Nat) :
    Loaded σ × Nat :=
  match r.find? name with
  | none => (.refused (.unknownModule name), 0)
  | some x => x.module.load loadTimeout execTimeout

end EngineBridge
