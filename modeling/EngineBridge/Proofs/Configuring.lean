import Mathlib.Data.List.Sort
import Mathlib.Data.String.Basic
import EngineBridge.Proofs.Tables
import EngineBridge.Settings.File

/-!
# Reading a configuration

A configuration is read if each setting that is given is in its range and each module has a command.
Each setting then has the value that is given or else its default, whatever else stands in the
document and in whatever order.
-/

namespace EngineBridge

namespace Toml

def isTable : Toml → Bool
  | .table _ _ => true
  | _ => false

/-- The entries of a table; what is no table has none. -/
def entries : Toml → Table
  | .table _ t => t
  | _ => []

/-- The table under a key; it is empty where there is none. -/
def Table.under (t : Table) (key : String) : Table := ((t.get? key).map entries).getD []

end Toml

theorem Toml.Distinct.entries {v : Toml} (h : v.Distinct) : Table.Distinct v.entries := by
  cases v with
  | table o t => exact Table.distinct_table.1 h
  | _ => exact Table.distinct_nil

theorem Toml.Table.Distinct.under {t : Toml.Table} (h : t.Distinct) (key : String) :
    Table.Distinct (t.under key) := by
  unfold Table.under
  cases hget : t.get? key with
  | none => exact Table.distinct_nil
  | some v => exact (h.value hget).entries

theorem Toml.Table.under_of_none {t : Toml.Table} {key : String} (h : t.get? key = none) :
    t.under key = [] := by
  simp [under, h]

theorem Toml.Table.under_of_some {t : Toml.Table} {key : String} {v : Toml}
    (h : t.get? key = some v) : t.under key = v.entries := by
  simp [under, h]

namespace Settings

open Toml (Table)

def TextIs (v : Toml) (s : String) : Prop := v = .text s

/-- A text where there might be none. -/
def TextGiven (v : Toml) (d : Option String) : Prop := ∃ s, v = .text s ∧ d = some s

def NumberIs (limit : Nat) (v : Toml) (n : Nat) : Prop := v = .integer n ∧ n < limit

def PolicyIs (v : Toml) (p : PendingPolicy) : Prop :=
  v = .text "queue" ∧ p = .queue ∨ v = .text "reject" ∧ p = .reject

def TextsAre (v : Toml) (l : List String) : Prop := v = .array (l.map .text)

/-- The entries of a table under their keys, in the order of the keys. -/
structure EntriesAre {α : Type} (Is : Toml → α → Prop) (t : Table) (l : List (String × α)) :
    Prop where
  ascending : (l.map Prod.fst).Pairwise (· < ·)
  keys : ∀ key, key ∈ l.map Prod.fst ↔ t.get? key ≠ none
  given : ∀ key a, (key, a) ∈ l → ∃ v, t.get? key = some v ∧ Is v a

/-- A date stands for a table with one entry. -/
def EnvironmentIs (v : Toml) (env : List (String × String)) : Prop :=
  v.isTable = true ∧ EntriesAre TextIs v.entries env ∨
    ∃ m, v = .moment m ∧ env = [("$__toml_private_datetime", m.render)]

/-- The value of a setting is the one that is given, or else the default. -/
def Holds {α : Type} (Is : Toml → α → Prop) (t : Table) (key : String) (default a : α) : Prop :=
  match t.get? key with
  | none => a = default
  | some v => Is v a

def IsText (v : Toml) : Prop := ∃ s, v = .text s

def IsNumber (limit : Nat) (v : Toml) : Prop := ∃ n : Int, v = .integer n ∧ 0 ≤ n ∧ n < limit

def IsPolicy (v : Toml) : Prop := v = .text "queue" ∨ v = .text "reject"

def AreTexts (v : Toml) : Prop := ∃ items, v = .array items ∧ ∀ item ∈ items, IsText item

def IsTableOfTexts (v : Toml) : Prop := v.isTable = true ∧ ∀ e ∈ v.entries, IsText e.2

def IsEnvironment (v : Toml) : Prop := IsTableOfTexts v ∨ ∃ m, v = .moment m

/-- Each key that is there has a value in its range. -/
def InRange (ranges : List (String × (Toml → Prop))) (t : Table) : Prop :=
  ∀ r ∈ ranges, ∀ v, t.get? r.1 = some v → r.2 v

def bridgeRanges : List (String × (Toml → Prop)) :=
  [("pending_policy", IsPolicy), ("max_pending", IsNumber (2 ^ 63)),
    ("exec_timeout_ms", IsNumber (2 ^ 63)), ("load_timeout_ms", IsNumber (2 ^ 63)),
    ("channel_capacity", IsNumber (2 ^ 63)), ("context_id", IsNumber (2 ^ 32)),
    ("default_module", IsText)]

def moduleRanges (environment : Toml → Prop) : List (String × (Toml → Prop)) :=
  [("command", IsText), ("args", AreTexts), ("env", environment), ("sync_command", IsText),
    ("sync_marker", IsText), ("description", IsText)]

/-- The same value, or tables with the same under each key. -/
def Same (v w : Toml) : Prop :=
  v = w ∨ v.isTable = true ∧ w.isTable = true ∧ ∀ key, v.entries.get? key = w.entries.get? key

/-- Under each of the keys two tables have nothing, or the same. -/
def Agree (keys : List String) (t u : Table) : Prop :=
  ∀ key ∈ keys, Option.Rel Same (t.get? key) (u.get? key)

end Settings

open Settings

/-- The settings of a bridge are what a table gives, or else the defaults. -/
structure BridgeSettings.Given (t : Toml.Table) (b : BridgeSettings) : Prop where
  pendingPolicy : Holds PolicyIs t "pending_policy" .queue b.pendingPolicy
  maxPending : Holds (NumberIs (2 ^ 63)) t "max_pending" 256 b.maxPending
  execTimeout : Holds (NumberIs (2 ^ 63)) t "exec_timeout_ms" 5000 b.execTimeout
  loadTimeout : Holds (NumberIs (2 ^ 63)) t "load_timeout_ms" 30000 b.loadTimeout
  channelCapacity : Holds (NumberIs (2 ^ 63)) t "channel_capacity" 64 b.channelCapacity
  contextId : Holds (NumberIs (2 ^ 32)) t "context_id" 0 b.contextId
  defaultModule : Holds TextGiven t "default_module" none b.defaultModule

/-- So are those of a module, but for the command, which has no default. -/
structure ModuleSettings.Given (t : Toml.Table) (m : ModuleSettings) : Prop where
  command : ∃ v, t.get? "command" = some v ∧ TextIs v m.command
  args : Holds TextsAre t "args" [] m.args
  env : Holds EnvironmentIs t "env" [] m.env
  syncCommand : Holds TextIs t "sync_command" defaultSyncCommand m.syncCommand
  syncMarker : Holds TextIs t "sync_marker" defaultSyncMarker m.syncMarker
  description : Holds TextGiven t "description" none m.description

namespace Config

open Toml (Table)

/-- The modules are those that the document names. -/
structure Given (document : Table) (c : Config) : Prop where
  bridge : c.bridge.Given (document.under "bridge")
  modules : EntriesAre (fun v m => m.Given v.entries) (document.under "modules") c.modules

/-- Each setting that is given is in its range, and each module has a command. -/
structure InRange (environment : Toml → Prop) (document : Table) : Prop where
  bridge : Settings.InRange bridgeRanges (document.under "bridge")
  modules : ∀ name v, (document.under "modules").get? name = some v →
    Settings.InRange (moduleRanges environment) v.entries ∧ v.entries.get? "command" ≠ none

/-- Two documents name the same modules, and say the same of each setting. -/
structure Agree (document other : Table) : Prop where
  bridge : Settings.Agree (bridgeRanges.map Prod.fst) (document.under "bridge")
    (other.under "bridge")
  modules : ∀ name, Option.Rel
    (fun v w => Settings.Agree ((moduleRanges IsEnvironment).map Prod.fst) v.entries w.entries)
    ((document.under "modules").get? name) ((other.under "modules").get? name)

/-- What is written as tables, and what is not. -/
structure Shaped (document : Table) : Prop where
  bridge : ∀ v, document.get? "bridge" = some v → v.isTable = true
  modules : ∀ v, document.get? "modules" = some v → v.isTable = true
  entries : ∀ name v, (document.under "modules").get? name = some v → v.isTable = true
  policy : ∀ v, (document.under "bridge").get? "pending_policy" = some v → v.isTable = false

end Config

namespace Settings

open Toml (Table)

variable {α : Type}

theorem place_perm (key : String) (a : α) (l : List (String × α)) :
    (place key a l).Perm ((key, a) :: l) := by
  induction l with
  | nil => exact .refl _
  | cons x l ih =>
    unfold place
    split
    · exact .refl _
    · exact (ih.cons x).trans (.swap _ _ _)

theorem place_ascending {key : String} {a : α} {l : List (String × α)}
    (hkey : key ∉ l.map Prod.fst) (h : (l.map Prod.fst).Pairwise (· < ·)) :
    ((place key a l).map Prod.fst).Pairwise (· < ·) := by
  induction l with
  | nil => simp [place]
  | cons x l ih =>
    obtain ⟨k, b⟩ := x
    rw [List.map_cons, List.pairwise_cons] at h
    rw [List.map_cons, List.mem_cons, not_or] at hkey
    unfold place
    split
    next hlt =>
      refine List.pairwise_cons.2 ⟨?_, List.pairwise_cons.2 h⟩
      intro k' hk'
      rcases List.mem_cons.1 hk' with rfl | hk'
      · exact hlt
      · exact hlt.trans (h.1 k' hk')
    next hlt =>
      refine List.pairwise_cons.2 ⟨?_, ih hkey.2 h.2⟩
      intro k' hk'
      rw [((place_perm key a l).map Prod.fst).mem_iff, List.map_cons, List.mem_cons] at hk'
      rcases hk' with rfl | hk'
      · exact lt_of_le_of_ne (not_lt.1 hlt) (Ne.symm hkey.1)
      · exact h.1 k' hk'

private theorem foldl_place (xs done : List (String × α))
    (h : ((done ++ xs).map Prod.fst).Nodup) (hdone : (done.map Prod.fst).Pairwise (· < ·)) :
    (xs.foldl (fun done x => place x.1 x.2 done) done).Perm (done ++ xs) ∧
      ((xs.foldl (fun done x => place x.1 x.2 done) done).map Prod.fst).Pairwise (· < ·) := by
  induction xs generalizing done with
  | nil => exact ⟨by simp, hdone⟩
  | cons x xs ih =>
    have hperm : (place x.1 x.2 done ++ xs).Perm (done ++ x :: xs) :=
      ((place_perm x.1 x.2 done).append_right xs).trans List.perm_middle.symm
    have hx : x.1 ∉ done.map Prod.fst := by
      rw [List.map_append, List.map_cons] at h
      exact fun hmem => (List.nodup_append.1 h).2.2 _ hmem _ (by simp) rfl
    obtain ⟨hp, ha⟩ := ih (place x.1 x.2 done) ((hperm.map Prod.fst).nodup_iff.2 h)
      (place_ascending hx hdone)
    exact ⟨hp.trans hperm, ha⟩

theorem sorted_perm {xs : List (String × α)} (h : (xs.map Prod.fst).Nodup) :
    (sorted xs).Perm xs := (foldl_place xs [] (by simpa using h) .nil).1

theorem sorted_ascending {xs : List (String × α)} (h : (xs.map Prod.fst).Nodup) :
    ((sorted xs).map Prod.fst).Pairwise (· < ·) := (foldl_place xs [] (by simpa using h) .nil).2

section Entries

variable {Is : Toml → α → Prop} {t : Table} {l l' : List (String × α)} {read : Toml → Option α}

/-- Entries with values that stand for those of a table. -/
abbrev Corresponds (Is : Toml → α → Prop) (t : Table) (l : List (String × α)) : Prop :=
  List.Forall₂ (fun e x => e.1 = x.1 ∧ Is e.2 x.2) t l

private theorem Corresponds.map_fst (h : Corresponds Is t l) :
    t.map Prod.fst = l.map Prod.fst := by
  induction h with
  | nil => rfl
  | cons he _ ih => rw [List.map_cons, List.map_cons, he.1, ih]

private theorem Corresponds.exists_of_mem {key : String} {a : α} (h : Corresponds Is t l)
    (hmem : (key, a) ∈ l) : ∃ v, (key, v) ∈ t ∧ Is v a := by
  induction h with
  | nil => cases hmem
  | @cons e x t l he _ ih =>
    rcases List.mem_cons.1 hmem with rfl | hmem
    · obtain ⟨k, v⟩ := e
      obtain ⟨rfl, hv⟩ := he
      exact ⟨v, List.mem_cons_self, hv⟩
    · obtain ⟨v, hv, hIs⟩ := ih hmem
      exact ⟨v, List.mem_cons_of_mem _ hv, hIs⟩

theorem mapM_eq_some_iff : (t.mapM fun e : String × Toml => (read e.2).map fun a => (e.1, a)) =
    some l ↔ Corresponds (fun v a => read v = some a) t l := by
  induction t generalizing l with
  | nil => simp [eq_comm]
  | cons e t ih =>
    simp only [List.mapM_cons, Option.bind_eq_bind, Option.bind_eq_some_iff, Option.map_eq_some_iff,
      Option.pure_def, Option.some.injEq, List.forall₂_cons_left_iff, ih]
    constructor
    · rintro ⟨_, ⟨a, ha, rfl⟩, rest, hrest, rfl⟩
      exact ⟨_, rest, ⟨rfl, ha⟩, hrest, rfl⟩
    · rintro ⟨⟨k, a⟩, rest, ⟨rfl, ha⟩, hrest, rfl⟩
      exact ⟨_, ⟨a, ha, rfl⟩, rest, hrest, rfl⟩

theorem exists_corresponds (h : ∀ e ∈ t, ∃ a, Is e.2 a) : ∃ l, Corresponds Is t l := by
  induction t with
  | nil => exact ⟨[], .nil⟩
  | cons e t ih =>
    obtain ⟨⟨a, ha⟩, hrest⟩ := List.forall_mem_cons.1 h
    obtain ⟨l, hl⟩ := ih hrest
    exact ⟨(e.1, a) :: l, .cons ⟨rfl, ha⟩ hl⟩

theorem Corresponds.entriesAre (h : Corresponds Is t l) (ht : t.Distinct) :
    EntriesAre Is t (sorted l) := by
  have hnodup : (l.map Prod.fst).Nodup := h.map_fst ▸ ht.nodup
  have hperm := sorted_perm hnodup
  refine ⟨sorted_ascending hnodup, ?_, ?_⟩
  · intro key
    rw [(hperm.map Prod.fst).mem_iff, ← h.map_fst, ne_eq, Table.get?_eq_none, not_not]
  · intro key a hmem
    obtain ⟨v, hv, hIs⟩ := h.exists_of_mem (hperm.mem_iff.1 hmem)
    exact ⟨v, ht.get?_of_mem hv, hIs⟩

theorem EntriesAre.exists_of_get? {key : String} {v : Toml} (h : EntriesAre Is t l)
    (hget : t.get? key = some v) : ∃ a, (key, a) ∈ l ∧ Is v a := by
  obtain ⟨⟨k, a⟩, hmem, rfl⟩ := List.mem_map.1 ((h.keys key).2 (by simp [hget]))
  obtain ⟨w, hw, hIs⟩ := h.given k a hmem
  obtain rfl : v = w := Option.some.inj (hget.symm.trans hw)
  exact ⟨a, hmem, hIs⟩

theorem entriesAre_nil : EntriesAre Is [] l ↔ l = [] := by
  constructor
  · intro h
    refine List.eq_nil_iff_forall_not_mem.2 fun x hx => ?_
    obtain ⟨v, hv, -⟩ := h.given x.1 x.2 hx
    cases hv
  · rintro rfl
    exact ⟨.nil, by simp, by simp⟩

/-- There is one order of the keys only. -/
theorem EntriesAre.unique (hunique : ∀ v a b, Is v a → Is v b → a = b) (h : EntriesAre Is t l)
    (h' : EntriesAre Is t l') : l = l' := by
  have hmem {l l' : List (String × α)} (h : EntriesAre Is t l) (h' : EntriesAre Is t l')
      (x : String × α) (hx : x ∈ l) : x ∈ l' := by
    obtain ⟨k, a⟩ := x
    obtain ⟨v, hv, hIs⟩ := h.given k a hx
    obtain ⟨b, hb, hIs'⟩ := h'.exists_of_get? hv
    rwa [hunique v b a hIs' hIs] at hb
  have : Std.Irrefl fun x y : String × α => x.1 < y.1 := ⟨fun x => lt_irrefl x.1⟩
  have : Std.Antisymm fun x y : String × α => x.1 < y.1 :=
    ⟨fun _ _ hxy hyx => absurd hyx hxy.not_gt⟩
  exact List.Pairwise.eq_of_mem_iff (r := fun x y : String × α => x.1 < y.1)
    (List.pairwise_map.1 h.ascending) (List.pairwise_map.1 h'.ascending)
    fun x => ⟨hmem h h' x, hmem h' h x⟩

theorem EntriesAre.congr {Is' : Toml → α → Prop} {t' : Table} (h : EntriesAre Is t l)
    (hkeys : ∀ key, t'.get? key ≠ none ↔ t.get? key ≠ none)
    (hvalues : ∀ key v a, t.get? key = some v → Is v a → ∃ v', t'.get? key = some v' ∧ Is' v' a) :
    EntriesAre Is' t' l where
  ascending := h.ascending
  keys key := (h.keys key).trans (hkeys key).symm
  given key a hmem := by
    obtain ⟨v, hv, hIs⟩ := h.given key a hmem
    exact hvalues key v a hv hIs

/-- Reading the entries of a table one by one. -/
theorem entries?_eq_some_iff (ht : t.Distinct)
    (hread : ∀ key v a, t.get? key = some v → (read v = some a ↔ Is v a)) :
    entries? read t = some l ↔ EntriesAre Is t l := by
  have hreads : entries? read t = some l ↔ EntriesAre (fun v a => read v = some a) t l := by
    unfold entries?
    rw [Option.map_eq_some_iff]
    constructor
    · rintro ⟨l, hl, rfl⟩
      exact (mapM_eq_some_iff.1 hl).entriesAre ht
    · intro h
      obtain ⟨l', hl'⟩ : ∃ l', Corresponds (fun v a => read v = some a) t l' := by
        refine exists_corresponds fun e he => ?_
        obtain ⟨a, -, ha⟩ := h.exists_of_get? (ht.get?_of_mem he)
        exact ⟨a, ha⟩
      -- What is read is in order too, and so it is the same.
      refine ⟨l', mapM_eq_some_iff.2 hl', ?_⟩
      exact (hl'.entriesAre ht).unique (fun v a b ha hb => Option.some.inj (ha.symm.trans hb)) h
  rw [hreads]
  exact ⟨fun h => h.congr (fun _ => Iff.rfl) fun key v a hv ha => ⟨v, hv, (hread key v a hv).1 ha⟩,
    fun h => h.congr (fun _ => Iff.rfl) fun key v a hv ha => ⟨v, hv, (hread key v a hv).2 ha⟩⟩

theorem exists_entriesAre (ht : t.Distinct) (h : ∀ key v, t.get? key = some v → ∃ a, Is v a) :
    ∃ l, EntriesAre Is t l := by
  obtain ⟨l, hl⟩ := exists_corresponds fun e he => h e.1 e.2 (ht.get?_of_mem he)
  exact ⟨sorted l, hl.entriesAre ht⟩

end Entries

section Values

variable {v : Toml}

theorem text?_eq_some_iff {s : String} : text? v = some s ↔ TextIs v s := by
  cases v <;> simp [text?, TextIs]

theorem textOrNone?_eq_some_iff {d : Option String} : textOrNone? v = some d ↔ TextGiven v d := by
  simp only [textOrNone?, Option.map_eq_some_iff, text?_eq_some_iff]
  exact exists_congr fun s => and_congr_right fun _ => eq_comm

theorem number?_eq_some_iff {limit n : Nat} : number? limit v = some n ↔ NumberIs limit v n := by
  cases v with
  | integer i =>
    simp only [number?, NumberIs, Toml.integer.injEq]
    split <;> simp only [Option.some.injEq, reduceCtorEq, false_iff] <;> omega
  | _ => simp [number?, NumberIs]

theorem policy?_eq_some_iff {p : PendingPolicy} (h : v.isTable = false) :
    policy? v = some p ↔ PolicyIs v p := by
  cases v with
  | text s =>
    simp only [policy?, named?, PendingPolicy.all, PendingPolicy.name, PolicyIs, List.find?_cons,
      List.find?_nil, Toml.text.injEq]
    by_cases hqueue : s = "queue"
    · simp [hqueue, eq_comm]
    · by_cases hreject : s = "reject"
      · simp [hreject, eq_comm]
      · simp [Ne.symm hqueue, Ne.symm hreject, hqueue, hreject]
  | table o t => cases h
  | _ => simp [policy?, PolicyIs]

theorem texts?_eq_some_iff {l : List String} : texts? v = some l ↔ TextsAre v l := by
  cases v with
  | array items =>
    have hitems : items.mapM text? = some l ↔ items = l.map .text := by
      induction items generalizing l with
      | nil => cases l <;> simp
      | cons v items ih =>
        simp only [List.mapM_cons, Option.bind_eq_bind, Option.bind_eq_some_iff, Option.pure_def,
          Option.some.injEq, text?_eq_some_iff, ih]
        cases l with
        | nil => simp
        | cons s l => simp [TextIs]
    simpa [texts?, TextsAre] using hitems
  | _ => simp [texts?, TextsAre]

theorem environment?_eq_some_iff {env : List (String × String)} (h : v.Distinct) :
    environment? v = some env ↔ EnvironmentIs v env := by
  cases v with
  | table o t =>
    have ht := Table.distinct_table.1 h
    simpa [environment?, EnvironmentIs, Toml.isTable, Toml.entries] using
      entries?_eq_some_iff ht fun _ v s _ => text?_eq_some_iff
  | moment m => simp [environment?, EnvironmentIs, Toml.isTable, momentKey, eq_comm]
  | _ => simp [environment?, EnvironmentIs, Toml.isTable]

theorem isText_iff_given : IsText v ↔ ∃ d, TextGiven v d :=
  ⟨fun ⟨s, hs⟩ => ⟨some s, s, hs, rfl⟩, fun ⟨_, s, hs, _⟩ => ⟨s, hs⟩⟩

theorem isNumber_iff {limit : Nat} : IsNumber limit v ↔ ∃ n, NumberIs limit v n := by
  constructor
  · rintro ⟨n, rfl, hn, hlimit⟩
    exact ⟨n.toNat, by rw [Int.toNat_of_nonneg hn], by omega⟩
  · rintro ⟨n, rfl, hn⟩
    exact ⟨n, rfl, by omega, by omega⟩

theorem isPolicy_iff : IsPolicy v ↔ ∃ p, PolicyIs v p := by
  constructor
  · rintro (rfl | rfl)
    · exact ⟨.queue, .inl ⟨rfl, rfl⟩⟩
    · exact ⟨.reject, .inr ⟨rfl, rfl⟩⟩
  · rintro ⟨p, ⟨hv, -⟩ | ⟨hv, -⟩⟩
    · exact .inl hv
    · exact .inr hv

theorem areTexts_iff : AreTexts v ↔ ∃ l, TextsAre v l := by
  constructor
  · rintro ⟨items, rfl, hitems⟩
    obtain ⟨l, rfl⟩ : ∃ l : List String, items = l.map .text := by
      induction items with
      | nil => exact ⟨[], rfl⟩
      | cons v items ih =>
        obtain ⟨⟨s, rfl⟩, hrest⟩ := List.forall_mem_cons.1 hitems
        obtain ⟨l, rfl⟩ := ih hrest
        exact ⟨s :: l, rfl⟩
    exact ⟨l, rfl⟩
  · rintro ⟨l, rfl⟩
    exact ⟨_, rfl, by simp [IsText]⟩

theorem isEnvironment_iff (h : v.Distinct) : IsEnvironment v ↔ ∃ env, EnvironmentIs v env := by
  constructor
  · rintro (⟨htable, htexts⟩ | ⟨m, rfl⟩)
    · obtain ⟨l, hl⟩ : ∃ l, EntriesAre TextIs v.entries l :=
        exists_entriesAre h.entries fun key w hw => htexts _ (Table.mem_of_get? hw)
      exact ⟨l, .inl ⟨htable, hl⟩⟩
    · exact ⟨_, .inr ⟨m, rfl, rfl⟩⟩
  · rintro ⟨env, ⟨htable, henv⟩ | ⟨m, rfl, -⟩⟩
    · refine .inl ⟨htable, fun e he => ?_⟩
      obtain ⟨s, -, hs⟩ := henv.exists_of_get? (h.entries.get?_of_mem he)
      exact ⟨s, hs⟩
    · exact .inr ⟨m, rfl⟩

end Values

section Holding

variable {Is : Toml → α → Prop} {read : Toml → Option α} {t : Table} {place : Nat} {key : String}
  {default a : α}

theorem setting_eq_some_iff (h : ∀ v, t.get? key = some v → (read v = some a ↔ Is v a)) :
    (Group.named t).setting place key read default = some a ↔ Holds Is t key default a := by
  unfold Group.setting Holds Group.get?
  cases hget : t.get? key with
  | none => simp [hget, eq_comm]
  | some v => simpa [hget] using h v hget

/-- A setting has a value unless what is given is out of its range. -/
theorem exists_holds_iff (default : α) : (∃ a, Holds Is t key default a) ↔
    ∀ v, t.get? key = some v → ∃ a, Is v a := by
  unfold Holds
  cases hget : t.get? key with
  | none => simp
  | some v => simp

theorem Holds.is {v : Toml} (h : Holds Is t key default a) (hget : t.get? key = some v) :
    Is v a := by
  unfold Holds at h
  rwa [hget] at h

theorem text_setting {d r : String} :
    (Group.named t).setting place key text? d = some r ↔ Holds TextIs t key d r :=
  setting_eq_some_iff fun _ _ => text?_eq_some_iff

theorem textOrNone_setting {d r : Option String} :
    (Group.named t).setting place key textOrNone? d = some r ↔ Holds TextGiven t key d r :=
  setting_eq_some_iff fun _ _ => textOrNone?_eq_some_iff

theorem texts_setting {d r : List String} :
    (Group.named t).setting place key texts? d = some r ↔ Holds TextsAre t key d r :=
  setting_eq_some_iff fun _ _ => texts?_eq_some_iff

theorem word_setting {d r : Nat} :
    (Group.named t).setting place key (number? wordLimit) d = some r ↔
      Holds (NumberIs (2 ^ 63)) t key d r :=
  setting_eq_some_iff fun _ _ => number?_eq_some_iff

theorem context_setting {d r : Nat} :
    (Group.named t).setting place key (number? contextLimit) d = some r ↔
      Holds (NumberIs (2 ^ 32)) t key d r :=
  setting_eq_some_iff fun _ _ => number?_eq_some_iff

theorem holds_text_none {r : String} :
    Holds TextGiven t key none (some r) ↔ ∃ v, t.get? key = some v ∧ TextIs v r := by
  unfold Holds
  cases hget : t.get? key <;> simp [TextGiven, TextIs]

end Holding

end Settings

open Toml (Table)

private theorem BridgeSettings.ofToml?_table {o : Toml.Origin} {t : Table} {b : BridgeSettings}
    (hpolicy : ∀ w, t.get? "pending_policy" = some w → w.isTable = false) :
    BridgeSettings.ofToml? (.table o t) = some b ↔ b.Given t := by
  have policy {place d p} : (Group.named t).setting place "pending_policy" policy? d = some p ↔
      Holds PolicyIs t "pending_policy" d p :=
    setting_eq_some_iff fun w hw => policy?_eq_some_iff (hpolicy w hw)
  simp only [BridgeSettings.ofToml?, Group.ofToml?, Option.bind_eq_bind, Option.bind_some,
    Option.bind_eq_some_iff, Option.pure_def, Option.some.injEq, policy, word_setting,
    context_setting, textOrNone_setting]
  constructor
  · rintro ⟨_, hp, _, hm, _, he, _, hl, _, hc, _, hi, _, hd, rfl⟩
    exact ⟨hp, hm, he, hl, hc, hi, hd⟩
  · intro h
    exact ⟨_, h.pendingPolicy, _, h.maxPending, _, h.execTimeout, _, h.loadTimeout, _,
      h.channelCapacity, _, h.contextId, _, h.defaultModule, rfl⟩

theorem BridgeSettings.ofToml?_eq_some_iff {v : Toml} {b : BridgeSettings}
    (htable : v.isTable = true)
    (hpolicy : ∀ w, v.entries.get? "pending_policy" = some w → w.isTable = false) :
    BridgeSettings.ofToml? v = some b ↔ b.Given v.entries := by
  cases v with
  | table o t => exact ofToml?_table hpolicy
  | _ => cases htable

private theorem ModuleSettings.ofToml?_table {o : Toml.Origin} {t : Table} {m : ModuleSettings}
    (ht : t.Distinct) : ModuleSettings.ofToml? (.table o t) = some m ↔ m.Given t := by
  have environment {place d env} : (Group.named t).setting place "env" environment? d = some env ↔
      Holds EnvironmentIs t "env" d env :=
    setting_eq_some_iff fun w hw => environment?_eq_some_iff (ht.value hw)
  simp only [ModuleSettings.ofToml?, Group.ofToml?, Option.bind_eq_bind, Option.bind_some,
    Option.bind_eq_some_iff, Option.pure_def, Option.some.injEq, environment, text_setting,
    textOrNone_setting, texts_setting]
  constructor
  · rintro ⟨_, hc, _, rfl, _, ha, _, he, _, hs, _, hm, _, hd, rfl⟩
    exact ⟨holds_text_none.1 hc, ha, he, hs, hm, hd⟩
  · intro h
    exact ⟨_, holds_text_none.2 h.command, _, rfl, _, h.args, _, h.env, _, h.syncCommand, _,
      h.syncMarker, _, h.description, rfl⟩

theorem ModuleSettings.ofToml?_eq_some_iff {v : Toml} {m : ModuleSettings} (hv : v.Distinct)
    (htable : v.isTable = true) : ModuleSettings.ofToml? v = some m ↔ m.Given v.entries := by
  cases v with
  | table o t => exact ofToml?_table (Table.distinct_table.1 hv)
  | _ => cases htable

/-- Where nothing is given the defaults hold. -/
theorem BridgeSettings.given_nil {b : BridgeSettings} : b.Given [] ↔ b = {} := by
  constructor
  · rintro ⟨hp, hm, he, hl, hc, hi, hd⟩
    cases b
    simp_all [Holds]
  · rintro rfl
    exact ⟨rfl, rfl, rfl, rfl, rfl, rfl, rfl⟩

/-- A bridge has settings unless one that is given is out of its range. -/
theorem BridgeSettings.exists_given_iff {t : Table} :
    (∃ b : BridgeSettings, b.Given t) ↔ Settings.InRange bridgeRanges t := by
  simp only [Settings.InRange, bridgeRanges, List.forall_mem_cons, isPolicy_iff, isNumber_iff,
    isText_iff_given]
  constructor
  · rintro ⟨b, h⟩
    exact ⟨(exists_holds_iff _).1 ⟨_, h.pendingPolicy⟩, (exists_holds_iff _).1 ⟨_, h.maxPending⟩,
      (exists_holds_iff _).1 ⟨_, h.execTimeout⟩, (exists_holds_iff _).1 ⟨_, h.loadTimeout⟩,
      (exists_holds_iff _).1 ⟨_, h.channelCapacity⟩, (exists_holds_iff _).1 ⟨_, h.contextId⟩,
      (exists_holds_iff _).1 ⟨_, h.defaultModule⟩, by simp⟩
  · rintro ⟨hp, hm, he, hl, hc, hi, hd, -⟩
    obtain ⟨_, hp⟩ := (exists_holds_iff _).2 hp
    obtain ⟨_, hm⟩ := (exists_holds_iff _).2 hm
    obtain ⟨_, he⟩ := (exists_holds_iff _).2 he
    obtain ⟨_, hl⟩ := (exists_holds_iff _).2 hl
    obtain ⟨_, hc⟩ := (exists_holds_iff _).2 hc
    obtain ⟨_, hi⟩ := (exists_holds_iff _).2 hi
    obtain ⟨_, hd⟩ := (exists_holds_iff _).2 hd
    exact ⟨⟨_, _, _, _, _, _, _⟩, hp, hm, he, hl, hc, hi, hd⟩

/-- So has a module that has a command. -/
theorem ModuleSettings.exists_given_iff {t : Table} (ht : t.Distinct) :
    (∃ m : ModuleSettings, m.Given t) ↔
      Settings.InRange (moduleRanges IsEnvironment) t ∧ t.get? "command" ≠ none := by
  have environment : (∀ v, t.get? "env" = some v → IsEnvironment v) ↔
      ∀ v, t.get? "env" = some v → ∃ env, EnvironmentIs v env :=
    forall₂_congr fun v hv => isEnvironment_iff (ht.value hv)
  simp only [Settings.InRange, moduleRanges, List.forall_mem_cons, environment, areTexts_iff]
  constructor
  · rintro ⟨m, h⟩
    obtain ⟨v, hv, hcommand⟩ := h.command
    refine ⟨⟨fun w hw => ?_, (exists_holds_iff _).1 ⟨_, h.args⟩, (exists_holds_iff _).1 ⟨_, h.env⟩,
      (exists_holds_iff _).1 ⟨_, h.syncCommand⟩, (exists_holds_iff _).1 ⟨_, h.syncMarker⟩,
      fun w hw => ?_, by simp⟩, by simp [hv]⟩
    · obtain rfl : v = w := Option.some.inj (hv.symm.trans hw)
      exact ⟨_, hcommand⟩
    · exact isText_iff_given.2 ((exists_holds_iff _).1 ⟨_, h.description⟩ w hw)
  · rintro ⟨⟨hc, ha, he, hs, hm, hd, -⟩, hcommand⟩
    obtain ⟨v, hv⟩ := Option.ne_none_iff_exists'.1 hcommand
    obtain ⟨_, hc⟩ := hc v hv
    obtain ⟨_, ha⟩ := (exists_holds_iff _).2 ha
    obtain ⟨_, he⟩ := (exists_holds_iff _).2 he
    obtain ⟨_, hs⟩ := (exists_holds_iff _).2 hs
    obtain ⟨_, hm⟩ := (exists_holds_iff _).2 hm
    obtain ⟨_, hd⟩ := (exists_holds_iff _).2 fun w hw => isText_iff_given.1 (hd w hw)
    exact ⟨⟨_, _, _, _, _, _⟩, ⟨v, hv, hc⟩, ha, he, hs, hm, hd⟩

namespace Config

variable {document : Table} {c : Config}

theorem modules?_eq_some_iff {v : Toml} {l : List (String × ModuleSettings)} (hv : v.Distinct)
    (htable : v.isTable = true) (hentries : ∀ name w, v.entries.get? name = some w →
      w.isTable = true) :
    modules? v = some l ↔ EntriesAre (fun w m => m.Given w.entries) v.entries l := by
  cases v with
  | table o t =>
    have ht := Table.distinct_table.1 hv
    exact entries?_eq_some_iff ht fun name w _ hw =>
      ModuleSettings.ofToml?_eq_some_iff (ht.value hw) (hentries name w hw)
  | _ => cases htable

/-- What is read is what is given. -/
theorem ofToml?_eq_some_iff (hdistinct : document.Distinct) (hshape : Shaped document) :
    ofToml? document = some c ↔ c.Given document := by
  have bridge {b} : (Group.named document).setting 0 "bridge" BridgeSettings.ofToml? {} = some b ↔
      b.Given (document.under "bridge") := by
    cases hget : document.get? "bridge" with
    | none =>
      rw [Table.under_of_none hget, BridgeSettings.given_nil]
      simp [Group.setting, Group.get?, hget, eq_comm]
    | some v =>
      have hpolicy := hshape.policy
      rw [Table.under_of_some hget] at hpolicy ⊢
      simp only [Group.setting, Group.get?, hget]
      exact BridgeSettings.ofToml?_eq_some_iff (hshape.bridge v hget) hpolicy
  have modules {l} : (Group.named document).setting 1 "modules" modules? [] = some l ↔
      EntriesAre (fun v m => ModuleSettings.Given v.entries m) (document.under "modules") l := by
    cases hget : document.get? "modules" with
    | none =>
      rw [Table.under_of_none hget, entriesAre_nil]
      simp [Group.setting, Group.get?, hget, eq_comm]
    | some v =>
      have hentries := hshape.entries
      rw [Table.under_of_some hget] at hentries ⊢
      simp only [Group.setting, Group.get?, hget]
      exact modules?_eq_some_iff (hdistinct.value hget) (hshape.modules v hget) hentries
  simp only [ofToml?, Option.bind_eq_bind, Option.bind_eq_some_iff, Option.pure_def,
    Option.some.injEq, bridge, modules]
  constructor
  · rintro ⟨_, hb, _, hm, rfl⟩
    exact ⟨hb, hm⟩
  · intro h
    exact ⟨_, h.bridge, _, h.modules, rfl⟩

theorem exists_given_iff (hdistinct : document.Distinct) :
    (∃ c : Config, c.Given document) ↔ InRange IsEnvironment document := by
  have hmodules : Table.Distinct (document.under "modules") := hdistinct.under "modules"
  constructor
  · rintro ⟨c, h⟩
    refine ⟨BridgeSettings.exists_given_iff.1 ⟨_, h.bridge⟩, fun name v hv => ?_⟩
    obtain ⟨m, -, hm⟩ := h.modules.exists_of_get? hv
    exact (ModuleSettings.exists_given_iff (hmodules.value hv).entries).1 ⟨m, hm⟩
  · intro h
    obtain ⟨b, hb⟩ := BridgeSettings.exists_given_iff.2 h.bridge
    obtain ⟨l, hl⟩ : ∃ l, EntriesAre (fun v (m : ModuleSettings) => m.Given v.entries)
        (document.under "modules") l :=
      exists_entriesAre hmodules fun name v hv =>
        (ModuleSettings.exists_given_iff (hmodules.value hv).entries).2 (h.modules name v hv)
    exact ⟨⟨b, l⟩, hb, hl⟩

end Config

namespace Settings

variable {α : Type} {Is : Toml → α → Prop} {v w : Toml} {t u : Table} {keys : List String}
  {key : String} {default a : α}

theorem Same.symm (h : Same v w) : Same w v := by
  rcases h with rfl | ⟨hv, hw, hget⟩
  · exact .inl rfl
  · exact .inr ⟨hw, hv, fun key => (hget key).symm⟩

theorem rel_symm {R S : Toml → Toml → Prop} {x y : Option Toml} (hsymm : ∀ v w, R v w → S w v)
    (h : Option.Rel R x y) : Option.Rel S y x := by
  cases h with
  | none => exact .none
  | some h => exact .some (hsymm _ _ h)

theorem ne_none_of_rel {R : Toml → Toml → Prop} {x y : Option Toml} (h : Option.Rel R x y) :
    y ≠ none ↔ x ≠ none := by
  cases h <;> simp

theorem exists_of_rel {R : Toml → Toml → Prop} {x y : Option Toml} (h : Option.Rel R x y)
    (hx : x = some v) : ∃ w, y = some w ∧ R v w := by
  cases h with
  | none => cases hx
  | some h =>
    obtain rfl := Option.some.inj hx
    exact ⟨_, rfl, h⟩

theorem Agree.symm (h : Agree keys t u) : Agree keys u t := fun key hkey =>
  rel_symm (fun _ _ => Same.symm) (h key hkey)

theorem Holds.agree (hsame : ∀ v w a, Same v w → Is v a → Is w a) (h : Agree keys t u)
    (hholds : Holds Is t key default a) (hkey : key ∈ keys) : Holds Is u key default a := by
  cases hget : t.get? key with
  | none =>
    have hnone : u.get? key = none := by simpa [hget] using ne_none_of_rel (h key hkey)
    simpa [Holds, hget, hnone] using hholds
  | some v =>
    obtain ⟨w, hw, hvw⟩ := exists_of_rel (h key hkey) hget
    simpa [Holds, hw] using hsame v w a hvw (hholds.is hget)

theorem Same.eq (h : Same v w) (hv : v.isTable = false) : v = w := by
  rcases h with rfl | ⟨hv', -, -⟩
  · rfl
  · rw [hv] at hv'
    cases hv'

/-- What only stands in values that are no tables, stands in the same values only. -/
theorem same_of_plain (hplain : ∀ v a, Is v a → v.isTable = false) (v w : Toml) (a : α)
    (h : Same v w) (hv : Is v a) : Is w a := h.eq (hplain v a hv) ▸ hv

theorem textIs_same : ∀ v w s, Same v w → TextIs v s → TextIs w s :=
  same_of_plain (by rintro _ s rfl; rfl)

theorem textGiven_same : ∀ v w d, Same v w → TextGiven v d → TextGiven w d :=
  same_of_plain (by rintro _ d ⟨s, rfl, -⟩; rfl)

theorem textsAre_same : ∀ v w l, Same v w → TextsAre v l → TextsAre w l :=
  same_of_plain (by rintro _ l rfl; rfl)

theorem numberIs_same {limit : Nat} : ∀ v w n, Same v w → NumberIs limit v n → NumberIs limit w n :=
  same_of_plain (by rintro _ n ⟨rfl, -⟩; rfl)

theorem policyIs_same : ∀ v w p, Same v w → PolicyIs v p → PolicyIs w p :=
  same_of_plain (by rintro _ p (⟨rfl, -⟩ | ⟨rfl, -⟩) <;> rfl)

theorem environmentIs_same (v w : Toml) (env : List (String × String)) (h : Same v w)
    (hv : EnvironmentIs v env) : EnvironmentIs w env := by
  rcases h with rfl | ⟨htable, htable', hget⟩
  · exact hv
  rcases hv with ⟨-, henv⟩ | ⟨m, rfl, -⟩
  · refine .inl ⟨htable', henv.congr (fun key => by rw [hget]) fun key v s hv hs => ?_⟩
    exact ⟨v, (hget key).symm.trans hv, hs⟩
  · cases htable

end Settings

theorem BridgeSettings.Given.agree {b : BridgeSettings} {t u : Table}
    (h : Settings.Agree (bridgeRanges.map Prod.fst) t u) (hb : b.Given t) : b.Given u where
  pendingPolicy := hb.pendingPolicy.agree policyIs_same h (by simp [bridgeRanges])
  maxPending := hb.maxPending.agree numberIs_same h (by simp [bridgeRanges])
  execTimeout := hb.execTimeout.agree numberIs_same h (by simp [bridgeRanges])
  loadTimeout := hb.loadTimeout.agree numberIs_same h (by simp [bridgeRanges])
  channelCapacity := hb.channelCapacity.agree numberIs_same h (by simp [bridgeRanges])
  contextId := hb.contextId.agree numberIs_same h (by simp [bridgeRanges])
  defaultModule := hb.defaultModule.agree textGiven_same h (by simp [bridgeRanges])

theorem ModuleSettings.Given.agree {m : ModuleSettings} {t u : Table}
    (h : Settings.Agree ((moduleRanges IsEnvironment).map Prod.fst) t u) (hm : m.Given t) :
    m.Given u where
  command := holds_text_none.1 ((holds_text_none.2 hm.command).agree textGiven_same h
    (by simp [moduleRanges]))
  args := hm.args.agree textsAre_same h (by simp [moduleRanges])
  env := hm.env.agree environmentIs_same h (by simp [moduleRanges])
  syncCommand := hm.syncCommand.agree textIs_same h (by simp [moduleRanges])
  syncMarker := hm.syncMarker.agree textIs_same h (by simp [moduleRanges])
  description := hm.description.agree textGiven_same h (by simp [moduleRanges])

namespace Config

variable {document other : Table} {c : Config}

theorem Agree.symm (h : Agree document other) : Agree other document where
  bridge := h.bridge.symm
  modules name := rel_symm (fun _ _ => Settings.Agree.symm) (h.modules name)

/-- Documents that say the same give the same configuration. -/
theorem Given.agree (h : Agree document other) (hc : c.Given document) : c.Given other where
  bridge := hc.bridge.agree h.bridge
  modules := by
    refine hc.modules.congr (fun name => ne_none_of_rel (h.modules name)) ?_
    intro name v m hv hm
    obtain ⟨w, hw, hagree⟩ := exists_of_rel (h.modules name) hv
    exact ⟨w, hw, hm.agree hagree⟩

/-- What comes of a document. It is a configuration just when each setting that is given is in its
range and each module has a command; each setting is then the one given or else its default, and
otherwise nothing is read at all. -/
structure Decoded (document : Table) (result : Except ConfigError Config) : Prop where
  succeeds_iff : (∃ c, result = .ok c) ↔ InRange IsEnvironment document
  given : ∀ c, result = .ok c → c.Given document
  refused : ¬ InRange IsEnvironment document → result = .error .invalid

theorem parse_eq_ok_iff {content : String} (hread : Toml.read? content = some document)
    (hshape : Shaped document) : parse content = .ok c ↔ c.Given document := by
  rw [← ofToml?_eq_some_iff (Toml.distinct_of_read? hread) hshape]
  unfold parse
  rw [hread, Option.bind_some]
  cases ofToml? document <;> simp

theorem parse_eq_error {content : String} (h : ∀ c, parse content ≠ .ok c) :
    parse content = .error .invalid := by
  unfold parse at h ⊢
  split
  next c hc => exact absurd (by rw [hc]) (h c)
  · rfl

/-- A configuration is read setting by setting or not at all, whatever else stands in the document
and in whatever order. -/
theorem decoded {content : String} (hread : Toml.read? content = some document)
    (hshape : Shaped document) : Decoded document (parse content) ∧
      ∀ content' other, Toml.read? content' = some other → Shaped other → Agree document other →
        parse content' = parse content := by
  have hsucceeds : (∃ c, parse content = .ok c) ↔ InRange IsEnvironment document := by
    rw [← exists_given_iff (Toml.distinct_of_read? hread)]
    exact exists_congr fun c => parse_eq_ok_iff hread hshape
  refine ⟨⟨hsucceeds, fun c => (parse_eq_ok_iff hread hshape).1, fun hrange => ?_⟩, ?_⟩
  · exact parse_eq_error fun c hc => hrange (hsucceeds.1 ⟨c, hc⟩)
  · intro content' other hread' hshape' hagree
    -- The two give the same configurations, and there is only one error.
    have hsame (c : Config) : parse content' = .ok c ↔ parse content = .ok c := by
      rw [parse_eq_ok_iff hread hshape, parse_eq_ok_iff hread' hshape']
      exact ⟨.agree hagree.symm, .agree hagree⟩
    cases hparse : parse content with
    | ok c => exact (hsame c).2 hparse
    | error e =>
      have hnone (c : Config) : parse content ≠ .ok c := by simp [hparse]
      rw [parse_eq_error fun c hc => hnone c ((hsame c).1 hc), ← hparse, parse_eq_error hnone]

end Config

namespace Rehearsal

/-- A key that nobody knows, and two modules, the later one first. -/
def content : String :=
  "colour = 1\n[modules.b]\ncommand = \"b\"\nenv.K = \"v\"\n[modules.a]\ncommand = \"a\"\n"

def document : Table :=
  [("colour", .integer 1),
    ("modules", .table .implied
      [("b", .table .header [("command", .text "b"), ("env", .table .dotted [("K", .text "v")])]),
        ("a", .table .header [("command", .text "a")])])]

end Rehearsal

namespace Config

private theorem Shaped.of_modules {origin : Toml.Origin} {t : Table}
    (hbridge : document.get? "bridge" = none)
    (hmodules : document.get? "modules" = some (.table origin t))
    (h : ∀ e ∈ t, e.2.isTable = true) : Shaped document where
  bridge v hv := by simp [hbridge] at hv
  modules v hv := by
    obtain rfl := Option.some.inj (hmodules.symm.trans hv)
    rfl
  entries name v hv := by
    rw [Table.under_of_some hmodules] at hv
    exact h _ (Table.mem_of_get? hv)
  policy v hv := by simp [Table.under_of_none hbridge] at hv

theorem decoded_rehearsal : Toml.read? Rehearsal.content = some Rehearsal.document ∧
    Shaped Rehearsal.document ∧ Decoded Rehearsal.document (parse Rehearsal.content) := by
  have hread : Toml.read? Rehearsal.content = some Rehearsal.document := by rfl
  have hshape : Shaped Rehearsal.document := .of_modules rfl rfl (by simp [Toml.isTable])
  exact ⟨hread, hshape, (decoded hread hshape).1⟩

example : parse Rehearsal.content = .ok
    { modules := [("a", { command := "a" }), ("b", { command := "b", env := [("K", "v")] })] } := by
  decide +kernel

end Config

namespace Rehearsal

/-- A module with a date for its environment. -/
def datedContent : String := "[modules.m]\ncommand = \"c\"\nenv = 1979-05-27"

def datedDocument : Table :=
  [("modules", .table .implied
    [("m", .table .header
      [("command", .text "c"), ("env", .moment (.date ⟨1979, 5, 27⟩))])])]

end Rehearsal

namespace Config

/-- Not only a table of texts can be an environment: a date is taken for one. -/
theorem date_as_environment : Toml.read? Rehearsal.datedContent = some Rehearsal.datedDocument ∧
    Shaped Rehearsal.datedDocument ∧ ¬ InRange IsTableOfTexts Rehearsal.datedDocument ∧
    parse Rehearsal.datedContent = .ok { modules :=
      [("m", { command := "c", env := [("$__toml_private_datetime", "1979-05-27")] })] } := by
  refine ⟨by rfl, .of_modules rfl rfl (by simp [Toml.isTable]), ?_, by decide +kernel⟩
  intro h
  obtain ⟨hrange, -⟩ := h.modules "m" _ rfl
  obtain ⟨htable, -⟩ := hrange ("env", IsTableOfTexts) (by simp [moduleRanges]) _ rfl
  cases htable

end Config

end EngineBridge
