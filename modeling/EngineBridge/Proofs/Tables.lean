import Mathlib.Data.List.Nodup
import EngineBridge.Toml.Reader

/-!
# Keys of tables

In a table that was read no key stands twice, however deep the table lies in the document. So it
does not matter where in a table a key stands.
-/

namespace EngineBridge.Toml

/-- No key stands twice in a table, however deep. -/
inductive Distinct : Toml → Prop
  | text (s) : Distinct (.text s)
  | integer (n) : Distinct (.integer n)
  | real (r) : Distinct (.real r)
  | bool (b) : Distinct (.bool b)
  | moment (m) : Distinct (.moment m)
  | array {items} (h : ∀ v ∈ items, Distinct v) : Distinct (.array items)
  | table {origin entries} (hkeys : (entries.map Prod.fst).Nodup)
      (h : ∀ e ∈ entries, Distinct e.2) : Distinct (.table origin entries)
  | tables {rows} (hkeys : ∀ row ∈ rows, (row.map Prod.fst).Nodup)
      (h : ∀ row ∈ rows, ∀ e ∈ row, Distinct e.2) : Distinct (.tables rows)

namespace Table

variable {t u : Table} {key : String} {v : Toml} {o via : Origin}

@[simp] theorem get?_nil (key : String) : get? [] key = none := rfl

theorem get?_eq_none : t.get? key = none ↔ key ∉ t.map Prod.fst := by
  simp only [get?, Option.map_eq_none_iff, List.find?_eq_none, List.mem_map, decide_eq_true_eq]
  exact ⟨fun h ⟨e, he, hkey⟩ => h e he hkey, fun h e he hkey => h ⟨e, he, hkey⟩⟩

theorem has_eq_false : t.has key = false ↔ t.get? key = none := by
  simp [get?, has]

theorem mem_of_get? (h : t.get? key = some v) : (key, v) ∈ t := by
  obtain ⟨⟨k, w⟩, hfind, rfl⟩ := Option.map_eq_some_iff.1 h
  obtain rfl : k = key := by simpa using List.find?_some hfind
  exact List.mem_of_find?_eq_some hfind

/-- A table in which no key stands twice, nor in any table below it. -/
structure Distinct (t : Table) : Prop where
  nodup : (t.map Prod.fst).Nodup
  values : ∀ e ∈ t, e.2.Distinct

theorem distinct_nil : Distinct [] := ⟨List.nodup_nil, by simp⟩

/-- Where keys are distinct, each entry is found under its key. -/
theorem Distinct.get?_of_mem (h : t.Distinct) (hmem : (key, v) ∈ t) : t.get? key = some v := by
  cases hget : t.get? key with
  | none => exact absurd (List.mem_map_of_mem hmem) (get?_eq_none.1 hget)
  | some w =>
    have hw := mem_of_get? hget
    have heq := List.inj_on_of_nodup_map h.nodup hmem hw rfl
    rw [(Prod.mk.inj heq).2]

theorem Distinct.value (h : t.Distinct) (hget : t.get? key = some v) : v.Distinct :=
  h.values _ (mem_of_get? hget)

theorem distinct_table : Toml.Distinct (.table o t) ↔ t.Distinct := by
  constructor
  · rintro (_ | _ | _ | _ | _ | _ | ⟨hkeys, h⟩)
    exact ⟨hkeys, h⟩
  · exact fun h => .table h.nodup h.values

theorem distinct_tables {rows : List Table} :
    Toml.Distinct (.tables rows) ↔ ∀ row ∈ rows, Distinct row := by
  constructor
  · rintro (_ | _ | _ | _ | _ | _ | _ | ⟨hkeys, h⟩)
    exact fun row hrow => ⟨hkeys row hrow, h row hrow⟩
  · exact fun h => .tables (fun row hrow => (h row hrow).nodup) fun row hrow => (h row hrow).values

theorem Distinct.concat (h : t.Distinct) (hkey : t.get? key = none) (hv : v.Distinct) :
    (t ++ [(key, v)]).Distinct where
  nodup := by
    rw [List.map_append]
    refine h.nodup.append (List.nodup_singleton _) ?_
    simpa using get?_eq_none.1 hkey
  values e he := by
    rcases List.mem_append.1 he with he | he
    · exact h.values e he
    · obtain rfl := List.mem_singleton.1 he
      exact hv

theorem map_fst_replace (t : Table) (key : String) (v : Toml) :
    (t.replace key v).map Prod.fst = t.map Prod.fst := by
  unfold replace
  rw [List.map_map]
  refine List.map_congr_left ?_
  rintro ⟨k, w⟩ -
  dsimp only [Function.comp]
  split <;> rfl

theorem Distinct.replace (h : t.Distinct) (hv : v.Distinct) : (t.replace key v).Distinct where
  nodup := by
    rw [map_fst_replace]
    exact h.nodup
  values e he := by
    obtain ⟨⟨k, w⟩, hmem, rfl⟩ := List.mem_map.1 he
    dsimp only
    split
    · exact hv
    · exact h.values _ hmem

theorem Distinct.remove (h : t.Distinct) (key : String) : (t.remove key).Distinct where
  nodup := h.nodup.sublist (List.filter_sublist.map _)
  values e he := h.values e (List.mem_of_mem_filter he)

theorem get?_remove_self (t : Table) (key : String) : (t.remove key).get? key = none := by
  simp [get?_eq_none, Table.remove]

/-- A change that leaves keys distinct does so at the end of any path. -/
theorem Distinct.alter {change : Origin → Table → Option Table} {path : List String}
    (h : t.Distinct) (hchange : ∀ o t u, Distinct t → change o t = some u → Distinct u)
    (halter : Table.alter via change path o t = some u) : u.Distinct := by
  -- On the way down a table gets a new key, or an old key another value.
  induction path generalizing o t u with
  | nil => exact hchange o t u h halter
  | cons key path ih =>
    rw [Table.alter] at halter
    split at halter
    next hget =>
      obtain ⟨row, hrow, rfl⟩ := Option.map_eq_some_iff.1 halter
      exact h.concat hget (distinct_table.2 (ih distinct_nil hrow))
    next o' u' hget =>
      split at halter
      · obtain ⟨row, hrow, rfl⟩ := Option.map_eq_some_iff.1 halter
        have hold := distinct_table.1 (h.value hget)
        exact h.replace (distinct_table.2 (ih hold hrow))
      · cases halter
    next rows hget =>
      obtain ⟨row, hrow, rfl⟩ := Option.map_eq_some_iff.1 halter
      have hrows := distinct_tables.1 (h.value hget)
      have hlast : Distinct (rows.getLast?.getD []) := by
        cases hlast : rows.getLast? with
        | none => exact distinct_nil
        | some last => exact hrows last (List.mem_of_getLast? hlast)
      refine h.replace (distinct_tables.2 ?_)
      intro r hr
      rcases List.mem_append.1 hr with hr | hr
      · exact hrows r ((List.dropLast_sublist _).subset hr)
      · obtain rfl := List.mem_singleton.1 hr
        exact ih hlast hrow
    · cases halter

theorem Distinct.assign {a : Assignment} (h : t.Distinct) (ha : a.value.Distinct)
    (hu : t.assign a = some u) : u.Distinct := by
  refine h.alter ?_ hu
  intro o t u ht hu
  split at hu
  next hfree =>
    obtain rfl := Option.some.inj hu
    refine ht.concat (has_eq_false.1 ?_) ha
    simpa using (Bool.and_eq_true_iff.1 hfree).2
  · cases hu

theorem Distinct.assignAll {as : List Assignment} (h : t.Distinct)
    (has : ∀ a ∈ as, a.value.Distinct) (hu : t.assignAll as = some u) : u.Distinct := by
  induction as generalizing t with
  | nil =>
    obtain rfl := Option.some.inj hu
    exact h
  | cons a as ih =>
    obtain ⟨ha, has⟩ := List.forall_mem_cons.1 has
    obtain ⟨t', ht', hu⟩ := Option.bind_eq_some_iff.1 hu
    exact ih (h.assign ha ht') has hu

theorem Distinct.addSection {s : Section} (h : t.Distinct)
    (hs : ∀ a ∈ s.assignments, a.value.Distinct) (hu : t.addSection s = some u) : u.Distinct := by
  unfold Table.addSection at hu
  split at hu
  · exact h.assignAll hs hu
  next path _ =>
    refine h.alter ?_ hu
    intro _ parent u hparent hu
    have define {old : Table} (hold : old.Distinct)
        (hu : (old.assignAll s.assignments).map (fun u =>
          parent.remove path.name ++ [(path.name, .table .header u)]) = some u) : u.Distinct := by
      obtain ⟨row, hrow, rfl⟩ := Option.map_eq_some_iff.1 hu
      exact (hparent.remove _).concat (get?_remove_self _ _)
        (distinct_table.2 (hold.assignAll hs hrow))
    dsimp only at hu
    split at hu
    · exact define distinct_nil hu
    next old hget => exact define (distinct_table.1 (hparent.value hget)) hu
    · cases hu
  next path _ =>
    refine h.alter ?_ hu
    intro _ parent u hparent hu
    obtain ⟨row, hrow, hu⟩ := Option.bind_eq_some_iff.1 hu
    have hrow := distinct_nil.assignAll hs hrow
    split at hu
    next hget =>
      obtain rfl := Option.some.inj hu
      exact hparent.concat hget (distinct_tables.2 (by simpa using hrow))
    next rows hget =>
      obtain rfl := Option.some.inj hu
      refine hparent.replace (distinct_tables.2 ?_)
      have hrows := distinct_tables.1 (hparent.value hget)
      intro r hr
      rcases List.mem_append.1 hr with hr | hr
      · exact hrows r hr
      · obtain rfl := List.mem_singleton.1 hr
        exact hrow
    · cases hu

end Table

theorem Table.Distinct.addSections {sections : List Section} {t u : Table} (h : t.Distinct)
    (hs : ∀ s ∈ sections, ∀ a ∈ s.assignments, a.value.Distinct)
    (hu : sections.foldlM Table.addSection t = some u) : u.Distinct := by
  induction sections generalizing t with
  | nil =>
    obtain rfl := Option.some.inj hu
    exact h
  | cons s sections ih =>
    obtain ⟨hhead, hrest⟩ := List.forall_mem_cons.1 hs
    obtain ⟨t', ht', hu⟩ := Option.bind_eq_some_iff.1 hu
    exact ih (h.addSection hhead ht') hrest hu

theorem distinct_of_ofBraces {as : List Assignment} {v : Toml}
    (has : ∀ a ∈ as, a.value.Distinct) (hv : ofBraces as = some v) : v.Distinct := by
  obtain ⟨t, ht, rfl⟩ := Option.map_eq_some_iff.1 hv
  exact Table.distinct_table.2 (Table.distinct_nil.assignAll has ht)

namespace Reader

variable {cs rest : List Char} {v : Toml}

/-- If a value was read, no key stands twice in it. -/
def Gives (read : Option (Toml × List Char)) : Prop := ∀ v rest, read = some (v, rest) → v.Distinct

theorem gives_none : Gives none := nofun

theorem gives_some (h : v.Distinct) : Gives (some (v, rest)) := by
  rintro w rest ⟨⟩
  exact h

theorem gives_bind {α : Type} {x : Option α} {f : α → Option (Toml × List Char)}
    (h : ∀ a, x = some a → Gives (f a)) : Gives (x.bind f) := by
  intro v rest hv
  obtain ⟨a, ha, hv⟩ := Option.bind_eq_some_iff.1 hv
  exact h a ha v rest hv

theorem gives_map {α : Type} {x : Option α} {f : α → Toml × List Char}
    (h : ∀ a, x = some a → (f a).1.Distinct) : Gives (x.map f) := by
  intro v rest hv
  obtain ⟨a, ha, hv⟩ := Option.map_eq_some_iff.1 hv
  simpa [hv] using h a ha

theorem distinct_of_word? {negative : Bool} {n : Nat} (h : word? negative n = some v) :
    v.Distinct := by
  unfold word? at h
  split at h
  · obtain rfl := Option.some.inj h
    exact .integer _
  · split at h
    · obtain rfl := Option.some.inj h
      exact .integer _
    · cases h

theorem distinct_of_real? {negative : Bool} {n : Nat} {e : Int}
    (h : real? negative n e = some v) : v.Distinct := by
  unfold real? at h
  split at h
  · obtain rfl := Option.some.inj h
    exact .real _
  · obtain rfl := Option.some.inj h
    exact .real _
  · cases h

theorem gives_based? (base : Nat) (cs : List Char) : Gives (based? base cs) :=
  gives_bind fun _ _ => gives_bind fun _ hv => gives_some (distinct_of_word? hv)

theorem gives_decimal? (negative : Bool) (cs : List Char) : Gives (decimal? negative cs) := by
  unfold decimal?
  split
  · exact gives_some (.real _)
  · exact gives_some (.real _)
  · refine gives_bind fun ⟨whole, cs⟩ _ => ?_
    dsimp only
    split
    · exact gives_none
    split
    · exact gives_bind fun _ _ => gives_bind fun _ _ => gives_bind fun _ hv =>
        gives_some (distinct_of_real? hv)
    · exact gives_bind fun _ _ => gives_bind fun _ hv => gives_some (distinct_of_real? hv)
    · exact gives_bind fun _ _ => gives_bind fun _ hv => gives_some (distinct_of_real? hv)
    · exact gives_bind fun _ hv => gives_some (distinct_of_word? hv)

theorem gives_scalar? (cs : List Char) : Gives (scalar? cs) := by
  unfold scalar?
  split
  · exact gives_some (.bool _)
  · exact gives_some (.bool _)
  · exact gives_map fun _ _ => .text _
  · exact gives_map fun _ _ => .text _
  · split
    · exact gives_some (.moment _)
    · unfold number?
      split
      · exact gives_based? 16 _
      · exact gives_based? 8 _
      · exact gives_based? 2 _
      · exact gives_decimal? _ _

section Nested

variable {value : List Char → Option (Toml × List Char)}

theorem gives_items? (hvalue : ∀ cs, Gives (value cs)) (fuel : Nat) {done : List Toml}
    (hdone : ∀ v ∈ done, v.Distinct) (cs : List Char) : Gives (items? value fuel done cs) := by
  induction fuel generalizing done cs with
  | zero => exact gives_none
  | succ fuel ih =>
    unfold items?
    split
    · exact gives_some (.array (by simpa using hdone))
    · refine gives_bind fun ⟨v, rest⟩ hv => ?_
      have hmore : ∀ w ∈ v :: done, w.Distinct :=
        List.forall_mem_cons.2 ⟨hvalue _ v rest hv, hdone⟩
      dsimp only
      split
      · exact ih hmore _
      · refine gives_some (.array fun w hw => hmore w (List.mem_reverse.1 hw))
      · exact gives_none

theorem distinct_of_assignment? (hvalue : ∀ cs, Gives (value cs)) {a : Assignment}
    (h : assignment? value cs = some (a, rest)) : a.value.Distinct := by
  obtain ⟨⟨path, cs'⟩, -, h⟩ := Option.bind_eq_some_iff.1 h
  obtain ⟨cs', -, h⟩ := Option.bind_eq_some_iff.1 h
  obtain ⟨⟨v, cs''⟩, hv, h⟩ := Option.bind_eq_some_iff.1 h
  obtain ⟨rfl, -⟩ := Prod.mk.inj (Option.some.inj h)
  exact hvalue _ v cs'' hv

theorem gives_entries? (hvalue : ∀ cs, Gives (value cs)) (fuel : Nat) {done : List Assignment}
    (hdone : ∀ a ∈ done, a.value.Distinct) (cs : List Char) :
    Gives (entries? value fuel done cs) := by
  induction fuel generalizing done cs with
  | zero => exact gives_none
  | succ fuel ih =>
    refine gives_bind fun ⟨a, rest⟩ ha => ?_
    have hmore : ∀ b ∈ a :: done, b.value.Distinct :=
      List.forall_mem_cons.2 ⟨distinct_of_assignment? hvalue ha, hdone⟩
    dsimp only
    split
    · exact ih hmore _
    · exact gives_map fun v hv =>
        distinct_of_ofBraces (fun b hb => hmore b (List.mem_reverse.1 hb)) hv
    · exact gives_none

end Nested

theorem gives_value? (depth : Nat) (cs : List Char) : Gives (value? depth cs) := by
  induction depth generalizing cs with
  | zero => exact gives_scalar? cs
  | succ depth ih =>
    unfold value?
    split
    · exact gives_scalar? _
    next depth' _ hdepth =>
      obtain rfl : depth = depth' := Nat.succ.inj hdepth
      exact gives_items? ih _ (by simp) _
    next depth' _ hdepth =>
      obtain rfl : depth = depth' := Nat.succ.inj hdepth
      split
      · exact gives_some (Table.distinct_table.2 Table.distinct_nil)
      · exact gives_entries? ih _ (by simp) _
    · exact gives_scalar? _

/-- What a line assigns has no key twice. -/
def Line.Distinct : Line → Prop
  | .header _ => True
  | .assignment a => a.value.Distinct

theorem distinct_of_line? {line : Line} (h : line? cs = some (line, rest)) : line.Distinct := by
  unfold line? at h
  split at h
  · obtain ⟨⟨path, _⟩, -, h⟩ := Option.bind_eq_some_iff.1 h
    obtain ⟨_, -, h⟩ := Option.bind_eq_some_iff.1 h
    obtain ⟨_, -, h⟩ := Option.bind_eq_some_iff.1 h
    obtain ⟨rfl, -⟩ := Prod.mk.inj (Option.some.inj h)
    trivial
  · obtain ⟨⟨path, _⟩, -, h⟩ := Option.bind_eq_some_iff.1 h
    obtain ⟨_, -, h⟩ := Option.bind_eq_some_iff.1 h
    obtain ⟨rfl, -⟩ := Prod.mk.inj (Option.some.inj h)
    trivial
  · obtain ⟨⟨a, _⟩, ha, h⟩ := Option.map_eq_some_iff.1 h
    obtain ⟨rfl, -⟩ := Prod.mk.inj h
    exact distinct_of_assignment? (gives_value? depthLimit) ha

theorem distinct_of_lines? {fuel : Nat} {lines : List Line} (h : lines? fuel cs = some lines) :
    ∀ line ∈ lines, line.Distinct := by
  induction fuel generalizing cs lines with
  | zero => cases h
  | succ fuel ih =>
    unfold lines? at h
    split at h
    · obtain rfl := Option.some.inj h
      exact nofun
    · split at h
      · exact ih h
      · obtain ⟨⟨line, _⟩, hline, h⟩ := Option.bind_eq_some_iff.1 h
        obtain ⟨_, -, h⟩ := Option.bind_eq_some_iff.1 h
        obtain ⟨more, hmore, h⟩ := Option.bind_eq_some_iff.1 h
        obtain rfl := Option.some.inj h
        exact List.forall_mem_cons.2 ⟨distinct_of_line? hline, ih hmore⟩

theorem distinct_of_sections {header : Header} {done : List Assignment} {lines : List Line}
    (hdone : ∀ a ∈ done, a.value.Distinct) (hlines : ∀ line ∈ lines, line.Distinct) :
    ∀ s ∈ sections header done lines, ∀ a ∈ s.assignments, a.value.Distinct := by
  induction lines generalizing header done with
  | nil => simpa [sections] using hdone
  | cons line lines ih =>
    obtain ⟨hline, hrest⟩ := List.forall_mem_cons.1 hlines
    cases line with
    | assignment a => exact ih (List.forall_mem_cons.2 ⟨hline, hdone⟩) hrest
    | header h => exact List.forall_mem_cons.2 ⟨by simpa using hdone, ih (by simp) hrest⟩

end Reader

/-- In a document that was read no key stands twice in a table. -/
theorem distinct_of_read? {content : String} {t : Table} (h : read? content = some t) :
    t.Distinct := by
  obtain ⟨lines, hlines, h⟩ := Option.bind_eq_some_iff.1 h
  exact Table.distinct_nil.addSections
    (Reader.distinct_of_sections (by simp) (Reader.distinct_of_lines? hlines)) h

end EngineBridge.Toml
