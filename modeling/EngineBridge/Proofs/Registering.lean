import Mathlib.Algebra.GroupWithZero.Nat
import EngineBridge.Process.Configured
import EngineBridge.Proofs.Pacing

/-!
# A registry in use

Many use one registry at once. Whoever writes has it alone for a moment, and whoever reads has it
together with other readers; nobody keeps it while a module starts. Under each name the last writer
counts, and what has been started is not touched by what is registered or removed later.
-/

namespace EngineBridge

namespace Text

/-- Characters of one length are compared digit by digit; the first byte tells the length. -/
theorem utf8EncodeChar_append_lt {c d : Char} (h : c < d) (x y : Bytes) :
    String.utf8EncodeChar c ++ x < String.utf8EncodeChar d ++ y := by
  have hlt : c.val.toNat < d.val.toNat := h
  have hbound : d.val.toNat < 1114112 := by
    obtain hd | ⟨-, hd⟩ := d.valid
    · exact Nat.lt_trans hd (by decide)
    · exact hd
  unfold String.utf8EncodeChar
  dsimp only
  generalize c.val.toNat = v at hlt ⊢
  generalize d.val.toNat = w at hlt hbound ⊢
  have second (n : Nat) : n / 4096 = n / 64 / 64 := (Nat.div_div_eq_div_mul n 64 64).symm
  have third (n : Nat) : n / 262144 = n / 64 / 64 / 64 := by
    rw [Nat.div_div_eq_div_mul, Nat.div_div_eq_div_mul]
  simp only [second, third]
  -- Each pair of lengths is a case of its own, in which the first bytes that differ decide. Bytes
  -- that are all the same would leave it to `x` and `y`, but then the characters would be equal.
  by_cases hrest : x < y
  all_goals
    split_ifs
    all_goals
      simp only [List.cons_append, List.nil_append, List.cons_lt_cons_iff, UInt8.lt_iff_toNat_lt,
        ← UInt8.toNat_inj, UInt8.toNat_ofNat', hrest, and_true, and_false, or_false]
      omega

theorem flatMap_utf8EncodeChar_lt {cs ds : List Char} (h : cs < ds) :
    cs.flatMap String.utf8EncodeChar < ds.flatMap String.utf8EncodeChar := by
  induction cs generalizing ds with
  | nil =>
    cases ds with
    | nil => exact absurd h (List.lt_irrefl [])
    | cons d ds =>
      rw [List.flatMap_nil, List.flatMap_cons]
      have hne : String.utf8EncodeChar d ≠ [] := String.utf8EncodeChar_ne_nil
      cases henc : String.utf8EncodeChar d with
      | nil => exact absurd henc hne
      | cons b bs => exact List.nil_lt_cons b _
  | cons c cs ih =>
    cases ds with
    | nil => exact absurd h (List.not_lt_nil _)
    | cons d ds =>
      rw [List.flatMap_cons, List.flatMap_cons]
      obtain hcd | ⟨rfl, hrest⟩ := List.cons_lt_cons_iff.1 h
      · exact utf8EncodeChar_append_lt hcd _ _
      · exact List.append_left_lt (ih hrest)

/-- Names are in the order of their bytes. -/
theorem utf8_lt {a b : String} (h : a < b) : utf8 a < utf8 b := by
  rw [utf8_eq_flatMap, utf8_eq_flatMap]
  exact flatMap_utf8EncodeChar_lt h

end Text

namespace Progress

/-- Work that does not hang can be gone on with at some time. -/
theorem exists_free (p : Progress) (hp : p.wait ≠ .forever) :
    ∃ now, p.blocked now true = false := by
  unfold blocked
  cases hw : p.wait with
  | time t => exact ⟨t, by simp⟩
  | forever => exact absurd hw hp
  | _ => exact ⟨0, rfl⟩

end Progress

namespace Registry

variable {σ : Type}

/-- The module that is found under a name. -/
def module? (r : Registry σ) (name : String) : Option (Module σ) :=
  (r.find? name).map (·.module)

theorem name_of_module? {r : Registry σ} {name : String} {m : Module σ}
    (h : r.module? name = some m) : m.name = name := by
  obtain ⟨x, hx, rfl⟩ := Option.map_eq_some_iff.1 h
  simpa using List.find?_some hx

theorem module?_register (r : Registry σ) (m : Module σ) (name : String) :
    (r.register m).module? name = if m.name = name then some m else r.module? name := by
  unfold module?
  rw [find?_register]
  split <;> rfl

theorem module?_unregister (r : Registry σ) (gone name : String) :
    (r.unregister gone).module? name = if gone = name then none else r.module? name := by
  unfold module?
  rw [find?_unregister]
  split <;> rfl

/-- Where no name comes twice, what is there is found. -/
theorem module?_of_mem {r : Registry σ} (hr : Ascending r.entries) {x : Registration σ}
    (hx : x ∈ r.entries) : r.module? x.module.name = some x.module := by
  unfold module? find?
  generalize r.entries = entries at hr hx
  induction entries with
  | nil => cases hx
  | cons y entries ih =>
    obtain ⟨hy, hentries⟩ := List.pairwise_cons.1 hr
    rcases List.mem_cons.1 hx with rfl | hx
    · simp
    · have hne : y.module.name ≠ x.module.name := by
        intro heq
        have hlt := hy x hx
        rw [heq] at hlt
        exact String.lt_irrefl _ hlt
      rw [List.find?_cons_of_neg (by simpa using hne)]
      exact ih hentries hx

theorem load_eq (r : Registry σ) (name : String) (loadTimeout execTimeout : Nat) :
    r.load name loadTimeout execTimeout =
      match r.module? name with
      | none => (.refused (.unknownModule name), 0)
      | some m => m.load loadTimeout execTimeout := by
  unfold load module?
  cases r.find? name <;> rfl

theorem mem_descriptions {r : Registry σ} (hr : Ascending r.entries) {name description : String} :
    (name, description) ∈ r.descriptions ↔
      ∃ m, r.module? name = some m ∧ m.description = description := by
  constructor
  · intro h
    obtain ⟨x, hx, heq⟩ := List.mem_map.1 h
    obtain ⟨rfl, rfl⟩ := Prod.mk.inj heq
    exact ⟨x.module, module?_of_mem hr hx, rfl⟩
  · rintro ⟨m, hm, rfl⟩
    have hname := name_of_module? hm
    obtain ⟨x, hx, rfl⟩ := Option.map_eq_some_iff.1 hm
    exact List.mem_map.2 ⟨x, List.mem_of_find?_eq_some hx, by rw [hname]⟩

/-- A list of names and descriptions in the order of the names, each name once, with the
descriptions of the modules that `found` gives. -/
structure Lists (found : String → Option (Module σ)) (l : List (String × String)) : Prop where
  ascending : l.Pairwise fun a b => Text.utf8 a.1 < Text.utf8 b.1
  mem_iff : ∀ name description, (name, description) ∈ l ↔
    ∃ m, found name = some m ∧ m.description = description

theorem lists_descriptions {r : Registry σ} (hr : Ascending r.entries) :
    Lists r.module? r.descriptions where
  ascending := by
    rw [descriptions, List.pairwise_map]
    exact hr.imp Text.utf8_lt
  mem_iff _ _ := mem_descriptions hr

/-- What a registry can be asked for. -/
inductive Query (σ : Type) where
  | register (m : Module σ)
  | unregister (name : String)
  | list
  | load (name : String)

/-- What a query comes to. -/
inductive Receipt (σ : Type) where
  | noted
  | listed (l : List (String × String))
  | handed (engine : σ)
  | refused (e : LoadError)
  | crashed (p : Panic)

/-- How far a query has come. -/
inductive Errand (σ : Type) where
  | waiting (q : Query σ)
  /-- It has the registry, alone or with others that only read. -/
  | inside (q : Query σ)
  /-- A module starts for it; it has left the registry. -/
  | starting (m : Module σ) (p : Progress)
  | ended (receipt : Receipt σ)

/-- A registry and the errands of all who use it. -/
structure Shared (σ : Type) where
  registry : Registry σ := .empty
  errands : List (Errand σ) := []

namespace Query

/-- Whether the registry is needed alone. -/
def writes : Query σ → Bool
  | .register _ | .unregister _ => true
  | .list | .load _ => false

/-- The module that is to start. -/
def resolve (r : Registry σ) : Query σ → Option (Module σ)
  | .load name => r.module? name
  | _ => none

/-- The registry afterwards, and the errand that goes on without it. -/
def serve (r : Registry σ) : Query σ → Registry σ × Errand σ
  | .register m => (r.register m, .ended .noted)
  | .unregister name => (r.unregister name, .ended .noted)
  | .list => (r, .ended (.listed r.descriptions))
  | .load name => (r,
    match r.module? name with
    | none => .ended (.refused (.unknownModule name))
    | some m => .starting m (.start m.starting))

/-- The module under `name` after a query, where `found` was there before. -/
def write (name : String) (found : Option (Module σ)) : Query σ → Option (Module σ)
  | .register m => if m.name = name then some m else found
  | .unregister gone => if gone = name then none else found
  | .list | .load _ => found

theorem module?_serve (r : Registry σ) (q : Query σ) (name : String) :
    (q.serve r).1.module? name = q.write name (r.module? name) := by
  cases q with
  | register m => exact module?_register r m name
  | unregister gone => exact module?_unregister r gone name
  | list | load => rfl

theorem ascending_serve {r : Registry σ} (hr : Ascending r.entries) (q : Query σ) :
    Ascending (q.serve r).1.entries := by
  cases q with
  | register m => exact ascending_register hr m
  | unregister gone => exact ascending_unregister hr gone
  | list | load => exact hr

end Query

/-- What a load hands out, once it has ended. -/
def Receipt.ofLoaded : Loaded σ → Receipt σ
  | .ready a => .handed a.engine
  | .refused e => .refused e
  | .crashed p => .crashed p

/-- Do something with an engine that was handed out. -/
def Receipt.use (r : Receipt σ) (f : σ → σ) : Receipt σ :=
  match r with
  | .handed engine => .handed (f engine)
  | r => r

/-- A start goes on, or comes to its end. -/
def Errand.proceed (m : Module σ) : Progress ⊕ Verdict → Errand σ
  | .inl p => .starting m p
  | .inr v => .ended (.ofLoaded (m.conclude 0 0 v))

/-- Something that happens at a registry. Errands are numbered in the order in which they come. -/
inductive Event (σ : Type) where
  | came (q : Query σ)
  | entered (i : Nat)
  /-- The query is served and leaves the registry, and the module begins to start. -/
  | served (i : Nat) (q : Query σ) (started : Option (Module σ))
  /-- Somebody looks at a start. -/
  | looked (i : Nat) (now : Nat) (released : Bool)
  | used (i : Nat) (f : σ → σ)

namespace Shared

/-- Set an errand. -/
def put (s : Shared σ) (i : Nat) (t : Errand σ) : Shared σ :=
  { s with errands := s.errands.set i t }

/-- One step of those at the registry. -/
inductive Step : Shared σ → Event σ → Shared σ → Prop
  | come {s q} : Step s (.came q) { s with errands := s.errands ++ [.waiting q] }
  /-- Only readers share the registry. -/
  | enter {s : Shared σ} {i q} (hi : s.errands[i]? = some (.waiting q))
      (hfree : ∀ (j : Nat) (p : Query σ), s.errands[j]? = some (.inside p) →
        q.writes = false ∧ p.writes = false) :
      Step s (.entered i) (s.put i (.inside q))
  | serve {s : Shared σ} {i q} (hi : s.errands[i]? = some (.inside q)) :
      Step s (.served i q (q.resolve s.registry))
        { registry := (q.serve s.registry).1, errands := s.errands.set i (q.serve s.registry).2 }
  | look {s : Shared σ} {i m p now released} (hi : s.errands[i]? = some (.starting m p)) :
      Step s (.looked i now released) (s.put i (.proceed m (p.poll now released).1))
  | use {s : Shared σ} {i engine f} (hi : s.errands[i]? = some (.ended (.handed engine))) :
      Step s (.used i f) (s.put i (.ended (.handed (f engine))))

inductive Run (s : Shared σ) : List (Event σ) → Shared σ → Prop
  | start : Run s [] s
  | step {h t e u} (run : Run s h t) (next : Step t e u) : Run s (h ++ [e]) u

end Shared

/-- The queries that have been served, in their order. -/
def Event.query? : Event σ → Option (Query σ)
  | .served _ q _ => some q
  | _ => none

/-- The module that was registered last under a name, unless it has been removed since. -/
def writer (h : List (Event σ)) (name : String) : Option (Module σ) :=
  (h.filterMap Event.query?).foldl (Query.write name) none

/-- The start of a module for an errand. -/
def Event.started? (i : Nat) : Event σ → Option (Module σ)
  | .served j _ started => if j = i then started else none
  | _ => none

def starts (i : Nat) (h : List (Event σ)) : List (Module σ) := h.filterMap (Event.started? i)

/-- What is done with the engine that an errand was given. -/
def Event.use? (i : Nat) : Event σ → Option (σ → σ)
  | .used j f => if j = i then some f else none
  | _ => none

def uses (i : Nat) (h : List (Event σ)) : List (σ → σ) := h.filterMap (Event.use? i)

/-- How an errand that has left the registry goes on: by what concerns it alone. -/
def Errand.next (i : Nat) (t : Errand σ) : Event σ → Errand σ
  | .looked j now released =>
    if j = i then
      match t with
      | .starting m p => .proceed m (p.poll now released).1
      | t => t
    else t
  | .used j f =>
    if j = i then
      match t with
      | .ended receipt => .ended (receipt.use f)
      | t => t
    else t
  | _ => t

/-- Only an engine can be used. -/
theorem Errand.foldl_next_ended (i : Nat) {receipt : Receipt σ}
    (hr : ∀ f, receipt.use f = receipt) (h : List (Event σ)) :
    h.foldl (Errand.next i) (.ended receipt) = .ended receipt := by
  induction h with
  | nil => rfl
  | cons e h ih =>
    have hstays : (Errand.ended receipt).next i e = .ended receipt := by
      cases e with
      | looked | used => simp [next, hr]
      | _ => rfl
    rw [List.foldl_cons, hstays, ih]

/-- The errand has left the registry. -/
def Errand.Gone : Errand σ → Prop
  | .starting _ _ | .ended _ => True
  | _ => False

theorem Errand.gone_proceed (m : Module σ) (x : Progress ⊕ Verdict) : (proceed m x).Gone := by
  cases x <;> trivial

theorem Query.gone_serve (r : Registry σ) (q : Query σ) : (q.serve r).2.Gone := by
  cases q with
  | load name =>
    dsimp only [serve]
    cases r.module? name <;> trivial
  | _ => trivial

namespace Shared

variable {s t u : Shared σ} {h k : List (Event σ)} {e : Event σ} {i : Nat}

theorem Run.trans (first : Run s h t) (second : Run t k u) : Run s (h ++ k) u := by
  induction second with
  | start => simpa using first
  | step _ next ih =>
    rw [← List.append_assoc]
    exact ih.step next

theorem Run.split (run : Run s (h ++ k) u) : ∃ t, Run s h t ∧ Run t k u := by
  generalize hwhole : h ++ k = whole at run
  induction run generalizing k with
  | start =>
    obtain ⟨rfl, rfl⟩ := List.append_eq_nil_iff.1 hwhole
    exact ⟨s, .start, .start⟩
  | @step l v e w run next ih =>
    -- The last step belongs to the second part, unless that is empty.
    obtain rfl | ⟨k, x, rfl⟩ := List.eq_nil_or_concat k
    · rw [List.append_nil] at hwhole
      rw [hwhole]
      exact ⟨w, .step run next, .start⟩
    · rw [List.concat_eq_append, ← List.append_assoc] at hwhole
      rw [List.concat_eq_append]
      obtain ⟨hl, hx⟩ := List.append_inj' hwhole rfl
      obtain ⟨t, first, second⟩ := ih hl
      obtain rfl : x = e := List.singleton_inj.1 hx
      exact ⟨t, first, second.step next⟩

theorem Run.eq_of_nil (run : Run s h u) (hnil : h = []) : u = s := by
  cases run with
  | start => rfl
  | step run next => exact absurd hnil (List.append_ne_nil_of_right_ne_nil _ (List.cons_ne_nil _ _))

theorem Run.single (run : Run s [e] u) : Step s e u := by
  generalize hwhole : [e] = whole at run
  cases run with
  | start => cases hwhole
  | @step l v e' w run next =>
    have hsplit : [] ++ [e] = l ++ [e'] := hwhole
    obtain ⟨hl, hlast⟩ := List.append_inj' hsplit rfl
    obtain rfl := List.singleton_inj.1 hlast
    obtain rfl := run.eq_of_nil hl.symm
    exact next

theorem writer_concat (h : List (Event σ)) (e : Event σ) (name : String) :
    writer (h ++ [e]) name =
      match e.query? with
      | some q => q.write name (writer h name)
      | none => writer h name := by
  unfold writer
  cases hq : e.query? <;> simp [hq]

/-- Whatever happens, under each name there is the module of the last writer. -/
theorem Run.registry (run : Run {} h s) :
    Ascending s.registry.entries ∧ s.registry.module? = writer h := by
  induction run with
  | start => exact ⟨List.Pairwise.nil, rfl⟩
  | @step h t e u run next ih =>
    obtain ⟨hascending, hfound⟩ := ih
    cases next with
    | come | enter | look | use =>
      refine ⟨hascending, ?_⟩
      funext name
      rw [writer_concat]
      exact congrFun hfound name
    | @serve i q hi =>
      refine ⟨q.ascending_serve hascending, ?_⟩
      funext name
      rw [writer_concat, q.module?_serve, hfound]
      rfl

theorem starts_concat (i : Nat) (h : List (Event σ)) (e : Event σ) :
    starts i (h ++ [e]) = starts i h ++ (e.started? i).toList := by
  unfold starts
  cases he : e.started? i <;> simp [he]

/-- They go on by what concerns them alone. -/
theorem Step.next (next : Step s e u) {a : Errand σ} (hi : s.errands[i]? = some a)
    (ha : a.Gone) : u.errands[i]? = some (a.next i e) ∧ (a.next i e).Gone ∧
      e.started? i = none := by
  have other {j : Nat} (b : Errand σ) (hj : j ≠ i) : (s.errands.set j b)[i]? = some a := by
    rw [List.getElem?_set_ne hj, hi]
  have own (b : Errand σ) : (s.errands.set i b)[i]? = some b :=
    List.getElem?_set_self (List.getElem?_eq_some_iff.1 hi).1
  cases next with
  | come =>
    have hlt : i < s.errands.length := (List.getElem?_eq_some_iff.1 hi).1
    exact ⟨by rw [List.getElem?_append_left hlt, hi]; rfl, ha, rfl⟩
  | @enter j q hj =>
    have hne : j ≠ i := by
      rintro rfl
      rw [hi] at hj
      cases hj
      exact ha
    exact ⟨other _ hne, ha, rfl⟩
  | @serve j q hj =>
    have hne : j ≠ i := by
      rintro rfl
      rw [hi] at hj
      cases hj
      exact ha
    exact ⟨other _ hne, ha, if_neg hne⟩
  | @look j m p now released hj =>
    by_cases hne : j = i
    · subst hne
      obtain rfl := Option.some.inj (hi.symm.trans hj)
      have hnext : (Errand.starting m p).next j (.looked j now released) =
          .proceed m (p.poll now released).1 := if_pos rfl
      rw [hnext]
      exact ⟨own _, Errand.gone_proceed m _, rfl⟩
    · have hnext : a.next i (.looked j now released) = a := if_neg hne
      rw [hnext]
      exact ⟨other _ hne, ha, rfl⟩
  | @use j engine f hj =>
    by_cases hne : j = i
    · subst hne
      obtain rfl := Option.some.inj (hi.symm.trans hj)
      have hnext : (Errand.ended (.handed engine)).next j (.used j f) =
          .ended (.handed (f engine)) := if_pos rfl
      rw [hnext]
      exact ⟨own _, trivial, rfl⟩
    · have hnext : a.next i (.used j f) = a := if_neg hne
      rw [hnext]
      exact ⟨other _ hne, ha, rfl⟩

/-- What has left the registry does not start again. -/
theorem Run.next (run : Run s h u) {a : Errand σ} (hi : s.errands[i]? = some a) (ha : a.Gone) :
    u.errands[i]? = some (h.foldl (Errand.next i) a) ∧ (h.foldl (Errand.next i) a).Gone ∧
      starts i h = [] := by
  induction run with
  | start => exact ⟨hi, ha, rfl⟩
  | step run next ih =>
    obtain ⟨hmid, hgone, hnone⟩ := ih
    obtain ⟨hlast, hgone', hnone'⟩ := next.next hmid hgone
    rw [List.foldl_append]
    refine ⟨hlast, hgone', ?_⟩
    rw [starts_concat, hnone, hnone']
    rfl

/-- Nothing starts for an errand before it has been served. -/
theorem Run.starts_eq_nil (run : Run {} h s) (hi : ∀ a, s.errands[i]? = some a → ¬ a.Gone) :
    starts i h = [] := by
  induction run with
  | start => rfl
  | @step h t e u run next ih =>
    -- Nobody comes back to the registry, so it was not gone one step earlier either.
    have hbefore : ∀ a, t.errands[i]? = some a → ¬ a.Gone := by
      intro a ha hgone
      obtain ⟨hlast, hgone', -⟩ := next.next ha hgone
      exact hi _ hlast hgone'
    have hnone : e.started? i = none := by
      cases next with
      | @serve j q hj =>
        by_cases hne : j = i
        · subst hne
          have hlt : j < t.errands.length := (List.getElem?_eq_some_iff.1 hj).1
          exact absurd (q.gone_serve t.registry) (hi _ (List.getElem?_set_self hlt))
        · exact if_neg hne
      | _ => rfl
    rw [starts_concat, ih hbefore, hnone]
    rfl

end Shared

/-- What the start of a module comes to: its interpreter, or its fault under its own name. -/
def Receipt.ofStart (m : Module σ) : Ending → Option (Receipt σ)
  | .done => some (.handed m.engine)
  | .fault f => some (.refused (.failed m.name f))
  | .panic p => some (.crashed p)
  | .hang => none

/-- How far a start of `m` can have come, and what has been done with its engine. -/
inductive Errand.Started (m : Module σ) : List (σ → σ) → Errand σ → Prop
  | starting {p} (he : p.rest.ending = m.starting.ending)
      (hw : p.wait = .forever → p.rest.ending = .hang) : Started m [] (.starting m p)
  | ended {receipt used} (hr : Receipt.ofStart m m.starting.ending = some receipt) :
      Started m used (.ended (used.foldl Receipt.use receipt))

theorem Errand.started_start (m : Module σ) : Started m [] (.starting m (.start m.starting)) :=
  .starting rfl nofun

theorem Errand.started_proceed {m : Module σ} {p : Progress}
    (he : p.rest.ending = m.starting.ending)
    (hw : p.wait = .forever → p.rest.ending = .hang) (now : Nat) (released : Bool) :
    Started m [] (proceed m (p.poll now released).1) := by
  have hpoll := p.poll_ending now released hw
  rw [he] at hpoll
  cases hp : (p.poll now released).1 with
  | inl q =>
    rw [hp] at hpoll
    exact .starting hpoll.1 fun h => hpoll.1.trans (hpoll.2 h)
  | inr v =>
    rw [hp] at hpoll
    obtain ⟨hends, rfl⟩ := hpoll
    have hreceipt : Receipt.ofStart m m.starting.ending =
        some (.ofLoaded (m.conclude 0 0 (.ofEnding m.starting.ending))) := by
      cases he : m.starting.ending with
      | hang => exact absurd he hends
      | _ => rfl
    have hended : Started m [] (.ended (([] : List (σ → σ)).foldl Receipt.use
        (.ofLoaded (m.conclude 0 0 (.ofEnding m.starting.ending))))) := .ended hreceipt
    exact hended

theorem Errand.Started.receipt {m : Module σ} {receipt : Receipt σ} {used : List (σ → σ)}
    (h : (Errand.ended receipt).Started m used) :
    (Receipt.ofStart m m.starting.ending).map (used.foldl Receipt.use) = some receipt := by
  cases h with
  | ended hr => rw [hr, Option.map_some]

theorem Receipt.foldl_use_refused {r : Receipt σ} {used : List (σ → σ)} {error : LoadError}
    (h : used.foldl Receipt.use r = .refused error) : r = .refused error := by
  induction used generalizing r with
  | nil => exact h
  | cons f used ih =>
    have hnext := ih h
    cases r with
    | handed engine => cases hnext
    | _ => exact hnext

/-- A module that starts is known. -/
theorem Errand.Started.known {m : Module σ} {a : Errand σ} {used : List (σ → σ)} {name : String}
    (h : a.Started m used) : a ≠ .ended (.refused (.unknownModule name)) := by
  cases h with
  | starting => nofun
  | ended hr =>
    intro hrefused
    have hstart := Receipt.foldl_use_refused (Errand.ended.inj hrefused)
    rw [hstart] at hr
    cases he : m.starting.ending with
    | _ =>
      rw [he] at hr
      cases hr

/-- What is under way comes from the module that it is a start of. -/
def Errand.Sound : Errand σ → Prop
  | .starting m p => (starting m p).Started m []
  | _ => True

theorem Errand.Started.sound {m : Module σ} {a : Errand σ} (h : a.Started m []) : a.Sound := by
  cases h with
  | starting he hw => exact .starting he hw
  | ended => trivial

namespace Shared

variable {s t u : Shared σ} {h k : List (Event σ)} {e : Event σ} {i : Nat} {m : Module σ}

theorem Step.started (next : Step s e u) {a : Errand σ} {used : List (σ → σ)}
    (hi : s.errands[i]? = some a) (ha : a.Started m used) :
    (a.next i e).Started m (used ++ (e.use? i).toList) := by
  cases next with
  | come | enter | serve => simpa [Errand.next, Event.use?] using ha
  | @look j m' p now released hj =>
    by_cases hne : j = i
    · subst hne
      obtain rfl := Option.some.inj (hi.symm.trans hj)
      cases ha with
      | starting he hw =>
        simpa [Errand.next, Event.use?] using Errand.started_proceed he hw now released
    · simpa [Errand.next, Event.use?, hne] using ha
  | @use j engine f hj =>
    by_cases hne : j = i
    · subst hne
      obtain hreceipt := Option.some.inj (hi.symm.trans hj)
      generalize hended : Errand.ended (.handed engine) = b at hreceipt
      subst hreceipt
      cases ha with
      | starting => cases hended
      | @ended receipt used hr =>
        have hlast : Errand.Started m (used ++ [f])
            (.ended ((used ++ [f]).foldl Receipt.use receipt)) := .ended hr
        simpa [Errand.next, Event.use?] using hlast
    · simpa [Errand.next, Event.use?, hne] using ha

theorem uses_concat (i : Nat) (h : List (Event σ)) (e : Event σ) :
    uses i (h ++ [e]) = uses i h ++ (e.use? i).toList := by
  unfold uses
  cases he : e.use? i <;> simp [he]

theorem Run.started (run : Run s h u) {a : Errand σ} (hi : s.errands[i]? = some a)
    (ha : a.Started m []) : (h.foldl (Errand.next i) a).Started m (uses i h) := by
  have hgone : a.Gone := by cases ha <;> trivial
  induction run with
  | start => exact ha
  | step run next ih =>
    rw [List.foldl_append, uses_concat]
    exact next.started (run.next hi hgone).1 ih

theorem Run.sound (run : Run {} h s) : ∀ a ∈ s.errands, Errand.Sound a := by
  induction run with
  | start => exact fun a ha => absurd ha List.not_mem_nil
  | step run next ih =>
    intro a ha
    cases next with
    | come =>
      obtain ha | ha := List.mem_append.1 ha
      · exact ih a ha
      · obtain rfl := List.mem_singleton.1 ha
        trivial
    | enter hi =>
      obtain ha | rfl := List.mem_or_eq_of_mem_set ha
      · exact ih a ha
      · trivial
    | @serve i q hi =>
      obtain ha | rfl := List.mem_or_eq_of_mem_set ha
      · exact ih a ha
      · cases q with
        | load name =>
          dsimp only [Query.serve]
          split
          · trivial
          · exact Errand.started_start _
        | _ => trivial
    | look hi =>
      obtain ha | rfl := List.mem_or_eq_of_mem_set ha
      · exact ih a ha
      · have hstarted : (Errand.starting _ _).Started _ [] := ih _ (List.mem_of_getElem? hi)
        cases hstarted with
        | starting he hw => exact (Errand.started_proceed he hw _ _).sound
    | use hi =>
      obtain ha | rfl := List.mem_or_eq_of_mem_set ha
      · exact ih a ha
      · trivial

/-- A start that does not hang can come to its end, and it takes nobody else to do so. -/
theorem completes {p : Progress} (hi : s.errands[i]? = some (.starting m p))
    (ha : (Errand.starting m p).Started m []) (hm : m.starting.ending ≠ .hang) :
    ∃ k u receipt, Run s k u ∧ (∀ e ∈ k, ∃ now released, e = .looked i now released) ∧
      u.errands[i]? = some (.ended receipt) := by
  generalize hrounds : p.rounds = n
  induction n using Nat.strongRecOn generalizing s p with
  | ind n ih =>
    obtain ⟨now, hfree⟩ : ∃ now, p.blocked now true = false := by
      cases ha with
      | starting he hw => exact p.exists_free fun h => hm (he.symm.trans (hw h))
    have next : Step s (.looked i now true) (s.put i (.proceed m (p.poll now true).1)) := .look hi
    obtain ⟨hlooked, -, -⟩ := next.next hi trivial
    have hstarted := next.started hi ha
    rw [show (Errand.starting m p).next i (.looked i now true) =
      .proceed m (p.poll now true).1 from if_pos rfl] at hlooked hstarted
    cases hpoll : (p.poll now true).1 with
    | inr v =>
      rw [hpoll] at hlooked next
      refine ⟨_, _, _, .step .start next, ?_, hlooked⟩
      intro e he
      exact ⟨now, true, by simpa using he⟩
    | inl q =>
      rw [hpoll] at hlooked hstarted next
      have hfewer : q.rounds < n := by
        obtain ⟨-, ⟨-, hblocked⟩ | hlt⟩ := Progress.poll_later hpoll
        · rw [hfree] at hblocked
          cases hblocked
        · omega
      obtain ⟨k, u, receipt, run, hk, hended⟩ := ih _ hfewer hlooked hstarted rfl
      refine ⟨_, u, receipt, (Run.step .start next).trans run, ?_, hended⟩
      intro e he
      obtain rfl | he := List.mem_cons.1 he
      · exact ⟨now, true, rfl⟩
      · exact hk e he

end Shared

/-- Somebody enters the registry, or leaves it. -/
def Event.Passing : Event σ → Prop
  | .entered _ | .served _ _ _ => True
  | _ => False

/-- How often an errand has still to move until it has left the registry. -/
def Errand.toll : Errand σ → Nat
  | .waiting _ => 2
  | .inside _ => 1
  | _ => 0

theorem Errand.toll_of_gone {a : Errand σ} (h : a.Gone) : a.toll = 0 := by
  cases a with
  | waiting q | inside q => exact h.elim
  | _ => rfl

theorem Errand.next_passing {e : Event σ} (he : e.Passing) (i : Nat) (a : Errand σ) :
    a.next i e = a := by
  cases e with
  | entered | served => rfl
  | _ => exact he.elim

namespace Shared

variable {s t u : Shared σ} {h k : List (Event σ)} {e : Event σ} {i : Nat} {m : Module σ}

/-- What all errands have to move, until they have left the registry. -/
def toll (s : Shared σ) : Nat := (s.errands.map Errand.toll).sum

theorem sum_set_lt {l : List (Errand σ)} {a b : Errand σ} (hi : l[i]? = some a)
    (hb : b.toll < a.toll) :
    ((l.set i b).map Errand.toll).sum < (l.map Errand.toll).sum := by
  induction l generalizing i with
  | nil => cases hi
  | cons c l ih =>
    cases i with
    | zero =>
      obtain rfl : c = a := Option.some.inj hi
      simpa using hb
    | succ i => simpa using ih hi

theorem toll_le (s : Shared σ) : s.toll ≤ 2 * s.errands.length := by
  unfold toll
  induction s.errands with
  | nil => exact Nat.le_refl 0
  | cons a l ih =>
    have ha : a.toll ≤ 2 := by
      cases a with
      | _ => simp [Errand.toll]
    rw [List.map_cons, List.sum_cons, List.length_cons]
    omega

theorem Step.toll_lt (next : Step s e u) (he : e.Passing) : u.toll < s.toll := by
  cases next with
  | come | look | use => exact he.elim
  | enter hi => exact sum_set_lt hi (Nat.lt_succ_self 1)
  | @serve i q hi =>
    have hgone := (q.serve s.registry).2.toll_of_gone (q.gone_serve s.registry)
    refine sum_set_lt hi ?_
    rw [hgone]
    exact Nat.zero_lt_one

theorem Run.toll_le (run : Run s k u) (hk : ∀ e ∈ k, e.Passing) :
    k.length + u.toll ≤ s.toll := by
  induction run with
  | start => exact Nat.le_of_eq (Nat.zero_add _)
  | step run next ih =>
    have hbefore := ih fun e he => hk e (List.mem_append_left _ he)
    have hless := next.toll_lt (hk _ (List.mem_append_right _ List.mem_cons_self))
    rw [List.length_append, List.length_singleton]
    omega

/-- Whoever comes when all others are gone is served at once. -/
theorem Run.visit (q : Query σ) (hs : ∀ a ∈ s.errands, a.Gone) :
    Run s [.came q, .entered s.errands.length, .served s.errands.length q (q.resolve s.registry)]
      { registry := (q.serve s.registry).1, errands := s.errands ++ [(q.serve s.registry).2] } := by
  have hlast (a b : Errand σ) : (s.errands ++ [a]).set s.errands.length b = s.errands ++ [b] := by
    simp
  have entered := (Run.start.step (.come (s := s) (q := q))).step
    (.enter (i := s.errands.length) (q := q) List.getElem?_concat_length ?_)
  · have served := entered.step (.serve (i := s.errands.length) (q := q) ?_)
    · simpa [put] using served
    · simp [put]
  · intro j p hj
    have hmem := List.mem_of_getElem? hj
    obtain hmem | hmem := List.mem_append.1 hmem
    · exact (hs _ hmem).elim
    · cases List.mem_singleton.1 hmem

/-- Those inside can leave at once, and when nobody is inside, anybody can enter. -/
theorem passes {a : Errand σ} (ha : a ∈ s.errands) (hstays : ¬ a.Gone) :
    ∃ e u, Step s e u ∧ e.Passing := by
  by_cases hinside : ∃ (i : Nat) (q : Query σ), s.errands[i]? = some (.inside q)
  · obtain ⟨i, q, hi⟩ := hinside
    exact ⟨_, _, .serve hi, trivial⟩
  · obtain ⟨i, hi⟩ := List.getElem?_of_mem ha
    cases a with
    | waiting q =>
      refine ⟨_, _, .enter hi ?_, trivial⟩
      intro j p hj
      exact absurd ⟨j, p, hj⟩ hinside
    | inside q => exact absurd ⟨i, q, hi⟩ hinside
    | _ => exact absurd trivial hstays

theorem foldl_next_passing (hk : ∀ e ∈ k, e.Passing) (i : Nat) (a : Errand σ) :
    k.foldl (Errand.next i) a = a := by
  induction k with
  | nil => rfl
  | cons e k ih =>
    rw [List.foldl_cons, Errand.next_passing (hk e List.mem_cons_self)]
    exact ih fun x hx => hk x (List.mem_cons_of_mem e hx)

/-- How a query has been served: with the registry of the last writers, and once for all. -/
theorem Run.served {before after : List (Event σ)} {q : Query σ} {started : Option (Module σ)}
    (run : Run {} (before ++ .served i q started :: after) s) :
    ∃ (r : Registry σ) (t : Shared σ), Ascending r.entries ∧ r.module? = writer before ∧
      started = q.resolve r ∧ t.errands[i]? = some (q.serve r).2 ∧ Run t after s ∧
      starts i (before ++ .served i q started :: after) = started.toList := by
  rw [List.append_cons] at run ⊢
  obtain ⟨t, first, later⟩ := run.split
  obtain ⟨v, early, only⟩ := first.split
  cases only.single with
  | serve hi =>
    obtain ⟨hascending, hfound⟩ := early.registry
    have hserved : (v.errands.set i (q.serve v.registry).2)[i]? = some (q.serve v.registry).2 :=
      List.getElem?_set_self (List.getElem?_eq_some_iff.1 hi).1
    have hearly : starts i before = [] := by
      refine early.starts_eq_nil fun a ha hgone => ?_
      rw [hi] at ha
      cases ha
      exact hgone
    obtain ⟨-, -, hlater⟩ := later.next hserved (q.gone_serve v.registry)
    refine ⟨v.registry, _, hascending, hfound, rfl, hserved, later, ?_⟩
    have happend : starts i (before ++ [.served i q (q.resolve v.registry)] ++ after) =
        starts i (before ++ [.served i q (q.resolve v.registry)]) ++ starts i after :=
      List.filterMap_append
    rw [happend, starts_concat, hearly, hlater, List.nil_append, List.append_nil]
    exact congrArg Option.toList (if_pos rfl)

/-- What a load comes to is settled by the last writer before it. -/
theorem Run.loads {before after : List (Event σ)} {name : String} {started : Option (Module σ)}
    (run : Run {} (before ++ .served i (.load name) started :: after) s) :
    (writer before name = none →
      starts i (before ++ .served i (.load name) started :: after) = [] ∧
        s.errands[i]? = some (.ended (.refused (.unknownModule name)))) ∧
    ∀ m, writer before name = some m → m.name = name ∧
      starts i (before ++ .served i (.load name) started :: after) = [m] ∧
      s.errands[i]? = some (after.foldl (Errand.next i) (.starting m (.start m.starting))) ∧
      (after.foldl (Errand.next i) (.starting m (.start m.starting))).Started m (uses i after) := by
  obtain ⟨r, t, -, hwriter, rfl, hi, later, hstarts⟩ := run.served
  rw [← hwriter]
  constructor
  · intro hnone
    simp only [Query.serve, hnone] at hi
    obtain ⟨hlast, -⟩ := later.next hi trivial
    rw [Errand.foldl_next_ended i (fun _ => rfl) after] at hlast
    exact ⟨hstarts.trans (congrArg Option.toList hnone), hlast⟩
  · intro m hm
    simp only [Query.serve, hm] at hi
    obtain ⟨hlast, -⟩ := later.next hi trivial
    exact ⟨name_of_module? hm, hstarts.trans (congrArg Option.toList hm), hlast,
      later.started hi (Errand.started_start m)⟩

/-- The last writer counts, in what has happened and in what can still happen. -/
structure LastWriter (h : List (Event σ)) (s : Shared σ) : Prop where
  /-- Whoever is next to ask for the list gets this one. -/
  lists : Lists (writer h) s.registry.descriptions
  /-- So does whoever is next to load, and gets its module. -/
  loads : ∀ name loadTimeout execTimeout, s.registry.load name loadTimeout execTimeout =
    match writer h name with
    | none => (.refused (.unknownModule name), 0)
    | some m => m.load loadTimeout execTimeout
  listed : ∀ before i started after, h = before ++ .served i .list started :: after →
    ∃ l, s.errands[i]? = some (.ended (.listed l)) ∧ Lists (writer before) l
  /-- A load starts nothing, and knows no module, just if its name is not there when it is looked
  up. -/
  unknown : ∀ before i name started after, h = before ++ .served i (.load name) started :: after →
    (starts i h = [] ↔ writer before name = none) ∧
    (s.errands[i]? = some (.ended (.refused (.unknownModule name))) ↔ writer before name = none)
  /-- Otherwise it starts the module of the last writer, once. The start goes on by what concerns it
  alone. In the end it hands out the interpreter, or refuses in the name of the module. -/
  started : ∀ before i name started after, h = before ++ .served i (.load name) started :: after →
    ∀ m, writer before name = some m → m.name = name ∧ starts i h = [m] ∧
      s.errands[i]? = some (after.foldl (Errand.next i) (.starting m (.start m.starting))) ∧
      ∀ receipt, s.errands[i]? = some (.ended receipt) →
        (Receipt.ofStart m m.starting.ending).map ((uses i after).foldl Receipt.use) = some receipt
  /-- A start that does not hang can come to its end, whatever others do. -/
  completes : ∀ i m p, s.errands[i]? = some (.starting m p) → m.starting.ending ≠ .hang →
    ∃ k u receipt, Run s k u ∧ (∀ e ∈ k, ∃ now released, e = .looked i now released) ∧
      u.errands[i]? = some (.ended receipt)
  /-- Those at the registry get through, in whatever order and however the starts stand: they move
  twice at most, they are not stuck before all are gone, and what is gone stays as it is. -/
  unhindered : ∀ k u, Run s k u → (∀ e ∈ k, e.Passing) →
    k.length ≤ 2 * s.errands.length ∧
    ((∀ e v, Step u e v → ¬ e.Passing) → ∀ a ∈ u.errands, a.Gone) ∧
    ∀ (i : Nat) (a : Errand σ), s.errands[i]? = some a → a.Gone → u.errands[i]? = some a

theorem Run.lastWriter (run : Run {} h s) : LastWriter h s := by
  obtain ⟨hascending, hfound⟩ := run.registry
  constructor
  · rw [← hfound]
    exact lists_descriptions hascending
  · intro name loadTimeout execTimeout
    rw [load_eq, hfound]
  · rintro before i started after rfl
    obtain ⟨r, t, hr, hwriter, -, hi, later, -⟩ := run.served
    obtain ⟨hlast, -⟩ := later.next hi trivial
    refine ⟨r.descriptions, ?_, hwriter ▸ lists_descriptions hr⟩
    rw [hlast]
    exact congrArg some (Errand.foldl_next_ended i (fun _ => rfl) after)
  · rintro before i name started after rfl
    obtain ⟨hnone, hsome⟩ := run.loads
    cases hfound : writer before name with
    | none =>
      obtain ⟨hstarts, hended⟩ := hnone hfound
      exact ⟨iff_of_true hstarts rfl, iff_of_true hended rfl⟩
    | some m =>
      obtain ⟨-, hstarts, hlast, hstarted⟩ := hsome m hfound
      have hstarting : starts i (before ++ .served i (.load name) started :: after) ≠ [] := by
        rw [hstarts]
        exact List.cons_ne_nil m []
      refine ⟨iff_of_false hstarting nofun, iff_of_false ?_ nofun⟩
      intro hended
      rw [Option.some.inj (hlast.symm.trans hended)] at hstarted
      exact hstarted.known rfl
  · rintro before i name started after rfl m hm
    obtain ⟨hname, hstarts, hlast, hstarted⟩ := run.loads.2 m hm
    refine ⟨hname, hstarts, hlast, ?_⟩
    intro receipt hended
    rw [Option.some.inj (hlast.symm.trans hended)] at hstarted
    exact hstarted.receipt
  · intro i m p hi hm
    exact completes hi (run.sound _ (List.mem_of_getElem? hi)) hm
  · intro k u passing hk
    refine ⟨?_, ?_, ?_⟩
    · have hmoves := passing.toll_le hk
      have hbound := s.toll_le
      omega
    · intro hstuck a ha
      by_contra hstays
      obtain ⟨e, v, next, he⟩ := passes ha hstays
      exact hstuck e v next he
    · intro i a hi ha
      obtain ⟨hlast, -⟩ := passing.next hi ha
      rwa [foldl_next_passing hk] at hlast

end Shared

/-- A name above all others gets its place after them. -/
theorem place_eq_concat {x : Registration σ} {l : List (Registration σ)}
    (hl : ∀ y ∈ l, y.module.name < x.module.name) : place x l = l ++ [x] := by
  induction l with
  | nil => rfl
  | cons y l ih =>
    have hy : y.module.name < x.module.name := hl y List.mem_cons_self
    have hne : x.module.name ≠ y.module.name := by
      intro heq
      rw [heq] at hy
      exact String.lt_irrefl _ hy
    rw [place, if_neg (String.lt_asymm hy), if_neg hne,
      ih fun z hz => hl z (List.mem_cons_of_mem y hz), List.cons_append]

theorem descriptions_foldl_register {ms : List (Module σ)} {r : Registry σ}
    (hms : ms.Pairwise (·.name < ·.name))
    (hr : ∀ x ∈ r.entries, ∀ m ∈ ms, x.module.name < m.name) :
    (ms.foldl register r).descriptions =
      r.descriptions ++ ms.map fun m => (m.name, m.description) := by
  induction ms generalizing r with
  | nil => exact (List.append_nil _).symm
  | cons m ms ih =>
    obtain ⟨hm, hms⟩ := List.pairwise_cons.1 hms
    have hlast : (r.register m).entries = r.entries ++ [⟨r.count, m⟩] :=
      place_eq_concat fun x hx => hr x hx m List.mem_cons_self
    have habove : ∀ x ∈ (r.register m).entries, ∀ n ∈ ms, x.module.name < n.name := by
      intro x hx n hn
      rw [hlast, List.mem_append] at hx
      obtain hx | hx := hx
      · exact hr x hx n (List.mem_cons_of_mem m hn)
      · obtain rfl := List.mem_singleton.1 hx
        exact hm n hn
    have hdescriptions :
        (r.register m).descriptions = r.descriptions ++ [(m.name, m.description)] := by
      unfold descriptions
      rw [hlast, List.map_append]
      rfl
    rw [List.foldl_cons, ih hms habove, hdescriptions, List.map_cons, List.append_assoc]
    rfl

end Registry

/-- Each module is there once, and they are in the order of their names. -/
def Config.Ordered (c : Config) : Prop := c.modules.Pairwise (·.1 < ·.1)

theorem Config.descriptions_registry {c : Config} (hc : c.Ordered) (launch : Launcher) :
    (c.registry launch).descriptions = c.modules.map fun m => (m.1, m.2.describe) := by
  let module (m : String × ModuleSettings) : Module ChildInterpreter :=
    ChildInterpreter.module m.1 m.2 fun _ => launch m.2
  have hnames : (c.modules.map module).Pairwise (·.name < ·.name) := List.pairwise_map.2 hc
  have hlist := Registry.descriptions_foldl_register (r := .empty) hnames
    fun x hx => absurd hx List.not_mem_nil
  rw [List.foldl_map, List.map_map] at hlist
  exact hlist

/-- The last writer counts in every registry, and a configured one holds what is configured. -/
theorem registry_last_writer {σ : Type} {h : List (Registry.Event σ)} {s : Registry.Shared σ}
    (run : Registry.Shared.Run {} h s) {c : Config} (hc : c.Ordered) (launch : Launcher) :
    Registry.Shared.LastWriter h s ∧ (c.registry launch).descriptions =
      c.modules.map fun m =>
        (m.1, m.2.description.getD ("external interpreter `" ++ m.2.command ++ "`")) :=
  ⟨run.lastWriter, c.descriptions_registry hc launch⟩

namespace Rehearsal

def former : Module Nat := ⟨"forth", "former", ⟨[.sleep 5], .done⟩, 1⟩

def latter : Module Nat := ⟨"forth", "latter", ⟨[], .done⟩, 7⟩

/-- While `former` starts, `latter` takes its place. -/
def replacing : List (Registry.Event Nat) :=
  [.came (.register former), .entered 0, .served 0 (.register former) none,
    .came (.load "forth"), .entered 1, .served 1 (.load "forth") (some former),
    .came (.register latter), .entered 2, .served 2 (.register latter) none,
    .looked 1 2 false, .looked 1 7 false, .used 1 Nat.succ]

def shelf : Config where
  modules := [("forth", { command := "gforth" }),
    ("shell", { command := "sh", description := some "a shell" })]

theorem run_replacing : ∃ s : Registry.Shared Nat, Registry.Shared.Run {} replacing s ∧
    s.errands[1]? = some (.ended (.handed 2)) := by
  let stocked : Registry.Shared Nat := ⟨.register .empty former, [.ended .noted]⟩
  let loading : Registry.Shared Nat :=
    ⟨.register .empty former, [.ended .noted, .starting former (.start former.starting)]⟩
  have hstocked : ∀ a ∈ stocked.errands, a.Gone := by
    intro a ha
    obtain rfl := List.mem_singleton.1 ha
    trivial
  have hloading : ∀ a ∈ loading.errands, a.Gone := by
    intro a ha
    obtain rfl | ha := List.mem_cons.1 ha
    · trivial
    · obtain rfl := List.mem_singleton.1 ha
      trivial
  have first : Registry.Shared.Run {} _ stocked :=
    .visit (.register former) fun a ha => absurd ha List.not_mem_nil
  have second : Registry.Shared.Run stocked _ loading := .visit (.load "forth") hstocked
  have third := Registry.Shared.Run.visit (.register latter) hloading
  have looked (now : Nat) {s : Registry.Shared Nat} {p : Progress}
      (hi : s.errands[1]? = some (.starting former p)) : s.Step (.looked 1 now false) _ := .look hi
  have used {s : Registry.Shared Nat} (hi : s.errands[1]? = some (.ended (.handed 1))) :
      s.Step (.used 1 Nat.succ) _ := .use hi
  have handed := (((first.trans second).trans third).step (looked 2 rfl)).step (looked 7 rfl)
  exact ⟨_, handed.step (used rfl), rfl⟩

theorem ordered_shelf : shelf.Ordered := by
  unfold Config.Ordered shelf
  have hnames : "forth" < "shell" := by decide
  exact List.pairwise_pair.2 hnames

end Rehearsal

/-- Whoever began to load before another module came gets what was there then. -/
theorem registry_last_writer_rehearsal : ∃ s : Registry.Shared Nat,
    Registry.Shared.Run {} Rehearsal.replacing s ∧
    s.errands[1]? = some (.ended (.handed 2)) ∧
    Registry.Shared.LastWriter Rehearsal.replacing s ∧
    ∀ launch, (Rehearsal.shelf.registry launch).descriptions =
      [("forth", "external interpreter `gforth`"), ("shell", "a shell")] := by
  obtain ⟨s, run, hhanded⟩ := Rehearsal.run_replacing
  have hwins := registry_last_writer run Rehearsal.ordered_shelf
  refine ⟨s, run, hhanded, (hwins fun _ => .error .brokenPipe).1, ?_⟩
  intro launch
  rw [(hwins launch).2]
  rfl

end EngineBridge
