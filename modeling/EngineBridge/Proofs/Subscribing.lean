import Mathlib.Algebra.Group.Nat.Defs
import Mathlib.Data.List.Forall2
import Mathlib.Data.List.Sort
import Mathlib.Order.Bounds.Basic
import EngineBridge.Proofs.Milestones

/-!
# What the listeners of a bus hear

Each listener of a bus is told of every event since it attached, in order: it is handed the event,
or it is told that it was lost. Events are lost only by a listener that is further behind than the
bus can hold. No subscriber of a bridge ever is.
-/

namespace EngineBridge

private theorem doubled_spec {goal fuel k : Nat} (h : goal ≤ 2 ^ (k + fuel)) :
    ∃ m, k ≤ m ∧ doubled goal fuel (2 ^ k) = 2 ^ m ∧ goal ≤ 2 ^ m ∧
      ∀ l, k ≤ l → goal ≤ 2 ^ l → 2 ^ m ≤ 2 ^ l := by
  induction fuel generalizing k with
  | zero =>
    exact ⟨k, le_rfl, rfl, by simpa using h, fun l hl _ => Nat.pow_le_pow_right Nat.two_pos hl⟩
  | succ fuel ih =>
    rw [doubled]
    split
    next hgoal => exact ⟨k, le_rfl, rfl, hgoal, fun l hl _ => Nat.pow_le_pow_right Nat.two_pos hl⟩
    next hgoal =>
      obtain ⟨m, hkm, hm, hgoalm, hleast⟩ := ih (k := k + 1) (by rwa [Nat.add_right_comm])
      refine ⟨m, by omega, by rw [← hm, Nat.pow_succ'], hgoalm, ?_⟩
      intro l hl hgoall
      have hne : k ≠ l := by
        rintro rfl
        exact hgoal hgoall
      exact hleast l (by omega) hgoall

/-- A bus holds as many events as it is asked to, and at least one, rounded up to a power of two. -/
theorem isLeast_capacityFor (backlog : Nat) :
    IsLeast {c | max backlog 1 ≤ c ∧ ∃ k, c = 2 ^ k} (capacityFor backlog) := by
  obtain ⟨m, -, hm, hgoal, hleast⟩ : ∃ m, 0 ≤ m ∧ doubled backlog backlog (2 ^ 0) = 2 ^ m ∧
      backlog ≤ 2 ^ m ∧ ∀ l, 0 ≤ l → backlog ≤ 2 ^ l → 2 ^ m ≤ 2 ^ l :=
    doubled_spec (by simpa using Nat.lt_two_pow_self.le)
  have hcapacity : capacityFor backlog = 2 ^ m := hm
  rw [hcapacity]
  refine ⟨⟨max_le hgoal Nat.one_le_two_pow, m, rfl⟩, ?_⟩
  rintro c ⟨hc, l, rfl⟩
  exact hleast l (Nat.zero_le l) ((le_max_left _ _).trans hc)

variable {ε : Type}

/-- What is learnt of the next events; an event that is told to be lost is a gap. -/
def Reception.read : Reception ε → List (Option ε)
  | .event e => [some e]
  | .lagged n => List.replicate n none
  | .empty | .detached => []

theorem Reception.lagged_of_none_mem_read {r : Reception ε} (h : none ∈ r.read) :
    ∃ n, r = .lagged n := by
  cases r with
  | lagged n => exact ⟨n, rfl⟩
  | _ => simp [Reception.read] at h

namespace Bus

inductive Op (ε : Type) where
  | listen
  | publish (e : ε)
  | receive (listener : Nat)
  | leave (listener : Nat)
  deriving DecidableEq, Repr

/-- What has been done, with what came of it. -/
inductive Deed (ε : Type) where
  | listened (listener : Nat)
  | published (e : ε) (listeners : Nat)
  | received (listener : Nat) (r : Reception ε)
  | left (listener : Nat)
  deriving DecidableEq, Repr

def act (b : Bus ε) : Op ε → Bus ε × Deed ε
  | .listen => (b.listen.1, .listened b.listen.2)
  | .publish e => ((b.publish e).1, .published e (b.publish e).2)
  | .receive i => ((b.receive i).1, .received i (b.receive i).2)
  | .leave i => (b.leave i, .left i)

/-- One thing after the other. -/
def acts (b : Bus ε) : List (Op ε) → Bus ε × List (Deed ε)
  | [] => (b, [])
  | op :: ops =>
    (((b.act op).1.acts ops).1, (b.act op).2 :: ((b.act op).1.acts ops).2)

theorem acts_append (b : Bus ε) (ops more : List (Op ε)) :
    b.acts (ops ++ more) =
      (((b.acts ops).1.acts more).1, (b.acts ops).2 ++ ((b.acts ops).1.acts more).2) := by
  induction ops generalizing b with
  | nil => rfl
  | cons op ops ih => simp only [List.cons_append, acts, ih]

/-- What stands somewhere in the record was done at that moment. -/
theorem act_of_acts {b : Bus ε} {ops : List (Op ε)} {past more : List (Deed ε)} {d : Deed ε}
    (h : (b.acts ops).2 = past ++ d :: more) :
    ∃ ops' op, (b.acts ops').2 = past ∧ d = ((b.acts ops').1.act op).2 := by
  induction ops generalizing b past with
  | nil => simp [acts] at h
  | cons op ops ih =>
    cases past with
    | nil => exact ⟨[], op, rfl, (List.cons.inj h).1.symm⟩
    | cons first past =>
      obtain ⟨hfirst, hrest⟩ := List.cons.inj h
      obtain ⟨ops', op', hpast, hd⟩ := ih hrest
      exact ⟨op :: ops', op', by simp only [acts, hpast, hfirst], hd⟩

@[simp] def Deed.event? : Deed ε → Option ε
  | .published e _ => some e
  | _ => none

@[simp] def Deed.heard? (i : Nat) : Deed ε → Option (Reception ε)
  | .received j r => if j = i then some r else none
  | _ => none

/-- The events published, in their order. -/
def events (deeds : List (Deed ε)) : List ε := deeds.filterMap Deed.event?

/-- What a listener found, each time it looked. -/
def heard (i : Nat) (deeds : List (Deed ε)) : List (Reception ε) := deeds.filterMap (Deed.heard? i)

/-- What a listener has learnt of the events, one after the other. -/
def read (i : Nat) (deeds : List (Deed ε)) : List (Option ε) :=
  (heard i deeds).flatMap Reception.read

/-- The events that a listener has neither been handed nor been told to have lost. -/
def unread (i : Nat) (deeds : List (Deed ε)) : List ε := (events deeds).drop (read i deeds).length

/-- Who is attached, given who was before. -/
@[simp] def Deed.attached (l : List Nat) : Deed ε → List Nat
  | .listened i => l ++ [i]
  | .left i => l.filter (· ≠ i)
  | _ => l

/-- The listeners that have attached and not left. -/
def present (deeds : List (Deed ε)) : List Nat := deeds.foldl Deed.attached []

/-- The last of the events, as many as `capacity`. -/
def newest (capacity : Nat) (es : List ε) : List ε := es.drop (es.length - capacity)

/-- What was read is how the events begin, gaps aside. -/
def Begins (read : List (Option ε)) (es : List ε) : Prop :=
  List.Forall₂ (fun x e => x = none ∨ x = some e) read (es.take read.length)

/-- What an attached listener finds. -/
def expected (capacity : Nat) (unread : List ε) : Reception ε :=
  if capacity < unread.length then .lagged (unread.length - capacity)
  else
    match unread with
    | [] => .empty
    | e :: _ => .event e

section Record

variable {i : Nat} {deeds past after : List (Deed ε)} {d : Deed ε}

@[simp] theorem events_append (l r : List (Deed ε)) : events (l ++ r) = events l ++ events r :=
  List.filterMap_append

@[simp] theorem events_cons (d : Deed ε) (l : List (Deed ε)) :
    events (d :: l) = d.event?.toList ++ events l := by
  unfold events
  rw [List.filterMap_cons]
  cases d.event? <;> rfl

@[simp] theorem events_nil : events ([] : List (Deed ε)) = [] := rfl

theorem mem_heard {r : Reception ε} : r ∈ heard i deeds ↔ .received i r ∈ deeds := by
  unfold heard
  rw [List.mem_filterMap]
  constructor
  · rintro ⟨d, hd, hr⟩
    cases d with
    | received j r' =>
      obtain ⟨rfl, rfl⟩ : j = i ∧ r' = r := by simpa using hr
      exact hd
    | _ => simp at hr
  · intro h
    exact ⟨_, h, by simp⟩

@[simp] theorem read_nil (i : Nat) : read i ([] : List (Deed ε)) = [] := rfl

theorem heard_append (i : Nat) (l r : List (Deed ε)) : heard i (l ++ r) = heard i l ++ heard i r :=
  List.filterMap_append

@[simp] theorem read_append (i : Nat) (l r : List (Deed ε)) :
    read i (l ++ r) = read i l ++ read i r := by
  simp [read, heard_append]

theorem read_received (i : Nat) (r : Reception ε) : read i [.received i r] = r.read := by
  simp [read, heard]

/-- A listener learns nothing from what it does not hear. -/
theorem read_append_of_heard?_eq_none (h : d.heard? i = none) :
    read i (deeds ++ [d]) = read i deeds := by
  have hd : heard i [d] = [] := List.filterMap_cons_none h
  simp [read, heard_append, hd]

theorem length_unread_le (i : Nat) (deeds : List (Deed ε)) :
    (unread i deeds).length ≤ (events deeds).length := by
  simp [unread]

theorem present_append_singleton (past : List (Deed ε)) (d : Deed ε) :
    present (past ++ [d]) = d.attached (present past) := by
  simp [present]

theorem Begins.length_le {read : List (Option ε)} {es : List ε} (h : Begins read es) :
    read.length ≤ es.length := by
  have := h.length_eq
  simp only [List.length_take] at this
  omega

/-- Events that come later change nothing. -/
theorem Begins.append {read : List (Option ε)} {es : List ε} (h : Begins read es) (more : List ε) :
    Begins read (es ++ more) := by
  unfold Begins
  rw [List.take_append_of_le_length h.length_le]
  exact h

/-- What is learnt next is how the rest begins. -/
theorem Begins.trans {first second : List (Option ε)} {es : List ε} (h : Begins first es)
    (h' : Begins second (es.drop first.length)) : Begins (first ++ second) es := by
  unfold Begins
  rw [List.length_append, List.take_add]
  exact List.rel_append h h'

/-- Without gaps it is the events themselves. -/
theorem Begins.eq_map_some {read : List (Option ε)} {es : List ε} (h : Begins read es)
    (hgap : none ∉ read) : read = (es.take read.length).map some := by
  unfold Begins at h
  generalize es.take read.length = started at h
  induction h with
  | nil => rfl
  | cons hx _ ih =>
    obtain ⟨hne, hrest⟩ := List.ne_and_not_mem_of_not_mem_cons hgap
    rw [hx.resolve_left hne.symm, ih hrest, List.map_cons]

theorem begins_expected (capacity : Nat) (es : List ε) : Begins (expected capacity es).read es := by
  unfold expected
  split
  · refine List.forall₂_iff_get.2 ⟨by simp [Reception.read], ?_⟩
    intro k hk _
    left
    simp [Reception.read]
  · cases es with
    | nil => exact .nil
    | cons e es => exact .cons (.inr rfl) .nil

/-- The events kept, once another is published. -/
theorem newest_append_singleton (capacity : Nat) (es : List ε) (e : ε) :
    (newest capacity es ++ [e]).drop ((newest capacity es ++ [e]).length - capacity) =
      newest capacity (es ++ [e]) := by
  unfold newest
  rw [← List.drop_append_of_le_length (Nat.sub_le _ _), List.drop_drop]
  congr 1
  simp only [List.length_drop, List.length_append, List.length_singleton]
  omega

end Record

/-- Where a listener stands that has attached between some deeds and others. -/
structure Stands (b : Bus ε) (before : List (Deed ε)) (i : Nat) (after : List (Deed ε)) : Prop where
  begins : Begins (read i after) (events after)
  gone : .left i ∈ after → b.cursors[i]? = some none
  reading : .left i ∉ after →
    b.cursors[i]? = some (some ((events before).length + (read i after).length))

/-- The bus is what the record makes of it. -/
structure Records (capacity : Nat) (past : List (Deed ε)) (b : Bus ε) : Prop where
  capacity_eq : b.capacity = capacity
  sent_eq : b.sent = (events past).length
  kept_eq : b.kept = newest capacity (events past)
  present_eq : present past = b.cursors.findIdxs Option.isSome
  strangers : ∀ i, .listened i ∉ past → b.cursors[i]? = none
  stands : ∀ before i after, past = before ++ .listened i :: after → Stands b before i after

section Invariant

variable {capacity i : Nat} {past before after : List (Deed ε)} {d : Deed ε} {b b' : Bus ε}

private theorem split_concat {x : Deed ε} (h : past ++ [d] = before ++ x :: after) :
    (after = [] ∧ x = d ∧ before = past) ∨
      ∃ after', after = after' ++ [d] ∧ past = before ++ x :: after' := by
  rcases List.eq_nil_or_concat after with rfl | ⟨after', last, rfl⟩
  · obtain ⟨rfl, hd⟩ := List.append_inj' h rfl
    exact .inl ⟨rfl, (List.cons.inj hd).1.symm, rfl⟩
  · have h' : past ++ [d] = (before ++ x :: after') ++ [last] := by simpa using h
    obtain ⟨rfl, hd⟩ := List.append_inj' h' rfl
    obtain rfl := (List.cons.inj hd).1
    exact .inr ⟨after', by simp, rfl⟩

theorem records_withBacklog (backlog : Nat) :
    Records (capacityFor backlog) [] (.withBacklog backlog : Bus ε) where
  capacity_eq := rfl
  sent_eq := rfl
  kept_eq := by simp [withBacklog, newest]
  present_eq := rfl
  strangers _ _ := rfl
  stands before i after h := by simp at h

theorem Records.lost_eq (h : Records capacity past b) :
    b.lost = (events past).length - capacity := by
  unfold lost
  rw [h.sent_eq, h.kept_eq, newest, List.length_drop]
  omega

theorem Records.listeners_eq (h : Records capacity past b) :
    b.listeners = (present past).length := by
  rw [h.present_eq, List.length_findIdxs]
  rfl

theorem Stands.lt_length (h : Stands b before i after) : i < b.cursors.length := by
  by_cases hleft : .left i ∈ after
  · exact (List.getElem?_eq_some_iff.1 (h.gone hleft)).1
  · exact (List.getElem?_eq_some_iff.1 (h.reading hleft)).1

/-- What a listener does not hear, and does not leave by, does not move it. -/
theorem Stands.frame (h : Stands b before i after) (hleft : d ≠ .left i)
    (hheard : d.heard? i = none) (hcursor : b'.cursors[i]? = b.cursors[i]?) :
    Stands b' before i (after ++ [d]) := by
  have hread : read i (after ++ [d]) = read i after := read_append_of_heard?_eq_none hheard
  have hmem : .left i ∈ after ++ [d] ↔ .left i ∈ after := by simp [hleft.symm]
  refine ⟨?_, ?_, ?_⟩
  · rw [hread, events_append]
    exact h.begins.append _
  · rw [hmem, hcursor]
    exact h.gone
  · rw [hmem, hcursor, hread]
    exact h.reading

private theorem findIdxs_set_none (l : List (Option Nat)) (i : Nat) :
    (l.set i none).findIdxs Option.isSome = (l.findIdxs Option.isSome).filter (· ≠ i) := by
  refine List.Pairwise.eq_of_mem_iff (r := (· < ·)) List.pairwise_findIdxs
    (List.pairwise_findIdxs.filter _) ?_
  intro j
  simp only [List.mem_filter, List.mem_findIdxs_iff_exists_getElem_pos, List.length_set,
    List.getElem_set]
  by_cases hj : i = j
  · simp [hj]
  · simp [hj, Ne.symm hj]

private theorem findIdxs_set_some {l : List (Option Nat)} {i n m : Nat}
    (h : l[i]? = some (some n)) :
    (l.set i (some m)).findIdxs Option.isSome = l.findIdxs Option.isSome := by
  refine List.Pairwise.eq_of_mem_iff (r := (· < ·)) List.pairwise_findIdxs
    List.pairwise_findIdxs ?_
  intro j
  simp only [List.mem_findIdxs_iff_exists_getElem_pos, List.length_set, List.getElem_set]
  obtain ⟨hi, hn⟩ := List.getElem?_eq_some_iff.1 h
  by_cases hj : i = j
  · subst hj
    simp [hi, hn]
  · simp [hj]

theorem Records.listen (h : Records capacity past b) :
    Records capacity (past ++ [.listened b.cursors.length]) b.listen.1 where
  capacity_eq := h.capacity_eq
  sent_eq := by simpa [Bus.listen] using h.sent_eq
  kept_eq := by simpa [Bus.listen] using h.kept_eq
  present_eq := by simp [present_append_singleton, Bus.listen, h.present_eq]
  strangers i hi := by
    have hpast : .listened i ∉ past ∧ b.cursors.length ≠ i := by
      simpa [eq_comm] using hi
    have hnone := List.getElem?_eq_none_iff.1 (h.strangers i hpast.1)
    simp only [Bus.listen, List.getElem?_eq_none_iff, List.length_append, List.length_singleton]
    omega
  stands before i after hsplit := by
    rcases split_concat hsplit with ⟨rfl, hi, rfl⟩ | ⟨after, rfl, hpast⟩
    · obtain rfl := Deed.listened.inj hi
      exact ⟨.nil, by simp, by simp [Bus.listen, h.sent_eq]⟩
    · have hstands := h.stands before i after hpast
      exact hstands.frame nofun rfl (List.getElem?_append_left hstands.lt_length)

theorem Records.publish (h : Records capacity past b) (e : ε) :
    Records capacity (past ++ [.published e b.listeners]) (b.publish e).1 where
  capacity_eq := h.capacity_eq
  sent_eq := by simp [Bus.publish, h.sent_eq]
  kept_eq := by
    simp only [Bus.publish, h.kept_eq, h.capacity_eq, newest_append_singleton]
    simp
  present_eq := by simp [present_append_singleton, Bus.publish, h.present_eq]
  strangers i hi := h.strangers i (by simpa using hi)
  stands before i after hsplit := by
    rcases split_concat hsplit with ⟨-, hi, -⟩ | ⟨after, rfl, hpast⟩
    · cases hi
    · exact (h.stands before i after hpast).frame nofun rfl rfl

theorem Records.leave (h : Records capacity past b) (j : Nat) :
    Records capacity (past ++ [.left j]) (b.leave j) where
  capacity_eq := h.capacity_eq
  sent_eq := by simpa [Bus.leave] using h.sent_eq
  kept_eq := by simpa [Bus.leave] using h.kept_eq
  present_eq := by
    rw [present_append_singleton, h.present_eq]
    exact (findIdxs_set_none b.cursors j).symm
  strangers i hi := by
    have hnone := h.strangers i (by simpa using hi)
    simpa [Bus.leave] using hnone
  stands before i after hsplit := by
    rcases split_concat hsplit with ⟨-, hi, -⟩ | ⟨after, rfl, hpast⟩
    · cases hi
    have hstands := h.stands before i after hpast
    by_cases hj : j = i
    · subst hj
      refine ⟨?_, ?_, by simp⟩
      · rw [read_append_of_heard?_eq_none rfl, events_append]
        exact hstands.begins.append _
      · intro _
        simp [Bus.leave, hstands.lt_length]
    · exact hstands.frame (by simpa using hj) rfl (List.getElem?_set_ne hj)

theorem length_unread (i : Nat) (deeds : List (Deed ε)) :
    (unread i deeds).length = (events deeds).length - (read i deeds).length := List.length_drop

private theorem Records.lost_since (h : Records capacity (before ++ .listened i :: after) b) :
    b.lost = (events before).length + (events after).length - capacity := by
  have hlost := h.lost_eq
  rw [events_append, List.length_append, events_cons] at hlost
  exact hlost

private theorem Records.kept_next (h : Records capacity (before ++ .listened i :: after) b)
    (hle : (read i after).length ≤ (events after).length)
    (hlag : ¬ capacity < (unread i after).length) :
    b.lost ≤ (events before).length + (read i after).length ∧
      b.kept[(events before).length + (read i after).length - b.lost]? =
        (unread i after).head? := by
  have hunread := length_unread i after
  have hlost := h.lost_since
  have hseen : b.lost ≤ (events before).length + (read i after).length := by omega
  have hevents : events (before ++ .listened i :: after) = events before ++ events after := by simp
  refine ⟨hseen, ?_⟩
  rw [h.kept_eq, newest, List.getElem?_drop, ← h.lost_eq, Nat.add_sub_of_le hseen, hevents,
    List.getElem?_append_right (Nat.le_add_right _ _), Nat.add_sub_cancel_left]
  exact List.head?_drop.symm

/-- A listener that attached and stayed finds what is next of the events it has not read, and
stands behind it from then on. -/
theorem Records.receive_eq (h : Records capacity (before ++ .listened i :: after) b)
    (hleft : .left i ∉ after) :
    b.receive i =
      ({ b with cursors := b.cursors.set i (some ((events before).length + (read i after).length +
          (expected capacity (unread i after)).read.length)) },
        expected capacity (unread i after)) := by
  have hstands := h.stands before i after rfl
  have hcursor := hstands.reading hleft
  have hle := hstands.begins.length_le
  unfold Bus.receive expected
  simp only [hcursor, Option.join_some]
  by_cases hlag : capacity < (unread i after).length
  · have hunread := length_unread i after
    have hlost := h.lost_since
    have hstand : (events before).length + (read i after).length +
        ((unread i after).length - capacity) = b.lost := by omega
    rw [if_pos (by omega), if_pos hlag]
    simp only [Reception.read, List.length_replicate, hstand]
    congr 2
    omega
  · obtain ⟨hseen, hnext⟩ := h.kept_next hle hlag
    rw [if_neg (Nat.not_lt.2 hseen), if_neg hlag, hnext]
    cases unread i after with
    | nil =>
      -- Nothing is found, and the listener stays where it stands.
      have hsame : b.cursors.set i (some ((events before).length + (read i after).length)) =
          b.cursors := by
        obtain ⟨hi, hget⟩ := List.getElem?_eq_some_iff.1 hcursor
        rw [← hget, List.set_getElem_self]
      simp [Reception.read, hsame]
    | cons e rest => simp [Reception.read]

theorem receive_of_detached (h : b.cursors[i]?.join = none) : b.receive i = (b, .detached) := by
  simp [Bus.receive, h]

/-- Nothing changes but where one attached listener stands, if that. -/
structure Moves (b : Bus ε) (i : Nat) (b' : Bus ε) : Prop where
  capacity_eq : b'.capacity = b.capacity
  sent_eq : b'.sent = b.sent
  kept_eq : b'.kept = b.kept
  length_eq : b'.cursors.length = b.cursors.length
  attached_eq : b'.cursors.findIdxs Option.isSome = b.cursors.findIdxs Option.isSome
  others : ∀ j, i ≠ j → b'.cursors[j]? = b.cursors[j]?

theorem receive_moves (b : Bus ε) (i : Nat) : Moves b i (b.receive i).1 := by
  have stay : Moves b i b := ⟨rfl, rfl, rfl, rfl, rfl, fun _ _ => rfl⟩
  have move {n : Nat} (m : Nat) (h : b.cursors[i]? = some (some n)) :
      Moves b i { b with cursors := b.cursors.set i (some m) } :=
    ⟨rfl, rfl, rfl, List.length_set, findIdxs_set_some h,
      fun _ hne => List.getElem?_set_ne hne⟩
  unfold Bus.receive
  split
  · exact stay
  next seen hcursor =>
    have hseen := Option.join_eq_some_iff.1 hcursor
    split
    · exact move _ hseen
    · split
      · exact stay
      · exact move _ hseen

theorem Stands.receive (h : Records capacity (before ++ .listened i :: after) b) :
    Stands (b.receive i).1 before i (after ++ [.received i (b.receive i).2]) := by
  have hstands := h.stands before i after rfl
  by_cases hleft : .left i ∈ after
  · have hgone := hstands.gone hleft
    rw [receive_of_detached (by simp [hgone])]
    refine ⟨?_, fun _ => hgone, by simp [hleft]⟩
    simpa [read_received, Reception.read] using hstands.begins
  · rw [h.receive_eq hleft]
    refine ⟨?_, by simp [hleft], fun _ => ?_⟩
    · have hnext := begins_expected capacity (unread i after)
      simpa [read_received] using hstands.begins.trans hnext
    · simp [read_received, hstands.lt_length, Nat.add_assoc]

theorem Records.receive (h : Records capacity past b) (j : Nat) :
    Records capacity (past ++ [.received j (b.receive j).2]) (b.receive j).1 where
  capacity_eq := (receive_moves b j).capacity_eq.trans h.capacity_eq
  sent_eq := by simpa using (receive_moves b j).sent_eq.trans h.sent_eq
  kept_eq := by simpa using (receive_moves b j).kept_eq.trans h.kept_eq
  present_eq := by
    rw [present_append_singleton, (receive_moves b j).attached_eq]
    exact h.present_eq
  strangers i hi := by
    have hnone := List.getElem?_eq_none_iff.1 (h.strangers i (by simpa using hi))
    exact List.getElem?_eq_none_iff.2 ((receive_moves b j).length_eq.trans_le hnone)
  stands before i after hsplit := by
    rcases split_concat hsplit with ⟨-, hi, -⟩ | ⟨after, rfl, rfl⟩
    · cases hi
    by_cases hj : j = i
    · subst hj
      exact Stands.receive h
    · exact (h.stands before i after rfl).frame nofun (if_neg hj)
        ((receive_moves b j).others i hj)

/-- Whatever is done with the bus. -/
theorem Records.act (h : Records capacity past b) (op : Op ε) :
    Records capacity (past ++ [(b.act op).2]) (b.act op).1 := by
  cases op with
  | listen => exact h.listen
  | publish e => exact h.publish e
  | receive i => exact h.receive i
  | leave i => exact h.leave i

theorem Records.acts (h : Records capacity past b) (ops : List (Op ε)) :
    Records capacity (past ++ (b.acts ops).2) (b.acts ops).1 := by
  induction ops generalizing past b with
  | nil => simpa [Bus.acts] using h
  | cons op ops ih => simpa [Bus.acts] using ih (h.act op)

end Invariant

/-- What the record of a bus is like. Who publishes is told how many listeners are attached; what a
listener has read is how the events began since it attached, a gap for each that was lost; and what
it finds next is fixed by the events that it has not read. -/
structure Accounted (capacity : Nat) (deeds : List (Deed ε)) : Prop where
  counted : ∀ past e n more, deeds = past ++ .published e n :: more → n = (present past).length
  reproduced : ∀ before i after, deeds = before ++ .listened i :: after →
    Begins (read i after) (events after)
  next : ∀ before i mid r more,
    deeds = before ++ .listened i :: mid ++ .received i r :: more → .left i ∉ mid →
    r = expected capacity (unread i mid)
  /-- Only a listener too far behind is told that it lagged, and by how much; what it finds from
  then on are the events still kept. -/
  lagged : ∀ before i mid n more,
    deeds = before ++ .listened i :: mid ++ .received i (.lagged n) :: more →
    capacity < (unread i mid).length ∧ n = (unread i mid).length - capacity ∧
      unread i (mid ++ [.received i (.lagged n)]) = newest capacity (events (before ++ mid))
  detached : ∀ past i r more, deeds = past ++ .received i r :: more →
    (∀ before after, past = before ++ .listened i :: after → .left i ∈ after) → r = .detached

section

variable {capacity i n : Nat} {before mid past more deeds : List (Deed ε)} {d : Deed ε} {b : Bus ε}

/-- A lag is told to nobody who can still be served, and is as long as what can not be. -/
theorem unread_lagged (h : .lagged n = expected capacity (unread i mid)) :
    capacity < (unread i mid).length ∧ n = (unread i mid).length - capacity ∧
      unread i (mid ++ [.received i (.lagged n)]) = newest capacity (events (before ++ mid)) := by
  unfold expected at h
  split at h
  next hlag =>
    obtain rfl := Reception.lagged.inj h
    refine ⟨hlag, rfl, ?_⟩
    have hlength := length_unread i mid
    have hsum : (events before).length +
          ((read i mid).length + ((unread i mid).length - capacity)) =
        (events before ++ events mid).length - capacity := by
      rw [List.length_append]
      omega
    rw [newest, events_append, ← hsum, List.drop_length_add_append]
    simp [unread, read_received, Reception.read]
  · split at h <;> cases h

theorem accounted_of_acts (h : Records capacity [] b) (ops : List (Op ε)) :
    Accounted capacity (b.acts ops).2 := by
  have hrecords := h.acts ops
  rw [List.nil_append] at hrecords
  -- Each deed is done with a bus that is what the record before it makes of it.
  have hmoment {past more : List (Deed ε)} {d : Deed ε} (hd : (b.acts ops).2 = past ++ d :: more) :
      ∃ b' op, Records capacity past b' ∧ d = (b'.act op).2 := by
    obtain ⟨ops', op, rfl, rfl⟩ := act_of_acts hd
    exact ⟨_, op, by simpa using h.acts ops', rfl⟩
  have hreceived {past more : List (Deed ε)} {i : Nat} {r : Reception ε}
      (hd : (b.acts ops).2 = past ++ .received i r :: more) :
      ∃ b', Records capacity past b' ∧ r = (b'.receive i).2 := by
    obtain ⟨b', op, hb', hr⟩ := hmoment hd
    cases op with
    | receive j =>
      obtain ⟨rfl, rfl⟩ := Deed.received.inj hr
      exact ⟨b', hb', rfl⟩
    | _ => cases hr
  have hnext : ∀ before i mid r more,
      (b.acts ops).2 = before ++ .listened i :: mid ++ .received i r :: more → .left i ∉ mid →
      r = expected capacity (unread i mid) := by
    intro before i mid r more hd hleft
    obtain ⟨b', hb', rfl⟩ := hreceived hd
    rw [hb'.receive_eq hleft]
  refine ⟨?_, fun before i after hd => (hrecords.stands before i after hd).begins, hnext, ?_, ?_⟩
  · intro past e n more hd
    obtain ⟨b', op, hb', hn⟩ := hmoment hd
    cases op with
    | publish e =>
      obtain ⟨rfl, rfl⟩ := Deed.published.inj hn
      exact hb'.listeners_eq
    | _ => cases hn
  · intro before i mid n more hd
    by_cases hleft : .left i ∈ mid
    · obtain ⟨b', hb', hr⟩ := hreceived hd
      have hgone := (hb'.stands before i mid rfl).gone hleft
      rw [receive_of_detached (by simp [hgone])] at hr
      cases hr
    · exact unread_lagged (hnext before i mid _ more hd hleft)
  · intro past i r more hd haway
    obtain ⟨b', hb', rfl⟩ := hreceived hd
    have haway' : b'.cursors[i]?.join = none := by
      by_cases hmem : .listened i ∈ past
      · obtain ⟨before, after, rfl⟩ := List.append_of_mem hmem
        simp [(hb'.stands before i after rfl).gone (haway before after rfl)]
      · simp [hb'.strangers i hmem]
    rw [receive_of_detached haway']

end

end Bus

namespace Session

open Journal

variable {σ : Type} [Interpreter σ]

/-- The steps from one session to another while hosts subscribe to it, look for what it has
published and leave, each whenever it likes; with the journal of the steps and the record of the
bus. -/
inductive Watched (s : Session σ) : Journal σ → List (Bus.Deed Transition) → Session σ → Prop
  | start : Watched s [] [] s
  | step {j deeds t k u} (run : Watched s j deeds t) (next : Step t k u) :
      Watched s (j ++ k) (deeds ++ (published k).map fun c => .published c t.events.listeners) u
  | subscribe {j deeds t} (run : Watched s j deeds t) :
      Watched s j (deeds ++ [.listened t.events.listen.2]) { t with events := t.events.listen.1 }
  | receive {j deeds t} (run : Watched s j deeds t) (i : Nat) :
      Watched s j (deeds ++ [.received i (t.events.receive i).2])
        { t with events := (t.events.receive i).1 }
  | leave {j deeds t} (run : Watched s j deeds t) (i : Nat) :
      Watched s j (deeds ++ [.left i]) { t with events := t.events.leave i }

variable {s t u : Session σ} {j k : Journal σ} {deeds : List (Bus.Deed Transition)}

/-- A step does nothing with the bus but publish what the journal says. -/
theorem Step.acts_publish (next : Step s k t) :
    s.events.acts ((published k).map .publish) =
      (t.events, (published k).map fun c => .published c s.events.listeners) := by
  cases next with
  | publish => rfl
  | request hs ha hx => simp only [beginLoad, hx]; rfl
  | refuse hs ha hx => simp only [beginLoad, hx]; rfl
  | _ => rfl

omit [Interpreter σ] in
private theorem beginLoad_events (s : Session σ) (b : Bus Transition) (name : String) :
    { s with events := b }.beginLoad name = { s.beginLoad name with events := b } := by
  unfold beginLoad
  dsimp only
  split <;> rfl

/-- No step depends on who has subscribed. -/
theorem Step.unwatched (next : Step s k t) (b : Bus Transition) :
    ∃ b', Step { s with events := b } k { t with events := b' } := by
  cases next with
  | send hs hr hc => exact ⟨b, .send hs hr hc⟩
  | collect hm => exact ⟨b, .collect hm⟩
  | close => exact ⟨b, .close⟩
  | disconnect => exact ⟨b, .disconnect⟩
  | elapse => exact ⟨b, .elapse⟩
  | linger hj => exact ⟨b, .linger hj⟩
  | publish hs ha => exact ⟨_, .publish hs ha⟩
  | post hs ha hr hc => exact ⟨b, .post hs ha hr hc⟩
  | lose hs ha hr => exact ⟨b, .lose hs ha hr⟩
  | @request name rest x hs ha hx =>
    exact ⟨b, beginLoad_events { s with agenda := rest } b name ▸ .request hs ha hx⟩
  | @refuse name rest hs ha hx =>
    exact ⟨b, beginLoad_events { s with agenda := rest } b name ▸ .refuse hs ha hx⟩
  | call hs ha => exact ⟨b, .call hs ha⟩
  | take hl hm => exact ⟨b, .take hl hm⟩
  | load hs ha hj => exact ⟨b, .load hs ha hj⟩
  | answer hs ha hj hx => exact ⟨b, .answer hs ha hj hx⟩
  | exhaust hs ha hj hi => exact ⟨b, .exhaust hs ha hj hi⟩
  | crashLoad hs ha hj => exact ⟨b, .crashLoad hs ha hj⟩
  | crashCall hs ha hj hx => exact ⟨b, .crashCall hs ha hj hx⟩

/-- Without its subscribers the bridge does the same. -/
theorem Watched.run (watched : Watched s j deeds t) :
    ∃ b, Run s j { t with events := b } := by
  induction watched with
  | start => exact ⟨_, .start⟩
  | step _ next ih =>
    obtain ⟨b, run⟩ := ih
    obtain ⟨b', next'⟩ := next.unwatched b
    exact ⟨b', run.step next'⟩
  | subscribe _ ih | receive _ _ ih | leave _ _ ih => exact ih

/-- What becomes of the bus is what comes of the deeds on it. -/
theorem Watched.acts (watched : Watched s j deeds t) :
    (∃ ops, s.events.acts ops = (t.events, deeds)) ∧ Bus.events deeds = published j := by
  induction watched with
  | start => exact ⟨⟨[], rfl⟩, rfl⟩
  | @step j deeds t k u _ next ih =>
    obtain ⟨⟨ops, hops⟩, hevents⟩ := ih
    refine ⟨⟨ops ++ (published k).map .publish, ?_⟩, ?_⟩
    · simp only [Bus.acts_append, hops, next.acts_publish]
    · have hk (n : Nat) : Bus.events ((published k).map fun c => .published c n) = published k := by
        induction published k with
        | nil => rfl
        | cons c l ih => simp [ih]
      simp [hevents, hk]
  | subscribe _ ih =>
    obtain ⟨⟨ops, hops⟩, hevents⟩ := ih
    exact ⟨⟨ops ++ [.listen], by simp only [Bus.acts_append, hops]; rfl⟩, by simpa using hevents⟩
  | receive _ i ih =>
    obtain ⟨⟨ops, hops⟩, hevents⟩ := ih
    exact ⟨⟨ops ++ [.receive i], by simp only [Bus.acts_append, hops]; rfl⟩,
      by simpa using hevents⟩
  | leave _ i ih =>
    obtain ⟨⟨ops, hops⟩, hevents⟩ := ih
    exact ⟨⟨ops ++ [.leave i], by simp only [Bus.acts_append, hops]; rfl⟩, by simpa using hevents⟩

end Session

/-- What the subscribers of a bridge hear: each transition since they subscribed, in order, and
nothing else. None of them is told that it lagged. -/
structure Bus.Complete (deeds : List (Deed Transition)) : Prop where
  never_lagged : ∀ i n, .received i (.lagged n) ∉ deeds
  in_order : ∀ before i after, deeds = before ++ .listened i :: after →
    ∃ heard, Bus.read i after = heard.map some ∧ heard <+: events after
  next : ∀ before i mid r more,
    deeds = before ++ .listened i :: mid ++ .received i r :: more → .left i ∉ mid →
    r = (unread i mid).head?.elim .empty .event

namespace Bus

variable {capacity : Nat} {deeds : List (Deed Transition)}

private theorem expected_of_le {es : List Transition} (h : es.length ≤ capacity) :
    expected capacity es = es.head?.elim .empty .event := by
  unfold expected
  rw [if_neg (Nat.not_lt.2 h)]
  cases es <;> rfl

/-- A bus that never holds all it can hold loses nothing. -/
theorem Accounted.complete (h : Accounted capacity deeds)
    (hfew : (events deeds).length ≤ capacity) : Complete deeds := by
  have hlagged : ∀ i n, .received i (.lagged n) ∉ deeds := by
    intro i n hmem
    obtain ⟨past, more, hd⟩ := List.append_of_mem hmem
    -- Who is away is told nothing, and who is there is no further behind than all that was sent.
    by_cases haway : ∀ before after, past = before ++ .listened i :: after → .left i ∈ after
    · cases h.detached past i _ more hd haway
    · push Not at haway
      obtain ⟨before, mid, rfl, -⟩ := haway
      obtain ⟨hlag, -⟩ := h.lagged before i mid n more hd
      have hunread := length_unread_le i mid
      simp only [hd, events_append, events_cons, List.length_append] at hfew
      omega
  refine ⟨hlagged, ?_, ?_⟩
  · intro before i after hd
    refine ⟨_, (h.reproduced before i after hd).eq_map_some ?_, List.take_prefix _ _⟩
    intro hgap
    obtain ⟨r, hr, hnone⟩ := List.mem_flatMap.1 hgap
    obtain ⟨n, rfl⟩ := Reception.lagged_of_none_mem_read hnone
    have hmem := mem_heard.1 hr
    exact hlagged i n (by simp [hd, hmem])
  · intro before i mid r more hd hleft
    rw [h.next before i mid r more hd hleft]
    have hunread := length_unread_le i mid
    refine expected_of_le ?_
    simp only [hd, events_append, events_cons, List.length_append] at hfew
    omega

end Bus

open Journal

variable {σ : Type} [Interpreter σ] {settings : BridgeSettings} {registry : Registry σ}
  {j : Journal σ} {s : Session σ}

theorem Session.Run.length_published_le (run : Session.Run (.create registry settings) j s) :
    (published j).length ≤ 2 := by
  obtain ⟨hp, -⟩ := run.faithful.conduct.passed.bounds
  have hle := hp.elim List.IsPrefix.length_le List.IsPrefix.length_le
  rw [published_append, List.length_append] at hle
  exact (Nat.le_add_right _ _).trans hle

/-- Whatever is done with a bus, each of its listeners is told of each event since it attached, that
it is this one or that it is lost, and is told of a loss only when it is further behind than the bus
can hold. The bus of a bridge holds more than a bridge ever publishes. -/
theorem unmissed (backlog : Nat) (ops : List (Bus.Op ε)) {deeds : List (Bus.Deed Transition)}
    (watched : Session.Watched (.create registry settings) j deeds s) :
    IsLeast {c | max backlog 1 ≤ c ∧ ∃ k, c = 2 ^ k} (capacityFor backlog) ∧
      Bus.Accounted (capacityFor backlog) ((Bus.withBacklog backlog).acts ops).2 ∧
      Bus.events deeds = published j ∧ Bus.Complete deeds := by
  refine ⟨isLeast_capacityFor backlog, Bus.accounted_of_acts (Bus.records_withBacklog backlog) ops,
    ?_⟩
  obtain ⟨⟨ops', hops⟩, hevents⟩ := watched.acts
  obtain ⟨b, run⟩ := watched.run
  have haccounted : Bus.Accounted (capacityFor Bus.defaultBacklog) deeds := by
    have hdeeds : deeds = ((Bus.withBacklog Bus.defaultBacklog).acts ops').2 :=
      (congrArg Prod.snd hops).symm
    rw [hdeeds]
    exact Bus.accounted_of_acts (Bus.records_withBacklog _) ops'
  refine ⟨hevents, haccounted.complete ?_⟩
  rw [hevents]
  exact run.length_published_le.trans (by decide)

namespace Rehearsal

/-- A bus asked to hold three events holds four. One listener falls behind and loses two; another
attaches later and leaves before the last event. -/
def uses : List (Bus.Op Nat) :=
  [.listen, .publish 0, .publish 1, .listen, .publish 2, .publish 3, .publish 4, .publish 5,
    .receive 0, .receive 0, .receive 1, .leave 1, .publish 6, .receive 0, .receive 1]

/-- Who subscribes while the engine loads does not see that it began to. -/
def watch : List (Bus.Deed Transition) :=
  [.listened 0, .published ⟨.uninitialized, .loading⟩ 1, .listened 1,
    .published ⟨.loading, .ready⟩ 2, .received 1 (.event ⟨.loading, .ready⟩),
    .received 0 (.event ⟨.uninitialized, .loading⟩), .received 1 .empty,
    .received 0 (.event ⟨.loading, .ready⟩)]

end Rehearsal

theorem unmissed_rehearsal : ∃ j s,
    Session.Watched (.create Rehearsal.registry Rehearsal.settings) j Rehearsal.watch s ∧
    Bus.Accounted 4 ((Bus.withBacklog 3).acts Rehearsal.uses).2 ∧
    Bus.events Rehearsal.watch = published j ∧ Bus.Complete Rehearsal.watch := by
  have watched := Session.Watched.start (s := .create Rehearsal.registry Rehearsal.settings)
  have watched := watched.subscribe
  have watched := watched.step (.send (m := .control (.start none)) rfl rfl rfl)
  have watched := watched.step (.take rfl rfl)
  have watched := watched.step (.publish rfl rfl)
  have watched := watched.subscribe
  have watched := watched.step (.request rfl rfl rfl)
  have watched := watched.step (k := [.loaded (.ok Rehearsal.adapter)]) (.load rfl rfl rfl)
  have watched := watched.step (.publish rfl rfl)
  have watched := watched.receive 1
  have watched := watched.receive 0
  have watched := watched.receive 1
  have watched := watched.receive 0
  obtain ⟨-, haccounted, hevents, hcomplete⟩ := unmissed 3 Rehearsal.uses watched
  exact ⟨_, _, watched, haccounted, hevents, hcomplete⟩

example : ((Bus.withBacklog 3).acts Rehearsal.uses).2 =
    [.listened 0, .published 0 1, .published 1 1, .listened 1, .published 2 2, .published 3 2,
      .published 4 2, .published 5 2, .received 0 (.lagged 2), .received 0 (.event 2),
      .received 1 (.event 2), .left 1, .published 6 1, .received 0 (.event 3),
      .received 1 .detached] := by
  decide

end EngineBridge
