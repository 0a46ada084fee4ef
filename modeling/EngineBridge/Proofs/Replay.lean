import EngineBridge.Proofs.Conduct

/-!
# What a journal determines

A bridge has no choice of its own. Its state can be read off its journal, and what it does next, as
long as it neither takes a message nor sees the end of its load, is the one thing that it can do. Of
two runs with the same messages and the same end of the load, in the same order, the one that has
not come as far is the beginning of the other.
-/

namespace EngineBridge

open Journal

/-- The entry comes from the surroundings: a message, or the end of a load. -/
def Entry.isInput {σ : Type} : Entry σ → Bool
  | .took _ | .loaded _ => true
  | _ => false

/-- What the surroundings have given a bridge, in the order in which it came. -/
def Journal.inputs {σ : Type} (j : Journal σ) : Journal σ := j.filter Entry.isInput

/-- What a journal leaves behind: the bridge, what it has still to do, and the call that is under
way. -/
structure Replay (σ : Type) where
  bridge : Bridge (Adapter σ)
  agenda : List (Effect (Adapter σ)) := []
  call : Option (Execution σ) := none

namespace Replay

variable {σ : Type}

def start (settings : BridgeSettings) : Replay σ := { bridge := { settings } }

def feed (r : Replay σ) (e : BridgeEvent (Adapter σ)) : Replay σ :=
  let (bridge, effects) := r.bridge.step e
  { r with bridge, agenda := r.agenda ++ effects }

/-- What may come next: the effect that is to be carried out; where there is none, the answer to the
call; and where there is no call either, what the surroundings give. -/
inductive Allows (r : Replay σ) : Entry σ → Prop
  | effect {e rest} (ha : r.agenda = e :: rest) :
      Allows r (e.entry r.bridge.settings.contextId)
  | answer {x result} (ha : r.agenda = []) (hc : r.call = some x)
      (hx : x.answer = .ofResult result) : Allows r (.answered result)
  | input {x} (ha : r.agenda = []) (hc : r.call = none) (hx : x.isInput = true) : Allows r x

variable {r : Replay σ} {j k : Journal σ} {x y : Entry σ}

theorem ofResult_injective {result result' : Except EngineError String}
    (h : Answer.ofResult result = .ofResult result') : result = result' := by
  cases result <;> cases result' <;> cases h <;> rfl

/-- A bridge has no choice. -/
theorem Allows.eq_or_input (hx : r.Allows x) (hy : r.Allows y) :
    x = y ∨ x.isInput = true ∧ y.isInput = true := by
  cases hx with
  | effect ha =>
    cases hy with
    | effect ha' =>
      obtain ⟨rfl, -⟩ := List.cons.inj (ha.symm.trans ha')
      exact .inl rfl
    | answer ha' => cases ha.symm.trans ha'
    | input ha' => cases ha.symm.trans ha'
  | answer ha hc hr =>
    cases hy with
    | effect ha' => cases ha'.symm.trans ha
    | answer _ hc' hr' =>
      obtain rfl := Option.some.inj (hc.symm.trans hc')
      exact .inl (congrArg _ (ofResult_injective (hr.symm.trans hr')))
    | input _ hc' => cases hc.symm.trans hc'
  | input ha hc hi =>
    cases hy with
    | effect ha' => cases ha'.symm.trans ha
    | answer _ hc' => cases hc'.symm.trans hc
    | input _ _ hi' => exact .inr ⟨hi, hi'⟩

/-- Nothing but what the surroundings give can come next. -/
structure Quiet (r : Replay σ) : Prop where
  agenda_eq : r.agenda = []
  no_answer : ∀ x result, r.call = some x → x.answer ≠ .ofResult result

theorem Quiet.isInput (h : r.Quiet) (hx : r.Allows x) : x.isInput = true := by
  cases hx with
  | effect ha => cases h.agenda_eq.symm.trans ha
  | answer ha hc hr => exact absurd hr (h.no_answer _ _ hc)
  | input ha hc hi => exact hi

variable [Interpreter σ]

def next (r : Replay σ) : Entry σ → Replay σ
  | .took m => r.feed (.received m)
  | .loaded result => r.feed (.loaded result)
  | .answered result =>
    match r.call with
    | some x => { r with call := none }.feed (.answered x.after result)
    | none => r
  | .called _ a command =>
    { r with
      agenda := r.agenda.tail
      call := some (a.execute r.bridge.settings.contextId command) }
  | _ => { r with agenda := r.agenda.tail }

def after (r : Replay σ) (j : Journal σ) : Replay σ := j.foldl next r

@[simp] theorem after_nil (r : Replay σ) : r.after [] = r := rfl

@[simp] theorem after_append (r : Replay σ) (j k : Journal σ) :
    r.after (j ++ k) = (r.after j).after k :=
  List.foldl_append

/-- Each entry of the journal is allowed where it stands. -/
def Follows (r : Replay σ) : Journal σ → Prop
  | [] => True
  | x :: j => r.Allows x ∧ (r.next x).Follows j

theorem follows_append : r.Follows (j ++ k) ↔ r.Follows j ∧ (r.after j).Follows k := by
  induction j generalizing r with
  | nil => simp [Follows]
  | cons x j ih => simp [Follows, ih, and_assoc, after]

/-- Of two journals whose inputs agree as far as the first one goes, the one is the beginning of the
other. -/
theorem Follows.prefix_or (hj : r.Follows j) (hk : r.Follows k) (hi : inputs j <+: inputs k) :
    j <+: k ∨ k <+: j := by
  induction j generalizing r k with
  | nil => exact .inl (List.nil_prefix)
  | cons x j ih =>
    cases k with
    | nil => exact .inr (List.nil_prefix)
    | cons y k =>
      obtain ⟨hx, hj⟩ := hj
      obtain ⟨hy, hk⟩ := hk
      have heq : x = y := by
        obtain heq | ⟨hx, hy⟩ := hx.eq_or_input hy
        · exact heq
        · simp only [inputs, List.filter_cons, hx, hy, if_true] at hi
          exact (List.cons_prefix_cons.1 hi).1
      subst heq
      have hrest : inputs j <+: inputs k := by
        unfold inputs at hi ⊢
        rw [List.filter_cons, List.filter_cons] at hi
        split at hi
        · exact (List.cons_prefix_cons.1 hi).2
        · exact hi
      rw [List.cons_prefix_cons, List.cons_prefix_cons]
      exact (ih hj hk hrest).imp (⟨rfl, ·⟩) (⟨rfl, ·⟩)

/-- A journal that has come to a rest is not overtaken by one with fewer inputs. -/
theorem Follows.prefix_of_quiet (hj : r.Follows j) (hk : r.Follows k) (hq : (r.after k).Quiet)
    (hi : inputs j <+: inputs k) : j <+: k := by
  obtain hbegins | ⟨more, rfl⟩ := hj.prefix_or hk hi
  · exact hbegins
  · cases more with
    | nil => simp
    | cons x more =>
      -- What the first journal has beyond the second would begin with an input.
      have hx := hq.isInput (follows_append.1 hj).2.1
      have hlength := hi.length_le
      rw [inputs, inputs, List.filter_append, List.filter_cons_of_pos hx, List.length_append,
        List.length_cons] at hlength
      omega

end Replay

namespace Session

variable {σ : Type}

def replay (s : Session σ) : Replay σ where
  bridge := s.bridge
  agenda := s.agenda
  call := match s.job with | .calling _ x => some x | _ => none

variable [Interpreter σ] {settings : BridgeSettings} {s t : Session σ} {j k : Journal σ}

theorem Step.replay (h : Faithful settings j s) (next : Step s k t) :
    s.replay.Follows k ∧ t.replay = s.replay.after k := by
  have hengaged := h.engaged
  cases next with
  | send | collect | close | disconnect | elapse => exact ⟨trivial, rfl⟩
  | linger hj => exact ⟨trivial, by simp [Session.replay, hj]⟩
  | publish hs ha =>
    have hagenda : s.replay.agenda = _ := ha
    exact ⟨⟨.effect hagenda, trivial⟩, by simp [Session.replay, Replay.after, Replay.next, ha]⟩
  | post hs ha hr hc =>
    have hagenda : s.replay.agenda = _ := ha
    exact ⟨⟨.effect hagenda, trivial⟩, by simp [Session.replay, Replay.after, Replay.next, ha]⟩
  | lose => exact ⟨trivial, rfl⟩
  | @request name rest x hs ha hx =>
    have hagenda : s.replay.agenda = _ := ha
    rw [ha] at hengaged
    obtain ⟨-, hj, -⟩ := hengaged.of_load
    refine ⟨⟨.effect hagenda, trivial⟩, ?_⟩
    simp [Session.replay, Replay.after, Replay.next, beginLoad, hx, ha, hj]
  | @refuse name rest hs ha hx =>
    have hagenda : s.replay.agenda = _ := ha
    rw [ha] at hengaged
    obtain ⟨-, hj, rfl⟩ := hengaged.of_load
    have hcall : (s.replay.next (.requested name)).call = none := by
      simp [Session.replay, Replay.next, hj]
    have hnone : (s.replay.next (.requested name)).agenda = [] := by
      simp [Session.replay, Replay.next, ha]
    refine ⟨⟨.effect hagenda, .input hnone hcall rfl, trivial⟩, ?_⟩
    simp [Session.replay, Replay.after, Replay.next, Replay.feed, beginLoad, Session.feed, hx, ha,
      hj]
  | @call a command rest hs ha =>
    have hagenda : s.replay.agenda = _ := ha
    refine ⟨⟨.effect hagenda, trivial⟩, ?_⟩
    simp [Session.replay, Replay.after, Replay.next, beginCall, ha]
  | @take m rest hl hm =>
    obtain ⟨⟨hs, ha⟩, hj⟩ : (s.stopped = false ∧ s.agenda = []) ∧ _ := by
      simpa [listens] using hl
    have hcall : s.replay.call = none := by
      unfold Session.replay
      cases hjob : s.job with
      | calling since x => simp [hjob] at hj
      | _ => rfl
    exact ⟨⟨.input ha hcall rfl, trivial⟩, rfl⟩
  | load hs ha hj =>
    have hcall : s.replay.call = none := by simp [Session.replay, hj]
    refine ⟨⟨.input ha hcall rfl, trivial⟩, ?_⟩
    simp [Session.replay, Replay.after, Replay.next, Replay.feed, Session.feed, hj]
  | @answer since x result hs ha hj hx =>
    have hcall : s.replay.call = some x := by simp only [Session.replay, hj]
    refine ⟨⟨.answer ha hcall hx, trivial⟩, ?_⟩
    simp [Session.replay, Replay.after, Replay.next, Replay.feed, Session.feed, hj]
  | exhaust | crashLoad | crashCall => exact ⟨trivial, rfl⟩

theorem Run.replay {registry : Registry σ} (run : Run (create registry settings) j s) :
    (Replay.start settings).Follows j ∧ s.replay = (Replay.start settings).after j := by
  induction run with
  | start => exact ⟨trivial, rfl⟩
  | step run next ih =>
    obtain ⟨hfollows, heq⟩ := ih
    obtain ⟨hstep, hnext⟩ := next.replay run.faithful
    rw [heq] at hstep hnext
    exact ⟨Replay.follows_append.2 ⟨hfollows, hstep⟩, hnext.trans (Replay.after_append _ _ _).symm⟩

/-- With a host that is there, a bridge that waits for a message or has ended does nothing before
its surroundings give it something. -/
theorem Run.quiet {registry : Registry σ} (run : Run (create registry settings) j s)
    (hr : s.listens = true ∨ s.stopped = true ∧ s.outbound.receiving = true) :
    s.replay.Quiet := by
  have hfaithful := run.faithful
  obtain hl | ⟨hs, ho⟩ := hr
  · simp only [listens, Bool.and_eq_true, List.isEmpty_iff] at hl
    refine ⟨hl.1.2, ?_⟩
    intro x result hc
    unfold Session.replay at hc
    cases hjob : s.job <;> simp [hjob] at hc hl
  · obtain ⟨ha, hjob⟩ := hfaithful.ended hs ho
    refine ⟨ha, ?_⟩
    intro x result hc hx
    unfold Session.replay at hc
    cases hcrash : s.crash with
    | none => simp [hjob hcrash] at hc
    | some p =>
      -- A panic in a load leaves no call, and one in a call no answer.
      cases run.wrecked hcrash with
      | load _ _ hj => simp [hj] at hc
      | call _ _ hj hp =>
        obtain rfl := by simpa [hj] using hc
        rw [hp] at hx
        cases result <;> cases hx

end Session

end EngineBridge
