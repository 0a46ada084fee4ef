import EngineBridge.Proofs.Conduct

/-!
# The milestones of a run

A bridge goes through at most two changes of state, calls the loader at most once and is ready at
most once. Each message that it posts is in order where it stands: an engine is heard only after
the bridge is ready, a command is put off only while the load has no outcome, and a failed load is
told only in runs without an engine.
-/

namespace EngineBridge

open Journal

variable {σ : Type} {settings : BridgeSettings} {j : Journal σ} {phase : Phase (Adapter σ)}
  {pending : List String}

/-- What the phase tells of the load. -/
def Phase.Tells (settings : BridgeSettings) (j : Journal σ) : Phase (Adapter σ) → Prop
  | .uninitialized => asked j = none ∧ loadResult j = none
  | .loading name =>
    (∃ module, asked j = some module ∧ module.or settings.defaultModule = some name) ∧
      loadResult j = none
  | .ready name _ | .running name =>
    (∃ module, asked j = some module ∧ module.or settings.defaultModule = some name) ∧
      ∃ a, loadResult j = some (.ok a)
  | .failed none e =>
    (∃ module, asked j = some module ∧ module.or settings.defaultModule = none) ∧
      e = .noModule ∧ loadResult j = none
  | .failed (some name) e =>
    (∃ module, asked j = some module ∧ module.or settings.defaultModule = some name) ∧
      loadResult j = some (.error e)

/-- Entries that tell nothing of the load change nothing. -/
theorem Phase.Tells.frame {k : Journal σ} (h : phase.Tells settings j)
    (ha : asked k = asked j) (hl : loadResult k = loadResult j) : phase.Tells settings k := by
  cases phase with
  | failed module e => cases module <;> simpa only [Phase.Tells, ha, hl] using h
  | _ => simpa only [Phase.Tells, ha, hl] using h

theorem Phase.Tells.asked_isSome (h : phase.Tells settings j) (hp : phase ≠ .uninitialized) :
    (asked j).isSome = true := by
  cases phase with
  | uninitialized => exact absurd rfl hp
  | failed module e =>
    cases module with
    | none =>
      obtain ⟨⟨module, ha, -⟩, -⟩ := h
      simp [ha]
    | some name =>
      obtain ⟨⟨module, ha, -⟩, -⟩ := h
      simp [ha]
  | _ =>
    obtain ⟨⟨module, ha, -⟩, -⟩ := h
    simp [ha]

/-- Only the first request to load counts. -/
theorem Aside.asked_eq {m : Inbound} {answers : List Outbound} (ht : phase.Tells settings j)
    (h : Aside settings phase pending m answers) :
    asked (j ++ Entry.took m :: posts answers) = asked j := by
  cases h with
  | again hp hn =>
    obtain ⟨module, ha⟩ := Option.isSome_iff_exists.1 (ht.asked_isSome hn)
    simp [ha]
  | _ => simp

/-- Neither a command nor what is posted touches the outcome. -/
theorem Aside.outcome_eq {m : Inbound} {answers : List Outbound} (ht : phase.Tells settings j)
    (h : Aside settings phase pending m answers) (l : List Outbound) :
    outcome settings (j ++ [Entry.took m] ++ posts l) = outcome settings j :=
  outcome_congr (by simpa using h.asked_eq ht) (by simp)

/-- The milestones that lie behind a bridge in this phase. -/
def Phase.Passed (j : Journal σ) : Phase (Adapter σ) → Prop
  | .uninitialized =>
    published j = [] ∧ requested j = [] ∧ (posted j).count (.notice .ready) = 0
  | .loading name =>
    published j = [⟨.uninitialized, .loading⟩] ∧ requested j = [name] ∧
      (posted j).count (.notice .ready) = 0
  | .ready name _ | .running name =>
    published j = [⟨.uninitialized, .loading⟩, ⟨.loading, .ready⟩] ∧ requested j = [name] ∧
      (posted j).count (.notice .ready) = 1
  | .failed module _ =>
    published j = [⟨.uninitialized, .loading⟩, ⟨.loading, .failed⟩] ∧
      requested j = module.toList ∧ (posted j).count (.notice .ready) = 0

theorem Phase.Passed.frame {k : Journal σ} (h : phase.Passed j) (hp : published k = published j)
    (hr : requested k = requested j)
    (hc : (posted k).count (.notice .ready) = (posted j).count (.notice .ready)) :
    phase.Passed k := by
  cases phase <;> simpa only [Phase.Passed, hp, hr, hc] using h

theorem Phase.Passed.bounds (h : phase.Passed j) :
    (published j <+: [⟨.uninitialized, .loading⟩, ⟨.loading, .ready⟩] ∨
      published j <+: [⟨.uninitialized, .loading⟩, ⟨.loading, .failed⟩]) ∧
    (requested j).length ≤ 1 ∧ (posted j).count (.notice .ready) ≤ 1 := by
  cases phase with
  | uninitialized =>
    obtain ⟨hp, hr, hc⟩ := h
    exact ⟨by simp [hp], by simp [hr], by omega⟩
  | loading name =>
    obtain ⟨hp, hr, hc⟩ := h
    exact ⟨by simp [hp], by simp [hr], by omega⟩
  | ready name a =>
    obtain ⟨hp, hr, hc⟩ := h
    exact ⟨.inl (by simp [hp]), by simp [hr], by omega⟩
  | running name =>
    obtain ⟨hp, hr, hc⟩ := h
    exact ⟨.inl (by simp [hp]), by simp [hr], by omega⟩
  | failed module e =>
    obtain ⟨hp, hr, hc⟩ := h
    exact ⟨.inr (by simp [hp]), by cases module <;> simp [hr], by omega⟩

theorem Aside.count_ready {m : Inbound} {answers : List Outbound}
    (h : Aside settings phase pending m answers) : answers.count (.notice .ready) = 0 := by
  cases h <;> simp [BridgeError.notice]

theorem count_ready_answerPosts (result : Except EngineError String) :
    (Bridge.answerPosts result).count (.notice .ready) = 0 := by
  cases result with
  | error e => simp [Bridge.answerPosts, BridgeError.notice]
  | ok text =>
    unfold Bridge.answerPosts
    dsimp only
    split <;> simp

theorem count_ready_failing (e : LoadError) :
    (posted (failing e pending : Journal σ)).count (.notice .ready) = 0 := by
  rw [List.count_eq_zero]
  simp [failing, BridgeError.notice]

/-- Each entry may stand where it stands, with `past` in front of them all. -/
def Journal.Orderly (may : Journal σ → Entry σ → Prop) : Journal σ → Journal σ → Prop
  | _, [] => True
  | past, x :: rest => may past x ∧ Orderly may (past ++ [x]) rest

section Orderly

variable {may : Journal σ → Entry σ → Prop}

@[simp] theorem orderly_append {past k l : Journal σ} :
    Orderly may past (k ++ l) ↔ Orderly may past k ∧ Orderly may (past ++ k) l := by
  induction k generalizing past with
  | nil => simp [Orderly]
  | cons x k ih => simp [Orderly, ih, and_assoc]

theorem Journal.Orderly.at {past k l : Journal σ} {x : Entry σ}
    (h : Orderly may past (k ++ x :: l)) : may (past ++ k) x :=
  (orderly_append.1 h).2.1

theorem orderly_posts {past : Journal σ} {l : List Outbound}
    (h : ∀ m ∈ l, ∀ k, may (past ++ posts k) (.posted m)) : Orderly may past (posts l) := by
  induction l generalizing past with
  | nil => trivial
  | cons m l ih =>
    refine ⟨by simpa using h m (by simp) [], ih ?_⟩
    intro n hn k
    simpa [posts] using h n (List.mem_cons_of_mem m hn) (m :: k)

end Orderly

/-- The message comes from an engine: an output, or the error of a call. -/
def Outbound.FromEngine : Outbound → Prop
  | .response _ => True
  | .notice (.error kind _) => kind = .fault ∨ kind = .timeout
  | _ => False

/-- When a message may be posted. -/
def May (settings : BridgeSettings) (past : Journal σ) : Entry σ → Prop
  | .posted (.response _) => .notice .ready ∈ posted past
  | .posted (.notice (.error .fault _)) => .notice .ready ∈ posted past
  | .posted (.notice (.error .timeout _)) => .notice .ready ∈ posted past
  | .posted (.notice (.error .notReady _)) => outcome settings past = none
  | .posted (.notice (.error .queueFull _)) => outcome settings past = none
  | .posted (.notice (.error .load _)) => ∃ e, outcome settings past = some (.error e)
  | _ => True

theorem orderly_failing {past : Journal σ} {e : LoadError}
    (h : outcome settings past = some (.error e)) :
    Orderly (May settings) past (failing e pending) := by
  refine ⟨trivial, orderly_posts ?_⟩
  intro m hm l
  have hm : m = (BridgeError.load e).notice := by
    rcases List.mem_cons.1 hm with rfl | hm
    · rfl
    · obtain ⟨text, -, rfl⟩ := List.mem_map.1 hm
      rfl
  subst hm
  refine ⟨e, ?_⟩
  rw [List.append_assoc]
  exact outcome_append h _

variable [Interpreter σ]

theorem Conduct.tells (h : Conduct settings j phase pending) : phase.Tells settings j := by
  induction h with
  | start => exact ⟨rfl, rfl⟩
  | aside _ hr ih => exact ih.frame (hr.asked_eq ih) (by simp)
  | keep _ hp _ _ ih => exact ih.frame (by simp) (by simp)
  | begin _ hm ih =>
    obtain ⟨ha, hl⟩ := ih
    exact ⟨⟨_, by simp [ha], hm⟩, by simp [hl]⟩
  | nameless _ hm ih =>
    obtain ⟨ha, hl⟩ := ih
    exact ⟨⟨_, by simp [ha], hm⟩, rfl, by simp [failing, hl]⟩
  | fail _ ih =>
    obtain ⟨⟨module, ha, hm⟩, hl⟩ := ih
    exact ⟨⟨module, by simp [ha], hm⟩, by simp [hl]⟩
  | @ready j name a _ ih =>
    obtain ⟨⟨module, ha, hm⟩, hl⟩ := ih
    exact ⟨⟨module, by simp [ha], hm⟩, a, by simp [hl]⟩
  | @replay j name a command pending _ ih =>
    obtain ⟨⟨module, ha, hm⟩, hl⟩ := ih
    exact ⟨⟨module, by simp [ha], hm⟩, a, by simp [hl]⟩
  | serve _ ih => exact ih.frame (by simp) (by simp)
  | rest _ _ ih => exact ih.frame (by simp) (by simp)
  | next _ _ ih => exact ih.frame (by simp) (by simp)

theorem Conduct.outcome_waiting (h : Conduct settings j phase pending) (hp : phase.Waiting) :
    outcome settings j = none := by
  have ht := h.tells
  cases phase with
  | uninitialized => simp [outcome, ht.1]
  | loading name =>
    obtain ⟨⟨module, ha, hm⟩, hl⟩ := ht
    simp [outcome, ha, hm, hl]
  | _ => exact hp.elim

theorem Conduct.outcome_ready {name : String} {a : Adapter σ}
    (h : Conduct settings j (.ready name a) pending) : ∃ a, outcome settings j = some (.ok a) := by
  obtain ⟨⟨module, ha, hm⟩, a, hl⟩ := h.tells
  exact ⟨a, by simp [outcome, ha, hm, hl]⟩

theorem Conduct.outcome_running {name : String} (h : Conduct settings j (.running name) pending) :
    ∃ a, outcome settings j = some (.ok a) := by
  obtain ⟨⟨module, ha, hm⟩, a, hl⟩ := h.tells
  exact ⟨a, by simp [outcome, ha, hm, hl]⟩

/-- A load that has given an engine leaves a bridge that has one, or that has lent it to a call. -/
theorem Conduct.loaded_cases {a : Adapter σ} (h : Conduct settings j phase pending)
    (hl : loadResult j = some (.ok a)) :
    (∃ name b, phase = .ready name b) ∨ ∃ name, phase = .running name := by
  have ht := h.tells
  cases phase with
  | uninitialized => simp [ht.2] at hl
  | loading name => simp [ht.2] at hl
  | ready name b => exact .inl ⟨name, b, rfl⟩
  | running name => exact .inr ⟨name, rfl⟩
  | failed module e =>
    cases module with
    | none => simp [ht.2.2] at hl
    | some name => simp [ht.2] at hl

theorem Conduct.outcome_ok {a : Adapter σ} (h : Conduct settings j phase pending)
    (hl : loadResult j = some (.ok a)) : ∃ b, outcome settings j = some (.ok b) := by
  obtain ⟨name, b, rfl⟩ | ⟨name, rfl⟩ := h.loaded_cases hl
  · exact h.outcome_ready
  · exact h.outcome_running

theorem Conduct.outcome_failed {module : Option String} {e : LoadError}
    (h : Conduct settings j (.failed module e) pending) :
    outcome settings j = some (.error e) := by
  have ht := h.tells
  cases module with
  | none =>
    obtain ⟨⟨module, ha, hm⟩, rfl, hl⟩ := ht
    simp [outcome, ha, hm]
  | some name =>
    obtain ⟨⟨module, ha, hm⟩, hl⟩ := ht
    simp [outcome, ha, hm, hl]

theorem Conduct.passed (h : Conduct settings j phase pending) : phase.Passed j := by
  induction h with
  | start => exact ⟨rfl, rfl, rfl⟩
  | aside _ hr ih => exact ih.frame (by simp) (by simp) (by simp [hr.count_ready])
  | keep _ hp _ _ ih => exact ih.frame (by simp) (by simp) (by simp)
  | begin _ hm ih =>
    obtain ⟨hp, hr, hc⟩ := ih
    exact ⟨by simp [hp], by simp [hr], by simp [hc]⟩
  | nameless _ hm ih =>
    obtain ⟨hp, hr, hc⟩ := ih
    refine ⟨by simp [hp, failing], by simp [hr, failing], ?_⟩
    simp [hc, count_ready_failing]
  | fail _ ih =>
    obtain ⟨hp, hr, hc⟩ := ih
    refine ⟨by simp [hp, failing], by simp [hr, failing], ?_⟩
    simp [hc, count_ready_failing]
  | ready _ ih =>
    obtain ⟨hp, hr, hc⟩ := ih
    exact ⟨by simp [hp, arriving], by simp [hr, arriving], by simp [hc, arriving]⟩
  | replay _ ih =>
    obtain ⟨hp, hr, hc⟩ := ih
    exact ⟨by simp [hp, arriving], by simp [hr, arriving], by simp [hc, arriving]⟩
  | serve _ ih => exact ih.frame (by simp) (by simp) (by simp)
  | rest _ _ ih => exact ih.frame (by simp) (by simp) (by simp [count_ready_answerPosts])
  | next _ _ ih => exact ih.frame (by simp) (by simp) (by simp [count_ready_answerPosts])

theorem Conduct.ready_mem_posted {name : String} (h : Conduct settings j phase pending)
    (hp : phase = .running name) : .notice .ready ∈ posted j := by
  subst hp
  have hc := h.passed.2.2
  exact List.count_pos_iff.1 (by omega)

/-- The errors of a call are faults and timeouts. -/
theorem Adapter.kind_of_execute {a : Adapter σ} {context : Nat} {command : String}
    {e : EngineError} (h : (a.execute context command).answer = .error e) :
    (BridgeError.engine e).kind = .fault ∨ (BridgeError.engine e).kind = .timeout := by
  have habandon {b : Adapter σ} {millis : Nat} {e' : EngineError}
      (hb : (b.abandon millis e').answer = .error e) : e' = e := by
    unfold abandon at hb
    dsimp only at hb
    split at hb
    · exact Answer.error.inj hb
    · cases hb
  unfold execute at h
  split at h
  · cases h
    exact .inl rfl
  · dsimp only at h
    split at h
    · cases h
    · cases h
      exact .inl rfl
    · obtain rfl := habandon h
      exact .inl rfl
    · obtain rfl := habandon h
      exact .inr rfl

theorem may_answerPosts {a : Adapter σ} {context : Nat} {command : String}
    {result : Except EngineError String} {past : Journal σ}
    (hx : (a.execute context command).answer = .ofResult result)
    (hr : .notice .ready ∈ posted past) :
    ∀ m ∈ Bridge.answerPosts result, May settings past (.posted m) := by
  intro m hm
  cases result with
  | ok text =>
    unfold Bridge.answerPosts at hm
    dsimp only at hm
    split at hm
    · cases hm
    · obtain rfl := List.mem_singleton.1 hm
      exact hr
  | error e =>
    obtain rfl := List.mem_singleton.1 hm
    rcases Adapter.kind_of_execute hx with hk | hk <;> simpa [BridgeError.notice, hk, May] using hr

theorem orderly_aside {m : Inbound} {answers : List Outbound}
    (h : Conduct settings j phase pending) (hr : Aside settings phase pending m answers) :
    Orderly (May settings) (j ++ [Entry.took m]) (posts answers) := by
  apply orderly_posts
  intro n hn l
  have ho := hr.outcome_eq h.tells l
  cases hr with
  | status =>
    obtain rfl := List.mem_singleton.1 hn
    trivial
  | malformed =>
    obtain rfl := List.mem_singleton.1 hn
    trivial
  | again => cases hn
  | reject hp =>
    obtain rfl := List.mem_singleton.1 hn
    exact ho.trans (h.outcome_waiting hp)
  | overflow hp =>
    obtain rfl := List.mem_singleton.1 hn
    exact ho.trans (h.outcome_waiting hp)
  | deny =>
    obtain rfl := List.mem_singleton.1 hn
    exact ⟨_, ho.trans h.outcome_failed⟩

theorem Conduct.orderly (h : Conduct settings j phase pending) :
    Orderly (May settings) [] j := by
  induction h with
  | start => trivial
  | aside h hr ih => exact orderly_append.2 ⟨ih, trivial, orderly_aside h hr⟩
  | keep _ _ _ _ ih => exact orderly_append.2 ⟨ih, trivial, trivial⟩
  | begin _ _ ih => exact orderly_append.2 ⟨ih, trivial, trivial, trivial, trivial⟩
  | nameless h hm ih =>
    refine orderly_append.2 ⟨ih, trivial, trivial, orderly_failing ?_⟩
    simp [outcome, h.tells.1, hm]
  | fail h ih =>
    refine orderly_append.2 ⟨ih, trivial, orderly_failing ?_⟩
    obtain ⟨⟨module, ha, hm⟩, hl⟩ := h.tells
    simp [outcome, ha, hm, hl]
  | ready _ ih => exact orderly_append.2 ⟨ih, trivial, trivial, trivial, trivial⟩
  | replay _ ih =>
    rw [List.append_assoc]
    exact orderly_append.2 ⟨ih, trivial, trivial, trivial, trivial, trivial⟩
  | serve _ ih => exact orderly_append.2 ⟨ih, trivial, trivial, trivial⟩
  | rest h hx ih =>
    have hready := h.ready_mem_posted rfl
    refine orderly_append.2 ⟨ih, trivial, orderly_posts ?_⟩
    intro m hm l
    exact may_answerPosts hx (by simp_all) m hm
  | next h hx ih =>
    have hready := h.ready_mem_posted rfl
    rw [List.append_assoc]
    refine orderly_append.2 ⟨ih, trivial, orderly_append.2 ⟨orderly_posts ?_, trivial, trivial⟩⟩
    intro m hm l
    exact may_answerPosts hx (by simp_all) m hm

/-- A run whose load has failed is in the failed phase and has never been ready. -/
theorem Conduct.not_ready_of_failed {e : LoadError} (h : Conduct settings j phase pending)
    (ho : outcome settings j = some (.error e)) : .notice .ready ∉ posted j := by
  have hc : (posted j).count (.notice .ready) = 0 := by
    cases phase with
    | ready name a =>
      obtain ⟨a, ha⟩ := h.outcome_ready
      simp [ha] at ho
    | running name =>
      obtain ⟨a, ha⟩ := h.outcome_running
      simp [ha] at ho
    | _ => exact h.passed.2.2
  exact List.count_eq_zero.1 hc

/-- The life of a bridge: it changes its state at most twice, calls the loader at most once and is
ready at most once; no engine is heard before that, no command is put off once the load has an
outcome, and who is told that the load failed is never told that the bridge is ready, nor given an
output. -/
structure Journal.Coherent {σ : Type} (settings : BridgeSettings) (j : Journal σ) : Prop where
  changes : published j <+: [⟨.uninitialized, .loading⟩, ⟨.loading, .ready⟩] ∨
    published j <+: [⟨.uninitialized, .loading⟩, ⟨.loading, .failed⟩]
  one_load : (requested j).length ≤ 1
  one_ready : (posted j).count (.notice .ready) ≤ 1
  heard_once_ready : ∀ past m future, j = past ++ Entry.posted m :: future → m.FromEngine →
    .notice .ready ∈ posted past
  put_off_before_outcome : ∀ past kind detail future,
    j = past ++ Entry.posted (.notice (.error kind detail)) :: future →
    kind = .notReady ∨ kind = .queueFull → outcome settings past = none
  failed_for_good : ∀ detail, .notice (.error .load detail) ∈ posted j →
    .notice .ready ∉ posted j ∧ ∀ text, .response text ∉ posted j

/-- Whatever the loader, the interpreter and the host do, in whatever order. -/
theorem coherent_of_run {registry : Registry σ} {s : Session σ}
    (run : Session.Run (.create registry settings) j s) : j.Coherent settings := by
  have hconduct := run.faithful.conduct
  -- What is still to be done counts as done: all that is claimed passes to a shorter journal.
  generalize s.agenda.map (Effect.entry settings.contextId) = rest at hconduct
  obtain ⟨hp, hr, hc⟩ := hconduct.passed.bounds
  have hmay {past future : Journal σ} {x : Entry σ} (hj : j = past ++ x :: future) :
      May settings past x := by
    have ho := hconduct.orderly
    rw [hj, List.append_assoc, List.cons_append] at ho
    exact ho.at
  simp only [published_append, requested_append, posted_append, List.length_append,
    List.count_append] at hp hr hc
  refine ⟨?_, by omega, by omega, ?_, ?_, ?_⟩
  · exact hp.imp (List.prefix_append _ _).trans (List.prefix_append _ _).trans
  · intro past m future hj hm
    have h := hmay hj
    cases m with
    | response text => exact h
    | notice n =>
      cases n with
      | error kind detail => rcases hm with rfl | rfl <;> exact h
      | _ => exact hm.elim
  · intro past kind detail future hj hk
    have h := hmay hj
    rcases hk with rfl | rfl <;> exact h
  · intro detail hd
    obtain ⟨past, future, hj⟩ := List.append_of_mem (mem_posted.1 hd)
    obtain ⟨e, he⟩ := hmay hj
    have hfailed : outcome settings (j ++ rest) = some (.error e) := by
      rw [hj, List.append_assoc]
      exact outcome_append he _
    have hnever : .notice .ready ∉ posted j := by
      have h := hconduct.not_ready_of_failed hfailed
      simp only [posted_append, List.mem_append, not_or] at h
      exact h.1
    refine ⟨hnever, ?_⟩
    intro text ht
    obtain ⟨before, after, hj'⟩ := List.append_of_mem (mem_posted.1 ht)
    have hready : .notice .ready ∈ posted before := hmay hj'
    rw [hj'] at hnever
    simp [hready] at hnever

theorem coherent_rehearsal : ∃ s, Session.Run (.create Rehearsal.registry Rehearsal.settings)
    Rehearsal.journal s ∧ Rehearsal.journal.Coherent Rehearsal.settings := by
  obtain ⟨s, -, run, -⟩ := Rehearsal.run_journal
  exact ⟨s, run, coherent_of_run run⟩

end EngineBridge
