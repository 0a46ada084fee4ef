import EngineBridge.Proofs.Timing

/-!
# What a status notice tells

A host that asks how far the bridge has come hears nothing that it could not have worked out for
itself, from the messages that were taken before its question and those that were posted before the
answer. No change of state, notice of it or end of the queue is ever parted from the others by a
message that is answered in between.
-/

namespace EngineBridge

open Journal

/-- The message says that a command was not kept. -/
def Outbound.isPutOff : Outbound → Bool
  | .notice (.error .notReady _) => true
  | .notice (.error .queueFull _) => true
  | _ => false

def Outbound.isStatus : Outbound → Bool
  | .notice (.status _ _ _) => true
  | _ => false

namespace Journal

variable {σ : Type}

/-- How many commands have been put off. -/
def putOff (j : Journal σ) : Nat := (posted j).countP Outbound.isPutOff

@[simp] theorem putOff_nil : putOff ([] : Journal σ) = 0 := rfl

@[simp] theorem putOff_append (j k : Journal σ) : putOff (j ++ k) = putOff j + putOff k := by
  simp [putOff]

@[simp] theorem putOff_took (m : Inbound) (j : Journal σ) : putOff (.took m :: j) = putOff j := by
  simp [putOff]

/-- A status notice agrees with what was taken and posted before the question. -/
structure Informed (settings : BridgeSettings) (before : Journal σ) (state : Lifecycle)
    (module : Option String) (waiting : Nat) : Prop where
  ready_iff : state = .ready ↔ .notice .ready ∈ posted before
  failed_iff : state = .failed ↔ ∃ detail, .notice (.error .load detail) ∈ posted before
  otherwise : state ≠ .ready → state ≠ .failed →
    state = if (asked before).isSome then .loading else .uninitialized
  none_waiting : state = .ready ∨ state = .failed → waiting = 0
  waiting_eq : state ≠ .ready → state ≠ .failed →
    waiting + putOff before = (commands before).length
  waiting_le : waiting ≤ settings.maxPending
  module_eq : module = (asked before).bind (·.or settings.defaultModule)

/-- A status notice answers the question in front of it. -/
def Reports (settings : BridgeSettings) (past : Journal σ) : Entry σ → Prop
  | .posted (.notice (.status state module waiting)) =>
    ∃ before : Journal σ, past = before ++ [.took (.control .status)] ∧
      before.Informed settings state module waiting
  | _ => True

end Journal

variable {σ : Type} {settings : BridgeSettings} {j : Journal σ} {phase : Phase (Adapter σ)}
  {pending : List String}

/-- Entries with no status notice among them. -/
theorem orderly_of_plain {k : Journal σ} (h : ∀ m ∈ posted k, m.isStatus = false)
    (past : Journal σ) : Orderly (Reports settings) past k := by
  induction k generalizing past with
  | nil => trivial
  | cons x k ih =>
    have hrest : ∀ m ∈ posted k, m.isStatus = false := by
      intro m hm
      exact h m (by simp [hm])
    refine ⟨?_, ih hrest _⟩
    cases x with
    | posted m =>
      have hm : m.isStatus = false := h m (by simp)
      cases m with
      | response text => trivial
      | notice n =>
        cases n with
        | status => cases hm
        | _ => trivial
    | _ => trivial

theorem mem_failing (e : LoadError) :
    .notice (.error .load e.message) ∈ posted (failing e pending : Journal σ) := by
  rw [posted_failing, List.mem_replicate]
  exact ⟨by omega, rfl⟩

theorem isStatus_failing (e : LoadError) :
    ∀ m ∈ posted (failing e pending : Journal σ), m.isStatus = false := by
  intro m hm
  rw [posted_failing] at hm
  rw [List.eq_of_mem_replicate hm]
  rfl

theorem isStatus_answerPosts (result : Except EngineError String) :
    ∀ m ∈ Bridge.answerPosts result, m.isStatus = false := by
  intro m hm
  rw [answerPosts_eq_report] at hm
  cases result with
  | error e =>
    obtain rfl := List.mem_singleton.1 hm
    rfl
  | ok text =>
    unfold report at hm
    dsimp only at hm
    split at hm
    · cases hm
    · obtain rfl := List.mem_singleton.1 hm
      rfl

theorem Aside.plain_or_status {m : Inbound} {answers : List Outbound}
    (h : Aside settings phase pending m answers) :
    (∀ n ∈ answers, n.isStatus = false) ∨
      m = .control .status ∧ phase.Taking ∧
        answers = [.notice (.status phase.lifecycle phase.module pending.length)] := by
  cases h with
  | status hp => exact .inr ⟨rfl, hp, rfl⟩
  | again => exact .inl (by simp)
  | _ =>
    refine .inl ?_
    intro n hn
    obtain rfl := List.mem_singleton.1 hn
    rfl

variable [Interpreter σ]

theorem Conduct.ready_iff (h : Conduct settings j phase pending) :
    phase.lifecycle = .ready ↔ .notice .ready ∈ posted j := by
  have hpassed := h.passed
  rw [← List.count_pos_iff]
  cases phase with
  | _ =>
    have hcount := hpassed.2.2
    simp [Phase.lifecycle, hcount]

/-- The host has been told that the load failed. -/
theorem Conduct.told_of_failed (h : Conduct settings j phase pending)
    (hp : phase.lifecycle = .failed) : ∃ detail, .notice (.error .load detail) ∈ posted j := by
  induction h with
  | aside _ _ ih =>
    obtain ⟨detail, hd⟩ := ih hp
    exact ⟨detail, by simp [hd]⟩
  | keep _ _ _ _ ih =>
    obtain ⟨detail, hd⟩ := ih hp
    exact ⟨detail, by simp [hd]⟩
  | nameless => exact ⟨LoadError.noModule.message, by simp [mem_failing]⟩
  | @fail j name pending e => exact ⟨e.message, by simp [mem_failing]⟩
  | _ => cases hp

theorem Conduct.failed_iff (h : Conduct settings j phase pending) :
    phase.lifecycle = .failed ↔ ∃ detail, .notice (.error .load detail) ∈ posted j := by
  refine ⟨h.told_of_failed, ?_⟩
  rintro ⟨detail, hd⟩
  obtain ⟨past, future, rfl⟩ := List.append_of_mem (mem_posted.1 hd)
  -- Only a failed load is told, and it stays failed.
  obtain ⟨e, he⟩ : ∃ e, outcome settings past = some (.error e) := h.orderly.at
  have ho := outcome_append he (.posted (.notice (.error .load detail)) :: future)
  cases phase with
  | failed module e => rfl
  | ready name a =>
    obtain ⟨b, hb⟩ := h.outcome_ready
    rw [hb] at ho
    cases ho
  | running name =>
    obtain ⟨b, hb⟩ := h.outcome_running
    rw [hb] at ho
    cases ho
  | uninitialized => simp [h.outcome_waiting trivial] at ho
  | loading name => simp [h.outcome_waiting trivial] at ho

/-- Before the load has ended each command waits or has been put off. -/
theorem Conduct.waiting_add_putOff (h : Conduct settings j phase pending) (hp : phase.Waiting) :
    pending.length + putOff j = (commands j).length := by
  induction h with
  | start => rfl
  | @aside j phase pending m answers h hr ih =>
    have hbefore := ih hp
    have hone : (posts answers : Journal σ).putOff = (m.command?.toList).length := by
      cases hr with
      | deny => exact hp.elim
      | _ => rfl
    cases m <;> simp [← hbefore, hone, Inbound.command?, Nat.add_assoc]
  | keep h hp' hq hn ih =>
    have hbefore := ih hp
    simp [← hbefore]
    omega
  | begin h hm ih =>
    have hbefore := ih trivial
    simpa [putOff] using hbefore
  | _ => exact hp.elim

theorem Conduct.none_waiting (h : Conduct settings j phase pending) (hp : phase.Taking)
    (hend : phase.lifecycle = .ready ∨ phase.lifecycle = .failed) : pending = [] := by
  by_contra hne
  obtain ⟨hwaiting, -⟩ := h.waiting_of_pending hp hne
  cases phase with
  | uninitialized => simp [Phase.lifecycle] at hend
  | loading name => simp [Phase.lifecycle] at hend
  | _ => exact hwaiting.elim

/-- A bridge that tells its state at rest tells the host what it has seen. -/
theorem Conduct.informed (h : Conduct settings j phase pending) (hp : phase.Taking) :
    j.Informed settings phase.lifecycle phase.module pending.length where
  ready_iff := h.ready_iff
  failed_iff := h.failed_iff
  otherwise := by
    intro hready hfailed
    have hnone := h.tells.uninitialized_iff
    cases phase with
    | uninitialized => simp [Phase.lifecycle, hnone.1 rfl]
    | loading name =>
      have hasked := h.tells.asked_isSome (by simp)
      simp [Phase.lifecycle, hasked]
    | ready name a => exact absurd rfl hready
    | running name => exact absurd rfl hready
    | failed module e => exact absurd rfl hfailed
  none_waiting := by
    intro hend
    rw [h.none_waiting hp hend]
    rfl
  waiting_eq := by
    intro hready hfailed
    apply h.waiting_add_putOff
    cases phase with
    | ready name a => exact absurd rfl hready
    | running name => exact absurd rfl hready
    | failed module e => exact absurd rfl hfailed
    | _ => trivial
  waiting_le := h.pending_le
  module_eq := h.tells.module_eq

theorem Conduct.reports (h : Conduct settings j phase pending) :
    Orderly (Reports settings) [] j := by
  induction h with
  | start => trivial
  | aside h hr ih =>
    refine orderly_append.2 ⟨ih, trivial, ?_⟩
    obtain hplain | ⟨rfl, hp, rfl⟩ := hr.plain_or_status
    · exact orderly_of_plain (by simpa using hplain) _
    · exact ⟨⟨_, rfl, h.informed hp⟩, trivial⟩
  | keep _ _ _ _ ih => exact orderly_append.2 ⟨ih, orderly_of_plain (by simp) _⟩
  | begin _ _ ih => exact orderly_append.2 ⟨ih, orderly_of_plain (by simp) _⟩
  | nameless _ _ ih =>
    exact orderly_append.2 ⟨ih, trivial, trivial, orderly_of_plain (isStatus_failing _) _⟩
  | fail _ ih =>
    exact orderly_append.2 ⟨ih, trivial, orderly_of_plain (isStatus_failing _) _⟩
  | ready _ ih =>
    exact orderly_append.2 ⟨ih, orderly_of_plain (by simp [arriving, Outbound.isStatus]) _⟩
  | replay _ ih =>
    rw [List.append_assoc]
    exact orderly_append.2 ⟨ih, orderly_of_plain (by simp [arriving, Outbound.isStatus]) _⟩
  | serve _ ih => exact orderly_append.2 ⟨ih, orderly_of_plain (by simp) _⟩
  | @rest j name a command result h hx ih =>
    have hanswers := isStatus_answerPosts result
    exact orderly_append.2 ⟨ih, orderly_of_plain (by simpa using hanswers) _⟩
  | @next j name a command result text pending h hx ih =>
    have hanswers := isStatus_answerPosts result
    rw [List.append_assoc]
    exact orderly_append.2 ⟨ih, orderly_of_plain (by simpa using hanswers) _⟩

/-- In every run, whatever order messages and the end of the load come in, each status notice stands
right after its question, and agrees with what came before. -/
theorem informed_of_run {registry : Registry σ} {s : Session σ} {past future : Journal σ}
    {state : Lifecycle} {module : Option String} {waiting : Nat}
    (run : Session.Run (.create registry settings)
      (past ++ .posted (.notice (.status state module waiting)) :: future) s) :
    ∃ before : Journal σ, past = before ++ [.took (.control .status)] ∧
      before.Informed settings state module waiting := by
  have hreports := run.faithful.conduct.reports
  rw [List.append_assoc, List.cons_append] at hreports
  exact hreports.at

namespace Rehearsal

/-- A question during the load, with one command in the queue, one put off, and a later request to
load that does not count. -/
def inquiry : Journal Scripted :=
  [.took (.command "1 ."), .took (.command "2 ."), .posted (BridgeError.queueFull 1).notice,
    .took (.control (.start none)), .published ⟨.uninitialized, .loading⟩, .requested "forth",
    .took (.control (.start (some "other"))), .took (.control .status)]

/-- The load ends, the waiting command prints something, and the question is put again. -/
def again : Journal Scripted :=
  [.loaded (.ok adapter), .published ⟨.loading, .ready⟩, .posted (.notice .ready),
    .called 0 adapter "1 .", .answered (.ok "1 "), .posted (.response "1 "),
    .took (.control .status)]

theorem run_inquiry : ∃ s, Session.Run (.create registry Rehearsal.settings)
    (inquiry ++ .posted (.notice (.status .loading (some "forth") 1)) ::
      (again ++ [.posted (.notice (.status .ready (some "forth") 0))])) s := by
  have run := Session.Run.start (s := .create registry Rehearsal.settings)
  have run := run.step (.send (m := .command "1 .") rfl rfl rfl)
  have run := run.step (.take rfl rfl)
  have run := run.step (.send (m := .command "2 .") rfl rfl rfl)
  have run := run.step (.take rfl rfl)
  have run := run.step (.post rfl rfl rfl rfl)
  have run := run.step (.send (m := .control (.start none)) rfl rfl rfl)
  have run := run.step (.take rfl rfl)
  have run := run.step (.publish rfl rfl)
  have run := run.step (.request rfl rfl rfl)
  have run := run.step (.send (m := .control (.start (some "other"))) rfl rfl rfl)
  have run := run.step (.take rfl rfl)
  have run := run.step (.send (m := .control .status) rfl rfl rfl)
  have run := run.step (.take rfl rfl)
  have run := run.step (.post rfl rfl rfl rfl)
  have run := run.step (k := [.loaded (.ok adapter)]) (.load rfl rfl rfl)
  have run := run.step (.publish rfl rfl)
  have run := run.step (.post rfl rfl rfl rfl)
  have run := run.step (.call rfl rfl)
  have run := run.step (k := [.answered (.ok "1 ")]) (.answer rfl rfl rfl rfl)
  have run := run.step (.post rfl rfl rfl rfl)
  have run := run.step (.send (m := .control .status) rfl rfl rfl)
  have run := run.step (.take rfl rfl)
  have run := run.step (.post rfl rfl rfl rfl)
  exact ⟨_, run⟩

end Rehearsal

theorem informed_rehearsal : ∃ s, ∃ before later : Journal Scripted,
    Session.Run (.create Rehearsal.registry Rehearsal.settings)
      (Rehearsal.inquiry ++ .posted (.notice (.status .loading (some "forth") 1)) ::
        (Rehearsal.again ++ [.posted (.notice (.status .ready (some "forth") 0))])) s ∧
    Rehearsal.inquiry = before ++ [.took (.control .status)] ∧
    before.Informed Rehearsal.settings .loading (some "forth") 1 ∧
    later.Informed Rehearsal.settings .ready (some "forth") 0 := by
  obtain ⟨s, run⟩ := Rehearsal.run_inquiry
  obtain ⟨before, hbefore, hloading⟩ := informed_of_run run
  have hlater := run
  rw [← List.cons_append, ← List.append_assoc] at hlater
  obtain ⟨later, -, hready⟩ := informed_of_run hlater
  exact ⟨s, before, later, run, hbefore, hloading, hready⟩

end EngineBridge
