import EngineBridge.Proofs.Ledger

/-!
# The end of a bridge

A bridge ends when nobody sends any more and all that was sent has been taken. No command is lost if
by then a load has been asked for; the commands that wait for a load which nobody asks for are lost,
and those that a panic leaves behind.
-/

namespace EngineBridge

open Journal
open scoped List

/-- The commands that were to be executed and for which the engine was never called. -/
def Journal.leftover {σ : Type} (settings : BridgeSettings) (j : Journal σ) : List String :=
  match outcome settings j with
  | none => settings.kept (commands j)
  | some (.ok _) => (accepted settings j).drop (calls j).length
  | some (.error _) => []

/-- No command is lost: the queue is empty, and each command was passed to the engine once or has
been answered with one error, and nothing else is posted. -/
structure Session.Complete {σ : Type} (settings : BridgeSettings) (j : Journal σ) (s : Session σ) :
    Prop where
  queue_empty : s.bridge.pending = []
  executed_or_refused : ∀ text f, (.command text, f) ∈ ledger settings j →
    f = .executed text ∨ ∃ kind detail, f = .told (.notice (.error kind detail))
  called_once : calls j = (ledger settings j).executed.map (settings.contextId, ·)
  answered_once : posted j ~ ((ledger settings j).settle (results j)).flatMap Prod.snd

section Fates

variable {σ : Type} {settings : BridgeSettings} {past j : Journal σ}

theorem fate_of_mem_fates {m : Inbound} {f : Fate} (h : (m, f) ∈ fates settings past j) :
    ∃ before : Journal σ, f = fate settings before m := by
  induction j generalizing past with
  | nil => cases h
  | cons x j ih =>
    rcases List.mem_append.1 h with hx | hj
    · cases x with
      | took m' =>
        obtain ⟨rfl, rfl⟩ : m = m' ∧ f = fate settings past m' := by simpa using hx
        exact ⟨past, rfl⟩
      | _ => simp at hx
    · exact ih hj

/-- A command that is taken is executed, refused with an error, or waits. -/
theorem fate_command (past : Journal σ) (text : String) :
    fate settings past (.command text) = .executed text ∨
    (∃ kind detail, fate settings past (.command text) = .told (.notice (.error kind detail))) ∨
    fate settings past (.command text) = .waits text := by
  unfold fate
  rcases outcome settings past with - | e | a
  · cases settings.pendingPolicy with
    | reject => exact .inr (.inl ⟨_, _, rfl⟩)
    | queue =>
      dsimp only
      split
      · exact .inr (.inr rfl)
      · exact .inr (.inl ⟨_, _, rfl⟩)
  · exact .inr (.inl ⟨_, _, rfl⟩)
  · exact .inl rfl

/-- Of the commands of a ledger those that still wait are neither executed nor refused. -/
theorem mem_ledger_command {text : String} {f : Fate} (h : (.command text, f) ∈ ledger settings j) :
    f = .executed text ∨ (∃ kind detail, f = .told (.notice (.error kind detail))) ∨
      f = .waits text := by
  obtain ⟨⟨m, g⟩, hmem, hf⟩ := List.mem_map.1 h
  obtain ⟨rfl, rfl⟩ : m = .command text ∧ g.resolve (outcome settings j) = f := by simpa using hf
  obtain ⟨before, rfl⟩ := fate_of_mem_fates hmem
  rcases fate_command before text with hg | ⟨kind, detail, hg⟩ | hg
  · rw [hg]
    rcases outcome settings j with - | e | a <;> exact .inl rfl
  · rw [hg, Fate.resolve_told]
    exact .inr (.inl ⟨kind, detail, rfl⟩)
  · rw [hg]
    rcases outcome settings j with - | e | a
    · exact .inr (.inr rfl)
    · exact .inr (.inl ⟨.load, e.message, rfl⟩)
    · exact .inl rfl

end Fates

variable {σ : Type} [Interpreter σ] {settings : BridgeSettings} {j : Journal σ}
  {phase : Phase (Adapter σ)} {pending : List String}

theorem Conduct.running_eq {name : String} (h : Conduct settings j (.running name) pending) :
    ∃ done command, accepted settings j = done ++ command :: pending ∧
      calls j = (done ++ [command]).map (settings.contextId, ·) ∧
      (results j).length = done.length := by
  obtain ⟨first, done, a, command, -, haccepted, hafter, hengine⟩ := h.serves
  refine ⟨done, command, haccepted, ?_, ?_⟩
  · rw [← calls_ofEngine, hengine]
    simp [Adapter.calls_transcript_eq hafter]
  · rw [← results_ofEngine, hengine]
    simp [Adapter.length_results_transcript hafter]

/-- The queue holds what is left over. -/
theorem Conduct.pending_eq (h : Conduct settings j phase pending) :
    pending = leftover settings j := by
  have hs := h.serves
  cases phase with
  | uninitialized => simpa [leftover, h.outcome_waiting trivial] using hs.2
  | loading name => simpa [leftover, h.outcome_waiting trivial] using hs.2
  | failed module e => simpa [leftover, h.outcome_failed] using hs.2
  | ready name a =>
    obtain ⟨b, ho⟩ := h.outcome_ready
    obtain ⟨first, -, rfl, hafter, hengine⟩ := hs
    have hcalls : (calls j).length = (accepted settings j).length := by
      rw [← calls_ofEngine, hengine]
      simp [Adapter.calls_transcript_eq hafter]
    simp [leftover, ho, hcalls]
  | running name =>
    obtain ⟨b, ho⟩ := h.outcome_running
    obtain ⟨done, command, haccepted, hcalls, -⟩ := h.running_eq
    have hlength : (calls j).length = done.length + 1 := by simp [hcalls]
    simp [leftover, ho, haccepted, hlength, List.drop_append]

/-- With an empty queue nothing of the ledger is open but the result of the last call. -/
theorem Conduct.drained (h : Conduct settings j phase []) :
    (ledger settings j).waiting = [] ∧
    calls j = (ledger settings j).executed.map (settings.contextId, ·) ∧
    (results j).length ≤ (ledger settings j).executed.length := by
  cases phase with
  | running name =>
    obtain ⟨hw, he⟩ := h.owes
    obtain ⟨done, command, -, hcalls, hlength⟩ := h.running_eq
    have hx : (ledger settings j).executed = done ++ [command] := by
      simp [he, hcalls, Function.comp_def]
    rw [hx]
    refine ⟨hw, hcalls, ?_⟩
    simp [hlength]
  | _ =>
    obtain ⟨hcalls, hlength, -⟩ := h.executed_eq trivial
    exact ⟨h.waiting_eq trivial, hcalls, Nat.le_of_eq hlength⟩

/-- A bridge that has ended has lost no command if and only if none is left over. Without a panic
that is so if and only if it was ever asked to load, or had nothing to keep. -/
theorem complete_iff_of_run {registry : Registry σ} {s : Session σ}
    (run : Session.Run (.create registry settings) j s) (hs : s.stopped = true)
    (ho : s.outbound.receiving = true) :
    (s.Complete settings j ↔ leftover settings j = []) ∧
    s.bridge.pending = leftover settings j ∧
    (s.crash = none → (leftover settings j = [] ↔
      (asked j).isSome = true ∨ settings.kept (commands j) = [])) := by
  have hfaithful := run.faithful
  have hconduct := hfaithful.conduct_rest (hfaithful.ended hs ho).1
  have hpending := hconduct.pending_eq
  refine ⟨⟨?_, ?_⟩, hpending, ?_⟩
  · intro hcomplete
    exact hpending ▸ hcomplete.queue_empty
  · intro hleft
    have hempty : s.bridge.pending = [] := hpending.trans hleft
    rw [hempty] at hconduct
    obtain ⟨hwaiting, hcalls, hlength⟩ := hconduct.drained
    have hsettle := Ledger.settle_perm hlength
    refine ⟨hempty, ?_, hcalls, hconduct.posted_perm.trans hsettle.symm⟩
    intro text f hmem
    rcases mem_ledger_command hmem with hf | hf | rfl
    · exact .inl hf
    · exact .inr hf
    · have hwaits : text ∈ (ledger settings j).waiting :=
        List.mem_filterMap.2 ⟨_, hmem, rfl⟩
      rw [hwaiting] at hwaits
      cases hwaits
  · intro hc
    have hsettled := hfaithful.settled_ended hs ho hc
    have ht := hconduct.tells
    have hserves := hconduct.serves
    rw [← hpending]
    cases hphase : s.bridge.phase with
    | uninitialized =>
      rw [hphase] at ht hserves
      simp [ht.1, hserves.2]
    | ready name a =>
      rw [hphase] at ht hserves
      obtain ⟨first, -, hp, -⟩ := hserves
      simp [hp, ht.asked_isSome]
    | failed module e =>
      rw [hphase] at ht hserves
      simp [hserves.2, ht.asked_isSome]
    | loading name =>
      rw [hphase] at hsettled
      exact hsettled.elim
    | running name =>
      rw [hphase] at hsettled
      exact hsettled.elim

theorem complete_rehearsal : ∃ s, Session.Run (.create Rehearsal.registry Rehearsal.settings)
    Rehearsal.journal s ∧ s.stopped = true ∧ s.outbound.receiving = true ∧
    s.Complete Rehearsal.settings Rehearsal.journal := by
  obtain ⟨s, t, run, -, last, hs, ho, hc⟩ := Rehearsal.run_journal
  have whole := run.trans last
  rw [List.append_nil] at whole
  have hcomplete := complete_iff_of_run whole hs ho
  exact ⟨t, whole, hs, ho, hcomplete.1.2 ((hcomplete.2.2 hc).2 (.inl rfl))⟩

/-- A command is lost when nobody has asked for a load by the time when nobody sends any more: it is
neither executed nor answered. -/
theorem command_lost : ∃ s : Session Scripted, Session.Run (.create .empty {})
    [.took (.command "1 .")] s ∧
    s.stopped = true ∧ s.outbound.receiving = true ∧ s.crash = none ∧
    s.bridge.pending = ["1 ."] ∧ ¬ s.Complete {} [.took (.command "1 .")] := by
  have run := Session.Run.start (s := (.create .empty {} : Session Scripted))
  have run := run.step (.send (m := .command "1 .") rfl rfl rfl)
  have run := run.step (.take rfl rfl)
  have run := run.step .close
  have run := run.step (.exhaust rfl rfl rfl rfl)
  refine ⟨_, run, rfl, rfl, rfl, rfl, ?_⟩
  intro hcomplete
  have hempty : ["1 ."] = [] := hcomplete.queue_empty
  cases hempty

end EngineBridge
