import EngineBridge.Proofs.Fields

/-!
# When the load ends

A queue makes up for the time that a load takes. Two runs with the same messages, whose loads give
the same engine at different moments, ask that engine the same and tell the host the same of it, as
long as neither queue overflows.
-/

namespace EngineBridge

open Journal

variable {σ : Type} {settings : BridgeSettings} {j j' : Journal σ}

/-- The text of a command. -/
def Inbound.command? : Inbound → Option String
  | .command text => some text
  | _ => none

theorem filterMap_command?_taken (j : Journal σ) :
    (taken j).filterMap Inbound.command? = commands j := by
  induction j with
  | nil => rfl
  | cons x j ih =>
    cases x with
    | took m => cases m <;> simpa [List.filterMap_cons, Inbound.command?] using ih
    | _ => simpa using ih

/-- An answer to a question after the state, or to a frame that could not be decoded. -/
def Outbound.isAside : Outbound → Bool
  | .notice (.status _ _ _) | .notice (.error .malformed _) => true
  | _ => false

theorem filter_ofEngine_posted (j : Journal σ) :
    (posted j).filter Outbound.ofEngine = posted (ofEngine j) := by
  induction j with
  | nil => rfl
  | cons x j ih =>
    cases x with
    | posted m =>
      cases hm : m.ofEngine <;> simpa [ofEngine, List.filter_cons, Entry.ofEngine, hm] using ih
    | _ => simpa [ofEngine, List.filter_cons, Entry.ofEngine] using ih

/-- A queue that never overflows keeps every early command. -/
theorem accepted_eq_commands (hq : settings.pendingPolicy = .queue)
    (hn : early j ≤ settings.maxPending) : accepted settings j = commands j := by
  have hkept : settings.kept (commands (beforeLoad j)) = commands (beforeLoad j) := by
    simp only [BridgeSettings.kept, hq]
    exact List.take_of_length_le hn
  have hwhole : beforeLoad j ++ afterLoad j = j := List.takeWhile_append_dropWhile
  rw [accepted, hkept, ← commands_append, hwhole]

/-- Once the load has ended no command is early. -/
theorem early_append {result : Except LoadError (Adapter σ)} (h : loadResult j = some result)
    (k : Journal σ) : early (j ++ k) = early j := by
  obtain ⟨before, x, after, rfl, hx, hnone⟩ := List.findSome?_eq_some_iff.1 h
  have hpos : ∀ y ∈ before, y.loaded?.isNone = true :=
    fun y hy => Option.isNone_iff_eq_none.2 (hnone y hy)
  cases x with
  | loaded r =>
    rw [early, early, beforeLoad, beforeLoad, List.append_assoc,
      List.takeWhile_append_of_pos hpos, List.takeWhile_append_of_pos hpos]
    rfl
  | _ => cases hx

variable [Interpreter σ] {a : Adapter σ}

theorem Adapter.transcript_prefix (a : Adapter σ) (context : Nat) (texts more : List String) :
    a.transcript context texts <+: a.transcript context (texts ++ more) := by
  induction texts generalizing a with
  | nil => exact List.nil_prefix
  | cons text texts ih =>
    cases hx : (a.execute context text).answer.result? with
    | none => simp [transcript, hx]
    | some result =>
      simpa [transcript, hx, List.prefix_append_right_inj] using ih _

/-- Nothing comes after a call whose recovery panics. -/
theorem Adapter.transcript_crashed {context : Nat} {first : Adapter σ} {texts more : List String}
    {text : String} {p : Panic} (h : first.after? context texts = some a)
    (hx : (a.execute context text).answer = .crashed p) :
    first.transcript context (texts ++ text :: more) =
      first.transcript context texts ++ [.called context a text] := by
  simp [transcript_append h, transcript, hx, Answer.result?]

namespace Session

/-- All of these messages have been taken and the bridge is at rest, or has come to its end; or a
panic has ended it before that. -/
def Through (messages : List Inbound) (j : Journal σ) (s : Session σ) : Prop :=
  s.Resting ∧ taken j = messages ∨ s.crash.isSome = true ∧ taken j <+: messages

/-- What a load gives has been called for all that was accepted when a panic ends the bridge, or
for less: what comes after that makes no difference. -/
theorem Run.ofEngine_of_crash {registry : Registry σ} {s : Session σ} {p : Panic}
    (run : Run (create registry settings) j s) (hl : loadResult j = some (.ok a))
    (hc : s.crash = some p) (more : List String) :
    ofEngine j = Entry.posted (.notice .ready) ::
      a.transcript settings.contextId (accepted settings j ++ more) := by
  obtain ⟨-, ⟨name, hconduct⟩ | ⟨name, before, b, text, hconduct, rfl, hx⟩⟩ := run.crash_cases hc
  · simp [hconduct.tells.2] at hl
  · obtain ⟨first, done, hfirst, haccepted, hafter, hengine⟩ := hconduct.serves.last_call
    obtain rfl : first = a := by simpa [hl] using hfirst.symm
    rw [haccepted, List.append_assoc, List.cons_append, Adapter.transcript_crashed hafter hx,
      hengine]
    rfl

/-- The engine's part in a run that is through depends on nothing but the engine and the
commands. -/
theorem Run.ofEngine_of_through {registry : Registry σ} {s : Session σ} {messages : List Inbound}
    (run : Run (create registry settings) j s) (hq : settings.pendingPolicy = .queue)
    (hl : loadResult j = some (.ok a)) (hn : early j ≤ settings.maxPending)
    (ht : s.Through messages j) :
    ofEngine j = Entry.posted (.notice .ready) ::
      a.transcript settings.contextId (messages.filterMap Inbound.command?) := by
  have haccepted := accepted_eq_commands hq hn
  rcases ht with ⟨hr, rfl⟩ | ⟨hc, rest, rfl⟩
  · have hfaithful := run.faithful
    have hconduct := hfaithful.conduct_rest (hfaithful.agenda_resting hr)
    obtain ⟨-, hengine, -⟩ := (hconduct.transcript hl).2 (hfaithful.taking_resting hr)
    rw [hengine, haccepted, filterMap_command?_taken]
  · obtain ⟨p, hp⟩ := Option.isSome_iff_exists.1 hc
    have hengine := run.ofEngine_of_crash hl hp (rest.filterMap Inbound.command?)
    rw [hengine, haccepted, List.filterMap_append, filterMap_command?_taken]

/-- What there is of it in a run that goes on is a beginning of that. -/
theorem Run.ofEngine_prefix {registry : Registry σ} {s : Session σ} {messages : List Inbound}
    (run : Run (create registry settings) j s) (hq : settings.pendingPolicy = .queue)
    (hl : loadResult j = some (.ok a)) (hn : early j ≤ settings.maxPending)
    (ht : taken j <+: messages) :
    ofEngine j <+: Entry.posted (.notice .ready) ::
      a.transcript settings.contextId (messages.filterMap Inbound.command?) := by
  obtain ⟨rest, rfl⟩ := ht
  -- What is still to be done adds neither a command nor a load.
  have hconduct := run.faithful.conduct
  obtain ⟨hengine, -⟩ := hconduct.transcript (a := a) (by simp [hl])
  rw [accepted_frame (by simp) (by simp), accepted_eq_commands hq hn, ofEngine_append] at hengine
  rw [List.filterMap_append, filterMap_command?_taken]
  refine (List.prefix_append _ _).trans (hengine.trans ?_)
  exact List.cons_prefix_cons.2 ⟨rfl, a.transcript_prefix _ _ _⟩

/-- Of such a run the host hears nothing but what comes from the engine, and asides. -/
theorem Run.isAside_eq {registry : Registry σ} {s : Session σ}
    (run : Run (create registry settings) j s) (hq : settings.pendingPolicy = .queue)
    (hl : loadResult j = some (.ok a)) (hn : early j ≤ settings.maxPending) :
    ∀ m ∈ posted j, (!m.isAside) = m.ofEngine := by
  have hconduct := run.faithful.conduct
  generalize hrest : s.agenda.map (Effect.entry settings.contextId) = rest at hconduct
  have hearly : early (j ++ rest) = early j := early_append hl rest
  intro m hm
  have hexcused := hconduct.excused m (by simp [hm])
  rw [hearly] at hexcused
  cases m with
  | response text => rfl
  | notice n =>
    cases n with
    | ready => rfl
    | status state module waiting => rfl
    | error kind detail =>
      cases kind with
      | notReady =>
        have hreject : settings.pendingPolicy = .reject := hexcused
        simp [hq] at hreject
      | queueFull =>
        have hfull : settings.maxPending < early j := hexcused
        omega
      | load =>
        obtain ⟨past, future, hj⟩ := List.append_of_mem (mem_posted.1 hm)
        have horderly := hconduct.orderly
        rw [hj, List.append_assoc, List.cons_append] at horderly
        obtain ⟨e, he⟩ : ∃ e, outcome settings past = some (.error e) := horderly.at
        obtain ⟨b, hb⟩ := hconduct.outcome_ok (a := a) (by simp [hl])
        rw [hj, List.append_assoc, outcome_append he] at hb
        cases hb
      | _ => rfl

end Session

/-- The engine is asked the same and answers the same in both, in the same order, and the host hears
the same but for asides. -/
structure Journal.Alike (j j' : Journal σ) : Prop where
  engine : ofEngine j = ofEngine j'
  calls : calls j = calls j'
  results : results j = results j'
  posted : (posted j).filter (!·.isAside) = (posted j').filter (!·.isAside)

/-- Two runs with the same messages whose loads give the same engine, at whatever moments, are alike
once they are through. At any time before that, what the engine has been asked and has answered in
the one is a beginning of the other. -/
theorem alike_of_runs {registry registry' : Registry σ} {s s' : Session σ}
    {messages : List Inbound} (run : Session.Run (.create registry settings) j s)
    (run' : Session.Run (.create registry' settings) j' s')
    (hq : settings.pendingPolicy = .queue)
    (hl : loadResult j = some (.ok a)) (hl' : loadResult j' = some (.ok a))
    (hn : early j ≤ settings.maxPending) (hn' : early j' ≤ settings.maxPending)
    (ht : taken j <+: messages) (ht' : taken j' <+: messages) :
    (ofEngine j <+: ofEngine j' ∨ ofEngine j' <+: ofEngine j) ∧
    (s.Through messages j → s'.Through messages j' → j.Alike j') := by
  refine ⟨?_, ?_⟩
  · exact List.prefix_or_prefix_of_prefix (run.ofEngine_prefix hq hl hn ht)
      (run'.ofEngine_prefix hq hl' hn' ht')
  · intro hthrough hthrough'
    have hengine : ofEngine j = ofEngine j' := by
      rw [run.ofEngine_of_through hq hl hn hthrough, run'.ofEngine_of_through hq hl' hn' hthrough']
    refine ⟨hengine, ?_, ?_, ?_⟩
    · rw [← calls_ofEngine, hengine, calls_ofEngine]
    · rw [← results_ofEngine, hengine, results_ofEngine]
    · have haside := List.filter_congr (run.isAside_eq hq hl hn)
      have haside' := List.filter_congr (run'.isAside_eq hq hl' hn')
      rw [haside, haside', filter_ofEngine_posted, filter_ofEngine_posted, hengine]

namespace Rehearsal

def roomy : BridgeSettings := { Rehearsal.settings with maxPending := 2 }

def messages : List Inbound :=
  [.control (.start none), .command "1 .", .command "dup", .control .status]

/-- The load ends before the commands come. -/
def swift : Journal Scripted :=
  [.took (.control (.start none)), .published ⟨.uninitialized, .loading⟩, .requested "forth",
    .loaded (.ok adapter), .published ⟨.loading, .ready⟩, .posted (.notice .ready),
    .took (.command "1 ."), .called 0 adapter "1 .", .answered (.ok "1 "), .posted (.response "1 "),
    .took (.command "dup"), .called 0 (adapter.execute 0 "1 .").after "dup",
    .answered (.error unknown), .posted (BridgeError.engine unknown).notice,
    .took (.control .status), .posted (.notice (.status .ready (some "forth") 0))]

/-- All messages come before the load ends. -/
def slow : Journal Scripted :=
  [.took (.control (.start none)), .published ⟨.uninitialized, .loading⟩, .requested "forth",
    .took (.command "1 ."), .took (.command "dup"), .took (.control .status),
    .posted (.notice (.status .loading (some "forth") 2)),
    .loaded (.ok adapter), .published ⟨.loading, .ready⟩, .posted (.notice .ready),
    .called 0 adapter "1 .", .answered (.ok "1 "), .posted (.response "1 "),
    .called 0 (adapter.execute 0 "1 .").after "dup", .answered (.error unknown),
    .posted (BridgeError.engine unknown).notice]

theorem run_swift : ∃ s, Session.Run (.create registry roomy) swift s ∧ s.listens = true := by
  have run := Session.Run.start (s := .create registry roomy)
  have run := run.step (.send (m := .control (.start none)) rfl rfl rfl)
  have run := run.step (.take rfl rfl)
  have run := run.step (.publish rfl rfl)
  have run := run.step (.request rfl rfl rfl)
  have run := run.step (k := [.loaded (.ok adapter)]) (.load rfl rfl rfl)
  have run := run.step (.publish rfl rfl)
  have run := run.step (.post rfl rfl rfl rfl)
  have run := run.step (.send (m := .command "1 .") rfl rfl rfl)
  have run := run.step (.take rfl rfl)
  have run := run.step (.call rfl rfl)
  have run := run.step (k := [.answered (.ok "1 ")]) (.answer rfl rfl rfl rfl)
  have run := run.step (.post rfl rfl rfl rfl)
  have run := run.step (.send (m := .command "dup") rfl rfl rfl)
  have run := run.step (.take rfl rfl)
  have run := run.step (.call rfl rfl)
  have run := run.step (k := [.answered (.error unknown)]) (.answer rfl rfl rfl rfl)
  have run := run.step (.post rfl rfl rfl rfl)
  have run := run.step (.send (m := .control .status) rfl rfl rfl)
  have run := run.step (.take rfl rfl)
  have run := run.step (.post rfl rfl rfl rfl)
  exact ⟨_, run, rfl⟩

theorem run_slow : ∃ s, Session.Run (.create registry roomy) slow s ∧ s.listens = true := by
  have run := Session.Run.start (s := .create registry roomy)
  have run := run.step (.send (m := .control (.start none)) rfl rfl rfl)
  have run := run.step (.take rfl rfl)
  have run := run.step (.publish rfl rfl)
  have run := run.step (.request rfl rfl rfl)
  have run := run.step (.send (m := .command "1 .") rfl rfl rfl)
  have run := run.step (.take rfl rfl)
  have run := run.step (.send (m := .command "dup") rfl rfl rfl)
  have run := run.step (.take rfl rfl)
  have run := run.step (.send (m := .control .status) rfl rfl rfl)
  have run := run.step (.take rfl rfl)
  have run := run.step (.post rfl rfl rfl rfl)
  have run := run.step (k := [.loaded (.ok adapter)]) (.load rfl rfl rfl)
  have run := run.step (.publish rfl rfl)
  have run := run.step (.post rfl rfl rfl rfl)
  have run := run.step (.call rfl rfl)
  have run := run.step (k := [.answered (.ok "1 ")]) (.answer rfl rfl rfl rfl)
  have run := run.step (.post rfl rfl rfl rfl)
  have run := run.step (.call rfl rfl)
  have run := run.step (k := [.answered (.error unknown)]) (.answer rfl rfl rfl rfl)
  have run := run.step (.post rfl rfl rfl rfl)
  exact ⟨_, run, rfl⟩

end Rehearsal

/-- The queue has held nothing in the one and two commands in the other. -/
theorem alike_rehearsal : ∃ s s',
    Session.Run (.create Rehearsal.registry Rehearsal.roomy) Rehearsal.swift s ∧
    Session.Run (.create Rehearsal.registry Rehearsal.roomy) Rehearsal.slow s' ∧
    s.Through Rehearsal.messages Rehearsal.swift ∧ s'.Through Rehearsal.messages Rehearsal.slow ∧
    early Rehearsal.swift = 0 ∧ early Rehearsal.slow = 2 ∧
    Rehearsal.swift.Alike Rehearsal.slow := by
  obtain ⟨s, run, hl⟩ := Rehearsal.run_swift
  obtain ⟨s', run', hl'⟩ := Rehearsal.run_slow
  have hthrough : s.Through Rehearsal.messages Rehearsal.swift := .inl ⟨.inl hl, rfl⟩
  have hthrough' : s'.Through Rehearsal.messages Rehearsal.slow := .inl ⟨.inl hl', rfl⟩
  have halike := alike_of_runs run run' rfl rfl rfl (Nat.zero_le _) (Nat.le_refl 2)
    List.prefix_rfl List.prefix_rfl
  exact ⟨s, s', run, run', hthrough, hthrough', rfl, rfl, halike.2 hthrough hthrough'⟩

end EngineBridge
