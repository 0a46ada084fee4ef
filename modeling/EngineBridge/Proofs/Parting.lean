import EngineBridge.Proofs.Panics
import EngineBridge.Proofs.Replay

/-!
# A host that leaves

A bridge learns that its host has left when it next has something to say, which may be long after.
Up to then it does what it would have done for a host that stays. From then on it does nothing: the
post that fails is the last thing that it tries.
-/

namespace EngineBridge

open Journal

namespace Session

variable {σ : Type} [Interpreter σ] {settings : BridgeSettings} {s t u : Session σ}
  {j k : Journal σ}

/-- A message is about to be posted, and the host has left. -/
structure Losing (s : Session σ) : Prop where
  running : s.stopped = false
  left : s.outbound.receiving = false
  posting : ∃ m rest, s.agenda = .post m :: rest

/-- The post has failed, or is about to. -/
def Lost (s : Session σ) : Prop := s.stopped = true ∨ s.Losing

/-- The attempt is the next thing that the bridge does, and it is the end. -/
theorem Losing.advance_eq (h : s.Losing) : s.advance = some s.stop := by
  obtain ⟨m, rest, ha⟩ := h.posting
  simp [advance, perform, h.running, ha, h.left]

theorem receiving_of_take? {c rest : Channel Outbound} {m : Outbound}
    (h : c.take? = some (m, rest)) : rest.receiving = c.receiving := by
  obtain ⟨items, -, rfl⟩ := Channel.take?_eq_some h
  rfl

/-- What the surroundings do cannot keep it from that. -/
theorem Losing.step (h : s.Losing) (next : Step s k t) :
    k = [] ∧ t.events = s.events ∧ t.Lost := by
  obtain ⟨hs, hr, m, rest, ha⟩ := h
  have other {e : Effect (Adapter σ)} {rest' : List (Effect (Adapter σ))}
      (ha' : s.agenda = e :: rest') : e = .post m := (List.cons.inj (ha'.symm.trans ha)).1
  cases next with
  | send | close | elapse | linger => exact ⟨rfl, rfl, .inr ⟨hs, hr, m, rest, ha⟩⟩
  | collect hm => exact ⟨rfl, rfl, .inr ⟨hs, (receiving_of_take? hm).trans hr, m, rest, ha⟩⟩
  | disconnect => exact ⟨rfl, rfl, .inr ⟨hs, rfl, m, rest, ha⟩⟩
  | lose => exact ⟨rfl, rfl, .inl rfl⟩
  | post _ _ hr' => rw [hr] at hr'; cases hr'
  | publish _ ha' => cases other ha'
  | request _ ha' => cases other ha'
  | refuse _ ha' => cases other ha'
  | call _ ha' => cases other ha'
  | take hl => simp [listens, ha] at hl
  | load _ ha' | answer _ ha' | exhaust _ ha' | crashLoad _ ha' | crashCall _ ha' =>
    rw [ha] at ha'
    cases ha'

theorem Lost.step (h : s.Lost) (next : Step s k t) : k = [] ∧ t.events = s.events ∧ t.Lost := by
  obtain hs | hlosing := h
  · obtain ⟨hk, ht⟩ := next.silent hs
    refine ⟨hk, ?_, .inl ht⟩
    cases next with
    | publish h => rw [hs] at h; cases h
    | request h => rw [hs] at h; cases h
    | refuse h => rw [hs] at h; cases h
    | _ => rfl
  · exact hlosing.step next

theorem Lost.run (h : s.Lost) (run : Run s k t) : k = [] ∧ t.events = s.events ∧ t.Lost := by
  induction run with
  | start => exact ⟨rfl, rfl, h⟩
  | step _ next ih =>
    obtain ⟨rfl, hevents, ht⟩ := ih
    obtain ⟨rfl, hevents', hu⟩ := ht.step next
    exact ⟨rfl, hevents'.trans hevents, hu⟩

/-- The same session, with a host that is still there. -/
inductive Beside (s : Session σ) : Session σ → Prop
  | alike {o} (ho : o.receiving = true) (heq : s.outbound.receiving = true → o = s.outbound) :
      Beside s { s with outbound := o }
  /-- The one has lost its host, and the other is about to post. -/
  | lost {u m rest} (hs : s.stopped = true) (ho : u.outbound.receiving = true)
      (hu : u.stopped = false) (ha : u.agenda = .post m :: rest) (hagenda : s.agenda = u.agenda)
      (hbridge : s.bridge = u.bridge) (hevents : s.events = u.events) : Beside s u

private theorem closed {o c : Channel Outbound} (heq : c.receiving = true → o = c) :
    c.closeSender.receiving = true → o.closeSender = c.closeSender :=
  fun hr => congrArg Channel.closeSender (heq hr)

/-- Whatever a session does, it can do with a host that is still there. -/
theorem Beside.step (h : Beside s u) (next : Step s k t) : ∃ v, Run u k v ∧ Beside t v := by
  cases h with
  | lost hs ho hu ha hagenda hbridge hevents =>
    obtain ⟨rfl, ht⟩ := next.silent hs
    obtain ⟨hagenda', hbridge', hevents'⟩ :
        t.agenda = s.agenda ∧ t.bridge = s.bridge ∧ t.events = s.events := by
      cases next with
      | send | collect | close | disconnect | elapse | linger => exact ⟨rfl, rfl, rfl⟩
      | lose | exhaust | crashLoad | crashCall => exact ⟨rfl, rfl, rfl⟩
    exact ⟨u, .start, .lost ht ho hu ha (hagenda'.trans hagenda) (hbridge'.trans hbridge)
      (hevents'.trans hevents)⟩
  | @alike o ho heq =>
    cases next with
    | send hs hr hc => exact ⟨_, .single (.send hs hr hc), .alike ho heq⟩
    | @collect m rest hm =>
      cases hr : s.outbound.receiving with
      | true =>
        obtain rfl := heq hr
        have hrest := (receiving_of_take? hm).trans hr
        exact ⟨_, .single (.collect hm), .alike hrest fun _ => rfl⟩
      | false =>
        have hrest := (receiving_of_take? hm).trans hr
        exact ⟨_, .start, .alike (s := { s with outbound := rest }) ho (by simp [hrest])⟩
    | close => exact ⟨_, .single .close, .alike ho heq⟩
    | disconnect =>
      exact ⟨_, .start, .alike (s := { s with outbound := s.outbound.closeReceiver }) ho
        (by simp [Channel.closeReceiver])⟩
    | elapse => exact ⟨_, .single .elapse, .alike ho heq⟩
    | linger hj => exact ⟨_, .single (.linger hj), .alike ho heq⟩
    | publish hs ha => exact ⟨_, .single (.publish hs ha), .alike ho heq⟩
    | @post m rest hs ha hr hc =>
      obtain rfl := heq hr
      exact ⟨_, .single (.post hs ha hr hc), .alike hr fun _ => rfl⟩
    | lose hs ha hr => exact ⟨_, .start, .lost rfl ho hs ha rfl rfl rfl⟩
    | request hs ha hx =>
      refine ⟨_, .single (.request hs ha hx), ?_⟩
      simp only [beginLoad, hx]
      exact .alike ho heq
    | refuse hs ha hx =>
      refine ⟨_, .single (.refuse hs ha hx), ?_⟩
      simp only [beginLoad, hx]
      exact .alike ho heq
    | call hs ha => exact ⟨_, .single (.call hs ha), .alike ho heq⟩
    | take hl hm => exact ⟨_, .single (.take hl hm), .alike ho heq⟩
    | load hs ha hj => exact ⟨_, .single (.load hs ha hj), .alike ho heq⟩
    | answer hs ha hj hx => exact ⟨_, .single (.answer hs ha hj hx), .alike ho heq⟩
    | exhaust hs ha hj hi => exact ⟨_, .single (.exhaust hs ha hj hi), .alike ho (closed heq)⟩
    | crashLoad hs ha hj => exact ⟨_, .single (.crashLoad hs ha hj), .alike ho (closed heq)⟩
    | crashCall hs ha hj hx => exact ⟨_, .single (.crashCall hs ha hj hx), .alike ho (closed heq)⟩

theorem Beside.run (h : Beside s u) (run : Run s k t) : ∃ v, Run u k v ∧ Beside t v := by
  induction run with
  | start => exact ⟨u, .start, h⟩
  | step _ next ih =>
    obtain ⟨v, first, hv⟩ := ih
    obtain ⟨w, second, hw⟩ := hv.step next
    exact ⟨w, first.trans second, hw⟩

omit [Interpreter σ] in
theorem Beside.frame (h : Beside s u) : u.outbound.receiving = true ∧ u.bridge = s.bridge ∧
    u.agenda = s.agenda ∧ u.events = s.events := by
  cases h with
  | alike ho => exact ⟨ho, rfl, rfl, rfl⟩
  | lost _ ho _ _ hagenda hbridge hevents => exact ⟨ho, hbridge.symm, hagenda.symm, hevents.symm⟩

/-- What a run has come to whose host may have left. -/
structure Parted (registry : Registry σ) (settings : BridgeSettings) (j : Journal σ)
    (s : Session σ) : Prop where
  /-- The first post that fails ends the bridge. -/
  ends : s.Losing → s.advance = some s.stop ∧ s.stop.stopped = true
  /-- No time, message or load comes in between. -/
  nothing_before : s.Losing → ∀ k t, Run s k t → k = [] ∧ t.events = s.events
  nothing_after : s.Losing → ∀ k t, Run s.stop k t →
    k = [] ∧ t.events = s.events ∧ t.stopped = true
  /-- With a host that stays, the bridge has the same to do. -/
  as_connected : ∃ u, Run (create registry settings) j u ∧ u.outbound.receiving = true ∧
    u.bridge = s.bridge ∧ u.agenda = s.agenda ∧ u.events = s.events
  /-- A run with a host that stays, and with the same messages and the same end of the load in the
  same order, begins in the same way. -/
  begins : ∀ registry' j' s', Run (create registry' settings) j' s' →
    s'.listens = true ∨ s'.stopped = true → s'.outbound.receiving = true →
    inputs j <+: inputs j' →
    j <+: j' ∧ calls j <+: calls j' ∧ published j <+: published j' ∧ posted j <+: posted j'

theorem parted_of_run {registry : Registry σ} (run : Run (create registry settings) j s) :
    s.Parted registry settings j where
  ends := fun h => ⟨h.advance_eq, rfl⟩
  nothing_before := by
    intro h k t later
    obtain ⟨hk, hevents, -⟩ := Lost.run (.inr h) later
    exact ⟨hk, hevents⟩
  nothing_after := by
    intro h k t later
    have hstopped : s.stop.Lost := .inl rfl
    obtain ⟨hk, hevents, -⟩ := hstopped.run later
    exact ⟨hk, hevents, (later.silent rfl).2⟩
  as_connected := by
    have hcreate : Beside (create registry settings) (create registry settings) :=
      .alike (o := (create registry settings).outbound) rfl fun _ => rfl
    obtain ⟨u, twin, hu⟩ := hcreate.run run
    exact ⟨u, twin, hu.frame⟩
  begins := by
    intro registry' j' s' run' hrest hr hi
    obtain ⟨hfollows, -⟩ := run.replay
    obtain ⟨hfollows', hs'⟩ := run'.replay
    have hquiet := run'.quiet (hrest.imp_right fun hs => ⟨hs, hr⟩)
    rw [hs'] at hquiet
    have hbegins := hfollows.prefix_of_quiet hfollows' hquiet hi
    exact ⟨hbegins, hbegins.filterMap _, hbegins.filterMap _, hbegins.filterMap _⟩

end Session

namespace Rehearsal

/-- The host leaves while the load is under way, and is missed once an engine is there. -/
def parting : Journal Scripted :=
  [.took (.command "1 ."), .took (.command "2 ."), .posted (BridgeError.queueFull 1).notice,
    .took (.control (.start none)), .published ⟨.uninitialized, .loading⟩, .requested "forth",
    .loaded (.ok adapter), .published ⟨.loading, .ready⟩]

theorem run_parting : ∃ s, Session.Run (.create registry settings) parting s ∧ s.Losing := by
  have run := Session.Run.start (s := .create registry settings)
  have run := run.step (.send (m := .command "1 .") rfl rfl rfl)
  have run := run.step (.take rfl rfl)
  have run := run.step (.send (m := .command "2 .") rfl rfl rfl)
  have run := run.step (.take rfl rfl)
  have run := run.step (.post rfl rfl rfl rfl)
  have run := run.step (.send (m := .control (.start none)) rfl rfl rfl)
  have run := run.step (.take rfl rfl)
  have run := run.step (.publish rfl rfl)
  have run := run.step (.request rfl rfl rfl)
  have run := run.step .disconnect
  have run := run.step (k := [.loaded (.ok adapter)]) (.load rfl rfl rfl)
  have run := run.step (.publish rfl rfl)
  exact ⟨_, run, rfl, rfl, .notice .ready, [.call adapter "1 ."], rfl⟩

end Rehearsal

theorem parted_rehearsal : ∃ s,
    Session.Run (.create Rehearsal.registry Rehearsal.settings) Rehearsal.parting s ∧ s.Losing ∧
    s.Parted Rehearsal.registry Rehearsal.settings Rehearsal.parting ∧
    Rehearsal.parting <+: Rehearsal.journal := by
  obtain ⟨s, run, hlosing⟩ := Rehearsal.run_parting
  obtain ⟨_, t, stays, -, more, hs, hr, -⟩ := Rehearsal.run_journal
  have hparted := Session.parted_of_run run
  have hinputs : inputs Rehearsal.parting <+: inputs (Rehearsal.journal ++ []) :=
    ⟨[.took (.command "dup")], rfl⟩
  obtain ⟨hbegins, -⟩ := hparted.begins _ _ t (stays.trans more) (.inr hs) hr hinputs
  exact ⟨s, run, hlosing, hparted, by simpa using hbegins⟩

end EngineBridge
