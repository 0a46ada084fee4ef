import EngineBridge.Proofs.Ending

/-!
# The end of every service

The schedule gives each task its turn. Every turn spends something of what is left to be done, and
the reader and the bridge are woken whenever there is something for them to do, so that a service
that has not come to its end goes on, and comes to its end within the steps that it is given.
-/

namespace EngineBridge

open Journal

variable {σ : Type}

/-- What is paid in looks. -/
def Registry.looks (r : Registry σ) : Tariff where
  brief := 0
  command := 0
  load := r.rounds
  brief_le := Nat.le_refl 0

@[simp] theorem Registry.looks_brief (r : Registry σ) : r.looks.brief = 0 := rfl

@[simp] theorem Registry.looks_load (r : Registry σ) : r.looks.load = r.rounds := rfl

theorem Registry.looks_message (r : Registry σ) (m : Inbound) : r.looks.message m = 0 := by
  cases m <;> rfl

@[simp] theorem Registry.looks_messages (r : Registry σ) (l : List Inbound) :
    r.looks.messages l = 0 := by
  induction l with
  | nil => rfl
  | cons m l ih => rw [Tariff.messages_cons, ih, r.looks_message]

def Job.looks : Job σ → Nat
  | .loading _ p _ _ => p.rounds
  | _ => 0

namespace Session

variable {s t : Session σ}

/-- How often a load can still be looked at and go on. -/
def looks (s : Session σ) : Nat :=
  if s.stopped then 0 else s.registry.looks.cost s.bridge s.agenda + s.job.looks

theorem looks_eq (hs : s.stopped = false) :
    s.looks = s.registry.looks.cost s.bridge s.agenda + s.job.looks := by
  simp [looks, hs]

private theorem looks_feed (ha : s.agenda = []) (e : BridgeEvent (Adapter σ)) :
    (s.feed e).looks ≤
      s.registry.looks.cost (s.bridge.step e).1 (s.bridge.step e).2 + s.job.looks := by
  unfold looks
  split
  · exact Nat.zero_le _
  · simp [feed, ha]

variable [Interpreter σ]

theorem Goes.looks_le (next : s.Goes t) (hs : s.stopped = false) : t.looks ≤ s.looks := by
  rw [looks_eq hs]
  cases next with
  | publish ha | post ha =>
    rw [looks_eq (by exact hs)]
    simp only [Tariff.cost, ha, Tariff.agenda_cons]
    omega
  | @request name x ha hx =>
    have hrounds := Registry.le_rounds hx
    have hjob : (Progress.start x.module.starting).rounds = x.module.starting.acts.length + 1 := rfl
    simp only [beginLoad, hx]
    rw [looks_eq (by exact hs)]
    simp only [Tariff.cost, ha, Tariff.agenda_cons, Tariff.agenda_nil, Tariff.effect,
      Registry.looks_load, Job.looks, hjob]
    omega
  | @refuse name ha hx =>
    have hcost := Tariff.cost_loaded (w := s.registry.looks) (b := s.bridge)
      (.error (.unknownModule name))
    refine Nat.le_trans (looks_feed rfl _) ?_
    simp only [Tariff.cost, Registry.looks_brief] at hcost ⊢
    omega
  | @call a text ha =>
    rw [looks_eq (by exact hs)]
    simp only [Tariff.cost, ha, Tariff.agenda_cons, Tariff.agenda_nil, beginCall, Job.looks]
    omega
  | @take m rest ha hj hi =>
    have hcost := Tariff.cost_receive (w := s.registry.looks) (b := s.bridge) m
    rw [Registry.looks_message] at hcost
    refine Nat.le_trans (looks_feed (by exact ha) _) ?_
    simp only [Tariff.cost, ha, Tariff.agenda_nil, Bridge.step] at hcost ⊢
    omega
  | @interrupt x p deadline m rest ha hj hi =>
    have hcost := Tariff.cost_receive (w := s.registry.looks) (b := s.bridge) m
    rw [Registry.looks_message] at hcost
    refine Nat.le_trans (looks_feed (by exact ha) _) ?_
    simp only [Tariff.cost, ha, hj, Tariff.agenda_nil, Bridge.step, Job.looks] at hcost ⊢
    omega
  | @wait x p p' deadline releases ha hj hd hl hp =>
    have hless : p'.rounds ≤ p.rounds := by
      obtain ⟨rfl, -⟩ | hlt := hp
      · exact Nat.le_refl _
      · exact Nat.le_of_lt hlt
    rw [looks_eq (by exact hs), hj]
    simp only [Job.looks]
    omega
  | @loaded x p deadline releases result ha hj hr =>
    have hcost := Tariff.cost_loaded (w := s.registry.looks) (b := s.bridge) result
    refine Nat.le_trans (looks_feed (by exact ha) _) ?_
    simp only [Tariff.cost, ha, Tariff.agenda_nil, Registry.looks_brief, Job.looks] at hcost ⊢
    omega
  | @answered since x result ha hj =>
    have hcost := Tariff.cost_answered (w := s.registry.looks) (b := s.bridge) x.after result
    refine Nat.le_trans (looks_feed (by exact ha) _) ?_
    simp only [Tariff.cost, ha, Tariff.agenda_nil, Registry.looks_brief, Job.looks] at hcost ⊢
    omega
  | @stop releases crash ha =>
    have hstopped : ({ s.stop with releases, crash } : Session σ).looks = 0 := by
      simp [looks, Session.stop]
    omega

/-- A load that lets others run has been looked at, and gone on. -/
theorem Goes.looks_lt (next : s.Goes t) (hs : s.stopped = false)
    (hl : ∀ x p deadline, s.job = .loading x p deadline true → s.agenda = [])
    (hy : t.yields = true) : t.looks < s.looks := by
  obtain ⟨hstopped, x, p, deadline, hj, hturn⟩ := loading_of_yields hy
  cases next with
  | publish ha | post ha => simp [hl x p deadline hj] at ha
  | @request name y ha hx => simp [beginLoad, hx] at hj
  | refuse ha hx =>
    have hsame : s.job = .loading x p deadline true := by simpa [feed] using hj
    simp [hl x p deadline hsame] at ha
  | call ha => cases hj
  | take ha hj' hi => simp [feed, hj'] at hj
  | interrupt ha hj' hi => simp [feed] at hj
  | @wait x' q q' deadline' releases ha hj' hd hlater hp =>
    obtain ⟨rfl, rfl, rfl, -⟩ : x' = x ∧ q' = p ∧ deadline' = deadline ∧ true = true := by
      simpa using hj
    rw [looks_eq hs, looks_eq (by exact hs), hj']
    obtain ⟨rfl, hblocked⟩ | hlt := hp
    · simp [Progress.blocked, hturn] at hblocked
    · simp only [Job.looks]
      omega
  | loaded ha hj' hr => simp [feed] at hj
  | answered ha hj' => simp [feed] at hj
  | stop ha => cases hstopped

/-- Why a bridge cannot go on: it has ended, there is no room for what it has to post, or there is
nothing to do. -/
def Rests (s : Session σ) : Prop :=
  s.stopped = true ∨
    match s.agenda, s.job with
    | .post _ :: _, _ => s.outbound.receiving = true ∧ s.outbound.hasRoom = false
    | _ :: _, _ => False
    | [], .none => s.inbound.items = [] ∧ s.inbound.sending = true
    | [], .loading _ _ _ seen => seen = true ∧ s.inbound.items = []
    | [], .calling since x => s.now < since + x.millis

theorem advance_eq_none_iff (s : Session σ) : s.advance = none ↔ s.Rests := by
  unfold advance Rests
  cases hs : s.stopped with
  | true => simp
  | false =>
    cases ha : s.agenda with
    | cons e rest =>
      cases e with
      | post m => by_cases hr : s.outbound.receiving <;> simp [perform, hr]
      | _ => simp [perform]
    | nil =>
      have htake (u : Session σ) : u.takeMessage = none ↔ u.inbound.items = [] := by
        refine ⟨takeMessage_eq_none, fun hitems => ?_⟩
        simp [takeMessage, Channel.take?, hitems]
      cases hj : s.job with
      | none =>
        by_cases hi : s.inbound.items = [] <;> cases hc : s.inbound.sending <;>
          simp [Channel.exhausted, htake, hi, hc]
      | loading x p deadline seen =>
        cases seen with
        | false => simp
        | true => simp [htake, wake, hj]
      | calling since x => simp

omit [Interpreter σ] in
/-- A load that has not been looked at is not looked at once more. -/
theorem wake_eq_self (h : ∀ x p deadline, s.job ≠ .loading x p deadline true) : s.wake = s := by
  unfold wake
  split
  next x p deadline seen hj =>
    cases seen with
    | true => exact absurd hj (h x p deadline)
    | false => rw [← hj]
  · rfl

omit [Interpreter σ] in
/-- One look more is all that a turn of the bridge can cost. -/
theorem steps_wake_le (s : Session σ) : s.wake.steps ≤ s.steps + 1 := by
  unfold wake
  split
  next x p deadline seen hj =>
    by_cases hs : s.stopped = true
    · simp [steps, hs]
    · have hs : s.stopped = false := by simpa using hs
      have hunseen : (Job.loading x p deadline false).steps s.now s.releases ≤ 2 * p.rounds + 5 :=
        Job.steps_unseen_le
      have hjob : (Job.loading x p deadline false).steps s.now s.releases ≤
          (Job.loading x p deadline seen).steps s.now s.releases + 1 := by
        cases seen with
        | false => exact Nat.le_succ _
        | true =>
          rw [Job.steps_seen]
          omega
      rw [steps_eq hs, steps_eq (by exact hs), hj]
      simp only [Tariff.session]
      omega
  · exact Nat.le_succ _

/-- A load that has been looked at waits for what is still to come, and the bridge has nothing else
to do. -/
def Looked (s : Session σ) : Prop :=
  ∀ x p deadline, s.job = .loading x p deadline true →
    s.agenda = [] ∧ s.now < deadline ∧ p.Later s.now

theorem Goes.looked (next : s.Goes t) (h : s.Looked) : t.Looked := by
  intro x p deadline hj
  have hawake := next.awake (fun x p deadline hs => (h x p deadline hs).2) x p deadline hj
  refine ⟨?_, hawake⟩
  cases next with
  | publish ha | post ha => simp [(h x p deadline hj).1] at ha
  | @request name y ha hx => simp [beginLoad, hx] at hj
  | refuse ha hx =>
    have hsame : s.job = .loading x p deadline true := by simpa [feed] using hj
    simp [(h x p deadline hsame).1] at ha
  | call ha => cases hj
  | take ha hj' hi => simp [feed, hj'] at hj
  | interrupt ha hj' hi => simp [feed] at hj
  | wait ha hj' hd hl hp => exact ha
  | loaded ha hj' hr => simp [feed] at hj
  | answered ha hj' => simp [feed] at hj
  | stop ha => exact ha

omit [Interpreter σ] in
theorem looked_wake (s : Session σ) : s.wake.Looked :=
  fun _ _ _ hj => absurd hj (awake_wake s)

omit [Interpreter σ] in
/-- The timer of a bridge that waits has not gone off. -/
theorem Rests.timer (h : s.Rests) (hl : s.Looked) {alarm : Nat} (ht : s.timer = some alarm) :
    s.stopped = false ∧ s.now < alarm ∧
      ((∃ x p deadline, s.job = .loading x p deadline true ∧
          (alarm = deadline ∨ p.wakes = some alarm)) ∨
        ∃ since x, s.job = .calling since x ∧ alarm = since + x.millis ∧ s.now < alarm) := by
  unfold Session.timer at ht
  split at ht
  · cases ht
  next hidle =>
    obtain ⟨hs, ha⟩ : s.stopped = false ∧ s.agenda = [] := by simpa using hidle
    refine ⟨hs, ?_⟩
    cases hj : s.job with
    | none => simp [hj] at ht
    | loading x p deadline seen =>
      obtain ⟨rfl, -⟩ : seen = true ∧ s.inbound.items = [] := by
        simpa [Rests, hs, ha, hj] using h
      obtain ⟨-, hdeadline, hlater⟩ := hl x p deadline hj
      simp only [hj, Option.some.injEq] at ht
      cases hw : p.wakes with
      | none =>
        obtain rfl : deadline = alarm := by simpa [hw] using ht
        exact ⟨hdeadline, .inl ⟨x, p, deadline, rfl, .inl rfl⟩⟩
      | some t =>
        have hlt := hlater t hw
        obtain rfl : min t deadline = alarm := by simpa [hw] using ht
        refine ⟨by omega, .inl ⟨x, p, deadline, rfl, ?_⟩⟩
        by_cases hle : deadline ≤ t
        · exact .inl (Nat.min_eq_right hle)
        · exact .inr (hw.trans (by rw [Nat.min_eq_left (Nat.le_of_not_le hle)]))
    | calling since x =>
      have hwaits : s.now < since + x.millis := by simpa [Rests, hs, ha, hj] using h
      obtain rfl : since + x.millis = alarm := by simpa [hj] using ht
      exact ⟨hwaits, .inr ⟨since, x, rfl, rfl, hwaits⟩⟩

omit [Interpreter σ] in
/-- Until its timer goes off a bridge that waits has still to wait. -/
theorem Rests.wait (h : s.Rests) (hl : s.Looked) (hs : s.stopped = false) {t : Nat}
    (hlater : ∀ alarm ∈ s.timer, t < alarm) :
    ({ s with now := t } : Session σ).Rests ∧ ({ s with now := t } : Session σ).Looked := by
  constructor
  · refine .inr ?_
    have hrests := h.resolve_left (by simp [hs])
    cases ha : s.agenda with
    | cons e rest => cases e <;> simp_all
    | nil =>
      cases hj : s.job with
      | none => simpa [ha, hj] using hrests
      | loading x p deadline seen => simpa [ha, hj] using hrests
      | calling since x => exact hlater _ (by simp [Session.timer, hs, ha, hj])
  · intro x p deadline hj
    obtain ⟨ha, -, -⟩ := hl x p deadline hj
    have hj : s.job = .loading x p deadline true := hj
    have hbefore := hlater _ (by simp only [Session.timer, hs, ha, hj]; rfl)
    refine ⟨ha, show t < deadline from ?_, fun alarm hw => ?_⟩
    · split at hbefore <;> omega
    · rw [hw] at hbefore
      dsimp only at hbefore ⊢
      omega

omit [Interpreter σ] in
/-- A bridge that does not wait for messages is not moved by one. -/
theorem Rests.of_deaf (h : s.Rests) (hl : s.listens = false) (inbound : Channel Inbound) :
    ({ s with inbound } : Session σ).Rests := by
  unfold Rests at h ⊢
  unfold listens at hl
  rcases h with hs | h
  · exact .inl hs
  · by_cases hs : s.stopped = true
    · exact .inl hs
    · refine .inr ?_
      cases ha : s.agenda with
      | cons e rest => cases e <;> simp_all
      | nil => cases hj : s.job <;> simp_all

omit [Interpreter σ] in
theorem looks_wake (s : Session σ) : s.wake.looks = s.looks := by
  unfold wake
  split
  next hj => simp [looks, hj, Job.looks]
  · rfl

end Session

namespace Service

variable {v w : Service σ}

/-- Why the reader cannot go on: the next line or the end of the input is not there yet, there is no
room for a message, or it has left. -/
def Rests (v : Service σ) : Prop :=
  match v.source.lines with
  | [] => v.session.inbound.sending = true → v.session.now < v.source.closes
  | (t, line) :: _ => v.session.now < t ∨
    (v.framing.message? line).isSome = true ∧ v.session.inbound.receiving = true ∧
      v.session.inbound.hasRoom = false

theorem readStep_eq_none_iff (v : Service σ) : v.readStep = none ↔ v.Rests := by
  unfold readStep Rests
  cases hl : v.source.lines with
  | nil => cases hs : v.session.inbound.sending <;> simp [hs]
  | cons x rest =>
    obtain ⟨t, line⟩ := x
    by_cases ht : v.session.now < t
    · simp [ht]
    · cases hm : v.framing.message? line with
      | none => simp [ht, hm]
      | some m =>
        cases hr : v.session.inbound.receiving <;> cases hc : v.session.inbound.hasRoom <;>
          simp [ht, hm, hr, hc]

theorem Rests.congr (h : v.Rests) (hsource : w.source = v.source)
    (hframing : w.framing = v.framing) (hinbound : w.session.inbound = v.session.inbound)
    (hnow : w.session.now = v.session.now) : w.Rests := by
  unfold Rests at h ⊢
  rw [hsource, hframing, hinbound, hnow]
  exact h

end Service

/-- What the schedule costs: a turn of a task costs less than being woken, and a bridge that lets
others run may have to look at its load in vain. -/
def Schedule.price (k : Schedule) : Nat :=
  2 * k.queue.length + k.turns + k.writing.toNat + 2 * k.awake.toNat + 12 * k.deferred.toNat

namespace Service

variable {v w : Service σ}

/-- What time has still to bring: lines, and the end of the input. -/
def ahead (v : Service σ) : Nat :=
  (v.source.lines.filter fun line => v.session.now < line.1).length +
    (v.session.inbound.sending && v.session.now < v.source.closes).toNat

/-- What is left to be done. A line becomes a message, a message costs the bridge some steps, and
what it posts has still to be written. -/
def price (v : Service σ) : Nat :=
  8 * v.session.steps + 16 * v.session.looks + 3 * v.session.outbound.items.length +
    59 * v.source.lines.length + 11 * v.session.inbound.sending.toNat + 5 * v.ahead +
      v.schedule.price

theorem wakeBridge_cases (v : Service σ) (needed : Bool) :
    v.wakeBridge needed = v ∧ (needed = true → .bridge ∈ v.schedule.queue) ∨
      needed = true ∧ v.wakeBridge needed = { v with
        session := v.session.wake
        schedule := { v.schedule with queue := v.schedule.queue ++ [.bridge] } } := by
  unfold wakeBridge
  dsimp only
  split
  next hneeded =>
    obtain ⟨hneeded, -⟩ := Bool.and_eq_true_iff.1 hneeded
    exact .inr ⟨hneeded, rfl⟩
  next hnot =>
    refine .inl ⟨rfl, fun hneeded => ?_⟩
    simpa [hneeded] using hnot

theorem wakeReader_cases (v : Service σ) (needed : Bool) :
    v.wakeReader needed = v ∧ (needed = true → .reader ∈ v.schedule.queue) ∨
      needed = true ∧ v.wakeReader needed = { v with
        schedule := { v.schedule with queue := v.schedule.queue ++ [.reader] } } := by
  unfold wakeReader
  dsimp only
  split
  next hneeded =>
    obtain ⟨hneeded, -⟩ := Bool.and_eq_true_iff.1 hneeded
    exact .inr ⟨hneeded, rfl⟩
  next hnot =>
    refine .inl ⟨rfl, fun hneeded => ?_⟩
    simpa [hneeded] using hnot

theorem price_wakeReader_le (v : Service σ) (needed : Bool) :
    (v.wakeReader needed).price ≤ v.price + 2 * needed.toNat := by
  rcases wakeReader_cases v needed with ⟨hsame, -⟩ | ⟨rfl, hwoken⟩
  · rw [hsame]
    exact Nat.le_add_right _ _
  · rw [hwoken]
    simp only [price, ahead, Schedule.price, List.length_append, List.length_singleton,
      Bool.toNat_true]
    omega

/-- What it costs to wake the bridge: a place in the queue, and maybe a look in vain. -/
theorem price_wakeBridge_le (v : Service σ) (needed : Bool) :
    (v.wakeBridge needed).price ≤ v.price + 10 * needed.toNat := by
  rcases wakeBridge_cases v needed with ⟨hsame, -⟩ | ⟨rfl, hwoken⟩
  · rw [hsame]
    exact Nat.le_add_right _ _
  · obtain ⟨-, hnow, hinbound, houtbound, -, -⟩ := Session.wake_frame v.session
    have hsteps := Session.steps_wake_le v.session
    have hlooks := Session.looks_wake v.session
    rw [hwoken]
    simp only [price, ahead, Schedule.price, hnow, hinbound, houtbound, hlooks,
      List.length_append, List.length_singleton, Bool.toNat_true]
    omega

/-- With nothing to look at the place in the queue is all that it costs. -/
theorem price_wakeBridge_le_of_unseen (v : Service σ) (needed : Bool)
    (h : ∀ x p deadline, v.session.job ≠ .loading x p deadline true) :
    (v.wakeBridge needed).price ≤ v.price + 2 * needed.toNat := by
  rcases wakeBridge_cases v needed with ⟨hsame, -⟩ | ⟨rfl, hwoken⟩
  · rw [hsame]
    exact Nat.le_add_right _ _
  · rw [hwoken, Session.wake_eq_self h]
    simp only [price, ahead, Schedule.price, List.length_append, List.length_singleton,
      Bool.toNat_true]
    omega

variable [Interpreter σ] {registry : Registry σ} {settings : BridgeSettings}

/-- What holds of a service that works. The output is called as long as there is something to
write. -/
structure Tended (registry : Registry σ) (settings : BridgeSettings) (v : Service σ) : Prop
    extends v.Staffed registry settings where
  run : ∃ j, Session.Run (.create registry settings) j v.session
  called : v.session.outbound.items ≠ [] →
    v.schedule.writing = true ∨ v.schedule.awake = true
  looked : v.session.Looked

/-- A task that is not in the queue has to wait. -/
structure Scheduled (registry : Registry σ) (settings : BridgeSettings) (v : Service σ) : Prop
    extends v.Tended registry settings where
  bridge : .bridge ∉ v.schedule.queue → v.session.Rests
  reader : .reader ∉ v.schedule.queue → v.Rests

theorem Tended.wakeBridge (h : v.Tended registry settings) (needed : Bool) :
    (v.wakeBridge needed).Tended registry settings := by
  rcases wakeBridge_cases v needed with ⟨hsame, -⟩ | ⟨-, hwoken⟩
  · rw [hsame]
    exact h
  · obtain ⟨-, -, -, houtbound, -, -⟩ := Session.wake_frame v.session
    obtain ⟨j, hj⟩ := h.run
    rw [hwoken]
    refine ⟨(h.toStaffed.pause .wake).pause .reschedule, ⟨j, ?_⟩, ?_, Session.looked_wake _⟩
    · simpa using hj.trans (Session.run_wake v.session)
    · rw [houtbound]
      exact h.called

omit [Interpreter σ] in
theorem rests_wakeBridge {needed : Bool}
    (hb : needed = false → .bridge ∉ v.schedule.queue → v.session.Rests) :
    .bridge ∉ (v.wakeBridge needed).schedule.queue → (v.wakeBridge needed).session.Rests := by
  rcases wakeBridge_cases v needed with ⟨hsame, hqueued⟩ | ⟨rfl, hwoken⟩
  · rw [hsame]
    intro hnot
    cases needed with
    | false => exact hb rfl hnot
    | true => exact absurd (hqueued rfl) hnot
  · rw [hwoken]
    intro hnot
    exact absurd (List.mem_append_right _ (List.mem_singleton_self _)) hnot

theorem Tended.scheduled_wakeBridge (h : v.Tended registry settings) {needed : Bool}
    (hb : needed = false → .bridge ∉ v.schedule.queue → v.session.Rests)
    (hr : .reader ∉ v.schedule.queue → v.Rests) :
    (v.wakeBridge needed).Scheduled registry settings := by
  refine ⟨h.wakeBridge needed, rests_wakeBridge hb, ?_⟩
  rcases wakeBridge_cases v needed with ⟨hsame, -⟩ | ⟨-, hwoken⟩
  · rw [hsame]
    exact hr
  · obtain ⟨-, hnow, hinbound, -, -, -⟩ := Session.wake_frame v.session
    rw [hwoken]
    intro hnot
    exact (hr fun hmem => hnot (List.mem_append_left _ hmem)).congr rfl rfl hinbound hnow

theorem Tended.scheduled_wakeReader (h : v.Tended registry settings) {needed : Bool}
    (hb : .bridge ∉ v.schedule.queue → v.session.Rests)
    (hr : needed = false → .reader ∉ v.schedule.queue → v.Rests) :
    (v.wakeReader needed).Scheduled registry settings := by
  rcases wakeReader_cases v needed with ⟨hsame, hqueued⟩ | ⟨rfl, hwoken⟩
  · rw [hsame]
    refine ⟨h, hb, fun hnot => ?_⟩
    cases needed with
    | false => exact hr rfl hnot
    | true => exact absurd (hqueued rfl) hnot
  · rw [hwoken]
    refine ⟨⟨h.toStaffed.pause .reschedule, h.run, h.called, h.looked⟩, ?_, ?_⟩
    · exact fun hnot => hb fun hmem => hnot (List.mem_append_left _ hmem)
    · intro hnot
      exact absurd (List.mem_append_right _ (List.mem_singleton_self _)) hnot

/-- All have had their turns. Something must have happened since the last time. -/
theorem Scheduled.round (h : v.Scheduled registry settings) (hw : v.schedule.writing = false)
    (hturns : 0 < v.schedule.turns ∨ v.schedule.awake = true ∨ v.schedule.deferred = true) :
    let u := { v with schedule := v.schedule.round }.wakeBridge v.schedule.deferred
    u.Scheduled registry settings ∧ u.price < v.price := by
  have htended :
      ({ v with schedule := v.schedule.round } : Service σ).Tended registry settings := by
    refine ⟨h.toStaffed.pause .reschedule, h.run, fun hitems => ?_, h.looked⟩
    exact .inl ((h.called hitems).resolve_left (by simp [hw]))
  have hprice := price_wakeBridge_le ({ v with schedule := v.schedule.round } : Service σ)
    v.schedule.deferred
  refine ⟨htended.scheduled_wakeBridge (fun _ => h.bridge) h.reader, Nat.lt_of_le_of_lt hprice ?_⟩
  simp only [price, ahead, Schedule.price, Schedule.round, hw, Bool.toNat_false]
  rcases hturns with hturns | hawake | hdeferred
  · omega
  · rw [hawake, Bool.toNat_true]
    omega
  · rw [hdeferred, Bool.toNat_true]
    omega

private theorem Scheduled.rest (h : v.Scheduled registry settings) {role : Role} {queue : List Role}
    (hq : v.schedule.queue = role :: queue) (hb : role = .bridge → v.session.Rests)
    (hr : role = .reader → v.Rests) :
    ({ v with schedule := v.schedule.rest } : Service σ).Scheduled registry settings ∧
      ({ v with schedule := v.schedule.rest } : Service σ).price < v.price := by
  have hrest : v.schedule.rest.queue = queue := by simp [Schedule.rest, hq]
  have stays {r : Role} (hnot : r ∉ v.schedule.rest.queue) (hne : role ≠ r) :
      r ∉ v.schedule.queue := by
    rw [hq, List.mem_cons]
    rintro (rfl | hmem)
    · exact hne rfl
    · exact hnot (hrest ▸ hmem)
  refine ⟨⟨⟨h.toStaffed.pause .reschedule, h.run, h.called, h.looked⟩, ?_, ?_⟩, ?_⟩
  · intro hnot
    by_cases hrole : role = .bridge
    · exact hb hrole
    · exact h.bridge (stays hnot hrole)
  · intro hnot
    by_cases hrole : role = .reader
    · exact hr hrole
    · exact h.reader (stays hnot hrole)
  · simp only [price, ahead, Schedule.price, hrest, hq, List.length_cons]
    simp only [Schedule.rest]
    omega

private theorem Scheduled.advance (h : v.Scheduled registry settings) {s : Session σ}
    (hs : v.session.advance = some s) :
    s.Looked ∧ s.steps < v.session.steps ∧ s.looks ≤ v.session.looks ∧
      (s.yields = true → s.looks < v.session.looks) ∧
      s.outbound.items.length ≤ v.session.outbound.items.length + 1 ∧
      ∃ j, Session.Run (.create registry settings) j s := by
  obtain ⟨j, hj⟩ := h.run
  obtain ⟨k, hk⟩ := Session.advance_run hs
  obtain ⟨hstopped, -⟩ := Session.advance_move hs
  have hgoes := hj.faithful.goes h.listened hs
  exact ⟨hgoes.looked h.looked, hgoes.steps_lt hstopped, hgoes.looks_le hstopped,
    hgoes.looks_lt hstopped fun x p deadline hx => (h.looked x p deadline hx).1,
    hgoes.items_le, _, hj.trans hk⟩

private theorem rests_advance {s : Session σ} (h : v.Rests) (hs : v.session.advance = some s)
    (hquiet : ((decide (s.inbound.items.length < v.session.inbound.items.length) || s.stopped) &&
      v.isPushing) = false) :
    ({ v with session := s } : Service σ).Rests := by
  have hkeeps := Session.advance_keeps hs
  unfold Rests at h ⊢
  unfold isPushing at hquiet
  cases hl : v.source.lines with
  | nil => simpa [hl, hkeeps.sending_eq, hkeeps.now_eq] using h
  | cons line rest =>
    obtain ⟨t, line⟩ := line
    simp only [hl, hkeeps.now_eq] at h hquiet ⊢
    rcases h with hlater | hfull
    · exact .inl hlater
    · by_cases ht : v.session.now < t
      · exact .inl ht
      · -- The line is there, so that the bridge has neither taken a message nor ended.
        obtain ⟨hlength, hstopped⟩ :
            v.session.inbound.items.length ≤ s.inbound.items.length ∧ s.stopped = false := by
          simpa [Nat.not_lt.1 ht] using hquiet
        obtain ⟨k, halone⟩ := Session.advance_alone hs
        have hitems : s.inbound.items.length = v.session.inbound.items.length := by
          rcases halone.taken_eq with htaken | ⟨hend, -⟩
          · have hsum := congrArg List.length htaken
            rw [List.length_append] at hsum
            omega
          · simp [hstopped] at hend
        have hreceiving : s.inbound.receiving = v.session.inbound.receiving := by
          rcases hkeeps.stays with ⟨-, hr⟩ | ⟨hend, -⟩
          · exact hr
          · simp [hstopped] at hend
        refine .inr ?_
        simpa [Channel.hasRoom, hitems, hreceiving, hkeeps.inCapacity_eq] using hfull

theorem Scheduled.bridgeTurn (h : v.Scheduled registry settings) {queue : List Role}
    (hq : v.schedule.queue = .bridge :: queue) :
    v.bridgeTurn.Scheduled registry settings ∧ v.bridgeTurn.price < v.price := by
  unfold Service.bridgeTurn
  split
  next hn => exact h.rest hq (fun _ => (Session.advance_eq_none_iff _).1 hn) nofun
  next s hs =>
    obtain ⟨hlooked, hsteps, hlooks, hyields, hitems, hrun⟩ := h.advance hs
    obtain ⟨k, halone⟩ := Session.advance_alone hs
    have hbridge : v.bridgeStep = some { v with session := s } := by simp [bridgeStep, hs]
    dsimp only
    generalize hposted :
      decide (v.session.outbound.items.length < s.outbound.items.length) = posted
    generalize hawake : (v.schedule.awake || posted || s.stopped) = awake
    have htended : ({ v with
        session := s
        schedule := { v.schedule with awake, deferred := v.schedule.deferred || s.yields } } :
          Service σ).Tended registry settings := by
      refine ⟨(h.toStaffed.bridge hbridge).pause .reschedule, hrun, fun hwrite => ?_, hlooked⟩
      have hcalled := h.called
      have hadded := halone.items_eq
      by_cases hnone : posted = true
      · exact .inr (by simp [← hawake, hnone])
      · have hsame : s.outbound.items = v.session.outbound.items := by
          have hle : s.outbound.items.length ≤ v.session.outbound.items.length := by
            simpa [← hposted] using hnone
          rw [hadded, List.length_append] at hle
          rw [hadded, List.eq_nil_of_length_eq_zero (l := k.posted) (by omega), List.append_nil]
        rcases hcalled (hsame ▸ hwrite) with hw | hw
        · exact .inl hw
        · exact .inr (by simp [← hawake, hw])
    refine ⟨htended.scheduled_wakeReader (fun hnot => ?_) (fun hquiet hnot => ?_), ?_⟩
    · exact absurd (by simp [hq]) hnot
    · exact (rests_advance (h.reader hnot) hs hquiet).congr rfl rfl rfl rfl
    · refine Nat.lt_of_le_of_lt (price_wakeReader_le _ _) ?_
      have hkeeps := Session.advance_keeps hs
      have hcalls := awake.toNat_le
      have hdefers : 12 * (v.schedule.deferred || s.yields).toNat + 16 * s.looks ≤
          12 * v.schedule.deferred.toNat + 16 * v.session.looks := by
        cases hy : s.yields with
        | false =>
          rw [Bool.or_false]
          omega
        | true =>
          have hless := hyields hy
          rw [Bool.or_true, Bool.toNat_true]
          omega
      have hneeded (b : Bool) : 2 * b.toNat ≤ 2 := Nat.mul_le_mul_left 2 b.toNat_le
      refine Nat.lt_of_le_of_lt (Nat.add_le_add_left (hneeded _) _) ?_
      simp only [price, ahead, Schedule.price, hkeeps.sending_eq, hkeeps.now_eq]
      omega

omit [Interpreter σ] in
private theorem steps_push (s : Session σ) (m : Inbound) :
    ({ s with inbound := s.inbound.push m } : Session σ).steps ≤ s.steps + 6 := by
  by_cases hs : s.stopped = true
  · simp [Session.steps, hs]
  · have hs : s.stopped = false := by simpa using hs
    have hm := s.registry.steps_message_le m
    have hmessages : s.registry.steps.messages (s.inbound.items ++ [m]) =
        s.registry.steps.messages s.inbound.items + s.registry.steps.message m := by
      simp [Tariff.messages]
    rw [Session.steps_eq hs, Session.steps_eq (by exact hs)]
    simp only [Tariff.session, Channel.push, hmessages, List.length_append, List.length_singleton]
    omega

omit [Interpreter σ] in
private theorem price_read (hr : v.Reads w) (hclosed : v.session.inbound.sending = false →
    v.source.lines = []) : w.price + 10 < v.price := by
  have shorter {p : Nat × String → Bool} {x : Nat × String} {rest : List (Nat × String)} :
      (rest.filter p).length ≤ ((x :: rest).filter p).length :=
    ((List.sublist_cons_self x rest).filter p).length_le
  cases hr with
  | finish hl hs =>
    have hsteps : v.hangUp.session.steps = v.session.steps := rfl
    have hlooks : v.hangUp.session.looks = v.session.looks := rfl
    simp only [price, ahead, hsteps, hlooks]
    simp only [hangUp, Channel.closeSender, hl, hs, Bool.toNat_true, Bool.toNat_false,
      Bool.false_and, List.filter_nil, List.length_nil]
    omega
  | @skip t line rest hl hm =>
    have hsession : (v.nextLine rest).session = v.session := rfl
    have hahead : (v.nextLine rest).ahead ≤ v.ahead := by
      unfold ahead
      rw [hl]
      exact Nat.add_le_add_right shorter _
    simp only [price, hsession, hl, List.length_cons]
    simp only [nextLine] at hahead ⊢
    omega
  | @abandon t line rest m hl hm hc =>
    have hs : v.session.inbound.sending = true := by
      by_contra hs
      simp [hclosed (by simpa using hs)] at hl
    have hsteps : v.hangUp.session.steps = v.session.steps := rfl
    have hlooks : v.hangUp.session.looks = v.session.looks := rfl
    simp only [price, ahead, hsteps, hlooks]
    simp only [hangUp, Channel.closeSender, hl, hs, Bool.toNat_true, Bool.toNat_false,
      Bool.false_and, List.filter_nil, List.length_nil, List.length_cons]
    omega
  | @send t line rest m hl hm hc hroom =>
    have hsteps := steps_push v.session m
    have hlooks : ({ v.session with inbound := v.session.inbound.push m } : Session σ).looks =
        v.session.looks := rfl
    have hahead : ({ v.nextLine rest with
        session := { v.session with inbound := v.session.inbound.push m } } : Service σ).ahead ≤
          v.ahead := by
      unfold ahead
      rw [hl]
      exact Nat.add_le_add_right shorter _
    simp only [price, hlooks, hl, List.length_cons]
    simp only [nextLine, Channel.push] at hsteps hahead ⊢
    omega

theorem Scheduled.readerTurn (h : v.Scheduled registry settings) {queue : List Role}
    (hq : v.schedule.queue = .reader :: queue) :
    v.readerTurn.Scheduled registry settings ∧ v.readerTurn.price < v.price := by
  unfold Service.readerTurn
  split
  next hn => exact h.rest hq nofun fun _ => (readStep_eq_none_iff _).1 hn
  next w hw =>
    have hreads := readStep_reads hw
    obtain ⟨j, hj⟩ := h.run
    have hrun := hj.trans (session_read h.closed hw)
    have hframe : w.schedule = v.schedule ∧ w.session.outbound = v.session.outbound ∧
        ∃ inbound, w.session = { v.session with inbound } := by
      cases hreads <;> exact ⟨rfl, rfl, _, rfl⟩
    obtain ⟨hschedule, houtbound, inbound, hsession⟩ := hframe
    have htended : w.Tended registry settings := by
      refine ⟨h.toStaffed.read hw, ⟨_, hrun⟩, ?_, ?_⟩
      · rw [houtbound, hschedule]
        exact h.called
      · rw [hsession]
        exact h.looked
    dsimp only
    refine ⟨htended.scheduled_wakeBridge (fun hquiet hnot => ?_) (fun hnot => ?_), ?_⟩
    · rw [hschedule] at hnot
      have hrests := h.bridge hnot
      cases hlistens : v.session.listens with
      | false =>
        rw [hsession]
        exact hrests.of_deaf hlistens inbound
      | true =>
        -- A bridge that waits for messages is woken unless the line had none.
        cases hreads with
        | finish => simp [hlistens, hangUp, Channel.closeSender] at hquiet
        | abandon => simp [hlistens, hangUp, Channel.closeSender] at hquiet
        | skip => exact hrests
        | send => simp [hlistens, Channel.push] at hquiet
    · rw [hschedule, hq] at hnot
      exact absurd (List.mem_cons_self ..) hnot
    · have hspent := price_read hreads h.closed
      have hwake := price_wakeBridge_le w (v.session.listens &&
        (decide (v.session.inbound.items.length < w.session.inbound.items.length) ||
          !w.session.inbound.sending))
      have hneeded (b : Bool) : 10 * b.toNat ≤ 10 := Nat.mul_le_mul_left 10 b.toNat_le
      exact Nat.lt_of_le_of_lt (hwake.trans (Nat.add_le_add_left (hneeded _) _)) hspent

theorem Scheduled.outputTurn (h : v.Scheduled registry settings)
    (hw : v.schedule.writing = true) :
    v.outputTurn.ended = true ∨
      v.outputTurn.Scheduled registry settings ∧ v.outputTurn.price < v.price := by
  unfold Service.outputTurn
  split
  next hn =>
    have hitems : v.session.outbound.items = [] := by
      by_contra hitems
      obtain ⟨m, rest, hm⟩ := List.exists_cons_of_ne_nil hitems
      simp [writeStep, Channel.take?_of_items hm] at hn
    refine .inr ⟨⟨⟨h.toStaffed.pause .reschedule, h.run, ?_, h.looked⟩, h.bridge, h.reader⟩, ?_⟩
    · exact fun hwrite => absurd hitems hwrite
    · simp only [price, ahead, Schedule.price, hw, Bool.toNat_true, Bool.toNat_false]
      omega
  next w hwrite =>
    obtain ⟨m, rest, hitems, -, hsource, hframing, hschedule, hsession⟩ := writeStep_writes hwrite
    cases hfine : w.failure with
    | some f =>
      -- The service ends with the fault.
      refine .inl ?_
      rcases wakeBridge_cases w (!v.session.agenda.isEmpty) with ⟨hsame, -⟩ | ⟨-, hwoken⟩
      · simp [hsame, ended, hfine]
      · simp [hwoken, ended, hfine]
    | none =>
      have hsession := hsession hfine
      obtain ⟨j, hj⟩ := h.run
      have htended : w.Tended registry settings := by
        refine ⟨h.toStaffed.write hwrite hfine, ⟨_, hj.trans (session_write hwrite)⟩, ?_, ?_⟩
        · exact fun _ => .inl (hschedule ▸ hw)
        · rw [hsession]
          exact h.looked
      refine .inr ⟨htended.scheduled_wakeBridge (fun hquiet hnot => ?_) (fun hnot => ?_), ?_⟩
      · rw [hschedule] at hnot
        have hagenda : v.session.agenda = [] := by simpa using hquiet
        have hrests := h.bridge hnot
        rw [hsession]
        unfold Session.Rests at hrests ⊢
        cases hj : v.session.job <;> simpa only [hagenda, hj] using hrests
      · rw [hschedule] at hnot
        exact (h.reader hnot).congr hsource hframing (by rw [hsession]) (by rw [hsession])
      · have hunseen (hagenda : v.session.agenda ≠ []) (x : Registration σ) (p : Progress)
            (deadline : Nat) : w.session.job ≠ .loading x p deadline true := by
          rw [hsession]
          exact fun hj => hagenda (h.looked x p deadline hj).1
        have hwake : (w.wakeBridge (!v.session.agenda.isEmpty)).price ≤ w.price + 2 := by
          cases hagenda : v.session.agenda with
          | nil => exact (price_wakeBridge_le w false).trans (Nat.le_add_right _ 2)
          | cons e rest =>
            exact price_wakeBridge_le_of_unseen w true (hunseen (by simp [hagenda]))
        have hsteps : w.session.steps = v.session.steps := by rw [hsession]; rfl
        have hlooks : w.session.looks = v.session.looks := by rw [hsession]; rfl
        refine Nat.lt_of_le_of_lt hwake ?_
        simp only [price, ahead, hsteps, hlooks, hsource, hschedule, hitems, List.length_cons]
        simp only [hsession]
        omega

omit [Interpreter σ] in
/-- The next timer is that of the bridge, or something comes in before that. -/
theorem timer_cases {t : Nat} (ht : v.timer = some t) :
    v.session.timer = some t ∨
      v.arrival = some t ∧ v.session.now < t ∧ ∀ alarm ∈ v.session.timer, t < alarm := by
  rw [timer_eq] at ht
  cases ha : v.arrival.filter (v.session.now < ·) with
  | none =>
    left
    cases hs : v.session.timer <;> simp_all
  | some a =>
    obtain ⟨harrival, hlt⟩ := Option.filter_eq_some_iff.1 ha
    have hlt : v.session.now < a := by simpa using hlt
    cases hs : v.session.timer with
    | none =>
      obtain rfl : a = t := by simpa [ha, hs] using ht
      exact .inr ⟨harrival, hlt, by simp⟩
    | some alarm =>
      obtain rfl : min a alarm = t := by simpa [ha, hs] using ht
      by_cases hle : alarm ≤ a
      · exact .inl (by rw [Nat.min_eq_right hle])
      · have hmin : min a alarm = a := Nat.min_eq_left (by omega)
        rw [hmin]
        refine .inr ⟨harrival, hlt, ?_⟩
        rintro _ ⟨⟩
        omega

private theorem Scheduled.timer (h : v.Scheduled registry settings) (he : v.ended = false)
    (hq : v.schedule.queue = []) (ho : v.session.outbound.items = []) :
    ∃ t, v.timer = some t ∧ v.session.now < t := by
  have hs : v.session.stopped = false := by simpa [ended, h.working, ho] using he
  have hrests := h.bridge (by simp [hq])
  have hroom : v.session.outbound.hasRoom = true := by
    simpa [Channel.hasRoom, ho] using h.outRoom
  obtain ⟨ha, ⟨hj, hi, hsending⟩ | ⟨x, p, deadline, hj, -⟩ | ⟨since, x, hj⟩⟩ :=
    Session.advance_eq_none hs h.listened hroom ((Session.advance_eq_none_iff _).2 hrests)
  · have htimer : v.session.timer = none := by simp [Session.timer, hj]
    have hreader := h.reader (by simp [hq])
    unfold Rests at hreader
    have harrival : ∃ t, v.arrival = some t ∧ v.session.now < t := by
      unfold arrival
      cases hl : v.source.lines with
      | nil => exact ⟨v.source.closes, by simp [hsending], by simpa [hl, hsending] using hreader⟩
      | cons line rest =>
        have hempty : v.session.inbound.hasRoom = true := by
          simpa [Channel.hasRoom, hi] using h.inRoom
        exact ⟨line.1, rfl, by simpa [hl, hempty] using hreader⟩
    obtain ⟨t, harrival, hlt⟩ := harrival
    exact ⟨t, timer_of_arrival htimer harrival hlt, hlt⟩
  all_goals
    have htimer : v.session.timer.isSome = true := by simp [Session.timer, hs, ha, hj]
    obtain ⟨alarm, halarm⟩ := Option.isSome_iff_exists.1 htimer
    obtain ⟨-, hlt, -⟩ := hrests.timer h.looked halarm
    exact timer_of_session halarm hlt

omit [Interpreter σ] in
private theorem ahead_onClock {t : Nat} (hlt : v.session.now ≤ t) :
    (v.onClock t).ahead ≤ v.ahead ∧
      (v.arrival = some t → v.session.now < t → (v.onClock t).ahead < v.ahead) := by
  have hlines (l : List (Nat × String)) : (l.filter fun line => t < line.1).length ≤
      (l.filter fun line => v.session.now < line.1).length := by
    refine (List.monotone_filter_right _ fun line hline => ?_).length_le
    have hlater : t < line.1 := by simpa using hline
    simpa using Nat.lt_of_le_of_lt hlt hlater
  have hend : (v.session.inbound.sending && decide (t < v.source.closes)).toNat ≤
      (v.session.inbound.sending && decide (v.session.now < v.source.closes)).toNat := by
    by_cases hcloses : t < v.source.closes
    · simp [hcloses, Nat.lt_of_le_of_lt hlt hcloses]
    · simp [hcloses]
  refine ⟨Nat.add_le_add (hlines _) hend, fun ha hnow => ?_⟩
  unfold arrival at ha
  cases hl : v.source.lines with
  | nil =>
    obtain ⟨hs, rfl⟩ : v.session.inbound.sending = true ∧ v.source.closes = t := by
      simpa [hl] using ha
    simp [ahead, onClock, hl, hs, hnow]
  | cons line rest =>
    obtain rfl : line.1 = t := by simpa [hl] using ha
    have hrest := hlines rest
    have hfirst : ((line :: rest).filter fun x => v.session.now < x.1).length =
        (rest.filter fun x => v.session.now < x.1).length + 1 := by
      simp [hnow]
    have hgone : ((line :: rest).filter fun x => line.1 < x.1) =
        rest.filter fun x => line.1 < x.1 := by
      simp
    unfold ahead onClock
    simp only [hl, hfirst, hgone]
    omega

omit [Interpreter σ] in
private theorem steps_onClock {t : Nat} (hle : v.session.now ≤ t) :
    (v.onClock t).session.steps ≤ v.session.steps := by
  have hjob : v.session.job.steps t v.session.releases ≤
      v.session.job.steps v.session.now v.session.releases := by
    cases hj : v.session.job with
    | none => exact Nat.le_refl _
    | calling since x =>
      simp only [Job.steps]
      split <;> split <;> omega
    | loading x p deadline seen =>
      cases seen with
      | true => exact Nat.le_refl _
      | false =>
        by_cases hwaits : t < deadline ∧
            p.blocked t (v.session.releases.contains x.serial) = true
        · -- What is still blocked then is blocked now.
          have hblocked :
              p.blocked v.session.now (v.session.releases.contains x.serial) = true := by
            have hlater := hwaits.2
            unfold Progress.blocked at hlater ⊢
            cases hw : p.wait <;> simp_all
            omega
          rw [Job.steps_blocked hwaits.1 hwaits.2,
            Job.steps_blocked (Nat.lt_of_le_of_lt hle hwaits.1) hblocked]
        · have hdue : deadline ≤ t ∨
              p.blocked t (v.session.releases.contains x.serial) = false := by
            by_cases hd : t < deadline
            · exact .inr (by simpa [hd] using hwaits)
            · exact .inl (Nat.le_of_not_lt hd)
          rw [Job.steps_due hdue]
          exact Job.le_steps_unseen
  by_cases hs : v.session.stopped = true
  · simp [Session.steps, onClock, hs]
  · have hs : v.session.stopped = false := by simpa using hs
    rw [Session.steps_eq hs, Session.steps_eq (by exact hs)]
    simp only [Tariff.session, onClock]
    omega

private theorem Scheduled.alarm (h : v.Scheduled registry settings) (hq : v.schedule.queue = [])
    (ho : v.session.outbound.items = []) {t : Nat} (ht : v.session.timer = some t) :
    let w : Service σ :=
      { v.onClock t with
        session := (v.onClock t).session.wake, schedule := { queue := [.bridge] } }
    w.Tended registry settings ∧ w.price + 4 < v.price := by
  obtain ⟨hs, hlt, hjob⟩ := (h.bridge (by simp [hq])).timer h.looked ht
  obtain ⟨j, hj⟩ := h.run
  obtain ⟨-, hnow, hinbound, houtbound, -, -⟩ := Session.wake_frame (v.onClock t).session
  have hrun : Session.Run v.session [] (v.onClock t).session := .single .elapse
  have hsteps : (v.onClock t).session.wake.steps < v.session.steps := Session.steps_alarm hs hjob
  have hlooks := Session.looks_wake (v.onClock t).session
  obtain ⟨hahead, -⟩ := ahead_onClock (v := v) (Nat.le_of_lt hlt)
  refine ⟨⟨((h.toStaffed.pause .elapse).pause .wake).pause .reschedule, ⟨_, (hj.trans hrun).trans
    (Session.run_wake _)⟩, ?_, Session.looked_wake _⟩, ?_⟩
  · rw [houtbound]
    exact fun hwrite => absurd ho hwrite
  · have hlooks' : (v.onClock t).session.looks = v.session.looks := rfl
    simp only [price, ahead, Schedule.price, hnow, hinbound, houtbound, hlooks, hlooks'] at hahead ⊢
    simp only [onClock] at hahead hsteps ⊢
    simp only [List.length_cons, List.length_nil, Bool.toNat_false]
    omega

private theorem Scheduled.arrive (h : v.Scheduled registry settings) (hq : v.schedule.queue = [])
    (hs : v.session.stopped = false) (ho : v.session.outbound.items = []) {t : Nat}
    (ht : v.arrival = some t) (hlt : v.session.now < t)
    (hlater : ∀ alarm ∈ v.session.timer, t < alarm) :
    let w : Service σ := { v.onClock t with schedule := { queue := [] } }
    w.Tended registry settings ∧ w.session.Rests ∧ w.price + 4 < v.price := by
  obtain ⟨j, hj⟩ := h.run
  obtain ⟨hrests, hlooked⟩ := (h.bridge (by simp [hq])).wait h.looked hs hlater
  have hrun : Session.Run v.session [] (v.onClock t).session := .single .elapse
  have hsteps := steps_onClock (v := v) (Nat.le_of_lt hlt)
  have hahead := (ahead_onClock (v := v) (Nat.le_of_lt hlt)).2 ht hlt
  have hpause : v.Pause { v with session := { v.session with now := t } } := .elapse
  refine ⟨⟨(h.toStaffed.pause hpause).pause .reschedule, ⟨_, hj.trans hrun⟩,
    fun hwrite => absurd ho hwrite, hlooked⟩, hrests, ?_⟩
  have hlooks : (v.onClock t).session.looks = v.session.looks := rfl
  simp only [price, ahead, Schedule.price, hlooks] at hahead ⊢
  simp only [onClock] at hahead hsteps ⊢
  simp only [List.length_nil, Bool.toNat_false]
  omega

/-- All tasks wait until the next timer goes off; then all begins anew. -/
theorem Scheduled.clock (h : v.Scheduled registry settings) (he : v.ended = false)
    (hq : v.schedule.queue = []) (hw : v.schedule.writing = false)
    (ha : v.schedule.awake = false) :
    ∃ u, v.clockStep = some u ∧
      let w := ({ u with schedule := v.schedule.round }.wakeBridge
        (u.session.timer.any (· ≤ u.session.now))).wakeReader true
      w.Scheduled registry settings ∧ w.price < v.price := by
  have ho : v.session.outbound.items = [] := by
    by_contra hwrite
    simpa [hw, ha] using h.called hwrite
  have hs : v.session.stopped = false := by simpa [ended, h.working, ho] using he
  have hround : v.schedule.round = { queue := [] } := by simp [Schedule.round, hq, ha]
  obtain ⟨t, ht, hlt⟩ := h.timer he hq ho
  refine ⟨v.onClock t, by simp [clockStep, ht, onClock], ?_⟩
  have htimer : (v.onClock t).session.timer = v.session.timer := rfl
  rw [hround, htimer]
  rcases timer_cases ht with halarm | ⟨harrival, -, hlater⟩
  · have hdue : v.session.timer.any (· ≤ (v.onClock t).session.now) = true := by
      simp [halarm, onClock]
    obtain ⟨htended, hprice⟩ := h.alarm hq ho halarm
    have hwoken : ({ v.onClock t with schedule := { queue := [] } } : Service σ).wakeBridge true =
        { v.onClock t with
          session := (v.onClock t).session.wake, schedule := { queue := [.bridge] } } := rfl
    rw [hdue, hwoken]
    refine ⟨htended.scheduled_wakeReader (fun hnot => ?_) (fun hneed => absurd hneed (by decide)),
      Nat.lt_of_le_of_lt (price_wakeReader_le _ _) (Nat.lt_of_le_of_lt ?_ hprice)⟩
    · exact absurd (List.mem_singleton_self _) hnot
    · exact Nat.add_le_add_left (by decide) _
  · have hquiet : v.session.timer.any (· ≤ (v.onClock t).session.now) = false := by
      cases hb : v.session.timer with
      | none => rfl
      | some alarm =>
        have hnot := hlater alarm hb
        simp [onClock, Nat.not_le.2 hnot]
    obtain ⟨htended, hrests, hprice⟩ := h.arrive hq hs ho harrival hlt hlater
    have hasleep : ({ v.onClock t with schedule := { queue := [] } } : Service σ).wakeBridge
        false = { v.onClock t with schedule := { queue := [] } } := rfl
    rw [hquiet, hasleep]
    refine ⟨htended.scheduled_wakeReader (fun _ => hrests) (fun hneed => absurd hneed (by decide)),
      Nat.lt_of_le_of_lt (price_wakeReader_le _ _) (Nat.lt_of_le_of_lt ?_ hprice)⟩
    exact Nat.add_le_add_left (by decide) _

/-- A service that has not come to its end goes on, and less is left to be done. -/
theorem Scheduled.step (h : v.Scheduled registry settings) (he : v.ended = false) :
    ∃ w, v.step = some w ∧
      (w.ended = true ∨ w.Scheduled registry settings ∧ w.price < v.price) := by
  unfold Service.step
  simp only [he, Bool.false_eq_true, if_false]
  cases hw : v.schedule.writing with
  | true => exact ⟨_, rfl, h.outputTurn hw⟩
  | false =>
    simp only [Bool.false_eq_true, if_false]
    by_cases hturns : Schedule.interval ≤ v.schedule.turns
    · rw [if_pos hturns]
      exact ⟨_, rfl, .inr (h.round hw (.inl (Nat.lt_of_lt_of_le (by decide) hturns)))⟩
    · rw [if_neg hturns]
      cases hq : v.schedule.queue with
      | cons role queue =>
        cases role with
        | bridge => exact ⟨_, rfl, .inr (h.bridgeTurn hq)⟩
        | reader => exact ⟨_, rfl, .inr (h.readerTurn hq)⟩
      | nil =>
        by_cases hround : (v.schedule.deferred || v.schedule.awake) = true
        · simp only [hround, if_true]
          refine ⟨_, rfl, .inr (h.round hw (.inr ?_))⟩
          exact (Bool.or_eq_true_iff.1 hround).symm
        · simp only [hround, Bool.false_eq_true, if_false]
          have ha : v.schedule.awake = false := by
            by_contra hawake
            simp [hawake] at hround
          obtain ⟨u, hu, hnext⟩ := h.clock he hq hw ha
          exact ⟨_, by rw [hu]; rfl, .inr hnext⟩

theorem runFor_ended (h : v.ended = true) (fuel : Nat) : v.runFor fuel = v := by
  cases fuel with
  | zero => rfl
  | succ fuel => simp [runFor, Service.step, h]

theorem Scheduled.runFor (h : v.Scheduled registry settings) {fuel : Nat}
    (hfuel : v.price < fuel) : (v.runFor fuel).ended = true := by
  induction fuel generalizing v with
  | zero => omega
  | succ fuel ih =>
    cases he : v.ended with
    | true => rwa [runFor_ended he]
    | false =>
      obtain ⟨w, hw, hnext⟩ := h.step he
      simp only [Service.runFor, hw]
      rcases hnext with hend | ⟨hscheduled, hless⟩
      · rwa [runFor_ended hend]
      · exact ih hscheduled (by omega)

variable {framing : Framing} {first : Option Control} {source : Source} {room : Option Nat}

theorem scheduled_create :
    (create registry settings framing first source room).Scheduled registry settings where
  toStaffed := staffed_create
  run := ⟨[], session_create⟩
  called := by cases first <;> exact fun hwrite => absurd rfl hwrite
  looked := by cases first <;> exact nofun
  bridge := fun hnot => absurd (by cases first <;> exact List.mem_cons_self ..) hnot
  reader := fun hnot => absurd (by cases first <;> simp [create]) hnot

theorem price_create : (create registry settings framing first source room).price <
    (create registry settings framing first source room).effort := by
  generalize hv : create registry settings framing first source room = v
  have hsteps : v.session.steps ≤ v.session.effort := hv ▸ session_create.faithful.steps_le
  have hlooks : v.session.looks = v.session.registry.rounds := by
    rw [← hv]
    cases first <;>
      simp [create, Session.create, Session.looks, Tariff.cost, Tariff.bridge, Job.looks,
        Registry.looks, Channel.push]
  have heffort := Session.effort_eq v.session
  have hjob : v.session.job = .none := by
    rw [← hv]
    cases first <;> rfl
  have hwaiting : v.session.outbound.items = [] := by
    rw [← hv]
    cases first <;> rfl
  have hschedule : v.schedule.price = 4 := by
    rw [← hv]
    rfl
  have hahead : v.ahead ≤ v.source.lines.length + 1 :=
    Nat.add_le_add (List.length_filter_le _ _) (Bool.toNat_le _)
  have hsending := v.session.inbound.sending.toNat_le
  rw [hjob] at heffort
  simp only [price, Service.effort, hwaiting, hschedule, hlooks, List.length_nil]
  dsimp only at heffort
  omega

/-- Every service comes to its end within the steps that it is given, whatever its module does and
whatever its writer takes. -/
theorem run_ended (registry : Registry σ) (settings : BridgeSettings) (framing : Framing)
    (first : Option Control) (source : Source) (room : Option Nat) :
    (create registry settings framing first source room).run.ended = true :=
  scheduled_create.runFor price_create

end Service

end EngineBridge
