import EngineBridge.Proofs.Order
import EngineBridge.Serve.Network

/-!
# The tasks of a service in any order

A service is three tasks and two channels. The schedule that runs it is one of many: here the tasks
do what they can in any order, and between their steps time passes as it likes. As long as the
writer takes all that it is offered, such a service never comes to a standstill.
-/

namespace EngineBridge

open Journal

variable {σ : Type}

namespace Sink

private theorem offer_accepting {s : Sink} (h : s.room = none) (bytes : Text.Bytes) :
    s.offer bytes = ({ s with taken := bytes :: s.taken }, []) := by
  simp [offer, h]

private theorem write_accepting {s : Sink} (h : s.room = none) (buffered piece : Text.Bytes) :
    ∃ s' rest, s.write buffered piece = (s', some rest) ∧ s'.room = none ∧
      s'.bytes ++ rest = s.bytes ++ buffered ++ piece := by
  have hsize : 0 < bufferSize := by decide
  let passed : Sink := { s with taken := buffered :: s.taken }
  have hpassed : passed.room = none := h
  unfold write
  by_cases hfull : bufferSize < buffered.length + piece.length
  · by_cases hsmall : piece.length < bufferSize
    · refine ⟨passed, piece, ?_, h, by simp [Sink.bytes, passed]⟩
      simp [hfull, hsmall, offer_accepting h, passed]
    · refine ⟨{ passed with taken := piece :: passed.taken }, [], ?_, h,
        by simp [Sink.bytes, passed]⟩
      simp [hfull, hsmall, offer_accepting h, offer_accepting hpassed, hsize, passed]
  · by_cases hsmall : piece.length < bufferSize
    · exact ⟨s, buffered ++ piece, by simp [hfull, hsmall], h, by simp⟩
    · obtain rfl : buffered = [] := List.eq_nil_of_length_eq_zero (by omega)
      have hfits : ¬ bufferSize < piece.length := by simpa using hfull
      refine ⟨{ s with taken := piece :: s.taken }, [], ?_, h, by simp [Sink.bytes]⟩
      simp [hfits, hsmall, offer_accepting h, hsize]

private theorem go_accepting {s : Sink} (h : s.room = none) (buffered : Text.Bytes)
    (pieces : List Text.Bytes) :
    (put.go s buffered pieces).2 = none ∧ (put.go s buffered pieces).1.room = none ∧
      (put.go s buffered pieces).1.bytes = s.bytes ++ buffered ++ pieces.flatten := by
  induction pieces generalizing s buffered with
  | nil => simp [put.go, offer_accepting h, h, Sink.bytes]
  | cons piece pieces ih =>
    obtain ⟨s', rest, hwrite, hroom, hbytes⟩ := write_accepting h buffered piece
    obtain ⟨hfine, hroom', htaken⟩ := ih hroom rest
    rw [put.go, hwrite]
    refine ⟨hfine, hroom', ?_⟩
    rw [htaken, hbytes]
    simp

/-- All pieces of a message reach such a writer. -/
theorem put_accepting {s : Sink} (h : s.room = none) (pieces : List Text.Bytes) :
    (s.put pieces).2 = none ∧ (s.put pieces).1.room = none ∧
      (s.put pieces).1.bytes = s.bytes ++ pieces.flatten := by
  simpa [put] using go_accepting h [] pieces

end Sink

variable [Interpreter σ]

namespace Session

omit [Interpreter σ] in
theorem takeMessage_eq_some {s t : Session σ} (h : s.takeMessage = some t) :
    ∃ m rest, s.inbound.items = m :: rest ∧
      t = { s with inbound := { s.inbound with items := rest } }.feed (.received m) := by
  obtain ⟨⟨m, inbound⟩, hm, rfl⟩ := Option.map_eq_some_iff.1 h
  obtain ⟨rest, hitems, rfl⟩ := Channel.take?_eq_some hm
  exact ⟨m, rest, hitems, rfl⟩

omit [Interpreter σ] in
theorem takeMessage_eq_none {s : Session σ} (h : s.takeMessage = none) : s.inbound.items = [] := by
  have htake := Option.map_eq_none_iff.1 h
  unfold Channel.take? at htake
  split at htake
  next hitems => exact hitems
  · cases htake

/-- What stays as it is while a bridge goes on. A bridge that ends takes no more messages. -/
structure Keeps (s t : Session σ) : Prop where
  now_eq : t.now = s.now
  registry_eq : t.registry = s.registry
  settings_eq : t.bridge.settings = s.bridge.settings
  inCapacity_eq : t.inbound.capacity = s.inbound.capacity
  outCapacity_eq : t.outbound.capacity = s.outbound.capacity
  sending_eq : t.inbound.sending = s.inbound.sending
  receiving_eq : t.outbound.receiving = s.outbound.receiving
  stays : t.stopped = s.stopped ∧ t.inbound.receiving = s.inbound.receiving ∨
    t.stopped = true ∧ t.inbound.receiving = false
  unreleased : s.releases = [] → t.releases = []

variable {s t : Session σ}

omit [Interpreter σ] in
private theorem keeps_pass {s : Session σ} {agenda : List (Effect (Adapter σ))} {job : Job σ}
    {started : Option (Registration σ)} {events : Bus Transition} :
    s.Keeps { s with agenda, job, started, events } :=
  ⟨rfl, rfl, rfl, rfl, rfl, rfl, rfl, .inl ⟨rfl, rfl⟩, id⟩

omit [Interpreter σ] in
private theorem Keeps.feed (h : s.Keeps t) (e : BridgeEvent (Adapter σ)) : s.Keeps (t.feed e) :=
  { h with settings_eq := (Bridge.settings_step t.bridge e).trans h.settings_eq }

omit [Interpreter σ] in
private theorem Keeps.stop (h : s.Keeps t) : s.Keeps t.stop :=
  { h with stays := .inr ⟨rfl, rfl⟩ }

omit [Interpreter σ] in
private theorem Keeps.crashed (h : s.Keeps t) (p : Panic) : s.Keeps (t.crashed p) :=
  { h with stays := .inr ⟨rfl, rfl⟩ }

private theorem keeps_perform {e : Effect (Adapter σ)} {rest : List (Effect (Adapter σ))}
    (h : s.perform e rest = some t) : s.Keeps t := by
  cases e with
  | publish tr =>
    obtain rfl := Option.some.inj h
    exact keeps_pass
  | post m =>
    simp only [perform] at h
    split at h
    · obtain rfl := Option.some.inj h
      exact keeps_pass.stop
    · split at h
      · obtain rfl := Option.some.inj h
        exact ⟨rfl, rfl, rfl, rfl, rfl, rfl, rfl, .inl ⟨rfl, rfl⟩, id⟩
      · cases h
  | load name =>
    obtain rfl := Option.some.inj h
    unfold beginLoad
    split
    · exact keeps_pass.feed _
    · exact keeps_pass
  | call a text =>
    obtain rfl := Option.some.inj h
    exact keeps_pass

omit [Interpreter σ] in
private theorem Keeps.takeMessage {u : Session σ} (h : s.Keeps t) (ht : t.takeMessage = some u) :
    s.Keeps u := by
  obtain ⟨m, rest, -, rfl⟩ := takeMessage_eq_some ht
  have htaken : s.Keeps { t with inbound := { t.inbound with items := rest } } := { h with }
  exact htaken.feed (.received m)

omit [Interpreter σ] in
private theorem Keeps.finishLoad (h : s.Keeps t) (result : Loaded σ) :
    s.Keeps (t.finishLoad result) := by
  have hfree : s.Keeps { t with job := .none } := { h with }
  cases result with
  | ready a => exact hfree.feed (.loaded (.ok a))
  | refused e => exact hfree.feed (.loaded (.error e))
  | crashed p => exact h.crashed p

omit [Interpreter σ] in
private theorem keeps_look (s : Session σ) (x : Registration σ) (p : Progress) (deadline : Nat) :
    s.Keeps (s.look x p deadline) := by
  unfold look
  rcases p.poll s.now (s.releases.contains x.serial) with ⟨result, released⟩
  dsimp only
  generalize hu : (if released then s else { s with releases := s.releases.erase x.serial }) = u
  have hreleases : s.Keeps u := by
    subst hu
    cases released with
    | true => exact keeps_pass
    | false =>
      exact ⟨rfl, rfl, rfl, rfl, rfl, rfl, rfl, .inl ⟨rfl, rfl⟩, fun hr => by simp [hr]⟩
  cases result with
  | inr verdict => exact hreleases.finishLoad _
  | inl next =>
    dsimp only
    split
    · exact hreleases.finishLoad _
    · exact { hreleases with }

omit [Interpreter σ] in
private theorem keeps_finishCall (s : Session σ) (x : Execution σ) : s.Keeps (s.finishCall x) := by
  unfold finishCall
  split
  · exact keeps_pass.feed _
  · exact keeps_pass.feed _
  · exact keeps_pass.crashed _

theorem advance_keeps (h : s.advance = some t) : s.Keeps t := by
  obtain ⟨-, hmove⟩ := advance_move h
  cases hmove with
  | perform ha ht => exact keeps_perform ht
  | exhaust => exact keeps_pass.stop
  | take ha hj hi ht => exact keeps_pass.takeMessage ht
  | look => exact keeps_look s _ _ _
  | interrupt ha hj ht =>
    have hwake : s.Keeps s.wake := by
      simp only [wake, hj]
      exact keeps_pass
    exact hwake.takeMessage ht
  | finish => exact keeps_finishCall s _

/-- A bridge that cannot go on, though its host is there and has room for a message, waits for a
message, for its load or for its call. -/
theorem advance_eq_none (hs : s.stopped = false) (ho : s.outbound.receiving = true)
    (hroom : s.outbound.hasRoom = true) (hn : s.advance = none) :
    s.agenda = [] ∧
      (s.job = .none ∧ s.inbound.items = [] ∧ s.inbound.sending = true ∨
        (∃ x p deadline, s.job = .loading x p deadline true ∧ s.inbound.items = []) ∨
        ∃ since x, s.job = .calling since x) := by
  cases ha : s.agenda with
  | cons e rest => cases e <;> simp [advance, hs, ha, perform, ho, hroom] at hn
  | nil =>
    refine ⟨rfl, ?_⟩
    cases hj : s.job with
    | none =>
      simp only [advance, hs, ha, hj, Bool.false_eq_true, if_false] at hn
      split at hn
      · cases hn
      next hopen =>
        have hitems := takeMessage_eq_none hn
        exact .inl ⟨rfl, hitems, by simpa [Channel.exhausted, hitems] using hopen⟩
    | loading x p deadline seen =>
      cases seen with
      | false => simp [advance, hs, ha, hj] at hn
      | true =>
        have hwake : s.wake.takeMessage = none := by simpa [advance, hs, ha, hj] using hn
        have hitems := takeMessage_eq_none hwake
        exact .inr (.inl ⟨x, p, deadline, rfl, by simpa [wake, hj] using hitems⟩)
    | calling since x => exact .inr (.inr ⟨since, x, rfl⟩)

end Session

namespace Service

/-- One task does one thing. -/
inductive Task : Service σ → Service σ → Prop
  | bridge {v w} (h : v.bridgeStep = some w) : Task v w
  | read {v w} (h : v.readStep = some w) : Task v w
  | write {v w} (h : v.writeStep = some w) : Task v w

/-- What happens between the steps of the tasks. -/
inductive Pause : Service σ → Service σ → Prop
  /-- The bridge has its turn, and is to look at its load again. -/
  | wake {v} : Pause v { v with session := v.session.wake }
  /-- The clock shows another time. -/
  | elapse {v now} : Pause v { v with session := { v.session with now } }
  /-- Another task is next. -/
  | reschedule {v schedule} : Pause v { v with schedule }

/-- What leads from one service to another, with the number of steps that tasks take. -/
inductive Run (v : Service σ) : Nat → Service σ → Prop
  | start : Run v 0 v
  | task {n w u} (run : Run v n w) (next : Task w u) : Run v (n + 1) u
  | pause {n w u} (run : Run v n w) (next : Pause w u) : Run v n u

/-- What the reader sends when it goes on: the message of the next line, if the bridge takes
messages. -/
def sends (v : Service σ) : List Inbound :=
  match v.source.lines with
  | [] => []
  | (_, line) :: _ =>
    if v.session.inbound.receiving then (v.framing.message? line).toList else []

/-- What leads from one service to another, with the messages that the reader has sent and what the
bridge has added to its journal. -/
inductive Trace (v : Service σ) : List Inbound → Journal σ → Service σ → Prop
  | start : Trace v [] [] v
  | bridge {sent j w u} (trace : Trace v sent j w) (h : w.bridgeStep = some u) :
      Trace v sent (j ++ w.session.noted) u
  | read {sent j w u} (trace : Trace v sent j w) (h : w.readStep = some u) :
      Trace v (sent ++ w.sends) j u
  | write {sent j w u} (trace : Trace v sent j w) (h : w.writeStep = some u) : Trace v sent j u
  | pause {sent j w u} (trace : Trace v sent j w) (h : Pause w u) : Trace v sent j u

/-- The bridge is to look at its load or at its call: it has let others run first, or its time has
come. -/
def due (v : Service σ) : Bool :=
  v.session.yields || v.session.timer.any (· ≤ v.session.now)

/-- A task can do something; the bridge, once it has the turn that is due. -/
inductive Able (v : Service σ) : Prop
  | task {w} (h : Task v w)
  | turn {w} (hd : v.due = true)
      (h : ({ v with session := v.session.wake } : Service σ).bridgeStep = some w)

/-- The service at another time. -/
def onClock (v : Service σ) (now : Nat) : Service σ :=
  { v with session := { v.session with now } }

/-- The service is not at a standstill: a task can do something, or the next timer will go off; and
when enough time has passed a task can do something in any case. -/
structure Live (v : Service σ) : Prop where
  next : v.Able ∨ ∃ t, v.timer = some t ∧ v.session.now < t
  later : ∃ now, v.session.now ≤ now ∧ (v.onClock now).Able

/-- The reader leaves: nothing more is read and nothing more is sent. -/
def hangUp (v : Service σ) : Service σ :=
  { v with
    source := ⟨[], v.source.closes⟩
    session := { v.session with inbound := v.session.inbound.closeSender } }

/-- The reader passes to the next line. -/
def nextLine (v : Service σ) (rest : List (Nat × String)) : Service σ :=
  { v with source := { v.source with lines := rest } }

/-- What the reader can do. -/
inductive Reads (v : Service σ) : Service σ → Prop
  | finish (hl : v.source.lines = []) (hs : v.session.inbound.sending = true) : Reads v v.hangUp
  | skip {t line rest} (hl : v.source.lines = (t, line) :: rest)
      (hm : v.framing.message? line = none) : Reads v (v.nextLine rest)
  /-- The bridge has ended. -/
  | abandon {t line rest m} (hl : v.source.lines = (t, line) :: rest)
      (hm : v.framing.message? line = some m) (hr : v.session.inbound.receiving = false) :
      Reads v v.hangUp
  | send {t line rest m} (hl : v.source.lines = (t, line) :: rest)
      (hm : v.framing.message? line = some m) (hr : v.session.inbound.receiving = true)
      (hc : v.session.inbound.hasRoom = true) :
      Reads v { v.nextLine rest with
        session := { v.session with inbound := v.session.inbound.push m } }

variable {v w : Service σ}

omit [Interpreter σ] in
theorem readStep_reads (h : v.readStep = some w) : v.Reads w := by
  unfold readStep at h
  dsimp only at h
  split at h
  next hl =>
    split at h
    next hclosed =>
      obtain rfl := Option.some.inj h
      obtain ⟨hs, -⟩ : v.session.inbound.sending = true ∧ _ := by simpa using hclosed
      exact .finish hl hs
    · cases h
  next t line rest hl =>
    split at h
    · cases h
    split at h
    next hm =>
      obtain rfl := Option.some.inj h
      exact .skip hl hm
    next m hm =>
      split at h
      next hr =>
        obtain rfl := Option.some.inj h
        exact .abandon hl hm (by simpa using hr)
      next hr =>
        split at h
        next hc =>
          obtain rfl := Option.some.inj h
          exact .send hl hm (by simpa using hr) hc
        · cases h

omit [Interpreter σ] in
/-- What the output does: it takes the oldest message and writes it, and leaves if that fails. -/
theorem writeStep_writes (h : v.writeStep = some w) :
    ∃ m rest, v.session.outbound.items = m :: rest ∧
      (w.sink, w.failure) = v.sink.put ((v.framing.pieces m).map Text.utf8) ∧
      w.source = v.source ∧ w.framing = v.framing ∧ w.schedule = v.schedule ∧
      (w.failure = none → w.session =
        { v.session with outbound := { v.session.outbound with items := rest } }) := by
  obtain ⟨⟨m, outbound⟩, hm, rfl⟩ := Option.map_eq_some_iff.1 h
  obtain ⟨rest, hitems, rfl⟩ := Channel.take?_eq_some hm
  refine ⟨m, rest, hitems, ?_⟩
  dsimp only
  split
  · exact ⟨rfl, rfl, rfl, rfl, fun _ => rfl⟩
  next hfailed =>
    exact ⟨rfl, rfl, rfl, rfl,
      fun hfine => absurd (Option.isNone_iff_eq_none.2 hfine) hfailed⟩

omit [Interpreter σ] in
/-- What the output does with a writer that takes everything. -/
theorem writeStep_accepting (hroom : v.sink.room = none) (h : v.writeStep = some w) :
    ∃ m rest, v.session.outbound.items = m :: rest ∧
      w.session = { v.session with outbound := { v.session.outbound with items := rest } } ∧
      w.source = v.source ∧ w.framing = v.framing ∧ w.failure = none ∧ w.sink.room = none ∧
      w.sink.bytes = v.sink.bytes ++ ((v.framing.pieces m).map Text.utf8).flatten := by
  obtain ⟨m, rest, hitems, hput, hsource, hframing, -, hsession⟩ := writeStep_writes h
  obtain ⟨hfine, hroom', hbytes⟩ := Sink.put_accepting hroom ((v.framing.pieces m).map Text.utf8)
  rw [← hput] at hfine hroom' hbytes
  exact ⟨m, rest, hitems, hsession hfine, hsource, hframing, hfine, hroom', hbytes⟩

/-- What holds as long as the output works. -/
structure Staffed (registry : Registry σ) (settings : BridgeSettings) (v : Service σ) : Prop where
  registry_eq : v.session.registry = registry
  settings_eq : v.session.bridge.settings = settings
  unreleased : v.session.releases = []
  working : v.failure = none
  listened : v.session.outbound.receiving = true
  heard : v.session.inbound.receiving = !v.session.stopped
  inRoom : 0 < v.session.inbound.capacity
  outRoom : 0 < v.session.outbound.capacity
  /-- The reader leaves at the end of the input alone. -/
  closed : v.session.inbound.sending = false → v.source.lines = []

/-- What holds as long as the writer takes everything. -/
structure Sound (registry : Registry σ) (settings : BridgeSettings) (v : Service σ) : Prop
    extends v.Staffed registry settings where
  accepts : v.sink.room = none

variable {registry : Registry σ} {settings : BridgeSettings}

theorem Staffed.bridge (h : v.Staffed registry settings) (hb : v.bridgeStep = some w) :
    w.Staffed registry settings := by
  obtain ⟨t, ht, rfl⟩ := Option.map_eq_some_iff.1 hb
  have hkeeps := Session.advance_keeps ht
  refine ⟨hkeeps.registry_eq.trans h.registry_eq, hkeeps.settings_eq.trans h.settings_eq,
    hkeeps.unreleased h.unreleased, h.working, hkeeps.receiving_eq.trans h.listened,
    ?_, hkeeps.inCapacity_eq ▸ h.inRoom, hkeeps.outCapacity_eq ▸ h.outRoom,
    fun hs => h.closed (hkeeps.sending_eq ▸ hs)⟩
  rcases hkeeps.stays with ⟨hstopped, hr⟩ | ⟨hstopped, hr⟩
  · change t.inbound.receiving = !t.stopped
    rw [hstopped, hr, h.heard]
  · change t.inbound.receiving = !t.stopped
    rw [hstopped, hr]
    rfl

omit [Interpreter σ] in
theorem Staffed.read (h : v.Staffed registry settings) (hr : v.readStep = some w) :
    w.Staffed registry settings := by
  cases readStep_reads hr with
  | finish hl hs => exact { h with closed := fun _ => rfl }
  | skip hl hm => exact { h with closed := fun hs => absurd (h.closed hs) (by simp [hl]) }
  | abandon hl hm hr => exact { h with closed := fun _ => rfl }
  | send hl hm hr hc => exact { h with closed := fun hs => absurd (h.closed hs) (by simp [hl]) }

omit [Interpreter σ] in
theorem Staffed.write (h : v.Staffed registry settings) (hw : v.writeStep = some w)
    (hfine : w.failure = none) : w.Staffed registry settings := by
  obtain ⟨m, rest, -, -, hsource, -, -, hsession⟩ := writeStep_writes hw
  obtain ⟨h1, h2, h3, -, h4, h5, h6, h7, h8⟩ := h
  constructor <;> simpa only [hsession hfine, hsource]

theorem Sound.task (h : v.Sound registry settings) (next : Task v w) :
    w.Sound registry settings := by
  cases next with
  | bridge hb =>
    have hstaffed := h.toStaffed.bridge hb
    obtain ⟨t, ht, rfl⟩ := Option.map_eq_some_iff.1 hb
    exact ⟨hstaffed, h.accepts⟩
  | read hr =>
    have hstaffed := h.toStaffed.read hr
    cases readStep_reads hr <;> exact ⟨hstaffed, h.accepts⟩
  | write hw =>
    obtain ⟨m, rest, -, -, -, -, hfine, hroom, -⟩ := writeStep_accepting h.accepts hw
    exact ⟨h.toStaffed.write hw hfine, hroom⟩

omit [Interpreter σ] in
theorem Staffed.pause (h : v.Staffed registry settings) (next : Pause v w) :
    w.Staffed registry settings := by
  cases next with
  | wake =>
    unfold Session.wake
    split
    · exact { h with }
    · exact h
  | elapse => exact { h with }
  | reschedule => exact { h with }

omit [Interpreter σ] in
theorem Sound.pause (h : v.Sound registry settings) (next : Pause v w) :
    w.Sound registry settings := by
  refine ⟨h.toStaffed.pause next, ?_⟩
  cases next <;> exact h.accepts

omit [Interpreter σ] in
private theorem capacity_pos (settings : BridgeSettings) : 0 < settings.capacity := by
  unfold BridgeSettings.capacity
  omega

omit [Interpreter σ] in
theorem staffed_create {framing : Framing} {first : Option Control} {source : Source}
    {room : Option Nat} :
    (create registry settings framing first source room).Staffed registry settings := by
  have hcapacity := capacity_pos settings
  cases first with
  | none => exact ⟨rfl, rfl, rfl, rfl, rfl, rfl, hcapacity, hcapacity, nofun⟩
  | some c => exact ⟨rfl, rfl, rfl, rfl, rfl, rfl, hcapacity, hcapacity, nofun⟩

theorem Run.sound {framing : Framing} {first : Option Control} {source : Source} {n : Nat}
    (run : Run (create registry settings framing first source none) n v) :
    v.Sound registry settings := by
  induction run with
  | start => exact ⟨staffed_create, rfl⟩
  | task _ next ih => exact ih.task next
  | pause _ next ih => exact ih.pause next

omit [Interpreter σ] in
/-- When the next line is there, or the end of the input. -/
def arrival (v : Service σ) : Option Nat :=
  match v.source.lines with
  | (t, _) :: _ => some t
  | [] => if v.session.inbound.sending then some v.source.closes else none

theorem Able.live (h : v.Able) : v.Live := ⟨.inl h, v.session.now, Nat.le_refl _, h⟩

/-- A line that has come is read, if the channel is empty. -/
theorem able_of_arrival {t : Nat} (h : v.Staffed registry settings)
    (hs : v.session.stopped = false) (hi : v.session.inbound.items = [])
    (ha : v.arrival = some t) (ht : t ≤ v.session.now) : v.Able := by
  suffices hread : ∃ w, v.readStep = some w by
    obtain ⟨w, hw⟩ := hread
    exact .task (.read hw)
  have hreceiving : v.session.inbound.receiving = true := by simpa [hs] using h.heard
  have hroom : v.session.inbound.hasRoom = true := by
    simpa [Channel.hasRoom, hi] using h.inRoom
  unfold arrival at ha
  unfold readStep
  dsimp only
  split at ha
  next t' line rest hl =>
    obtain rfl := Option.some.inj ha
    simp only [hl, Nat.not_lt.2 ht, if_false]
    cases v.framing.message? line with
    | none => exact ⟨_, rfl⟩
    | some m => simp [hreceiving, hroom]
  next hl =>
    split at ha
    next hsending =>
      obtain rfl := Option.some.inj ha
      simp [hl, hsending, ht]
    · cases ha

/-- A bridge that cannot go on waits for a message, for its load or for its call. -/
theorem Staffed.advance_eq_none (h : v.Staffed registry settings) (hs : v.session.stopped = false)
    (ho : v.session.outbound.items = []) (hn : v.session.advance = none) :
    v.session.agenda = [] ∧
      (v.session.job = .none ∧ v.session.inbound.items = [] ∧
          v.session.inbound.sending = true ∨
        (∃ x p deadline, v.session.job = .loading x p deadline true ∧
          v.session.inbound.items = []) ∨
        ∃ since x, v.session.job = .calling since x) := by
  have hroom : v.session.outbound.hasRoom = true := by
    simpa [Channel.hasRoom, ho] using h.outRoom
  exact Session.advance_eq_none hs h.listened hroom hn

/-- When its time has come the bridge goes on. -/
theorem able_of_timer {t : Nat} (ht : v.session.timer = some t) (hle : t ≤ v.session.now) :
    v.Able := by
  have hdue : v.due = true := by simp [due, ht, hle]
  unfold Session.timer at ht
  split at ht
  · cases ht
  next hidle =>
    obtain ⟨hs, ha⟩ : v.session.stopped = false ∧ v.session.agenda = [] := by simpa using hidle
    cases hj : v.session.job with
    | none => simp [hj] at ht
    | loading x p deadline seen =>
      refine .turn hdue (w := { v with session := v.session.wake.look x p deadline }) ?_
      simp [bridgeStep, Session.wake, Session.advance, hs, ha, hj]
    | calling since x =>
      obtain rfl : since + x.millis = t := by simpa [hj] using ht
      refine .task (.bridge (w := { v with session := v.session.finishCall x }) ?_)
      simp [bridgeStep, Session.advance, hs, ha, hj, hle]

omit [Interpreter σ] in
theorem timer_eq (v : Service σ) :
    v.timer =
      match v.arrival.filter (v.session.now < ·), v.session.timer with
      | some a, some b => some (min a b)
      | a, b => a <|> b := by
  unfold timer arrival
  cases v.session.timer <;> cases v.source.lines with
  | nil =>
    by_cases hs : v.session.inbound.sending = true
    · by_cases hlt : v.session.now < v.source.closes <;> simp [Option.filter, hs, hlt]
    · simp [hs]
  | cons line rest => by_cases hlt : v.session.now < line.1 <;> simp [Option.filter, hlt]

omit [Interpreter σ] in
/-- The next timer goes off when the bridge is to go on, or when something comes in before that. -/
theorem timer_of_session {t : Nat} (ht : v.session.timer = some t) (hlt : v.session.now < t) :
    ∃ t', v.timer = some t' ∧ v.session.now < t' := by
  rw [timer_eq, ht]
  cases ha : v.arrival.filter (v.session.now < ·) with
  | none => exact ⟨t, rfl, hlt⟩
  | some a =>
    obtain ⟨-, hle⟩ := Option.filter_eq_some_iff.1 ha
    exact ⟨min a t, rfl, by simp at hle; omega⟩

omit [Interpreter σ] in
theorem timer_of_arrival {t : Nat} (ht : v.session.timer = none) (ha : v.arrival = some t)
    (hlt : v.session.now < t) : v.timer = some t := by
  rw [timer_eq, ht, ha]
  simp [hlt]

/-- Whatever the capacity of the channels, and however much the bridge has to say, a service that
has not come to its end is not at a standstill. -/
theorem Staffed.live (h : v.Staffed registry settings) (he : v.ended = false) : v.Live := by
  cases hout : v.session.outbound.items with
  | cons m rest =>
    have hwrite : v.writeStep.isSome = true := by simp [writeStep, Channel.take?, hout]
    obtain ⟨w, hw⟩ := Option.isSome_iff_exists.1 hwrite
    exact Able.live (.task (.write hw))
  | nil =>
    have hs : v.session.stopped = false := by simpa [ended, h.working, hout] using he
    cases hadvance : v.session.advance with
    | some s =>
      have hstep : v.bridgeStep = some { v with session := s } := by simp [bridgeStep, hadvance]
      exact Able.live (.task (.bridge hstep))
    | none =>
      -- Nothing is left to do, so that only time or the reader can help.
      have later (hsome : v.session.timer.isSome = true) : v.Live := by
        obtain ⟨t, ht⟩ := Option.isSome_iff_exists.1 hsome
        by_cases hle : t ≤ v.session.now
        · exact (able_of_timer ht hle).live
        · have hlt := Nat.lt_of_not_le hle
          have hthen : (v.onClock t).Able := able_of_timer (t := t) ht (Nat.le_refl t)
          exact ⟨.inr (timer_of_session ht hlt), t, Nat.le_of_lt hlt, hthen⟩
      obtain ⟨ha, ⟨hj, hi, hsending⟩ | ⟨x, p, deadline, hj, -⟩ | ⟨since, x, hj⟩⟩ :=
        h.advance_eq_none hs hout hadvance
      · have htimer : v.session.timer = none := by simp [Session.timer, hj]
        obtain ⟨t, ht⟩ : ∃ t, v.arrival = some t := by
          unfold arrival
          split
          · exact ⟨_, rfl⟩
          · simp [hsending]
        by_cases hle : t ≤ v.session.now
        · exact (able_of_arrival h hs hi ht hle).live
        · have hlt := Nat.lt_of_not_le hle
          have hclock : (v.onClock t).Staffed registry settings := { h with }
          have hthen : (v.onClock t).Able := able_of_arrival hclock hs hi ht (Nat.le_refl t)
          exact ⟨.inr ⟨t, timer_of_arrival htimer ht hlt, hlt⟩, t, Nat.le_of_lt hlt, hthen⟩
      · exact later (by simp [Session.timer, hs, ha, hj])
      · exact later (by simp [Session.timer, hs, ha, hj])

omit [Interpreter σ] in
theorem sending_of_line {line : Nat × String} {rest : List (Nat × String)}
    (hclosed : v.session.inbound.sending = false → v.source.lines = [])
    (hl : v.source.lines = line :: rest) : v.session.inbound.sending = true := by
  by_contra hsending
  simpa [hl] using hclosed (by simpa using hsending)

theorem session_read (hclosed : v.session.inbound.sending = false → v.source.lines = [])
    (hread : v.readStep = some w) : Session.Run v.session [] w.session := by
  cases readStep_reads hread with
  | finish | abandon => exact .single .close
  | skip => exact .start
  | send hl hm hr hc => exact .single (.send (sending_of_line hclosed hl) hr hc)

theorem session_write (hw : v.writeStep = some w) : Session.Run v.session [] w.session := by
  obtain ⟨⟨m, outbound⟩, hm, rfl⟩ := Option.map_eq_some_iff.1 hw
  have collected : Session.Run v.session [] { v.session with outbound } := .single (.collect hm)
  dsimp only
  split
  · exact collected
  · exact collected.step .disconnect

/-- To the bridge, what the tasks do are steps of a session. -/
theorem Staffed.session_task (h : v.Staffed registry settings) (next : Task v w) :
    ∃ j, Session.Run v.session j w.session := by
  cases next with
  | bridge hb =>
    obtain ⟨t, ht, rfl⟩ := Option.map_eq_some_iff.1 hb
    exact Session.advance_run ht
  | read hr => exact ⟨_, session_read h.closed hr⟩
  | write hw => exact ⟨_, session_write hw⟩

theorem Pause.session (next : Pause v w) : Session.Run v.session [] w.session := by
  cases next with
  | wake =>
    unfold Session.wake
    split
    next hj => exact .single (.linger hj)
    · exact .start
  | elapse => exact .single .elapse
  | reschedule => exact .start

theorem session_create {framing : Framing} {first : Option Control} {source : Source}
    {room : Option Nat} : Session.Run (.create registry settings) []
      (create registry settings framing first source room).session := by
  cases first with
  | none => exact .start
  | some c =>
    have hroom : (Session.create registry settings).inbound.hasRoom = true := by
      simp [Session.create, Channel.hasRoom, capacity_pos]
    exact .single (.send rfl rfl hroom)

theorem Run.session {framing : Framing} {first : Option Control} {source : Source} {n : Nat}
    (run : Run (create registry settings framing first source none) n v) :
    ∃ j, Session.Run (.create registry settings) j v.session := by
  induction run with
  | start => exact ⟨_, session_create⟩
  | task run next ih =>
    obtain ⟨j, hj⟩ := ih
    obtain ⟨k, hk⟩ := run.sound.session_task next
    exact ⟨_, hj.trans hk⟩
  | pause _ next ih =>
    obtain ⟨j, hj⟩ := ih
    exact ⟨_, hj.trans next.session⟩

theorem Run.trans {u : Service σ} {n m : Nat} (first : Run v n w) (second : Run w m u) :
    Run v (n + m) u := by
  induction second with
  | start => exact first
  | task _ next ih => exact ih.task next
  | pause _ next ih => exact ih.pause next

/-- Whatever the tasks do, there is a trace of it. -/
theorem Run.trace {n : Nat} (run : Run v n w) : ∃ sent j, Trace v sent j w := by
  induction run with
  | start => exact ⟨_, _, .start⟩
  | task _ next ih =>
    obtain ⟨sent, j, trace⟩ := ih
    cases next with
    | bridge h => exact ⟨_, _, trace.bridge h⟩
    | read h => exact ⟨_, _, trace.read h⟩
    | write h => exact ⟨_, _, trace.write h⟩
  | pause _ next ih =>
    obtain ⟨sent, j, trace⟩ := ih
    exact ⟨_, _, trace.pause next⟩

theorem Trace.trans {u : Service σ} {sent more : List Inbound} {j k : Journal σ}
    (first : Trace v sent j w) (second : Trace w more k u) :
    Trace v (sent ++ more) (j ++ k) u := by
  induction second with
  | start => simpa using first
  | bridge _ h ih => simpa only [List.append_assoc] using ih.bridge h
  | read _ h ih => simpa only [List.append_assoc] using ih.read h
  | write _ h ih => exact ih.write h
  | pause _ h ih => exact ih.pause h

theorem Trace.run {sent : List Inbound} {j : Journal σ} (trace : Trace v sent j w) :
    ∃ n, Run v n w := by
  induction trace with
  | start => exact ⟨_, .start⟩
  | bridge _ h ih =>
    obtain ⟨n, run⟩ := ih
    exact ⟨_, run.task (.bridge h)⟩
  | read _ h ih =>
    obtain ⟨n, run⟩ := ih
    exact ⟨_, run.task (.read h)⟩
  | write _ h ih =>
    obtain ⟨n, run⟩ := ih
    exact ⟨_, run.task (.write h)⟩
  | pause _ h ih =>
    obtain ⟨n, run⟩ := ih
    exact ⟨_, run.pause h⟩

private theorem trace_wakeBridge (v : Service σ) (needed : Bool) :
    Trace v [] [] (v.wakeBridge needed) := by
  unfold wakeBridge
  dsimp only
  split
  · exact (Trace.start.pause .wake).pause .reschedule
  · exact .start

private theorem trace_wakeReader (v : Service σ) (needed : Bool) :
    Trace v [] [] (v.wakeReader needed) := by
  unfold wakeReader
  dsimp only
  split
  · exact Trace.start.pause .reschedule
  · exact .start

private theorem trace_outputTurn (v : Service σ) : Trace v [] [] v.outputTurn := by
  unfold outputTurn
  split
  · exact Trace.start.pause .reschedule
  next w hw => exact (Trace.start.write hw).trans (trace_wakeBridge _ _)

private theorem trace_bridgeTurn (v : Service σ) :
    Trace v [] (if v.session.advance.isSome then v.session.noted else []) v.bridgeTurn := by
  unfold bridgeTurn
  cases hs : v.session.advance with
  | none => exact Trace.start.pause .reschedule
  | some s =>
    have hbridge : v.bridgeStep = some { v with session := s } := by simp [bridgeStep, hs]
    simpa using ((Trace.start.bridge hbridge).pause .reschedule).trans (trace_wakeReader _ _)

private theorem trace_readerTurn (v : Service σ) : ∃ sent, Trace v sent [] v.readerTurn := by
  unfold readerTurn
  split
  · exact ⟨_, Trace.start.pause .reschedule⟩
  next w hw => exact ⟨_, (Trace.start.read hw).trans (trace_wakeBridge _ _)⟩

/-- What the bridge adds to its journal in one step of the service. -/
def noted (v : Service σ) : Journal σ :=
  let k := v.schedule
  if v.ended || k.writing || decide (Schedule.interval ≤ k.turns) then []
  else
    match k.queue with
    | .bridge :: _ => if v.session.advance.isSome then v.session.noted else []
    | _ => []

/-- The schedule does nothing but give the tasks their turns. -/
theorem trace_of_step (h : v.step = some w) : ∃ sent, Trace v sent v.noted w := by
  have round : Trace v [] [] ({ v with schedule := v.schedule.round }.wakeBridge
      v.schedule.deferred) :=
    (Trace.start.pause .reschedule).trans (trace_wakeBridge _ _)
  unfold step at h
  dsimp only at h
  split at h
  · cases h
  next hended =>
  split at h
  next hwriting =>
    have hnoted : v.noted = [] := by simp [noted, hwriting]
    obtain rfl := Option.some.inj h
    exact ⟨_, hnoted ▸ trace_outputTurn v⟩
  next hwriting =>
  split at h
  next hinterval =>
    have hnoted : v.noted = [] := by simp [noted, hinterval]
    obtain rfl := Option.some.inj h
    exact ⟨_, hnoted ▸ round⟩
  next hinterval =>
  split at h
  next hq =>
    have hnoted : v.noted = if v.session.advance.isSome then v.session.noted else [] := by
      simp [noted, hended, hwriting, hinterval, hq]
    obtain rfl := Option.some.inj h
    exact ⟨_, hnoted ▸ trace_bridgeTurn v⟩
  next hq =>
    have hnoted : v.noted = [] := by simp [noted, hq]
    obtain rfl := Option.some.inj h
    exact hnoted ▸ trace_readerTurn v
  next hq =>
    have hnoted : v.noted = [] := by simp [noted, hq]
    rw [hnoted]
    split at h
    · obtain rfl := Option.some.inj h
      exact ⟨_, round⟩
    obtain ⟨u, hu, rfl⟩ := Option.map_eq_some_iff.1 h
    obtain ⟨now, -, rfl⟩ := Option.map_eq_some_iff.1 hu
    have elapsed : Trace v [] [] (v.onClock now) := Trace.start.pause .elapse
    exact ⟨_, (elapsed.pause .reschedule).trans
      ((trace_wakeBridge _ _).trans (trace_wakeReader _ _))⟩

/-- The journal of the bridge while the service takes so many steps. -/
def journalFor : Nat → Service σ → Journal σ
  | 0, _ => []
  | fuel + 1, v =>
    match v.step with
    | none => []
    | some w => v.noted ++ journalFor fuel w

/-- The journal of the bridge while the stream is served. -/
def journal (v : Service σ) : Journal σ := journalFor v.effort v

theorem trace_runFor (fuel : Nat) (v : Service σ) :
    ∃ sent, Trace v sent (v.journalFor fuel) (v.runFor fuel) := by
  induction fuel generalizing v with
  | zero => exact ⟨_, .start⟩
  | succ fuel ih =>
    cases hstep : v.step with
    | none =>
      simp only [runFor, journalFor, hstep]
      exact ⟨_, .start⟩
    | some w =>
      obtain ⟨sent, first⟩ := trace_of_step hstep
      obtain ⟨more, rest⟩ := ih w
      simp only [runFor, journalFor, hstep]
      exact ⟨_, first.trans rest⟩

theorem run_runFor (fuel : Nat) (v : Service σ) : ∃ n, Run v n (v.runFor fuel) := by
  obtain ⟨sent, trace⟩ := trace_runFor fuel v
  exact trace.run

end Service

end EngineBridge
