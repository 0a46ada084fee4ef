import EngineBridge.Proofs.Network
import EngineBridge.Proofs.Turns

/-!
# What a bridge does with its time

Each step of a bridge whose host is there, with what it does to the clock and to the work under
way. A load ends at its deadline. A call ends within the time of two calls, one for the call itself
and one for a recovery.
-/

namespace EngineBridge

open Journal

namespace Progress

/-- How often the work can still be looked at and go on. -/
def rounds (p : Progress) : Nat :=
  match p.wait with
  | .forever => 0
  | _ => p.rest.acts.length + 1

/-- Work that waits for a moment waits for one to come. -/
def Later (p : Progress) (now : Nat) : Prop := ∀ t, p.wakes = some t → now < t

/-- Work keeps its ending, and does not wait for ever unless it hangs. -/
theorem advance_ending (now : Nat) (e : Ending) (released : Bool) (acts : List Act) :
    match (advance now e released acts).1 with
    | .inl p => p.rest.ending = e ∧ (p.wait = .forever → e = .hang)
    | .inr v => e ≠ .hang ∧ v = .ofEnding e := by
  fun_induction advance now e released acts with
  | case1 released hang => exact ⟨hang.symm, fun _ => hang⟩
  | case2 released hends => exact ⟨hends, rfl⟩
  | case3 released text rest ih => exact ih
  | case4 released rest ih => exact ih
  | case7 rest ih => exact ih
  | _ =>
    refine ⟨rfl, ?_⟩
    intro h
    cases h

theorem poll_ending (p : Progress) (now : Nat) (released : Bool)
    (hp : p.wait = .forever → p.rest.ending = .hang) :
    match (p.poll now released).1 with
    | .inl q => q.rest.ending = p.rest.ending ∧ (q.wait = .forever → p.rest.ending = .hang)
    | .inr v => p.rest.ending ≠ .hang ∧ v = .ofEnding p.rest.ending := by
  unfold poll
  cases p.blocked now released with
  | true => exact ⟨rfl, hp⟩
  | false => exact advance_ending _ _ _ _

theorem advance_later {now : Nat} {ending : Ending} {released : Bool} {acts : List Act}
    {p : Progress} (h : (advance now ending released acts).1 = .inl p) :
    p.rounds ≤ acts.length ∧ p.Later now := by
  fun_induction advance now ending released acts with
  | case1 released =>
    obtain rfl := Sum.inl.inj h
    exact ⟨Nat.le_refl _, nofun⟩
  | case2 => cases h
  | case3 released text rest ih =>
    obtain ⟨hrounds, hlater⟩ := ih h
    exact ⟨Nat.le_succ_of_le hrounds, hlater⟩
  | case4 released rest ih =>
    obtain ⟨hrounds, hlater⟩ := ih h
    exact ⟨Nat.le_succ_of_le hrounds, hlater⟩
  | case5 released ms rest hms =>
    obtain rfl := Sum.inl.inj h
    refine ⟨Nat.le_refl _, ?_⟩
    intro t ht
    obtain rfl := Option.some.inj ht
    omega
  | case6 =>
    obtain rfl := Sum.inl.inj h
    exact ⟨Nat.le_refl _, nofun⟩
  | case7 rest ih =>
    obtain ⟨hrounds, hlater⟩ := ih h
    exact ⟨Nat.le_succ_of_le hrounds, hlater⟩
  | case8 =>
    obtain rfl := Sum.inl.inj h
    exact ⟨Nat.le_refl _, nofun⟩

/-- Work that is looked at and has no end yet is blocked, or one round is over. -/
theorem poll_later {p p' : Progress} {now : Nat} {released : Bool}
    (h : (p.poll now released).1 = .inl p') :
    p'.Later now ∧ (p' = p ∧ p.blocked now released = true ∨ p'.rounds < p.rounds) := by
  unfold poll at h
  split at h
  next hblocked =>
    obtain rfl := Sum.inl.inj h
    refine ⟨?_, .inl ⟨rfl, hblocked⟩⟩
    intro t ht
    unfold wakes at ht
    unfold blocked at hblocked
    cases hw : p.wait <;> simp_all
  next hfree =>
    obtain ⟨hrounds, hlater⟩ := advance_later h
    refine ⟨hlater, .inr ?_⟩
    have hp : p.rounds = p.rest.acts.length + 1 := by
      unfold rounds
      unfold blocked at hfree
      cases hw : p.wait <;> simp_all
    omega

end Progress

variable {σ : Type} [Interpreter σ]

namespace Adapter

theorem abandon_limit (a : Adapter σ) (millis : Nat) (e : EngineError) :
    (a.abandon millis e).after.execTimeout = a.execTimeout ∧
      (a.abandon millis e).millis ≤ millis + a.execTimeout := by
  let cleared := { a with output := a.output.clear }
  have hmillis : cleared.recover.2.1 ≤ a.execTimeout := by
    unfold recover
    rcases Interpreter.recover cleared.engine with - | ⟨script, engine⟩
    · exact Nat.zero_le _
    · have hwithin := script.within_millis_le a.execTimeout
      dsimp only
      cases (script.within cleared.execTimeout).verdict <;> exact hwithin
  exact ⟨(recover_frame cleared).2, Nat.add_le_add_left hmillis millis⟩

/-- A call and its recovery take no longer than two calls may. -/
theorem execute_limit (a : Adapter σ) (context : Nat) (command : String) :
    (a.execute context command).after.execTimeout = a.execTimeout ∧
      (a.execute context command).millis ≤ 2 * a.execTimeout := by
  have hwithin := (Interpreter.execute a.engine context command).script.within_millis_le
    a.execTimeout
  unfold execute
  cases a.unusable with
  | some reason => exact ⟨rfl, Nat.zero_le _⟩
  | none =>
    dsimp only
    have abandoned (b : Adapter σ) (e : EngineError) (hb : b.execTimeout = a.execTimeout) :
        (b.abandon ((Interpreter.execute a.engine context command).script.within
            a.execTimeout).millis e).after.execTimeout = a.execTimeout ∧
          (b.abandon ((Interpreter.execute a.engine context command).script.within
            a.execTimeout).millis e).millis ≤ 2 * a.execTimeout := by
      obtain ⟨hlimit, hmillis⟩ := abandon_limit b
        ((Interpreter.execute a.engine context command).script.within a.execTimeout).millis e
      exact ⟨hlimit.trans hb, by omega⟩
    cases ((Interpreter.execute a.engine context command).script.within a.execTimeout).verdict with
    | done | fault e =>
      refine ⟨rfl, ?_⟩
      simp only [finish]
      omega
    | panic p | late => exact abandoned _ _ rfl

end Adapter

namespace Bridge

/-- What holds of the adapter at rest, and of those that are to be called. -/
structure Engines {α : Type} (P : α → Prop) (b : Bridge α) (effects : List (Effect α)) : Prop where
  resting : ∀ name a, b.phase = .ready name a → P a
  called : ∀ a text, .call a text ∈ effects → P a

end Bridge

/-- The adapter that an event hands over. -/
def BridgeEvent.engine? {α : Type} : BridgeEvent α → Option α
  | .loaded (.ok a) => some a
  | .answered a _ => some a
  | _ => none

namespace Bridge

variable {α : Type} {P : α → Prop} {b : Bridge α}

theorem engines_proceed (name : String) {a : α} (ha : P a) :
    Engines P (b.proceed name a).1 (b.proceed name a).2 := by
  obtain ⟨settings, phase, pending⟩ := b
  cases pending with
  | nil => exact ⟨by rintro _ _ ⟨⟩; exact ha, by simp [proceed]⟩
  | cons text rest => exact ⟨by simp [proceed], by simp [proceed, ha]⟩

theorem engines_receive (h : Engines P b []) (m : Inbound) :
    Engines P (b.receive m).1 (b.receive m).2 := by
  obtain ⟨settings, phase, pending⟩ := b
  cases m with
  | malformed reason => exact ⟨h.resting, by simp [receive]⟩
  | command text =>
    cases phase with
    | ready name a =>
      have ha : P a := h.resting name a rfl
      exact ⟨by simp [receive, command], by simp [receive, command, ha]⟩
    | uninitialized | loading name =>
      unfold receive command defer
      dsimp only
      split
      · exact ⟨h.resting, by simp⟩
      · split <;> exact ⟨by simp, by simp⟩
    | running name | failed name e =>
      exact ⟨by simp [receive, command], by simp [receive, command]⟩
  | control c =>
    cases c with
    | status => exact ⟨h.resting, by simp [receive]⟩
    | start module =>
      cases phase with
      | uninitialized =>
        cases hm : module.or settings.defaultModule with
        | none => exact ⟨by simp [receive, start, hm, fail], by simp [receive, start, hm, fail]⟩
        | some name => exact ⟨by simp [receive, start, hm], by simp [receive, start, hm]⟩
      | _ => exact ⟨h.resting, by simp [receive, start]⟩

/-- A bridge has no adapter but the one that it was handed last. -/
theorem engines_step (h : Engines P b []) {e : BridgeEvent α} (he : ∀ a, e.engine? = some a → P a) :
    Engines P (b.step e).1 (b.step e).2 := by
  cases e with
  | received m => exact engines_receive h m
  | loaded result =>
    cases hp : b.phase with
    | loading name =>
      cases result with
      | ok a =>
        have ha : P a := he a rfl
        obtain ⟨hresting, hcalled⟩ := engines_proceed (b := b) name ha
        simp only [step, hp]
        exact ⟨hresting, by simpa using hcalled⟩
      | error err =>
        simp only [step, hp]
        exact ⟨by simp [fail], by simp [fail]⟩
    | _ =>
      simp only [step, hp]
      exact h
  | answered a result =>
    cases hp : b.phase with
    | running name =>
      have ha : P a := he a rfl
      obtain ⟨hresting, hcalled⟩ := engines_proceed (b := b) name ha
      simp only [step, hp]
      exact ⟨hresting, by simpa using hcalled⟩
    | _ =>
      simp only [step, hp]
      exact h

end Bridge

namespace Session

/-- What one step of a bridge can be whose host is there. -/
inductive Goes (s : Session σ) : Session σ → Prop
  | publish {c rest} (ha : s.agenda = .publish c :: rest) :
      Goes s { s with agenda := rest, events := (s.events.publish c).1 }
  | post {m rest} (ha : s.agenda = .post m :: rest) :
      Goes s { s with agenda := rest, outbound := s.outbound.push m }
  | request {name x} (ha : s.agenda = [.load name]) (hx : s.registry.find? name = some x) :
      Goes s ({ s with agenda := [] }.beginLoad name)
  | refuse {name} (ha : s.agenda = [.load name]) (hx : s.registry.find? name = none) :
      Goes s ({ s with agenda := [] }.feed (.loaded (.error (.unknownModule name))))
  | call {a text} (ha : s.agenda = [.call a text]) :
      Goes s ({ s with agenda := [] }.beginCall a text)
  | take {m rest} (ha : s.agenda = []) (hj : s.job = .none) (hi : s.inbound.items = m :: rest) :
      Goes s ({ s with inbound := { s.inbound with items := rest } }.feed (.received m))
  /-- A message comes while a load waits, which is then looked at again. -/
  | interrupt {x p deadline m rest} (ha : s.agenda = []) (hj : s.job = .loading x p deadline true)
      (hi : s.inbound.items = m :: rest) :
      Goes s ({ s with
        inbound := { s.inbound with items := rest }
        job := .loading x p deadline false }.feed (.received m))
  /-- A load is looked at and has to wait. -/
  | wait {x p p' deadline releases} (ha : s.agenda = []) (hj : s.job = .loading x p deadline false)
      (hd : s.now < deadline) (hl : p'.Later s.now)
      (hp : p' = p ∧ p.blocked s.now (s.releases.contains x.serial) = true ∨
        p'.rounds < p.rounds) :
      Goes s { s with releases, job := .loading x p' deadline true }
  | loaded {x p deadline releases result} (ha : s.agenda = [])
      (hj : s.job = .loading x p deadline false)
      (hr : ∀ a, result = .ok a → a.execTimeout = s.bridge.settings.execTimeout) :
      Goes s ({ s with releases, job := .none }.feed (.loaded result))
  | answered {since x result} (ha : s.agenda = []) (hj : s.job = .calling since x) :
      Goes s ({ s with job := .none }.feed (.answered x.after result))
  | stop {releases crash} (ha : s.agenda = []) : Goes s { s.stop with releases, crash }

variable {settings : BridgeSettings} {registry : Registry σ} {s t : Session σ} {j : Journal σ}

private theorem goes_look {x : Registration σ} {p : Progress} {deadline : Nat}
    (ha : s.agenda = []) (hj : s.job = .loading x p deadline false) :
    s.Goes (s.look x p deadline) := by
  have hlimit (verdict : Verdict) (a : Adapter σ)
      (h : x.module.conclude s.bridge.settings.loadTimeout s.bridge.settings.execTimeout verdict =
        .ready a) : a.execTimeout = s.bridge.settings.execTimeout := by
    cases verdict <;> cases h
    rfl
  have finish (releases : List Nat) (verdict : Verdict) :
      s.Goes ({ s with releases }.finishLoad (x.module.conclude s.bridge.settings.loadTimeout
        s.bridge.settings.execTimeout verdict)) := by
    cases hresult : x.module.conclude s.bridge.settings.loadTimeout
      s.bridge.settings.execTimeout verdict with
    | ready a =>
      refine .loaded ha hj ?_
      intro b hb
      obtain rfl := Except.ok.inj hb
      exact hlimit verdict _ hresult
    | refused e => exact .loaded ha hj nofun
    | crashed panic => exact .stop ha
  unfold look
  rcases hpoll : p.poll s.now (s.releases.contains x.serial) with ⟨result, released⟩
  have hreleases : (if released then s else { s with releases := s.releases.erase x.serial }) =
      { s with releases := if released then s.releases else s.releases.erase x.serial } := by
    cases released <;> rfl
  simp only [hreleases]
  cases result with
  | inr verdict => exact finish _ verdict
  | inl p' =>
    have hinl : (p.poll s.now (s.releases.contains x.serial)).1 = .inl p' := by rw [hpoll]
    obtain ⟨hlater, hrounds⟩ := Progress.poll_later hinl
    dsimp only
    split
    · exact finish _ .late
    next hd => exact .wait ha hj (Nat.lt_of_not_le hd) hlater hrounds

/-- With a host that is there, a bridge does nothing else. -/
theorem Faithful.goes (h : Faithful settings j s) (ho : s.outbound.receiving = true)
    (hadvance : s.advance = some t) : s.Goes t := by
  have hengaged := h.engaged
  obtain ⟨-, hmove⟩ := advance_move hadvance
  cases hmove with
  | @perform e rest t ha ht =>
    rw [ha] at hengaged
    cases e with
    | publish c =>
      obtain rfl := Option.some.inj ht
      exact .publish ha
    | post m =>
      obtain ⟨-, rfl⟩ : s.outbound.hasRoom = true ∧
          { s with agenda := rest, outbound := s.outbound.push m } = t := by
        simpa [perform, ho] using ht
      exact .post ha
    | load name =>
      obtain ⟨-, -, rfl⟩ := hengaged.of_load
      obtain rfl := Option.some.inj ht
      cases hx : s.registry.find? name with
      | some x => exact .request ha hx
      | none =>
        simp only [beginLoad, hx]
        exact .refuse ha hx
    | call a text =>
      obtain ⟨-, -, -, rfl⟩ := hengaged.of_call
      obtain rfl := Option.some.inj ht
      exact .call ha
  | exhaust ha hj hi => exact .stop ha
  | take ha hj hi ht =>
    obtain ⟨m, rest, hitems, rfl⟩ := takeMessage_eq_some ht
    exact .take ha hj hitems
  | look ha hj => exact goes_look ha hj
  | @interrupt x p deadline t ha hj ht =>
    obtain ⟨m, rest, hitems, rfl⟩ := takeMessage_eq_some ht
    simp only [wake, hj] at hitems ⊢
    exact .interrupt ha hj hitems
  | @finish since x ha hj hdue =>
    unfold finishCall
    split
    · exact .answered ha hj
    · exact .answered ha hj
    · exact .stop ha

end Session

/-- A load has its deadline no further away than a load may take, and a call takes no longer than
two calls may. -/
def Job.InTime (settings : BridgeSettings) (now : Nat) : Job σ → Prop
  | .none => True
  | .loading _ _ deadline _ => deadline ≤ now + settings.loadTimeout
  | .calling since x =>
    x.after.execTimeout = settings.execTimeout ∧ since ≤ now ∧ x.millis ≤ 2 * settings.execTimeout

omit [Interpreter σ] in
theorem Job.InTime.mono {settings : BridgeSettings} {now later : Nat} {job : Job σ}
    (h : job.InTime settings now) (hle : now ≤ later) : job.InTime settings later := by
  cases job with
  | none => trivial
  | loading x p deadline seen =>
    have hdeadline : deadline ≤ now + settings.loadTimeout := h
    have hlater : deadline ≤ later + settings.loadTimeout := by omega
    exact hlater
  | calling since x =>
    obtain ⟨hlimit, hsince, hmillis⟩ := h
    exact ⟨hlimit, Nat.le_trans hsince hle, hmillis⟩

namespace Session

variable {settings : BridgeSettings} {registry : Registry σ} {s t : Session σ} {j : Journal σ}

/-- Every adapter is under the limit of the settings, and so is the work under way. -/
structure Timed (settings : BridgeSettings) (s : Session σ) : Prop where
  settings_eq : s.bridge.settings = settings
  engines : Bridge.Engines (·.execTimeout = settings.execTimeout) s.bridge s.agenda
  inTime : s.job.InTime settings s.now

omit [Interpreter σ] in
private theorem timed_feed {e : BridgeEvent (Adapter σ)} (hb : s.bridge.settings = settings)
    (hr : ∀ name a, s.bridge.phase = .ready name a → a.execTimeout = settings.execTimeout)
    (ha : s.agenda = []) (hj : s.job.InTime settings s.now)
    (he : ∀ a, e.engine? = some a → a.execTimeout = settings.execTimeout) :
    (s.feed e).Timed settings where
  settings_eq := (Bridge.settings_step s.bridge e).trans hb
  engines := by
    have hstep := Bridge.engines_step (b := s.bridge) ⟨hr, by simp⟩ he
    simpa [feed, ha] using hstep
  inTime := hj

theorem Timed.goes (h : s.Timed settings) (next : s.Goes t) : t.Timed settings := by
  obtain ⟨hb, ⟨hresting, hcalled⟩, hjob⟩ := h
  cases next with
  | publish ha | post ha =>
    rw [ha] at hcalled
    exact ⟨hb, ⟨hresting, fun a text hm => hcalled a text (List.mem_cons_of_mem _ hm)⟩, hjob⟩
  | @request name x ha hx =>
    simp only [beginLoad, hx]
    refine ⟨hb, ⟨hresting, by simp⟩, ?_⟩
    simp [Job.InTime, hb]
  | refuse ha hx =>
    exact timed_feed (s := { s with agenda := [] }) hb hresting rfl hjob
      (by simp [BridgeEvent.engine?])
  | @call a text ha =>
    have hlimit : a.execTimeout = settings.execTimeout := hcalled a text (by simp [ha])
    obtain ⟨hafter, hmillis⟩ := a.execute_limit s.bridge.settings.contextId text
    rw [hlimit] at hafter hmillis
    exact ⟨hb, ⟨hresting, by simp [beginCall]⟩, hafter, Nat.le_refl _, hmillis⟩
  | @take m rest ha hj hi =>
    exact timed_feed (s := { s with inbound := { s.inbound with items := rest } })
      hb hresting ha hjob (by simp [BridgeEvent.engine?])
  | @interrupt x p deadline m rest ha hj hi =>
    rw [hj] at hjob
    exact timed_feed (s := { s with
      inbound := { s.inbound with items := rest }, job := .loading x p deadline false })
      hb hresting ha hjob (by simp [BridgeEvent.engine?])
  | wait ha hj hd hl hp =>
    rw [hj] at hjob
    exact ⟨hb, ⟨hresting, hcalled⟩, hjob⟩
  | @loaded x p deadline releases result ha hj hr =>
    refine timed_feed (s := { s with releases, job := .none }) hb hresting ha trivial ?_
    intro a hengine
    cases result with
    | error e => cases hengine
    | ok b =>
      obtain rfl := Option.some.inj hengine
      exact (hr b rfl).trans (congrArg BridgeSettings.execTimeout hb)
  | @answered since x result ha hj =>
    rw [hj] at hjob
    refine timed_feed (s := { s with job := .none }) hb hresting ha trivial ?_
    intro a hengine
    obtain rfl := Option.some.inj hengine
    exact hjob.1
  | stop ha => exact ⟨hb, ⟨hresting, hcalled⟩, hjob⟩

omit [Interpreter σ] in
theorem Timed.wake (h : s.Timed settings) : s.wake.Timed settings := by
  obtain ⟨hb, hengines, hjob⟩ := h
  unfold Session.wake
  split
  next hj =>
    rw [hj] at hjob
    exact ⟨hb, hengines, hjob⟩
  · exact ⟨hb, hengines, hjob⟩

/-- A session up to the moment in which its host closes the channel: the bridge goes on, the host
sends and collects, and time passes, all as it comes. -/
inductive Course (first : Registry σ) (settings : BridgeSettings) : Session σ → Prop
  | create : Course first settings (create first settings)
  | go {u v} (h : Course first settings u) (ha : u.advance = some v) : Course first settings v
  | wake {u} (h : Course first settings u) : Course first settings u.wake
  | elapse {u now registry releases} (h : Course first settings u) (hn : u.now ≤ now) :
      Course first settings { u with now, registry, releases }
  | send {u m} (h : Course first settings u) (hr : u.inbound.receiving = true)
      (hc : u.inbound.hasRoom = true) :
      Course first settings { u with inbound := u.inbound.push m }
  | collect {u m rest} (h : Course first settings u) (hm : u.outbound.take? = some (m, rest)) :
      Course first settings { u with outbound := rest }

/-- What holds as long as the host is there. -/
structure Attended (registry : Registry σ) (settings : BridgeSettings) (s : Session σ) : Prop where
  run : ∃ j, Run (.create registry settings) j s
  timed : s.Timed settings
  listened : s.outbound.receiving = true
  room : 0 < s.outbound.capacity

theorem run_wake (s : Session σ) : Run s [] s.wake := by
  unfold wake
  split
  next hj => exact .single (.linger hj)
  · exact .start

theorem Attended.go (h : s.Attended registry settings) (ha : s.advance = some t) :
    t.Attended registry settings := by
  obtain ⟨⟨j, run⟩, htimed, hlistened, hroom⟩ := h
  have hkeeps := advance_keeps ha
  obtain ⟨k, next⟩ := advance_run ha
  exact ⟨⟨_, run.trans next⟩, htimed.goes (run.faithful.goes hlistened ha),
    hkeeps.receiving_eq.trans hlistened, hkeeps.outCapacity_eq ▸ hroom⟩

theorem Attended.wake (h : s.Attended registry settings) : s.wake.Attended registry settings := by
  obtain ⟨⟨j, run⟩, htimed, hlistened, hroom⟩ := h
  refine ⟨⟨_, run.trans (run_wake s)⟩, htimed.wake, ?_, ?_⟩
  · unfold Session.wake
    split <;> exact hlistened
  · unfold Session.wake
    split <;> exact hroom

theorem Attended.elapse (h : s.Attended registry settings) {now : Nat} (hn : s.now ≤ now)
    (registry' : Registry σ) (releases : List Nat) :
    ({ s with now, registry := registry', releases } : Session σ).Attended registry settings := by
  obtain ⟨⟨j, run⟩, ⟨hb, hengines, hjob⟩, hlistened, hroom⟩ := h
  exact ⟨⟨_, run.step .elapse⟩, ⟨hb, hengines, hjob.mono hn⟩, hlistened, hroom⟩

theorem Attended.collect (h : s.Attended registry settings) {m : Outbound}
    {rest : Channel Outbound} (hm : s.outbound.take? = some (m, rest)) :
    ({ s with outbound := rest } : Session σ).Attended registry settings := by
  obtain ⟨⟨j, run⟩, htimed, hlistened, hroom⟩ := h
  obtain ⟨items, -, rfl⟩ := Channel.take?_eq_some hm
  exact ⟨⟨_, run.step (.collect hm)⟩, ⟨htimed.1, htimed.2, htimed.3⟩, hlistened, hroom⟩

theorem Course.attended (h : Course registry settings s) :
    s.Attended registry settings ∧ s.inbound.sending = true := by
  induction h with
  | create =>
    have hcapacity : 0 < settings.capacity :=
      Nat.lt_of_lt_of_le Nat.zero_lt_one (Nat.le_max_right ..)
    exact ⟨⟨⟨_, .start⟩, ⟨rfl, ⟨nofun, by simp [Session.create]⟩, trivial⟩, rfl, hcapacity⟩, rfl⟩
  | go h ha ih => exact ⟨ih.1.go ha, (advance_keeps ha).sending_eq.trans ih.2⟩
  | wake h ih =>
    refine ⟨ih.1.wake, ?_⟩
    unfold Session.wake
    split <;> exact ih.2
  | elapse h hn ih => exact ⟨ih.1.elapse hn _ _, ih.2⟩
  | send h hr hc ih =>
    obtain ⟨⟨⟨j, run⟩, htimed, hlistened, hroom⟩, hsending⟩ := ih
    exact ⟨⟨⟨_, run.step (.send hsending hr hc)⟩, ⟨htimed.1, htimed.2, htimed.3⟩, hlistened, hroom⟩,
      hsending⟩
  | collect h hm ih => exact ⟨ih.1.collect hm, ih.2⟩

end Session

end EngineBridge
