import EngineBridge.Proofs.Ledger

/-!
# After a failed load

When a load fails, the host is told so once, and once more for each command that waits. From then on
the bridge does nothing but answer: each further command is told of the same failure.
-/

namespace EngineBridge

open Journal

variable {σ : Type} {settings : BridgeSettings} {e : LoadError} {module : Option String}

namespace Journal

def failureNotice (e : LoadError) : Outbound := .notice (.error .load e.message)

/-- What is said to a message after the load of `module` has failed with `e`. -/
def denial (e : LoadError) (module : Option String) : Inbound → List Outbound
  | .command _ => [failureNotice e]
  | .control .status => [.notice (.status .failed module 0)]
  | .control (.start _) => []
  | .malformed reason => [.notice (.error .malformed (BridgeError.malformed reason).message)]

def denials (e : LoadError) (module : Option String) (messages : List Inbound) : Journal σ :=
  messages.flatMap fun m => .took m :: posts (denial e module m)

/-- The changes of state that a failure makes, where a request may have begun the load before. -/
def collapse (j : Journal σ) : List Transition :=
  if (asked j).isSome then [⟨.loading, .failed⟩]
  else [⟨.uninitialized, .loading⟩, ⟨.loading, .failed⟩]

@[simp] theorem denials_nil : denials e module [] = ([] : Journal σ) := rfl

@[simp] theorem denials_append (m n : List Inbound) :
    (denials e module (m ++ n) : Journal σ) = denials e module m ++ denials e module n :=
  List.flatMap_append

theorem denials_cons (m : Inbound) (n : List Inbound) : (denials e module (m :: n) : Journal σ) =
    .took m :: posts (denial e module m) ++ denials e module n :=
  List.flatMap_cons

@[simp] theorem requested_denials (messages : List Inbound) :
    requested (denials e module messages : Journal σ) = [] := by
  induction messages with
  | nil => rfl
  | cons m rest ih => simp [denials_cons, ih]

@[simp] theorem calls_denials (messages : List Inbound) :
    calls (denials e module messages : Journal σ) = [] := by
  induction messages with
  | nil => rfl
  | cons m rest ih => simp [denials_cons, ih]

/-- What is still to be done, as it will stand in the journal. -/
def planned (context : Nat) (agenda : List (Effect (Adapter σ))) : Journal σ :=
  agenda.map (Effect.entry context)

theorem planned_posts (context : Nat) (l : List Outbound) :
    planned context (l.map .post : List (Effect (Adapter σ))) = posts l := by
  simp [planned, posts, Effect.entry]

end Journal

variable [Interpreter σ] (context : Nat)

/-- The load has failed, and no order for a load or a call is left. -/
structure Session.Denying (e : LoadError) (module : Option String) (s : Session σ) : Prop where
  phase_eq : s.bridge.phase = .failed module e
  pending_eq : s.bridge.pending = []
  job_eq : s.job = .none
  brief : ∀ x ∈ s.agenda, x.Brief

namespace Session

variable {s t u : Session σ} {j k l : Journal σ}

private theorem receive_denied {α : Type} {b : Bridge α} (hp : b.phase = .failed module e)
    (hn : b.pending = []) (m : Inbound) : b.receive m = (b, (denial e module m).map .post) := by
  obtain ⟨settings', phase, pending⟩ := b
  obtain rfl : phase = .failed module e := hp
  obtain rfl : pending = [] := hn
  cases m with
  | control c => cases c <;> rfl
  | _ => rfl

omit [Interpreter σ] in
private theorem Denying.feed (h : s.Denying e module) (ha : s.agenda = []) (m : Inbound)
    (inbound : Channel Inbound) :
    let t := { s with inbound }.feed (.received m)
    t.Denying e module ∧ t.agenda = (denial e module m).map .post := by
  have hstep : s.bridge.step (.received m) = (s.bridge, (denial e module m).map .post) :=
    receive_denied h.phase_eq h.pending_eq m
  simp only [Session.feed, hstep, ha, List.nil_append]
  refine ⟨⟨h.phase_eq, h.pending_eq, h.job_eq, ?_⟩, trivial⟩
  intro x hx
  obtain ⟨n, -, rfl⟩ := List.mem_map.1 hx
  trivial

/-- Whatever happens, the messages are answered one after another, behind what was still to be
done. -/
theorem Denying.step (h : s.Denying e module) (next : Step s k t) :
    t.Denying e module ∧
      k ++ planned context t.agenda = planned context s.agenda ++ denials e module (taken k) := by
  have hbrief := h.brief
  have idle : s.job = .none := h.job_eq
  cases next with
  | send | collect | close | disconnect | elapse => exact ⟨⟨h.1, h.2, h.3, h.4⟩, by simp⟩
  | linger hj => simp [idle] at hj
  | publish hs ha | post hs ha =>
    rw [ha] at hbrief
    refine ⟨⟨h.1, h.2, h.3, fun x hx => hbrief x (List.mem_cons_of_mem _ hx)⟩, ?_⟩
    simp [planned, ha, Effect.entry]
  | request hs ha | refuse hs ha | call hs ha =>
    rw [ha] at hbrief
    exact (hbrief _ List.mem_cons_self).elim
  | @take m rest hl hm =>
    have ha : s.agenda = [] := by
      simp only [listens, Bool.and_eq_true, List.isEmpty_iff] at hl
      exact hl.1.2
    obtain ⟨hdenying, hagenda⟩ := h.feed ha m rest
    refine ⟨hdenying, ?_⟩
    rw [hagenda, ha, planned_posts]
    simp [planned, denials_cons]
  | load hs ha hj | answer hs ha hj | crashLoad hs ha hj | crashCall hs ha hj => simp [idle] at hj
  | lose | exhaust => exact ⟨⟨h.1, h.2, h.3, h.4⟩, by simp [stop]⟩

theorem Denying.run (h : s.Denying e module) (run : Run s k t) :
    t.Denying e module ∧
      k ++ planned context t.agenda = planned context s.agenda ++ denials e module (taken k) := by
  induction run with
  | start => exact ⟨h, by simp⟩
  | @step k l t u run next ih =>
    obtain ⟨hmid, hfirst⟩ := ih
    obtain ⟨hlast, hsecond⟩ := hmid.step context next
    refine ⟨hlast, ?_⟩
    calc k ++ l ++ planned context u.agenda
      _ = k ++ planned context t.agenda ++ denials e module (taken l) := by
        rw [List.append_assoc, hsecond, List.append_assoc]
      _ = planned context s.agenda ++ denials e module (taken (k ++ l)) := by
        rw [hfirst, taken_append, denials_append, List.append_assoc]

omit [Interpreter σ] in
private theorem denying_of_fail {b : Bridge (Adapter σ)} (before : List Transition)
    (hj : s.job = .none) (hb : s.bridge = (b.fail module e).1)
    (ha : s.agenda = before.map .publish ++ (b.fail module e).2) :
    s.Denying e module ∧ planned context s.agenda =
      (before ++ [Transition.mk .loading .failed]).map .published ++
        posts (List.replicate (1 + b.pending.length) (failureNotice e)) := by
  have hnotice : (BridgeError.load e).notice = failureNotice e := rfl
  constructor
  · refine ⟨by rw [hb]; rfl, by rw [hb]; rfl, hj, ?_⟩
    intro x hx
    simp only [ha, Bridge.fail, List.mem_append, List.mem_map, List.mem_cons] at hx
    rcases hx with ⟨c, -, rfl⟩ | rfl | rfl | ⟨text, -, rfl⟩ <;> trivial
  · simp [planned, ha, Bridge.fail, Effect.entry, hnotice, posts, Nat.add_comm 1,
      List.replicate_succ, List.map_const', Function.comp_def]

omit [Interpreter σ] in
private theorem denying_of_loaded {name : String} (hp : s.bridge.phase = .loading name)
    (hj : s.job = .none) (ha : s.agenda = []) (e : LoadError) :
    let t := s.feed (.loaded (.error e))
    t.Denying e (some name) ∧ planned context t.agenda =
      .published ⟨.loading, .failed⟩ ::
        posts (List.replicate (1 + s.bridge.pending.length) (failureNotice e)) := by
  have hstep : s.bridge.step (.loaded (.error e)) = s.bridge.fail (some name) e := by
    simp [Bridge.step, hp]
  exact denying_of_fail context [] hj (by simp [feed, hstep]) (by simp [feed, hstep, ha])

omit [Interpreter σ] in
private theorem denying_of_nameless {request : Option String}
    (hp : s.bridge.phase = .uninitialized) (hj : s.job = .none) (ha : s.agenda = [])
    (hm : request.or s.bridge.settings.defaultModule = none) :
    let t := s.feed (.received (.control (.start request)))
    t.Denying .noModule none ∧ planned context t.agenda =
      .published ⟨.uninitialized, .loading⟩ :: .published ⟨.loading, .failed⟩ ::
        posts (List.replicate (1 + s.bridge.pending.length) (failureNotice .noModule)) := by
  have hstep : s.bridge.step (.received (.control (.start request))) =
      ((s.bridge.fail none .noModule).1,
        .publish ⟨.uninitialized, .loading⟩ :: (s.bridge.fail none .noModule).2) := by
    simp [Bridge.step, Bridge.receive, Bridge.start, hp, hm]
  exact denying_of_fail context [⟨.uninitialized, .loading⟩] hj (by simp [feed, hstep])
    (by simp [feed, hstep, ha])

private theorem Faithful.nameless_of_took {m : Inbound} (h : Faithful settings j s)
    (hl : s.listens = true) (ho : outcome settings j = none)
    (he : outcome settings (j ++ [Entry.took m]) = some (.error e)) :
    ∃ request, m = .control (.start request) ∧ request.or settings.defaultModule = none ∧
      e = .noModule ∧ asked j = none ∧ s.bridge.phase = .uninitialized ∧ s.job = .none ∧
      s.agenda = [] := by
  have hagenda : s.agenda = [] := h.agenda_resting (.inl hl)
  have htells := (h.conduct_rest hagenda).tells
  have hengaged := h.engaged
  have hasked : asked j = none := by
    by_contra hne
    obtain ⟨first, hfirst⟩ := Option.ne_none_iff_exists'.1 hne
    rw [outcome_congr (j := j) (by simp [hfirst]) (by simp), ho] at he
    cases he
  have hphase : s.bridge.phase = .uninitialized := by
    by_contra hne
    have hsome := htells.asked_isSome hne
    simp [hasked] at hsome
  have hjob : s.job = .none := by
    rw [hphase, hagenda] at hengaged
    generalize s.job = job at hengaged ⊢
    generalize hagenda' : ([] : List (Effect (Adapter σ))) = agenda at hengaged
    cases hengaged with
    | free hp hbrief => rfl
  rw [hphase] at htells
  have hnone : loadResult j = none := htells.2
  obtain ⟨request, rfl⟩ : ∃ request, m = .control (.start request) := by
    cases m with
    | control c =>
      cases c with
      | start request => exact ⟨request, rfl⟩
      | status => simp [outcome, hasked] at he
    | _ => simp [outcome, hasked] at he
  cases hm : request.or settings.defaultModule with
  | some name => simp [outcome, hasked, hm, hnone] at he
  | none =>
    have hnoModule : e = .noModule := by simpa [outcome, hasked, hm, eq_comm] using he
    exact ⟨request, rfl, hm, hnoModule, hasked, hphase, hjob, hagenda⟩

/-- The step that ends the load with an error leaves nothing to do but to tell of it, for the
request and for each command that waits. -/
theorem Faithful.fails (h : Faithful settings j s) (next : Step s k t)
    (ho : outcome settings j = none) (he : outcome settings (j ++ k) = some (.error e)) :
    t.Denying e ((asked (j ++ k)).bind (·.or settings.defaultModule)) ∧
      planned context t.agenda = (collapse j).map .published ++
        posts (List.replicate (1 + s.bridge.pending.length) (failureNotice e)) := by
  have quiet (ha : asked k = none) (hl : loadResult k = none) : False := by
    rw [outcome_congr (j := j) (by simp [ha]) (by simp [hl]), ho] at he
    cases he
  have hengaged := h.engaged
  have htells := h.conduct.tells
  cases next with
  | @take m rest hl hm =>
    obtain ⟨request, rfl, hnone, rfl, hasked, hphase, hjob, hagenda⟩ :=
      h.nameless_of_took hl ho he
    rw [← h.settings_eq] at hnone
    have hdenying := denying_of_nameless context (s := { s with inbound := rest })
      hphase hjob hagenda hnone
    rw [h.settings_eq] at hnone
    simpa [collapse, hasked, hnone] using hdenying
  | @refuse name rest hs ha hx =>
    rw [ha] at hengaged htells
    obtain ⟨hphase, hjob, rfl⟩ := hengaged.of_load
    rw [hphase] at htells
    obtain ⟨⟨request, hasked, hname⟩, hnone⟩ := htells
    simp only [List.map_cons, List.map_nil, Effect.entry, asked_append, asked_cons, asked_nil,
      Entry.start?, Option.or_none, loadResult_append, loadResult_cons, loadResult_nil,
      Entry.loaded?] at hasked hnone
    obtain rfl : LoadError.unknownModule name = e := by
      simpa [outcome, hasked, hname, hnone] using he
    have hdenying := denying_of_loaded context (s := { s with agenda := [] })
      hphase hjob rfl (.unknownModule name)
    simpa [beginLoad, hx, collapse, hasked, hname] using hdenying
  | @load x p deadline seen result hs ha hj =>
    rw [hj] at hengaged
    obtain ⟨⟨name, hphase⟩, -⟩ := hengaged.of_loading
    rw [ha, hphase, List.map_nil, List.append_nil] at htells
    obtain ⟨⟨request, hasked, hname⟩, hnone⟩ := htells
    obtain rfl : result = .error e := by simpa [outcome, hasked, hname, hnone] using he
    have hdenying := denying_of_loaded context (s := { s with job := .none })
      hphase rfl ha e
    simpa [collapse, hasked, hname] using hdenying
  | _ => exact (quiet rfl rfl).elim

theorem Step.capacity_eq (next : Step s k t) : t.outbound.capacity = s.outbound.capacity := by
  cases next with
  | collect hm =>
    obtain ⟨items, -, rfl⟩ := Channel.take?_eq_some hm
    rfl
  | request hs ha hx | refuse hs ha hx => simp only [beginLoad, hx, feed]
  | _ => rfl

theorem Run.capacity_eq {registry : Registry σ} (run : Run (create registry settings) j s) :
    s.outbound.capacity = settings.capacity := by
  induction run with
  | start => rfl
  | step _ next ih => rw [next.capacity_eq, ih]

/-- The host takes all that has been posted. -/
theorem run_collect (s : Session σ) :
    Run s [] { s with outbound := { s.outbound with items := [] } } := by
  generalize hitems : s.outbound.items = items
  induction items generalizing s with
  | nil =>
    rw [← hitems]
    exact .start
  | cons m rest ih =>
    have first : Run s [] { s with outbound := { s.outbound with items := rest } } :=
      .single (.collect (Channel.take?_of_items hitems))
    exact first.trans (ih { s with outbound := { s.outbound with items := rest } } rfl)

/-- A bridge at work, with a host that listens. -/
structure Attentive (s : Session σ) : Prop where
  going : s.stopped = false
  heard : s.outbound.receiving = true
  roomy : 0 < s.outbound.capacity

/-- What is over at once is done, and nothing else has changed then. -/
theorem drains (ht : s.Attentive) {before rest : List (Effect (Adapter σ))}
    (ha : s.agenda = before ++ rest) (hb : ∀ x ∈ before, x.Brief) :
    ∃ t, Run s (planned context before) t ∧ t.Attentive ∧ t.agenda = rest ∧
      t.bridge = s.bridge ∧ t.job = s.job ∧ t.inbound = s.inbound := by
  obtain ⟨hs, ho, hc⟩ := ht
  induction before generalizing s with
  | nil => exact ⟨s, .start, ⟨hs, ho, hc⟩, ha, rfl, rfl, rfl⟩
  | cons x before ih =>
    have hrest (y) (hy : y ∈ before) : y.Brief := hb y (List.mem_cons_of_mem x hy)
    cases x with
    | publish c =>
      have next : Step s _ _ := .publish hs ha
      obtain ⟨t, run, ht⟩ := ih
        (s := { s with agenda := before ++ rest, events := (s.events.publish c).1 })
        rfl hrest hs ho hc
      exact ⟨t, (Run.single next).trans run, ht⟩
    | post m =>
      -- The host makes room first.
      have hroom : ({ s.outbound with items := [] } : Channel Outbound).hasRoom = true := by
        simpa [Channel.hasRoom] using hc
      have next : Step { s with outbound := { s.outbound with items := [] } } [.posted m]
          { s with agenda := before ++ rest, outbound := { s.outbound with items := [m] } } :=
        .post hs ha ho hroom
      obtain ⟨t, run, ht⟩ := ih
        (s := { s with agenda := before ++ rest, outbound := { s.outbound with items := [m] } })
        rfl hrest hs ho hc
      exact ⟨t, ((run_collect s).step next).trans run, ht⟩
    | load name => exact (hb _ List.mem_cons_self).elim
    | call a command => exact (hb _ List.mem_cons_self).elim

private theorem Denying.drains (h : s.Denying e module) (hatt : s.Attentive) :
    ∃ t, Run s (planned context s.agenda) t ∧ t.Denying e module ∧ t.Attentive ∧ t.agenda = [] ∧
      t.inbound = s.inbound := by
  obtain ⟨t, run, ht, ha, hbridge, hjob, hin⟩ :=
    Session.drains context hatt (List.append_nil s.agenda).symm h.brief
  refine ⟨t, run, ⟨?_, ?_, ?_, by simp [ha]⟩, ht, ha, hin⟩
  · rw [hbridge]
    exact h.phase_eq
  · rw [hbridge]
    exact h.pending_eq
  · rw [hjob]
    exact h.job_eq

omit [Interpreter σ] in
private theorem Denying.listens (h : s.Denying e module) (hs : s.stopped = false)
    (ha : s.agenda = []) : s.listens = true := by
  simp [Session.listens, hs, ha, h.job_eq]

private theorem Denying.answers (h : s.Denying e module) (hatt : s.Attentive) :
    ∃ t, Run s (planned context s.agenda ++ denials e module s.inbound.items) t ∧
      t.listens = true ∧ t.inbound.items = [] := by
  generalize hitems : s.inbound.items = items
  induction items generalizing s with
  | nil =>
    obtain ⟨t, run, ht, htt, ha, hin⟩ := h.drains context hatt
    exact ⟨t, by simpa using run, ht.listens htt.going ha, by rw [hin, hitems]⟩
  | cons m rest ih =>
    obtain ⟨t, run, ht, htt, ha, hin⟩ := h.drains context hatt
    have hwaiting : t.inbound.items = m :: rest := by rw [hin, hitems]
    have next := Step.take (ht.listens htt.going ha) (Channel.take?_of_items hwaiting)
    obtain ⟨hdenying, hagenda⟩ := ht.feed ha m { t.inbound with items := rest }
    obtain ⟨u, more, hu⟩ := ih hdenying ⟨htt.1, htt.2, htt.3⟩ rfl
    refine ⟨u, ?_, hu⟩
    rw [hagenda, planned_posts] at more
    simpa [denials_cons] using (run.step next).trans more

end Session

/-- What has become of a run whose load failed with `e` in the step that added `k` to its journal
`j`, when so many commands were waiting; `l` came after. All that is posted from then on is the
failure, once for the request and once for each of those commands, and then the answers to the
messages one by one. -/
structure Session.Denied (settings : BridgeSettings) (e : LoadError) (waiting : Nat)
    (j k l : Journal σ) (s : Session σ) : Prop where
  course : l ++ planned settings.contextId s.agenda = (collapse j).map .published ++
    posts (List.replicate (1 + waiting) (failureNotice e)) ++
      denials e ((asked (j ++ k)).bind (·.or settings.defaultModule)) (taken l)
  nothing_owed : s.Resting → s.agenda = []
  queue_empty : s.bridge.pending = []
  failed : s.bridge.lifecycle = .failed
  loader_idle : requested l = []
  never_executed : calls (j ++ k ++ l) = []
  /-- While the host listens, all that it has sent will be answered. -/
  answered : s.stopped = false → s.outbound.receiving = true →
    ∃ t, s.Run (planned settings.contextId s.agenda ++
        denials e ((asked (j ++ k)).bind (·.or settings.defaultModule)) s.inbound.items) t ∧
      t.listens = true ∧ t.inbound.items = []

/-- Whatever the error, however many commands were waiting, and whatever the host does then. -/
theorem denied_of_run {registry : Registry σ} {s t u : Session σ} {j k l : Journal σ}
    (run : Session.Run (.create registry settings) j s) (ho : outcome settings j = none)
    (next : s.Step k t) (he : outcome settings (j ++ k) = some (.error e)) (later : t.Run l u) :
    u.Denied settings e s.bridge.pending.length j k l := by
  have whole := (run.step next).trans later
  have hfaithful := whole.faithful
  obtain ⟨hfails, hplanned⟩ := run.faithful.fails settings.contextId next ho he
  obtain ⟨hdenying, hcourse⟩ := hfails.run settings.contextId later
  have howes := hfaithful.conduct.owes
  rw [hdenying.phase_eq] at howes
  have hcalls : calls (j ++ k ++ l) = [] := by
    have hnone := howes.2.2.1
    rw [calls_append, List.append_eq_nil_iff] at hnone
    exact hnone.1
  rw [hplanned] at hcourse
  have hrequested : requested (l ++ planned settings.contextId u.agenda) = [] := by
    have hchanges : requested ((collapse j).map .published : Journal σ) = [] := by
      unfold collapse
      split <;> rfl
    rw [hcourse]
    simp [hchanges]
  rw [requested_append, List.append_eq_nil_iff] at hrequested
  refine ⟨hcourse, hfaithful.agenda_resting, hdenying.pending_eq, ?_, hrequested.1, hcalls, ?_⟩
  · rw [Bridge.lifecycle, hdenying.phase_eq]
    rfl
  · intro hs hr
    refine hdenying.answers settings.contextId ⟨hs, hr, ?_⟩
    rw [whole.capacity_eq]
    exact Nat.lt_of_lt_of_le Nat.zero_lt_one (Nat.le_max_right _ _)

namespace Rehearsal

/-- Two commands wait, and a module is asked for that nobody knows. -/
def asking : Journal Scripted :=
  [.took (.command "1 ."), .took (.command "2 ."), .took (.control (.start (some "ghost"))),
    .published ⟨.uninitialized, .loading⟩]

def refusal : Journal Scripted :=
  [.requested "ghost", .loaded (.error (.unknownModule "ghost"))]

def refused : Journal Scripted :=
  [.published ⟨.loading, .failed⟩, .posted (failureNotice (.unknownModule "ghost")),
    .posted (failureNotice (.unknownModule "ghost")),
    .posted (failureNotice (.unknownModule "ghost")), .took (.command "3 ."),
    .posted (failureNotice (.unknownModule "ghost")), .took (.control .status),
    .posted (.notice (.status .failed (some "ghost") 0))]

/-- A run of its own from where this one has come to. -/
theorem onwards {s t : Session Scripted} {j : Journal Scripted} (_ : s.Run j t) :
    t.Run [] t := .start

theorem run_refused : ∃ s t u, Session.Run (.create registry {}) asking s ∧
    s.Step refusal t ∧ t.Run refused u ∧ s.bridge.pending.length = 2 ∧ u.listens = true := by
  have run := Session.Run.start (s := .create registry {})
  have run := run.step (.send (m := .command "1 .") rfl rfl rfl)
  have run := run.step (.take rfl rfl)
  have run := run.step (.send (m := .command "2 .") rfl rfl rfl)
  have run := run.step (.take rfl rfl)
  have run := run.step (.send (m := .control (.start (some "ghost"))) rfl rfl rfl)
  have run := run.step (.take rfl rfl)
  have run := run.step (.publish rfl rfl)
  have later := onwards (run.step (.refuse rfl rfl rfl))
  have later := later.step (.publish rfl rfl)
  have later := later.step (.post rfl rfl rfl rfl)
  have later := later.step (.post rfl rfl rfl rfl)
  have later := later.step (.post rfl rfl rfl rfl)
  have later := later.step (.send (m := .command "3 .") rfl rfl rfl)
  have later := later.step (.take rfl rfl)
  have later := later.step (.post rfl rfl rfl rfl)
  have later := later.step (.send (m := .control .status) rfl rfl rfl)
  have later := later.step (.take rfl rfl)
  have later := later.step (.post rfl rfl rfl rfl)
  exact ⟨_, _, _, run, .refuse rfl rfl rfl, later, rfl, rfl⟩

end Rehearsal

theorem denied_rehearsal : ∃ s : Session Scripted, s.listens = true ∧
    s.Denied {} (.unknownModule "ghost") 2 Rehearsal.asking Rehearsal.refusal
      Rehearsal.refused := by
  obtain ⟨s, t, u, run, next, later, hwaiting, hl⟩ := Rehearsal.run_refused
  have hdenied := denied_of_run (e := .unknownModule "ghost") run rfl next rfl later
  exact ⟨u, hl, hwaiting ▸ hdenied⟩

end EngineBridge
