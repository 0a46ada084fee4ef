import EngineBridge.Proofs.Journal

/-!
# What a bridge does between two messages

The rules by which a bridge moves from one point of rest to the next, each with the entries that it
adds to the journal. The journal of a run, with what the bridge has still to do, obeys them.
-/

namespace EngineBridge

open Journal

variable {σ : Type} [Interpreter σ]

/-- No engine is there yet, and the load has not failed. -/
def Phase.Waiting {α : Type} : Phase α → Prop
  | .uninitialized | .loading _ => True
  | _ => False

/-- Messages are taken, for no call is under way. -/
def Phase.Taking {α : Type} : Phase α → Prop
  | .running _ => False
  | _ => True

/-- Neither a load nor a call is under way. -/
def Phase.Settled {α : Type} : Phase α → Prop
  | .loading _ | .running _ => False
  | _ => True

theorem Phase.Settled.taking {α : Type} {phase : Phase α} (h : phase.Settled) : phase.Taking := by
  cases phase with
  | running name => exact h
  | _ => trivial

/-- The effect is over at once. -/
def Effect.Brief {α : Type} : Effect α → Prop
  | .publish _ | .post _ => True
  | .load _ | .call _ _ => False

/-- A message that is answered at once, with nothing else changed, and its answers. -/
inductive Aside (settings : BridgeSettings) :
    Phase (Adapter σ) → List String → Inbound → List Outbound → Prop
  | status {phase pending} (hp : phase.Taking) :
      Aside settings phase pending (.control .status)
        [.notice (.status phase.lifecycle phase.module pending.length)]
  | malformed {phase pending reason} (hp : phase.Taking) :
      Aside settings phase pending (.malformed reason) [(BridgeError.malformed reason).notice]
  | again {phase pending module} (hp : phase.Taking) (hu : phase ≠ .uninitialized) :
      Aside settings phase pending (.control (.start module)) []
  | reject {phase pending text} (hp : phase.Waiting) (hq : settings.pendingPolicy = .reject) :
      Aside settings phase pending (.command text) [(BridgeError.engine .notReady).notice]
  | overflow {phase pending text} (hp : phase.Waiting) (hq : settings.pendingPolicy = .queue)
      (hn : settings.maxPending ≤ pending.length) :
      Aside settings phase pending (.command text)
        [(BridgeError.queueFull settings.maxPending).notice]
  | deny {module e pending text} :
      Aside settings (.failed module e) pending (.command text) [(BridgeError.load e).notice]

/-- The end of a load without an engine. -/
def Journal.failing {σ : Type} (e : LoadError) (pending : List String) : Journal σ :=
  .published ⟨.loading, .failed⟩ ::
    posts ((BridgeError.load e).notice :: pending.map fun _ => (BridgeError.load e).notice)

/-- The end of a load with an engine. -/
def Journal.arriving {σ : Type} : Journal σ :=
  [.published ⟨.loading, .ready⟩, .posted (.notice .ready)]

/-- The journals that a bridge can have at rest, with its phase and its queue. -/
inductive Conduct (settings : BridgeSettings) :
    Journal σ → Phase (Adapter σ) → List String → Prop
  | start : Conduct settings [] .uninitialized []
  | aside {j phase pending m answers} (h : Conduct settings j phase pending)
      (hr : Aside settings phase pending m answers) :
      Conduct settings (j ++ Entry.took m :: posts answers) phase pending
  | keep {j phase pending text} (h : Conduct settings j phase pending) (hp : phase.Waiting)
      (hq : settings.pendingPolicy = .queue) (hn : pending.length < settings.maxPending) :
      Conduct settings (j ++ [Entry.took (.command text)]) phase (pending ++ [text])
  | begin {j module name pending} (h : Conduct settings j .uninitialized pending)
      (hm : module.or settings.defaultModule = some name) :
      Conduct settings
        (j ++ [Entry.took (.control (.start module)), .published ⟨.uninitialized, .loading⟩,
          .requested name]) (.loading name) pending
  | nameless {j module pending} (h : Conduct settings j .uninitialized pending)
      (hm : module.or settings.defaultModule = none) :
      Conduct settings
        (j ++ Entry.took (.control (.start module)) :: .published ⟨.uninitialized, .loading⟩ ::
          failing .noModule pending) (.failed none .noModule) []
  | fail {j name pending e} (h : Conduct settings j (.loading name) pending) :
      Conduct settings (j ++ Entry.loaded (.error e) :: failing e pending)
        (.failed (some name) e) []
  | ready {j name a} (h : Conduct settings j (.loading name) []) :
      Conduct settings (j ++ Entry.loaded (.ok a) :: arriving) (.ready name a) []
  | replay {j name a command pending}
      (h : Conduct settings j (.loading name) (command :: pending)) :
      Conduct settings
        (j ++ Entry.loaded (.ok a) :: arriving ++ [Entry.called settings.contextId a command])
        (.running name) pending
  | serve {j name a command pending} (h : Conduct settings j (.ready name a) pending) :
      Conduct settings
        (j ++ [Entry.took (.command command), .called settings.contextId a command])
        (.running name) pending
  | rest {j name a command result}
      (h : Conduct settings (j ++ [Entry.called settings.contextId a command]) (.running name) [])
      (hx : (a.execute settings.contextId command).answer = .ofResult result) :
      Conduct settings
        (j ++ [Entry.called settings.contextId a command] ++
          Entry.answered result :: posts (Bridge.answerPosts result))
        (.ready name (a.execute settings.contextId command).after) []
  | next {j name a command result text pending}
      (h : Conduct settings (j ++ [Entry.called settings.contextId a command]) (.running name)
        (text :: pending))
      (hx : (a.execute settings.contextId command).answer = .ofResult result) :
      Conduct settings
        (j ++ [Entry.called settings.contextId a command] ++
          Entry.answered result :: posts (Bridge.answerPosts result) ++
            [Entry.called settings.contextId (a.execute settings.contextId command).after text])
        (.running name) pending

namespace Bridge

theorem settings_step {α : Type} (b : Bridge α) (e : BridgeEvent α) :
    (b.step e).1.settings = b.settings := by
  unfold step receive start command defer fail proceed
  grind

variable {settings : BridgeSettings} {j : Journal σ} {b : Bridge (Adapter σ)}

theorem conduct_defer (h : Conduct settings j b.phase b.pending) (hb : b.settings = settings)
    (hp : b.phase.Waiting) (text : String) :
    Conduct settings
      (j ++ Entry.took (.command text) :: (b.defer text).2.map (Effect.entry settings.contextId))
      (b.defer text).1.phase (b.defer text).1.pending := by
  unfold defer
  rw [hb]
  cases hq : settings.pendingPolicy with
  | reject => exact h.aside (.reject hp hq)
  | queue =>
    by_cases hn : settings.maxPending ≤ b.pending.length
    · simp only [hn, if_true]
      exact h.aside (.overflow hp hq hn)
    · simp only [hn, if_false]
      exact h.keep hp hq (Nat.lt_of_not_le hn)

theorem conduct_receive (h : Conduct settings j b.phase b.pending) (hb : b.settings = settings)
    (hp : b.phase.Taking) (m : Inbound) :
    Conduct settings (j ++ Entry.took m :: (b.receive m).2.map (Effect.entry settings.contextId))
      (b.receive m).1.phase (b.receive m).1.pending := by
  obtain ⟨settings', phase, pending⟩ := b
  obtain rfl : settings' = settings := hb
  cases m with
  | malformed reason => exact h.aside (.malformed hp)
  | command text =>
    cases phase with
    | uninitialized => exact conduct_defer h rfl trivial text
    | loading name => exact conduct_defer h rfl trivial text
    | ready name a => exact h.serve
    | running name => exact hp.elim
    | failed name e => exact h.aside .deny
  | control c =>
    cases c with
    | status => exact h.aside (.status hp)
    | start module =>
      cases phase with
      | uninitialized =>
        cases hm : module.or settings'.defaultModule with
        | some name =>
          simp only [receive, start, hm]
          exact h.begin hm
        | none =>
          have hn := h.nameless hm
          simpa only [receive, start, hm, fail, failing, posts, Effect.entry, List.map_cons,
            List.map_map, Function.comp_def] using hn
      | loading name => exact h.aside (.again hp (by simp))
      | ready name a => exact h.aside (.again hp (by simp))
      | running name => exact hp.elim
      | failed name e => exact h.aside (.again hp (by simp))

theorem conduct_load {name : String} (h : Conduct settings j b.phase b.pending)
    (hb : b.settings = settings) (hp : b.phase = .loading name)
    (result : Except LoadError (Adapter σ)) :
    Conduct settings
      (j ++ Entry.loaded result ::
        (b.step (.loaded result)).2.map (Effect.entry settings.contextId))
      (b.step (.loaded result)).1.phase (b.step (.loaded result)).1.pending := by
  obtain ⟨settings', phase, pending⟩ := b
  obtain rfl : settings' = settings := hb
  obtain rfl : phase = .loading name := hp
  cases result with
  | error e =>
    have hf := h.fail (e := e)
    simpa only [step, fail, failing, posts, Effect.entry, List.map_cons, List.map_map,
      Function.comp_def] using hf
  | ok a =>
    cases pending with
    | nil => exact h.ready
    | cons command rest =>
      have hr := h.replay (a := a)
      rw [List.append_assoc] at hr
      exact hr

theorem conduct_answer {name command : String} {a : Adapter σ}
    {result : Except EngineError String}
    (h : Conduct settings (j ++ [Entry.called settings.contextId a command]) b.phase b.pending)
    (hb : b.settings = settings) (hp : b.phase = .running name)
    (hx : (a.execute settings.contextId command).answer = .ofResult result) :
    let event := BridgeEvent.answered (a.execute settings.contextId command).after result
    Conduct settings
      (j ++ [Entry.called settings.contextId a command] ++
        Entry.answered result :: (b.step event).2.map (Effect.entry settings.contextId))
      (b.step event).1.phase (b.step event).1.pending := by
  obtain ⟨settings', phase, pending⟩ := b
  obtain rfl : settings' = settings := hb
  obtain rfl : phase = .running name := hp
  cases pending with
  | nil =>
    have hr := h.rest hx
    simpa [step, proceed, posts, Effect.entry, Function.comp_def] using hr
  | cons text rest =>
    have hr := h.next hx
    simpa [step, proceed, posts, Effect.entry, Function.comp_def] using hr

end Bridge

namespace Session

/-- What is under way, beside the phase and what is still to be done. An order for a load or a call
is the last thing to do. -/
inductive Engaged (settings : BridgeSettings) (j : Journal σ) :
    Job σ → Phase (Adapter σ) → List (Effect (Adapter σ)) → Prop
  | free {phase : Phase (Adapter σ)} {agenda : List (Effect (Adapter σ))} (hp : phase.Settled)
      (ha : ∀ e ∈ agenda, e.Brief) : Engaged settings j .none phase agenda
  | order {name} {agenda : List (Effect (Adapter σ))} (ha : ∀ e ∈ agenda, e.Brief) :
      Engaged settings j .none (.loading name) (agenda ++ [.load name])
  | summons {name a command} {agenda : List (Effect (Adapter σ))} (ha : ∀ e ∈ agenda, e.Brief) :
      Engaged settings j .none (.running name) (agenda ++ [.call a command])
  | loading {x p deadline seen name} {agenda : List (Effect (Adapter σ))}
      (ha : ∀ e ∈ agenda, e.Brief) :
      Engaged settings j (.loading x p deadline seen) (.loading name) agenda
  | calling {since name a command before}
      (hj : j = before ++ [Entry.called settings.contextId a command]) :
      Engaged settings j (.calling since (a.execute settings.contextId command)) (.running name) []

variable {settings : BridgeSettings} {j : Journal σ}

private theorem engaged_proceed (b : Bridge (Adapter σ)) (name : String) (a : Adapter σ)
    (before : List (Effect (Adapter σ))) (hl : ∀ e ∈ before, e.Brief) :
    Engaged settings j .none (b.proceed name a).1.phase (before ++ (b.proceed name a).2) := by
  obtain ⟨settings', phase, pending⟩ := b
  cases pending with
  | nil => exact .free trivial (by simpa [Bridge.proceed] using hl)
  | cons command rest => exact .summons hl

private theorem brief_defer {α : Type} (b : Bridge α) (text : String) :
    (b.defer text).1.phase = b.phase ∧ ∀ e ∈ (b.defer text).2, e.Brief := by
  unfold Bridge.defer
  cases b.settings.pendingPolicy with
  | reject => simp [Effect.Brief]
  | queue =>
    dsimp only
    split <;> simp [Effect.Brief]

private theorem brief_fail {α : Type} (b : Bridge α) (module : Option String) (err : LoadError) :
    ∀ e ∈ (b.fail module err).2, e.Brief := by
  intro e he
  simp only [Bridge.fail, List.mem_cons, List.mem_map] at he
  rcases he with rfl | rfl | ⟨text, -, rfl⟩ <;> trivial

theorem engaged_receive {b : Bridge (Adapter σ)} (hp : b.phase.Settled) (m : Inbound) :
    Engaged settings j .none (b.receive m).1.phase (b.receive m).2 := by
  obtain ⟨settings', phase, pending⟩ := b
  cases m with
  | malformed reason => exact .free hp (by simp [Bridge.receive, Effect.Brief])
  | command text =>
    cases phase with
    | uninitialized =>
      obtain ⟨hphase, hbrief⟩ := brief_defer ⟨settings', .uninitialized, pending⟩ text
      exact .free (hphase ▸ trivial) hbrief
    | loading name => exact hp.elim
    | ready name a => exact @Engaged.summons _ _ settings j name a text [] (by simp)
    | running name => exact hp.elim
    | failed name e => exact .free trivial (by simp [Bridge.receive, Bridge.command, Effect.Brief])
  | control c =>
    cases c with
    | status => exact .free hp (by simp [Bridge.receive, Effect.Brief])
    | start module =>
      cases phase with
      | uninitialized =>
        cases hm : module.or settings'.defaultModule with
        | some name =>
          simp only [Bridge.receive, Bridge.start, hm]
          exact @Engaged.order _ _ settings j name [.publish ⟨.uninitialized, .loading⟩]
            (by simp [Effect.Brief])
        | none =>
          simp only [Bridge.receive, Bridge.start, hm]
          refine .free trivial ?_
          intro e he
          rcases List.mem_cons.1 he with rfl | he
          · trivial
          · exact brief_fail _ none .noModule e he
      | loading name => exact hp.elim
      | ready name a => exact .free trivial (by simp [Bridge.receive, Bridge.start])
      | running name => exact hp.elim
      | failed name e => exact .free trivial (by simp [Bridge.receive, Bridge.start])

/-- Messages that are taken during a load leave the load under way. -/
theorem brief_receive {α : Type} {b : Bridge α} {name : String} (hp : b.phase = .loading name)
    (m : Inbound) : (b.receive m).1.phase = .loading name ∧ ∀ e ∈ (b.receive m).2, e.Brief := by
  obtain ⟨settings', phase, pending⟩ := b
  obtain rfl : phase = .loading name := hp
  cases m with
  | malformed reason => simp [Bridge.receive, Effect.Brief]
  | command text => exact brief_defer _ text
  | control c => cases c <;> simp [Bridge.receive, Bridge.start, Effect.Brief]

theorem engaged_load {b : Bridge (Adapter σ)} {name : String} (hp : b.phase = .loading name)
    (result : Except LoadError (Adapter σ)) :
    Engaged settings j .none (b.step (.loaded result)).1.phase (b.step (.loaded result)).2 := by
  cases result with
  | error e =>
    simp only [Bridge.step, hp]
    exact .free trivial (brief_fail b (some name) e)
  | ok a =>
    simp only [Bridge.step, hp]
    exact engaged_proceed b name a [.publish ⟨.loading, .ready⟩, .post (.notice .ready)]
      (by simp [Effect.Brief])

theorem engaged_answer {b : Bridge (Adapter σ)} {name : String} (hp : b.phase = .running name)
    (a : Adapter σ) (result : Except EngineError String) :
    Engaged settings j .none (b.step (.answered a result)).1.phase
      (b.step (.answered a result)).2 := by
  simp only [Bridge.step, hp]
  refine engaged_proceed b name a _ ?_
  intro e he
  obtain ⟨m, -, rfl⟩ := List.mem_map.1 he
  trivial

/-- What is over at once leaves the rest as it is. -/
theorem Engaged.tail {k : Journal σ} {job : Job σ} {phase : Phase (Adapter σ)}
    {e : Effect (Adapter σ)} {rest : List (Effect (Adapter σ))} (he : e.Brief)
    (h : Engaged settings j job phase (e :: rest)) : Engaged settings k job phase rest := by
  generalize hagenda : e :: rest = agenda at h
  cases h with
  | free hp ha =>
    subst hagenda
    exact .free hp fun x hx => ha x (List.mem_cons_of_mem e hx)
  | loading ha =>
    subst hagenda
    exact .loading fun x hx => ha x (List.mem_cons_of_mem e hx)
  | calling hj => cases hagenda
  | @order name before ha =>
    cases before with
    | nil =>
      obtain ⟨rfl, -⟩ := List.cons.inj hagenda
      exact he.elim
    | cons x before =>
      obtain ⟨-, rfl⟩ := List.cons.inj hagenda
      exact .order fun y hy => ha y (List.mem_cons_of_mem x hy)
  | @summons name a command before ha =>
    cases before with
    | nil =>
      obtain ⟨rfl, -⟩ := List.cons.inj hagenda
      exact he.elim
    | cons x before =>
      obtain ⟨-, rfl⟩ := List.cons.inj hagenda
      exact .summons fun y hy => ha y (List.mem_cons_of_mem x hy)

private theorem eq_last_of_not_brief {α : Type} {e x : Effect α} {rest before : List (Effect α)}
    (he : ¬ e.Brief) (hb : ∀ y ∈ before, y.Brief) (h : e :: rest = before ++ [x]) :
    e = x ∧ rest = [] := by
  cases before with
  | nil => exact List.cons.inj h
  | cons y before =>
    obtain ⟨rfl, -⟩ := List.cons.inj h
    exact absurd (hb e (by simp)) he

private theorem engaged_order {job : Job σ} {phase : Phase (Adapter σ)} {e : Effect (Adapter σ)}
    {rest : List (Effect (Adapter σ))} (he : ¬ e.Brief)
    (h : Engaged settings j job phase (e :: rest)) :
    job = .none ∧ rest = [] ∧
      ((∃ name, e = .load name ∧ phase = .loading name) ∨
        ∃ name a command, e = .call a command ∧ phase = .running name) := by
  generalize hagenda : e :: rest = agenda at h
  cases h with
  | free hp ha =>
    subst hagenda
    exact absurd (ha e (by simp)) he
  | loading ha =>
    subst hagenda
    exact absurd (ha e (by simp)) he
  | calling hj => cases hagenda
  | order ha =>
    obtain ⟨rfl, hrest⟩ := eq_last_of_not_brief he ha hagenda
    exact ⟨rfl, hrest, .inl ⟨_, rfl, rfl⟩⟩
  | summons ha =>
    obtain ⟨rfl, hrest⟩ := eq_last_of_not_brief he ha hagenda
    exact ⟨rfl, hrest, .inr ⟨_, _, _, rfl, rfl⟩⟩

theorem Engaged.of_load {job : Job σ} {phase : Phase (Adapter σ)} {name : String}
    {rest : List (Effect (Adapter σ))} (h : Engaged settings j job phase (.load name :: rest)) :
    phase = .loading name ∧ job = .none ∧ rest = [] := by
  have hbrief : ¬ (Effect.load name : Effect (Adapter σ)).Brief := id
  obtain ⟨hj, hrest, ⟨name', he, hp⟩ | ⟨name', a, command, he, hp⟩⟩ := engaged_order hbrief h
  · cases he
    exact ⟨hp, hj, hrest⟩
  · cases he

theorem Engaged.of_call {job : Job σ} {phase : Phase (Adapter σ)} {a : Adapter σ}
    {command : String} {rest : List (Effect (Adapter σ))}
    (h : Engaged settings j job phase (.call a command :: rest)) :
    ∃ name, phase = .running name ∧ job = .none ∧ rest = [] := by
  have hbrief : ¬ (Effect.call a command : Effect (Adapter σ)).Brief := id
  obtain ⟨hj, hrest, ⟨name, he, hp⟩ | ⟨name, a, command, he, hp⟩⟩ := engaged_order hbrief h
  · cases he
  · exact ⟨name, hp, hj, hrest⟩

theorem Engaged.settled {phase : Phase (Adapter σ)} (h : Engaged settings j .none phase []) :
    phase.Settled := by
  generalize hagenda : ([] : List (Effect (Adapter σ))) = agenda at h
  cases h with
  | free hp ha => exact hp
  | order ha => simp at hagenda
  | summons ha => simp at hagenda

theorem Engaged.of_loading {x : Registration σ} {p : Progress} {deadline : Nat} {seen : Bool}
    {phase : Phase (Adapter σ)} {agenda : List (Effect (Adapter σ))}
    (h : Engaged settings j (.loading x p deadline seen) phase agenda) :
    (∃ name, phase = .loading name) ∧ ∀ e ∈ agenda, e.Brief := by
  cases h with
  | loading ha => exact ⟨⟨_, rfl⟩, ha⟩

theorem Engaged.of_calling {since : Nat} {x : Execution σ} {phase : Phase (Adapter σ)}
    {agenda : List (Effect (Adapter σ))} (h : Engaged settings j (.calling since x) phase agenda) :
    ∃ name a command before, phase = .running name ∧
      j = before ++ [Entry.called settings.contextId a command] ∧
      x = a.execute settings.contextId command := by
  cases h with
  | calling hj => exact ⟨_, _, _, _, rfl, hj, rfl⟩

theorem Engaged.agenda_of_calling {since : Nat} {x : Execution σ} {phase : Phase (Adapter σ)}
    {agenda : List (Effect (Adapter σ))} (h : Engaged settings j (.calling since x) phase agenda) :
    agenda = [] := by
  cases h with
  | calling hj => rfl

/-- What a run has come to: its journal, with what is still to be done, is one of a bridge at
rest. -/
structure Faithful (settings : BridgeSettings) (j : Journal σ) (s : Session σ) : Prop where
  settings_eq : s.bridge.settings = settings
  conduct : Conduct settings (j ++ s.agenda.map (Effect.entry settings.contextId))
    s.bridge.phase s.bridge.pending
  engaged : Engaged settings j s.job s.bridge.phase s.agenda
  /-- With a host that listens, nothing is left to be done at the end. -/
  ended : s.stopped = true → s.outbound.receiving = true →
    s.agenda = [] ∧ (s.crash = none → s.job = .none)

/-- A session that has nothing left to do is at rest. -/
theorem Faithful.conduct_rest {s : Session σ} (h : Faithful settings j s) (ha : s.agenda = []) :
    Conduct settings j s.bridge.phase s.bridge.pending := by
  simpa [ha] using h.conduct

private theorem faithful_feed {s : Session σ} {e : BridgeEvent (Adapter σ)} {x : Entry σ}
    (hb : s.bridge.settings = settings) (ha : s.agenda = []) (hs : s.stopped = false)
    (hc : Conduct settings
      (j ++ x :: (s.bridge.step e).2.map (Effect.entry settings.contextId))
      (s.bridge.step e).1.phase (s.bridge.step e).1.pending)
    (he : Engaged settings (j ++ [x]) s.job (s.bridge.step e).1.phase (s.bridge.step e).2) :
    Faithful settings (j ++ [x]) (s.feed e) where
  settings_eq := (Bridge.settings_step s.bridge e).trans hb
  conduct := by simpa [feed, ha] using hc
  engaged := by simpa [feed, ha] using he
  ended := by
    intro hstopped
    simp [feed, hs] at hstopped

theorem Faithful.step {s t : Session σ} {k : Journal σ} (h : Faithful settings j s)
    (next : Step s k t) : Faithful settings (j ++ k) t := by
  have hconduct := h.conduct
  have hengaged := h.engaged
  cases next with
  | send => simpa using ⟨h.1, h.2, h.3, h.4⟩
  | collect hm =>
    obtain ⟨items, -, rfl⟩ := Channel.take?_eq_some hm
    simpa using ⟨h.1, h.2, h.3, h.4⟩
  | close => simpa using ⟨h.1, h.2, h.3, h.4⟩
  | disconnect =>
    simpa using ⟨h.1, h.2, h.3, fun _ ht => by simp [Channel.closeReceiver] at ht⟩
  | elapse => simpa using ⟨h.1, h.2, h.3, h.4⟩
  | linger hj =>
    rw [hj] at hengaged
    refine ⟨h.1, by simpa using h.2, ?_, ?_⟩
    · obtain ⟨⟨name, hp⟩, ha⟩ := hengaged.of_loading
      rw [hp]
      exact .loading ha
    · intro hs ht
      obtain ⟨ha, hn⟩ := h.ended hs ht
      exact ⟨ha, fun hc => by simp [hj] at hn; exact absurd hc hn⟩
  | @publish t rest hs ha =>
    rw [ha] at hconduct hengaged
    have hbrief : Effect.Brief (.publish t : Effect (Adapter σ)) := trivial
    exact ⟨h.1, by simpa [Effect.entry] using hconduct, hengaged.tail hbrief, by simp [hs]⟩
  | @post m rest hs ha hr hc =>
    rw [ha] at hconduct hengaged
    have hbrief : Effect.Brief (.post m : Effect (Adapter σ)) := trivial
    exact ⟨h.1, by simpa [Effect.entry] using hconduct, hengaged.tail hbrief, by simp [hs]⟩
  | lose hs ha hr =>
    have hlost : s.stop.outbound.receiving = false := hr
    refine ⟨h.1, by simpa [stop] using h.2, by simpa [stop] using h.3, ?_⟩
    intro _ ht
    rw [hlost] at ht
    cases ht
  | @request name rest x hs ha hx =>
    rw [ha] at hconduct hengaged
    obtain ⟨hp, -, rfl⟩ := hengaged.of_load
    simp only [beginLoad, hx]
    refine ⟨h.1, by simpa [Effect.entry] using hconduct, ?_, by simp [hs]⟩
    rw [hp]
    exact .loading (by simp)
  | @refuse name rest hs ha hx =>
    rw [ha] at hconduct hengaged
    obtain ⟨hp, hj, rfl⟩ := hengaged.of_load
    simp only [beginLoad, hx]
    have hfeed := faithful_feed (j := j ++ [Entry.requested name]) (s := { s with agenda := [] })
      (e := .loaded (.error (.unknownModule name))) (x := .loaded (.error (.unknownModule name)))
      h.settings_eq rfl hs (Bridge.conduct_load hconduct h.settings_eq hp _)
      (by simpa [hj] using engaged_load hp _)
    simpa using hfeed
  | @call a command rest hs ha =>
    rw [ha] at hconduct hengaged
    obtain ⟨name, hp, -, rfl⟩ := hengaged.of_call
    have hb := h.settings_eq
    refine ⟨hb, by simpa [beginCall, Effect.entry, hb] using hconduct, ?_, by simp [beginCall, hs]⟩
    simp only [beginCall, hp, hb]
    exact .calling rfl
  | @take m rest hl hm =>
    obtain ⟨⟨hs, ha⟩, hj⟩ : (s.stopped = false ∧ s.agenda = []) ∧ _ := by
      simpa [listens] using hl
    have hrest := h.conduct_rest ha
    rw [ha] at hengaged
    cases hjob : s.job with
    | none =>
      rw [hjob] at hengaged
      have hp := hengaged.settled
      exact faithful_feed (s := { s with inbound := rest, job := .none }) (e := .received m)
        h.settings_eq ha hs (Bridge.conduct_receive hrest h.settings_eq hp.taking m)
        (engaged_receive hp m)
    | loading x p deadline seen =>
      rw [hjob] at hengaged
      obtain ⟨⟨name, hp⟩, -⟩ := hengaged.of_loading
      obtain ⟨hphase, hbrief⟩ := brief_receive hp m
      have ht : s.bridge.phase.Taking := by simp [hp, Phase.Taking]
      refine faithful_feed (s := { s with inbound := rest, job := .loading x p deadline seen })
        (e := .received m) h.settings_eq ha hs
        (Bridge.conduct_receive hrest h.settings_eq ht m) ?_
      change Engaged settings _ _ (s.bridge.receive m).1.phase (s.bridge.receive m).2
      rw [hphase]
      exact .loading hbrief
    | calling since x => simp [hjob] at hj
  | @load x p deadline seen result hs ha hj =>
    rw [hj] at hengaged
    obtain ⟨⟨name, hp⟩, -⟩ := hengaged.of_loading
    exact faithful_feed (s := { s with job := .none }) h.settings_eq ha hs
      (Bridge.conduct_load (h.conduct_rest ha) h.settings_eq hp result) (engaged_load hp result)
  | @answer since x result hs ha hj hx =>
    rw [hj] at hengaged
    obtain ⟨name, a, command, before, hp, rfl, rfl⟩ := hengaged.of_calling
    exact faithful_feed (s := { s with job := .none }) h.settings_eq ha hs
      (Bridge.conduct_answer (h.conduct_rest ha) h.settings_eq hp hx) (engaged_answer hp _ result)
  | exhaust hs ha hj hi =>
    exact ⟨h.1, by simpa [stop] using h.2, by simpa [stop] using h.3, fun _ _ => ⟨ha, fun _ => hj⟩⟩
  | crashLoad hs ha hj =>
    exact ⟨h.1, by simpa [crashed, stop] using h.2, by simpa [crashed, stop] using h.3,
      fun _ _ => ⟨ha, fun hc => by simp [crashed] at hc⟩⟩
  | crashCall hs ha hj hx =>
    exact ⟨h.1, by simpa [crashed, stop] using h.2, by simpa [crashed, stop] using h.3,
      fun _ _ => ⟨ha, fun hc => by simp [crashed] at hc⟩⟩

theorem Run.faithful {registry : Registry σ} {s : Session σ}
    (run : Run (create registry settings) j s) : Faithful settings j s := by
  induction run with
  | start => exact ⟨rfl, .start, .free trivial (by simp [create]), by simp [create]⟩
  | step _ next ih => exact ih.step next

/-- What a panic leaves behind: nothing more is done, and the load or the call in which it arose has
no end. -/
inductive Wrecked (p : Panic) (s : Session σ) : Prop
  | load {x progress deadline seen} (hs : s.stopped = true) (ha : s.agenda = [])
      (hj : s.job = .loading x progress deadline seen) : Wrecked p s
  | call {since x} (hs : s.stopped = true) (ha : s.agenda = []) (hj : s.job = .calling since x)
      (hx : x.answer = .crashed p) : Wrecked p s

theorem Wrecked.step {s t : Session σ} {k : Journal σ} {p : Panic}
    (h : s.crash = some p → Wrecked p s) (next : Step s k t) (hc : t.crash = some p) :
    Wrecked p t := by
  have alive (hs : s.stopped = false) : s.crash ≠ some p := by
    intro hsome
    cases h hsome with
    | load hs' => simp [hs'] at hs
    | call hs' => simp [hs'] at hs
  cases next with
  | crashLoad hs ha hj => exact .load rfl ha hj
  | crashCall hs ha hj hx =>
    obtain rfl := Option.some.inj hc
    exact .call rfl ha hj hx
  | linger hj =>
    cases h hc with
    | load hs ha _ => exact .load hs ha rfl
    | call _ _ hj' => simp [hj'] at hj
  | send | collect | close | disconnect | elapse =>
    cases h hc with
    | load hs ha hj => exact .load hs ha hj
    | call hs ha hj hx => exact .call hs ha hj hx
  | request hs ha hx =>
    simp only [beginLoad, hx] at hc
    exact absurd hc (alive hs)
  | refuse hs ha hx =>
    simp only [beginLoad, hx, feed] at hc
    exact absurd hc (alive hs)
  | take hl hm =>
    obtain ⟨⟨hs, -⟩, -⟩ : (s.stopped = false ∧ s.agenda = []) ∧ _ := by
      simpa [listens] using hl
    exact absurd hc (alive hs)
  | publish hs | post hs | lose hs | call hs | load hs | answer hs | exhaust hs =>
    exact absurd hc (alive hs)

theorem Run.wrecked {registry : Registry σ} {s : Session σ} {p : Panic}
    (run : Run (create registry settings) j s) (hc : s.crash = some p) : Wrecked p s := by
  induction run with
  | start => cases hc
  | step _ next ih => exact .step ih next hc

/-- A panic has come out of a load, or out of the last call of the journal. -/
theorem Run.crash_cases {registry : Registry σ} {s : Session σ} {p : Panic}
    (run : Run (create registry settings) j s) (hc : s.crash = some p) :
    s.stopped = true ∧
      ((∃ name, Conduct settings j (.loading name) s.bridge.pending) ∨
        ∃ name before a command, Conduct settings j (.running name) s.bridge.pending ∧
          j = before ++ [Entry.called settings.contextId a command] ∧
          (a.execute settings.contextId command).answer = .crashed p) := by
  have hfaithful := run.faithful
  have hengaged := hfaithful.engaged
  cases run.wrecked hc with
  | load hs ha hj =>
    rw [hj] at hengaged
    obtain ⟨⟨name, hp⟩, -⟩ := hengaged.of_loading
    exact ⟨hs, .inl ⟨name, hp ▸ hfaithful.conduct_rest ha⟩⟩
  | call hs ha hj hx =>
    rw [hj] at hengaged
    obtain ⟨name, a, command, before, hp, hjournal, rfl⟩ := hengaged.of_calling
    exact ⟨hs, .inr ⟨name, before, a, command, hp ▸ hfaithful.conduct_rest ha, hjournal, hx⟩⟩

/-- The bridge is about to take a message, or it has come to its end, not by a panic, with a host
that still listens. -/
def Resting (s : Session σ) : Prop :=
  s.listens = true ∨ s.stopped = true ∧ s.outbound.receiving = true ∧ s.crash = none

theorem Faithful.agenda_resting {s : Session σ} (h : Faithful settings j s) (hr : s.Resting) :
    s.agenda = [] := by
  rcases hr with hl | ⟨hs, ho, -⟩
  · simp only [listens, Bool.and_eq_true, List.isEmpty_iff] at hl
    exact hl.1.2
  · exact (h.ended hs ho).1

/-- A bridge that has come to its end has neither a load nor a call under way. -/
theorem Faithful.settled_ended {s : Session σ} (h : Faithful settings j s)
    (hs : s.stopped = true) (ho : s.outbound.receiving = true) (hc : s.crash = none) :
    s.bridge.phase.Settled := by
  obtain ⟨ha, hjob⟩ := h.ended hs ho
  have hengaged := h.engaged
  rw [ha, hjob hc] at hengaged
  exact hengaged.settled

theorem Faithful.taking_resting {s : Session σ} (h : Faithful settings j s) (hr : s.Resting) :
    s.bridge.phase.Taking := by
  have hagenda := h.agenda_resting hr
  rcases hr with hl | ⟨hs, ho, hc⟩
  · have hengaged := h.engaged
    rw [hagenda] at hengaged
    cases hjob : s.job with
    | none =>
      rw [hjob] at hengaged
      exact hengaged.settled.taking
    | loading x p deadline seen =>
      rw [hjob] at hengaged
      obtain ⟨⟨name, hp⟩, -⟩ := hengaged.of_loading
      simp [hp, Phase.Taking]
    | calling since x => simp [listens, hjob] at hl
  · exact (h.settled_ended hs ho hc).taking

end Session

end EngineBridge
