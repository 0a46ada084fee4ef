import EngineBridge.Bridge.Worker
import EngineBridge.Proofs.Fields

/-!
# A bridge, statement by statement

A bridge that sets its fields one after another, with a message, the end of a load or of a call
whenever it waits for one. On the way from one rest to the next its fields do not fit together; once
it rests they do, and it has done what a bridge does that takes each event at once.
-/

namespace EngineBridge

open Journal

/-- The fields of a bridge that is about to take a message. -/
def Bridge.fields {α : Type} (b : Bridge α) : Fields α where
  settings := b.settings
  state := b.lifecycle
  adapter := match b.phase with | .ready _ a => some a | _ => none
  pending := b.pending
  module := b.phase.module
  failure := match b.phase with | .failed _ e => some e | _ => none

/-- What the statement needs of the fields is there. -/
def Fields.Furnishes {α : Type} (f : Fields α) : Statement α → Prop
  | .execute _ => f.adapter ≠ none
  | .command _ => f.state = .failed → f.failure ≠ none
  | _ => True

namespace Worker

section Standing

variable {α : Type}

/-- The next statement finds what it needs. -/
def Furnished (w : Worker α) : Prop :=
  match w.todo with
  | [] => True
  | s :: _ => w.fields.Furnishes s

/-- The worker waits, and its fields are those of the bridge. An adapter that is away on a call is
in its place. -/
inductive Rests : Bridge α → Worker α → Prop
  | uninitialized {settings pending} :
      Rests ⟨settings, .uninitialized, pending⟩ ⟨{ settings, pending }, [], .message⟩
  | loading {settings name pending} :
      Rests ⟨settings, .loading name, pending⟩
        ⟨{ settings, state := .loading, pending, module := some name }, [], .load⟩
  | ready {settings name a} :
      Rests ⟨settings, .ready name a, []⟩
        ⟨{ settings, state := .ready, adapter := some a, module := some name }, [], .message⟩
  | failed {settings module e} :
      Rests ⟨settings, .failed module e, []⟩
        ⟨{ settings, state := .failed, module, failure := some e }, [], .message⟩
  | serving {settings name a text} :
      Rests ⟨settings, .running name, []⟩
        ⟨{ settings, state := .ready, adapter := some a, module := some name }, [], .answer a text⟩
  | draining {settings name a text pending} :
      Rests ⟨settings, .running name, pending⟩
        ⟨{ settings, state := .ready, adapter := some a, pending, module := some name }, [.drain],
          .answer a text⟩

/-- With these effects the worker comes to rest as this bridge, and no statement on its way misses
what it needs. -/
inductive Stands (b : Bridge α) : Worker α → List (Effect α) → Prop
  | rest {w} (h : Rests b w) : Stands b w []
  | silent {w w' agenda} (hf : w.Furnished) (h : w.advance = some (w', none))
      (next : Stands b w' agenda) : Stands b w agenda
  | visible {w w' e agenda} (hf : w.Furnished) (h : w.advance = some (w', some e))
      (next : Stands b w' agenda) : Stands b w (e :: agenda)

variable {b : Bridge α} {w : Worker α} {agenda : List (Effect α)} {settings : BridgeSettings}
  {name : String}

theorem Rests.advance_eq_none (h : Rests b w) : w.advance = none := by
  cases h <;> rfl

theorem Rests.loading_of_load (h : Rests b w) (hw : w.awaiting = .load) :
    ∃ name, b.phase = .loading name := by
  cases h with
  | loading => exact ⟨_, rfl⟩
  | _ => cases hw

theorem Rests.running_of_answer {a : α} {text : String} (h : Rests b w)
    (hw : w.awaiting = .answer a text) : ∃ name, b.phase = .running name := by
  cases h with
  | serving => exact ⟨_, rfl⟩
  | draining => exact ⟨_, rfl⟩
  | _ => cases hw

theorem Rests.awaiting_of_loading (h : Rests b w) (hp : b.phase = .loading name) :
    w.awaiting = .load := by
  cases h with
  | loading => rfl
  | _ => cases hp

theorem Rests.awaiting_of_settled (h : Rests b w) (hp : b.phase.Settled) :
    w.awaiting = .message := by
  cases h with
  | loading => exact hp.elim
  | serving => exact hp.elim
  | draining => exact hp.elim
  | _ => rfl

theorem Rests.listens_of_taking (h : Rests b w) (hp : b.phase.Taking) : w.listens = true := by
  cases h with
  | serving => exact hp.elim
  | draining => exact hp.elim
  | _ => rfl

theorem Rests.fields_eq (h : Rests b w) (hl : w.listens = true) : w.fields = b.fields := by
  cases h with
  | serving => cases hl
  | draining => cases hl
  | _ => rfl

theorem Rests.taking_of_listens (h : Rests b w) (hl : w.listens = true) : b.phase.Taking := by
  cases h with
  | serving => cases hl
  | draining => cases hl
  | _ => trivial

theorem Stands.furnished (h : Stands b w agenda) : w.Furnished := by
  cases h with
  | silent hf => exact hf
  | visible hf => exact hf
  | rest h => cases h <;> trivial

/-- A worker with nothing left to do stands where it rests. -/
theorem Stands.rests (h : Stands b w agenda) (hw : w.advance = none) : agenda = [] ∧ Rests b w := by
  cases h with
  | rest h => exact ⟨rfl, h⟩
  | silent _ h => simp [hw] at h
  | visible _ h => simp [hw] at h

theorem Stands.of_silent {w' : Worker α} (h : Stands b w agenda)
    (hw : w.advance = some (w', none)) : Stands b w' agenda := by
  cases h with
  | rest h => simp [h.advance_eq_none] at hw
  | silent _ h next =>
    obtain rfl : _ = w' := by simpa [hw] using h.symm
    exact next
  | visible _ h => simp [hw] at h

theorem Stands.of_visible {w' : Worker α} {e : Effect α} (h : Stands b w agenda)
    (hw : w.advance = some (w', some e)) : ∃ rest, agenda = e :: rest ∧ Stands b w' rest := by
  cases h with
  | rest h => simp [h.advance_eq_none] at hw
  | silent _ h => simp [hw] at h
  | visible _ h next =>
    obtain ⟨rfl, rfl⟩ : w' = _ ∧ e = _ := by simpa [hw] using h
    exact ⟨_, rfl, next⟩

theorem Stands.posts {f : Fields α} {todo : List (Statement α)} (ms : List Outbound)
    (h : Stands b ⟨f, todo, .message⟩ agenda) :
    Stands b ⟨f, ms.map .post ++ todo, .message⟩ (ms.map .post ++ agenda) := by
  induction ms with
  | nil => exact h
  | cons m ms ih => exact .visible trivial rfl ih

theorem Stands.refuse {e : LoadError} {module : Option String} (pending : List String) :
    Stands ⟨settings, .failed module e, []⟩
      ⟨{ settings, state := .failed, pending, module, failure := some e }, [.refuse e], .message⟩
      (pending.map fun _ => .post (BridgeError.load e).notice : List (Effect α)) := by
  induction pending with
  | nil => exact .silent trivial rfl (.rest .failed)
  | cons text rest ih => exact .silent trivial rfl (.visible trivial rfl ih)

/-- The failure of a load is told, and once more for each waiting command. -/
theorem Stands.fail (b : Bridge α) (module : Option String) (e : LoadError) :
    Stands (b.fail module e).1
      ⟨{ settings := b.settings, state := .loading, pending := b.pending, module }, [.fail e],
        .message⟩
      (b.fail module e).2 :=
  -- The state is set, then the failure, and only then is the queue emptied.
  .silent trivial rfl <| .visible trivial rfl <| .silent trivial rfl <| .visible trivial rfl <|
    .refuse b.pending

/-- A bridge that is ready runs what waits, or rests. -/
theorem Stands.drain (b : Bridge α) (name : String) (a : α) :
    Stands (b.proceed name a).1
      ⟨{ settings := b.settings, state := .ready, adapter := some a, pending := b.pending,
          module := some name }, [.drain], .message⟩
      (b.proceed name a).2 := by
  obtain ⟨settings, phase, pending⟩ := b
  cases pending with
  | nil => exact .silent trivial rfl (.rest .ready)
  | cons text rest =>
    have hadapter : some a ≠ none := Option.some_ne_none a
    exact .silent trivial rfl <| .silent hadapter rfl <| .visible trivial rfl (.rest .draining)

theorem Rests.keep (h : Rests b w) (hp : b.phase.Waiting) (pending : List String) :
    Rests { b with pending } { w with fields := { w.fields with pending } } := by
  cases h with
  | uninitialized => exact .uninitialized
  | loading => exact .loading
  | _ => exact hp.elim

/-- A command that comes before the engine is kept or refused. -/
theorem Stands.defer (h : Rests b w) (hp : b.phase.Waiting) (text : String) :
    let (fields, todo) := w.fields.defer text
    Stands (b.defer text).1 { w with fields, todo } (b.defer text).2 := by
  have hkept := Stands.rest (h.keep hp (b.pending ++ [text]))
  obtain ⟨hsettings, hpending, htodo, hpost⟩ : w.fields.settings = b.settings ∧
      w.fields.pending = b.pending ∧ w.todo = [] ∧
      ∀ m, { w with todo := [.post m] }.advance = some (w, some (.post m)) := by
    cases h with
    | uninitialized => exact ⟨rfl, rfl, rfl, fun _ => rfl⟩
    | loading => exact ⟨rfl, rfl, rfl, fun _ => rfl⟩
    | _ => exact hp.elim
  unfold Bridge.defer Fields.defer
  rw [hsettings, hpending]
  cases b.settings.pendingPolicy with
  | reject => exact .visible trivial (hpost _) (.rest h)
  | queue =>
    by_cases hn : b.settings.maxPending ≤ b.pending.length
    · simp only [hn, if_true]
      exact .visible trivial (hpost _) (.rest h)
    · simpa only [hn, if_false, hsettings, htodo] using hkept

theorem Stands.command (h : Rests b w) (hl : w.listens = true) (text : String) :
    Stands (b.command text).1 { w with todo := [.command text] } (b.command text).2 := by
  cases h with
  | @uninitialized settings pending =>
    have hdefer := Stands.defer (@Rests.uninitialized α settings pending) trivial text
    refine .silent (fun h => by cases h) rfl ?_
    rw [List.append_nil]
    exact hdefer
  | @loading settings name pending =>
    have hdefer := Stands.defer (@Rests.loading α settings name pending) trivial text
    refine .silent (fun h => by cases h) rfl ?_
    rw [List.append_nil]
    exact hdefer
  | @ready settings name a =>
    have hadapter : some a ≠ none := Option.some_ne_none a
    exact .silent (fun h => by cases h) rfl <| .silent hadapter rfl <|
      .visible trivial rfl (.rest .serving)
  | @failed settings module e =>
    have hfailure : some e ≠ none := Option.some_ne_none e
    exact .silent (fun _ => hfailure) rfl <| .visible trivial rfl (.rest .failed)
  | serving => cases hl
  | draining => cases hl

theorem Stands.start (h : Rests b w) (hw : w.awaiting = .message) (module : Option String) :
    Stands (b.start module).1 { w with todo := [.start module] } (b.start module).2 := by
  cases h with
  | @uninitialized settings pending =>
    refine .silent trivial rfl ?_
    change Stands _ ⟨_, Fields.start { settings, pending } module ++ [], .message⟩ _
    unfold Fields.start Bridge.start
    dsimp only
    cases module.or settings.defaultModule with
    | none =>
      have hfail := Stands.fail (⟨settings, .uninitialized, pending⟩ : Bridge α) none .noModule
      exact .visible trivial rfl hfail
    | some name =>
      exact .visible trivial rfl <| .silent trivial rfl <| .visible trivial rfl (.rest .loading)
  | loading => cases hw
  | ready => exact .silent trivial rfl (.rest .ready)
  | failed => exact .silent trivial rfl (.rest .failed)
  | serving => cases hw
  | draining => cases hw

theorem Stands.take (h : Rests b w) (hl : w.listens = true) (m : Inbound) :
    Stands (b.receive m).1 (w.take m) (b.receive m).2 := by
  cases m with
  | command text =>
    have hcommand := Stands.command h hl text
    cases h <;> exact hcommand
  | malformed reason =>
    cases h with
    | serving => cases hl
    | draining => cases hl
    | _ => exact .visible trivial rfl (.rest (by constructor))
  | control c =>
    cases c with
    | status =>
      cases h with
      | serving => cases hl
      | draining => cases hl
      | _ => exact .silent trivial rfl <| .visible trivial rfl (.rest (by constructor))
    | start module =>
      cases h with
      | uninitialized => exact .start .uninitialized rfl module
      | loading => exact .rest .loading
      | ready => exact .start .ready rfl module
      | failed => exact .start .failed rfl module
      | serving => cases hl
      | draining => cases hl

theorem Stands.loaded (h : Rests b w) (hl : b.phase = .loading name) (result : Except LoadError α) :
    Stands (b.step (.loaded result)).1 (w.loaded result) (b.step (.loaded result)).2 := by
  cases h with
  | @loading settings name pending =>
    cases result with
    | error e => exact .fail ⟨settings, .loading name, pending⟩ (some name) e
    | ok a =>
      -- Once the state is set the fields do not fit together until `drain` has come to its end.
      exact .silent trivial rfl <| .visible trivial rfl <| .visible trivial rfl <|
        .drain ⟨settings, .loading name, pending⟩ name a
  | _ => cases hl

theorem Stands.answered {a : α} {text : String} (h : Rests b w) (ha : w.awaiting = .answer a text)
    (after : α) (result : Except EngineError String) :
    Stands (b.step (.answered after result)).1 (w.answered after result)
      (b.step (.answered after result)).2 := by
  cases h with
  | serving => exact .posts _ (.rest .ready)
  | @draining settings name a text pending =>
    exact .posts _ (.drain ⟨settings, .running name, pending⟩ name after)
  | _ => cases ha

theorem run_settings (f : Fields α) (s : Statement α) : (f.run s).1.1.settings = f.settings := by
  cases s with
  | command text =>
    unfold Fields.run Fields.command Fields.defer
    grind
  | drain =>
    unfold Fields.run Fields.drain
    grind
  | refuse e =>
    unfold Fields.run Fields.refuse
    grind
  | _ => rfl

/-- A statement is carried out only while no call is under way. -/
theorem advance_cases {w w' : Worker α} {e : Option (Effect α)} (h : w.advance = some (w', e)) :
    w.awaiting.free = true ∧ w'.fields.settings = w.fields.settings ∧
      w'.awaiting = w.awaitingAfter e := by
  unfold advance at h
  split at h
  next s rest hfree htodo =>
    obtain ⟨rfl, rfl⟩ := Prod.mk.inj (Option.some.inj h)
    exact ⟨hfree, run_settings w.fields s, rfl⟩
  next => cases h

theorem ne_nothing_of_advance {w' : Worker α} {e : Option (Effect α)}
    (h : w.advance = some (w', e)) : w.awaiting ≠ .nothing := by
  obtain ⟨hfree, -, -⟩ := advance_cases h
  intro hn
  simp [hn, Awaiting.free] at hfree

/-- An answer is awaited behind a call, and behind nothing else. -/
theorem awaiting_answer_iff {w' : Worker α} {e : Option (Effect α)} {a : α} {text : String}
    (h : w.advance = some (w', e)) : w'.awaiting = .answer a text ↔ e = some (.call a text) := by
  obtain ⟨hfree, -, hawaiting⟩ := advance_cases h
  rw [hawaiting]
  unfold awaitingAfter
  split
  · simp
  · simp
  next hcall =>
    constructor
    · intro ha
      simp [ha, Awaiting.free] at hfree
    · intro he
      exact absurd he (hcall a text)

theorem advance_of_listens (h : w.listens = true) : w.advance = none := by
  obtain ⟨-, htodo⟩ : w.awaiting.free = true ∧ w.todo = [] := by simpa [listens] using h
  simp [advance, htodo]

theorem advance_of_answer {a : α} {text : String} (h : w.awaiting = .answer a text) :
    w.advance = none := by
  simp [advance, h, Awaiting.free]

theorem ne_answer_of_listens {a : α} {text : String} (h : w.listens = true) :
    w.awaiting ≠ .answer a text := by
  intro ha
  simp [listens, ha, Awaiting.free] at h

theorem ne_nothing_of_listens (h : w.listens = true) : w.awaiting ≠ .nothing := by
  intro ha
  simp [listens, ha, Awaiting.free] at h

theorem Stands.settings_eq (h : Stands b w agenda) : w.fields.settings = b.settings := by
  induction h with
  | rest h => cases h <;> rfl
  | silent _ h _ ih => exact (advance_cases h).2.1.symm.trans ih
  | visible _ h _ ih => exact (advance_cases h).2.1.symm.trans ih

end Standing

variable {σ : Type} [Interpreter σ] {settings : BridgeSettings} {j k : Journal σ}

/-- One step of a bridge among its surroundings. Messages come, a load ends, and a post is lost, at
any time at which that can happen. -/
inductive Step : Worker (Adapter σ) → Journal σ → Worker (Adapter σ) → Prop
  | silent {w w'} (h : w.advance = some (w', none)) : Step w [] w'
  | visible {w w' e} (h : w.advance = some (w', some e)) :
      Step w [e.entry w.fields.settings.contextId] w'
  /-- The host has left. -/
  | lose {w w' m} (h : w.advance = some (w', some (.post m))) : Step w [] w.stop
  | take {w m} (hl : w.listens = true) : Step w [.took m] (w.take m)
  | load {w result} (hl : w.listens = true) (ha : w.awaiting = .load) :
      Step w [.loaded result] (w.loaded result)
  | answer {w a text result} (ha : w.awaiting = .answer a text)
      (hx : (a.execute w.fields.settings.contextId text).answer = .ofResult result) :
      Step w [.answered result]
        (w.answered (a.execute w.fields.settings.contextId text).after result)
  /-- Nothing more will come. -/
  | exhaust {w} (hl : w.listens = true) (ha : w.awaiting = .message) : Step w [] w.stop
  /-- A start of the interpreter panics. -/
  | crashLoad {w} (hl : w.listens = true) (ha : w.awaiting = .load) : Step w [] w.stop
  /-- A recovery panics. -/
  | crashCall {w a text panic} (ha : w.awaiting = .answer a text)
      (hx : (a.execute w.fields.settings.contextId text).answer = .crashed panic) :
      Step w [] w.stop

/-- The steps from one worker to another, with the journal of them all. -/
inductive Run (w : Worker (Adapter σ)) : Journal σ → Worker (Adapter σ) → Prop
  | start : Run w [] w
  | step {j k u v} (run : Run w j u) (next : Step u k v) : Run w (j ++ k) v

theorem Run.single {u v : Worker (Adapter σ)} (h : Step u j v) : Run u j v := by
  simpa using Run.step .start h

theorem Run.trans {u v w : Worker (Adapter σ)} (first : Run u j v) (second : Run v k w) :
    Run u (j ++ k) w := by
  induction second with
  | start => simpa using first
  | step _ next ih => simpa only [List.append_assoc] using ih.step next

variable {w w' : Worker (Adapter σ)} {b : Bridge (Adapter σ)} {agenda : List (Effect (Adapter σ))}

/-- The journal of a worker, with what it has still to do, is one of a bridge at rest. -/
structure Accounted (settings : BridgeSettings) (j : Journal σ) (w : Worker (Adapter σ))
    (b : Bridge (Adapter σ)) (agenda : List (Effect (Adapter σ))) : Prop where
  settings_eq : b.settings = settings
  conduct : Conduct settings (j ++ agenda.map (Effect.entry settings.contextId)) b.phase b.pending
  stands : w.awaiting = .nothing ∧ w.todo = [] ∨ Stands b w agenda
  calling : ∀ a text, w.awaiting = .answer a text →
    ∃ before, j = before ++ [Entry.called settings.contextId a text]

namespace Accounted

theorem stands_of_ne (h : Accounted settings j w b agenda) (hw : w.awaiting ≠ .nothing) :
    Stands b w agenda :=
  h.stands.resolve_left fun hn => hw hn.1

theorem rests (h : Accounted settings j w b agenda) (hw : w.advance = none)
    (ha : w.awaiting ≠ .nothing) :
    agenda = [] ∧ Rests b w ∧ Conduct settings j b.phase b.pending := by
  obtain ⟨rfl, hrests⟩ := (h.stands_of_ne ha).rests hw
  exact ⟨rfl, hrests, by simpa using h.conduct⟩

theorem of_listens (h : Accounted settings j w b agenda) (hl : w.listens = true) :
    agenda = [] ∧ Rests b w ∧ Conduct settings j b.phase b.pending :=
  h.rests (advance_of_listens hl) (ne_nothing_of_listens hl)

/-- A bridge that ends leaves undone what it had still to do. -/
theorem stop (h : Accounted settings j w b agenda) : Accounted settings j w.stop b agenda where
  settings_eq := h.settings_eq
  conduct := h.conduct
  stands := .inl ⟨rfl, rfl⟩
  calling := fun a text h => by cases h

/-- A worker at rest that is told of an event. -/
theorem event {x : Entry σ} {e : BridgeEvent (Adapter σ)} (hb : b.settings = settings)
    (ha : ∀ a text, w.awaiting ≠ .answer a text)
    (hc : Conduct settings (j ++ x :: (b.step e).2.map (Effect.entry settings.contextId))
      (b.step e).1.phase (b.step e).1.pending)
    (hs : Stands (b.step e).1 w (b.step e).2) :
    Accounted settings (j ++ [x]) w (b.step e).1 (b.step e).2 where
  settings_eq := (Bridge.settings_step b e).trans hb
  conduct := by simpa using hc
  stands := .inr hs
  calling := fun a text hcall => absurd hcall (ha a text)

theorem step (h : Accounted settings j w b agenda) (next : Step w k w') :
    ∃ b' agenda', Accounted settings (j ++ k) w' b' agenda' := by
  have hb := h.settings_eq
  cases next with
  | silent hw =>
    have hstands := h.stands_of_ne (ne_nothing_of_advance hw)
    refine ⟨b, agenda, hb, by simpa using h.conduct, .inr (hstands.of_silent hw), ?_⟩
    intro a text ha
    cases (awaiting_answer_iff hw).1 ha
  | @visible _ e hw =>
    have hstands := h.stands_of_ne (ne_nothing_of_advance hw)
    obtain ⟨rest, rfl, hnext⟩ := hstands.of_visible hw
    rw [hstands.settings_eq, hb]
    refine ⟨b, rest, hb, by simpa using h.conduct, .inr hnext, ?_⟩
    intro a text ha
    obtain rfl := Option.some.inj ((awaiting_answer_iff hw).1 ha)
    exact ⟨j, rfl⟩
  | lose hw => exact ⟨b, agenda, by simpa using h.stop⟩
  | @take m hl =>
    obtain ⟨rfl, hrests, hconduct⟩ := h.of_listens hl
    have hp := hrests.taking_of_listens hl
    exact ⟨_, _, .event (e := .received m) hb (by simp [ne_answer_of_listens hl])
      (Bridge.conduct_receive hconduct hb hp m) (.take hrests hl m)⟩
  | @load result hl ha =>
    obtain ⟨rfl, hrests, hconduct⟩ := h.of_listens hl
    obtain ⟨name, hp⟩ := hrests.loading_of_load ha
    exact ⟨_, _, .event hb (by simp [Worker.loaded])
      (Bridge.conduct_load hconduct hb hp result) (.loaded hrests hp result)⟩
  | @answer a text result ha hx =>
    obtain ⟨rfl, hrests, hconduct⟩ := h.rests (advance_of_answer ha) (by simp [ha])
    obtain ⟨name, hp⟩ := hrests.running_of_answer ha
    -- The journal ends with the call itself: no entry comes while a call is under way.
    obtain ⟨before, rfl⟩ := h.calling a text ha
    rw [(Stands.rest hrests).settings_eq, hb] at hx ⊢
    exact ⟨_, _, .event hb (by simp [Worker.answered])
      (Bridge.conduct_answer hconduct hb hp hx) (.answered hrests ha _ result)⟩
  | exhaust => exact ⟨b, agenda, by simpa using h.stop⟩
  | crashLoad => exact ⟨b, agenda, by simpa using h.stop⟩
  | crashCall => exact ⟨b, agenda, by simpa using h.stop⟩

end Accounted

theorem Run.accounted (run : Run (create settings) j w) :
    ∃ b agenda, Accounted settings j w b agenda := by
  induction run with
  | start =>
    exact ⟨⟨settings, .uninitialized, []⟩, [], rfl, .start, .inr (.rest .uninitialized),
      fun a text h => by cases h⟩
  | step _ next ih =>
    obtain ⟨b, agenda, h⟩ := ih
    exact h.step next

/-- What is not seen from outside is done until nothing is left. -/
theorem Stands.settle (h : Stands b w []) : ∃ w', Run w [] w' ∧ Rests b w' := by
  generalize hagenda : ([] : List (Effect (Adapter σ))) = agenda at h
  induction h with
  | rest h => exact ⟨_, .start, h⟩
  | silent _ hw _ ih =>
    obtain ⟨w', run, h⟩ := ih hagenda
    exact ⟨w', (Run.single (.silent hw)).trans run, h⟩
  | visible => cases hagenda

theorem Stands.perform {e : Effect (Adapter σ)} (h : Stands b w (e :: agenda)) :
    ∃ v v', Run w [] v ∧ v.fields.settings = b.settings ∧ v.advance = some (v', some e) ∧
      Stands b v' agenda := by
  generalize hagenda : e :: agenda = l at h
  induction h with
  | rest => cases hagenda
  | silent _ hw _ ih =>
    obtain ⟨v, v', run, hv⟩ := ih hagenda
    exact ⟨v, v', (Run.single (.silent hw)).trans run, hv⟩
  | @visible w w' e' rest hf hw next =>
    obtain ⟨rfl, rfl⟩ := List.cons.inj hagenda
    exact ⟨w, w', .start, (Stands.visible hf hw next).settings_eq, hw, next⟩

/-- A session and a worker that have come to the same point. -/
inductive Shadows (s : Session σ) (w : Worker (Adapter σ)) : Prop
  | ended (hs : s.stopped = true) (hw : w.awaiting = .nothing)
  | working (hs : s.stopped = false) (hj : ∀ since x, s.job ≠ .calling since x)
      (h : Stands s.bridge w s.agenda)
  | calling {since a text} (hs : s.stopped = false)
      (hj : s.job = .calling since (a.execute s.bridge.settings.contextId text))
      (hw : w.awaiting = .answer a text) (h : Rests s.bridge w)

namespace Shadows

variable {s t : Session σ}

/-- What the surroundings do, the worker does not see. -/
theorem frame (h : Shadows s w) (hs : t.stopped = s.stopped) (hb : t.bridge = s.bridge)
    (ha : t.agenda = s.agenda)
    (hj : ∀ since x, t.job = .calling since x ↔ s.job = .calling since x) : Shadows t w := by
  cases h with
  | ended h hw => exact .ended (hs.trans h) hw
  | working h hjob hstands =>
    exact .working (hs.trans h) (fun since x ht => hjob since x ((hj since x).1 ht))
      (by rw [hb, ha]; exact hstands)
  | @calling since a text h hjob hw hrests =>
    exact .calling (hs.trans h) (by rw [hb]; exact (hj since _).2 hjob) hw (hb ▸ hrests)

theorem stands (h : Shadows s w) (hs : s.stopped = false)
    (hj : ∀ since x, s.job ≠ .calling since x) : Stands s.bridge w s.agenda := by
  cases h with
  | ended h => simp [hs] at h
  | working _ _ h => exact h
  | calling _ hjob => exact absurd hjob (hj _ _)

/-- With something left to do no call is under way. -/
theorem idle_of_agenda (hf : Session.Faithful settings j s) {e : Effect (Adapter σ)}
    {rest : List (Effect (Adapter σ))} (ha : s.agenda = e :: rest) (since : Nat)
    (x : Execution σ) : s.job ≠ .calling since x := by
  intro hj
  have hengaged := hf.engaged
  rw [hj] at hengaged
  rw [hengaged.agenda_of_calling] at ha
  cases ha

/-- What the bridge is to do next, the worker can do. -/
theorem perform (hf : Session.Faithful settings j s) (h : Shadows s w) (hs : s.stopped = false)
    {e : Effect (Adapter σ)} {rest : List (Effect (Adapter σ))} (ha : s.agenda = e :: rest) :
    ∃ v v', Run w [] v ∧ v.fields.settings = s.bridge.settings ∧ v.advance = some (v', some e) ∧
      Stands s.bridge v' rest := by
  have hstands := h.stands hs (idle_of_agenda hf ha)
  rw [ha] at hstands
  exact hstands.perform

theorem settle (h : Shadows s w) (hs : s.stopped = false) (ha : s.agenda = [])
    (hj : ∀ since x, s.job ≠ .calling since x) : ∃ w', Run w [] w' ∧ Rests s.bridge w' := by
  have hstands := h.stands hs hj
  rw [ha] at hstands
  exact hstands.settle

theorem settle_loading (hf : Session.Faithful settings j s) (h : Shadows s w)
    (hs : s.stopped = false) (ha : s.agenda = []) {x : Registration σ} {p : Progress}
    {deadline : Nat} {looked : Bool} (hj : s.job = .loading x p deadline looked) :
    ∃ w' name, Run w [] w' ∧ Rests s.bridge w' ∧ s.bridge.phase = .loading name := by
  have hengaged := hf.engaged
  rw [hj] at hengaged
  obtain ⟨⟨name, hp⟩, -⟩ := hengaged.of_loading
  obtain ⟨w', run, hrests⟩ := h.settle hs ha (by simp [hj])
  exact ⟨w', name, run, hrests, hp⟩

/-- An event that is fed to a session with nothing left to do. -/
theorem fed {e : BridgeEvent (Adapter σ)} (hs : s.stopped = false) (ha : s.agenda = [])
    (hj : ∀ since x, s.job ≠ .calling since x)
    (h : Stands (s.bridge.step e).1 w (s.bridge.step e).2) : Shadows (s.feed e) w :=
  .working hs hj (by simpa [Session.feed, ha] using h)

theorem step (hf : Session.Faithful settings j s) (h : Shadows s w)
    (next : Session.Step s k t) : ∃ w', Run w k w' ∧ Shadows t w' := by
  cases next with
  | send | collect | close | disconnect | elapse =>
    exact ⟨w, .start, h.frame rfl rfl rfl fun _ _ => .rfl⟩
  | linger hj => exact ⟨w, .start, h.frame rfl rfl rfl (by simp [hj])⟩
  | publish hs ha =>
    have hidle := idle_of_agenda hf ha
    obtain ⟨v, v', run, hv, hadvance, hstands⟩ := h.perform hf hs ha
    refine ⟨v', run.trans ?_, .working hs hidle hstands⟩
    exact .single (.visible hadvance)
  | post hs ha =>
    have hidle := idle_of_agenda hf ha
    obtain ⟨v, v', run, hv, hadvance, hstands⟩ := h.perform hf hs ha
    refine ⟨v', run.trans ?_, .working hs hidle hstands⟩
    exact .single (.visible hadvance)
  | lose hs ha =>
    obtain ⟨v, v', run, hv, hadvance, hstands⟩ := h.perform hf hs ha
    exact ⟨v.stop, run.trans (.single (.lose hadvance)), .ended rfl rfl⟩
  | @request name rest x hs ha hx =>
    obtain ⟨v, v', run, hv, hadvance, hstands⟩ := h.perform hf hs ha
    refine ⟨v', run.trans (.single (.visible hadvance)), ?_⟩
    simp only [Session.beginLoad, hx]
    exact .working hs (by simp) hstands
  | @refuse name rest hs ha hx =>
    have hengaged := hf.engaged
    rw [ha] at hengaged
    obtain ⟨hp, hj, rfl⟩ := hengaged.of_load
    -- The session refuses an unknown module in the step that asks for it. The worker waits for the
    -- load first, which may end at once.
    obtain ⟨v, v', run, -, hadvance, hstands⟩ := h.perform hf hs ha
    obtain ⟨u, settle, hrests⟩ := hstands.settle
    have hload := hrests.awaiting_of_loading hp
    have hl := hrests.listens_of_taking (by simp [hp, Phase.Taking])
    have hrefuse : Step u [.loaded (.error (.unknownModule name))] _ := .load hl hload
    refine ⟨_, (run.trans (.single (.visible hadvance))).trans (settle.trans (.single hrefuse)), ?_⟩
    simp only [Session.beginLoad, hx, Session.feed]
    exact .working hs (by simp [hj]) (.loaded hrests hp _)
  | @call a text rest hs ha =>
    obtain ⟨v, v', run, hv, hadvance, hstands⟩ := h.perform hf hs ha
    have hcall := (awaiting_answer_iff hadvance).2 rfl
    rw [← hv]
    exact ⟨v', run.trans (.single (.visible hadvance)),
      .calling hs rfl hcall (hstands.rests (advance_of_answer hcall)).2⟩
  | @take m rest hl hm =>
    obtain ⟨⟨hs, ha⟩, hj⟩ : (s.stopped = false ∧ s.agenda = []) ∧ _ := by
      simpa [Session.listens] using hl
    have hidle : ∀ since x, s.job ≠ .calling since x := by
      intro since x hx
      simp [hx] at hj
    obtain ⟨v, run, hrests⟩ := h.settle hs ha hidle
    have hv := hrests.listens_of_taking (hf.taking_resting (.inl hl))
    exact ⟨v.take m, run.trans (.single (.take hv)),
      .fed (s := { s with inbound := rest }) hs ha hidle (.take hrests hv m)⟩
  | @load x p deadline looked result hs ha hj =>
    obtain ⟨v, name, run, hrests, hp⟩ := h.settle_loading hf hs ha hj
    have hload := hrests.awaiting_of_loading hp
    have hl := hrests.listens_of_taking (by simp [hp, Phase.Taking])
    exact ⟨v.loaded result, run.trans (.single (.load hl hload)),
      .fed (s := { s with job := .none }) hs ha (by simp) (.loaded hrests hp result)⟩
  | @answer since x result hs ha hj hx =>
    cases h with
    | ended h => simp [hs] at h
    | working _ hidle => exact absurd hj (hidle _ _)
    | @calling _ a text _ hjob hw hrests =>
      obtain ⟨-, rfl⟩ := Job.calling.inj (hj.symm.trans hjob)
      have hsettings := (Stands.rest hrests).settings_eq
      refine ⟨_, .single (.answer hw (hsettings ▸ hx)), ?_⟩
      rw [hsettings]
      exact .fed (s := { s with job := .none }) hs ha (by simp) (.answered hrests hw _ result)
  | exhaust hs ha hj hi =>
    obtain ⟨v, run, hrests⟩ := h.settle hs ha (by simp [hj])
    have hengaged := hf.engaged
    rw [ha, hj] at hengaged
    have hmessage := hrests.awaiting_of_settled hengaged.settled
    have hl := hrests.listens_of_taking hengaged.settled.taking
    exact ⟨v.stop, run.trans (.single (.exhaust hl hmessage)), .ended rfl rfl⟩
  | crashLoad hs ha hj =>
    obtain ⟨v, name, run, hrests, hp⟩ := h.settle_loading hf hs ha hj
    have hload := hrests.awaiting_of_loading hp
    have hl := hrests.listens_of_taking (by simp [hp, Phase.Taking])
    exact ⟨v.stop, run.trans (.single (.crashLoad hl hload)), .ended rfl rfl⟩
  | crashCall hs ha hj hx =>
    cases h with
    | ended h => simp [hs] at h
    | working _ hidle => exact absurd hj (hidle _ _)
    | calling _ hjob hw hrests =>
      obtain ⟨-, rfl⟩ := Job.calling.inj (hj.symm.trans hjob)
      have hsettings := (Stands.rest hrests).settings_eq
      exact ⟨w.stop, .single (.crashCall hw (hsettings ▸ hx)), .ended rfl rfl⟩

end Shadows

theorem shadowed_of_run {registry : Registry σ} {s : Session σ}
    (run : Session.Run (.create registry settings) j s) :
    ∃ w, Run (create settings) j w ∧ Shadows s w := by
  induction run with
  | start => exact ⟨_, .start, .working rfl (by simp [Session.create]) (.rest .uninitialized)⟩
  | step run next ih =>
    obtain ⟨w, hrun, h⟩ := ih
    obtain ⟨w', more, h'⟩ := h.step run.faithful next
    exact ⟨w', hrun.trans more, h'⟩

end Worker

variable {σ : Type} {settings : BridgeSettings} {j : Journal σ}

/-- The state tells which fields are there, and the journal which module it is. -/
structure Fields.Consistent (settings : BridgeSettings) (j : Journal σ)
    (f : Fields (Adapter σ)) : Prop where
  adapter_iff : f.adapter ≠ none ↔ f.state = .ready
  failure_iff : f.failure ≠ none ↔ f.state = .failed
  pending_waits : f.pending ≠ [] →
    (f.state = .uninitialized ∨ f.state = .loading) ∧ settings.pendingPolicy = .queue
  pending_le : f.pending.length ≤ settings.maxPending
  uninitialized_iff : f.state = .uninitialized ↔ asked j = none
  module_eq : f.module = (asked j).bind (·.or settings.defaultModule)

namespace Worker

/-- Whenever a message is about to be taken, the fields fit together, as those of a bridge that has
kept the same journal. No statement between ever misses the field that it needs: a command is told
that the engine is not ready by policy alone. -/
structure Represented [Interpreter σ] (settings : BridgeSettings) (j : Journal σ)
    (w : Worker (Adapter σ)) : Prop where
  consistent : w.listens = true → w.fields.Consistent settings j
  of_bridge : w.listens = true → ∃ b : Bridge (Adapter σ),
    w.fields = b.fields ∧ Conduct settings j b.phase b.pending
  adapter_there : ∀ text rest, w.todo = .execute text :: rest → w.fields.adapter ≠ none
  failure_there : ∀ text rest, w.todo = .command text :: rest → w.fields.state = .failed →
    w.fields.failure ≠ none
  not_ready : ∀ detail, .notice (.error .notReady detail) ∈ posted j →
    settings.pendingPolicy = .reject

/-- A worker that has gone the way of a session: the fields of the one are those of the other
whenever a message is about to be taken, and they end together. -/
structure Mirrors [Interpreter σ] (s : Session σ) (w : Worker (Adapter σ)) : Prop where
  listens : s.listens = true → w.listens = true
  fields_eq : s.listens = true → w.fields = s.bridge.fields
  adapter_eq : s.listens = true → w.fields.adapter = s.adapter?
  ended : s.stopped = true → w.awaiting = .nothing

variable [Interpreter σ]

theorem Rests.consistent {w : Worker (Adapter σ)} {b : Bridge (Adapter σ)} (h : Rests b w)
    (hl : w.listens = true) (hc : Conduct settings j b.phase b.pending) :
    w.fields.Consistent settings j := by
  have hle := hc.pending_le
  have hasked := hc.tells.uninitialized_iff
  have hmodule := hc.tells.module_eq
  have hwaits := hc.waiting_of_pending (h.taking_of_listens hl)
  cases h with
  | uninitialized =>
    exact ⟨by simp, by simp, fun hne => ⟨.inl rfl, (hwaits hne).2⟩, hle, hasked, hmodule⟩
  | loading =>
    exact ⟨by simp, by simp, fun hne => ⟨.inr rfl, (hwaits hne).2⟩, hle, hasked, hmodule⟩
  | ready => exact ⟨by simp, by simp, by simp, hle, hasked, hmodule⟩
  | failed => exact ⟨by simp, by simp, by simp, hle, hasked, hmodule⟩
  | serving => cases hl
  | draining => cases hl

theorem Accounted.represented {w : Worker (Adapter σ)} {b : Bridge (Adapter σ)}
    {agenda : List (Effect (Adapter σ))} (h : Accounted settings j w b agenda) :
    w.Represented settings j := by
  have hfurnished : w.Furnished := by
    rcases h.stands with ⟨-, htodo⟩ | hstands
    · simp [Furnished, htodo]
    · exact hstands.furnished
  refine ⟨?_, ?_, ?_, ?_, ?_⟩
  · intro hl
    obtain ⟨-, hrests, hconduct⟩ := h.of_listens hl
    exact hrests.consistent hl hconduct
  · intro hl
    obtain ⟨-, hrests, hconduct⟩ := h.of_listens hl
    exact ⟨b, hrests.fields_eq hl, hconduct⟩
  · intro text rest ht
    simpa only [Furnished, ht, Fields.Furnishes] using hfurnished
  · intro text rest ht
    simpa only [Furnished, ht, Fields.Furnishes] using hfurnished
  · intro detail hd
    exact h.conduct.excused (.notice (.error .notReady detail)) (by simp [hd])

theorem Shadows.mirrored {s : Session σ} {w : Worker (Adapter σ)}
    (hf : Session.Faithful settings j s) (h : Shadows s w) :
    ∃ w', Run w [] w' ∧ Mirrors s w' := by
  cases hl : s.listens with
  | false =>
    refine ⟨w, .start, by simp [hl], by simp [hl], by simp [hl], ?_⟩
    intro hs
    cases h with
    | ended _ hw => exact hw
    | working hs' => simp [hs'] at hs
    | calling hs' => simp [hs'] at hs
  | true =>
    obtain ⟨⟨hs, ha⟩, hj⟩ : (s.stopped = false ∧ s.agenda = []) ∧ _ := by
      simpa [Session.listens] using hl
    have hidle : ∀ since x, s.job ≠ .calling since x := by
      intro since x hx
      simp [hx] at hj
    obtain ⟨w', run, hrests⟩ := h.settle hs ha hidle
    have hw := hrests.listens_of_taking (hf.taking_resting (.inl hl))
    have hadapter : s.bridge.fields.adapter = s.adapter? := by
      unfold Bridge.fields Session.adapter?
      cases hjob : s.job with
      | calling since x => exact absurd hjob (hidle since x)
      | _ => cases s.bridge.phase <;> simp [ha]
    exact ⟨w', run, fun _ => hw, fun _ => hrests.fields_eq hw,
      fun _ => (congrArg _ (hrests.fields_eq hw)).trans hadapter, by simp [hs]⟩

/-- However a bridge sets its fields, they fit together whenever it is about to take a message. And
whatever a session does is done by the statements of a worker. -/
theorem represented_of_run (registry : Registry σ) (settings : BridgeSettings) :
    (∀ (j : Journal σ) w, Run (create settings) j w → w.Represented settings j) ∧
      ∀ j s, Session.Run (.create registry settings) j s →
        ∃ w, Run (create settings) j w ∧ Mirrors s w := by
  constructor
  · intro j w run
    obtain ⟨b, agenda, h⟩ := run.accounted
    exact h.represented
  · intro j s run
    obtain ⟨w, hrun, h⟩ := shadowed_of_run run
    obtain ⟨w', more, hmirrors⟩ := h.mirrored run.faithful
    exact ⟨w', by simpa using hrun.trans more, hmirrors⟩

theorem represented_rehearsal : ∃ s w,
    Session.Run (.create Rehearsal.registry Rehearsal.settings) Rehearsal.journal s ∧
    s.listens = true ∧ Run (create Rehearsal.settings) Rehearsal.journal w ∧ Mirrors s w ∧
    w.Represented Rehearsal.settings Rehearsal.journal := by
  obtain ⟨s, -, run, hl, -⟩ := Rehearsal.run_journal
  obtain ⟨hall, hsession⟩ := represented_of_run Rehearsal.registry Rehearsal.settings
  obtain ⟨w, hrun, hmirrors⟩ := hsession _ s run
  exact ⟨s, w, run, hl, hrun, hmirrors, hall _ w hrun⟩

end Worker

end EngineBridge
