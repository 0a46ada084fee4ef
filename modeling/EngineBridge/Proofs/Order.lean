import Mathlib.Data.List.TakeWhile
import EngineBridge.Proofs.Milestones

/-!
# The order of execution

What the engine is asked, and what the host hears of it, is the transcript of one adapter that is
called for the accepted commands one after another, in the order in which they came.
-/

namespace EngineBridge

open Journal

variable {σ : Type} {settings : BridgeSettings} {j k : Journal σ} {phase : Phase (Adapter σ)}
  {pending : List String}

/-- The commands that a bridge keeps of those that come before its engine. -/
def BridgeSettings.kept (settings : BridgeSettings) (commands : List String) : List String :=
  match settings.pendingPolicy with
  | .queue => commands.take settings.maxPending
  | .reject => []

section Kept

variable {cs : List String} {text : String}

theorem kept_of_reject (h : settings.pendingPolicy = .reject) : settings.kept cs = [] := by
  simp [BridgeSettings.kept, h]

/-- There is room in the queue if and only if fewer commands have come than it holds. -/
theorem kept_length_lt (hq : settings.pendingPolicy = .queue) :
    (settings.kept cs).length < settings.maxPending ↔ cs.length < settings.maxPending := by
  simp only [BridgeSettings.kept, hq, List.length_take]
  omega

theorem kept_snoc (hq : settings.pendingPolicy = .queue)
    (hn : (settings.kept cs).length < settings.maxPending) :
    settings.kept (cs ++ [text]) = settings.kept cs ++ [text] := by
  rw [kept_length_lt hq] at hn
  simp only [BridgeSettings.kept, hq]
  rw [List.take_of_length_le (by simp; omega), List.take_of_length_le (by omega)]

theorem kept_snoc_full (hq : settings.pendingPolicy = .queue)
    (hn : settings.maxPending ≤ (settings.kept cs).length) :
    settings.kept (cs ++ [text]) = settings.kept cs := by
  rw [← Nat.not_lt, kept_length_lt hq, Nat.not_lt] at hn
  simp only [BridgeSettings.kept, hq]
  exact List.take_append_of_le_length hn

end Kept

namespace Journal

def beforeLoad (j : Journal σ) : Journal σ := j.takeWhile (·.loaded?.isNone)

def afterLoad (j : Journal σ) : Journal σ := j.dropWhile (·.loaded?.isNone)

/-- The commands that are executed if the load succeeds. -/
def accepted (settings : BridgeSettings) (j : Journal σ) : List String :=
  settings.kept (commands (beforeLoad j)) ++ commands (afterLoad j)

end Journal

private theorem loaded?_isNone (h : loadResult j = none) : ∀ x ∈ j, x.loaded?.isNone = true :=
  fun x hx => Option.isNone_iff_eq_none.2 (List.findSome?_eq_none_iff.1 h x hx)

theorem accepted_loaded {result : Except LoadError (Adapter σ)} (h : loadResult j = none) :
    accepted settings (j ++ Entry.loaded result :: k) =
      settings.kept (commands j) ++ commands k := by
  have hbefore : beforeLoad (j ++ Entry.loaded result :: k) = j := by
    unfold beforeLoad
    rw [List.takeWhile_append_of_pos (loaded?_isNone h)]
    simp
  have hafter : afterLoad (j ++ Entry.loaded result :: k) = Entry.loaded result :: k := by
    unfold afterLoad
    rw [List.dropWhile_append_of_pos (loaded?_isNone h)]
    simp
  simp [accepted, hbefore, hafter]

theorem accepted_waiting (h : loadResult j = none) :
    accepted settings j = settings.kept (commands j) := by
  have hbefore : beforeLoad j = j := List.takeWhile_eq_self_iff.2 (loaded?_isNone h)
  have hafter : afterLoad j = [] := List.dropWhile_eq_nil_iff.2 (loaded?_isNone h)
  simp [accepted, hbefore, hafter]

theorem accepted_append {result : Except LoadError (Adapter σ)} (h : loadResult j = some result) :
    accepted settings (j ++ k) = accepted settings j ++ commands k := by
  obtain ⟨before, x, after, rfl, hx, hnone⟩ := List.findSome?_eq_some_iff.1 h
  have hbefore : loadResult before = none := List.findSome?_eq_none_iff.2 hnone
  cases x with
  | loaded r =>
    rw [List.append_assoc, List.cons_append, accepted_loaded hbefore, accepted_loaded hbefore]
    simp
  | _ => simp at hx

/-- Entries that tell of no command and of no load change nothing. -/
theorem accepted_frame (hc : commands k = []) (hl : loadResult k = none) :
    accepted settings (j ++ k) = accepted settings j := by
  cases h : loadResult j with
  | none =>
    have hk : loadResult (j ++ k) = none := by simp [h, hl]
    simp [accepted_waiting h, accepted_waiting hk, hc]
  | some result => simp [accepted_append h, hc]

/-- What the host hears of a call: an output that is not empty, or the error. -/
def Journal.report : Except EngineError String → List Outbound
  | .ok text => if text = "" then [] else [.response text]
  | .error e => [.notice (.error (BridgeError.engine e).kind e.message)]

theorem answerPosts_eq_report (result : Except EngineError String) :
    Bridge.answerPosts result = report result := by
  cases result with
  | error e => rfl
  | ok text => simp [Bridge.answerPosts, report]

/-- A message about the engine: it is ready, it has printed something, or a call has failed. -/
def Outbound.ofEngine : Outbound → Bool
  | .response _ | .notice .ready => true
  | .notice (.error .fault _) | .notice (.error .timeout _) => true
  | _ => false

/-- A call, its answer, or a message about the engine. -/
def Entry.ofEngine : Entry σ → Bool
  | .called _ _ _ | .answered _ => true
  | .posted m => m.ofEngine
  | _ => false

def Journal.ofEngine (j : Journal σ) : Journal σ := j.filter Entry.ofEngine

@[simp] theorem ofEngine_append : ofEngine (j ++ k) = ofEngine j ++ ofEngine k :=
  List.filter_append _ _

private theorem filterMap_ofEngine {β : Type} (f : Entry σ → Option β)
    (hf : ∀ x, x.ofEngine = false → f x = none) :
    (ofEngine j).filterMap f = j.filterMap f := by
  unfold ofEngine
  rw [List.filterMap_filter]
  congr 1
  funext x
  cases hx : x.ofEngine with
  | true => rfl
  | false => simp [hf x hx]

theorem calls_ofEngine : calls (ofEngine j) = calls j :=
  filterMap_ofEngine _ fun x hx => by cases x <;> first | rfl | cases hx

theorem results_ofEngine : results (ofEngine j) = results j :=
  filterMap_ofEngine _ fun x hx => by cases x <;> first | rfl | cases hx

theorem ofEngine_posts {l : List Outbound} (h : ∀ m ∈ l, m.ofEngine = false) :
    ofEngine (posts l : Journal σ) = [] := by
  simpa [ofEngine, posts, Entry.ofEngine] using h

/-- What is answered at once does not come from the engine. -/
theorem Aside.ofEngine_eq {m : Inbound} {answers : List Outbound}
    (h : Aside settings phase pending m answers) :
    ofEngine (.took m :: posts answers : Journal σ) = [] := by
  have hposts : ofEngine (posts answers : Journal σ) = [] := by
    apply ofEngine_posts
    cases h <;> simp [Outbound.ofEngine, BridgeError.notice, BridgeError.kind]
  simpa [ofEngine, Entry.ofEngine] using hposts

theorem ofEngine_failing (e : LoadError) : ofEngine (failing e pending : Journal σ) = [] := by
  have hposts := ofEngine_posts (σ := σ)
    (l := (BridgeError.load e).notice :: pending.map fun _ => (BridgeError.load e).notice)
    (by simp [Outbound.ofEngine, BridgeError.notice, BridgeError.kind])
  simpa [failing, ofEngine, Entry.ofEngine] using hposts

variable [Interpreter σ] {context : Nat} {a b : Adapter σ} {texts rest : List String}

/-- The result of a call, unless its recovery panics. -/
def Answer.result? : Answer → Option (Except EngineError String)
  | .ok text => some (.ok text)
  | .error e => some (.error e)
  | .crashed _ => none

theorem Answer.result?_of_ofResult {x : Answer} {result : Except EngineError String}
    (h : x = .ofResult result) : x.result? = some result := by
  subst h
  cases result <;> rfl

/-- The calls of an adapter for these commands, each with its answer and with what the host hears of
it. A call whose recovery panics is the last. -/
def Adapter.transcript (context : Nat) : Adapter σ → List String → Journal σ
  | _, [] => []
  | a, command :: rest =>
    let x := a.execute context command
    .called context a command ::
      match x.answer.result? with
      | none => []
      | some result => .answered result :: posts (report result) ++ x.after.transcript context rest

/-- The adapter after these commands. -/
def Adapter.after? (context : Nat) : Adapter σ → List String → Option (Adapter σ)
  | a, [] => some a
  | a, command :: rest =>
    let x := a.execute context command
    match x.answer.result? with
    | none => none
    | some _ => x.after.after? context rest

theorem Adapter.after?_cons {command : String} :
    a.after? context (command :: rest) = some b ↔
      ∃ result, (a.execute context command).answer.result? = some result ∧
        (a.execute context command).after.after? context rest = some b := by
  cases hx : (a.execute context command).answer.result? <;> simp [after?, hx]

theorem Adapter.after?_append (h : a.after? context texts = some b) :
    a.after? context (texts ++ rest) = b.after? context rest := by
  induction texts generalizing a with
  | nil =>
    obtain rfl : a = b := Option.some.inj h
    rfl
  | cons command texts ih =>
    obtain ⟨result, hx, hnext⟩ := after?_cons.1 h
    simp [after?, hx, ih hnext]

theorem Adapter.transcript_append (h : a.after? context texts = some b) :
    a.transcript context (texts ++ rest) =
      a.transcript context texts ++ b.transcript context rest := by
  induction texts generalizing a with
  | nil =>
    obtain rfl : a = b := Option.some.inj h
    rfl
  | cons command texts ih =>
    obtain ⟨result, hx, hnext⟩ := after?_cons.1 h
    simp [transcript, hx, ih hnext]

/-- A call that is answered is one more of the transcript. -/
theorem Adapter.transcript_snoc {first : Adapter σ} {command : String}
    {result : Except EngineError String} (h : first.after? context texts = some a)
    (hx : (a.execute context command).answer = .ofResult result) :
    first.after? context (texts ++ [command]) = some (a.execute context command).after ∧
    first.transcript context (texts ++ [command]) =
      first.transcript context texts ++
        Entry.called context a command :: .answered result :: posts (report result) := by
  have hr := Answer.result?_of_ofResult hx
  constructor
  · simp [after?_append h, after?, hr]
  · simp [transcript_append h, transcript, hr]

/-- The calls of a transcript are those asked for, up to one that panics. -/
theorem Adapter.calls_transcript (a : Adapter σ) (texts : List String) :
    calls (a.transcript context texts) <+: texts.map (context, ·) := by
  induction texts generalizing a with
  | nil => simp [transcript]
  | cons command texts ih =>
    cases hx : (a.execute context command).answer.result? with
    | none => simp [transcript, hx]
    | some result => simpa [transcript, hx] using ih _

theorem Adapter.calls_transcript_eq (h : a.after? context texts = some b) :
    calls (a.transcript context texts) = texts.map (context, ·) := by
  induction texts generalizing a with
  | nil => rfl
  | cons command texts ih =>
    obtain ⟨result, hx, hnext⟩ := after?_cons.1 h
    simp [transcript, hx, ih hnext]

theorem Adapter.length_results_transcript {context : Nat} {a b : Adapter σ} {texts : List String}
    (h : a.after? context texts = some b) :
    (results (a.transcript context texts)).length = texts.length := by
  induction texts generalizing a with
  | nil => rfl
  | cons text texts ih =>
    obtain ⟨result, hx, hnext⟩ := after?_cons.1 h
    simp [transcript, hx, ih hnext]

/-- The errors among the results are faults and timeouts. -/
theorem Adapter.kind_of_transcript {context : Nat} {a : Adapter σ} {texts : List String}
    {e : EngineError} (h : .error e ∈ results (a.transcript context texts)) :
    (BridgeError.engine e).kind = .fault ∨ (BridgeError.engine e).kind = .timeout := by
  induction texts generalizing a with
  | nil => cases h
  | cons text texts ih =>
    cases hx : (a.execute context text).answer with
    | crashed panic => simp [transcript, hx, Answer.result?] at h
    | ok output =>
      have hrest :
          .error e ∈ results ((a.execute context text).after.transcript context texts) := by
        simpa [transcript, hx, Answer.result?] using h
      exact ih hrest
    | error e' =>
      have hmem : e = e' ∨
          .error e ∈ results ((a.execute context text).after.transcript context texts) := by
        simpa [transcript, hx, Answer.result?] using h
      rcases hmem with rfl | hrest
      · exact kind_of_execute hx
      · exact ih hrest

/-- What is told of a call comes from the engine. -/
theorem ofEngine_answered {command : String} {result : Except EngineError String}
    (hx : (a.execute context command).answer = .ofResult result) :
    ofEngine (.answered result :: posts (Bridge.answerPosts result) : Journal σ) =
      Entry.answered result :: posts (report result) := by
  rw [answerPosts_eq_report]
  cases result with
  | ok text =>
    by_cases ht : text = "" <;>
      simp [report, ht, posts, ofEngine, Entry.ofEngine, Outbound.ofEngine]
  | error e =>
    rcases Adapter.kind_of_execute hx with hk | hk <;>
      simp [report, hk, posts, ofEngine, Entry.ofEngine, Outbound.ofEngine]

/-- What the engine has been asked is the transcript of the adapter that the load has given, for the
accepted commands but those that still wait. -/
def Phase.Serves (settings : BridgeSettings) (j : Journal σ) (pending : List String) :
    Phase (Adapter σ) → Prop
  | .uninitialized | .loading _ => ofEngine j = [] ∧ pending = settings.kept (commands j)
  | .ready _ a => ∃ first, loadResult j = some (.ok first) ∧ pending = [] ∧
      first.after? settings.contextId (accepted settings j) = some a ∧
      ofEngine j = Entry.posted (.notice .ready) ::
        first.transcript settings.contextId (accepted settings j)
  | .running _ => ∃ first done a command, loadResult j = some (.ok first) ∧
      accepted settings j = done ++ command :: pending ∧
      first.after? settings.contextId done = some a ∧
      ofEngine j = Entry.posted (.notice .ready) :: first.transcript settings.contextId done ++
        [Entry.called settings.contextId a command]
  | .failed _ _ => ofEngine j = [] ∧ pending = []

/-- Entries that tell of no command and of no engine change nothing. -/
theorem Phase.Serves.frame (h : phase.Serves settings j pending) (he : ofEngine k = [])
    (hc : commands k = []) (hl : loadResult k = none) : phase.Serves settings (j ++ k) pending := by
  have ha := @accepted_frame σ settings j k hc hl
  cases phase <;> simpa [Serves, he, hc, hl, ha] using h

theorem Phase.Serves.waiting (h : phase.Serves settings j pending) (hp : phase.Waiting) :
    ofEngine j = [] ∧ pending = settings.kept (commands j) := by
  cases phase with
  | uninitialized => exact h
  | loading name => exact h
  | _ => exact hp.elim

theorem Phase.Serves.of_waiting (hp : phase.Waiting) (he : ofEngine j = [])
    (hk : pending = settings.kept (commands j)) : phase.Serves settings j pending := by
  cases phase with
  | uninitialized => exact ⟨he, hk⟩
  | loading name => exact ⟨he, hk⟩
  | _ => exact hp.elim

theorem serves_aside {m : Inbound} {answers : List Outbound}
    (h : phase.Serves settings j pending) (hr : Aside settings phase pending m answers) :
    phase.Serves settings (j ++ Entry.took m :: posts answers) pending := by
  have he := hr.ofEngine_eq (σ := σ)
  cases hr with
  | reject hp hq =>
    obtain ⟨hj, hk⟩ := h.waiting hp
    refine .of_waiting hp (by rw [ofEngine_append, he, hj]; rfl) ?_
    rw [hk, kept_of_reject hq, kept_of_reject hq]
  | overflow hp hq hn =>
    obtain ⟨hj, hk⟩ := h.waiting hp
    refine .of_waiting hp (by rw [ofEngine_append, he, hj]; rfl) ?_
    rw [hk] at hn ⊢
    simpa using (kept_snoc_full hq hn).symm
  | deny =>
    obtain ⟨hj, hk⟩ := h
    exact ⟨by rw [ofEngine_append, he, hj]; rfl, hk⟩
  | status => exact h.frame he (by simp) (by simp)
  | malformed => exact h.frame he (by simp) (by simp)
  | again => exact h.frame he (by simp) (by simp)

/-- The call under way is the last of the journal. -/
theorem Phase.Serves.last_call {name command : String}
    (h : Phase.Serves settings (j ++ [Entry.called settings.contextId a command]) pending
      (.running name)) :
    let k := j ++ [Entry.called settings.contextId a command]
    ∃ first done, loadResult k = some (.ok first) ∧
      accepted settings k = done ++ command :: pending ∧
      first.after? settings.contextId done = some a ∧
      ofEngine k = Entry.posted (.notice .ready) :: first.transcript settings.contextId done ++
        [Entry.called settings.contextId a command] := by
  obtain ⟨first, done, a', command', hl, haccepted, hafter, hengine⟩ := h
  have hlast : ofEngine j ++ [Entry.called settings.contextId a command] =
      Entry.posted (.notice .ready) :: first.transcript settings.contextId done ++
        [Entry.called settings.contextId a' command'] := by
    rw [← hengine, ofEngine_append]
    rfl
  obtain ⟨-, hcall⟩ := List.append_inj' hlast rfl
  obtain ⟨rfl, rfl⟩ : a = a' ∧ command = command' := by simpa using hcall
  exact ⟨first, done, hl, haccepted, hafter, hengine⟩

/-- The call that is under way is answered: it joins those that are done. -/
theorem Phase.Serves.answered {name command : String} {result : Except EngineError String}
    (h : Phase.Serves settings (j ++ [Entry.called settings.contextId a command]) pending
      (.running name))
    (hx : (a.execute settings.contextId command).answer = .ofResult result)
    (hk : k = j ++ [Entry.called settings.contextId a command] ++
      Entry.answered result :: posts (Bridge.answerPosts result)) :
    ∃ first done, loadResult k = some (.ok first) ∧
      accepted settings k = done ++ pending ∧
      first.after? settings.contextId done = some (a.execute settings.contextId command).after ∧
      ofEngine k = Entry.posted (.notice .ready) :: first.transcript settings.contextId done := by
  obtain ⟨first, done, hl, haccepted, hafter, hengine⟩ := h.last_call
  obtain ⟨hnext, htranscript⟩ := Adapter.transcript_snoc hafter hx
  have hanswered := ofEngine_answered hx
  subst hk
  refine ⟨first, done ++ [command], by rw [loadResult_append, hl]; rfl, ?_, hnext, ?_⟩
  · rw [accepted_frame (by simp) (by simp), haccepted]
    simp
  · rw [ofEngine_append, hengine, hanswered, htranscript]
    simp

theorem Conduct.serves (h : Conduct settings j phase pending) :
    phase.Serves settings j pending := by
  induction h with
  | start => exact ⟨rfl, by simp [BridgeSettings.kept]; split <;> rfl⟩
  | aside _ hr ih => exact serves_aside ih hr
  | keep _ hp hq hn ih =>
    obtain ⟨hj, hk⟩ := ih.waiting hp
    rw [hk] at hn
    refine .of_waiting hp (by rw [ofEngine_append, hj]; rfl) ?_
    simpa [hk] using (kept_snoc hq hn).symm
  | begin _ _ ih =>
    obtain ⟨hj, hk⟩ := ih
    exact ⟨by rw [ofEngine_append, hj]; rfl, by simpa using hk⟩
  | nameless _ _ ih =>
    obtain ⟨hj, -⟩ := ih
    refine ⟨?_, rfl⟩
    rw [ofEngine_append, hj]
    exact ofEngine_failing _
  | fail _ ih =>
    obtain ⟨hj, -⟩ := ih
    refine ⟨?_, rfl⟩
    rw [ofEngine_append, hj]
    exact ofEngine_failing _
  | @ready j name a h ih =>
    obtain ⟨hj, hk⟩ := ih
    have hl := h.tells.2
    have haccepted : accepted settings (j ++ Entry.loaded (.ok a) :: arriving) = [] := by
      rw [accepted_loaded hl, ← hk]
      rfl
    refine ⟨a, by simp [hl], rfl, by rw [haccepted]; rfl, ?_⟩
    rw [haccepted, ofEngine_append, hj]
    rfl
  | @replay j name a command pending h ih =>
    obtain ⟨hj, hk⟩ := ih
    have hl := h.tells.2
    have haccepted : accepted settings
        (j ++ Entry.loaded (.ok a) :: arriving ++ [Entry.called settings.contextId a command]) =
          command :: pending := by
      rw [List.append_assoc, List.cons_append, accepted_loaded hl, ← hk]
      simp [arriving]
    refine ⟨a, [], a, command, by simp [hl], haccepted, rfl, ?_⟩
    rw [ofEngine_append, ofEngine_append, hj]
    rfl
  | @serve j name a command pending h ih =>
    obtain ⟨first, hl, rfl, hafter, hengine⟩ := ih
    refine ⟨first, accepted settings j, a, command, by simp [hl], ?_, hafter, ?_⟩
    · simp [accepted_append hl]
    · rw [ofEngine_append, hengine]
      rfl
  | rest _ hx ih =>
    obtain ⟨first, done, hl, haccepted, hafter, hengine⟩ := ih.answered hx rfl
    rw [List.append_nil] at haccepted
    rw [← haccepted] at hafter hengine
    exact ⟨first, hl, rfl, hafter, hengine⟩
  | @next j name a command result text pending _ hx ih =>
    obtain ⟨first, done, hl, haccepted, hafter, hengine⟩ := ih.answered hx rfl
    refine ⟨first, done, _, text, by rw [loadResult_append, hl]; rfl, ?_, hafter, ?_⟩
    · rw [accepted_frame (by simp) (by simp), haccepted]
    · rw [ofEngine_append, hengine]
      rfl

theorem Conduct.transcript (h : Conduct settings j phase pending)
    (hl : loadResult j = some (.ok a)) :
    let expected := .posted (.notice .ready) ::
      a.transcript settings.contextId (accepted settings j)
    ofEngine j <+: expected ∧
      (phase.Taking → pending = [] ∧ ofEngine j = expected ∧
        calls j = (accepted settings j).map (settings.contextId, ·)) := by
  have hs := h.serves
  obtain ⟨name, b, rfl⟩ | ⟨name, rfl⟩ := h.loaded_cases hl
  · obtain ⟨first, hfirst, rfl, hafter, hengine⟩ := hs
    obtain rfl : first = a := by simpa [hl] using hfirst.symm
    refine ⟨hengine ▸ List.prefix_rfl, fun _ => ⟨rfl, hengine, ?_⟩⟩
    rw [← calls_ofEngine, hengine]
    exact Adapter.calls_transcript_eq hafter
  · obtain ⟨first, done, b, command, hfirst, haccepted, hafter, hengine⟩ := hs
    obtain rfl : first = a := by simpa [hl] using hfirst.symm
    refine ⟨?_, fun hp => hp.elim⟩
    simp only [hengine, haccepted, Adapter.transcript_append hafter, List.cons_append]
    rw [List.cons_prefix_cons]
    refine ⟨rfl, (List.prefix_append_right_inj _).2 ?_⟩
    simp [Adapter.transcript]

/-- What has been heard of an engine is the beginning of its transcript. -/
theorem Session.Faithful.heard {s : Session σ} (h : Session.Faithful settings j s)
    (hl : loadResult j = some (.ok a)) :
    ofEngine j <+: Entry.posted (.notice .ready) ::
      a.transcript settings.contextId (accepted settings j) := by
  have hconduct := h.conduct
  generalize hrest : s.agenda.map (Effect.entry settings.contextId) = rest at hconduct
  have hcommands : commands rest = [] := by rw [← hrest, commands_effects]
  have hloads : loadResult rest = none := by rw [← hrest, loadResult_effects]
  obtain ⟨hpre, -⟩ := hconduct.transcript (a := a) (by rw [loadResult_append, hl]; rfl)
  rw [accepted_frame hcommands hloads, ofEngine_append] at hpre
  exact (List.prefix_append _ _).trans hpre

theorem Session.Faithful.calls_le {s : Session σ} (h : Session.Faithful settings j s)
    (hl : loadResult j = some (.ok a)) :
    calls j <+: (accepted settings j).map (settings.contextId, ·) := by
  have hcalls := (h.heard hl).filterMap Entry.called?
  rw [← calls_ofEngine]
  exact hcalls.trans (Adapter.calls_transcript a _)

/-- Without an engine nothing is heard of one. -/
theorem Session.Faithful.unheard {s : Session σ} (h : Session.Faithful settings j s)
    (hl : ∀ a, loadResult j ≠ some (.ok a)) : ofEngine j = [] := by
  have hserves := h.conduct.serves
  generalize hrest : s.agenda.map (Effect.entry settings.contextId) = rest at hserves
  have hloads : loadResult (j ++ rest) = loadResult j := by
    rw [← hrest, loadResult_append, loadResult_effects, Option.or_none]
  have hnone : ofEngine (j ++ rest) = [] := by
    cases hp : s.bridge.phase with
    | ready name b =>
      rw [hp] at hserves
      obtain ⟨first, hfirst, -⟩ := hserves
      exact absurd (hloads.symm.trans hfirst) (hl first)
    | running name =>
      rw [hp] at hserves
      obtain ⟨first, -, -, -, hfirst, -⟩ := hserves
      exact absurd (hloads.symm.trans hfirst) (hl first)
    | _ =>
      rw [hp] at hserves
      exact hserves.1
  rw [ofEngine_append] at hnone
  exact (List.append_eq_nil_iff.1 hnone).1

/-- The engine is called for the accepted commands alone, each once, as it is, with the context of
the settings, and in the order in which they came. What the host hears of a call comes before the
next call, and the notice that the bridge is ready before them all. A bridge at rest has left none
of them out, and it does not come to its end during a load. -/
structure Session.InOrder (settings : BridgeSettings) (j : Journal σ) (s : Session σ) : Prop where
  so_far : ∀ a, loadResult j = some (.ok a) →
    ofEngine j <+: Entry.posted (.notice .ready) ::
      a.transcript settings.contextId (accepted settings j) ∧
    calls j <+: (accepted settings j).map (settings.contextId, ·)
  at_rest : s.Resting → ∀ a, loadResult j = some (.ok a) →
    s.bridge.pending = [] ∧
    ofEngine j = Entry.posted (.notice .ready) ::
      a.transcript settings.contextId (accepted settings j) ∧
    calls j = (accepted settings j).map (settings.contextId, ·)
  load_ends : s.stopped = true → s.outbound.receiving = true → s.crash = none →
    requested j ≠ [] → (loadResult j).isSome = true

theorem inOrder_of_run {registry : Registry σ} {s : Session σ} {j : Journal σ}
    (run : Session.Run (.create registry settings) j s) : s.InOrder settings j := by
  have hfaithful := run.faithful
  refine ⟨?_, ?_, ?_⟩
  · intro a hl
    exact ⟨hfaithful.heard hl, hfaithful.calls_le hl⟩
  · intro hr a hl
    have hconduct := hfaithful.conduct_rest (hfaithful.agenda_resting hr)
    exact (hconduct.transcript hl).2 (hfaithful.taking_resting hr)
  · intro hs ho hc hrequested
    have hconduct := hfaithful.conduct_rest (hfaithful.ended hs ho).1
    have hsettled := hfaithful.settled_ended hs ho hc
    have ht := hconduct.tells
    have hp := hconduct.passed
    cases hphase : s.bridge.phase with
    | uninitialized =>
      rw [hphase] at hp
      exact absurd hp.2.1 hrequested
    | loading name =>
      rw [hphase] at hsettled
      exact hsettled.elim
    | ready name a =>
      rw [hphase] at ht
      obtain ⟨-, a, hl⟩ := ht
      simp [hl]
    | running name =>
      rw [hphase] at hsettled
      exact hsettled.elim
    | failed module e =>
      rw [hphase] at ht hp
      cases module with
      | none => exact absurd hp.2.1 hrequested
      | some name => simp [ht.2]

theorem inOrder_rehearsal : ∃ s, Session.Run (.create Rehearsal.registry Rehearsal.settings)
    Rehearsal.journal s ∧ s.Resting ∧ s.InOrder Rehearsal.settings Rehearsal.journal := by
  obtain ⟨s, -, run, hl, -⟩ := Rehearsal.run_journal
  exact ⟨s, run, .inl hl, inOrder_of_run run⟩

end EngineBridge
