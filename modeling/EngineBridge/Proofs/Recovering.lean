import EngineBridge.Proofs.Deadlines
import EngineBridge.Proofs.Failing

/-!
# Recoveries

A call that panics or is late is followed by one recovery, and no other call is. Once a recovery has
failed, the interpreter is left alone for good: each further call is refused in the name of that
failure. The bridge stays ready, and answers every message.
-/

namespace EngineBridge

open Journal

/-- What an interpreter is asked to do. -/
inductive Deed where
  | executed (context : Nat) (command : String)
  | recovered
  deriving DecidableEq, Repr

/-- An interpreter and all that it has been asked to do. -/
structure Logged (σ : Type) where
  engine : σ
  deeds : List Deed

variable {σ : Type} [Interpreter σ]

namespace Logged

instance : Interpreter (Logged σ) where
  execute l context command :=
    (Interpreter.execute l.engine context command).map
      (⟨·, l.deeds ++ [.executed context command]⟩)
  recover l :=
    some (Interpreter.recovery l.engine,
      ⟨((Interpreter.recover l.engine).map (·.2)).getD l.engine, l.deeds ++ [.recovered]⟩)
  version l := Interpreter.version l.engine

end Logged

namespace Adapter

omit [Interpreter σ] in
/-- The same adapter, with a log. -/
def logged (a : Adapter σ) (deeds : List Deed) : Adapter (Logged σ) :=
  { module := a.module, engine := ⟨a.engine, deeds⟩, execTimeout := a.execTimeout,
    output := a.output, unusable := a.unusable }

/-- What one call asks of the interpreter. -/
def deedsOf (a : Adapter σ) (context : Nat) (command : String) : List Deed :=
  match a.unusable with
  | some _ => []
  | none =>
    .executed context command ::
      if ((a.work context command).within a.execTimeout).verdict.abandons then [.recovered] else []

/-- What these calls ask of the interpreter, all told. -/
def deeds (a : Adapter σ) (calls : List (Nat × String)) : List Deed :=
  ((a.logged []).through calls).engine.deeds

variable {a : Adapter σ} {context : Nat} {command : String}

theorem recover_logged (a : Adapter σ) (deeds : List Deed) :
    (a.logged deeds).recover = (a.recover.1.logged (deeds ++ [.recovered]), a.recover.2) := by
  have hrecover : Interpreter.recover (a.logged deeds).engine = some
      (Interpreter.recovery a.engine,
        ⟨((Interpreter.recover a.engine).map (·.2)).getD a.engine, deeds ++ [.recovered]⟩) := rfl
  unfold recover
  rw [hrecover]
  unfold Interpreter.recovery
  rcases Interpreter.recover a.engine with - | ⟨script, engine⟩
  · rfl
  · dsimp only [logged]
    cases (script.within a.execTimeout).verdict <;> rfl

theorem abandon_logged (a : Adapter σ) (deeds : List Deed) (millis : Nat) (e : EngineError) :
    ((a.logged deeds).abandon millis e).after =
        (a.abandon millis e).after.logged (deeds ++ [.recovered]) ∧
      ((a.logged deeds).abandon millis e).answer = (a.abandon millis e).answer := by
  have hrecover := recover_logged { a with output := a.output.clear } deeds
  have hlogged : { a.logged deeds with output := a.output.clear } =
      logged { a with output := a.output.clear } deeds := rfl
  unfold abandon
  dsimp only [logged] at hlogged hrecover ⊢
  rw [hrecover]
  exact ⟨rfl, rfl⟩

theorem left_logged (a : Adapter σ) (deeds : List Deed) (context : Nat) (command : String) :
    (a.logged deeds).left context command =
      (a.left context command).logged (deeds ++ [.executed context command]) := by
  have hcall : Interpreter.execute (a.logged deeds).engine context command =
      (Interpreter.execute a.engine context command).map
        (⟨·, deeds ++ [.executed context command]⟩) := rfl
  unfold left
  rw [hcall]
  dsimp only [logged, Call.map]
  split <;> rfl

/-- Nothing else changes if an interpreter is watched. -/
theorem execute_logged (a : Adapter σ) (deeds : List Deed) (context : Nat) (command : String) :
    ((a.logged deeds).execute context command).after =
        (a.execute context command).after.logged (deeds ++ a.deedsOf context command) ∧
      ((a.logged deeds).execute context command).answer = (a.execute context command).answer := by
  cases hu : a.unusable with
  | some reason => simp [execute, finish, logged, deedsOf, hu]
  | none =>
    have hlogged : (a.logged deeds).unusable = none := hu
    cases hv : ((a.work context command).within a.execTimeout).verdict.abandons with
    | true =>
      have hdeeds : a.deedsOf context command = [.executed context command] ++ [.recovered] := by
        simp [deedsOf, hu, hv]
      obtain ⟨-, -, hexecute⟩ := execute_abandons hu hv
      have hwatched := (execute_abandons (a := a.logged deeds) hlogged hv).2.2
      rw [hwatched, hexecute, left_logged, hdeeds, ← List.append_assoc]
      exact abandon_logged _ _ _ _
    | false =>
      have hdeeds : a.deedsOf context command = [.executed context command] := by
        simp [deedsOf, hu, hv]
      have hcall : Interpreter.execute (a.logged deeds).engine context command =
          (Interpreter.execute a.engine context command).map
            (⟨·, deeds ++ [.executed context command]⟩) := rfl
      unfold work at hv
      unfold execute
      rw [hlogged, hu, hcall, hdeeds]
      dsimp only [logged, Call.map]
      split
      · exact ⟨rfl, rfl⟩
      · exact ⟨rfl, rfl⟩
      next hverdict => simp [hverdict, Verdict.abandons] at hv
      next hverdict => simp [hverdict, Verdict.abandons] at hv

theorem through_logged (a : Adapter σ) (deeds : List Deed) (calls : List (Nat × String)) :
    (a.logged deeds).through calls =
      (a.through calls).logged ((a.logged deeds).through calls).engine.deeds := by
  induction calls generalizing a deeds with
  | nil => rfl
  | cons call calls ih =>
    obtain ⟨context, command⟩ := call
    simp only [through, (execute_logged a deeds context command).1]
    exact ih _ _

theorem executions_logged (a : Adapter σ) (deeds : List Deed) (calls : List (Nat × String)) :
    ((a.logged deeds).executions calls).map (·.answer) =
      (a.executions calls).map (·.answer) := by
  induction calls generalizing a deeds with
  | nil => rfl
  | cons call calls ih =>
    obtain ⟨context, command⟩ := call
    obtain ⟨hafter, hanswer⟩ := execute_logged a deeds context command
    simp only [executions, List.map_cons, hafter, hanswer]
    rw [ih]

theorem through_concat (a : Adapter σ) (calls : List (Nat × String)) (context : Nat)
    (command : String) :
    a.through (calls ++ [(context, command)]) =
      ((a.through calls).execute context command).after :=
  through_append a calls _

theorem deeds_concat (a : Adapter σ) (calls : List (Nat × String)) (context : Nat)
    (command : String) :
    a.deeds (calls ++ [(context, command)]) =
      a.deeds calls ++ (a.through calls).deedsOf context command := by
  unfold deeds
  rw [through_concat, through_logged, (execute_logged _ _ _ _).1]
  rfl

variable {reason : String}

theorem execute_refused (hu : a.unusable = some reason) (context : Nat) (command : String) :
    a.execute context command = a.finish 0 (.error (refusal reason)) := by
  simp [execute, refusal, hu]

theorem through_refused (hu : a.unusable = some reason) (calls : List (Nat × String)) :
    a.through calls = a := by
  induction calls with
  | nil => rfl
  | cons call calls ih =>
    have hafter : (a.execute call.1 call.2).after = a := by
      rw [execute_refused hu]
      rfl
    simpa only [through, hafter] using ih

theorem executions_refused (hu : a.unusable = some reason) (calls : List (Nat × String)) :
    ∀ x ∈ a.executions calls, x.answer = .error (refusal reason) := by
  induction calls with
  | nil => simp [executions]
  | cons call calls ih =>
    intro x hx
    simp only [executions, execute_refused hu, List.mem_cons] at hx
    rcases hx with rfl | hx
    · rfl
    · exact ih x hx

/-- Nothing is asked of it any more. -/
theorem deeds_refused {calls : List (Nat × String)} (hu : (a.through calls).unusable = some reason)
    (more : List (Nat × String)) : a.deeds (calls ++ more) = a.deeds calls := by
  have hlogged : ((a.logged []).through calls).unusable = some reason := by
    rw [through_logged]
    exact hu
  unfold deeds
  rw [through_append, through_refused hlogged]

/-- A call gives the interpreter up if and only if a recovery follows that fails or is late. -/
theorem execute_unusable_iff (hu : a.unusable = none) :
    (a.execute context command).after.unusable = some reason ↔
      ∃ v, a.recovery? context command = some v ∧ v.blame? = some reason := by
  cases hv : ((a.work context command).within a.execTimeout).verdict.abandons with
  | false =>
    obtain ⟨hrecovery, -, hafter⟩ := execute_finishes hu hv
    simp [hrecovery, hafter]
  | true =>
    obtain ⟨-, hrecovery, hexecute⟩ := execute_abandons hu hv
    have hleft : (a.left context command).unusable = none := hu
    rw [hexecute, abandon_unusable hleft, hrecovery]
    simp

/-- The first of these calls, made to `a`, whose recovery fails or is late. -/
def GivesUp (a : Adapter σ) (calls : List (Nat × String)) (reason : String) : Prop :=
  ∃ before context command after, calls = before ++ (context, command) :: after ∧
    (a.through before).unusable = none ∧
    ∃ v, (a.through before).recovery? context command = some v ∧ v.blame? = some reason

theorem through_unusable_iff (hu : a.unusable = none) (calls : List (Nat × String)) :
    (a.through calls).unusable = some reason ↔ a.GivesUp calls reason := by
  constructor
  · intro hcalls
    induction calls using List.reverseRecOn with
    | nil => simp [through, hu] at hcalls
    | append_singleton calls call ih =>
      obtain ⟨context, command⟩ := call
      rw [through_concat] at hcalls
      cases hbefore : (a.through calls).unusable with
      | none =>
        exact ⟨calls, context, command, [], rfl, hbefore, (execute_unusable_iff hbefore).1 hcalls⟩
      | some first =>
        have hsame : some first = some reason := by
          rw [← hcalls, execute_refused hbefore]
          exact hbefore.symm
        obtain ⟨before, context', command', after, rfl, hrest⟩ := ih (hbefore.trans hsame)
        refine ⟨before, context', command', after ++ [(context, command)], ?_, hrest⟩
        simp
  · rintro ⟨before, context, command, after, rfl, hbefore, hblame⟩
    have hfails := (execute_unusable_iff hbefore).2 hblame
    rw [through_append]
    change ((((a.through before).execute context command).after).through after).unusable = _
    rw [through_refused hfails, hfails]

/-- How an adapter recovers that has gone through the calls `past`, and is called once more. -/
structure Recovers (first : Adapter σ) (past : List (Nat × String)) (context : Nat)
    (command : String) : Prop where
  /-- Nobody sees that the interpreter is watched. -/
  watched : ((first.logged []).executions (past ++ [(context, command)])).map (·.answer) =
    (first.executions (past ++ [(context, command)])).map (·.answer)
  /-- The interpreter is called unless it is given up, and recovers once if the call panics or is
  late. -/
  asked : first.deeds (past ++ [(context, command)]) = first.deeds past ++
    match (first.through past).unusable with
    | some _ => []
    | none => .executed context command ::
      if (((first.through past).work context command).within
        first.execTimeout).verdict.abandons then [.recovered] else []
  own_answer : (first.through past).unusable = none → ∀ t v,
    ((first.through past).work context command).Watched first.execTimeout t v →
      ((first.through past).execute context command).answer =
        ((first.through past).work context command).answered first.execTimeout v
  given_up_iff : ∀ reason, (first.through (past ++ [(context, command)])).unusable = some reason ↔
    first.GivesUp (past ++ [(context, command)]) reason
  /-- Whatever comes then, the interpreter is left alone. -/
  left_alone : ∀ reason, first.GivesUp past reason → ∀ future,
    first.deeds (past ++ future) = first.deeds past ∧
      first.through (past ++ future) = first.through past ∧
      ∀ x ∈ (first.through past).executions future, x.answer = .error (refusal reason)

theorem recovers_of_calls (module : String) (engine : σ) (limit : Nat) (past : List (Nat × String))
    (context : Nat) (command : String)
    (hquiet : ∀ p, (Interpreter.recovery (((fresh module engine limit).through past).execute
      context command).during.engine).ending ≠ .panic p) :
    (fresh module engine limit).Recovers past context command := by
  let first := fresh module engine limit
  obtain ⟨houtput, hlimit⟩ := through_frame module engine limit past
  constructor
  · exact executions_logged first [] _
  · rw [deeds_concat, deedsOf, hlimit]
    rfl
  · intro hu t v hwatched
    rw [execute_answered hu houtput hquiet, hlimit]
    rw [(Script.watched_iff.1 hwatched).2]
    rfl
  · intro reason
    exact through_unusable_iff rfl _
  · intro reason hgiven future
    have hu := (through_unusable_iff rfl past).2 hgiven
    refine ⟨deeds_refused hu future, ?_, executions_refused hu future⟩
    rw [through_append, through_refused hu]

end Adapter

namespace Journal

/-- What the host is told at once of a call that is refused. -/
def rebuff (e : EngineError) : Journal σ :=
  [.answered (.error e), .posted (BridgeError.engine e).notice]

/-- What a message leads to if each call of the adapter `a` of `module` is refused with `e`. -/
def rejoinder (context : Nat) (module : String) (a : Adapter σ) (e : EngineError) :
    Inbound → Journal σ
  | .command text => .called context a text :: rebuff e
  | .control .status => [.posted (.notice (.status .ready (some module) 0))]
  | .control (.start _) => []
  | .malformed reason => [.posted (BridgeError.malformed reason).notice]

def rejoinders (context : Nat) (module : String) (a : Adapter σ) (e : EngineError)
    (messages : List Inbound) : Journal σ :=
  messages.flatMap fun m => .took m :: rejoinder context module a e m

omit [Interpreter σ] in
theorem rejoinders_append (context : Nat) (module : String) (a : Adapter σ) (e : EngineError)
    (m n : List Inbound) : rejoinders context module a e (m ++ n) =
      rejoinders context module a e m ++ rejoinders context module a e n :=
  List.flatMap_append

end Journal

namespace Session

/-- Where a bridge can stand whose adapter is `a`, once `a` has been handed back to it. -/
inductive Given (context : Nat) (module : String) (a : Adapter σ) :
    Job σ → Phase (Adapter σ) → List String → List (Effect (Adapter σ)) → Prop
  | idle {agenda} (hb : ∀ x ∈ agenda, x.Brief) :
      Given context module a .none (.ready module a) [] agenda
  | summons {text pending agenda} (hb : ∀ x ∈ agenda, x.Brief) :
      Given context module a .none (.running module) pending (agenda ++ [.call a text])
  | calling {since text pending} :
      Given context module a (.calling since (a.execute context text)) (.running module) pending []

/-- Every call is refused. -/
structure Refusing (settings : BridgeSettings) (module : String) (a : Adapter σ) (s : Session σ) :
    Prop where
  settings_eq : s.bridge.settings = settings
  given : Given settings.contextId module a s.job s.bridge.phase s.bridge.pending s.agenda

/-- What the journal still lacks, if each call of `a` is refused with `e`. -/
def outstanding (a : Adapter σ) (e : EngineError) (s : Session σ) : Journal σ :=
  let context := s.bridge.settings.contextId
  planned context s.agenda ++
    (match s.bridge.phase with | .running _ => rebuff e | _ => []) ++
      s.bridge.pending.flatMap fun text => .called context a text :: rebuff e

variable {settings : BridgeSettings} {module reason : String} {a : Adapter σ} {s t : Session σ}
  {j k l : Journal σ}

theorem Given.tail {context : Nat} {job : Job σ} {phase : Phase (Adapter σ)} {pending : List String}
    {e : Effect (Adapter σ)} {rest : List (Effect (Adapter σ))} (he : e.Brief)
    (h : Given context module a job phase pending (e :: rest)) :
    Given context module a job phase pending rest := by
  generalize hagenda : e :: rest = agenda at h
  cases h with
  | idle hb =>
    subst hagenda
    exact .idle fun x hx => hb x (List.mem_cons_of_mem e hx)
  | @summons text pending before hb =>
    cases before with
    | nil =>
      obtain ⟨rfl, -⟩ := List.cons.inj hagenda
      exact he.elim
    | cons x before =>
      obtain ⟨-, rfl⟩ := List.cons.inj hagenda
      exact .summons fun y hy => hb y (List.mem_cons_of_mem x hy)
  | calling => cases hagenda

/-- An order that is not over at once is the last one, and calls the adapter. -/
theorem Given.of_order {context : Nat} {job : Job σ} {phase : Phase (Adapter σ)}
    {pending : List String} {e : Effect (Adapter σ)} {rest : List (Effect (Adapter σ))}
    (he : ¬ e.Brief) (h : Given context module a job phase pending (e :: rest)) :
    rest = [] ∧ job = .none ∧ phase = .running module ∧ ∃ text, e = .call a text := by
  generalize hagenda : e :: rest = agenda at h
  cases h with
  | idle hb =>
    subst hagenda
    exact absurd (hb e List.mem_cons_self) he
  | @summons text pending before hb =>
    cases before with
    | nil =>
      obtain ⟨rfl, rfl⟩ := List.cons.inj hagenda
      exact ⟨rfl, rfl, rfl, text, rfl⟩
    | cons x before =>
      obtain ⟨rfl, -⟩ := List.cons.inj hagenda
      exact absurd (hb e List.mem_cons_self) he
  | calling => cases hagenda

theorem Given.of_rest {context : Nat} {job : Job σ} {phase : Phase (Adapter σ)}
    {pending : List String} (h : Given context module a job phase pending []) :
    phase = .ready module a ∧ pending = [] ∧ job = .none ∨
      phase = .running module ∧ ∃ since text, job = .calling since (a.execute context text) := by
  generalize hagenda : ([] : List (Effect (Adapter σ))) = agenda at h
  cases h with
  | idle => exact .inl ⟨rfl, rfl, rfl⟩
  | summons => simp at hagenda
  | calling => exact .inr ⟨rfl, _, _, rfl⟩

theorem Given.phase_cases {context : Nat} {job : Job σ} {phase : Phase (Adapter σ)}
    {pending : List String} {agenda : List (Effect (Adapter σ))}
    (h : Given context module a job phase pending agenda) :
    phase = .ready module a ∨ phase = .running module := by
  cases h with
  | idle => exact .inl rfl
  | summons | calling => exact .inr rfl

/-- A message is taken, and its rejoinder is to come. -/
theorem Refusing.feed (hp : s.bridge.phase = .ready module a) (hn : s.bridge.pending = [])
    (ha : s.agenda = []) (hj : s.job = .none) (m : Inbound) (e : EngineError) :
    (s.feed (.received m)).Refusing s.bridge.settings module a ∧
      (s.feed (.received m)).outstanding a e =
        rejoinder s.bridge.settings.contextId module a e m := by
  generalize hbridge : s.bridge = b at hp hn ⊢
  obtain ⟨settings, phase, pending⟩ := b
  obtain rfl : phase = .ready module a := hp
  obtain rfl : pending = [] := hn
  unfold Session.feed outstanding
  rw [hbridge, ha]
  have idle (agenda : List (Effect (Adapter σ))) (hb : ∀ x ∈ agenda, x.Brief) :
      Given settings.contextId module a s.job (.ready module a) [] agenda := hj ▸ .idle hb
  cases m with
  | command text =>
    have summons : Given settings.contextId module a s.job (.running module) []
        ([] ++ [.call a text]) := hj ▸ .summons nofun
    exact ⟨⟨rfl, summons⟩, rfl⟩
  | malformed reason =>
    exact ⟨⟨rfl, idle _ (by simp [Bridge.receive, Bridge.step, Effect.Brief])⟩, rfl⟩
  | control c =>
    cases c with
    | status => exact ⟨⟨rfl, idle _ (by simp [Bridge.receive, Bridge.step, Effect.Brief])⟩, rfl⟩
    | start request =>
      exact ⟨⟨rfl, idle _ (by simp [Bridge.receive, Bridge.step, Bridge.start])⟩, rfl⟩

/-- The answer to a call leads on to the next one. -/
theorem Refusing.turn (hp : s.bridge.phase = .running module) (ha : s.agenda = [])
    (hj : s.job = .none) (result : Except EngineError String) :
    let t := s.feed (.answered a result)
    t.Refusing s.bridge.settings module a ∧ ∀ e,
      t.outstanding a e = posts (Bridge.answerPosts result) ++
        s.bridge.pending.flatMap fun text =>
          .called s.bridge.settings.contextId a text :: rebuff e := by
  have hbrief : ∀ x ∈ (Bridge.answerPosts result).map (Effect.post (α := Adapter σ)), x.Brief := by
    intro x hx
    obtain ⟨m, -, rfl⟩ := List.mem_map.1 hx
    trivial
  generalize hbridge : s.bridge = b at hp ⊢
  obtain ⟨settings, phase, pending⟩ := b
  obtain rfl : phase = .running module := hp
  unfold Session.feed outstanding
  rw [hbridge, ha]
  cases pending with
  | nil =>
    simp only [Bridge.step, Bridge.proceed, List.nil_append, List.append_nil]
    refine ⟨⟨rfl, hj ▸ .idle hbrief⟩, ?_⟩
    intro e
    simp [planned_posts]
  | cons text rest =>
    simp only [Bridge.step, Bridge.proceed, List.nil_append]
    refine ⟨⟨rfl, hj ▸ .summons hbrief⟩, ?_⟩
    intro e
    simp only [← planned_posts settings.contextId]
    simp [planned, Effect.entry]

/-- Whatever happens, calls are refused and messages answered one after another, behind what was
still to be done. -/
theorem Refusing.step (h : s.Refusing settings module a) (hu : a.unusable = some reason)
    (next : Step s k t) :
    t.Refusing settings module a ∧ t.crash = s.crash ∧
      k ++ t.outstanding a (Adapter.refusal reason) =
        s.outstanding a (Adapter.refusal reason) ++
          rejoinders settings.contextId module a (Adapter.refusal reason) (taken k) := by
  obtain ⟨rfl, hgiven⟩ := h
  cases next with
  | send | collect | close | disconnect | elapse =>
    exact ⟨⟨rfl, hgiven⟩, rfl, by simp [outstanding, rejoinders]⟩
  | lose | exhaust => exact ⟨⟨rfl, hgiven⟩, rfl, by simp [outstanding, rejoinders, stop]⟩
  | linger hj | load hs ha hj | crashLoad hs ha hj =>
    rw [hj] at hgiven
    cases hgiven
  | publish hs ha | post hs ha =>
    rw [ha] at hgiven
    refine ⟨⟨rfl, hgiven.tail (by trivial)⟩, rfl, ?_⟩
    simp [outstanding, planned, ha, Effect.entry, rejoinders]
  | request hs ha hx | refuse hs ha hx =>
    rw [ha] at hgiven
    obtain ⟨-, -, -, text, he⟩ := hgiven.of_order id
    cases he
  | call hs ha =>
    rw [ha] at hgiven
    obtain ⟨rfl, hj, hp, text, he⟩ := hgiven.of_order id
    cases he
    refine ⟨⟨rfl, ?_⟩, rfl, ?_⟩
    · simp only [beginCall, hp]
      exact .calling
    · simp [beginCall, outstanding, planned, ha, Effect.entry, rejoinders]
  | @take m rest hl hm =>
    obtain ⟨⟨hs, ha⟩, hfree⟩ : (s.stopped = false ∧ s.agenda = []) ∧ _ := by
      simpa [listens] using hl
    rw [ha] at hgiven
    obtain ⟨hp, hn, hj⟩ | ⟨-, since, text, hj⟩ := hgiven.of_rest
    · obtain ⟨hrefusing, hout⟩ := Refusing.feed (s := { s with inbound := rest })
        hp hn ha hj m (Adapter.refusal reason)
      refine ⟨hrefusing, rfl, ?_⟩
      rw [hout]
      simp [outstanding, planned, rejoinders, hp, hn, ha]
    · simp [hj] at hfree
  | @answer since x result hs ha hj hx =>
    rw [ha] at hgiven
    obtain ⟨-, -, hnone⟩ | ⟨hp, since', text, hcalling⟩ := hgiven.of_rest
    · simp [hj] at hnone
    · obtain ⟨rfl, rfl⟩ := Job.calling.inj (hj.symm.trans hcalling)
      have hafter : (a.execute s.bridge.settings.contextId text).after = a := by
        rw [Adapter.execute_refused hu]
        rfl
      rw [Adapter.execute_refused hu] at hx
      obtain rfl : result = .error (Adapter.refusal reason) := by
        cases result <;> cases hx
        rfl
      obtain ⟨hrefusing, hout⟩ := Refusing.turn (s := { s with job := .none }) hp ha rfl
        (.error (Adapter.refusal reason))
      rw [hafter]
      refine ⟨hrefusing, rfl, ?_⟩
      rw [hout]
      simp [outstanding, planned, rejoinders, ha, hp, rebuff, posts, Bridge.answerPosts]
  | @crashCall since x panic hs ha hj hx =>
    rw [ha] at hgiven
    obtain ⟨-, -, hnone⟩ | ⟨-, since', text, hcalling⟩ := hgiven.of_rest
    · simp [hj] at hnone
    · obtain ⟨rfl, rfl⟩ := Job.calling.inj (hj.symm.trans hcalling)
      rw [Adapter.execute_refused hu] at hx
      cases hx

theorem Refusing.run (h : s.Refusing settings module a) (hu : a.unusable = some reason)
    (run : Run s k t) :
    t.Refusing settings module a ∧ t.crash = s.crash ∧
      k ++ t.outstanding a (Adapter.refusal reason) =
        s.outstanding a (Adapter.refusal reason) ++
          rejoinders settings.contextId module a (Adapter.refusal reason) (taken k) := by
  induction run with
  | start => exact ⟨h, rfl, by simp [rejoinders]⟩
  | @step k l t u run next ih =>
    obtain ⟨hmid, hcrash, hfirst⟩ := ih
    obtain ⟨hlast, hcrash', hsecond⟩ := hmid.step hu next
    refine ⟨hlast, hcrash'.trans hcrash, ?_⟩
    calc k ++ l ++ u.outstanding a (Adapter.refusal reason)
      _ = k ++ t.outstanding a (Adapter.refusal reason) ++
          rejoinders settings.contextId module a (Adapter.refusal reason) (taken l) := by
        rw [List.append_assoc, hsecond, List.append_assoc]
      _ = s.outstanding a (Adapter.refusal reason) ++
          rejoinders settings.contextId module a (Adapter.refusal reason) (taken (k ++ l)) := by
        rw [hfirst, taken_append, rejoinders_append, List.append_assoc]

/-- Where nothing is outstanding, the bridge waits for a message. -/
theorem Refusing.idle {e : EngineError} (h : s.Refusing settings module a)
    (hout : s.outstanding a e = []) :
    s.agenda = [] ∧ s.job = .none ∧ s.bridge.phase = .ready module a ∧ s.bridge.pending = [] := by
  have hgiven := h.given
  simp only [outstanding, planned, List.append_eq_nil_iff, List.map_eq_nil_iff] at hout
  obtain ⟨⟨ha, hrunning⟩, -⟩ := hout
  rw [ha] at hgiven
  obtain ⟨hp, hn, hj⟩ | ⟨hp, -⟩ := hgiven.of_rest
  · exact ⟨ha, hj, hp, hn⟩
  · simp [hp, rebuff] at hrunning

/-- As long as something is outstanding, it can come. -/
theorem Refusing.progress (h : s.Refusing settings module a) (hu : a.unusable = some reason)
    (hatt : s.Attentive) (hout : s.outstanding a (Adapter.refusal reason) ≠ []) :
    ∃ k t, Run s k t ∧ k ≠ [] ∧ taken k = [] ∧ t.Attentive ∧ t.inbound = s.inbound := by
  have hgiven := h.given
  cases ha : s.agenda with
  | cons x rest =>
    rw [ha] at hgiven
    by_cases hbrief : x.Brief
    · have hagenda : s.agenda = [x] ++ rest := ha
      obtain ⟨t, run, ht, -, -, -, hin⟩ := drains 0 hatt hagenda (by simpa using hbrief)
      refine ⟨_, t, run, by simp [planned], ?_, ht, hin⟩
      cases x <;> rfl
    · obtain ⟨-, -, -, text, rfl⟩ := hgiven.of_order hbrief
      exact ⟨_, _, .single (.call hatt.going ha), by simp, rfl, ⟨hatt.1, hatt.2, hatt.3⟩, rfl⟩
  | nil =>
    rw [ha] at hgiven
    obtain ⟨hp, hn, -⟩ | ⟨-, since, text, hj⟩ := hgiven.of_rest
    · exact absurd (by simp [outstanding, planned, ha, hp, hn]) hout
    · have hx : (a.execute settings.contextId text).answer =
          .ofResult (.error (Adapter.refusal reason)) := by
        rw [Adapter.execute_refused hu]
        rfl
      exact ⟨_, _, .single (.answer hatt.going ha hj hx), by simp, rfl, ⟨hatt.1, hatt.2, hatt.3⟩,
        rfl⟩

/-- All that is outstanding comes. -/
theorem Refusing.settles (h : s.Refusing settings module a) (hu : a.unusable = some reason)
    (hatt : s.Attentive) :
    ∃ k t, Run s k t ∧ t.outstanding a (Adapter.refusal reason) = [] ∧ taken k = [] ∧
      t.Attentive ∧ t.inbound = s.inbound := by
  generalize hlength : (s.outstanding a (Adapter.refusal reason)).length = n
  induction n using Nat.strongRecOn generalizing s with
  | ind n ih =>
    by_cases hout : s.outstanding a (Adapter.refusal reason) = []
    · exact ⟨[], s, .start, hout, rfl, hatt, rfl⟩
    · obtain ⟨k, t, run, hk, htaken, ht, hin⟩ := h.progress hu hatt hout
      obtain ⟨hrefusing, -, hcourse⟩ := h.run hu run
      have hshorter : (t.outstanding a (Adapter.refusal reason)).length < n := by
        have hlengths := congrArg List.length hcourse
        have hpos : 0 < k.length := List.length_pos_iff.2 hk
        simp [htaken, rejoinders] at hlengths
        omega
      obtain ⟨l, u, more, hnone, htaken', hu', hin'⟩ := ih _ hshorter hrefusing ht rfl
      exact ⟨k ++ l, u, run.trans more, hnone, by simp [htaken, htaken'], hu', hin'.trans hin⟩

theorem Refusing.answers (h : s.Refusing settings module a) (hu : a.unusable = some reason)
    (hatt : s.Attentive) :
    ∃ t, Run s (s.outstanding a (Adapter.refusal reason) ++
        rejoinders settings.contextId module a (Adapter.refusal reason) s.inbound.items) t ∧
      t.listens = true ∧ t.inbound.items = [] := by
  suffices hruns : ∃ k t, Run s k t ∧ t.outstanding a (Adapter.refusal reason) = [] ∧
      taken k = s.inbound.items ∧ t.stopped = false ∧ t.inbound.items = [] by
    obtain ⟨k, t, run, hnone, htaken, hs, hempty⟩ := hruns
    obtain ⟨hrefusing, -, hcourse⟩ := h.run hu run
    obtain ⟨ha, hj, -⟩ := hrefusing.idle hnone
    rw [hnone, List.append_nil, htaken] at hcourse
    refine ⟨t, hcourse ▸ run, ?_, hempty⟩
    simp [listens, hs, ha, hj]
  generalize hitems : s.inbound.items = items
  induction items generalizing s with
  | nil =>
    obtain ⟨k, t, run, hnone, htaken, ht, hin⟩ := h.settles hu hatt
    exact ⟨k, t, run, hnone, htaken, ht.going, by rw [hin, hitems]⟩
  | cons m rest ih =>
    obtain ⟨k, t, run, hnone, htaken, ht, hin⟩ := h.settles hu hatt
    obtain ⟨hrefusing, -, -⟩ := h.run hu run
    obtain ⟨ha, hj, hp, hn⟩ := hrefusing.idle hnone
    have hlistens : t.listens = true := by simp [listens, ht.going, ha, hj]
    have hwaiting : t.inbound.items = m :: rest := by rw [hin, hitems]
    have next := Step.take hlistens (Channel.take?_of_items hwaiting)
    obtain ⟨hfed, -⟩ := hrefusing.step hu next
    obtain ⟨l, u, more, hlast, htaken', hs, hempty⟩ := ih hfed ⟨ht.1, ht.2, ht.3⟩ rfl
    exact ⟨_, u, (run.step next).trans more, hlast, by simp [htaken, htaken'], hs, hempty⟩

/-- A call that gives its interpreter up hands back an adapter that refuses every further call. -/
theorem Faithful.refusing {since : Nat} {x : Execution σ} {result : Except EngineError String}
    (h : Faithful settings j s) (hj : s.job = .calling since x)
    (next : Step s [.answered result] t) :
    ∃ name, s.bridge.phase = .running name ∧ t.Refusing settings name x.after ∧ ∀ e,
      t.outstanding x.after e = posts (Bridge.answerPosts result) ++
        s.bridge.pending.flatMap fun text =>
          .called settings.contextId x.after text :: rebuff e := by
  have hengaged := h.engaged
  rw [hj] at hengaged
  obtain ⟨name, a, command, before, hp, -, -⟩ := hengaged.of_calling
  obtain rfl := h.settings_eq
  cases next with
  | answer hs ha hj' hx =>
    obtain ⟨rfl, rfl⟩ := Job.calling.inj (hj.symm.trans hj')
    exact ⟨name, hp, Refusing.turn (s := { s with job := .none }) hp ha rfl result⟩

/-- What has become of a bridge whose adapter `a` of `module` is unusable for `reason`, when `owed`
was still to come; `l` is what came. -/
structure Disabled (settings : BridgeSettings) (module : String) (a : Adapter σ) (reason : String)
    (owed l : Journal σ) (s : Session σ) : Prop where
  course : l ++ s.outstanding a (Adapter.refusal reason) =
    owed ++ rejoinders settings.contextId module a (Adapter.refusal reason) (taken l)
  ready : s.bridge.lifecycle = .ready
  going : s.crash = none
  /-- No adapter is called but this one, which does not call its interpreter. -/
  left_alone : ∀ context b text, .called context b text ∈ l → b = a
  nothing_owed : s.Resting → s.outstanding a (Adapter.refusal reason) = []
  /-- While the host listens, all that it has sent will be answered. -/
  answered : s.stopped = false → s.outbound.receiving = true →
    ∃ t, s.Run (s.outstanding a (Adapter.refusal reason) ++
        rejoinders settings.contextId module a (Adapter.refusal reason) s.inbound.items) t ∧
      t.listens = true ∧ t.inbound.items = []

omit [Interpreter σ] in
theorem eq_of_called_mem {context context' : Nat} {b : Adapter σ} {e : EngineError} {text : String}
    {told : List Outbound} {pending : List String} {messages : List Inbound}
    (h : Entry.called context' b text ∈ posts told ++
        (pending.flatMap fun text => .called context a text :: rebuff e) ++
          rejoinders context module a e messages) : b = a := by
  simp only [List.mem_append, List.mem_flatMap, posts, List.mem_map, rejoinders] at h
  rcases h with (⟨m, -, h⟩ | ⟨waiting, -, h⟩) | ⟨m, -, h⟩
  · cases h
  · simp only [rebuff, List.mem_cons, List.not_mem_nil, or_false, reduceCtorEq] at h
    cases h
    rfl
  · cases m with
    | command =>
      simp only [rejoinder, rebuff, List.mem_cons, List.not_mem_nil, or_false, reduceCtorEq,
        false_or] at h
      cases h
      rfl
    | malformed => simp [rejoinder] at h
    | control c => cases c <;> simp [rejoinder] at h

/-- Once an adapter is unusable, its interpreter is not called again, and the bridge goes on as
before: it is ready, and answers every message. -/
theorem disabled_of_run {registry : Registry σ} {t u : Session σ} {since : Nat} {x : Execution σ}
    {result : Except EngineError String} (run : Run (create registry settings) j s)
    (hj : s.job = .calling since x) (hx : x.after.unusable = some reason)
    (next : Step s [.answered result] t) (later : Run t l u) :
    ∃ name, s.bridge.phase = .running name ∧ u.Disabled settings name x.after reason
      (posts (Bridge.answerPosts result) ++ s.bridge.pending.flatMap fun text =>
        .called settings.contextId x.after text :: rebuff (Adapter.refusal reason)) l := by
  obtain ⟨name, hp, hrefusing, hout⟩ := run.faithful.refusing hj next
  have whole := (run.step next).trans later
  obtain ⟨hlast, hcrash, hcourse⟩ := hrefusing.run hx later
  rw [hout] at hcourse
  refine ⟨name, hp, hcourse, ?_, ?_, ?_, ?_, ?_⟩
  · obtain hready | hrunning := hlast.given.phase_cases
    · rw [Bridge.lifecycle, hready]
      rfl
    · rw [Bridge.lifecycle, hrunning]
      rfl
  · rw [hcrash]
    cases next with
    | answer hs =>
      cases hc : s.crash with
      | none => rfl
      | some p =>
        obtain ⟨hstopped, -⟩ := run.crash_cases hc
        rw [hs] at hstopped
        cases hstopped
  · intro context b text hmem
    have hall := List.mem_append_left (u.outstanding x.after (Adapter.refusal reason)) hmem
    rw [hcourse] at hall
    exact eq_of_called_mem hall
  · intro hresting
    have ha := whole.faithful.agenda_resting hresting
    have htaking := whole.faithful.taking_resting hresting
    have hgiven := hlast.given
    rw [ha] at hgiven
    obtain ⟨hp, hn, -⟩ | ⟨hp, -⟩ := hgiven.of_rest
    · simp [outstanding, planned, ha, hp, hn]
    · rw [hp] at htaking
      exact htaking.elim
  · intro hs ho
    refine hlast.answers hx ⟨hs, ho, ?_⟩
    rw [whole.capacity_eq]
    exact Nat.lt_of_lt_of_le Nat.zero_lt_one (Nat.le_max_right _ _)

end Session

/-- Recoveries follow those calls that panic or are late, and no others. Once one has failed, the
interpreter is left alone for good, while the bridge stays ready and answers every message. -/
theorem given_up_for_good (module : String) (engine : σ) (limit : Nat) (past : List (Nat × String))
    (context : Nat) (command : String)
    (hquiet : ∀ p, (Interpreter.recovery (((Adapter.fresh module engine limit).through
      past).execute context command).during.engine).ending ≠ .panic p) :
    (Adapter.fresh module engine limit).Recovers past context command ∧
      ∀ (settings : BridgeSettings) (registry : Registry σ) (s t u : Session σ) (j l : Journal σ)
        (since : Nat) (x : Execution σ) (reason : String) (result : Except EngineError String),
        Session.Run (.create registry settings) j s → s.job = .calling since x →
        x.after.unusable = some reason → s.Step [.answered result] t → t.Run l u →
        ∃ name, s.bridge.phase = .running name ∧ u.Disabled settings name x.after reason
          (posts (Bridge.answerPosts result) ++ s.bridge.pending.flatMap fun text =>
            .called settings.contextId x.after text :: rebuff (Adapter.refusal reason)) l :=
  ⟨Adapter.recovers_of_calls module engine limit past context command hquiet,
    fun _ _ _ _ _ _ _ _ _ _ _ run hj hx next later =>
      Session.disabled_of_run run hj hx next later⟩

namespace Rehearsal

/-- One of its commands panics, and it cannot recover. -/
def brittle : Scripted := .ofReplies [("boom", .panic "boom"), ("1 .", .output "1 ")] true

def brittleAdapter : Adapter Scripted := .fresh "forth" brittle 5000

def brittleRegistry : Registry Scripted := Registry.empty.register ⟨"forth", "", .nothing, brittle⟩

/-- What is left of it when the command has panicked. -/
def broken : Adapter Scripted := (brittleAdapter.execute 0 "boom").after

def breaking : Journal Scripted :=
  [.took (.control (.start none)), .published ⟨.uninitialized, .loading⟩, .requested "forth",
    .loaded (.ok brittleAdapter), .published ⟨.loading, .ready⟩, .posted (.notice .ready),
    .took (.command "boom"), .called 0 brittleAdapter "boom"]

def afterwards : Journal Scripted :=
  [.posted (BridgeError.engine panicked).notice, .took (.command "1 ."), .called 0 broken "1 .",
    .answered (.error (Adapter.refusal "scripted recovery failure")),
    .posted (BridgeError.engine (Adapter.refusal "scripted recovery failure")).notice,
    .took (.control .status), .posted (.notice (.status .ready (some "forth") 0))]

theorem run_breaking : ∃ s t u, Session.Run (.create brittleRegistry settings) breaking s ∧
    s.job = .calling 0 (brittleAdapter.execute 0 "boom") ∧
    s.bridge.phase = .running "forth" ∧ s.bridge.pending = [] ∧
    s.Step [.answered (.error panicked)] t ∧ t.Run afterwards u ∧ u.listens = true := by
  have run := Session.Run.start (s := .create brittleRegistry settings)
  have run := run.step (.send (m := .control (.start none)) rfl rfl rfl)
  have run := run.step (.take rfl rfl)
  have run := run.step (.publish rfl rfl)
  have run := run.step (.request rfl rfl rfl)
  have run := run.step (k := [.loaded (.ok brittleAdapter)]) (.load rfl rfl rfl)
  have run := run.step (.publish rfl rfl)
  have run := run.step (.post rfl rfl rfl rfl)
  have run := run.step (.send (m := .command "boom") rfl rfl rfl)
  have run := run.step (.take rfl rfl)
  have run := run.step (.call rfl rfl)
  have later := onwards (run.step (k := [.answered (.error panicked)]) (.answer rfl rfl rfl rfl))
  have later := later.step (.post rfl rfl rfl rfl)
  have later := later.step (.send (m := .command "1 .") rfl rfl rfl)
  have later := later.step (.take rfl rfl)
  have later := later.step (.call rfl rfl)
  have later := later.step
    (k := [.answered (.error (Adapter.refusal "scripted recovery failure"))])
    (.answer rfl rfl rfl rfl)
  have later := later.step (.post rfl rfl rfl rfl)
  have later := later.step (.send (m := .control .status) rfl rfl rfl)
  have later := later.step (.take rfl rfl)
  have later := later.step (.post rfl rfl rfl rfl)
  exact ⟨_, _, _, run, rfl, rfl, rfl, .answer rfl rfl rfl rfl, later, rfl⟩

end Rehearsal

/-- After one panic the engine is called no more. -/
theorem given_up_rehearsal :
    Rehearsal.brittleAdapter.deeds [(0, "boom"), (0, "1 ."), (0, "1 .")] =
        [.executed 0 "boom", .recovered] ∧
      Rehearsal.brittleAdapter.Recovers [] 0 "boom" ∧
      ∃ u : Session Scripted, u.listens = true ∧
        u.Disabled Rehearsal.settings "forth" Rehearsal.broken "scripted recovery failure"
          [.posted (BridgeError.engine Rehearsal.panicked).notice] Rehearsal.afterwards := by
  have hquiet (p : Panic) : (Interpreter.recovery
      (Rehearsal.brittleAdapter.execute 0 "boom").during.engine).ending ≠ .panic p := by
    change Ending.fault _ ≠ _
    nofun
  obtain ⟨s, t, u, run, hj, hphase, hpending, next, later, hl⟩ := Rehearsal.run_breaking
  obtain ⟨hrecovers, hdisabled⟩ :=
    given_up_for_good "forth" Rehearsal.brittle 5000 [] 0 "boom" hquiet
  obtain ⟨name, hname, hu⟩ := hdisabled _ _ s t u _ _ _ _ _ _ run hj rfl next later
  obtain rfl : "forth" = name := Phase.running.inj (hphase.symm.trans hname)
  rw [hpending] at hu
  exact ⟨rfl, hrecovers, u, hl, hu⟩

end EngineBridge
