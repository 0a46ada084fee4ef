import EngineBridge.Bridge.Host
import EngineBridge.Proofs.Order

/-!
# Panics

Module code can panic in a call, in the recovery after a call, and while a module starts. A panic in
a call is told as a fault, and all goes on as if the call had failed with an ordinary one. The other
two are not contained: the bridge ends, and nobody is told of it.
-/

namespace EngineBridge

open Journal

variable {σ : Type}

def Verdict.panic? : Verdict → Option Panic
  | .panic p => some p
  | _ => none

/-- Why an interpreter is not called again after a recovery that ended in this way. -/
def Verdict.blame? : Verdict → Option String
  | .fault e => some e.message
  | .late => some "recovery timed out"
  | _ => none

def Panic.report (p : Panic) : String := "interpreter panicked: " ++ p.message

theorem Fault.message_ofText (text : String) : (ofText text).message = text := by
  simp [message, ofText, chain, Cause.message]

variable [Interpreter σ]

namespace Adapter

/-- The panic of a call, if the interpreter is called and panics before it is late. -/
def panic? (a : Adapter σ) (context : Nat) (command : String) : Option Panic :=
  match a.unusable with
  | some _ => none
  | none =>
    ((Interpreter.execute a.engine context command).script.within a.execTimeout).verdict.panic?

def recoveryOf (a : Adapter σ) (engine : σ) : Verdict :=
  match Interpreter.recover engine with
  | none => .done
  | some (script, _) => (script.within a.execTimeout).verdict

/-- How the recovery ends that follows a call, if the call is abandoned. -/
def recovery? (a : Adapter σ) (context : Nat) (command : String) : Option Verdict :=
  match a.unusable with
  | some _ => none
  | none =>
    let call := Interpreter.execute a.engine context command
    let f := call.script.within a.execTimeout
    match f.verdict with
    | .panic _ => some (a.recoveryOf call.after)
    | .late => some (a.recoveryOf (call.cut f.done))
    | _ => none

/-- The error of a call that is abandoned, whatever becomes of its recovery. -/
def ownError (a : Adapter σ) (context : Nat) (command : String) : EngineError :=
  match a.panic? context command with
  | some p => .fault p.report
  | none => .timeout a.execTimeout

variable {a : Adapter σ} {context : Nat} {command : String} {p : Panic}

private theorem recover_panic (a : Adapter σ) :
    a.recover.2.2 = (a.recoveryOf a.engine).panic? := by
  unfold recover recoveryOf
  rcases Interpreter.recover a.engine with - | ⟨script, engine⟩
  · rfl
  · dsimp only
    cases (script.within a.execTimeout).verdict <;> rfl

private theorem recover_unusable (ha : a.unusable = none) :
    a.recover.1.unusable = (a.recoveryOf a.engine).blame? := by
  unfold recover recoveryOf
  rcases Interpreter.recover a.engine with - | ⟨script, engine⟩
  · exact ha
  · dsimp only
    cases (script.within a.execTimeout).verdict <;> first | exact ha | rfl

private theorem abandon_answer (a : Adapter σ) (millis : Nat) (e : EngineError) :
    (a.abandon millis e).answer = (a.recoveryOf a.engine).panic?.elim (.error e) .crashed := by
  let cleared := { a with output := a.output.clear }
  have hrecover : cleared.recover.2.2 = (a.recoveryOf a.engine).panic? := recover_panic cleared
  simp only [abandon, hrecover, cleared]
  cases (a.recoveryOf a.engine).panic? <;> rfl

theorem abandon_unusable (ha : a.unusable = none) (millis : Nat) (e : EngineError) :
    (a.abandon millis e).after.unusable = (a.recoveryOf a.engine).blame? :=
  recover_unusable (a := { a with output := a.output.clear }) ha

private theorem execute_cases (a : Adapter σ) (context : Nat) (command : String) :
    (a.recovery? context command = none ∧ ∀ p, (a.execute context command).answer ≠ .crashed p) ∨
      ∃ b millis, a.execute context command = abandon b millis (a.ownError context command) ∧
        b.unusable = none ∧ a.recovery? context command = some (b.recoveryOf b.engine) := by
  cases ha : a.unusable with
  | some reason => exact .inl (by simp [recovery?, execute, finish, ha])
  | none =>
    let call := Interpreter.execute a.engine context command
    let f := call.script.within a.execTimeout
    let output := a.output.emit f.output
    -- A recovery starts from what the call leaves behind: at its panic, or where it is cut off.
    cases hv :
        ((Interpreter.execute a.engine context command).script.within a.execTimeout).verdict with
    | done => exact .inl (by simp [recovery?, execute, finish, ha, hv])
    | fault e => exact .inl (by simp [recovery?, execute, finish, ha, hv])
    | panic p =>
      have hown : a.ownError context command = .fault p.report := by
        simp [ownError, panic?, ha, hv, Verdict.panic?]
      refine .inr ⟨{ a with engine := call.after, output }, f.millis, ?_, ha, ?_⟩
      · simp only [execute, ha, hv, hown]
        rfl
      · simp only [recovery?, ha, hv]
        rfl
    | late =>
      have hown : a.ownError context command = .timeout a.execTimeout := by
        simp [ownError, panic?, ha, hv, Verdict.panic?]
      refine .inr ⟨{ a with engine := call.cut f.done, output }, f.millis, ?_, ha, ?_⟩
      · simp only [execute, ha, hv, hown]
        rfl
      · simp only [recovery?, ha, hv]
        rfl

/-- A call ends in a panic if and only if its recovery does. -/
theorem execute_crashed_iff :
    (a.execute context command).answer = .crashed p ↔
      a.recovery? context command = some (.panic p) := by
  obtain ⟨hr, hx⟩ | ⟨b, millis, hx, -, hr⟩ := execute_cases a context command
  · simp [hr, hx p]
  · rw [hr, hx, abandon_answer]
    cases b.recoveryOf b.engine <;> simp [Verdict.panic?]

/-- A call that is abandoned has its own error for an answer, and the interpreter is given up if and
only if the recovery fails or is late. -/
theorem execute_abandoned {v : Verdict} (hr : a.recovery? context command = some v)
    (hv : v.panic? = none) :
    (a.execute context command).answer = .error (a.ownError context command) ∧
      (a.execute context command).after.unusable = v.blame? := by
  obtain ⟨hnone, -⟩ | ⟨b, millis, hx, hb, hsome⟩ := execute_cases a context command
  · simp [hr] at hnone
  · obtain rfl : v = b.recoveryOf b.engine := by simpa [hr] using hsome
    rw [hx, abandon_answer, abandon_unusable hb, hv]
    exact ⟨rfl, rfl⟩

/-- What a call that fails leaves in the journal. -/
def failure (a : Adapter σ) (context : Nat) (command : String) (e : EngineError) : Journal σ :=
  [.called context a command, .answered (.error e), .posted (BridgeError.engine e).notice]

theorem transcript_cons_error {e : EngineError} (commands : List String)
    (hx : (a.execute context command).answer = .error e) :
    a.transcript context (command :: commands) = a.failure context command e ++
      (a.execute context command).after.transcript context commands := by
  have hreport : (posts (report (.error e)) : Journal σ) =
      [.posted (BridgeError.engine e).notice] := rfl
  simp only [transcript, hx, Answer.result?, hreport]
  rfl

/-- What an adapter that has given up its interpreter answers. -/
def refusal (reason : String) : EngineError := .fault ("engine is unusable: " ++ reason)

theorem transcript_unusable {reason : String} (ha : a.unusable = some reason)
    (commands : List String) :
    a.transcript context commands =
      commands.flatMap fun command => a.failure context command (refusal reason) := by
  induction commands with
  | nil => rfl
  | cons command commands ih =>
    have hx : a.execute context command = a.finish 0 (.error (refusal reason)) := by
      simp [execute, ha, refusal]
    have hafter : (a.execute context command).after = a := by rw [hx]; rfl
    have hanswer : (a.execute context command).answer = .error (refusal reason) := by rw [hx]; rfl
    rw [transcript_cons_error commands hanswer, hafter, ih, List.flatMap_cons]

end Adapter

/-- The same interpreter, but that each call which would panic fails with an ordinary fault and
leaves behind what a recovery would have made of it. -/
@[reducible]
def Interpreter.calm (σ : Type) [Interpreter σ] : Interpreter σ where
  execute engine context command :=
    let call := Interpreter.execute engine context command
    match call.script.ending with
    | .panic p =>
      { call with
        script := ⟨call.script.acts, .fault (.ofText p.report)⟩
        after := ((Interpreter.recover call.after).map (·.2)).getD call.after }
    | _ => call
  recover := Interpreter.recover
  version := Interpreter.version

def Adapter.calmly (a : Adapter σ) (context : Nat) (command : String) : Execution σ :=
  @execute σ (.calm σ) a context command

section Calm

variable {engine : σ} {context : Nat} {command : String} {p : Panic}

theorem Interpreter.calm_execute_of_panic
    (h : (Interpreter.execute engine context command).script.ending = .panic p) :
    let call := Interpreter.execute engine context command
    (Interpreter.calm σ).execute engine context command =
      { call with
        script := ⟨call.script.acts, .fault (.ofText p.report)⟩
        after := ((Interpreter.recover call.after).map (·.2)).getD call.after } := by
  unfold calm
  simp only [h]

theorem Interpreter.calm_execute_of_ne
    (h : ∀ p, (Interpreter.execute engine context command).script.ending ≠ .panic p) :
    (Interpreter.calm σ).execute engine context command =
      Interpreter.execute engine context command := by
  unfold calm
  cases he : (Interpreter.execute engine context command).script.ending with
  | panic p => exact absurd he (h p)
  | _ => simp only [he]

end Calm

/-- The same work with another ending is as late, or gets to its end as far and as fast. -/
def Finish.Reaches (e e' : Ending) (f f' : Finish) : Prop :=
  f.verdict = .late ∧ f' = f ∨ f.verdict = .ofEnding e ∧ f' = { f with verdict := .ofEnding e' }

theorem Finish.Reaches.behind {e e' : Ending} {f f' : Finish} (h : Reaches e e' f f') (s : String) :
    Reaches e e' (f.behind s) (f'.behind s) := by
  obtain ⟨hv, rfl⟩ | ⟨hv, rfl⟩ := h
  · exact .inl ⟨hv, rfl⟩
  · exact .inr ⟨hv, rfl⟩

theorem Script.follow_reaches {e e' : Ending} (he : e ≠ .hang) (he' : e' ≠ .hang)
    (limit now : Nat) (acts : List Act) :
    Finish.Reaches e e' (follow limit e now acts) (follow limit e' now acts) := by
  fun_induction follow limit e now acts with
  | case1 now hang => exact absurd hang he
  | case2 =>
    cases e' with
    | hang => exact absurd rfl he'
    | _ => exact .inr ⟨rfl, rfl⟩
  | case3 now s rest ih =>
    exact ih.behind s
  | case4 now rest ih => simpa only [follow, if_true] using ih.behind ""
  | case5 now ms rest hms hle ih =>
    simpa only [follow, hms, hle, if_true, if_false] using ih.behind ""
  | case6 now ms rest hms hle => exact .inl ⟨rfl, by simp only [follow, hms, hle, if_false]⟩
  | case7 now rest hlt ih => simpa only [follow, hlt, if_true] using ih.behind ""
  | case8 now rest hlt => exact .inl ⟨rfl, by simp only [follow, hlt, if_false]⟩
  | case9 now rest => exact .inl ⟨rfl, rfl⟩

theorem Script.within_reaches (s : Script) {e : Ending} (hs : s.ending ≠ .hang) (he : e ≠ .hang)
    (limit : Nat) :
    Finish.Reaches s.ending e (s.within limit) (Script.within { s with ending := e } limit) :=
  follow_reaches hs he limit 0 s.acts

namespace Adapter

variable {a : Adapter σ} {context : Nat} {command : String} {p : Panic}

/-- If the call panics, the recovery brings the interpreter back. -/
def Restored (a : Adapter σ) (context : Nat) (command : String) : Prop :=
  ∀ p, a.panic? context command = some p → a.recovery? context command = some .done

private theorem recover_of_done (h : a.recoveryOf a.engine = .done) :
    a.recover.1 =
      { a with engine := ((Interpreter.recover a.engine).map (·.2)).getD a.engine } := by
  unfold recover
  unfold recoveryOf at h
  rcases hr : Interpreter.recover a.engine with - | ⟨script, engine⟩
  · rfl
  · simp only [hr] at h ⊢
    rw [h]
    rfl

/-- A call that is restored after a panic leaves the same adapter and is answered in the same way as
if it had failed with an ordinary fault. -/
theorem calmly_eq (h : a.Restored context command) :
    (a.calmly context command).after = (a.execute context command).after ∧
      (a.calmly context command).answer = (a.execute context command).answer := by
  cases ha : a.unusable with
  | some reason => simp [calmly, execute, finish, ha]
  | none =>
    cases he : (Interpreter.execute a.engine context command).script.ending with
    | panic p =>
      have hcalm := Interpreter.calm_execute_of_panic he
      have hreach := (Interpreter.execute a.engine context command).script.within_reaches
        (e := .fault (.ofText p.report)) (by simp [he]) nofun a.execTimeout
      rcases hreach with ⟨hv, hf⟩ | ⟨hv, hf⟩
      · -- The panic lies behind the deadline, and both calls are cut off in the same place.
        simp only [calmly, execute, ha, hcalm, hf, hv]
        exact ⟨rfl, rfl⟩
      · rw [he] at hv
        have hpanic : a.panic? context command = some p := by
          simp only [panic?, ha, hv]
          rfl
        have hdone : a.recoveryOf (Interpreter.execute a.engine context command).after = .done := by
          have hr := h p hpanic
          simpa only [recovery?, ha, hv, Verdict.ofEnding, Option.some.injEq] using hr
        have hown : a.ownError context command = .fault p.report := by simp only [ownError, hpanic]
        constructor
        · simp only [calmly, execute, ha, hcalm, hf, hv, Verdict.ofEnding]
          symm
          apply recover_of_done
          exact hdone
        · rw [(execute_abandoned (h p hpanic) rfl).1, hown]
          simp only [calmly, execute, ha, hcalm, hf, Verdict.ofEnding, finish, Fault.message_ofText]
    | _ =>
      have hother (p : Panic) :
          (Interpreter.execute a.engine context command).script.ending ≠ .panic p := by simp [he]
      have hcalm := Interpreter.calm_execute_of_ne hother
      simp only [calmly, execute, ha, hcalm]
      exact ⟨rfl, rfl⟩

end Adapter

/-- The same is under way; a call may take another time. -/
inductive Job.Agrees : Job σ → Job σ → Prop
  | none : Agrees .none .none
  | loading {x progress deadline seen} :
      Agrees (.loading x progress deadline seen) (.loading x progress deadline seen)
  | calling {since x y} (ha : y.after = x.after) (hx : y.answer = x.answer) :
      Agrees (.calling since x) (.calling since y)

section Agrees

omit [Interpreter σ]

variable {job job' : Job σ}

theorem Job.Agrees.of_none (h : job.Agrees job') (hj : job = .none) : job' = .none := by
  subst hj
  cases h
  rfl

theorem Job.Agrees.of_loading {x : Registration σ} {progress : Progress} {deadline : Nat}
    {seen : Bool} (h : job.Agrees job') (hj : job = .loading x progress deadline seen) :
    job' = .loading x progress deadline seen := by
  subst hj
  cases h
  rfl

theorem Job.Agrees.of_calling {since : Nat} {x : Execution σ} (h : job.Agrees job')
    (hj : job = .calling since x) :
    ∃ y, job' = .calling since y ∧ y.after = x.after ∧ y.answer = x.answer := by
  subst hj
  cases h with
  | calling ha hx => exact ⟨_, rfl, ha, hx⟩

end Agrees

/-- Each call of the journal that panics is restored. -/
def Journal.Restored (j : Journal σ) : Prop :=
  ∀ context a command, .called context a command ∈ j → a.Restored context command

namespace Session

variable {settings : BridgeSettings} {j k : Journal σ} {s t : Session σ} {p : Panic}

/-- A run of a session whose interpreter never panics. -/
abbrev CalmRun (s : Session σ) (j : Journal σ) (t : Session σ) : Prop := @Run σ (.calm σ) s j t

abbrev CalmStep (s : Session σ) (j : Journal σ) (t : Session σ) : Prop := @Step σ (.calm σ) s j t

/-- Whatever a session does, it does with the same entries in the journal if its interpreter never
panics, as long as it is called only where panics are restored. -/
theorem Step.calm {job : Job σ} (next : Step s k t) (hjob : s.job.Agrees job) (hk : k.Restored) :
    ∃ job', t.job.Agrees job' ∧ CalmStep { s with job } k { t with job := job' } := by
  cases next with
  | send hs hr hc => exact ⟨job, hjob, @Step.send σ (.calm σ) { s with job } _ hs hr hc⟩
  | collect h => exact ⟨job, hjob, @Step.collect σ (.calm σ) { s with job } _ _ h⟩
  | close => exact ⟨job, hjob, @Step.close σ (.calm σ) { s with job }⟩
  | disconnect => exact ⟨job, hjob, @Step.disconnect σ (.calm σ) { s with job }⟩
  | elapse => exact ⟨job, hjob, @Step.elapse σ (.calm σ) { s with job } _ _ _⟩
  | linger hj =>
    exact ⟨_, .loading, @Step.linger σ (.calm σ) { s with job } _ _ _ _ _ _ (hjob.of_loading hj)⟩
  | publish hs ha => exact ⟨job, hjob, @Step.publish σ (.calm σ) { s with job } _ _ hs ha⟩
  | post hs ha hr hc => exact ⟨job, hjob, @Step.post σ (.calm σ) { s with job } _ _ hs ha hr hc⟩
  | lose hs ha hr => exact ⟨job, hjob, @Step.lose σ (.calm σ) { s with job } _ _ hs ha hr⟩
  | request hs ha hx =>
    have h := @Step.request σ (.calm σ) { s with job } _ _ _ hs ha hx
    simp only [beginLoad, hx] at h ⊢
    exact ⟨_, .loading, h⟩
  | refuse hs ha hx =>
    have h := @Step.refuse σ (.calm σ) { s with job } _ _ hs ha hx
    simp only [beginLoad, hx] at h ⊢
    exact ⟨job, hjob, h⟩
  | @call a command rest hs ha =>
    obtain ⟨hafter, hanswer⟩ := Adapter.calmly_eq (hk _ a command (List.mem_singleton_self _))
    exact ⟨_, .calling hafter hanswer, @Step.call σ (.calm σ) { s with job } _ _ _ hs ha⟩
  | take hl hm =>
    -- Whether a bridge listens depends on the kind of its job alone.
    have hl' : listens { s with job } = true := by
      unfold listens at hl ⊢
      generalize s.job = before at hl hjob
      cases hjob <;> exact hl
    exact ⟨job, hjob, @Step.take σ (.calm σ) { s with job } _ _ hl' hm⟩
  | load hs ha hj =>
    exact ⟨_, .none, @Step.load σ (.calm σ) { s with job } _ _ _ _ _ hs ha (hjob.of_loading hj)⟩
  | answer hs ha hj hx =>
    obtain ⟨y, hy, hafter, hanswer⟩ := hjob.of_calling hj
    have h := @Step.answer σ (.calm σ) { s with job } _ _ _ hs ha hy (hanswer.trans hx)
    rw [hafter] at h
    exact ⟨_, .none, h⟩
  | exhaust hs ha hj hi =>
    exact ⟨job, hjob, @Step.exhaust σ (.calm σ) { s with job } hs ha (hjob.of_none hj) hi⟩
  | crashLoad hs ha hj =>
    exact ⟨job, hjob,
      @Step.crashLoad σ (.calm σ) { s with job } _ _ _ _ _ hs ha (hjob.of_loading hj)⟩
  | crashCall hs ha hj hx =>
    obtain ⟨y, hy, -, hanswer⟩ := hjob.of_calling hj
    exact ⟨job, hjob,
      @Step.crashCall σ (.calm σ) { s with job } _ _ _ hs ha hy (hanswer.trans hx)⟩

theorem Run.calm {registry : Registry σ} (run : Run (create registry settings) j s)
    (hj : j.Restored) :
    ∃ job, s.job.Agrees job ∧ CalmRun (create registry settings) j { s with job } := by
  induction run with
  | start => exact ⟨.none, .none, @Run.start σ (.calm σ) _⟩
  | step run next ih =>
    obtain ⟨job, hjob, before⟩ := ih fun c a text h => hj c a text (List.mem_append_left _ h)
    obtain ⟨job', hjob', last⟩ :=
      next.calm hjob fun c a text h => hj c a text (List.mem_append_right _ h)
    exact ⟨job', hjob', @Run.step σ (.calm σ) _ _ _ _ _ before last⟩

/-- The load is looked at next, and the start of its module panics. -/
def StartPanics (s : Session σ) (p : Panic) : Prop :=
  s.agenda = [] ∧ ∃ x progress deadline, s.job = .loading x progress deadline false ∧
    (progress.poll s.now (s.releases.contains x.serial)).1 = .inr (.panic p)

/-- The last call of the journal is at its end, and the recovery after it panics. -/
def RecoveryPanics (settings : BridgeSettings) (j : Journal σ) (s : Session σ) (p : Panic) : Prop :=
  ∃ since before a command, s.job = .calling since (a.execute settings.contextId command) ∧
    j = before ++ [.called settings.contextId a command] ∧
    since + (a.execute settings.contextId command).millis ≤ s.now ∧
    a.recovery? settings.contextId command = some (.panic p)

private theorem perform_crash {e : Effect (Adapter σ)} {rest : List (Effect (Adapter σ))}
    (h : s.perform e rest = some t) : t.crash = s.crash := by
  cases e with
  | publish => obtain rfl := Option.some.inj h; rfl
  | post m =>
    simp only [perform] at h
    grind [stop]
  | load name =>
    obtain rfl := Option.some.inj h
    simp only [beginLoad]
    split <;> rfl
  | call => obtain rfl := Option.some.inj h; rfl

omit [Interpreter σ] in
private theorem takeMessage_crash (h : s.takeMessage = some t) : t.crash = s.crash := by
  obtain ⟨x, -, rfl⟩ := Option.map_eq_some_iff.1 h
  rfl

omit [Interpreter σ] in
private theorem finishLoad_crash (hc : s.crash = none) (m : Module σ) (load exec : Nat)
    (v : Verdict) : (s.finishLoad (m.conclude load exec v)).crash = v.panic? := by
  cases v <;> simp [Module.conclude, finishLoad, feed, crashed, Verdict.panic?, hc]

omit [Interpreter σ] in
private theorem look_crash (hc : s.crash = none) (x : Registration σ) (progress : Progress)
    (deadline : Nat) : (s.look x progress deadline).crash = some p ↔
      (progress.poll s.now (s.releases.contains x.serial)).1 = .inr (.panic p) := by
  unfold look
  rcases progress.poll s.now (s.releases.contains x.serial) with ⟨result, released⟩
  dsimp only
  generalize hs' : (if released then s else { s with releases := s.releases.erase x.serial }) = s'
  have hc' : s'.crash = none := by
    rw [← hs']
    split <;> exact hc
  cases result with
  | inr v =>
    simp only [finishLoad_crash hc']
    cases v <;> simp [Verdict.panic?]
  | inl rest =>
    dsimp only
    split
    · simp [finishLoad_crash hc', Verdict.panic?]
    · simp [hc']

omit [Interpreter σ] in
private theorem finishCall_crash (hc : s.crash = none) (x : Execution σ) :
    (s.finishCall x).crash = some p ↔ x.answer = .crashed p := by
  unfold finishCall
  cases x.answer <;> simp [feed, crashed, hc]

omit [Interpreter σ] in
private theorem startPanics_iff {x : Registration σ} {progress : Progress} {deadline : Nat}
    (ha : s.agenda = []) (hj : s.job = .loading x progress deadline false) :
    s.StartPanics p ↔
      (progress.poll s.now (s.releases.contains x.serial)).1 = .inr (.panic p) := by
  constructor
  · rintro ⟨-, x', progress', deadline', hj', hpoll⟩
    obtain ⟨rfl, rfl, -⟩ : x = x' ∧ progress = progress' ∧ deadline = deadline' := by
      simpa [hj] using hj'
    exact hpoll
  · intro hpoll
    exact ⟨ha, x, progress, deadline, hj, hpoll⟩

private theorem recoveryPanics_iff {since : Nat} {before : Journal σ} {a : Adapter σ}
    {command : String} (hj : s.job = .calling since (a.execute settings.contextId command))
    (hjournal : j = before ++ [.called settings.contextId a command])
    (hdue : since + (a.execute settings.contextId command).millis ≤ s.now) :
    s.RecoveryPanics settings j p ↔ a.recovery? settings.contextId command = some (.panic p) := by
  constructor
  · rintro ⟨since', before', a', command', -, hjournal', -, hpanic⟩
    rw [hjournal] at hjournal'
    obtain ⟨-, hcall⟩ := List.append_inj' hjournal' rfl
    obtain ⟨rfl, rfl⟩ : a = a' ∧ command = command' := by simpa using hcall
    exact hpanic
  · intro hpanic
    exact ⟨since, before, a, command, hj, hjournal, hdue, hpanic⟩

theorem Faithful.crash_iff (h : Faithful settings j s) (hc : s.crash = none)
    (ht : s.advance = some t) :
    t.crash = some p ↔ s.StartPanics p ∨ s.RecoveryPanics settings j p := by
  have hengaged := h.engaged
  have quiet (heq : t.crash = s.crash) (hstart : ¬ s.StartPanics p)
      (hrecovery : ¬ s.RecoveryPanics settings j p) :
      t.crash = some p ↔ s.StartPanics p ∨ s.RecoveryPanics settings j p := by
    simp [heq, hc, hstart, hrecovery]
  obtain ⟨-, hmove⟩ := advance_move ht
  cases hmove with
  | perform ha hperform =>
    -- Something is left to be done, so that no load is looked at and no call is under way.
    refine quiet (perform_crash hperform) (by simp [StartPanics, ha]) ?_
    rintro ⟨since, before, a, command, hj, -⟩
    rw [hj] at hengaged
    simp [hengaged.agenda_of_calling] at ha
  | exhaust ha hj =>
    exact quiet rfl (by simp [StartPanics, hj]) (by simp [RecoveryPanics, hj])
  | take ha hj hi htake =>
    exact quiet (takeMessage_crash htake) (by simp [StartPanics, hj]) (by simp [RecoveryPanics, hj])
  | look ha hj =>
    have hrecovery : ¬ s.RecoveryPanics settings j p := by simp [RecoveryPanics, hj]
    rw [look_crash hc, startPanics_iff ha hj]
    exact (or_iff_left hrecovery).symm
  | interrupt ha hj htake =>
    have heq : t.crash = s.crash := by simpa [wake, hj] using takeMessage_crash htake
    exact quiet heq (by simp [StartPanics, hj]) (by simp [RecoveryPanics, hj])
  | finish ha hj hdue =>
    have hstart : ¬ s.StartPanics p := by simp [StartPanics, hj]
    rw [hj] at hengaged
    obtain ⟨name, a, command, before, -, hjournal, rfl⟩ := hengaged.of_calling
    rw [finishCall_crash hc, Adapter.execute_crashed_iff, recoveryPanics_iff hj hjournal hdue]
    exact (or_iff_right hstart).symm

theorem Step.silent (next : Step s k t) (hs : s.stopped = true) : k = [] ∧ t.stopped = true := by
  cases next with
  | send | collect | close | disconnect | elapse | linger => exact ⟨rfl, hs⟩
  | take hl => simp [listens, hs] at hl
  | publish h | post h | lose h | request h | refuse h | call h | load h | answer h | exhaust h
  | crashLoad h | crashCall h => simp [hs] at h

/-- A bridge that has ended does nothing any more. -/
theorem Run.silent (run : Run s k t) (hs : s.stopped = true) : k = [] ∧ t.stopped = true := by
  induction run with
  | start => exact ⟨rfl, hs⟩
  | step run next ih =>
    obtain ⟨rfl, ht⟩ := ih
    obtain ⟨rfl, hu⟩ := next.silent ht
    exact ⟨rfl, hu⟩

end Session

/-- A load has begun and has no end, and the host has been told neither that the bridge is ready nor
that the load has failed. -/
structure Journal.Unfinished (j : Journal σ) : Prop where
  published_eq : published j = [⟨.uninitialized, .loading⟩]
  no_result : loadResult j = none
  not_ready : .notice .ready ∉ posted j
  not_failed : ∀ detail, .notice (.error .load detail) ∉ posted j

variable {settings : BridgeSettings} {j : Journal σ} {s : Session σ}

theorem Conduct.unfinished {name : String} {pending : List String}
    (h : Conduct settings j (.loading name) pending) : j.Unfinished := by
  obtain ⟨hpublished, -, hready⟩ := h.passed
  refine ⟨hpublished, h.tells.2, List.count_eq_zero.1 hready, ?_⟩
  intro detail hm
  obtain ⟨past, future, hj⟩ := List.append_of_mem (mem_posted.1 hm)
  have horderly := h.orderly
  rw [hj] at horderly
  obtain ⟨e, he⟩ : ∃ e, outcome settings past = some (.error e) := horderly.at
  have hnone := h.outcome_waiting trivial
  rw [hj, outcome_append he] at hnone
  cases hnone

/-- Between two calls the engine has answered every command that was accepted. -/
theorem Conduct.after?_accepted {phase : Phase (Adapter σ)} {pending : List String}
    {first : Adapter σ} (h : Conduct settings j phase pending) (hp : phase.Taking)
    (hl : loadResult j = some (.ok first)) :
    ∃ b, first.after? settings.contextId (accepted settings j) = some b := by
  obtain ⟨name, b, rfl⟩ | ⟨name, rfl⟩ := h.loaded_cases hl
  · obtain ⟨first', hfirst, -, hafter, -⟩ := h.serves
    obtain rfl : first' = first := by simpa [hl] using hfirst.symm
    exact ⟨b, hafter⟩
  · exact hp.elim

theorem Adapter.transcript_abandoned {context : Nat} {command : String} {a b : Adapter σ}
    {rest : List String} {v : Verdict} (hr : a.recovery? context command = some v)
    (hb : a.after? context (command :: rest) = some b) :
    a.transcript context (command :: rest) =
        a.failure context command (a.ownError context command) ++
          (a.execute context command).after.transcript context rest ∧
      (a.execute context command).after.unusable = v.blame? := by
  obtain ⟨result, hx, -⟩ := after?_cons.1 hb
  have hv : v.panic? = none := by
    cases v with
    | panic p =>
      rw [execute_crashed_iff.2 hr] at hx
      cases hx
    | _ => rfl
  obtain ⟨hanswer, hunusable⟩ := execute_abandoned hr hv
  exact ⟨transcript_cons_error rest hanswer, hunusable⟩

/-- What a panic can do to a bridge that has come this far. -/
structure Session.Contained (registry : Registry σ) (settings : BridgeSettings) (j : Journal σ)
    (s : Session σ) : Prop where
  /-- Nothing but the start of a module or a recovery ends a bridge by its panic. -/
  ends_iff : s.crash = none → ∀ t p, s.advance = some t →
    (t.crash = some p ↔ s.StartPanics p ∨ s.RecoveryPanics settings j p)
  /-- Where panics of calls are restored, all is as if those calls had failed with a fault. -/
  as_fault : j.Restored →
    ∃ job, s.job.Agrees job ∧ (Session.create registry settings).CalmRun j { s with job }
  /-- A call that panics or is late is told once, as its own error. A recovery that fails or is late
  makes the adapter unusable: it answers each further command with a refusal. -/
  told : s.Resting → ∀ first done command rest a v, loadResult j = some (.ok first) →
    accepted settings j = done ++ command :: rest →
    first.after? settings.contextId done = some a →
    a.recovery? settings.contextId command = some v →
    let after := (a.execute settings.contextId command).after
    ofEngine j = .posted (.notice .ready) :: first.transcript settings.contextId done ++
      a.failure settings.contextId command (a.ownError settings.contextId command) ++
        after.transcript settings.contextId rest ∧
    after.unusable = v.blame? ∧
    ∀ reason, v.blame? = some reason → after.transcript settings.contextId rest =
      rest.flatMap fun text => after.failure settings.contextId text (Adapter.refusal reason)
  /-- After a panic that is not contained there is neither an end of the load nor an answer to the
  call, and nothing is ever told again. -/
  not_told : ∀ p, s.crash = some p → s.stopped = true ∧
    (j.Unfinished ∨ ∃ before a command, j = before ++ [.called settings.contextId a command] ∧
      a.recovery? settings.contextId command = some (.panic p)) ∧
    ∀ k t, s.Run k t → k = []

/-- Panics are contained so far, whatever the modules do and whenever they do it: a panic ends the
bridge only out of a start or a recovery. -/
theorem contained_of_run {registry : Registry σ}
    (run : Session.Run (.create registry settings) j s) : s.Contained registry settings j := by
  have hfaithful := run.faithful
  refine ⟨fun hc t p ht => hfaithful.crash_iff hc ht, run.calm, ?_, ?_⟩
  · intro hresting first done command rest a v hl haccepted hafter hr
    have hconduct := hfaithful.conduct_rest (hfaithful.agenda_resting hresting)
    have htaking := hfaithful.taking_resting hresting
    obtain ⟨b, hb⟩ := hconduct.after?_accepted htaking hl
    rw [haccepted, Adapter.after?_append hafter] at hb
    obtain ⟨htranscript, hunusable⟩ := Adapter.transcript_abandoned hr hb
    refine ⟨?_, hunusable, fun reason hv => Adapter.transcript_unusable (hunusable.trans hv) rest⟩
    -- A bridge at rest has gone through the whole transcript, the abandoned call in its midst.
    have hengine := ((hconduct.transcript hl).2 htaking).2.1
    rw [hengine, haccepted, Adapter.transcript_append hafter, htranscript]
    simp only [List.cons_append, List.append_assoc]
  · intro p hc
    obtain ⟨hs, hcases⟩ := run.crash_cases hc
    refine ⟨hs, ?_, fun k t next => (next.silent hs).1⟩
    obtain ⟨name, hconduct⟩ | ⟨name, before, a, command, -, hjournal, hx⟩ := hcases
    · exact .inl hconduct.unfinished
    · exact .inr ⟨before, a, command, hjournal, Adapter.execute_crashed_iff.1 hx⟩

namespace Rehearsal

/-- One of its commands panics; its recovery succeeds. -/
def shaky : Scripted := .ofReplies [("boom", .panic "boom"), ("1 .", .output "1 ")] false

def shakyAdapter : Adapter Scripted := { module := "forth", engine := shaky, execTimeout := 5000 }

def panicked : EngineError := .fault "interpreter panicked: boom"

def contained : Journal Scripted :=
  [.took (.control (.start none)), .published ⟨.uninitialized, .loading⟩, .requested "forth",
    .loaded (.ok shakyAdapter), .published ⟨.loading, .ready⟩, .posted (.notice .ready),
    .took (.command "boom"), .called 0 shakyAdapter "boom", .answered (.error panicked),
    .posted (BridgeError.engine panicked).notice,
    .took (.command "1 ."), .called 0 (shakyAdapter.execute 0 "boom").after "1 .",
    .answered (.ok "1 "), .posted (.response "1 ")]

theorem run_contained : ∃ s, Session.Run
    (.create (Registry.empty.register ⟨"forth", "", .nothing, shaky⟩) Rehearsal.settings)
    contained s ∧ s.listens = true := by
  have run := Session.Run.start (s := .create
    (Registry.empty.register ⟨"forth", "", .nothing, shaky⟩) Rehearsal.settings)
  have run := run.step (.send (m := .control (.start none)) rfl rfl rfl)
  have run := run.step (.take rfl rfl)
  have run := run.step (.publish rfl rfl)
  have run := run.step (.request rfl rfl rfl)
  have run := run.step (k := [.loaded (.ok shakyAdapter)]) (.load rfl rfl rfl)
  have run := run.step (.publish rfl rfl)
  have run := run.step (.post rfl rfl rfl rfl)
  have run := run.step (.send (m := .command "boom") rfl rfl rfl)
  have run := run.step (.take rfl rfl)
  have run := run.step (.call rfl rfl)
  have run := run.step (k := [.answered (.error panicked)]) (.answer rfl rfl rfl rfl)
  have run := run.step (.post rfl rfl rfl rfl)
  have run := run.step (.send (m := .command "1 .") rfl rfl rfl)
  have run := run.step (.take rfl rfl)
  have run := run.step (.call rfl rfl)
  have run := run.step (k := [.answered (.ok "1 ")]) (.answer rfl rfl rfl rfl)
  have run := run.step (.post rfl rfl rfl rfl)
  exact ⟨_, run, rfl⟩

theorem restored_contained : contained.Restored := by
  intro context a command h p hp
  obtain ⟨rfl, rfl, rfl⟩ | ⟨rfl, rfl, rfl⟩ : (context = 0 ∧ a = shakyAdapter ∧ command = "boom") ∨
      context = 0 ∧ a = (shakyAdapter.execute 0 "boom").after ∧ command = "1 ." := by
    simpa [contained] using h
  · rfl
  · cases hp

end Rehearsal

/-- A call panics, the next one is answered, and both would be the same without the panic. -/
theorem contained_rehearsal : Rehearsal.shakyAdapter.panic? 0 "boom" = some (.text "boom") ∧
    ∃ (s : Session Scripted) (job : Job Scripted),
      s.Contained (Registry.empty.register ⟨"forth", "", .nothing, Rehearsal.shaky⟩)
        Rehearsal.settings Rehearsal.contained ∧
      (Session.create (Registry.empty.register ⟨"forth", "", .nothing, Rehearsal.shaky⟩)
        Rehearsal.settings).CalmRun Rehearsal.contained { s with job } := by
  obtain ⟨s, run, -⟩ := Rehearsal.run_contained
  have hcontained := contained_of_run run
  obtain ⟨job, -, calm⟩ := hcontained.as_fault Rehearsal.restored_contained
  exact ⟨rfl, s, job, hcontained, calm⟩

/-- The host asks for this module and then sends each of these commands, once the bridge waits. -/
def Rehearsal.visit (m : Module Scripted) (commands : List String) : Host Scripted :=
  let host : Host Scripted := .create (Registry.empty.register m) {}
  let asked := (host.send (.control (.start (some m.name)))).1.settle
  commands.foldl (fun h text => (h.send (.command text)).1.settle) asked

/-- A panic while a module starts ends the bridge, and so does one in a recovery: the load has no
error and the command no answer, and no further message is taken. -/
theorem panic_unanswered :
    let starting := Rehearsal.visit ⟨"m", "", ⟨[], .panic (.text "boom")⟩, Rehearsal.shaky⟩ []
    let recovering := Rehearsal.visit
      ⟨"m", "", .nothing, { Rehearsal.shaky with recovery := some ⟨[], .panic (.text "bang")⟩ }⟩
      ["boom"]
    (starting.received = [] ∧ starting.session.crash = some (.text "boom") ∧
      (starting.send (.control .status)).2 = .refused .disconnected) ∧
    recovering.received = [.notice .ready] ∧ recovering.session.crash = some (.text "bang") ∧
      (recovering.send (.control .status)).2 = .refused .disconnected := by
  exact ⟨⟨rfl, rfl, rfl⟩, rfl, rfl, rfl⟩

end EngineBridge
