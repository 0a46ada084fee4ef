import Mathlib.Data.List.Induction
import EngineBridge.Process.Interpreter
import EngineBridge.Proofs.Panics

/-!
# The turn of a command

What one call does to an interpreter that is a child process: it starts a child if none runs, and
keeps it if the child answers in time.
-/

namespace EngineBridge

theorem Verdict.ofEnding_eq_done {e : Ending} : ofEnding e = .done ↔ e = .done := by
  cases e <;> simp [ofEnding]

theorem Verdict.ofEnding_eq_fault {e : Ending} {f : Fault} :
    ofEnding e = .fault f ↔ e = .fault f := by
  cases e <;> simp [ofEnding]

def Act.text : Act → String
  | .emit s => s
  | _ => ""

namespace Script

private theorem printed_eq_foldl (acts : List Act) :
    printed acts = acts.foldl (fun out act => out ++ act.text) "" := by
  unfold printed
  congr
  funext out act
  cases act <;> simp [Act.text]

private theorem foldl_text (acts : List Act) (out : String) :
    acts.foldl (fun out act => out ++ act.text) out =
      out ++ acts.foldl (fun out act => out ++ act.text) "" := by
  induction acts generalizing out with
  | nil => simp
  | cons act acts ih =>
    rw [List.foldl_cons, List.foldl_cons, ih (out ++ act.text), ih ("" ++ act.text),
      String.empty_append, String.append_assoc]

@[simp] theorem printed_nil : printed [] = "" := rfl

@[simp] theorem printed_cons (act : Act) (acts : List Act) :
    printed (act :: acts) = act.text ++ printed acts := by
  rw [printed_eq_foldl, printed_eq_foldl, List.foldl_cons, foldl_text, String.empty_append]

@[simp] theorem printed_append (a b : List Act) : printed (a ++ b) = printed a ++ printed b := by
  induction a with
  | nil => simp
  | cons act a ih => rw [List.cons_append, printed_cons, printed_cons, ih, String.append_assoc]

/-- What is not late has been done to its end, and all of it is heard. -/
theorem follow_through {limit now : Nat} {e : Ending} {acts : List Act}
    (h : (follow limit e now acts).verdict ≠ .late) :
    (follow limit e now acts).done = acts.length ∧
    (follow limit e now acts).output = printed acts ∧
    (follow limit e now acts).verdict = .ofEnding e := by
  fun_induction follow limit e now acts with
  | case1 => exact absurd rfl h
  | case2 => exact ⟨rfl, rfl, rfl⟩
  | case3 now s rest ih =>
    obtain ⟨hd, ho, hv⟩ := ih h
    exact ⟨by simp [Finish.behind, hd], by simp [Finish.behind, ho, Act.text], hv⟩
  | case4 now rest ih =>
    obtain ⟨hd, ho, hv⟩ := ih h
    exact ⟨by simp [Finish.behind, hd], by simp [Finish.behind, ho, Act.text], hv⟩
  | case5 now ms rest hms hle ih =>
    obtain ⟨hd, ho, hv⟩ := ih h
    exact ⟨by simp [Finish.behind, hd], by simp [Finish.behind, ho, Act.text], hv⟩
  | case6 => exact absurd rfl h
  | case7 now rest hlt ih =>
    obtain ⟨hd, ho, hv⟩ := ih h
    exact ⟨by simp [Finish.behind, hd], by simp [Finish.behind, ho, Act.text], hv⟩
  | case8 => exact absurd rfl h
  | case9 => exact absurd rfl h

theorem ending_of_within {s : Script} {limit : Nat} (h : (s.within limit).verdict = .done) :
    s.ending = .done := by
  obtain ⟨-, -, hverdict⟩ := follow_through (e := s.ending) (by rw [← within, h]; simp)
  exact Verdict.ofEnding_eq_done.1 (hverdict.symm.trans h)

theorem follow_emits (limit now : Nat) (texts : List String) :
    (follow limit .done now (texts.map .emit)).verdict = .done := by
  induction texts with
  | nil => rfl
  | cons text texts ih => exact ih

/-- The second part of a work has no turn if the first is late. -/
theorem follow_append_late {limit now : Nat} {e : Ending} {a : List Act} (b : List Act)
    (h : (follow limit .done now a).verdict = .late) :
    follow limit e now (a ++ b) = follow limit .done now a ∧
      (follow limit .done now a).done < a.length := by
  induction a generalizing now with
  | nil => cases h
  | cons act a ih =>
    have further {now' : Nat} {s : String}
        (h' : ((follow limit .done now' a).behind s).verdict = .late) :
        (follow limit e now' (a ++ b)).behind s = (follow limit .done now' a).behind s ∧
          ((follow limit .done now' a).behind s).done < a.length + 1 := by
      obtain ⟨heq, hlt⟩ := ih h'
      rw [heq]
      exact ⟨rfl, Nat.succ_lt_succ hlt⟩
    cases act with
    | emit s => exact further h
    | sleep ms =>
      simp only [List.cons_append, follow] at h ⊢
      split_ifs at h ⊢
      · exact further h
      · exact further h
      · exact ⟨rfl, Nat.succ_pos _⟩
    | yield =>
      simp only [List.cons_append, follow] at h ⊢
      split_ifs at h ⊢
      · exact further h
      · exact ⟨rfl, Nat.succ_pos _⟩
    | gate => exact ⟨rfl, Nat.succ_pos _⟩

/-- Otherwise it goes on when the first has ended. -/
theorem follow_append_done {limit now : Nat} {e : Ending} {a : List Act} (b : List Act)
    (h : (follow limit .done now a).verdict = .done) :
    let first := follow limit .done now a
    let second := follow limit e first.millis b
    follow limit e now (a ++ b) =
      ⟨a.length + second.done, first.output ++ second.output, second.millis, second.verdict⟩ := by
  induction a generalizing now with
  | nil => simp [follow]
  | cons act a ih =>
    have further {now' : Nat} {s : String}
        (h' : ((follow limit .done now' a).behind s).verdict = .done) :
        let first := (follow limit .done now' a).behind s
        let second := follow limit e first.millis b
        (follow limit e now' (a ++ b)).behind s =
          ⟨a.length + 1 + second.done, first.output ++ second.output, second.millis,
            second.verdict⟩ := by
      have heq := ih h'
      simp only [heq, Finish.behind, Nat.add_right_comm, String.append_assoc]
    cases act with
    | emit s => exact further h
    | sleep ms =>
      simp only [List.cons_append, follow] at h ⊢
      split_ifs at h ⊢
      · exact further h
      · exact further h
    | yield =>
      simp only [List.cons_append, follow] at h ⊢
      split_ifs at h ⊢
      · exact further h
    | gate => cases h

end Script

theorem Script.printed_filter {keep : Act → Bool} (h : ∀ s, keep (.emit s) = false)
    (acts : List Act) : printed (acts.filter keep) = "" := by
  induction acts with
  | nil => rfl
  | cons act acts ih =>
    cases act with
    | emit s => rw [List.filter_cons_of_neg (by simp [h]), ih]
    | _ =>
      rw [List.filter_cons]
      split
      · simpa [Act.text] using ih
      · exact ih

namespace ChildInterpreter

variable {p q : ChildInterpreter} {command : String} {r : Running}

theorem exchange_of_open {s : ModuleSettings} {text : Option String}
    (h : (r.child r.sent).standing ≠ .closed) :
    let timeline := r.child (send s r text).sent
    let result := Sync.listen s.syncCommand s.syncMarker timeline.standing
      (Sync.echoes s.syncCommand s.syncMarker) (timeline.after r.taken)
    exchange s r text = (⟨.yield :: result.acts, result.ending⟩,
      { send s r text with taken := r.taken + result.taken }) := by
  have hclosed : ¬ (text.isSome && decide ((r.child r.sent).standing = .closed)) = true := by
    simp [h]
  unfold exchange
  simp only [if_neg hclosed]
  rfl

/-- The interpreter with a child to write to: as it is, or with one that it has started. -/
def ready? (p : ChildInterpreter) : Option ChildInterpreter :=
  if p.running.isSome then some p
  else if p.start.script.ending = .done then some p.start.after
  else none

/-- What the first exchange with a child that has been started comes to. -/
def handshake (p : ChildInterpreter) (child : Child) : Script × Running :=
  exchange p.settings { serial := p.started, child } none

def greeted (p : ChildInterpreter) (child : Child) : ChildInterpreter :=
  { p with
    started := p.started + 1
    running := some (p.handshake child).2
    banner := Script.printed (p.handshake child).1.acts }

/-- A start that succeeds leaves a child that has answered its handshake; any other leaves none. -/
theorem start_cases (p : ChildInterpreter) :
    (∃ child, p.starts p.started = .ok child ∧ (p.handshake child).1.ending = .done ∧
      p.start.script.ending = .done ∧ Script.printed p.start.script.acts = "" ∧
      p.start.after = p.greeted child) ∨
    p.start.script.ending ≠ .done ∧ p.start.after = { p with started := p.started + 1 } := by
  unfold start greeted handshake
  cases hc : p.starts p.started with
  | error e => exact .inr ⟨by simp [Call.settled], rfl⟩
  | ok child =>
    dsimp only
    cases he : (exchange p.settings { serial := p.started, child } none).1.ending with
    | done =>
      refine .inl ⟨child, rfl, he, rfl, ?_, rfl⟩
      simp [Act.text, Script.printed_filter]
    | fault f => exact .inr ⟨by simp [Call.settled], rfl⟩
    | panic p => exact .inr ⟨by simp [Call.settled], rfl⟩
    | hang => exact .inr ⟨by simp [Call.settled], rfl⟩

theorem start_cut (p : ChildInterpreter) (n : Nat) :
    p.start.cut n = { p with started := p.started + 1 } := by
  unfold start
  cases p.starts p.started with
  | error e => rfl
  | ok child =>
    dsimp only
    split <;> rfl

theorem converse_of_running (hr : p.running = some r) :
    p.converse command =
      { script := (exchange p.settings r (some command)).1
        after :=
          { p with
            running := match (exchange p.settings r (some command)).1.ending with
              | .fault _ => none
              | _ => some (exchange p.settings r (some command)).2 }
        cut := fun _ => { p with running := some (send p.settings r (some command)) } } := by
  obtain ⟨name, settings, starts, kills, started, running, banner⟩ := p
  cases hr
  rfl

theorem ready?_of_running (hr : p.running = some r) : p.ready? = some p := by
  simp [ready?, hr]

theorem ready?_of_started (hr : p.running = none) (hs : p.start.script.ending = .done) :
    p.ready? = some p.start.after := by
  simp [ready?, hr, hs]

theorem execute_of_running (hr : p.running = some r) (command : String) :
    Interpreter.execute p onlyContext command = p.converse command := by
  change execute _ _ _ = _
  simp [execute, hr]

theorem execute_of_started (hr : p.running = none) (hs : p.start.script.ending = .done)
    (command : String) :
    let second := p.start.after.converse command
    Interpreter.execute p onlyContext command =
      { script := ⟨p.start.script.acts ++ second.script.acts, second.script.ending⟩
        after := second.after
        cut := fun n =>
          if n < p.start.script.acts.length then p.start.cut n
          else second.cut (n - p.start.script.acts.length) } := by
  change execute _ _ _ = _
  simp [execute, hr, hs]

theorem execute_of_failed (hr : p.running = none) (hs : p.start.script.ending ≠ .done)
    (command : String) : Interpreter.execute p onlyContext command = p.start := by
  change execute _ _ _ = _
  simp only [execute, hr]
  simp

theorem without_of_none (hr : p.running = none) : { p with running := none } = p := by
  rw [← hr]

theorem recover_eq (p : ChildInterpreter) : p.recover.2 = { p with running := none } := by
  obtain ⟨name, settings, starts, kills, started, running, banner⟩ := p
  cases running <;> rfl

end ChildInterpreter

namespace Adapter

variable {σ : Type} [Interpreter σ] {a : Adapter σ} {context : Nat} {command : String}

theorem recover_frame (a : Adapter σ) :
    a.recover.1.output = a.output ∧ a.recover.1.execTimeout = a.execTimeout := by
  unfold recover
  rcases Interpreter.recover a.engine with - | ⟨script, engine⟩
  · exact ⟨rfl, rfl⟩
  · dsimp only
    cases (script.within a.execTimeout).verdict <;> exact ⟨rfl, rfl⟩

/-- The output of a call is gone when the call is over, and the limit stays. -/
theorem execute_frame (ho : a.output = .empty) (context : Nat) (command : String) :
    (a.execute context command).after.output = .empty ∧
      (a.execute context command).after.execTimeout = a.execTimeout := by
  unfold execute
  cases a.unusable with
  | some reason => exact ⟨ho, rfl⟩
  | none =>
    dsimp only
    cases ((Interpreter.execute a.engine context command).script.within a.execTimeout).verdict with
    | done | fault e => exact ⟨rfl, rfl⟩
    | panic p | late => exact recover_frame _

end Adapter

namespace Adapter

open ChildInterpreter

variable {a : Adapter ChildInterpreter} {command : String}

theorem execute_unusable {reason : String} (hu : a.unusable = some reason) (context : Nat)
    (command : String) :
    a.execute context command = a.finish 0 (.error (refusal reason)) := by
  simp [execute, hu, refusal]

theorem execute_foreign {context : Nat} (hu : a.unusable = none) (ho : a.output = .empty)
    (hc : context ≠ onlyContext) (command : String) :
    a.execute context command =
      a.finish 0 (.error (.fault ("context " ++ context.repr ++ " is not available"))) := by
  have hcall : Interpreter.execute a.engine context command =
      .settled ⟨[], .fault (.ofText ("context " ++ context.repr ++ " is not available"))⟩
        a.engine := by
    change ChildInterpreter.execute _ _ _ = _
    rw [ChildInterpreter.execute, if_pos hc]
  have hsame : { a with output := Output.empty, unusable := none } = a := by
    rw [← ho, ← hu]
  simp only [execute, hu, hcall, Call.settled, Script.within, Script.follow, Verdict.ofEnding,
    Fault.message_ofText]
  exact congrArg (finish · 0 _) hsame

/-- A child that is abandoned is gone, however its killing goes. -/
theorem abandon_child (a : Adapter ChildInterpreter) (millis : Nat) (e : EngineError) :
    (a.abandon millis e).after.engine = { a.engine with running := none } ∧
      ∀ text, (a.abandon millis e).answer ≠ .ok text := by
  have hrecover : Interpreter.recover a.engine = some a.engine.recover := rfl
  unfold abandon recover
  simp only [hrecover]
  cases (a.engine.recover.1.within a.execTimeout).verdict <;>
    exact ⟨ChildInterpreter.recover_eq a.engine, nofun⟩

theorem abandon_childless (hr : a.engine.running = none)
    (hu : a.unusable = none) (millis : Nat) (e : EngineError) :
    (a.abandon millis e).after.unusable = none := by
  have hrecover : Interpreter.recover a.engine = some (.nothing, a.engine) := by
    change some a.engine.recover = _
    simp only [ChildInterpreter.recover, hr]
  have hnothing : (Script.nothing.within a.execTimeout).verdict = .done := rfl
  simp only [abandon, recover, hrecover, hnothing, hu]

/-- The handshake of a child that has to be started is over in time. -/
def Punctual (a : Adapter ChildInterpreter) : Prop :=
  a.engine.running = none → (a.engine.start.script.within a.execTimeout).verdict = .done

instance (a : Adapter ChildInterpreter) : Decidable a.Punctual :=
  inferInstanceAs (Decidable (_ → _))

/-- What becomes of a command, if the adapter is usable and the context is there. -/
inductive Turn (a : Adapter ChildInterpreter) (command : String) :
    Execution ChildInterpreter → Prop
  /-- No child could be started in time. -/
  | unstarted {x} (hr : a.engine.running = none) (hs : ¬ a.Punctual)
      (he : x.after.engine = { a.engine with started := a.engine.started + 1 })
      (hu : x.after.unusable = none) (hx : ∀ text, x.answer ≠ .ok text) : Turn a command x
  /-- The child failed, or was abandoned. -/
  | dropped {x q r} (hq : a.engine.ready? = some q) (hr : q.running = some r) (hs : a.Punctual)
      (he : x.after.engine = { q with running := none }) (hx : ∀ text, x.answer ≠ .ok text) :
      Turn a command x
  | answered {x q r} (hq : a.engine.ready? = some q) (hr : q.running = some r) (hs : a.Punctual)
      (hd : (exchange q.settings r (some command)).1.ending = .done)
      (he : x.after.engine =
        { q with running := some (exchange q.settings r (some command)).2 })
      (hu : x.after.unusable = none)
      (hx : x.answer = .ok
        (a.output.text ++ Script.printed (exchange q.settings r (some command)).1.acts)) :
      Turn a command x

private theorem turn_of_ready {q : ChildInterpreter} {r : Running}
    {call : Call ChildInterpreter} (hu : a.unusable = none)
    (hcall : Interpreter.execute a.engine onlyContext command = call)
    (hq : a.engine.ready? = some q) (hr : q.running = some r) (hs : a.Punctual)
    (hafter : call.after = (q.converse command).after)
    (hcut : (call.script.within a.execTimeout).verdict = .late →
      { call.cut (call.script.within a.execTimeout).done with running := none } =
        { q with running := none })
    (hthrough : (call.script.within a.execTimeout).verdict ≠ .late →
      (call.script.within a.execTimeout).verdict =
        .ofEnding (exchange q.settings r (some command)).1.ending ∧
      (call.script.within a.execTimeout).output =
        Script.printed (exchange q.settings r (some command)).1.acts) :
    a.Turn command (a.execute onlyContext command) := by
  rw [converse_of_running hr] at hafter
  cases hv : (call.script.within a.execTimeout).verdict with
  | done =>
    obtain ⟨hverdict, hprinted⟩ := hthrough (by simp [hv])
    have hending : (exchange q.settings r (some command)).1.ending = .done :=
      Verdict.ofEnding_eq_done.1 (hverdict.symm.trans hv)
    rw [hending] at hafter
    have hx : a.execute onlyContext command = finish
        { a with engine := call.after, output := .empty } (call.script.within a.execTimeout).millis
        (.ok (a.output.text ++ (call.script.within a.execTimeout).output)) := by
      simp only [execute, hu, hcall, hv]
      rfl
    rw [hx, hprinted]
    exact .answered hq hr hs hending hafter hu rfl
  | fault e =>
    obtain ⟨hverdict, -⟩ := hthrough (by simp [hv])
    have hending : (exchange q.settings r (some command)).1.ending = .fault e :=
      Verdict.ofEnding_eq_fault.1 (hverdict.symm.trans hv)
    rw [hending] at hafter
    refine .dropped hq hr hs (r := r) ?_ ?_
    · simp only [execute, hu, hcall, hv]
      exact hafter
    · simp only [execute, hu, hcall, hv]
      intro text hx
      cases hx
  | panic e =>
    simp only [execute, hu, hcall, hv]
    obtain ⟨hengine, hanswer⟩ := abandon_child
      { a with
        engine := call.after
        output := a.output.emit (call.script.within a.execTimeout).output
        unusable := none }
      (call.script.within a.execTimeout).millis (.fault e.report)
    refine .dropped hq hr hs (hengine.trans ?_) hanswer
    rw [hafter]
  | late =>
    simp only [execute, hu, hcall, hv]
    obtain ⟨hengine, hanswer⟩ := abandon_child
      { a with
        engine := call.cut (call.script.within a.execTimeout).done
        output := a.output.emit (call.script.within a.execTimeout).output
        unusable := none }
      (call.script.within a.execTimeout).millis (.timeout a.execTimeout)
    exact .dropped hq hr hs (hengine.trans (hcut hv)) hanswer

private theorem turn_of_abandoned {engine : ChildInterpreter} {output : Output}
    (hr : a.engine.running = none) (hs : ¬ a.Punctual)
    (he : engine = { a.engine with started := a.engine.started + 1 }) (millis : Nat)
    (e : EngineError) :
    a.Turn command (abandon { a with engine, output, unusable := none } millis e) := by
  have hnone : engine.running = none := by
    rw [he]
    exact hr
  obtain ⟨hengine, hanswer⟩ := abandon_child { a with engine, output, unusable := none } millis e
  have husable := abandon_childless (a := { a with engine, output, unusable := none }) hnone rfl
    millis e
  exact .unstarted hr hs (hengine.trans ((without_of_none hnone).trans he)) husable hanswer

private theorem turn_of_running {r : Running} (hu : a.unusable = none)
    (hr : a.engine.running = some r) : a.Turn command (a.execute onlyContext command) := by
  have hcall := execute_of_running hr command
  refine turn_of_ready hu hcall (ready?_of_running hr) hr (by simp [Punctual, hr]) rfl ?_ ?_
  · intro _
    rw [converse_of_running hr]
  · intro h
    rw [converse_of_running hr] at h ⊢
    obtain ⟨-, houtput, hverdict⟩ := Script.follow_through h
    exact ⟨hverdict, houtput⟩

private theorem turn_of_started {r : Running} (hu : a.unusable = none)
    (hr : a.engine.running = none) (hstart : a.engine.start.script.ending = .done)
    (hsilent : Script.printed a.engine.start.script.acts = "")
    (hnext : a.engine.start.after.running = some r) :
    a.Turn command (a.execute onlyContext command) := by
  have hcall := execute_of_started hr hstart command
  have hwithin : a.engine.start.script.within a.execTimeout =
      Script.follow a.execTimeout .done 0 a.engine.start.script.acts := by
    rw [Script.within, hstart]
  by_cases hv : (a.engine.start.script.within a.execTimeout).verdict = .late
  · -- The deadline falls into the start, and what was to come after it has no turn.
    have hs : ¬ a.Punctual := fun h => absurd ((h hr).symm.trans hv) nofun
    rw [hwithin] at hv
    obtain ⟨hsame, hlt⟩ := Script.follow_append_late
      (e := (a.engine.start.after.converse command).script.ending)
      (a.engine.start.after.converse command).script.acts hv
    have hv' : ((Interpreter.execute a.engine onlyContext command).script.within
        a.execTimeout).verdict = .late := by
      rw [hcall, Script.within, hsame, hv]
    simp only [execute, hu, hv']
    refine turn_of_abandoned hr hs ?_ _ _
    simp only [hcall, Script.within, hsame, if_pos hlt]
    exact start_cut _ _
  · obtain ⟨-, hquiet, hdone⟩ := Script.follow_through hv
    have hs : a.Punctual := fun _ => hdone.trans (by rw [hstart]; rfl)
    have hfirst := hs hr
    rw [hwithin] at hfirst
    rw [hstart, hsilent] at hquiet
    refine turn_of_ready hu hcall (ready?_of_started hr hstart) hnext hs rfl ?_ ?_
    · intro _
      simp only [Script.within, Script.follow_append_done _ hfirst]
      rw [if_neg (by omega), converse_of_running hnext]
    · intro h
      simp only [Script.within, Script.follow_append_done _ hfirst,
        converse_of_running hnext] at h ⊢
      obtain ⟨-, houtput, hverdict⟩ := Script.follow_through h
      rw [hquiet, houtput, String.empty_append]
      exact ⟨hverdict, rfl⟩

private theorem turn_of_failed (hu : a.unusable = none) (hr : a.engine.running = none)
    (hstart : a.engine.start.script.ending ≠ .done)
    (hafter : a.engine.start.after = { a.engine with started := a.engine.started + 1 }) :
    a.Turn command (a.execute onlyContext command) := by
  have hcall := execute_of_failed hr hstart command
  have hs : ¬ a.Punctual := fun h => hstart (Script.ending_of_within (h hr))
  cases hv : (a.engine.start.script.within a.execTimeout).verdict with
  | done => exact absurd (fun _ => hv) hs
  | fault e =>
    refine .unstarted hr hs ?_ ?_ ?_ <;> simp only [execute, hu, hcall, hv]
    · exact hafter
    · rfl
    · intro text hx
      cases hx
  | panic e =>
    simp only [execute, hu, hcall, hv]
    exact turn_of_abandoned hr hs hafter _ _
  | late =>
    simp only [execute, hu, hcall, hv]
    exact turn_of_abandoned hr hs (start_cut _ _) _ _

theorem execute_turn (hu : a.unusable = none) (command : String) :
    a.Turn command (a.execute onlyContext command) := by
  cases hr : a.engine.running with
  | some r => exact turn_of_running hu hr
  | none =>
    rcases start_cases a.engine with ⟨child, -, -, hstart, hsilent, hafter⟩ | ⟨hstart, hafter⟩
    · exact turn_of_started hu hr hstart hsilent (congrArg ChildInterpreter.running hafter)
    · exact turn_of_failed hu hr hstart hafter

end Adapter

end EngineBridge
