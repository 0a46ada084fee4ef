import EngineBridge.Proofs.Pacing

/-!
# What is heard of a call

Each call finds an empty buffer and leaves an empty one. A call that succeeds is answered with what
it has printed itself. What a call has printed that fails or is abandoned is never heard: it could
as well have printed anything else.
-/

namespace EngineBridge

def Act.fragment? : Act → Option String
  | .emit s => some s
  | _ => none

namespace Script

/-- The fragments that are printed, in their order. -/
def fragments (acts : List Act) : List String := acts.filterMap Act.fragment?

@[simp] theorem fragments_append (a b : List Act) :
    fragments (a ++ b) = fragments a ++ fragments b :=
  List.filterMap_append

theorem printed_eq_join (acts : List Act) : printed acts = String.join (fragments acts) := by
  induction acts with
  | nil => rfl
  | cons act acts ih =>
    cases act with
    | emit s => simp [fragments, Act.fragment?, Act.text, String.join_cons, ih]
    | _ => simpa [fragments, List.filterMap_cons, Act.fragment?, Act.text] using ih

/-- What comes through under a deadline is what the acts have printed that were done. -/
theorem follow_output (limit now : Nat) (e : Ending) (acts : List Act) :
    (follow limit e now acts).output =
      String.join (fragments (acts.take (follow limit e now acts).done)) := by
  rw [← printed_eq_join]
  fun_induction follow limit e now acts with
  | case3 now s rest ih => simp [Finish.behind, Act.text, ih]
  | case4 now rest ih => simp [Finish.behind, Act.text, ih]
  | case5 now ms rest hms hle ih => simp [Finish.behind, Act.text, ih]
  | case7 now rest hlt ih => simp [Finish.behind, Act.text, ih]
  | _ => rfl

end Script

variable {σ : Type} [Interpreter σ]

namespace Adapter

omit [Interpreter σ] in
/-- An adapter that has not been called yet. -/
def fresh (module : String) (engine : σ) (execTimeout : Nat) : Adapter σ :=
  { module, engine, execTimeout }

/-- The courses of these calls, each with its context. -/
def executions : Adapter σ → List (Nat × String) → List (Execution σ)
  | _, [] => []
  | a, (context, command) :: rest =>
    let x := a.execute context command
    x :: x.after.executions rest

/-- The adapter after these calls. -/
def through : Adapter σ → List (Nat × String) → Adapter σ
  | a, [] => a
  | a, (context, command) :: rest => (a.execute context command).after.through rest

variable {a : Adapter σ} {context : Nat} {command : String}

theorem through_append (a : Adapter σ) (before after : List (Nat × String)) :
    a.through (before ++ after) = (a.through before).through after := by
  induction before generalizing a with
  | nil => rfl
  | cons call before ih => exact ih _

/-- What every call keeps, all of them together keep. -/
theorem through_keeps {P : Adapter σ → Prop}
    (hkeep : ∀ a context command, P a → P (a.execute context command).after) (ha : P a)
    (calls : List (Nat × String)) : P (a.through calls) := by
  induction calls generalizing a with
  | nil => exact ha
  | cons call calls ih => exact ih (hkeep a call.1 call.2 ha)

theorem through_frame (module : String) (engine : σ) (limit : Nat) (calls : List (Nat × String)) :
    ((fresh module engine limit).through calls).output = .empty ∧
      ((fresh module engine limit).through calls).execTimeout = limit := by
  refine through_keeps (P := fun a => a.output = .empty ∧ a.execTimeout = limit) ?_ ⟨rfl, rfl⟩ calls
  rintro a context command ⟨ho, hlimit⟩
  obtain ⟨houtput, hafter⟩ := execute_frame ho context command
  exact ⟨houtput, hafter.trans hlimit⟩

theorem abandon_answer_ne_ok (a : Adapter σ) (millis : Nat) (e : EngineError) (text : String) :
    (a.abandon millis e).answer ≠ .ok text := by
  unfold abandon
  dsimp only
  split <;> nofun

/-- The fragments that the interpreter has printed when a call ends or is abandoned. -/
def emitted (a : Adapter σ) (context : Nat) (command : String) : List String :=
  match a.unusable with
  | some _ => []
  | none =>
    let script := (Interpreter.execute a.engine context command).script
    Script.fragments (script.acts.take (script.within a.execTimeout).done)

/-- The interpreter is called and comes to a good end in time. -/
def Succeeds (a : Adapter σ) (context : Nat) (command : String) : Prop :=
  a.unusable = none ∧
    ((Interpreter.execute a.engine context command).script.within a.execTimeout).verdict = .done

/-- A call is answered with an output if and only if it succeeds, and then with all that has been
printed during this call. -/
theorem execute_ok_iff (ho : a.output = .empty) {text : String} :
    (a.execute context command).answer = .ok text ↔
      a.Succeeds context command ∧ text = String.join (a.emitted context command) := by
  cases hu : a.unusable with
  | some reason => simp [execute, finish, Succeeds, hu]
  | none =>
    let call := Interpreter.execute a.engine context command
    have houtput : (call.script.within a.execTimeout).output =
        String.join (a.emitted context command) := by
      simp only [emitted, hu]
      exact Script.follow_output a.execTimeout 0 call.script.ending call.script.acts
    cases hv :
        ((Interpreter.execute a.engine context command).script.within a.execTimeout).verdict with
    | done =>
      have hanswer : (a.execute context command).answer =
          .ok ("" ++ (call.script.within a.execTimeout).output) := by
        simp only [execute, hu, hv, ho]
        rfl
      rw [hanswer, houtput, String.empty_append]
      simp [Succeeds, hu, hv, eq_comm]
    | fault e => simp [execute, finish, Succeeds, hu, hv]
    | panic p => simp [execute, Succeeds, hu, hv, abandon_answer_ne_ok]
    | late => simp [execute, Succeeds, hu, hv, abandon_answer_ne_ok]

end Adapter

/-- The same act, but with something else printed. -/
def Act.garble (noise : String → String) : Act → Act
  | .emit s => .emit (noise s)
  | act => act

/-- What is printed plays no part in how work goes on and ends. -/
theorem Script.follow_garble (noise : String → String) (limit now : Nat) (e : Ending)
    (acts : List Act) :
    ∃ output, follow limit e now (acts.map (Act.garble noise)) =
      { follow limit e now acts with output } := by
  fun_induction follow limit e now acts with
  | case1 now hang =>
    subst hang
    exact ⟨"", rfl⟩
  | case2 now hends =>
    cases e with
    | hang => exact absurd rfl hends
    | _ => exact ⟨"", rfl⟩
  | case3 now s rest ih =>
    obtain ⟨output, h⟩ := ih
    exact ⟨_, by simp only [List.map_cons, Act.garble, follow, h]; rfl⟩
  | case4 now rest ih =>
    obtain ⟨output, h⟩ := ih
    exact ⟨_, by simp only [List.map_cons, Act.garble, follow, h, if_true]; rfl⟩
  | case5 now ms rest hms hle ih =>
    obtain ⟨output, h⟩ := ih
    exact ⟨_, by simp only [List.map_cons, Act.garble, follow, h, hms, hle, if_true, if_false]; rfl⟩
  | case7 now rest hlt ih =>
    obtain ⟨output, h⟩ := ih
    exact ⟨_, by simp only [List.map_cons, Act.garble, follow, h, hlt, if_true]; rfl⟩
  | case6 now ms rest hms hle =>
    exact ⟨"", by simp only [List.map_cons, Act.garble, follow, hms, hle, if_false]⟩
  | case8 now rest hlt =>
    exact ⟨"", by simp only [List.map_cons, Act.garble, follow, hlt, if_false]⟩
  | case9 now rest => exact ⟨"", rfl⟩

/-- The same interpreter, but that each call which does not succeed within `limit` prints something
else, which may hang on the state it is in. -/
@[reducible]
def Interpreter.garbled (noise : σ → String → String) (limit : Nat) : Interpreter σ where
  execute engine context command :=
    let call := Interpreter.execute engine context command
    if (call.script.within limit).verdict = .done then call
    else
      { call with script := ⟨call.script.acts.map (Act.garble (noise engine)), call.script.ending⟩ }
  recover := Interpreter.recover
  version := Interpreter.version

section Garbled

variable {noise : σ → String → String} {limit : Nat} {engine : σ} {context : Nat}
  {command : String}

theorem Interpreter.garbled_execute_of_done
    (h : ((Interpreter.execute engine context command).script.within limit).verdict = .done) :
    (Interpreter.garbled noise limit).execute engine context command =
      Interpreter.execute engine context command := by
  unfold garbled
  simp only [h, if_true]

theorem Interpreter.garbled_execute_of_ne
    (h : ((Interpreter.execute engine context command).script.within limit).verdict ≠ .done) :
    let call := Interpreter.execute engine context command
    (Interpreter.garbled noise limit).execute engine context command = { call with
      script := ⟨call.script.acts.map (Act.garble (noise engine)), call.script.ending⟩ } := by
  unfold garbled
  simp only [h, if_false]

end Garbled

namespace Adapter

/-- A call to the interpreter that prints something else unless it succeeds. -/
def executeGarbled (noise : σ → String → String) (a : Adapter σ) (context : Nat)
    (command : String) : Execution σ :=
  @execute σ (.garbled noise a.execTimeout) a context command

theorem executeGarbled_eq (noise : σ → String → String) (a : Adapter σ) (context : Nat)
    (command : String) : a.executeGarbled noise context command = a.execute context command := by
  cases hu : a.unusable with
  | some reason => simp [executeGarbled, execute, hu]
  | none =>
    obtain ⟨output, hgarble⟩ := Script.follow_garble (noise a.engine) a.execTimeout 0
      (Interpreter.execute a.engine context command).script.ending
      (Interpreter.execute a.engine context command).script.acts
    rw [← Script.within] at hgarble
    cases hv :
        ((Interpreter.execute a.engine context command).script.within a.execTimeout).verdict with
    | done =>
      have hcall : (Interpreter.garbled noise a.execTimeout).execute a.engine context command =
          Interpreter.execute a.engine context command :=
        Interpreter.garbled_execute_of_done hv
      simp only [executeGarbled, execute, hu, hcall]
      rfl
    | _ =>
      have hcall : (Interpreter.garbled noise a.execTimeout).execute a.engine context command = _ :=
        Interpreter.garbled_execute_of_ne (by simp [hv])
      simp only [executeGarbled, execute, hu, hcall, Script.within] at hv hgarble ⊢
      simp only [hgarble, hv]
      rfl

/-- The courses of these calls, if what does not succeed within `limit` prints something else. -/
def executionsGarbled (noise : σ → String → String) (limit : Nat) (a : Adapter σ)
    (calls : List (Nat × String)) : List (Execution σ) :=
  @executions σ (.garbled noise limit) a calls

theorem executionsGarbled_eq (noise : σ → String → String) (a : Adapter σ)
    (calls : List (Nat × String)) :
    a.executionsGarbled noise a.execTimeout calls = a.executions calls := by
  generalize hlimit : a.execTimeout = limit
  induction calls generalizing a with
  | nil => rfl
  | cons call calls ih =>
    obtain ⟨context, command⟩ := call
    have hcall : @execute σ (.garbled noise limit) a context command =
        a.execute context command := hlimit ▸ a.executeGarbled_eq noise context command
    have hafter : (a.execute context command).after.execTimeout = limit :=
      (execute_limit a context command).1.trans hlimit
    change @execute σ (.garbled noise limit) a context command ::
      executionsGarbled noise limit (@execute σ (.garbled noise limit) a context command).after
        calls = _
    rw [hcall, ih _ hafter]
    rfl

/-- How a call is kept apart from the calls `past`, all made to `first` one after the other. -/
structure Isolated (first : Adapter σ) (past : List (Nat × String)) (context : Nat)
    (command : String) : Prop where
  found_empty : (first.through past).output.isEmpty = true
  left_empty : ((first.through past).execute context command).after.output.isEmpty = true
  /-- A call is answered with an output if and only if it succeeds, and then with the fragments that
  have been printed during this very call. -/
  own_output : ∀ text, ((first.through past).execute context command).answer = .ok text ↔
    (first.through past).Succeeds context command ∧
      text = String.join ((first.through past).emitted context command)
  /-- Calls that fail or are abandoned could have printed anything else. -/
  not_heard : ∀ noise : σ → String → String,
    first.executionsGarbled noise first.execTimeout (past ++ [(context, command)]) =
      first.executions (past ++ [(context, command)])

/-- Whatever becomes of the calls before, each is answered with its own output alone. -/
theorem isolated_of_calls (module : String) (engine : σ) (limit : Nat) (past : List (Nat × String))
    (context : Nat) (command : String) :
    (fresh module engine limit).Isolated past context command := by
  obtain ⟨houtput, -⟩ := through_frame module engine limit past
  obtain ⟨hafter, -⟩ := execute_frame houtput context command
  constructor
  · rw [houtput]
    rfl
  · rw [hafter]
    rfl
  · exact fun text => execute_ok_iff houtput
  · exact fun noise => executionsGarbled_eq noise _ _

end Adapter

namespace Rehearsal

/-- It prints something before it hangs, and answers the next command. -/
def halting : Scripted :=
  { replies := [("loop", ⟨[.emit "1 ", .yield, .emit "2 "], .hang⟩), ("3 .", ⟨[.emit "3 "], .done⟩)]
    missing := fun _ => .ofText "unknown", recovery := some .nothing, version := none }

example : ((Adapter.fresh "forth" halting 50).executions [(0, "loop"), (0, "3 .")]).map (·.answer) =
    [.error (.timeout 50), .ok "3 "] := rfl

end Rehearsal

end EngineBridge
