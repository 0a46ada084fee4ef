import Mathlib.Data.ENat.Lattice
import EngineBridge.Proofs.Printing

/-!
# Deadlines

Work under a deadline is looked at when it begins, whenever it can go on, and when the clock reaches
the deadline. Each look goes to the work first and to the clock afterwards: what ends in the look at
the deadline is in time, and what has still to wait there is late, be it for no time at all.
-/

namespace EngineBridge

/-- When work is looked at again that waits in this way. Nobody opens a gate. -/
def Wait.resumes (limit now : Nat) : Wait → Nat
  | .nothing | .turn => now
  | .time t => min t limit
  | .release | .forever => limit

/-- `Watched limit now p t v` says that work under a deadline that is looked at at `now` is over at
the time `t`, with the verdict `v`. -/
inductive Progress.Watched (limit : Nat) : Nat → Progress → Nat → Verdict → Prop
  /-- It comes to its end in this look. -/
  | ended {now p v} (h : (p.poll now false).1 = .inr v) : Watched limit now p now v
  /-- It has still to wait, and the clock has reached the deadline. -/
  | expired {now p rest} (h : (p.poll now false).1 = .inl rest) (hlimit : limit ≤ now) :
      Watched limit now p now .late
  /-- It has still to wait, and there is time left. -/
  | again {now p rest t v} (h : (p.poll now false).1 = .inl rest) (hlimit : now < limit)
      (next : Watched limit (rest.wait.resumes limit now) rest t v) : Watched limit now p t v

namespace Progress

variable {limit now : Nat} {p : Progress}

/-- Work that is looked at is over at one time, with one verdict. -/
theorem Watched.unique {t t' : Nat} {v v' : Verdict} (h : Watched limit now p t v)
    (h' : Watched limit now p t' v') : t = t' ∧ v = v' := by
  induction h with
  | ended h =>
    cases h' with
    | ended g => exact ⟨rfl, Sum.inr.inj (h.symm.trans g)⟩
    | expired g => simp [h] at g
    | again g => simp [h] at g
  | expired h hlimit =>
    cases h' with
    | ended g => simp [h] at g
    | expired => exact ⟨rfl, rfl⟩
    | again g hlt => omega
  | again h hlimit next ih =>
    cases h' with
    | ended g => simp [h] at g
    | expired g hle => omega
    | again g hlt next' =>
      obtain rfl := Sum.inl.inj (h.symm.trans g)
      exact ih next'

/-- When the clock has reached the deadline, there is one look left. -/
theorem Watched.last {t : Nat} {v : Verdict} (h : Watched limit now p t v) (hlimit : limit ≤ now)
    (hv : v ≠ .late) : (p.poll now false).1 = .inr v := by
  cases h with
  | ended h => exact h
  | expired => exact absurd rfl hv
  | again _ hlt => omega

/-- Work that waits for something that does not come before the deadline is late at the deadline. -/
theorem Watched.of_blocked {rest : Progress} (hp : (p.poll now false).1 = .inl rest)
    (hnow : now ≤ limit) (hresumes : rest.wait.resumes limit now = limit)
    (hblocked : rest.blocked limit false = true) : Watched limit now p limit .late := by
  obtain hlt | rfl := Nat.lt_or_eq_of_le hnow
  · have hpoll : (rest.poll limit false).1 = .inl rest := by simp [poll, hblocked]
    refine .again hp hlt ?_
    rw [hresumes]
    exact .expired hpoll (Nat.le_refl _)
  · exact .expired hp (Nat.le_refl _)

/-- No work ends by being late: that is said by the clock. -/
theorem advance_ne_late (now : Nat) (e : Ending) (released : Bool) (acts : List Act) :
    (advance now e released acts).1 ≠ .inr .late := by
  fun_induction advance now e released acts with
  | case2 released hends => cases e <;> simp_all [Verdict.ofEnding]
  | case3 released text rest ih => exact ih
  | case4 released rest ih => exact ih
  | case7 rest ih => exact ih
  | _ =>
    intro h
    cases h

theorem poll_ne_late (p : Progress) (now : Nat) (released : Bool) :
    (p.poll now released).1 ≠ .inr .late := by
  unfold poll
  split
  · nofun
  · exact advance_ne_late _ _ _ _

theorem poll_of_free (hp : p.blocked now false = false) :
    p.poll now false = advance now p.rest.ending false p.rest.acts := by
  simp [poll, hp]

end Progress

namespace Script

open Progress

/-- Whoever looks at the work sees the end that is worked out in one go. -/
theorem watched_follow {limit now : Nat} {e : Ending} {acts : List Act} {p : Progress}
    (hp : p.poll now false = advance now e false acts) (hnow : now ≤ limit) :
    p.Watched limit now (follow limit e now acts).millis (follow limit e now acts).verdict := by
  fun_induction follow limit e now acts generalizing p with
  | case1 now hang =>
    subst hang
    exact .of_blocked (by rw [hp]; rfl) hnow rfl rfl
  | case2 now hends =>
    refine .ended ?_
    rw [hp]
    cases e with
    | hang => exact absurd rfl hends
    | _ => rfl
  | case3 now s rest ih => exact ih hp hnow
  | case4 now rest ih => exact ih hp hnow
  | case5 now ms rest hms hle ih =>
    have hwait : (p.poll now false).1 = .inl ⟨.time (now + ms), ⟨rest, e⟩⟩ := by
      rw [hp]
      simp only [advance, hms, if_false]
    refine .again hwait (by omega) ?_
    simp only [Wait.resumes, Nat.min_eq_left hle]
    exact ih (poll_of_free (by simp [blocked])) hle
  | case6 now ms rest hms hle =>
    have hwait : (p.poll now false).1 = .inl ⟨.time (now + ms), ⟨rest, e⟩⟩ := by
      rw [hp]
      simp only [advance, hms, if_false]
    have hlate : limit < now + ms := by omega
    exact .of_blocked hwait hnow (Nat.min_eq_right hlate.le) (by simpa [blocked] using hlate)
  | case7 now rest hlt ih =>
    have hwait : (p.poll now false).1 = .inl ⟨.turn, ⟨rest, e⟩⟩ := by rw [hp]; rfl
    exact .again hwait hlt (ih (poll_of_free rfl) hnow)
  | case8 now rest hlt =>
    have hwait : (p.poll now false).1 = .inl ⟨.turn, ⟨rest, e⟩⟩ := by rw [hp]; rfl
    obtain rfl : now = limit := by omega
    exact .expired hwait (Nat.le_refl _)
  | case9 now rest => exact .of_blocked (by rw [hp]; rfl) hnow rfl rfl

/-- Work that is looked at from its start on. -/
def Watched (s : Script) (limit t : Nat) (v : Verdict) : Prop :=
  (Progress.start s).Watched limit 0 t v

theorem watched_within (s : Script) (limit : Nat) :
    s.Watched limit (s.within limit).millis (s.within limit).verdict :=
  watched_follow (poll_of_free rfl) (Nat.zero_le limit)

theorem watched_iff {s : Script} {limit t : Nat} {v : Verdict} :
    s.Watched limit t v ↔ t = (s.within limit).millis ∧ v = (s.within limit).verdict := by
  constructor
  · intro h
    exact Progress.Watched.unique h (s.watched_within limit)
  · rintro ⟨rfl, rfl⟩
    exact s.watched_within limit

/-- How long work takes that nothing cuts off. It takes for ever at a gate, and if it hangs. -/
def span (e : Ending) : List Act → ℕ∞
  | [] => if e = .hang then ⊤ else 0
  | .sleep ms :: rest => ms + span e rest
  | .gate :: _ => ⊤
  | .emit _ :: rest | .yield :: rest => span e rest

def duration (s : Script) : ℕ∞ := span s.ending s.acts

@[simp] theorem behind_millis (s : String) (f : Finish) : (f.behind s).millis = f.millis := rfl

@[simp] theorem behind_verdict (s : String) (f : Finish) : (f.behind s).verdict = f.verdict := rfl

/-- From `now` on, others are let run first only before the deadline. -/
def YieldsBefore (limit now : Nat) (acts : List Act) : Prop :=
  ∀ before after, acts = before ++ .yield :: after → now + span .done before < limit

variable {limit now : Nat} {e : Ending} {act : Act} {acts : List Act}

theorem yieldsBefore_cons :
    YieldsBefore limit now (act :: acts) ↔ (act = .yield → now < limit) ∧
      ∀ before after, acts = before ++ .yield :: after →
        now + span .done (act :: before) < limit := by
  constructor
  · intro h
    constructor
    · rintro rfl
      simpa [span] using h [] acts rfl
    · rintro before after rfl
      exact h (act :: before) after rfl
  · rintro ⟨hact, hacts⟩ before after heq
    cases before with
    | nil =>
      obtain ⟨rfl, -⟩ := List.cons.inj heq
      simpa [span] using hact rfl
    | cons first before =>
      obtain ⟨rfl, rfl⟩ := List.cons.inj heq
      exact hacts before after rfl

theorem yieldsBefore_sleep {ms : Nat} :
    YieldsBefore limit now (.sleep ms :: acts) ↔ YieldsBefore limit (now + ms) acts := by
  rw [yieldsBefore_cons]
  simp [YieldsBefore, span, add_assoc]

theorem yieldsBefore_emit {s : String} :
    YieldsBefore limit now (.emit s :: acts) ↔ YieldsBefore limit now acts := by
  rw [yieldsBefore_cons]
  simp [YieldsBefore, span]

/-- Work is in time if it takes no longer than it may, and does not pause in the very moment of the
deadline. -/
theorem follow_in_time_iff (hnow : now ≤ limit) :
    (follow limit e now acts).verdict ≠ .late ↔
      now + span e acts ≤ limit ∧ YieldsBefore limit now acts := by
  fun_induction follow limit e now acts with
  | case1 now hang => simp [span, hang]
  | case2 now hends =>
    have hverdict : Verdict.ofEnding e ≠ .late := by
      cases e <;> simp_all [Verdict.ofEnding]
    have hspan : span e [] = 0 := if_neg hends
    simpa [hspan, YieldsBefore, hverdict] using hnow
  | case3 now s rest ih =>
    rw [yieldsBefore_emit]
    exact ih hnow
  | case4 now rest ih =>
    rw [yieldsBefore_sleep]
    simpa [span] using ih hnow
  | case5 now ms rest hms hle ih =>
    rw [yieldsBefore_sleep]
    simpa [span, add_assoc] using ih hle
  | case6 now ms rest hms hle =>
    have hlate : ¬ (now + (ms + span e rest) ≤ (limit : ℕ∞)) := by
      intro h
      have hle' : (now + ms : ℕ∞) ≤ limit := by
        rw [← add_assoc] at h
        exact le_trans le_self_add h
      exact hle (by exact_mod_cast hle')
    simp [span, hlate]
  | case7 now rest hlt ih =>
    rw [yieldsBefore_cons]
    simpa [span, hlt, YieldsBefore] using ih hnow
  | case8 now rest hlt =>
    rw [yieldsBefore_cons]
    simp [hlt]
  | case9 now rest => simp [span]

/-- Work takes its own time, but no longer than it may. -/
theorem follow_millis (hnow : now ≤ limit) :
    ((follow limit e now acts).millis : ℕ∞) = min (now + span e acts) limit := by
  have hcast : (now : ℕ∞) ≤ limit := by exact_mod_cast hnow
  fun_induction follow limit e now acts with
  | case1 now hang => simp [span, hang]
  | case2 now hends =>
    have hspan : span e [] = 0 := if_neg hends
    rw [hspan, add_zero]
    exact (min_eq_left hcast).symm
  | case3 now s rest ih => exact ih hnow hcast
  | case4 now rest ih => simpa [span] using ih hnow hcast
  | case5 now ms rest hms hle ih => simpa [span, add_assoc] using ih hle (by exact_mod_cast hle)
  | case6 now ms rest hms hle =>
    have hlate : (limit : ℕ∞) ≤ now + ms := by exact_mod_cast (Nat.lt_of_not_le hle).le
    have hspan : (limit : ℕ∞) ≤ now + span e (.sleep ms :: rest) := by
      rw [span, ← add_assoc]
      exact le_trans hlate le_self_add
    exact (min_eq_right hspan).symm
  | case7 now rest hlt ih => exact ih hnow hcast
  | case8 now rest hlt =>
    have hlate : (limit : ℕ∞) ≤ now := by exact_mod_cast Nat.le_of_not_lt hlt
    exact (min_eq_right (le_trans hlate le_self_add)).symm
  | case9 now rest => simp [span]

theorem follow_late (h : (follow limit e now acts).verdict = .late) :
    (follow limit e now acts).millis = limit := by
  fun_induction follow limit e now acts with
  | case2 now hends => cases e <;> simp_all [Verdict.ofEnding]
  | case3 now s rest ih => exact ih h
  | case4 now rest ih => exact ih h
  | case5 now ms rest hms hle ih => exact ih h
  | case7 now rest hlt ih => exact ih h
  | _ => rfl

/-- How a deadline judges work that is over at `t` with the verdict `v`. -/
structure Judged (s : Script) (limit t : Nat) (v : Verdict) : Prop where
  watched : s.Watched limit t v
  time_eq : (t : ℕ∞) = min s.duration limit
  own_end : v ≠ .late → v = .ofEnding s.ending ∧ (t : ℕ∞) = s.duration
  late_iff : v = .late ↔ ¬ (s.duration ≤ limit ∧ YieldsBefore limit 0 s.acts)
  late_at : v = .late → t = limit
  /-- Without any time, only what comes to its end in the first look is in time. -/
  at_once : limit = 0 → (v ≠ .late ↔ ((Progress.start s).poll 0 false).1 = .inr v)

theorem judged_within (s : Script) (limit : Nat) :
    s.Judged limit (s.within limit).millis (s.within limit).verdict := by
  have hwatched := s.watched_within limit
  have hmillis : ((s.within limit).millis : ℕ∞) = min s.duration limit := by
    have h : ((follow limit s.ending 0 s.acts).millis : ℕ∞) = _ := follow_millis (Nat.zero_le limit)
    simpa [duration, within] using h
  have hlate : (s.within limit).verdict ≠ .late ↔
      s.duration ≤ limit ∧ YieldsBefore limit 0 s.acts := by
    have h : (follow limit s.ending 0 s.acts).verdict ≠ .late ↔ _ :=
      follow_in_time_iff (Nat.zero_le limit)
    simpa [duration, within] using h
  have hverdict : (s.within limit).verdict ≠ .late →
      (s.within limit).verdict = .ofEnding s.ending :=
    fun h => (follow_through h).2.2
  constructor
  · exact hwatched
  · exact hmillis
  · intro h
    refine ⟨hverdict h, ?_⟩
    rw [hmillis]
    exact min_eq_left (hlate.1 h).1
  · rw [← hlate, not_not]
  · exact follow_late
  · rintro rfl
    constructor
    · intro h
      exact hwatched.last (Nat.le_refl 0) h
    · intro h hv
      rw [hv] at h
      exact poll_ne_late _ _ _ h

end Script

/-- Whether a call with this verdict is followed by a recovery. -/
def Verdict.abandons : Verdict → Bool
  | .panic _ | .late => true
  | _ => false

/-- The answer to a call whose work has this verdict. -/
def Script.answered (s : Script) (limit : Nat) : Verdict → Answer
  | .done => .ok (printed s.acts)
  | .fault e => .error (.fault e.message)
  | .panic p => .error (.fault p.report)
  | .late => .error (.timeout limit)

theorem Script.answered_eq_timeout {s : Script} {limit : Nat} {v : Verdict} :
    s.answered limit v = .error (.timeout limit) ↔ v = .late := by
  cases v <;> simp [answered]

theorem Script.within_panic? {s : Script} (hs : ∀ p, s.ending ≠ .panic p) (limit : Nat) :
    (s.within limit).verdict.panic? = none := by
  cases hv : (s.within limit).verdict with
  | panic p =>
    have hin : (follow limit s.ending 0 s.acts).verdict ≠ .late := by
      rw [← within, hv]
      intro h
      cases h
    have hending : Verdict.panic p = .ofEnding s.ending := hv.symm.trans (follow_through hin).2.2
    cases he : s.ending with
    | panic q => exact absurd he (hs q)
    | _ =>
      rw [he] at hending
      cases hending
  | _ => rfl

variable {σ : Type} [Interpreter σ]

/-- What the interpreter does to recover. -/
def Interpreter.recovery (engine : σ) : Script :=
  match Interpreter.recover engine with
  | some (script, _) => script
  | none => .nothing

namespace Adapter

/-- What a call asks of the interpreter. -/
def work (a : Adapter σ) (context : Nat) (command : String) : Script :=
  (Interpreter.execute a.engine context command).script

variable {a : Adapter σ} {context : Nat} {command : String}

theorem recoveryOf_eq (a : Adapter σ) (engine : σ) :
    a.recoveryOf engine = ((Interpreter.recovery engine).within a.execTimeout).verdict := by
  unfold recoveryOf Interpreter.recovery
  rcases Interpreter.recover engine with - | ⟨script, after⟩ <;> rfl

theorem recover_millis (a : Adapter σ) :
    a.recover.2.1 = ((Interpreter.recovery a.engine).within a.execTimeout).millis := by
  unfold recover Interpreter.recovery
  rcases Interpreter.recover a.engine with - | ⟨script, after⟩
  · rfl
  · dsimp only
    cases (script.within a.execTimeout).verdict <;> rfl

theorem abandon_millis (a : Adapter σ) (millis : Nat) (e : EngineError) :
    (a.abandon millis e).millis =
      millis + ((Interpreter.recovery a.engine).within a.execTimeout).millis :=
  congrArg (millis + ·) (recover_millis { a with output := a.output.clear })

/-- A call that is not abandoned takes its own time, and the interpreter can be called again. -/
theorem execute_finishes (hu : a.unusable = none)
    (hv : ((a.work context command).within a.execTimeout).verdict.abandons = false) :
    a.recovery? context command = none ∧
      (a.execute context command).millis =
        ((a.work context command).within a.execTimeout).millis ∧
      (a.execute context command).after.unusable = none := by
  unfold work at hv ⊢
  cases hverdict :
      ((Interpreter.execute a.engine context command).script.within a.execTimeout).verdict with
  | done | fault => simp only [execute, recovery?, finish, hu, hverdict, and_self]
  | panic | late => simp [hverdict, Verdict.abandons] at hv

/-- It is answered with what it has printed, or with its fault. -/
theorem execute_answer (hu : a.unusable = none) (ho : a.output = .empty)
    (hv : ((a.work context command).within a.execTimeout).verdict.abandons = false) :
    (a.execute context command).answer = (a.work context command).answered a.execTimeout
      ((a.work context command).within a.execTimeout).verdict := by
  let s := a.work context command
  cases hverdict : ((a.work context command).within a.execTimeout).verdict with
  | done =>
    have hin : (Script.follow a.execTimeout s.ending 0 s.acts).verdict ≠ .late := by
      rw [← Script.within, hverdict]
      intro h
      cases h
    have hprinted : (s.within a.execTimeout).output = Script.printed s.acts :=
      (Script.follow_through hin).2.1
    have hanswer : (a.execute context command).answer =
        .ok ("" ++ (s.within a.execTimeout).output) := by
      unfold work at hverdict
      simp only [execute, hu, hverdict, ho]
      rfl
    rw [hprinted, String.empty_append] at hanswer
    exact hanswer
  | fault e =>
    unfold work at hverdict
    simp only [execute, finish, hu, hverdict, Script.answered]
  | panic | late => simp [hverdict, Verdict.abandons] at hv

/-- What a call leaves behind when it ends or is cut off, before anything else happens. -/
def left (a : Adapter σ) (context : Nat) (command : String) : Adapter σ :=
  let call := Interpreter.execute a.engine context command
  let f := call.script.within a.execTimeout
  { a with
    engine := if f.verdict = .late then call.cut f.done else call.after
    output := a.output.emit f.output }

/-- A call that is abandoned has an error of its own, and goes on with a recovery. -/
theorem execute_abandons (hu : a.unusable = none)
    (hv : ((a.work context command).within a.execTimeout).verdict.abandons = true) :
    let s := a.work context command
    let b := a.left context command
    s.answered a.execTimeout (s.within a.execTimeout).verdict =
        .error (a.ownError context command) ∧
      a.recovery? context command = some (b.recoveryOf b.engine) ∧
      a.execute context command =
        b.abandon (s.within a.execTimeout).millis (a.ownError context command) := by
  unfold work at hv ⊢
  cases hverdict :
      ((Interpreter.execute a.engine context command).script.within a.execTimeout).verdict with
  | done | fault => simp [hverdict, Verdict.abandons] at hv
  | panic p =>
    have hown : a.ownError context command = .fault p.report := by
      simp [ownError, panic?, hu, hverdict, Verdict.panic?]
    refine ⟨?_, ?_, ?_⟩
    · simp only [hverdict, hown, Script.answered]
    · simp only [recovery?, left, hu, hverdict]
      rfl
    · simp only [execute, left, hu, hverdict, hown]
      rfl
  | late =>
    have hown : a.ownError context command = .timeout a.execTimeout := by
      simp [ownError, panic?, hu, hverdict, Verdict.panic?]
    refine ⟨?_, ?_, ?_⟩
    · simp only [hverdict, hown, Script.answered]
    · simp only [recovery?, left, hu, hverdict]
      rfl
    · simp only [execute, left, hu, hverdict, hown]
      rfl

theorem execute_recovers (hu : a.unusable = none)
    (hv : ((a.work context command).within a.execTimeout).verdict.abandons = true) :
    let x := a.execute context command
    let recovered := (Interpreter.recovery x.during.engine).within a.execTimeout
    a.recovery? context command = some recovered.verdict ∧
      x.millis = ((a.work context command).within a.execTimeout).millis + recovered.millis := by
  obtain ⟨-, hrecovery, hexecute⟩ := execute_abandons hu hv
  have hduring : (a.execute context command).during.engine = (a.left context command).engine := by
    rw [hexecute]
    rfl
  dsimp only
  rw [hduring, hrecovery, recoveryOf_eq]
  refine ⟨rfl, ?_⟩
  rw [hexecute, abandon_millis]
  rfl

/-- Whatever the recovery does but panic, a call is answered as its own work demands. -/
theorem execute_answered (hu : a.unusable = none) (ho : a.output = .empty)
    (hquiet : ∀ p,
      (Interpreter.recovery (a.execute context command).during.engine).ending ≠ .panic p) :
    (a.execute context command).answer = (a.work context command).answered a.execTimeout
      ((a.work context command).within a.execTimeout).verdict := by
  cases hv : ((a.work context command).within a.execTimeout).verdict.abandons with
  | false => exact execute_answer hu ho hv
  | true =>
    obtain ⟨hrecovery, -⟩ := execute_recovers hu hv
    obtain ⟨hanswer, -⟩ := execute_abandoned hrecovery (Script.within_panic? hquiet _)
    exact hanswer.trans (execute_abandons hu hv).1.symm

/-- How a call keeps to its deadline. -/
structure Clocked (a : Adapter σ) (context : Nat) (command : String) : Prop where
  /-- The call is judged by its deadline, and answered accordingly. If it panics or is late, then
  its recovery is judged in the same way, from what the call has left behind. -/
  judged : let s := a.work context command
    let x := a.execute context command
    ∃ t v, s.Judged a.execTimeout t v ∧ x.answer = s.answered a.execTimeout v ∧
      (v.abandons = false → x.millis = t ∧ x.after.unusable = none) ∧
      (v.abandons = true → ∃ r w,
        (Interpreter.recovery x.during.engine).Judged a.execTimeout r w ∧
          x.millis = t + r ∧ x.after.unusable = w.blame?)
  timeout_iff : (a.execute context command).answer = .error (.timeout a.execTimeout) ↔
    ∃ t, (a.work context command).Watched a.execTimeout t .late
  millis_le : (a.execute context command).millis ≤ 2 * a.execTimeout

theorem clocked_of_usable (hu : a.unusable = none) (ho : a.output = .empty)
    (hquiet : ∀ p,
      (Interpreter.recovery (a.execute context command).during.engine).ending ≠ .panic p) :
    a.Clocked context command := by
  let s := a.work context command
  let f := s.within a.execTimeout
  have hanswer : (a.execute context command).answer = s.answered a.execTimeout f.verdict :=
    execute_answered hu ho hquiet
  refine ⟨⟨f.millis, f.verdict, s.judged_within a.execTimeout, hanswer, ?_, ?_⟩, ?_, ?_⟩
  · intro hv
    exact (execute_finishes hu hv).2
  · intro hv
    obtain ⟨hrecovery, hmillis⟩ := execute_recovers hu hv
    obtain ⟨-, hunusable⟩ := execute_abandoned hrecovery (Script.within_panic? hquiet _)
    exact ⟨_, _, Script.judged_within _ _, hmillis, hunusable⟩
  · rw [hanswer, Script.answered_eq_timeout]
    constructor
    · intro hlate
      exact ⟨f.millis, Script.watched_iff.2 ⟨rfl, hlate.symm⟩⟩
    · rintro ⟨t, hwatched⟩
      exact (Script.watched_iff.1 hwatched).2.symm
  · exact (execute_limit a context command).2

end Adapter

omit [Interpreter σ] in
theorem Module.conclude_eq_timeout {m : Module σ} {loadTimeout execTimeout : Nat} {v : Verdict} :
    m.conclude loadTimeout execTimeout v = .refused (.timeout m.name loadTimeout) ↔ v = .late := by
  cases v <;> simp [conclude]

namespace Registry

/-- How a load keeps to its deadline. -/
structure Clocked (r : Registry σ) (name : String) (loadTimeout execTimeout : Nat) : Prop where
  unknown : r.find? name = none →
    r.load name loadTimeout execTimeout = (.refused (.unknownModule name), 0)
  judged : ∀ x, r.find? name = some x → ∃ t v, x.module.starting.Judged loadTimeout t v ∧
    r.load name loadTimeout execTimeout = (x.module.conclude loadTimeout execTimeout v, t)
  timeout_iff : (r.load name loadTimeout execTimeout).1 = .refused (.timeout name loadTimeout) ↔
    ∃ x t, r.find? name = some x ∧ x.module.starting.Watched loadTimeout t .late

omit [Interpreter σ] in
theorem clocked (r : Registry σ) (name : String) (loadTimeout execTimeout : Nat) :
    r.Clocked name loadTimeout execTimeout := by
  constructor
  · intro hnone
    simp only [load, hnone]
  · intro x hx
    refine ⟨_, _, x.module.starting.judged_within loadTimeout, ?_⟩
    simp only [load, hx, Module.load]
  · unfold load
    cases hx : r.find? name with
    | none => simp
    | some x =>
      have hname : x.module.name = name := by simpa using List.find?_some hx
      simp only [Module.load, ← hname, Module.conclude_eq_timeout, Option.some.injEq]
      constructor
      · intro hlate
        exact ⟨x, _, rfl, Script.watched_iff.2 ⟨rfl, hlate.symm⟩⟩
      · rintro ⟨y, t, rfl, hwatched⟩
        exact (Script.watched_iff.1 hwatched).2.symm

end Registry

/-- Calls and loads keep to their deadlines by the same rule. -/
theorem clocked_of_deadlines {a : Adapter σ} {context : Nat} {command : String}
    (hu : a.unusable = none) (ho : a.output = .empty)
    (hquiet : ∀ p,
      (Interpreter.recovery (a.execute context command).during.engine).ending ≠ .panic p)
    (r : Registry σ) (name : String) (loadTimeout execTimeout : Nat) :
    a.Clocked context command ∧ r.Clocked name loadTimeout execTimeout :=
  ⟨Adapter.clocked_of_usable hu ho hquiet, r.clocked name loadTimeout execTimeout⟩

namespace Rehearsal

/-- It naps for the whole time of a call, and dozes off in the last moment. It takes longer than
that to recover. -/
def drowsy : Scripted :=
  { replies := [("nap", ⟨[.emit "z", .sleep 30, .emit "z", .sleep 20], .done⟩),
      ("doze", ⟨[.sleep 50, .yield], .done⟩)]
    missing := fun _ => .ofText "unknown", recovery := some ⟨[.sleep 70], .done⟩, version := none }

def drowsyAdapter : Adapter Scripted := .fresh "forth" drowsy 50

def drowsyRegistry : Registry Scripted :=
  Registry.empty.register ⟨"forth", "", ⟨[.sleep 10], .done⟩, drowsy⟩

end Rehearsal

/-- A call that ends in the last moment is answered; one that has only a turn to give away then is
late, and so is its recovery. -/
theorem clocked_rehearsal :
    let napping := Rehearsal.drowsyAdapter.execute 0 "nap"
    let dozing := Rehearsal.drowsyAdapter.execute 0 "doze"
    (napping.answer = .ok "zz" ∧ napping.millis = 50) ∧
    (dozing.answer = .error (.timeout 50) ∧ dozing.millis = 100 ∧
      dozing.after.unusable = some "recovery timed out") ∧
    (Rehearsal.drowsyAdapter.Clocked 0 "nap" ∧ Rehearsal.drowsyRegistry.Clocked "forth" 10 50) ∧
    Rehearsal.drowsyAdapter.Clocked 0 "doze" ∧ Rehearsal.drowsyRegistry.Clocked "forth" 9 50 := by
  have hnap (p : Panic) : (Interpreter.recovery
      (Rehearsal.drowsyAdapter.execute 0 "nap").during.engine).ending ≠ .panic p := by
    change Ending.done ≠ _
    nofun
  have hdoze (p : Panic) : (Interpreter.recovery
      (Rehearsal.drowsyAdapter.execute 0 "doze").during.engine).ending ≠ .panic p := by
    change Ending.done ≠ _
    nofun
  refine ⟨⟨rfl, rfl⟩, ⟨rfl, rfl, rfl⟩, ?_, ?_⟩
  · exact clocked_of_deadlines rfl rfl hnap _ _ _ _
  · exact clocked_of_deadlines rfl rfl hdoze _ _ _ _

end EngineBridge
