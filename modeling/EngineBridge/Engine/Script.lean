import EngineBridge.Fault

/-!
# Engine work in virtual time

What a piece of engine code does, step by step, and how it ends. Time is in whole milliseconds and
passes only in sleeps.
-/

namespace EngineBridge

inductive Act where
  | emit (text : String)
  | sleep (millis : Nat)
  /-- Let others run first; takes no time. -/
  | yield
  /-- Wait for a release from outside. -/
  | gate
  deriving DecidableEq, Repr

/-- What a panic carries. -/
inductive Panic where
  | text (s : String)
  | other
  deriving DecidableEq, Repr

def Panic.message : Panic → String
  | .text s => s
  | .other => "unknown panic"

/-- How work ends, if it does. -/
inductive Ending where
  | done
  | fault (f : Fault)
  | panic (p : Panic)
  | hang
  deriving DecidableEq, Repr

structure Script where
  acts : List Act
  ending : Ending
  deriving DecidableEq, Repr

namespace Script

/-- Does nothing, at once. -/
def nothing : Script := ⟨[], .done⟩

/-- What the acts print, all told. -/
def printed (acts : List Act) : String :=
  acts.foldl (fun out act => match act with | .emit s => out ++ s | _ => out) ""

end Script

/-- How work ends under a deadline. -/
inductive Verdict where
  | done
  | fault (f : Fault)
  | panic (p : Panic)
  | late
  deriving DecidableEq, Repr

def Verdict.ofEnding : Ending → Verdict
  | .done => .done
  | .fault f => .fault f
  | .panic p => .panic p
  | .hang => .late

/-- What a deadline lets through. -/
structure Finish where
  /-- How many acts were done. -/
  done : Nat
  output : String
  millis : Nat
  verdict : Verdict
  deriving DecidableEq, Repr

namespace Finish

/-- First do one act that prints `s`. -/
def behind (s : String) (f : Finish) : Finish :=
  { f with done := f.done + 1, output := s ++ f.output }

end Finish

namespace Script

/-- Work from the moment `now` on. Whatever still waits when the clock stands at `limit` is late;
what ends in that very moment is not. Nobody opens a gate. -/
def follow (limit : Nat) (ending : Ending) (now : Nat) : List Act → Finish
  | [] =>
    match ending with
    | .hang => ⟨0, "", limit, .late⟩
    | e => ⟨0, "", now, .ofEnding e⟩
  | .emit s :: rest => (follow limit ending now rest).behind s
  | .sleep ms :: rest =>
    if ms = 0 then (follow limit ending now rest).behind ""
    else if now + ms ≤ limit then (follow limit ending (now + ms) rest).behind ""
    else ⟨0, "", limit, .late⟩
  | .yield :: rest =>
    if now < limit then (follow limit ending now rest).behind "" else ⟨0, "", limit, .late⟩
  | .gate :: _ => ⟨0, "", limit, .late⟩

/-- The work, cut off after `limit` milliseconds. -/
def within (s : Script) (limit : Nat) : Finish := follow limit s.ending 0 s.acts

theorem follow_millis_le {limit : Nat} {ending : Ending} {acts : List Act} {now : Nat}
    (h : now ≤ limit) : (follow limit ending now acts).millis ≤ limit := by
  fun_induction follow limit ending now acts with
  | case1 => exact Nat.le_refl _
  | case2 => exact h
  | case3 now s rest ih => exact ih h
  | case4 now rest ih => exact ih h
  | case5 now ms rest hms hle ih => exact ih hle
  | case6 => exact Nat.le_refl _
  | case7 now rest hlt ih => exact ih h
  | case8 => exact Nat.le_refl _
  | case9 => exact Nat.le_refl _

/-- No work takes longer than its deadline. -/
theorem within_millis_le (s : Script) (limit : Nat) : (s.within limit).millis ≤ limit :=
  follow_millis_le (Nat.zero_le _)

end Script

/-- Why work does not go on at once. -/
inductive Wait where
  | nothing
  | time (millis : Nat)
  | turn
  | release
  | forever
  deriving DecidableEq, Repr

/-- Work under way: what it waits for and what is left of it. -/
structure Progress where
  wait : Wait
  rest : Script
  deriving DecidableEq, Repr

namespace Progress

def start (s : Script) : Progress := ⟨.nothing, s⟩

/-- Whether the work cannot go on by itself. -/
def blocked (p : Progress) (now : Nat) (released : Bool) : Bool :=
  match p.wait with
  | .nothing | .turn => false
  | .time t => now < t
  | .release => !released
  | .forever => true

/-- Do what can be done at `now`. Gives what is left, or how the work ended, and whether the
release is still there. -/
def advance (now : Nat) (ending : Ending) : Bool → List Act → (Progress ⊕ Verdict) × Bool
  | released, [] =>
    match ending with
    | .hang => (.inl ⟨.forever, ⟨[], ending⟩⟩, released)
    | e => (.inr (.ofEnding e), released)
  | released, .emit _ :: rest => advance now ending released rest
  | released, .sleep ms :: rest =>
    if ms = 0 then advance now ending released rest
    else (.inl ⟨.time (now + ms), ⟨rest, ending⟩⟩, released)
  | released, .yield :: rest => (.inl ⟨.turn, ⟨rest, ending⟩⟩, released)
  | true, .gate :: rest => advance now ending false rest
  | false, .gate :: rest => (.inl ⟨.release, ⟨rest, ending⟩⟩, false)

/-- Look at the work at `now`, with or without a release. -/
def poll (p : Progress) (now : Nat) (released : Bool) : (Progress ⊕ Verdict) × Bool :=
  if p.blocked now released then (.inl p, released)
  else
    advance now p.rest.ending (if p.wait = .release then false else released) p.rest.acts

/-- When the work goes on by itself. -/
def wakes (p : Progress) : Option Nat :=
  match p.wait with
  | .time t => some t
  | _ => none

end Progress

end EngineBridge
