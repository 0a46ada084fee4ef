import EngineBridge.Engine.Interpreter
import EngineBridge.Engine.Output
import EngineBridge.Error

/-!
# The adapter around an interpreter

One call at a time, under a deadline. A call that panics or is late is followed by a recovery; once
a recovery has failed the interpreter is not called again.
-/

namespace EngineBridge

structure Adapter (σ : Type) where
  module : String
  engine : σ
  execTimeout : Nat
  output : Output := .empty
  /-- Why the last recovery failed. -/
  unusable : Option String := none
  deriving Repr

/-- How a call is answered. A panic inside a recovery is not contained. -/
inductive Answer where
  | ok (output : String)
  | error (e : EngineError)
  | crashed (p : Panic)
  deriving DecidableEq, Repr

/-- The course of one call: the adapter while the call itself runs, when a recovery begins, the
adapter from then on, and the answer at the end. -/
structure Execution (σ : Type) where
  during : Adapter σ
  recoverAt : Option Nat
  after : Adapter σ
  millis : Nat
  answer : Answer
  deriving Repr

namespace Execution

variable {σ : Type}

/-- The adapter when the call has been running for `elapsed` milliseconds. -/
def adapterAt (x : Execution σ) (elapsed : Nat) : Adapter σ :=
  match x.recoverAt with
  | none => x.after
  | some t => if t ≤ elapsed then x.after else x.during

end Execution

namespace Adapter

variable {σ : Type} [Interpreter σ]

def version (a : Adapter σ) : Option String := Interpreter.version a.engine

/-- Recover the interpreter, within the time of one call. -/
def recover (a : Adapter σ) : Adapter σ × Nat × Option Panic :=
  match Interpreter.recover a.engine with
  | none => (a, 0, none)
  | some (script, engine) =>
    let f := script.within a.execTimeout
    let a := { a with engine }
    match f.verdict with
    | .done => (a, f.millis, none)
    | .fault e => ({ a with unusable := some e.message }, f.millis, none)
    | .late => ({ a with unusable := some "recovery timed out" }, f.millis, none)
    | .panic p => (a, f.millis, some p)

/-- The rest of a call that was abandoned after `millis` and is to be answered with `e`. -/
def abandon (a : Adapter σ) (millis : Nat) (e : EngineError) : Execution σ :=
  let a := { a with output := a.output.clear }
  let (after, more, panic) := a.recover
  { during := a
    recoverAt := some millis
    after
    millis := millis + more
    answer := match panic with | none => .error e | some p => .crashed p }

/-- The course of a call that ends after `millis`, without a recovery. -/
def finish (a : Adapter σ) (millis : Nat) (answer : Answer) : Execution σ :=
  { during := a, recoverAt := none, after := a, millis, answer }

/-- Feed a command to the interpreter and collect what it prints during this call. -/
def execute (a : Adapter σ) (context : Nat) (command : String) : Execution σ :=
  match a.unusable with
  | some reason => finish a 0 (.error (.fault ("engine is unusable: " ++ reason)))
  | none =>
    let call := Interpreter.execute a.engine context command
    let f := call.script.within a.execTimeout
    let output := a.output.emit f.output
    let ended := { a with engine := call.after, output }
    match f.verdict with
    | .done =>
      let (output, text) := output.drain
      finish { ended with output } f.millis (.ok text)
    | .fault e =>
      finish { ended with output := output.clear } f.millis (.error (.fault e.message))
    | .panic p => ended.abandon f.millis (.fault ("interpreter panicked: " ++ p.message))
    | .late =>
      { a with engine := call.cut f.done, output }.abandon f.millis (.timeout a.execTimeout)

end Adapter

end EngineBridge
