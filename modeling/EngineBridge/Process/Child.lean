import EngineBridge.Fault
import EngineBridge.Text.Lines

/-!
# Child processes

A child reads lines and writes bytes. It is given by what it has written, and how it stands, once
it has read so much and no more.
-/

namespace EngineBridge

open Text (Bytes)

inductive Emission where
  | bytes (b : Bytes)
  | pause (millis : Nat)
  deriving DecidableEq, Repr

/-- How a child stands after all that it has written. -/
inductive Standing where
  /-- It waits for more input. -/
  | waiting
  /-- It has ended, and its output with it. -/
  | closed
  /-- It runs on without writing anything. -/
  | busy
  /-- Its output cannot be read any further. -/
  | broken (e : SystemError)
  deriving DecidableEq, Repr

structure Timeline where
  emissions : List Emission
  standing : Standing
  deriving DecidableEq, Repr

/-- What a child has done once it has read this input. -/
abbrev Child := Bytes → Timeline

/-- Writes back whatever it reads. -/
def Child.echo : Child := fun input => ⟨[.bytes input], .waiting⟩

/-- What a reader of a child's output meets. -/
inductive Heard where
  | line (bytes : Bytes)
  | pause (millis : Nat)
  deriving DecidableEq, Repr

namespace Timeline

/-- The emissions after the first `taken` bytes. -/
def unread (taken : Nat) : List Emission → List Emission
  | [] => []
  | .pause ms :: rest => if taken = 0 then .pause ms :: rest else unread taken rest
  | .bytes b :: rest =>
    if b.length ≤ taken then unread (taken - b.length) rest else .bytes (b.drop taken) :: rest

/-- Cut emissions into lines, with `carry` read since the last line feed. -/
def heard (closed : Bool) (carry : Bytes) : List Emission → List Heard
  | [] => if closed && !carry.isEmpty then [.line carry] else []
  | .pause ms :: rest => .pause ms :: heard closed carry rest
  | .bytes b :: rest =>
    let (lines, tail) := Text.cutLines (carry ++ b)
    lines.map .line ++ heard closed tail rest

/-- What is to be read after the first `taken` bytes. -/
def after (t : Timeline) (taken : Nat) : List Heard :=
  heard (t.standing = .closed) [] (unread taken t.emissions)

end Timeline

end EngineBridge
