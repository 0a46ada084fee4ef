import EngineBridge.Text.Lines

/-!
# Timed input

Bytes arrive in portions, with pauses between them. A line is there once its line feed has arrived,
and an unterminated last line once the input has ended.
-/

namespace EngineBridge

inductive Segment where
  | data (bytes : Text.Bytes)
  | wait (millis : Nat)
  deriving Repr

/-- The lines of an input with the times at which they are there, and when the reading ends. -/
structure Source where
  lines : List (Nat × String)
  closes : Nat
  deriving DecidableEq, Repr

namespace Source

/-- Put lines that are there at `now` in front. A line that is not text ends the reading. -/
def prepend (now : Nat) (lines : List Text.Bytes) (rest : Source) : Source :=
  match Text.readable lines with
  | (texts, true) => { rest with lines := texts.map (now, ·) ++ rest.lines }
  | (texts, false) => ⟨texts.map (now, ·), now⟩

/-- The input from `now` on, with `carry` read since the last line feed. -/
def arriving (now : Nat) (carry : Text.Bytes) : List Segment → Source
  | [] => prepend now (if carry.isEmpty then [] else [carry]) ⟨[], now⟩
  | .wait ms :: rest => arriving (now + ms) carry rest
  | .data bytes :: rest =>
    let (lines, tail) := Text.cutLines (carry ++ bytes)
    prepend now lines (arriving now tail rest)

def ofSegments (segments : List Segment) : Source := arriving 0 [] segments

end Source

end EngineBridge
