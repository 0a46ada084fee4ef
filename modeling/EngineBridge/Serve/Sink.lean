import EngineBridge.Text.Lines
import EngineBridge.Fault

/-!
# Buffered output

Pieces are collected in a buffer and pass to the writer when they do not fit, or when the buffer is
flushed. A writer may take only so many bytes and fail after that.
-/

namespace EngineBridge

structure Sink where
  /-- How many more bytes the writer takes; none if it takes all. -/
  room : Option Nat := none
  /-- What the writer has taken, latest first. -/
  taken : List Text.Bytes := []
  deriving Repr

namespace Sink

/-- Bytes that the buffer holds. -/
def bufferSize : Nat := 8192

/-- All that the writer has taken. -/
def bytes (s : Sink) : Text.Bytes := s.taken.reverse.flatten

/-- Offer bytes to the writer; gives what it did not take. -/
def offer (s : Sink) (bytes : Text.Bytes) : Sink × Text.Bytes :=
  match s.room with
  | none => ({ s with taken := bytes :: s.taken }, [])
  | some n =>
    ({ room := some (n - bytes.length), taken := bytes.take n :: s.taken }, bytes.drop n)

/-- Write a piece behind what is buffered. Gives the new buffer, or none if the writer failed. A
piece as large as the buffer goes to the writer directly, and what is left of it is buffered if it
has become smaller. -/
def write (s : Sink) (buffered piece : Text.Bytes) : Sink × Option Text.Bytes :=
  let (s, buffered, failed) :=
    if bufferSize < buffered.length + piece.length then
      let (s, left) := s.offer buffered
      (s, [], !left.isEmpty)
    else (s, buffered, false)
  if failed then (s, none)
  else if piece.length < bufferSize then (s, some (buffered ++ piece))
  else
    let (s, left) := s.offer piece
    if left.length < bufferSize then (s, some left) else (s, none)

/-- Write the pieces of one message and flush the buffer. -/
def put (s : Sink) (pieces : List Text.Bytes) : Sink × Option Fault :=
  go s [] pieces
where
  go (s : Sink) (buffered : Text.Bytes) : List Text.Bytes → Sink × Option Fault
    | [] =>
      let (s, left) := s.offer buffered
      if left.isEmpty then (s, none)
      else (s, some ((Fault.ofSystem .brokenPipe).context "failed to flush output"))
    | piece :: rest =>
      match s.write buffered piece with
      | (s, some buffered) => go s buffered rest
      | (s, none) => (s, some (.ofSystem .brokenPipe))

end Sink

end EngineBridge
