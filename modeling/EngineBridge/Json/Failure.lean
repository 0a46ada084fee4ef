import EngineBridge.Text.Bytes

/-!
# Why a text is not JSON

A failure is a cause and the number of bytes that are unread where it shows. Its message counts
lines, and the bytes of the last line, up to there.
-/

namespace EngineBridge.Json

inductive Cause where
  | endInValue
  | endInArray
  | endInObject
  | endInText
  | noValue
  | wrongLetter
  | invalidNumber
  | numberTooLarge
  | keyNotText
  | noColon
  | noCommaOrBracket
  | noCommaOrBrace
  | trailingComma
  | trailingCharacters
  | controlInText
  | invalidEscape
  | loneSurrogate
  | endOfEscape
  | tooDeep
  deriving DecidableEq, Repr

def Cause.message : Cause → String
  | .endInValue => "EOF while parsing a value"
  | .endInArray => "EOF while parsing a list"
  | .endInObject => "EOF while parsing an object"
  | .endInText => "EOF while parsing a string"
  | .noValue => "expected value"
  | .wrongLetter => "expected ident"
  | .invalidNumber => "invalid number"
  | .numberTooLarge => "number out of range"
  | .keyNotText => "key must be a string"
  | .noColon => "expected `:`"
  | .noCommaOrBracket => "expected `,` or `]`"
  | .noCommaOrBrace => "expected `,` or `\x7d`"
  | .trailingComma => "trailing comma"
  | .trailingCharacters => "trailing characters"
  | .controlInText => "control character (\\u0000-\\u001F) found while parsing a string"
  | .invalidEscape => "invalid escape"
  | .loneSurrogate => "lone leading surrogate in hex escape"
  | .endOfEscape => "unexpected end of hex escape"
  | .tooDeep => "recursion limit exceeded"

structure Failure where
  cause : Cause
  unread : Nat
  deriving DecidableEq, Repr

/-- Bytes that encode the characters. -/
def byteLength (cs : List Char) : Nat := cs.foldl (fun n c => n + c.utf8Size) 0

/-- A failure whose text is unread from `rest` on. -/
def Failure.before (cause : Cause) (rest : List Char) : Failure := ⟨cause, byteLength rest⟩

/-- A failure shown by the next byte, which counts as read; at the end nothing more is. -/
def Failure.at (cause : Cause) (rest : List Char) : Failure := ⟨cause, byteLength rest - 1⟩

/-- Line, counted from one, and bytes since its start, after the first `read` bytes. -/
def position (bytes : List UInt8) (read : Nat) : Nat × Nat :=
  (bytes.take read).foldl
    (fun (place : Nat × Nat) b => if b = 10 then (place.1 + 1, 0) else (place.1, place.2 + 1))
    (1, 0)

def Failure.message (f : Failure) (text : String) : String :=
  let bytes := Text.utf8 text
  let (line, column) := position bytes (bytes.length - f.unread)
  f.cause.message ++ " at line " ++ line.repr ++ " column " ++ column.repr

end EngineBridge.Json
