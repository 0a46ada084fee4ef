import EngineBridge.Text.Extending
import EngineBridge.Text.Unprintable

/-!
# Quoted text in diagnostics

Text between double quotes. What cannot be shown, and what would merge with the character before it,
is written as an escape.
-/

namespace EngineBridge.Text

/-- Lowercase hexadecimal digits, without leading zeros. -/
def hexDigits (n : Nat) : List Char := Nat.toDigits 16 n

/-- The Hangul fillers, letters that leave no mark. -/
def isFiller (c : Char) : Bool :=
  ['\u115f', '\u1160', '\u3164', '\uffa0'].contains c

/-- The halfwidth voicing marks, which extend a character and yet stand beside it. -/
def isVoicingMark (c : Char) : Bool := c == '\uff9e' || c == '\uff9f'

/-- Whether a character is not shown as it is. -/
def isEscaped (c : Char) : Bool :=
  isUnprintable c || isFiller c || (isExtending c && !isVoicingMark c)

/-- How one character is written between the quotes. -/
def quotedChar (c : Char) : List Char :=
  match c with
  | '"' => ['\\', '"']
  | '\\' => ['\\', '\\']
  | '\t' => ['\\', 't']
  | '\n' => ['\\', 'n']
  | '\r' => ['\\', 'r']
  | '\x00' => ['\\', '0']
  | _ =>
    if isEscaped c then ['\\', 'u', '\x7b'] ++ hexDigits c.toNat ++ ['\x7d'] else [c]

/-- The text between double quotes. -/
def quoted (s : String) : String :=
  String.ofList ('"' :: s.toList.flatMap quotedChar ++ ['"'])

end EngineBridge.Text
