/-!
# Output of one call
-/

namespace EngineBridge

/-- What an engine has printed since the buffer was last emptied. -/
structure Output where
  text : String
  deriving DecidableEq, Repr

namespace Output

def empty : Output := ⟨""⟩

def emit (b : Output) (s : String) : Output := ⟨b.text ++ s⟩

/-- Take all that has been printed. -/
def drain (b : Output) : Output × String := (empty, b.text)

def clear (_ : Output) : Output := empty

def isEmpty (b : Output) : Bool := b.text.isEmpty

end Output

end EngineBridge
