/-!
# Faults

A fault is a chain of causes, outermost first. A cause is a text, or something that the operating
system reports.
-/

namespace EngineBridge

/-- What the operating system reports. -/
inductive SystemError where
  | notFound
  | denied
  | notDirectory
  | isDirectory
  | nameTooLong
  | tooManyLinks
  | brokenPipe
  | badText
  | nulByte
  deriving DecidableEq, Repr

def SystemError.message : SystemError → String
  | .notFound => "No such file or directory (os error 2)"
  | .denied => "Permission denied (os error 13)"
  | .notDirectory => "Not a directory (os error 20)"
  | .isDirectory => "Is a directory (os error 21)"
  | .nameTooLong => "File name too long (os error 36)"
  | .tooManyLinks => "Too many levels of symbolic links (os error 40)"
  | .brokenPipe => "Broken pipe (os error 32)"
  | .badText => "stream did not contain valid UTF-8"
  | .nulByte => "nul byte found in provided data"

inductive Cause where
  | text (s : String)
  | system (e : SystemError)
  deriving DecidableEq, Repr

def Cause.message : Cause → String
  | .text s => s
  | .system e => e.message

structure Fault where
  outermost : Cause
  causes : List Cause
  deriving DecidableEq, Repr

namespace Fault

def ofText (s : String) : Fault := ⟨.text s, []⟩

def ofSystem (e : SystemError) : Fault := ⟨.system e, []⟩

/-- Put a text in front of the chain. -/
def context (s : String) (f : Fault) : Fault := ⟨.text s, f.outermost :: f.causes⟩

def chain (f : Fault) : List Cause := f.outermost :: f.causes

/-- The whole chain in one line. -/
def message (f : Fault) : String := ": ".intercalate (f.chain.map Cause.message)

private theorem infix_intercalate {t : String} {l : List String} (sep : String) (h : t ∈ l) :
    t.toList <:+: (sep.intercalate l).toList := by
  induction l with
  | nil => cases h
  | cons u l ih =>
    cases l with
    | nil =>
      obtain rfl := List.mem_singleton.1 h
      simp
    | cons v l =>
      rw [String.intercalate_cons_cons, String.toList_append, String.toList_append]
      rcases List.mem_cons.1 h with rfl | h
      · exact ((List.prefix_append _ _).trans (List.prefix_append _ _)).isInfix
      · exact (ih h).trans (List.suffix_append _ _).isInfix

/-- No cause of the chain is left out. -/
theorem message_carries {f : Fault} {c : Cause} (h : c ∈ f.chain) :
    c.message.toList <:+: f.message.toList :=
  infix_intercalate ": " (List.mem_map_of_mem h)

end Fault

end EngineBridge
