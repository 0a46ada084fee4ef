import EngineBridge.Process.Child
import EngineBridge.Engine.Script

/-!
# Where the output of a command ends

After each command the child is sent a line that makes it print a marker. All that comes before the
marker is the command's output. A child that echoes its input prints the sync command as well; one
such line is dropped.
-/

namespace EngineBridge.Sync

open Text (Bytes)

/-- The part of `cs` before the first occurrence of `m`, behind what is in `done`, reversed. -/
def before? (m : List Char) (done : List Char) : List Char → Option (List Char)
  | [] => if m.isEmpty then some done.reverse else none
  | c :: rest =>
    if m.isPrefixOf (c :: rest) then some done.reverse else before? m (c :: done) rest

/-- What is given is the text before an occurrence of the marker. -/
theorem eq_of_before? {m done cs head : List Char} (h : before? m done cs = some head) :
    ∃ p s, head = done.reverse ++ p ∧ cs = p ++ (m ++ s) := by
  fun_induction before? m done cs with
  | case1 done hm => exact ⟨[], [], by simp_all, by simp_all⟩
  | case2 => cases h
  | case3 done c rest hp =>
    obtain ⟨s, hs⟩ := List.isPrefixOf_iff_prefix.1 hp
    exact ⟨[], s, by simp_all, by simp [hs]⟩
  | case4 done c rest _ ih =>
    obtain ⟨p, s, rfl, rfl⟩ := ih h
    exact ⟨c :: p, s, by simp, by simp⟩

/-- A marker is found exactly where it occurs. -/
theorem before?_eq_none_iff {m done cs : List Char} :
    before? m done cs = none ↔ ¬ m <:+: cs := by
  fun_induction before? m done cs with
  | case1 done hm => simp_all
  | case2 done hm => simpa using hm
  | case3 done c rest hp =>
    simpa using (List.isPrefixOf_iff_prefix.1 hp).isInfix
  | case4 done c rest hp ih =>
    rw [ih, List.infix_cons_iff, List.isPrefixOf_iff_prefix] at *
    simp_all

/-- The marker does not begin earlier. -/
theorem length_le_of_before? {m done cs head p s : List Char}
    (h : before? m done cs = some head) (e : cs = p ++ (m ++ s)) :
    head.length ≤ done.length + p.length := by
  fun_induction before? m done cs generalizing p with
  | case1 done hm =>
    obtain rfl := Option.some.inj h
    simp
  | case2 => cases h
  | case3 done c rest hp =>
    obtain rfl := Option.some.inj h
    simp
  | case4 done c rest hp ih =>
    cases p with
    | nil =>
      exact absurd (List.isPrefixOf_iff_prefix.2 ⟨s, e.symm⟩) hp
    | cons x p =>
      have := ih h (List.cons.inj e).2
      simp only [List.length_cons] at this ⊢
      omega

/-- The part of a line before the marker. -/
def beforeMarker? (marker line : String) : Option String :=
  (before? marker.toList [] line.toList).map String.ofList

/-- A line without the carriage returns and line feeds at its end. -/
def unended (line : String) : String :=
  let cs := line.toList.reverse.dropWhile fun c => c = '\r' || c = '\n'
  String.ofList cs.reverse

/-- What reading up to the marker does, and how many bytes it takes. -/
structure Result where
  acts : List Act
  ending : Ending
  taken : Nat
  deriving DecidableEq, Repr

namespace Result

def only (e : Ending) : Result := ⟨[], e, 0⟩

/-- First do `act` and take `bytes` more. -/
def behind (act : List Act) (bytes : Nat) (r : Result) : Result :=
  ⟨act ++ r.acts, r.ending, bytes + r.taken⟩

end Result

/-- Read up to the marker. `echo` says whether an echo of the sync command is still to be
dropped. -/
def listen (command marker : String) (standing : Standing) : Bool → List Heard → Result
  | _, [] =>
    match standing with
    | .closed => .only (.fault (.ofText "interpreter exited"))
    | .broken e => .only (.fault (.ofSystem e))
    | .waiting | .busy => .only .hang
  | echo, .pause ms :: rest => (listen command marker standing echo rest).behind [.sleep ms] 0
  | echo, .line bytes :: rest =>
    match Text.ofUtf8? bytes with
    | none => .only (.fault (.ofSystem .badText))
    | some line =>
      if echo && unended line = command then
        (listen command marker standing false rest).behind [] bytes.length
      else
        match beforeMarker? marker line with
        | some head => ⟨[.emit head], .done, bytes.length⟩
        | none => (listen command marker standing echo rest).behind [.emit line] bytes.length

/-- Whether an echo of the sync command would be taken for the marker. -/
def echoes (command marker : String) : Bool := command != marker

end EngineBridge.Sync
