import EngineBridge.Text.Bytes

/-!
# Lines of a byte stream

Bytes are cut after each line feed; a nonempty rest at the end of the stream is a line too. A line
that is not valid UTF-8 ends the reading.
-/

namespace EngineBridge.Text

/-- The line feed. -/
def lineFeed : UInt8 := 10

/-- The carriage return. -/
def carriageReturn : UInt8 := 13

/-- Put a byte in front of lines that have been cut from what follows it. -/
def attach (b : UInt8) : List Bytes × Bytes → List Bytes × Bytes
  | ([], tail) => if b = lineFeed then ([[b]], tail) else ([], b :: tail)
  | (line :: lines, tail) =>
    if b = lineFeed then ([b] :: line :: lines, tail) else ((b :: line) :: lines, tail)

/-- The complete lines, each with its line feed, and the unterminated rest. -/
def cutLines (bytes : Bytes) : List Bytes × Bytes := bytes.foldr attach ([], [])

/-- Cutting loses nothing. -/
theorem flatten_cutLines (bytes : Bytes) :
    (cutLines bytes).1.flatten ++ (cutLines bytes).2 = bytes := by
  induction bytes with
  | nil => rfl
  | cons b rest ih =>
    change (attach b (cutLines rest)).1.flatten ++ (attach b (cutLines rest)).2 = b :: rest
    rcases h : cutLines rest with ⟨_ | ⟨line, lines⟩, tail⟩ <;> rw [h] at ih <;>
      by_cases hb : b = lineFeed <;> simp_all [attach]

/-- Where the bytes are divided does not matter: what is left after a cut goes in front of the
next bytes. -/
theorem cutLines_append (a b : Bytes) :
    cutLines (a ++ b) =
      ((cutLines a).1 ++ (cutLines ((cutLines a).2 ++ b)).1,
        (cutLines ((cutLines a).2 ++ b)).2) := by
  induction a with
  | nil => rfl
  | cons x rest ih =>
    have step (cs : Bytes) : cutLines (x :: cs) = attach x (cutLines cs) := rfl
    rw [List.cons_append, step, step, ih]
    rcases h : cutLines rest with ⟨_ | ⟨line, lines⟩, tail⟩ <;> by_cases hx : x = lineFeed
    · rcases h' : cutLines (tail ++ b) with ⟨_ | ⟨l, ls⟩, t⟩ <;> simp [attach, hx, h']
    · simp [attach, hx, step]
    · simp [attach, hx]
    · simp [attach, hx]

/-- There is no line in what is left after a cut. -/
theorem cutLines_tail (bytes : Bytes) : (cutLines (cutLines bytes).2).1 = [] := by
  have hcut := cutLines_append bytes []
  rw [List.append_nil, List.append_nil] at hcut
  simpa using congrArg Prod.fst hcut

/-- A line without its line feed and without one carriage return directly before that. -/
def chomp (line : Bytes) : Bytes :=
  match line.reverse with
  | lf :: cr :: rest =>
    if lf = lineFeed then
      if cr = carriageReturn then rest.reverse else (cr :: rest).reverse
    else line
  | [lf] => if lf = lineFeed then [] else line
  | [] => []

/-- The texts of the lines, up to the first that is not valid UTF-8, and whether all were. -/
def readable : List Bytes → List String × Bool
  | [] => ([], true)
  | line :: lines =>
    match ofUtf8? (chomp line) with
    | none => ([], false)
    | some text =>
      let (texts, whole) := readable lines
      (text :: texts, whole)

end EngineBridge.Text
