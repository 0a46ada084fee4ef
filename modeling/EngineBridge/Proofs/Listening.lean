import Mathlib.Data.List.Infix
import EngineBridge.Process.Sync
import EngineBridge.Text.Blank
import EngineBridge.Proofs.Turns

/-!
# Listening to a child

What is heard of a child depends on the bytes that it writes, and on nothing else: neither on how
they are divided nor on when they come. A text is heard line by line.
-/

namespace EngineBridge

namespace Text

/-- The complete lines, without their line feeds, and what comes after them. -/
def cut : List Char → List (List Char) × List Char
  | [] => ([], [])
  | c :: cs =>
    match cut cs with
    | ([], rest) => if c = '\n' then ([[]], rest) else ([], c :: rest)
    | (line :: lines, rest) =>
      if c = '\n' then ([] :: line :: lines, rest) else ((c :: line) :: lines, rest)

/-- Lines as they stand in a text. -/
def terminated (lines : List (List Char)) : List Char := lines.flatMap (· ++ ['\n'])

variable {cs a b : List Char} {lines : List (List Char)}

@[simp] theorem terminated_nil : terminated [] = [] := rfl

@[simp] theorem terminated_cons (line : List Char) :
    terminated (line :: lines) = line ++ '\n' :: terminated lines := by
  simp [terminated]

@[simp] theorem terminated_append (more : List (List Char)) :
    terminated (lines ++ more) = terminated lines ++ terminated more := by
  simp [terminated]

theorem cut_lineFeed_cons (cs : List Char) : cut ('\n' :: cs) = ([] :: (cut cs).1, (cut cs).2) := by
  rcases h : cut cs with ⟨_ | ⟨line, lines⟩, rest⟩ <;> simp [cut, h]

/-- Cutting loses nothing. -/
theorem terminated_cut (cs : List Char) : terminated (cut cs).1 ++ (cut cs).2 = cs := by
  induction cs with
  | nil => rfl
  | cons c cs ih =>
    rcases h : cut cs with ⟨_ | ⟨line, lines⟩, rest⟩ <;> rw [h] at ih <;>
      by_cases hc : c = '\n' <;> simp_all [cut]

theorem not_mem_cut (cs : List Char) :
    (∀ line ∈ (cut cs).1, '\n' ∉ line) ∧ '\n' ∉ (cut cs).2 := by
  induction cs with
  | nil => simp [cut]
  | cons c cs ih =>
    rcases h : cut cs with ⟨_ | ⟨line, lines⟩, rest⟩ <;> rw [h] at ih <;> grind [cut]

theorem cut_append (a b : List Char) :
    cut (a ++ b) = ((cut a).1 ++ (cut ((cut a).2 ++ b)).1, (cut ((cut a).2 ++ b)).2) := by
  induction a with
  | nil => rfl
  | cons c a ih =>
    rw [List.cons_append, cut, cut, ih]
    rcases h : cut a with ⟨_ | ⟨line, lines⟩, rest⟩ <;> by_cases hc : c = '\n'
    · subst hc
      rcases h' : cut (rest ++ b) with ⟨_ | ⟨l, ls⟩, t⟩ <;> simp [h']
    · simp [hc, cut]
    · simp [hc]
    · simp [hc]

theorem cut_of_not_mem (h : '\n' ∉ cs) : cut cs = ([], cs) := by
  induction cs with
  | nil => rfl
  | cons c cs ih =>
    obtain ⟨hc, hcs⟩ := not_or.1 (List.mem_cons.not.1 h)
    simp [cut, ih hcs, Ne.symm hc]

theorem cut_line (h : '\n' ∉ a) (b : List Char) :
    cut (a ++ '\n' :: b) = (a :: (cut b).1, (cut b).2) := by
  induction a with
  | nil => exact cut_lineFeed_cons b
  | cons c a ih =>
    obtain ⟨hc, ha⟩ := not_or.1 (List.mem_cons.not.1 h)
    simp [cut, ih ha, Ne.symm hc]

theorem dropEndWhile_of_forall {p : Char → Bool} (h : ∀ c ∈ cs, p c = false) :
    dropEndWhile p cs = cs := by
  rw [dropEndWhile]
  rcases List.eq_nil_or_concat cs with rfl | ⟨cs, c, rfl⟩
  · rfl
  · have hc := h c (by simp)
    simp [hc]

theorem cut_terminated (h : ∀ line ∈ lines, '\n' ∉ line) :
    cut (terminated lines) = (lines, []) := by
  induction lines with
  | nil => rfl
  | cons line lines ih =>
    obtain ⟨hline, hlines⟩ := List.forall_mem_cons.1 h
    rw [terminated_cons, cut_line hline, ih hlines]

/-- A byte below 128 stands for the character of that number, and is no part of another. -/
theorem toNat_of_mem_utf8EncodeChar {b : UInt8} {c : Char} (hb : b.toNat < 128)
    (h : b ∈ String.utf8EncodeChar c) : c.toNat = b.toNat := by
  have hnat : ∃ x ∈ String.utf8EncodeChar c, x.toNat = b.toNat := ⟨b, h, rfl⟩
  change c.val.toNat = b.toNat
  unfold String.utf8EncodeChar at hnat
  dsimp only at hnat
  split_ifs at hnat
  all_goals
    simp only [List.mem_cons, List.not_mem_nil, or_false, exists_eq_or_imp, exists_eq_left,
      UInt8.toNat_ofNat'] at hnat
    omega

theorem eq_of_lineFeed_mem {c : Char} (h : lineFeed ∈ String.utf8EncodeChar c) : c = '\n' := by
  have hnat : c.toNat = 10 := toNat_of_mem_utf8EncodeChar (by decide) h
  exact Char.ext (UInt32.toNat_inj.1 hnat)

theorem lineFeed_not_mem_utf8 (h : '\n' ∉ cs) : lineFeed ∉ utf8 (.ofList cs) := by
  rw [utf8_eq_flatMap, String.toList_ofList, List.mem_flatMap]
  rintro ⟨c, hc, hmem⟩
  exact h (eq_of_lineFeed_mem hmem ▸ hc)

theorem cutLines_of_not_mem {bytes : Bytes} (h : lineFeed ∉ bytes) :
    cutLines bytes = ([], bytes) := by
  induction bytes with
  | nil => rfl
  | cons b bytes ih =>
    obtain ⟨hb, hbytes⟩ := not_or.1 (List.mem_cons.not.1 h)
    change attach b (cutLines bytes) = _
    simp [ih hbytes, attach, Ne.symm hb]

theorem cutLines_line {bytes : Bytes} (h : lineFeed ∉ bytes) (more : Bytes) :
    cutLines (bytes ++ lineFeed :: more) =
      ((bytes ++ [lineFeed]) :: (cutLines more).1, (cutLines more).2) := by
  induction bytes with
  | nil =>
    change attach lineFeed (cutLines more) = _
    rcases cutLines more with ⟨_ | ⟨line, lines⟩, rest⟩ <;> simp [attach]
  | cons b bytes ih =>
    obtain ⟨hb, hbytes⟩ := not_or.1 (List.mem_cons.not.1 h)
    change attach b (cutLines (bytes ++ lineFeed :: more)) = _
    simp [ih hbytes, attach, Ne.symm hb]

/-- A line as it is heard. -/
def heardAs (line : List Char) : Bytes := utf8 (.ofList (line ++ ['\n']))

theorem heardAs_eq (line : List Char) : heardAs line = utf8 (.ofList line) ++ [lineFeed] := by
  rw [heardAs, String.ofList_append, utf8_append]
  rfl

theorem ofUtf8?_heardAs (line : List Char) :
    ofUtf8? (heardAs line) = some (.ofList (line ++ ['\n'])) :=
  ofUtf8?_utf8 _

theorem utf8_terminated (lines : List (List Char)) :
    utf8 (.ofList (terminated lines)) = lines.flatMap heardAs := by
  induction lines with
  | nil => rfl
  | cons line lines ih =>
    have hsplit : terminated (line :: lines) = (line ++ ['\n']) ++ terminated lines := by simp
    rw [hsplit, String.ofList_append, utf8_append, ih, List.flatMap_cons, heardAs]

private theorem cutLines_terminated {rest : List Char} (h : ∀ line ∈ lines, '\n' ∉ line)
    (hr : '\n' ∉ rest) :
    cutLines (utf8 (.ofList (terminated lines ++ rest))) =
      (lines.map heardAs, utf8 (.ofList rest)) := by
  induction lines with
  | nil => simpa using cutLines_of_not_mem (lineFeed_not_mem_utf8 hr)
  | cons line lines ih =>
    obtain ⟨hline, hlines⟩ := List.forall_mem_cons.1 h
    have hbytes : utf8 (.ofList (terminated (line :: lines) ++ rest)) =
        utf8 (.ofList line) ++ lineFeed :: utf8 (.ofList (terminated lines ++ rest)) := by
      rw [String.ofList_append, utf8_append, utf8_terminated, List.flatMap_cons, heardAs_eq,
        ← utf8_terminated, String.ofList_append, utf8_append]
      simp
    rw [hbytes, cutLines_line (lineFeed_not_mem_utf8 hline), ih hlines, List.map_cons, heardAs_eq]

/-- The lines of a text are the texts of its lines. -/
theorem cutLines_utf8 (cs : List Char) :
    cutLines (utf8 (.ofList cs)) = ((cut cs).1.map heardAs, utf8 (.ofList (cut cs).2)) := by
  obtain ⟨hlines, hrest⟩ := not_mem_cut cs
  conv_lhs => rw [← terminated_cut cs]
  exact cutLines_terminated hlines hrest

end Text

open Text (Bytes)

def Emission.written : Emission → Bytes
  | .bytes b => b
  | .pause _ => []

def Heard.line? : Heard → Option Bytes
  | .line b => some b
  | .pause _ => none

namespace Timeline

def written (emissions : List Emission) : Bytes := emissions.flatMap Emission.written

theorem written_unread (taken : Nat) (emissions : List Emission) :
    written (unread taken emissions) = (written emissions).drop taken := by
  fun_induction unread taken emissions with
  | case1 => simp [written]
  | case2 ms rest => simp
  | case3 taken ms rest h ih => simpa [written, Emission.written] using ih
  | case4 taken b rest h ih =>
    simp only [written, List.flatMap_cons, Emission.written] at ih ⊢
    rw [ih, List.drop_append, List.drop_of_length_le h, List.nil_append]
  | case5 taken b rest h =>
    simp only [written, List.flatMap_cons, Emission.written]
    rw [List.drop_append_of_le_length (by omega)]

/-- What is heard is what has been written, in lines. -/
theorem lines_heard (closed : Bool) {carry : Bytes} (h : (Text.cutLines carry).1 = [])
    (emissions : List Emission) :
    (heard closed carry emissions).filterMap Heard.line? =
      let cut := Text.cutLines (carry ++ written emissions)
      cut.1 ++ if closed && !cut.2.isEmpty then [cut.2] else [] := by
  induction emissions generalizing carry with
  | nil =>
    have htail : (Text.cutLines carry).2 = carry := by simpa [h] using Text.flatten_cutLines carry
    simp only [heard, written, List.flatMap_nil, List.append_nil, h, htail, List.nil_append]
    split <;> rfl
  | cons emission rest ih =>
    cases emission with
    | pause ms => exact ih h
    | bytes b =>
      have hkept : (((Text.cutLines (carry ++ b)).1).map Heard.line).filterMap Heard.line? =
          (Text.cutLines (carry ++ b)).1 := by
        rw [List.filterMap_map]
        exact List.filterMap_some
      have hwhole : carry ++ written (.bytes b :: rest) = carry ++ b ++ written rest := by
        simp [written, Emission.written]
      simp only [heard, List.filterMap_append, hkept, ih (Text.cutLines_tail _), hwhole]
      rw [Text.cutLines_append (carry ++ b)]
      simp

/-- A child that has not ended is heard up to its last line feed. -/
theorem lines_after {t : Timeline} (h : t.standing ≠ .closed) (taken : Nat) :
    (t.after taken).filterMap Heard.line? =
      (Text.cutLines ((written t.emissions).drop taken)).1 := by
  rw [after, lines_heard _ rfl, List.nil_append, written_unread]
  simp [h]

end Timeline

namespace Sync

variable {command marker : String} {standing : Standing} {echo : Bool}

/-- Pauses make reading longer, but do not change what is read. -/
theorem listen_lines (command marker : String) (standing : Standing) (echo : Bool)
    (heard : List Heard) :
    let r := listen command marker standing echo heard
    let r' := listen command marker standing echo ((heard.filterMap Heard.line?).map .line)
    r.ending = r'.ending ∧ r.taken = r'.taken ∧
      Script.printed r.acts = Script.printed r'.acts := by
  induction heard generalizing echo with
  | nil => exact ⟨rfl, rfl, rfl⟩
  | cons x rest ih =>
    cases x with
    | pause ms =>
      obtain ⟨hending, htaken, hprinted⟩ := ih echo
      simpa [listen, Result.behind, Heard.line?, Act.text] using ⟨hending, htaken, hprinted⟩
    | line bytes =>
      simp only [List.filterMap_cons, Heard.line?, List.map_cons, listen]
      cases Text.ofUtf8? bytes with
      | none => exact ⟨rfl, rfl, rfl⟩
      | some line =>
        dsimp only
        split
        · obtain ⟨hending, htaken, hprinted⟩ := ih false
          simpa [Result.behind] using ⟨hending, htaken, hprinted⟩
        · cases beforeMarker? marker line with
          | some head => exact ⟨rfl, rfl, rfl⟩
          | none =>
            obtain ⟨hending, htaken, hprinted⟩ := ih echo
            simpa [Result.behind] using ⟨hending, htaken, hprinted⟩

/-- The marker begins nowhere before the end of `head`. -/
def First (marker head whole : List Char) : Prop :=
  ∀ a b, whole = a ++ (marker ++ b) → head.length ≤ a.length

/-- What does not contain the first character of the marker does not contain a part of it. -/
theorem first_of_not_mem {c : Char} {m head : List Char} (h : c ∉ head) (tail : List Char) :
    First (c :: m) head (head ++ tail) := by
  intro a b hwhole
  rcases List.append_eq_append_iff.1 hwhole with ⟨k, rfl, -⟩ | ⟨k, rfl, hk⟩
  · simp
  · cases k with
    | nil => simp
    | cons x k =>
      obtain rfl : c = x := by simpa using (List.cons.inj hk).1
      simp at h

theorem before?_of_first {m head tail : List Char} (h : First m head (head ++ (m ++ tail))) :
    before? m [] (head ++ (m ++ tail)) = some head := by
  cases hb : before? m [] (head ++ (m ++ tail)) with
  | none =>
    have hinfix : m <:+: head ++ (m ++ tail) := ⟨head, tail, by simp⟩
    exact absurd hinfix (before?_eq_none_iff.1 hb)
  | some found =>
    have hle : found.length ≤ head.length := by simpa using length_le_of_before? hb rfl
    obtain ⟨a, b, hfound, hwhole⟩ := eq_of_before? hb
    obtain rfl : found = a := by simpa using hfound
    have hlength : head.length = found.length := Nat.le_antisymm (h found b hwhole) hle
    rw [(List.append_inj hwhole hlength).1]

theorem prefix_of_prefix_append_cons {m a b : List Char} {c : Char} (hm : c ∉ m)
    (h : m <+: a ++ c :: b) : m <+: a := by
  have hc : a ++ [c] <+: a ++ c :: b := ⟨b, by simp⟩
  rcases List.prefix_or_prefix_of_prefix h hc with hshort | hlong
  · rcases List.prefix_concat_iff.1 hshort with rfl | ha
    · simp at hm
    · exact ha
  · exact absurd (hlong.subset (by simp)) hm

/-- An occurrence of `m` does not reach a character that is not in it. -/
theorem infix_append_cons {m a b : List Char} {c : Char} (hm : c ∉ m) (h : m <:+: a ++ c :: b) :
    m <:+: a ∨ m <:+: b := by
  induction a with
  | nil =>
    rcases List.infix_cons_iff.1 h with h | h
    · exact .inl (prefix_of_prefix_append_cons hm (a := []) h).isInfix
    · exact .inr h
  | cons x a ih =>
    rcases List.infix_cons_iff.1 h with h | h
    · exact .inl (prefix_of_prefix_append_cons hm (a := x :: a) h).isInfix
    · exact (ih h).imp_left List.infix_cons

theorem infix_concat_iff {m line : List Char} {c : Char} (hm : c ∉ m) :
    m <:+: line ++ [c] ↔ m <:+: line := by
  refine ⟨fun h => ?_, fun h => h.trans (List.infix_append' [] line [c])⟩
  rcases infix_append_cons hm h with h | h
  · exact h
  · rw [List.infix_nil.1 h]
    exact List.nil_infix

theorem infix_dropEndWhile {m line : List Char} {c : Char} (hm : c ∉ m) (h : m <:+: line) :
    m <:+: Text.dropEndWhile (· = c) line := by
  induction line using List.reverseRecOn with
  | nil => exact h
  | append_singleton line x ih =>
    by_cases hx : x = c
    · subst hx
      simpa [Text.dropEndWhile] using ih ((infix_concat_iff hm).1 h)
    · simpa [Text.dropEndWhile, hx] using h

theorem First.line {m head tail : List Char} (h : First m head (head ++ (m ++ tail))) :
    First m head (head ++ (m ++ (tail ++ ['\n']))) := by
  intro a b hwhole
  rcases List.eq_nil_or_concat b with rfl | ⟨b, c, rfl⟩
  · have hlength := congrArg List.length hwhole
    simp only [List.length_append, List.length_nil, List.length_singleton] at hlength
    omega
  · rw [List.concat_eq_append] at hwhole
    have hwhole' : head ++ (m ++ tail) ++ ['\n'] = a ++ (m ++ b) ++ [c] := by simpa using hwhole
    exact h a b (List.append_inj' hwhole' rfl).1

theorem unended_line {line : List Char} (h : '\n' ∉ line) :
    unended (.ofList (line ++ ['\n'])) = .ofList (Text.dropEndWhile (· = '\r') line) := by
  have hdrop (cs : List Char) (hcs : '\n' ∉ cs) :
      (cs.dropWhile fun c => c = '\r' || c = '\n') = cs.dropWhile (· = '\r') := by
    induction cs with
    | nil => rfl
    | cons c cs ih =>
      obtain ⟨hc, hcs⟩ := not_or.1 (List.mem_cons.not.1 hcs)
      simp [List.dropWhile_cons, ih hcs, Ne.symm hc]
  have hline := hdrop line.reverse (by simpa using h)
  simp [unended, Text.dropEndWhile, hline]

/-- A line that is output of a command, while an echo is expected or not. -/
def Tame (command marker : String) (echo : Bool) (line : List Char) : Prop :=
  ¬ marker.toList <:+: line ∧
    (echo = true → Text.dropEndWhile (· = '\r') line ≠ command.toList)

theorem isEcho_eq_false {line : List Char} (hl : '\n' ∉ line)
    (h : echo = true → Text.dropEndWhile (· = '\r') line ≠ command.toList) :
    (echo && unended (.ofList (line ++ ['\n'])) == command) = false := by
  rw [unended_line hl]
  cases echo with
  | false => rfl
  | true =>
    have hne := h rfl
    simpa [String.ext_iff] using hne

theorem listen_tame {line : List Char} (hm : '\n' ∉ marker.toList) (hl : '\n' ∉ line)
    (h : Tame command marker echo line) (rest : List Heard) :
    listen command marker standing echo (.line (Text.heardAs line) :: rest) =
      (listen command marker standing echo rest).behind
        [.emit (.ofList (line ++ ['\n']))] (Text.heardAs line).length := by
  have hecho := isEcho_eq_false hl h.2
  have hmarker : beforeMarker? marker (.ofList (line ++ ['\n'])) = none := by
    rw [beforeMarker?, String.toList_ofList, before?_eq_none_iff.2]
    · rfl
    · rw [infix_concat_iff hm]
      exact h.1
  simp only [listen, Text.ofUtf8?_heardAs, hmarker]
  simp_all

theorem Result.behind_behind (r : Result) (a b : List Act) (m n : Nat) :
    (r.behind a m).behind b n = r.behind (b ++ a) (n + m) := by
  simp [Result.behind, Nat.add_assoc]

/-- Lines that can be taken neither for an echo nor for the marker are output. -/
theorem listen_tame_append {lines : List (List Char)} (hm : '\n' ∉ marker.toList)
    (h : ∀ line ∈ lines, '\n' ∉ line ∧ Tame command marker echo line) (rest : List Heard) :
    listen command marker standing echo (lines.map (.line ∘ Text.heardAs) ++ rest) =
      (listen command marker standing echo rest).behind
        (lines.map fun line => .emit (.ofList (line ++ ['\n'])))
        (lines.flatMap Text.heardAs).length := by
  induction lines with
  | nil => simp [Result.behind]
  | cons line lines ih =>
    obtain ⟨⟨hn, ht⟩, hlines⟩ := List.forall_mem_cons.1 h
    rw [List.map_cons, List.cons_append, Function.comp_apply, listen_tame hm hn ht, ih hlines,
      Result.behind_behind, List.flatMap_cons, List.length_append]
    rfl

theorem printed_lines (lines : List (List Char)) :
    Script.printed (lines.map fun line => .emit (.ofList (line ++ ['\n']))) =
      .ofList (Text.terminated lines) := by
  induction lines with
  | nil => rfl
  | cons line lines ih => simp [ih, Act.text, ← String.ofList_append]

theorem listen_echoed (hn : '\n' ∉ command.toList) (hr : '\r' ∉ command.toList)
    (rest : List Heard) :
    listen command marker standing true (.line (Text.heardAs command.toList) :: rest) =
      (listen command marker standing false rest).behind []
        (Text.heardAs command.toList).length := by
  have hsame : unended (.ofList (command.toList ++ ['\n'])) = command := by
    rw [unended_line hn, Text.dropEndWhile_of_forall, String.ofList_toList]
    intro c hc
    simpa using fun h : c = '\r' => hr (h ▸ hc)
  simp only [listen, Text.ofUtf8?_heardAs, hsame]
  simp

theorem listen_marked {head tail : List Char}
    (hn : '\n' ∉ head ++ (marker.toList ++ tail))
    (hfirst : First marker.toList head (head ++ (marker.toList ++ tail)))
    (hecho : echo = true → Text.dropEndWhile (· = '\r') (head ++ (marker.toList ++ tail)) ≠
      command.toList) (rest : List Heard) :
    listen command marker standing echo
        (.line (Text.heardAs (head ++ (marker.toList ++ tail))) :: rest) =
      ⟨[.emit (.ofList head)], .done,
        (Text.heardAs (head ++ (marker.toList ++ tail))).length⟩ := by
  have hecho := isEcho_eq_false hn hecho
  have hmarker : beforeMarker? marker (.ofList (head ++ (marker.toList ++ tail) ++ ['\n'])) =
      some (.ofList head) := by
    have hbefore := before?_of_first hfirst.line
    rw [beforeMarker?, String.toList_ofList, List.append_assoc, List.append_assoc, hbefore]
    rfl
  simp only [listen, Text.ofUtf8?_heardAs, hmarker]
  simp_all

end Sync

end EngineBridge
