import Mathlib.Algebra.Group.Int.Defs
import Mathlib.Algebra.Group.Nat.Defs
import EngineBridge.Json.Printer
import EngineBridge.Json.Reader
import EngineBridge.Text.Blank

/-!
# Reading back what has been written

The compact text of a value is read as the same value, if its numbers are integers and it does not
nest too deep. The members of an object come back in the order of their keys.
-/

namespace EngineBridge

namespace Json

mutual

/-- The value with the members of its objects in the order of their keys, one for each key. -/
def ordered : Json → Json
  | .array items => .array (orderedItems items)
  | .object members => .object (ofMembers (orderedMembers members))
  | j => j

def orderedItems : List Json → List Json
  | [] => []
  | x :: xs => ordered x :: orderedItems xs

def orderedMembers : List (String × Json) → List (String × Json)
  | [] => []
  | (k, v) :: rest => (k, ordered v) :: orderedMembers rest

end

/-- The value nests no deeper than that, and its numbers are integers of a 64-bit word, signed or
unsigned. -/
inductive Plain : Nat → Json → Prop
  | null {depth : Nat} : Plain depth .null
  | bool {depth : Nat} (b : Bool) : Plain depth (.bool b)
  | integer {depth : Nat} {n : Int} (least : -2 ^ 63 ≤ n) (below : n < 2 ^ 64) :
    Plain depth (.number (.integer n))
  | text {depth : Nat} (s : String) : Plain depth (.text s)
  | array {depth : Nat} {items : List Json} (h : ∀ x ∈ items, Plain depth x) :
    Plain (depth + 1) (.array items)
  | object {depth : Nat} {members : List (String × Json)} (h : ∀ m ∈ members, Plain depth m.2) :
    Plain (depth + 1) (.object members)

theorem write_ofNat (n : Nat) : Number.write (.integer (.ofNat n)) = Nat.toDigits 10 n := by
  change (Int.repr (.ofNat n)).toList = _
  exact Nat.toList_repr

theorem write_negSucc (n : Nat) :
    Number.write (.integer (.negSucc n)) = '-' :: Nat.toDigits 10 (n + 1) := by
  change (Int.repr (.negSucc n)).toList = _
  simp [Int.repr, Nat.toList_repr]

/-- Only zero begins with a zero. -/
theorem toDigits_of_pos {n : Nat} (h : 0 < n) :
    ∃ d ds, Nat.toDigits 10 n = Nat.digitChar d :: ds ∧ 0 < d ∧ d < 10 := by
  induction n using Nat.strongRecOn with
  | ind n ih =>
    by_cases hn : n < 10
    · exact ⟨n, [], Nat.toDigits_of_lt_base hn, h, hn⟩
    · obtain ⟨d, ds, hds, hd⟩ := ih (n / 10) (by omega) (by omega)
      rw [Nat.toDigits_of_base_le (by decide) (by omega), hds]
      exact ⟨d, _, rfl, hd⟩

theorem toDigits_cons (n : Nat) : ∃ d ds, Nat.toDigits 10 n = Nat.digitChar d :: ds ∧ d < 10 := by
  by_cases hn : 0 < n
  · obtain ⟨d, ds, hds, -, hd⟩ := toDigits_of_pos hn
    exact ⟨d, ds, hds, hd⟩
  · obtain rfl : n = 0 := by omega
    exact ⟨0, [], rfl, by decide⟩

namespace Reader

variable {rest : List Char} {fuel depth : Nat}

private theorem length_le_byteLength (cs : List Char) : cs.length ≤ byteLength cs := by
  suffices h : ∀ n, n + cs.length ≤ cs.foldl (fun n c => n + c.utf8Size) n by
    simpa [byteLength] using h 0
  induction cs with
  | nil => exact Nat.le_refl
  | cons c cs ih =>
    intro n
    have hpos := c.utf8Size_pos
    have hrest := ih (n + c.utf8Size)
    rw [List.foldl_cons, List.length_cons]
    omega

theorem hexUnit_four {a b c d : Char} {i j k l : Nat} (ha : Text.hexDigit? a = some i)
    (hb : Text.hexDigit? b = some j) (hc : Text.hexDigit? c = some k)
    (hd : Text.hexDigit? d = some l) (rest : List Char) :
    hexUnit (a :: b :: c :: d :: rest) = .ok (((i * 16 + j) * 16 + k) * 16 + l, rest) := by
  have hlength := length_le_byteLength (a :: b :: c :: d :: rest)
  have hfits : ¬ byteLength (a :: b :: c :: d :: rest) < 4 := by
    simp only [List.length_cons] at hlength
    omega
  simp only [hexUnit, hfits, if_false, ha, hb, hc, hd]

private theorem fourHexDigits_control : ∀ n < 0x20,
    fourHexDigits n = ['0', '0', Nat.digitChar (n / 16), Nat.digitChar (n % 16)] ∧
      Text.hexDigit? (Nat.digitChar (n / 16)) = some (n / 16) ∧
      Text.hexDigit? (Nat.digitChar (n % 16)) = some (n % 16) := by
  decide

theorem unicodeEscape_control {c : Char} (h : c.toNat < 0x20) (rest : List Char) :
    unicodeEscape (fourHexDigits c.toNat ++ rest) = .ok (c, rest) := by
  obtain ⟨hdigits, hhigh, hlow⟩ := fourHexDigits_control c.toNat h
  have hunit : hexUnit (fourHexDigits c.toNat ++ rest) = .ok (c.toNat, rest) := by
    have hzero : Text.hexDigit? '0' = some 0 := rfl
    have hfour := hexUnit_four hzero hzero hhigh hlow rest
    have hn : ((0 * 16 + 0) * 16 + c.toNat / 16) * 16 + c.toNat % 16 = c.toNat := by omega
    rw [hn] at hfour
    rw [hdigits]
    exact hfour
  have hnotLow : isLowSurrogate c.toNat = false := by
    simp only [isLowSurrogate, Bool.and_eq_false_iff, decide_eq_false_iff_not]
    omega
  have hnotHigh : isHighSurrogate c.toNat = false := by
    simp only [isHighSurrogate, Bool.and_eq_false_iff, decide_eq_false_iff_not]
    omega
  simp [unicodeEscape, hunit, hnotLow, hnotHigh, Char.ofNat_toNat]

/-- What is written for a character is read as that character. -/
theorem textBody_escapeChar (c : Char) (done rest : List Char) :
    textBody (fuel + 1) done (escapeChar c ++ rest) = textBody fuel (c :: done) rest := by
  unfold escapeChar
  split
  · simp [textBody, escaped]
  · simp [textBody, escaped]
  · simp [textBody, escaped]
  · simp [textBody, escaped]
  · simp [textBody, escaped]
  next hquote hslash _ _ _ =>
    have hquote : c ≠ '"' := hquote
    have hslash : c ≠ '\\' := hslash
    split
    next hc =>
      obtain rfl : c = '\x08' := by rw [← Char.ofNat_toNat c, hc]
      simp [textBody, escaped]
    split
    next hc =>
      obtain rfl : c = '\x0c' := by rw [← Char.ofNat_toNat c, hc]
      simp [textBody, escaped]
    split
    next hc => simp [textBody, escaped, unicodeEscape_control hc]
    next hc =>
      change textBody (fuel + 1) done (c :: rest) = _
      simp only [textBody, hquote, hslash, hc, if_false]

theorem textBody_flatMap (cs done : List Char) (h : cs.length < fuel) :
    textBody fuel done (cs.flatMap escapeChar ++ '"' :: rest) =
      .ok (String.ofList (done.reverse ++ cs), rest) := by
  induction cs generalizing fuel done with
  | nil =>
    obtain ⟨fuel, rfl⟩ := Nat.exists_eq_succ_of_ne_zero (Nat.ne_of_gt h)
    simp [textBody]
  | cons c cs ih =>
    obtain ⟨fuel, rfl⟩ := Nat.exists_eq_succ_of_ne_zero (Nat.ne_of_gt (Nat.zero_lt_of_lt h))
    rw [List.flatMap_cons, List.append_assoc, textBody_escapeChar, ih]
    · simp
    · simpa using h

private theorem length_le_flatMap (cs : List Char) :
    cs.length ≤ (cs.flatMap escapeChar).length := by
  have hpos (c : Char) : 0 < (escapeChar c).length := by
    unfold escapeChar
    grind
  induction cs with
  | nil => exact Nat.le_refl 0
  | cons c cs ih =>
    have hc := hpos c
    rw [List.flatMap_cons, List.length_append, List.length_cons]
    omega

/-- A text is read to its closing quote. -/
theorem text_written (s : String) (rest : List Char) :
    text (s.toList.flatMap escapeChar ++ '"' :: rest) = .ok (s, rest) := by
  have hlength := length_le_flatMap s.toList
  rw [text, textBody_flatMap]
  · simp
  · simp only [List.length_append, List.length_cons]
    omega

/-- What may stand behind a value: nothing, or what ends it. -/
def Closes : List Char → Prop
  | [] => True
  | c :: _ => c = ',' ∨ c = ']' ∨ c = '\x7d'

theorem Closes.significand_eq (h : Closes rest) (n count : Nat) :
    significand n count rest = (n, count, rest) := by
  cases rest with
  | nil => rfl
  | cons c rest =>
    have hdigit : digit? c = none := by
      rcases h with rfl | rfl | rfl <;> rfl
    simp [significand, hdigit]

theorem Closes.span_isDigit (h : Closes rest) :
    rest.takeWhile Char.isDigit = [] ∧ rest.dropWhile Char.isDigit = rest ∧
      startsWithDigit rest = false := by
  cases rest with
  | nil => exact ⟨rfl, rfl, rfl⟩
  | cons c rest => rcases h with rfl | rfl | rfl <;> exact ⟨rfl, rfl, rfl⟩

theorem Closes.afterInteger_eq (h : Closes rest) (negative : Bool) (n : Nat) :
    afterInteger negative n 0 true rest =
      if ¬negative then .ok (.integer n, rest)
      else if 0 < n ∧ n ≤ Nat.pow 2 63 then .ok (.integer (-n), rest)
      else real true n 0 rest := by
  cases rest with
  | nil => rfl
  | cons c rest => rcases h with rfl | rfl | rfl <;> rfl

theorem digit?_digitChar : ∀ d < 10, digit? (Nat.digitChar d) = some d := by decide

theorem significand_toDigits {n : Nat} (h : n < wordLimit) (rest : List Char) :
    significand 0 0 (Nat.toDigits 10 n ++ rest) =
      significand n (Nat.toDigits 10 n).length rest := by
  induction n using Nat.strongRecOn generalizing rest with
  | ind n ih =>
    by_cases hn : n < 10
    · have hd := digit?_digitChar n hn
      simp [Nat.toDigits_of_lt_base hn, significand, hd, h]
    · have hd := digit?_digitChar (n % 10) (Nat.mod_lt n (by decide))
      have hquotient : n / 10 < n := by omega
      have hwhole : n / 10 * 10 + n % 10 = n := by omega
      rw [Nat.toDigits_of_base_le (by decide) (by omega), List.append_assoc,
        ih (n / 10) hquotient (by omega)]
      simp [significand, hd, hwhole, h]

theorem number_toDigits {n : Nat} (h : n < wordLimit) (negative : Bool) (hrest : Closes rest) :
    number negative (Nat.toDigits 10 n ++ rest) = afterInteger negative n 0 true rest := by
  obtain ⟨htake, hdrop, hstart⟩ := hrest.span_isDigit
  -- A zero in front is read on its own, and no digit may follow it.
  by_cases hn : 0 < n
  · obtain ⟨d, ds, hds, hpos, hd⟩ := toDigits_of_pos hn
    have hvalue := significand_toDigits h rest
    rw [hrest.significand_eq, hds, List.cons_append] at hvalue
    rw [hds, List.cons_append, number.eq_def]
    split
    next hnil => cases hnil
    next hzero =>
      have hfirst : Nat.digitChar d = '0' := (List.cons.inj hzero).1
      exact absurd (Nat.digitChar_eq_zero.1 hfirst) (Nat.ne_of_gt hpos)
    next hcons =>
      obtain ⟨rfl, rfl⟩ := List.cons.inj hcons
      simp [digit?_digitChar d hd, hvalue, htake, hdrop]
  · obtain rfl : n = 0 := by omega
    simp [number, hstart]

/-- A value that begins with a digit is a number. -/
theorem value_digitChar {d : Nat} (h : d < 10) (cs : List Char) :
    value (fuel + 1) depth (Nat.digitChar d :: cs) =
      (number false (Nat.digitChar d :: cs)).map fun (n, rest) => (.number n, rest) := by
  have hcases : d = 0 ∨ d = 1 ∨ d = 2 ∨ d = 3 ∨ d = 4 ∨ d = 5 ∨ d = 6 ∨ d = 7 ∨ d = 8 ∨ d = 9 := by
    omega
  rcases hcases with rfl | rfl | rfl | rfl | rfl | rfl | rfl | rfl | rfl | rfl <;> rfl

theorem value_integer {n : Int} (hleast : -2 ^ 63 ≤ n) (hbelow : n < 2 ^ 64)
    (hrest : Closes rest) :
    value (fuel + 1) depth (Number.write (.integer n) ++ rest) =
      .ok (.number (.integer n), rest) := by
  have hlimit : wordLimit = 2 ^ 64 := rfl
  cases n with
  | ofNat m =>
    rw [Int.ofNat_eq_natCast] at hbelow
    have hnumber := number_toDigits (n := m) (by omega) false hrest
    obtain ⟨d, ds, hds, hd⟩ := toDigits_cons m
    rw [hrest.afterInteger_eq, hds] at hnumber
    rw [write_ofNat, hds, List.cons_append, value_digitChar hd, ← List.cons_append, hnumber]
    rfl
  | negSucc m =>
    have hnumber := number_toDigits (n := m + 1) (by omega) true hrest
    have hm : m + 1 ≤ Nat.pow 2 63 := by
      change m + 1 ≤ 2 ^ 63
      omega
    rw [hrest.afterInteger_eq, if_neg (by decide), if_pos ⟨Nat.succ_pos m, hm⟩] at hnumber
    rw [write_negSucc, List.cons_append]
    change (number true _).map _ = _
    rw [hnumber]
    rfl

theorem isSpace_of_not_blank {c : Char} (h : Text.isBlank c = false) : isSpace c = false := by
  cases hspace : isSpace c with
  | false => rfl
  | true =>
    simp only [isSpace, Bool.or_eq_true, beq_iff_eq] at hspace
    rcases hspace with ((rfl | rfl) | rfl) | rfl <;> cases h

/-- The text of a value begins neither with a blank nor with a closing bracket. -/
theorem exists_write_cons {j : Json} (h : Plain depth j) :
    ∃ c cs, write j = c :: cs ∧ Text.isBlank c = false ∧ c ≠ ']' := by
  cases h with
  | null => exact ⟨_, _, rfl, rfl, by decide⟩
  | bool b => cases b <;> exact ⟨_, _, rfl, rfl, by decide⟩
  | @integer _ n _ _ =>
    rw [write]
    cases n with
    | ofNat m =>
      have hdigit : ∀ d < 10, Text.isBlank (Nat.digitChar d) = false ∧ Nat.digitChar d ≠ ']' := by
        decide
      obtain ⟨d, ds, hds, hd⟩ := toDigits_cons m
      rw [write_ofNat, hds]
      exact ⟨_, _, rfl, hdigit d hd⟩
    | negSucc m =>
      rw [write_negSucc]
      exact ⟨_, _, rfl, rfl, by decide⟩
  | text s => exact ⟨_, _, rfl, rfl, by decide⟩
  | @array _ items _ => cases items <;> exact ⟨_, _, rfl, rfl, by decide⟩
  | @object _ members _ => cases members <;> exact ⟨_, _, rfl, rfl, by decide⟩

/-- Whatever closes it, the value is read at the depth. -/
def ReadsBack (depth : Nat) (j : Json) : Prop :=
  ∀ fuel rest, Closes rest → 2 * (write j).length ≤ fuel →
    value fuel (depth + 1) (write j ++ rest) = .ok (ordered j, rest)

theorem closes_writeItems (xs : List Json) (rest : List Char) : Closes (writeItems xs ++ rest) := by
  cases xs with
  | nil => exact .inr (.inl rfl)
  | cons x xs => exact .inl rfl

theorem closes_writeMembers (ms : List (String × Json)) (rest : List Char) :
    Closes (writeMembers ms ++ rest) := by
  cases ms with
  | nil => exact .inr (.inr rfl)
  | cons m ms => exact .inl rfl

variable {cs : List Char} {v : Json}

theorem value_array {c : Char} (hspace : isSpace c = false) (hc : c ≠ ']') :
    value (fuel + 1) (depth + 2) ('[' :: c :: cs) = items fuel (depth + 1) [] (c :: cs) := by
  have hbracket : isSpace '[' = false := rfl
  simp [value, skipSpace, hspace, hbracket, hc]

theorem value_object :
    value (fuel + 1) (depth + 2) ('\x7b' :: '"' :: cs) = members fuel (depth + 1) [] cs := by
  simp [value, skipSpace, isSpace]

theorem items_last (done : List Json) (h : value fuel depth cs = .ok (v, ']' :: rest)) :
    items (fuel + 1) depth done cs = .ok (.array (done.reverse ++ [v]), rest) := by
  rw [items, h]
  simp [skipSpace, isSpace]

theorem items_next {c : Char} (done : List Json) (hspace : isSpace c = false) (hc : c ≠ ']')
    (h : value fuel depth cs = .ok (v, ',' :: c :: rest)) :
    items (fuel + 1) depth done cs = items fuel depth (v :: done) (c :: rest) := by
  have hcomma : isSpace ',' = false := rfl
  rw [items, h]
  simp [skipSpace, hspace, hcomma, hc]

theorem members_last {key : String} (done : List (String × Json))
    (h : value fuel depth cs = .ok (v, '\x7d' :: rest)) :
    members (fuel + 1) depth done (key.toList.flatMap escapeChar ++ '"' :: ':' :: cs) =
      .ok (.object (ofMembers (done.reverse ++ [(key, v)])), rest) := by
  rw [members, text_written]
  simp [colon, skipSpace, isSpace, h]

theorem members_next {key : String} (done : List (String × Json))
    (h : value fuel depth cs = .ok (v, ',' :: '"' :: rest)) :
    members (fuel + 1) depth done (key.toList.flatMap escapeChar ++ '"' :: ':' :: cs) =
      members fuel depth ((key, v) :: done) rest := by
  rw [members, text_written]
  simp [colon, skipSpace, isSpace, h]

theorem items_written {x : Json} {xs : List Json} (done : List Json) (rest : List Char)
    (hplain : ∀ y ∈ x :: xs, Plain depth y)
    (h : ∀ y ∈ x :: xs, ReadsBack depth y)
    (hfuel : 2 * (write x ++ writeItems xs).length ≤ fuel) :
    items fuel (depth + 1) done (write x ++ (writeItems xs ++ rest)) =
      .ok (.array (done.reverse ++ orderedItems (x :: xs)), rest) := by
  induction xs generalizing x fuel done with
  | nil =>
    simp only [writeItems, List.length_append, List.length_cons, List.length_nil] at hfuel
    obtain ⟨fuel, rfl⟩ : ∃ k, fuel = k + 1 := ⟨fuel - 1, by omega⟩
    have hx := h x (by simp) fuel (writeItems [] ++ rest) (closes_writeItems _ _) (by omega)
    rw [items_last done hx]
    rfl
  | cons y ys ih =>
    simp only [writeItems, List.length_append, List.length_cons] at hfuel
    obtain ⟨fuel, rfl⟩ : ∃ k, fuel = k + 1 := ⟨fuel - 1, by omega⟩
    obtain ⟨hx, hys⟩ := List.forall_mem_cons.1 h
    obtain ⟨-, hplain⟩ := List.forall_mem_cons.1 hplain
    have hlength : 2 * (write y ++ writeItems ys).length ≤ fuel := by
      rw [List.length_append]
      omega
    have hvalue := hx fuel (writeItems (y :: ys) ++ rest) (closes_writeItems _ _) (by omega)
    have hrest := ih (ordered x :: done) hplain hys hlength
    obtain ⟨c, cs, hy, hblank, hbracket⟩ := exists_write_cons (hplain y (by simp))
    simp only [writeItems, hy, List.cons_append, List.append_assoc] at hvalue hrest ⊢
    rw [items_next done (isSpace_of_not_blank hblank) hbracket hvalue, hrest]
    simp [orderedItems]

/-- The members from a key on, which stands after its quote. -/
theorem members_written {key : String} {x : Json} {ms : List (String × Json)}
    (done : List (String × Json)) (rest : List Char) (h : ∀ m ∈ (key, x) :: ms, ReadsBack depth m.2)
    (hfuel : 2 * (write x ++ writeMembers ms).length ≤ fuel) :
    members fuel (depth + 1) done
        (key.toList.flatMap escapeChar ++ '"' :: ':' :: (write x ++ (writeMembers ms ++ rest))) =
      .ok (.object (ofMembers (done.reverse ++ orderedMembers ((key, x) :: ms))), rest) := by
  induction ms generalizing key x fuel done with
  | nil =>
    simp only [writeMembers, List.length_append, List.length_cons, List.length_nil] at hfuel
    obtain ⟨fuel, rfl⟩ : ∃ k, fuel = k + 1 := ⟨fuel - 1, by omega⟩
    have hx := h (key, x) (by simp) fuel (writeMembers [] ++ rest) (closes_writeMembers _ _)
      (by dsimp only; omega)
    rw [members_last done hx]
    rfl
  | cons m ms ih =>
    obtain ⟨k, y⟩ := m
    simp only [writeMembers, List.length_append, List.length_cons] at hfuel
    obtain ⟨fuel, rfl⟩ : ∃ k, fuel = k + 1 := ⟨fuel - 1, by omega⟩
    obtain ⟨hx, hms⟩ := List.forall_mem_cons.1 h
    have hlength : 2 * (write y ++ writeMembers ms).length ≤ fuel := by
      rw [List.length_append]
      omega
    have hvalue := hx fuel (writeMembers ((k, y) :: ms) ++ rest) (closes_writeMembers _ _)
      (by dsimp only; omega)
    have hrest := ih ((key, ordered x) :: done) hms hlength
    simp only [writeMembers, writeText, List.cons_append, List.append_assoc, List.nil_append]
      at hvalue hrest ⊢
    rw [members_next done hvalue, hrest]
    simp [orderedMembers]

theorem exists_fuel (depth : Nat) {j : Json} (h : Plain depth j)
    (hfuel : 2 * (write j).length ≤ fuel) : ∃ k, fuel = k + 1 := by
  obtain ⟨c, cs, hcons, -⟩ := exists_write_cons h
  rw [hcons, List.length_cons] at hfuel
  exact ⟨fuel - 1, by omega⟩

/-- A plain value is read back. -/
theorem readsBack {j : Json} (h : Plain depth j) : ReadsBack depth j := by
  induction h with
  | @null depth =>
    intro fuel rest hrest hfuel
    obtain ⟨fuel, rfl⟩ := exists_fuel depth .null hfuel
    simp [write, value, skipSpace, isSpace, literal, ordered]
  | @bool depth b =>
    intro fuel rest hrest hfuel
    obtain ⟨fuel, rfl⟩ := exists_fuel depth (.bool b) hfuel
    cases b <;> simp [write, value, skipSpace, isSpace, literal, ordered]
  | @integer depth n hleast hbelow =>
    intro fuel rest hrest hfuel
    obtain ⟨fuel, rfl⟩ := exists_fuel depth (.integer hleast hbelow) hfuel
    exact value_integer hleast hbelow hrest
  | @text depth s =>
    intro fuel rest hrest hfuel
    obtain ⟨fuel, rfl⟩ := exists_fuel depth (.text s) hfuel
    have htext := text_written s rest
    simp [write, writeText, value, skipSpace, isSpace, htext, Except.map, ordered]
  | @array depth items hitems ih =>
    intro fuel rest hrest hfuel
    obtain ⟨fuel, rfl⟩ := exists_fuel (depth + 1) (.array hitems) hfuel
    cases items with
    | nil => simp [write, value, skipSpace, isSpace, ordered, orderedItems]
    | cons x xs =>
      have hlength : 2 * (write x ++ writeItems xs).length ≤ fuel := by
        simp only [write, List.cons_append, List.length_cons] at hfuel
        omega
      have hread := items_written [] rest hitems ih hlength
      obtain ⟨c, cs, hx, hblank, hbracket⟩ := exists_write_cons (hitems x (by simp))
      simp only [write, hx, List.cons_append, List.append_assoc] at hread ⊢
      rw [value_array (isSpace_of_not_blank hblank) hbracket, hread]
      rfl
  | @object depth members hmembers ih =>
    intro fuel rest hrest hfuel
    obtain ⟨fuel, rfl⟩ := exists_fuel (depth + 1) (.object hmembers) hfuel
    cases members with
    | nil => simp [write, value, skipSpace, isSpace, ordered, orderedMembers, ofMembers]
    | cons m ms =>
      obtain ⟨key, x⟩ := m
      have hlength : 2 * (write x ++ writeMembers ms).length ≤ fuel := by
        simp only [write, List.cons_append, List.length_cons, List.length_append] at hfuel ⊢
        omega
      have hread := members_written [] rest ih hlength
      simp only [write, writeText, List.cons_append, List.append_assoc, List.nil_append] at hread ⊢
      rw [value_object, hread]
      rfl

end Reader

/-- The text of a value is read as that value, with the members of objects in their order. -/
theorem read_render {j : Json} (h : Plain 127 j) : read j.render = .ok j.ordered := by
  have hvalue := Reader.readsBack h (2 * j.write.length + 2) [] trivial (by omega)
  rw [List.append_nil] at hvalue
  change Reader.value _ Reader.depthLimit _ = _ at hvalue
  simp [read, render, hvalue, Reader.skipSpace]

end Json

namespace Text

/-- No character is a control below U+0020. Such characters stand on one line. -/
def Legible (cs : List Char) : Prop := ∀ c ∈ cs, 0x20 ≤ c.toNat

instance : DecidablePred Legible := List.decidableBAll fun c : Char => 0x20 ≤ c.toNat

theorem Legible.append {a b : List Char} (ha : Legible a) (hb : Legible b) : Legible (a ++ b) :=
  List.forall_mem_append.2 ⟨ha, hb⟩

end Text

namespace Json

open Text (Legible)

theorem legible_toDigits (n : Nat) : Legible (Nat.toDigits 10 n) := by
  intro c hc
  have hdigit := Nat.isDigit_of_mem_toDigits (by decide) (by decide) hc
  simp only [Char.isDigit, Bool.and_eq_true, decide_eq_true_eq] at hdigit
  exact Nat.le_trans (by decide) (UInt32.le_iff_toNat_le.1 hdigit.1)

theorem legible_escapeChar (c : Char) : Legible (escapeChar c) := by
  have hcontrol : ∀ n < 0x20, Legible (fourHexDigits n) := by decide
  unfold escapeChar
  split
  · decide
  · decide
  · decide
  · decide
  · decide
  · split
    · decide
    split
    · decide
    split
    next h => exact Legible.append (a := ['\\', 'u']) (by decide) (hcontrol _ h)
    next h => simpa [Legible] using Nat.le_of_not_lt h

theorem legible_writeText (s : String) : Legible (writeText s) := by
  have hbody : Legible (s.toList.flatMap escapeChar) := by
    intro c hc
    obtain ⟨d, -, hd⟩ := List.mem_flatMap.1 hc
    exact legible_escapeChar d c hd
  have hquote : Legible ['"'] := by decide
  exact hquote.append (hbody.append hquote)

theorem legible_writeItems {xs : List Json} (h : ∀ x ∈ xs, Legible (write x)) :
    Legible (writeItems xs) := by
  induction xs with
  | nil => decide
  | cons x xs ih =>
    obtain ⟨hx, hxs⟩ := List.forall_mem_cons.1 h
    have hcomma : Legible [','] := by decide
    exact hcomma.append (hx.append (ih hxs))

theorem legible_writeMembers {ms : List (String × Json)} (h : ∀ m ∈ ms, Legible (write m.2)) :
    Legible (writeMembers ms) := by
  induction ms with
  | nil => decide
  | cons m ms ih =>
    obtain ⟨hm, hms⟩ := List.forall_mem_cons.1 h
    have hcomma : Legible [','] := by decide
    have hcolon : Legible [':'] := by decide
    have hmember := (legible_writeText m.1).append (hcolon.append (hm.append (ih hms)))
    simpa [writeMembers] using hcomma.append hmember

theorem Plain.legible {depth : Nat} {j : Json} (h : Plain depth j) : Legible (write j) := by
  induction h with
  | null => decide
  | bool b => cases b <;> decide
  | @integer depth n _ _ =>
    rw [write]
    cases n with
    | ofNat m =>
      rw [write_ofNat]
      exact legible_toDigits m
    | negSucc m =>
      have hsign : Legible ['-'] := by decide
      rw [write_negSucc]
      exact hsign.append (legible_toDigits (m + 1))
  | text s => exact legible_writeText s
  | @array depth items _ ih =>
    cases items with
    | nil => decide
    | cons x xs =>
      obtain ⟨hx, hxs⟩ := List.forall_mem_cons.1 ih
      have hopen : Legible ['['] := by decide
      exact hopen.append (hx.append (legible_writeItems hxs))
  | @object depth members _ ih =>
    cases members with
    | nil => decide
    | cons m ms =>
      obtain ⟨hm, hms⟩ := List.forall_mem_cons.1 ih
      have hopen : Legible ['\x7b'] := by decide
      have hcolon : Legible [':'] := by decide
      have hmember := (legible_writeText m.1).append
        (hcolon.append (hm.append (legible_writeMembers hms)))
      simpa [write] using hopen.append hmember

theorem Plain.isBlankLine {depth : Nat} {j : Json} (h : Plain depth j) :
    Text.isBlankLine j.render = false := by
  obtain ⟨c, cs, hcons, hblank, -⟩ := Reader.exists_write_cons h
  simp [Text.isBlankLine, render, hcons, hblank]

end Json

end EngineBridge
