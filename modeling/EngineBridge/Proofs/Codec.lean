import EngineBridge.Proofs.Reading
import EngineBridge.Serve.Framing

/-!
# Messages and frames

What is decoded is what was encoded. A frame is one line, and never a blank one.
-/

namespace EngineBridge

open Json (Plain Shape)

/-- The count that a status notice tells is a 64-bit word. -/
def Outbound.Counted : Outbound → Prop
  | .notice (.status _ _ pending) => pending < 2 ^ 64
  | _ => True

instance : DecidablePred Outbound.Counted
  | .notice (.status _ _ pending) => inferInstanceAs (Decidable (pending < 2 ^ 64))
  | .notice .ready | .notice (.error _ _) | .response _ => inferInstanceAs (Decidable True)

/-- The message is one that a host sends. -/
def Inbound.Sent : Inbound → Prop
  | .malformed _ => False
  | _ => True

instance : DecidablePred Inbound.Sent
  | .malformed _ => inferInstanceAs (Decidable False)
  | .control _ | .command _ => inferInstanceAs (Decidable True)

/-- One line that is not blank. -/
structure Text.OneLine (s : String) : Prop where
  legible : Text.Legible s.toList
  nonblank : Text.isBlankLine s = false

theorem Json.Plain.oneLine {depth : Nat} {j : Json} (h : Plain depth j) :
    Text.OneLine j.render where
  legible := by simpa [Json.render] using h.legible
  nonblank := h.isBlankLine

theorem Json.Shape.member?_ofMembers {α : Type} (members : List (String × Json)) (key : String)
    (shape : Shape α) :
    member? (ofMembers members) key shape = member? members.reverse key shape := by
  rw [member?, member?, find?_ofMembers]

namespace Wire

theorem toControl_ofMembers (members : List (String × Json)) :
    toControl (Json.ofMembers members) = toControl members.reverse := by
  simp only [toControl, commandTag, Shape.member?_ofMembers]

theorem toNotice_ofMembers (members : List (String × Json)) :
    toNotice (Json.ofMembers members) = toNotice members.reverse := by
  simp only [toNotice, commandTag, Shape.member?_ofMembers]

theorem plain_ofControl (c : Control) : Plain 127 (ofControl c) := by
  rcases c with ⟨_ | m⟩ | _
  all_goals exact .object (by simp [Plain.text])

theorem plain_ofNotice (n : Notice) (h : (Outbound.notice n).Counted) :
    Plain 127 (ofNotice n) := by
  cases n with
  | ready => exact .object (by simp [Plain.text])
  | error kind detail => exact .object (by simp [Plain.text])
  | status state module pending =>
    have hcount : Plain 126 (.number (.integer pending)) := by
      have hpending : pending < 2 ^ 64 := h
      exact .integer (by omega) (by omega)
    have hmodule : Plain 126 (moduleField module) := by
      cases module with
      | none => exact .null
      | some m => exact .text m
    exact .object (by simp [Plain.text, hcount, hmodule])

theorem toControl_ordered (c : Control) :
    ∃ members, (ofControl c).ordered = .object members ∧ toControl members = .ok c := by
  rcases c with ⟨_ | m⟩ | _
  all_goals
    refine ⟨_, rfl, ?_⟩
    rw [toControl_ofMembers]
    rfl

theorem toNotice_ordered (n : Notice) :
    ∃ members, (ofNotice n).ordered = .object members ∧ toNotice members = .ok n := by
  cases n with
  | ready =>
    refine ⟨_, rfl, ?_⟩
    rw [toNotice_ofMembers]
    rfl
  | error kind detail =>
    refine ⟨_, rfl, ?_⟩
    rw [toNotice_ofMembers]
    cases kind <;> rfl
  | status state module pending =>
    refine ⟨_, rfl, ?_⟩
    rw [toNotice_ofMembers]
    cases state <;> cases module <;> rfl

end Wire

namespace Outbound

theorem plain {m : Outbound} (h : m.Counted) : Plain 127 (Wire.ofOutbound m) := by
  cases m with
  | notice n => exact Wire.plain_ofNotice n h
  | response text => exact .text text

theorem oneLine_encode {m : Outbound} (h : m.Counted) : Text.OneLine m.encode :=
  (plain h).oneLine

theorem decode_encode {m : Outbound} (h : m.Counted) : decode m.encode = .ok m := by
  have hread : Json.read m.encode = .ok (Wire.ofOutbound m).ordered := Json.read_render (plain h)
  cases m with
  | notice n =>
    obtain ⟨members, hmembers, hn⟩ := Wire.toNotice_ordered n
    rw [Wire.ofOutbound, hmembers] at hread
    simp only [decode, Wire.decode, hread, hn]
    rfl
  | response text =>
    simp only [decode, Wire.decode, hread]
    rfl

end Outbound

namespace Inbound

theorem plain (m : Inbound) : Plain 127 (Wire.ofInbound m) := by
  cases m with
  | control c => exact Wire.plain_ofControl c
  | command text => exact .text text
  | malformed reason => exact .text reason

theorem oneLine_encode (m : Inbound) : Text.OneLine m.encode := m.plain.oneLine

theorem decode_encode {m : Inbound} (h : m.Sent) : decode m.encode = m := by
  have hread : Json.read m.encode = .ok (Wire.ofInbound m).ordered := Json.read_render m.plain
  cases m with
  | control c =>
    obtain ⟨members, hmembers, hc⟩ := Wire.toControl_ordered c
    rw [Wire.ofInbound, hmembers] at hread
    simp only [decode, Wire.decode, hread, hc]
    rfl
  | command text =>
    simp only [decode, Wire.decode, hread]
    rfl
  | malformed reason => exact h.elim

end Inbound

end EngineBridge
