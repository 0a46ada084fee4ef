import EngineBridge.Proofs.Codec

/-!
# What a frame means

The frames that a host may send, told without the reader of messages: a text is a command, and an
object asks for a start or for the status by its member `cmd`. Every other frame is malformed, and
the two sides of the wire do not differ about any frame that is not an object.
-/

namespace EngineBridge

open Json (Plain Shape)

namespace Wire

/-- The module that a member names, which may be absent or null. -/
inductive Names : Option Json → Option String → Prop
  | absent : Names none none
  | null : Names (some .null) none
  | text (name : String) : Names (some (.text name)) (some name)

/-- The message that a value stands for. Members under other keys do not matter. -/
inductive Denotes : Json → Inbound → Prop
  | command (text : String) : Denotes (.text text) (.command text)
  | start {members tag module} (hcmd : Json.find? "cmd" members = some (.text tag))
      (htag : tag = "initialize" ∨ tag = "init")
      (hmodule : Names (Json.find? "moduleRef" members) module) :
      Denotes (.object members) (.control (.start module))
  | status {members} (hcmd : Json.find? "cmd" members = some (.text "status")) :
      Denotes (.object members) (.control .status)

/-- What is wrong with a frame that is no message, by what is read of it. -/
inductive Faulty : Except Json.Failure Json → Prop
  | unreadable (f : Json.Failure) : Faulty (.error f)
  | neither {j} (htext : ∀ s, j ≠ .text s) (hobject : ∀ members, j ≠ .object members) :
      Faulty (.ok j)
  | unnamed {members} (hcmd : Json.find? "cmd" members = none) : Faulty (.ok (.object members))
  | misnamed {members j} (hcmd : Json.find? "cmd" members = some j) (htext : ∀ s, j ≠ .text s) :
      Faulty (.ok (.object members))
  | unknown {members tag} (hcmd : Json.find? "cmd" members = some (.text tag))
      (htag : tag ∉ ["initialize", "init", "status"]) : Faulty (.ok (.object members))
  | module {members tag j} (hcmd : Json.find? "cmd" members = some (.text tag))
      (htag : tag = "initialize" ∨ tag = "init")
      (hmodule : Json.find? "moduleRef" members = some j) (hnull : j ≠ .null)
      (htext : ∀ s, j ≠ .text s) : Faulty (.ok (.object members))

variable {j : Json} {m m' : Inbound} {members : List (String × Json)}

theorem Names.unique {member : Option Json} {a b : Option String} (ha : Names member a)
    (hb : Names member b) : a = b := by
  cases ha <;> cases hb <;> rfl

theorem Denotes.unique (h : Denotes j m) (h' : Denotes j m') : m = m' := by
  cases h with
  | command text =>
    cases h'
    rfl
  | start hcmd htag hmodule =>
    cases h' with
    | start _ _ hmodule' => rw [hmodule.unique hmodule']
    | status hcmd' =>
      obtain rfl : _ = "status" := by simpa [hcmd] using hcmd'
      simp at htag
  | status hcmd =>
    cases h' with
    | start hcmd' htag _ =>
      obtain rfl : "status" = _ := by simpa [hcmd] using hcmd'
      simp at htag
    | status => rfl

theorem Denotes.not_faulty (h : Denotes j m) : ¬ Faulty (.ok j) := by
  intro hfaulty
  cases h with
  | command text =>
    cases hfaulty with
    | neither htext _ => exact htext text rfl
  | start hcmd htag hmodule =>
    cases hfaulty with
    | neither _ hobject => exact hobject _ rfl
    | unnamed hcmd' => simp [hcmd] at hcmd'
    | misnamed hcmd' htext =>
      obtain rfl := Option.some.inj (hcmd.symm.trans hcmd')
      exact htext _ rfl
    | unknown hcmd' htag' =>
      obtain rfl : _ = _ := by simpa [hcmd] using hcmd'
      rcases htag with rfl | rfl <;> simp at htag'
    | module _ _ hmodule' hnull htext =>
      rw [hmodule'] at hmodule
      cases hmodule with
      | null => exact hnull rfl
      | text name => exact htext name rfl
  | status hcmd =>
    cases hfaulty with
    | neither _ hobject => exact hobject _ rfl
    | unnamed hcmd' => simp [hcmd] at hcmd'
    | misnamed hcmd' htext =>
      obtain rfl := Option.some.inj (hcmd.symm.trans hcmd')
      exact htext _ rfl
    | unknown hcmd' htag' =>
      obtain rfl : "status" = _ := by simpa [hcmd] using hcmd'
      simp at htag'
    | module hcmd' htag _ _ _ =>
      obtain rfl : "status" = _ := by simpa [hcmd] using hcmd'
      simp at htag

/-- A message that a frame stands for is one that a host sends. -/
theorem Denotes.sent (h : Denotes j m) : m.Sent := by
  cases h <;> trivial

private theorem known_controlTags (tag : String) :
    Shape.known controlTags tag =
      if tag = "initialize" ∨ tag = "init" then .ok .start
      else if tag = "status" then .ok .status
      else .error (.unknownVariant tag ["init", "initialize", "status"]) := by
  unfold Shape.known controlTags
  by_cases hinit : "init" = tag
  · subst hinit
    rfl
  by_cases hstart : "initialize" = tag
  · subst hstart
    rfl
  by_cases hstatus : "status" = tag
  · subst hstatus
    rfl
  simp [Ne.symm hinit, Ne.symm hstart, Ne.symm hstatus, eq_comm]

private theorem commandTag_of_text {tag : String}
    (hcmd : Json.find? "cmd" members = some (.text tag)) :
    commandTag controlTags members = Shape.known controlTags tag := by
  simp only [commandTag, Shape.member?, hcmd, Shape.tag]
  cases Shape.known controlTags tag <;> rfl

private theorem commandTag_of_other (hcmd : Json.find? "cmd" members = some j)
    (htext : ∀ s, j ≠ .text s) :
    commandTag controlTags members = .error (.wrongType j "variant identifier") := by
  simp only [commandTag, Shape.member?, hcmd]
  cases j with
  | text s => exact absurd rfl (htext s)
  | _ => rfl

private theorem commandTag_of_none (hcmd : Json.find? "cmd" members = none) :
    commandTag controlTags members = .error (.missingField "cmd") := by
  simp only [commandTag, Shape.member?, hcmd]
  rfl

private theorem toControl_of_error {e : Json.Mismatch}
    (h : commandTag controlTags members = .error e) : toControl members = .error e := by
  simp only [toControl, h]
  rfl

private theorem toControl_of_status (h : commandTag controlTags members = .ok .status) :
    toControl members = .ok .status := by
  simp only [toControl, h]
  rfl

private theorem toControl_of_start (h : commandTag controlTags members = .ok .start) :
    (∃ module, toControl members = .ok (.start module) ∧
        Names (Json.find? "moduleRef" members) module) ∨
      ∃ e j, toControl members = .error e ∧ Json.find? "moduleRef" members = some j ∧
        j ≠ .null ∧ ∀ s, j ≠ .text s := by
  have heq : toControl members =
      (Shape.member? members "moduleRef" (Shape.optional Shape.text)).map
        fun module => .start module.join := by
    simp only [toControl, h]
    cases Shape.member? members "moduleRef" (Shape.optional Shape.text) <;> rfl
  rw [heq, Shape.member?]
  cases Json.find? "moduleRef" members with
  | none => exact .inl ⟨none, rfl, .absent⟩
  | some j =>
    cases j with
    | null => exact .inl ⟨none, rfl, .null⟩
    | text name => exact .inl ⟨some name, rfl, .text name⟩
    | _ => exact .inr ⟨_, _, rfl, rfl, by simp, by simp⟩

theorem toControl_cases (members : List (String × Json)) :
    (∃ c, toControl members = .ok c ∧ Denotes (.object members) (.control c)) ∨
      ∃ e, toControl members = .error e ∧ Faulty (.ok (.object members)) := by
  cases hcmd : Json.find? "cmd" members with
  | none => exact .inr ⟨_, toControl_of_error (commandTag_of_none hcmd), .unnamed hcmd⟩
  | some j =>
    by_cases htext : ∃ tag, j = .text tag
    · obtain ⟨tag, rfl⟩ := htext
      have hknown := commandTag_of_text hcmd
      rw [known_controlTags] at hknown
      split at hknown
      next htag =>
        rcases toControl_of_start hknown with ⟨module, hok, hmodule⟩ | ⟨e, j, he, hj, hnull, hother⟩
        · exact .inl ⟨_, hok, .start hcmd htag hmodule⟩
        · exact .inr ⟨e, he, .module hcmd htag hj hnull hother⟩
      next htag =>
        split at hknown
        next hstatus =>
          subst hstatus
          exact .inl ⟨_, toControl_of_status hknown, .status hcmd⟩
        next hstatus =>
          rw [not_or] at htag
          exact .inr ⟨_, toControl_of_error hknown, .unknown hcmd (by simp [htag, hstatus])⟩
    · have hother : ∀ s, j ≠ .text s := fun s hs => htext ⟨s, hs⟩
      exact .inr ⟨_, toControl_of_error (commandTag_of_other hcmd hother), .misnamed hcmd hother⟩

end Wire

open Wire

/-- A frame is what its value stands for, or it is malformed and something is wrong with it. -/
theorem Inbound.decode_cases (frame : String) :
    (∃ j, Json.read frame = .ok j ∧ Denotes j (decode frame)) ∨
      (∃ reason, decode frame = .malformed reason) ∧ Faulty (Json.read frame) := by
  unfold decode Wire.decode
  cases hread : Json.read frame with
  | error f => exact .inr ⟨⟨_, rfl⟩, .unreadable f⟩
  | ok j =>
    cases j with
    | text s => exact .inl ⟨_, rfl, .command s⟩
    | object members =>
      rcases toControl_cases members with ⟨c, hc, hdenotes⟩ | ⟨e, he, hfaulty⟩
      · simp only [hc]
        exact .inl ⟨_, rfl, hdenotes⟩
      · simp only [he]
        exact .inr ⟨⟨_, rfl⟩, hfaulty⟩
    | _ => exact .inr ⟨⟨_, rfl⟩, .neither (by simp) (by simp)⟩

/-- The other side of the wire takes a frame that is not an object for the same text, or finds the
same fault with it. -/
theorem Outbound.decode_of_not_object {frame : String}
    (h : ∀ members, Json.read frame ≠ .ok (.object members)) :
    (∃ text, decode frame = .ok (.response text) ∧ Inbound.decode frame = .command text) ∨
      ∃ reason, decode frame = .error (.malformed reason) ∧
        Inbound.decode frame = .malformed reason := by
  unfold decode Inbound.decode Wire.decode
  cases hread : Json.read frame with
  | error f => exact .inr ⟨_, rfl, rfl⟩
  | ok j =>
    cases j with
    | text s => exact .inl ⟨s, rfl, rfl⟩
    | object members => exact absurd hread (h members)
    | _ => exact .inr ⟨_, rfl, rfl⟩

namespace Json

theorem orderedMembers_eq_map (members : List (String × Json)) :
    orderedMembers members = members.map fun m => (m.1, m.2.ordered) := by
  induction members with
  | nil => rfl
  | cons m rest ih => rw [orderedMembers, ih, List.map_cons]

theorem find?_map_ordered (key : String) (members : List (String × Json)) :
    find? key (members.map fun m => (m.1, m.2.ordered)) = (find? key members).map ordered := by
  simp only [find?, List.find?_map, Option.map_map]
  rfl

/-- What is read under a key is what was written under it last. -/
theorem find?_ordered (key : String) (members : List (String × Json)) :
    find? key (ofMembers (orderedMembers members)) = (find? key members.reverse).map ordered := by
  rw [find?_ofMembers, orderedMembers_eq_map, ← List.map_reverse, find?_map_ordered]

theorem ordered_eq_text_iff {j : Json} {s : String} : j.ordered = .text s ↔ j = .text s := by
  cases j <;> simp [ordered]

theorem ordered_eq_null_iff {j : Json} : j.ordered = .null ↔ j = .null := by
  cases j <;> simp [ordered]

end Json

namespace Wire

theorem names_ordered {member : Option Json} {module : Option String} :
    Names (member.map Json.ordered) module ↔ Names member module := by
  constructor
  · intro h
    cases member with
    | none => exact h
    | some j =>
      generalize hj : (some j).map Json.ordered = read at h
      cases h with
      | absent => cases hj
      | null =>
        obtain rfl := Json.ordered_eq_null_iff.1 (Option.some.inj hj)
        exact .null
      | text name =>
        obtain rfl := Json.ordered_eq_text_iff.1 (Option.some.inj hj)
        exact .text name
  · rintro (_ | _ | name)
    · exact .absent
    · exact .null
    · exact .text name

/-- An object stands for the same message in the order in which it is read, if of the members that
are written under one key the last one is found first. -/
theorem denotes_ordered {members : List (String × Json)} {m : Inbound} :
    Denotes (Json.object members).ordered m ↔ Denotes (.object members.reverse) m := by
  have named {tag : String} :
      Json.find? "cmd" (Json.ofMembers (Json.orderedMembers members)) = some (.text tag) ↔
        Json.find? "cmd" members.reverse = some (.text tag) := by
    rw [Json.find?_ordered, Option.map_eq_some_iff]
    simp [Json.ordered_eq_text_iff]
  have reference {module : Option String} :
      Names (Json.find? "moduleRef" (Json.ofMembers (Json.orderedMembers members))) module ↔
        Names (Json.find? "moduleRef" members.reverse) module := by
    rw [Json.find?_ordered]
    exact names_ordered
  rw [Json.ordered]
  constructor
  · rintro (_ | ⟨hcmd, htag, hmodule⟩ | hcmd)
    · exact .start (named.1 hcmd) htag (reference.1 hmodule)
    · exact .status (named.1 hcmd)
  · rintro (_ | ⟨hcmd, htag, hmodule⟩ | hcmd)
    · exact .start (named.2 hcmd) htag (reference.2 hmodule)
    · exact .status (named.2 hcmd)

/-- What the two sides of the wire take a frame for. -/
structure Understood (frame : String) : Prop where
  /-- It is a message exactly if its value stands for that message. -/
  message_iff : ∀ m, m.Sent →
    (Inbound.decode frame = m ↔ ∃ j, Json.read frame = .ok j ∧ Denotes j m)
  /-- In every other case it is malformed, and these are the other cases. -/
  malformed_iff : (∃ reason, Inbound.decode frame = .malformed reason) ↔ Faulty (Json.read frame)
  faulty_iff : Faulty (Json.read frame) ↔ ∀ j m, Json.read frame = .ok j → ¬ Denotes j m
  /-- Of the members that an object has under one key the last one counts. -/
  last_counts : ∀ members, Plain 127 (.object members) → frame = (Json.object members).render →
    ∀ m, m.Sent → (Inbound.decode frame = m ↔ Denotes (.object members.reverse) m)
  /-- The side of the host takes a frame that is no object for a response with the same text, or
  refuses it for the same reason. -/
  agree : (∀ members, Json.read frame ≠ .ok (.object members)) →
    (∀ m, Outbound.decode frame = .ok m ↔
      ∃ text, m = .response text ∧ Inbound.decode frame = .command text) ∧
    ∀ e, Outbound.decode frame = .error e ↔
      ∃ reason, e = .malformed reason ∧ Inbound.decode frame = .malformed reason

end Wire

theorem Inbound.decode_eq_iff {frame : String} {m : Inbound} (hm : m.Sent) :
    decode frame = m ↔ ∃ j, Json.read frame = .ok j ∧ Denotes j m := by
  constructor
  · rintro rfl
    rcases decode_cases frame with hdenotes | ⟨⟨reason, hreason⟩, -⟩
    · exact hdenotes
    · rw [hreason] at hm
      exact hm.elim
  · rintro ⟨j, hread, hdenotes⟩
    rcases decode_cases frame with ⟨j', hread', hdenotes'⟩ | ⟨-, hfaulty⟩
    · obtain rfl : j = j' := Except.ok.inj (hread.symm.trans hread')
      exact hdenotes'.unique hdenotes
    · rw [hread] at hfaulty
      exact absurd hfaulty hdenotes.not_faulty

theorem Inbound.decode_malformed_iff {frame : String} :
    (∃ reason, decode frame = .malformed reason) ↔ Faulty (Json.read frame) := by
  constructor
  · rintro ⟨reason, hreason⟩
    rcases decode_cases frame with ⟨j, -, hdenotes⟩ | ⟨-, hfaulty⟩
    · rw [hreason] at hdenotes
      exact hdenotes.sent.elim
    · exact hfaulty
  · intro hfaulty
    rcases decode_cases frame with ⟨j, hread, hdenotes⟩ | ⟨hreason, -⟩
    · rw [hread] at hfaulty
      exact absurd hfaulty hdenotes.not_faulty
    · exact hreason

/-- Every frame is a message that its value stands for, or it is malformed for a fault that it
has. -/
theorem understood (frame : String) : Understood frame where
  message_iff := fun m hm => Inbound.decode_eq_iff hm
  malformed_iff := Inbound.decode_malformed_iff
  faulty_iff := by
    constructor
    · intro hfaulty j m hread hdenotes
      rw [hread] at hfaulty
      exact hdenotes.not_faulty hfaulty
    · intro hnone
      rcases Inbound.decode_cases frame with ⟨j, hread, hdenotes⟩ | ⟨-, hfaulty⟩
      · exact absurd hdenotes (hnone j _ hread)
      · exact hfaulty
  last_counts := by
    rintro members hplain rfl m hm
    rw [Inbound.decode_eq_iff hm, Json.read_render hplain, ← denotes_ordered]
    simp
  agree := by
    intro hobject
    rcases Outbound.decode_of_not_object hobject with ⟨text, hout, hin⟩ | ⟨reason, hout, hin⟩
    · rw [hout, hin]
      exact ⟨fun m => by simp [eq_comm], fun e => by simp⟩
    · rw [hout, hin]
      exact ⟨fun m => by simp, fun e => by simp [eq_comm]⟩

/-- The last `cmd` is an alias, and null names no module. -/
example : Inbound.decode
    "\x7b\"cmd\":\"status\",\"moduleRef\":null,\"cmd\":\"init\"\x7d" = .control (.start none) := by
  decide +kernel

end EngineBridge
