import EngineBridge.Proofs.Listening
import EngineBridge.Proofs.Scheduling
import EngineBridge.Proofs.Serving

/-!
# From bytes to messages

The messages that an input is, told by its bytes alone, and what the reader of a service sends of
them: all of them in their order, as long as the bridge takes messages, and then it leaves.
-/

namespace EngineBridge

open Journal

namespace Text

/-- The bytes without one carriage return at their end. -/
def dropReturn (bytes : Bytes) : Bytes :=
  if bytes.getLast? = some carriageReturn then bytes.dropLast else bytes

/-- A line of an input, without its line feed. -/
structure Piece where
  bytes : Bytes
  /-- A line feed follows. -/
  terminated : Bool
  deriving DecidableEq, Repr

namespace Piece

/-- The line as it stands in the input. -/
def raw (p : Piece) : Bytes := if p.terminated then p.bytes ++ [lineFeed] else p.bytes

/-- The line is valid UTF-8. -/
def legible (p : Piece) : Bool := (ofUtf8? p.bytes).isSome

/-- The line as a text. A line feed takes with it a carriage return directly before it. -/
def text? (p : Piece) : Option String :=
  ofUtf8? (if p.terminated then dropReturn p.bytes else p.bytes)

end Piece

/-- The input is cut at each line feed. What follows the last one is a line unless it is empty. -/
def pieces (bytes : Bytes) : List Piece :=
  let all := bytes.splitOn lineFeed
  all.dropLast.map (⟨·, true⟩) ++ (all.getLast?.filter (· ≠ [])).toList.map (⟨·, false⟩)

/-- The texts of the lines before the first that is not valid UTF-8. -/
def lineTexts (bytes : Bytes) : List String :=
  ((pieces bytes).takeWhile Piece.legible).filterMap Piece.text?

theorem cutLines_eq_splitOn (bytes : Bytes) :
    cutLines bytes = ((bytes.splitOn lineFeed).dropLast.map (· ++ [lineFeed]),
      (bytes.splitOn lineFeed).getLast?.getD []) ∧ bytes.splitOn lineFeed ≠ [] ∧
    lineFeed ∉ (bytes.splitOn lineFeed).getLast?.getD [] := by
  induction bytes with
  | nil => simp [cutLines]
  | cons b rest ih =>
    obtain ⟨hcut, hsome, hlast⟩ := ih
    have hstep : cutLines (b :: rest) = attach b (cutLines rest) := rfl
    obtain ⟨head, tail, hpieces⟩ := List.exists_cons_of_ne_nil hsome
    have hsplit : (b :: rest).splitOn lineFeed =
        if b = lineFeed then [] :: head :: tail else (b :: head) :: tail := by
      unfold List.splitOn at hpieces ⊢
      rw [List.splitOnP_cons_eq_if_modifyHead, hpieces]
      by_cases hb : b = lineFeed <;> simp [hb]
    rw [hstep, hcut, hsplit]
    rw [hpieces] at hlast ⊢
    by_cases hb : b = lineFeed
    · cases tail <;> simp_all [attach]
    · cases tail <;> simp_all [attach, Ne.symm hb]

theorem allLines_eq_pieces (bytes : Bytes) : allLines bytes = (pieces bytes).map Piece.raw := by
  obtain ⟨hcut, hsome, -⟩ := cutLines_eq_splitOn bytes
  obtain ⟨init, last, hpieces⟩ :=
    (List.eq_nil_or_concat (bytes.splitOn lineFeed)).resolve_left hsome
  simp only [allLines, pieces, hcut, hpieces, List.concat_eq_append]
  cases last <;> simp [Piece.raw, Option.filter, Function.comp_def]

/-- Nothing is taken from a line without a line feed. -/
theorem chomp_unterminated {bytes : Bytes} (h : lineFeed ∉ bytes) : chomp bytes = bytes := by
  rcases List.eq_nil_or_concat bytes with rfl | ⟨init, b, rfl⟩
  · rfl
  · have hb : b ≠ lineFeed := by
      rintro rfl
      exact h (by simp)
    unfold chomp
    cases hinit : init.reverse <;> simp_all

theorem chomp_terminated (bytes : Bytes) : chomp (bytes ++ [lineFeed]) = dropReturn bytes := by
  rcases List.eq_nil_or_concat bytes with rfl | ⟨init, b, rfl⟩
  · rfl
  · by_cases hb : b = carriageReturn <;> simp [chomp, dropReturn, hb]

theorem chomp_raw {bytes : Bytes} {p : Piece} (h : p ∈ pieces bytes) :
    chomp p.raw = if p.terminated then dropReturn p.bytes else p.bytes := by
  obtain ⟨-, -, hlast⟩ := cutLines_eq_splitOn bytes
  rcases List.mem_append.1 h with hmem | hmem
  · obtain ⟨x, -, rfl⟩ := List.mem_map.1 hmem
    exact chomp_terminated x
  · obtain ⟨x, hx, rfl⟩ := List.mem_map.1 hmem
    obtain ⟨hx, -⟩ := Option.filter_eq_some_iff.1 (Option.mem_toList.1 hx)
    rw [hx] at hlast
    exact chomp_unterminated hlast

/-- A text that ends with the byte of a carriage return ends with that character. -/
theorem utf8_concat_return {bytes : Bytes} {s : String}
    (h : utf8 s = bytes ++ [carriageReturn]) : ∃ t, utf8 t = bytes := by
  rw [utf8_eq_flatMap] at h
  obtain ⟨init, c, hs⟩ : ∃ init c, s.toList = init ++ [c] := by
    rcases List.eq_nil_or_concat s.toList with hnil | ⟨init, c, hs⟩
    · simp [hnil] at h
    · exact ⟨init, c, by simpa using hs⟩
  rw [hs, List.flatMap_append, List.flatMap_singleton] at h
  have hc : c = '\r' := by
    obtain ⟨front, b, hend⟩ : ∃ front b, String.utf8EncodeChar c = front ++ [b] := by
      rcases List.eq_nil_or_concat (String.utf8EncodeChar c) with hnil | ⟨front, b, hend⟩
      · exact absurd hnil (by simp)
      · exact ⟨front, b, by simpa using hend⟩
    rw [hend, ← List.append_assoc] at h
    obtain ⟨-, hb⟩ := List.append_inj' h rfl
    obtain rfl : b = carriageReturn := by simpa using hb
    have hnat : c.toNat = 13 :=
      toNat_of_mem_utf8EncodeChar (b := carriageReturn) (by decide) (by simp [hend])
    exact Char.ext (UInt32.toNat_inj.1 hnat)
  subst hc
  have hreturn : String.utf8EncodeChar '\r' = [carriageReturn] := rfl
  rw [hreturn] at h
  obtain ⟨hinit, -⟩ := List.append_inj' h rfl
  exact ⟨.ofList init, by rw [utf8_eq_flatMap, String.toList_ofList, hinit]⟩

/-- A carriage return at the end makes no difference to whether the bytes are a text. -/
theorem isSome_ofUtf8?_dropReturn (bytes : Bytes) :
    (ofUtf8? (dropReturn bytes)).isSome = (ofUtf8? bytes).isSome := by
  unfold dropReturn
  split
  next hreturn =>
    obtain ⟨init, rfl⟩ : ∃ init, bytes = init ++ [carriageReturn] := by
      rcases List.eq_nil_or_concat bytes with rfl | ⟨init, b, rfl⟩
      · cases hreturn
      · exact ⟨init, by simpa using hreturn⟩
    rw [List.dropLast_concat, Bool.eq_iff_iff, Option.isSome_iff_exists, Option.isSome_iff_exists]
    constructor
    · rintro ⟨t, ht⟩
      refine ⟨t ++ "\r", ofUtf8?_eq_some_iff.2 ?_⟩
      rw [utf8_append, ofUtf8?_eq_some_iff.1 ht]
      rfl
    · rintro ⟨s, hs⟩
      obtain ⟨t, ht⟩ := utf8_concat_return (ofUtf8?_eq_some_iff.1 hs)
      exact ⟨t, ofUtf8?_eq_some_iff.2 ht⟩
  · rfl

theorem isSome_text? (p : Piece) : p.text?.isSome = p.legible := by
  unfold Piece.text? Piece.legible
  split
  · exact isSome_ofUtf8?_dropReturn p.bytes
  · rfl

/-- The lines that are read are those before the first that is not valid UTF-8. -/
theorem readable_raw {l : List Piece}
    (h : ∀ p ∈ l, chomp p.raw = if p.terminated then dropReturn p.bytes else p.bytes) :
    (readable (l.map Piece.raw)).1 = (l.takeWhile Piece.legible).filterMap Piece.text? := by
  induction l with
  | nil => rfl
  | cons p l ih =>
    obtain ⟨hp, hl⟩ := List.forall_mem_cons.1 h
    have hrest := ih hl
    have htext : ofUtf8? (chomp p.raw) = p.text? := by rw [hp, Piece.text?]
    have hlegible := isSome_text? p
    rw [List.map_cons, readable, htext]
    cases ht : p.text? with
    | none => simp [← hlegible, ht]
    | some text => simp [← hlegible, ht, hrest]

theorem texts_eq_lineTexts (bytes : Bytes) : texts bytes = lineTexts bytes := by
  rw [texts, allLines_eq_pieces, readable_raw fun p hp => chomp_raw hp, lineTexts]

end Text

/-- The messages that an input is: lines of nothing but white space are none. -/
def Framing.inputMessages (f : Framing) (bytes : Text.Bytes) : List Inbound :=
  ((Text.lineTexts bytes).filter fun line => !Text.isBlankLine line).map fun line =>
    match f with
    | .json => Inbound.decode line
    | .text => .command line

theorem Framing.messages_eq_inputMessages (f : Framing) (segments : List Segment) :
    f.messages ((Source.ofSegments segments).lines.map (·.2)) =
      f.inputMessages (segments.flatMap Segment.bytes) := by
  rw [Source.texts_ofSegments, Text.texts_eq_lineTexts, inputMessages]
  generalize Text.lineTexts (segments.flatMap Segment.bytes) = lines
  induction lines with
  | nil => rfl
  | cons line lines ih =>
    simp only [messages] at ih
    cases f <;> cases hblank : Text.isBlankLine line <;>
      simp [messages, message?, hblank, ih]

/-- One carriage return goes with a line feed, and none with the end of the input. -/
example : Framing.text.inputMessages (Text.utf8 "a\r\r\n\u00a0\n b\r") =
    [.command "a\r", .command " b\r"] := by
  decide +kernel

/-- What comes after bytes that are no text is not read. -/
example : Framing.text.inputMessages (Text.utf8 "a\nb" ++ [0xff, 0x0a] ++ Text.utf8 "c\n") =
    [.command "a"] := by
  decide +kernel

variable {σ : Type} [Interpreter σ]

namespace Session

variable {s t : Session σ}

omit [Interpreter σ] in
/-- A bridge whose host has left posts nothing more. -/
theorem posted_noted_of_left (h : s.outbound.receiving = false) : posted s.noted = [] := by
  cases ha : s.agenda with
  | cons e rest =>
    cases e with
    | load name => cases hx : s.registry.find? name <;> simp [noted, ha, hx]
    | _ => simp [noted, ha, h, Effect.entry]
  | nil =>
    have hmessage : posted (s.inbound.items.head?.toList.map (Entry.took (σ := σ))) = [] := by
      cases s.inbound.items <;> simp
    cases hj : s.job with
    | none => simpa [noted, ha, hj] using hmessage
    | loading x p deadline seen =>
      cases seen with
      | true => simpa [noted, ha, hj] using hmessage
      | false =>
        cases hfound : s.found x p deadline with
        | none => simp [noted, ha, hj, hfound]
        | some r => cases r <;> simp [noted, ha, hj, hfound, Loaded.entries]
    | calling since x => cases hx : x.answer <;> simp [noted, ha, hj, hx, Answer.entries]

omit [Interpreter σ] in
private theorem crash_of_finishLoad {result : Loaded σ} (hs : s.stopped = false)
    (h : (s.finishLoad result).stopped = true) : (s.finishLoad result).crash ≠ none := by
  cases result with
  | crashed p => exact Option.some_ne_none p
  | _ => exact absurd (hs.symm.trans h) (by decide)

/-- A bridge ends by itself once nothing more will come. Else it ends by a panic, or because its
host has left. -/
theorem advance_stops (h : s.advance = some t) (ht : t.stopped = true) :
    s.inbound.items = [] ∧ s.inbound.sending = false ∨ t.crash ≠ none ∨
      s.outbound.receiving = false := by
  obtain ⟨hs, hmove⟩ := advance_move h
  have goes_on (hsame : t.stopped = s.stopped) : False :=
    absurd (hs.symm.trans (hsame.symm.trans ht)) (by decide)
  cases hmove with
  | exhaust ha hj hi => exact .inl (by simpa [Channel.exhausted] using hi)
  | @perform e rest _ ha hperform =>
    cases e with
    | post m =>
      by_cases hr : s.outbound.receiving = true
      · obtain ⟨-, rfl⟩ : s.outbound.hasRoom = true ∧
            { s with agenda := rest, outbound := s.outbound.push m } = t := by
          simpa [perform, hr] using hperform
        exact (goes_on rfl).elim
      · exact .inr (.inr (by simpa using hr))
    | load name =>
      obtain rfl := Option.some.inj hperform
      refine (goes_on ?_).elim
      unfold beginLoad
      split <;> rfl
    | publish tr =>
      obtain rfl := Option.some.inj hperform
      exact (goes_on rfl).elim
    | call a text =>
      obtain rfl := Option.some.inj hperform
      exact (goes_on rfl).elim
  | take ha hj hi htake =>
    obtain ⟨m, rest, -, rfl⟩ := takeMessage_eq_some htake
    exact (goes_on rfl).elim
  | interrupt ha hj htake =>
    obtain ⟨m, rest, -, rfl⟩ := takeMessage_eq_some htake
    refine (goes_on ?_).elim
    simp [feed, wake, hj]
  | @look x p deadline ha hj =>
    refine .inr (.inl ?_)
    revert ht
    unfold look
    rcases p.poll s.now (s.releases.contains x.serial) with ⟨result, released⟩
    have hwaiting : (if released then s else
        { s with releases := s.releases.erase x.serial }).stopped = false := by
      cases released <;> exact hs
    dsimp only
    generalize (if released then s else { s with releases := s.releases.erase x.serial }) = u
      at hwaiting ⊢
    cases result with
    | inr verdict => exact crash_of_finishLoad hwaiting
    | inl next =>
      dsimp only
      by_cases hlate : deadline ≤ u.now
      · rw [if_pos hlate]
        exact crash_of_finishLoad hwaiting
      · rw [if_neg hlate]
        exact fun ht => absurd (hwaiting.symm.trans ht) (by decide)
  | @finish since x ha hj hdue =>
    refine .inr (.inl ?_)
    unfold finishCall at ht ⊢
    cases hx : x.answer with
    | crashed p => exact Option.some_ne_none p
    | _ =>
      rw [hx] at ht
      exact absurd (hs.symm.trans ht) (by decide)

end Session

namespace Service

variable {registry : Registry σ} {settings : BridgeSettings} {framing : Framing}
  {first expected sent : List Inbound} {j : Journal σ} {v w : Service σ}

/-- The way of an input through a service: what has been sent of it and taken from that, and what is
still to be sent. -/
structure Delivers (framing : Framing) (first expected sent : List Inbound) (j : Journal σ)
    (v : Service σ) : Prop where
  framing_eq : v.framing = framing
  heard : v.session.inbound.receiving = !v.session.stopped
  closed : v.session.inbound.sending = false → v.source.lines = []
  sent_le : sent <+: expected
  sent_eq : v.session.stopped = false → sent ++ v.unsent = expected
  taken_le : taken j <+: first ++ sent
  taken_eq : v.session.stopped = false → taken j ++ v.session.inbound.items = first ++ sent
  finished : v.session.stopped = true → v.session.crash = none →
    v.session.outbound.receiving = true →
    v.session.inbound.sending = false ∧ sent = expected ∧ taken j = first ++ expected

theorem Delivers.bridge (h : v.Delivers framing first expected sent j)
    (hb : v.bridgeStep = some w) :
    w.Delivers framing first expected sent (j ++ v.session.noted) := by
  obtain ⟨t, ht, rfl⟩ := Option.map_eq_some_iff.1 hb
  obtain ⟨hs, -⟩ := Session.advance_move ht
  have hkeeps := Session.advance_keeps ht
  have htaken := h.taken_eq hs
  have hunsent : ({ v with session := t } : Service σ).unsent = v.unsent := rfl
  refine ⟨h.framing_eq, ?_, fun hc => h.closed (hkeeps.sending_eq ▸ hc), h.sent_le,
    fun _ => hunsent ▸ h.sent_eq hs, ?_, ?_, ?_⟩
  · rcases hkeeps.stays with ⟨hstopped, hr⟩ | ⟨hstopped, hr⟩
    · change t.inbound.receiving = !t.stopped
      rw [hstopped, hr, h.heard]
    · change t.inbound.receiving = !t.stopped
      rw [hstopped, hr]
      rfl
  · rw [taken_append]
    rcases (Session.alone_noted ht).taken_eq with hitems | ⟨-, hnone⟩
    · exact ⟨t.inbound.items, by rw [List.append_assoc, ← hitems, htaken]⟩
    · simpa [hnone] using h.taken_le
  · intro hstill
    rcases (Session.alone_noted ht).taken_eq with hitems | ⟨hstopped, -⟩
    · rw [taken_append, List.append_assoc, ← hitems, htaken]
    · exact absurd (hstill.symm.trans hstopped) (by decide)
  · intro hstopped hcrash hlistens
    rcases Session.advance_stops ht hstopped with ⟨hitems, hsending⟩ | hpanic | hleft
    · have hsent : sent = expected := by
        simpa [unsent, Framing.messages, h.closed hsending] using h.sent_eq hs
      have hnone : taken v.session.noted = [] := by
        rcases (Session.alone_noted ht).taken_eq with hsplit | ⟨-, hnone⟩
        · rw [hitems] at hsplit
          exact (List.append_eq_nil_iff.1 hsplit.symm).1
        · exact hnone
      rw [hitems, List.append_nil, hsent] at htaken
      exact ⟨hkeeps.sending_eq.trans hsending, hsent, by simp [hnone, htaken]⟩
    · exact absurd hcrash hpanic
    · exact absurd (hleft.symm.trans (hkeeps.receiving_eq.symm.trans hlistens)) (by decide)

omit [Interpreter σ] in
theorem Delivers.read (h : v.Delivers framing first expected sent j) (hr : v.readStep = some w) :
    w.Delivers framing first expected (sent ++ v.sends) j := by
  cases readStep_reads hr with
  | finish hl hs =>
    have hnone : v.sends = [] := by simp [sends, hl]
    have hunsent : v.hangUp.unsent = v.unsent := by simp [unsent, hangUp, hl]
    rw [hnone, List.append_nil]
    refine ⟨h.framing_eq, h.heard, fun _ => rfl, h.sent_le, ?_, h.taken_le, h.taken_eq, ?_⟩
    · rw [hunsent]
      exact h.sent_eq
    · exact fun hstopped hcrash hlistens => ⟨rfl, (h.finished hstopped hcrash hlistens).2⟩
  | @skip t line rest hl hm =>
    have hnone : v.sends = [] := by simp [sends, hl, hm]
    have hunsent : (v.nextLine rest).unsent = v.unsent := by
      simp [unsent, nextLine, Framing.messages, hl, hm]
    rw [hnone, List.append_nil]
    refine ⟨h.framing_eq, h.heard, ?_, h.sent_le, ?_, h.taken_le, h.taken_eq, h.finished⟩
    · intro hc
      exact absurd (h.closed hc) (by simp [hl])
    · rw [hunsent]
      exact h.sent_eq
  | abandon hl hm hclosed =>
    have hnone : v.sends = [] := by simp [sends, hl, hclosed]
    have hstopped : v.session.stopped = true := by simpa [hclosed] using h.heard
    rw [hnone, List.append_nil]
    refine ⟨h.framing_eq, h.heard, fun _ => rfl, h.sent_le, ?_, h.taken_le, h.taken_eq, ?_⟩
    · exact fun hstill => absurd (hstill.symm.trans hstopped) (by decide)
    · exact fun _ hcrash hlistens => ⟨rfl, (h.finished hstopped hcrash hlistens).2⟩
  | @send t line rest m hl hm hreceiving hc =>
    have hsends : v.sends = [m] := by simp [sends, hl, hm, hreceiving]
    have hs : v.session.stopped = false := by simpa [hreceiving] using h.heard
    have hunsent : v.unsent = m :: (v.nextLine rest).unsent := by
      simp [unsent, nextLine, Framing.messages, hl, hm]
    have hsent := h.sent_eq hs
    rw [hunsent, List.append_cons] at hsent
    rw [hsends]
    refine ⟨h.framing_eq, h.heard, ?_, ⟨_, hsent⟩, fun _ => hsent, ?_, ?_, ?_⟩
    · intro hc
      exact absurd (h.closed hc) (by simp [hl])
    · rw [← List.append_assoc]
      exact h.taken_le.trans (List.prefix_append _ _)
    · intro _
      change taken j ++ (v.session.inbound.items ++ [m]) = _
      rw [← List.append_assoc, h.taken_eq hs, List.append_assoc]
    · exact fun hstopped => absurd (hs.symm.trans hstopped) (by decide)

omit [Interpreter σ] in
/-- The output has nothing to do with the input. -/
theorem writeStep_frame (h : v.writeStep = some w) :
    w.framing = v.framing ∧ w.source = v.source ∧ ∃ outbound,
      w.session = { v.session with outbound } ∧
      (outbound.receiving = true → v.session.outbound.receiving = true) := by
  obtain ⟨⟨m, outbound⟩, hm, rfl⟩ := Option.map_eq_some_iff.1 h
  obtain ⟨rest, -, rfl⟩ := Channel.take?_eq_some hm
  dsimp only
  split
  · exact ⟨rfl, rfl, _, rfl, id⟩
  · exact ⟨rfl, rfl, _, rfl, nofun⟩

omit [Interpreter σ] in
theorem Delivers.write (h : v.Delivers framing first expected sent j)
    (hw : v.writeStep = some w) : w.Delivers framing first expected sent j := by
  obtain ⟨hframing, hsource, outbound, hsession, hlistens⟩ := writeStep_frame hw
  obtain ⟨h1, h2, h3, h4, h5, h6, h7, h8⟩ := h
  constructor
  case finished =>
    rw [hsession]
    exact fun hstopped hcrash hr => h8 hstopped hcrash (hlistens hr)
  all_goals simpa only [unsent, hframing, hsource, hsession]

omit [Interpreter σ] in
theorem Delivers.pause (h : v.Delivers framing first expected sent j) (next : Pause v w) :
    w.Delivers framing first expected sent j := by
  cases next with
  | wake =>
    unfold Session.wake
    split
    · exact { h with }
    · exact h
  | elapse => exact { h with }
  | reschedule => exact { h with }

variable {control : Option Control} {source : Source} {room : Option Nat}

omit [Interpreter σ] in
theorem delivers_create :
    (create registry settings framing control source room).Delivers framing
      (control.toList.map .control) (framing.messages (source.lines.map (·.2))) [] [] := by
  cases control <;> exact
    ⟨rfl, rfl, nofun, List.nil_prefix, fun _ => rfl, List.nil_prefix, fun _ => rfl, nofun⟩

theorem Trace.delivers
    (trace : (create registry settings framing control source room).Trace sent j v) :
    v.Delivers framing (control.toList.map .control)
      (framing.messages (source.lines.map (·.2))) sent j := by
  induction trace with
  | start => exact delivers_create
  | bridge _ h ih => exact ih.bridge h
  | read _ h ih => exact ih.read h
  | write _ h ih => exact ih.write h
  | pause _ h ih => exact ih.pause h

/-- The journal is the one of the bridge. -/
theorem Trace.session
    (trace : (create registry settings framing control source room).Trace sent j v) :
    Session.Run (.create registry settings) j v.session := by
  induction trace with
  | start => exact session_create
  | bridge _ h ih =>
    obtain ⟨t, ht, rfl⟩ := Option.map_eq_some_iff.1 h
    exact ih.trans (Session.alone_noted ht).run
  | read trace h ih => simpa using ih.trans (session_read trace.delivers.closed h)
  | write _ h ih => simpa using ih.trans (session_write h)
  | pause _ h ih => simpa using ih.trans h.session

omit [Interpreter σ] in
theorem writeStep_failed (hw : v.writeStep = some w) (hf : w.failure ≠ none) :
    w.session.outbound.items = [] ∧ w.session.outbound.receiving = false := by
  obtain ⟨⟨m, outbound⟩, -, rfl⟩ := Option.map_eq_some_iff.1 hw
  dsimp only at hf ⊢
  split
  next hfine =>
    rw [if_pos hfine] at hf
    exact absurd (Option.isNone_iff_eq_none.1 hfine) hf
  · exact ⟨rfl, rfl⟩

/-- The output works, or it has failed and the bridge has lost its host. -/
def Attended (registry : Registry σ) (settings : BridgeSettings) (v : Service σ) : Prop :=
  v.Staffed registry settings ∨
    v.failure ≠ none ∧ v.session.outbound.items = [] ∧ v.session.outbound.receiving = false

theorem Attended.bridge (h : v.Attended registry settings) (hb : v.bridgeStep = some w) :
    w.Attended registry settings := by
  rcases h with hstaffed | ⟨hfailed, hitems, hleft⟩
  · exact .inl (hstaffed.bridge hb)
  · obtain ⟨t, ht, rfl⟩ := Option.map_eq_some_iff.1 hb
    refine .inr ⟨hfailed, ?_, (Session.advance_keeps ht).receiving_eq.trans hleft⟩
    change t.outbound.items = []
    rw [(Session.alone_noted ht).items_eq, hitems, Session.posted_noted_of_left hleft]
    rfl

omit [Interpreter σ] in
theorem Attended.read (h : v.Attended registry settings) (hr : v.readStep = some w) :
    w.Attended registry settings := by
  rcases h with hstaffed | hfailed
  · exact .inl (hstaffed.read hr)
  · cases readStep_reads hr <;> exact .inr hfailed

omit [Interpreter σ] in
theorem Attended.write (h : v.Attended registry settings) (hw : v.writeStep = some w) :
    w.Attended registry settings := by
  rcases h with hstaffed | ⟨-, hitems, -⟩
  · by_cases hfine : w.failure = none
    · exact .inl (hstaffed.write hw hfine)
    · exact .inr ⟨hfine, writeStep_failed hw hfine⟩
  · obtain ⟨m, rest, hsome, -⟩ := writeStep_writes hw
    rw [hitems] at hsome
    cases hsome

omit [Interpreter σ] in
theorem Attended.pause (h : v.Attended registry settings) (next : Pause v w) :
    w.Attended registry settings := by
  rcases h with hstaffed | hfailed
  · exact .inl (hstaffed.pause next)
  · cases next with
    | wake =>
      unfold Session.wake
      split <;> exact .inr hfailed
    | elapse => exact .inr hfailed
    | reschedule => exact .inr hfailed

theorem Trace.attended
    (trace : (create registry settings framing control source room).Trace sent j v) :
    v.Attended registry settings := by
  induction trace with
  | start => exact .inl staffed_create
  | bridge _ h ih => exact ih.bridge h
  | read _ h ih => exact ih.read h
  | write _ h ih => exact ih.write h
  | pause _ h ih => exact ih.pause h

omit [Interpreter σ] in
theorem fault?_eq_none_iff (v : Service σ) :
    v.fault? = none ↔ v.failure = none ∧ v.session.crash = none := by
  unfold fault?
  cases v.failure <;> simp

/-- What becomes of the messages that a service is to send to its bridge: they are sent in their
order, and as long as the bridge takes messages, it gets what is sent, and the reader leaves it only
after all of them. A bridge that ends neither by a panic nor because its host has left has been sent
all of them and nothing else, and has answered them. -/
structure Forwards (settings : BridgeSettings) (first expected sent : List Inbound) (j : Journal σ)
    (v : Service σ) : Prop where
  sent_le : sent <+: expected
  taken_le : taken j <+: first ++ sent
  taken_eq : v.session.inbound.receiving = true →
    taken j ++ v.session.inbound.items = first ++ sent
  closed : v.session.inbound.receiving = true → v.session.inbound.sending = false →
    sent = expected
  ended : v.session.stopped = true → v.session.crash = none →
    v.session.outbound.receiving = true →
    v.session.inbound.sending = false ∧ sent = expected ∧ taken j = first ++ expected ∧
      v.session.Balanced settings j

theorem Trace.forwards
    (trace : (create registry settings framing control source room).Trace sent j v) :
    v.Forwards settings (control.toList.map .control)
      (framing.messages (source.lines.map (·.2))) sent j := by
  have hdelivers := trace.delivers
  have running (hr : v.session.inbound.receiving = true) : v.session.stopped = false := by
    simpa [hr] using hdelivers.heard
  refine ⟨hdelivers.sent_le, hdelivers.taken_le, fun hr => hdelivers.taken_eq (running hr), ?_, ?_⟩
  · intro hr hclosed
    simpa [unsent, Framing.messages, hdelivers.closed hclosed] using hdelivers.sent_eq (running hr)
  · intro hstopped hcrash hlistens
    obtain ⟨hsending, hsent, htaken⟩ := hdelivers.finished hstopped hcrash hlistens
    have hfaithful := trace.session.faithful
    have hresting : v.session.Resting := .inr ⟨hstopped, hlistens, hcrash⟩
    have hconduct := hfaithful.conduct_rest (hfaithful.agenda_resting hresting)
    exact ⟨hsending, hsent, htaken, hconduct.balanced (hfaithful.taking_resting hresting)⟩

end Service

/-- The reader of a service sends the messages that its input is, whatever the portions in which the
bytes come, and closes its side after them. So a service that comes to its end without a fault has
taken exactly these, after what the host asks for at the start, and has answered them. -/
theorem forwarded (registry : Registry σ) (settings : BridgeSettings) (framing : Framing)
    (control : Option Control) (segments : List Segment) (room : Option Nat) :
    let service : Service σ :=
      .create registry settings framing control (.ofSegments segments) room
    let first := control.toList.map Inbound.control
    let expected := framing.inputMessages (segments.flatMap Segment.bytes)
    (∀ sent j v, service.Trace sent j v → v.Forwards settings first expected sent j) ∧
    ∃ sent, service.Trace sent service.journal service.run ∧ service.run.ended = true ∧
      (service.run.fault? = none →
        service.run.session.inbound.sending = false ∧ sent = expected ∧
          taken service.journal = first ++ expected ∧
          service.run.session.Balanced settings service.journal) := by
  intro service first expected
  have hexpected : framing.messages ((Source.ofSegments segments).lines.map (·.2)) = expected :=
    framing.messages_eq_inputMessages segments
  have hforwards (sent : List Inbound) (j : Journal σ) (v : Service σ)
      (trace : service.Trace sent j v) : v.Forwards settings first expected sent j :=
    hexpected ▸ trace.forwards
  obtain ⟨sent, trace⟩ := Service.trace_runFor service.effort service
  have hended : service.run.ended = true := Service.run_ended ..
  refine ⟨hforwards, sent, trace, hended, fun hfine => ?_⟩
  obtain ⟨hworks, hcrash⟩ := service.run.fault?_eq_none_iff.1 hfine
  rcases trace.attended with hstaffed | ⟨hfailed, -⟩
  · have hstopped : service.run.session.stopped = true := by
      have hend : (service.run.failure.isSome || (service.run.session.stopped &&
        service.run.session.outbound.items.isEmpty)) = true := hended
      simp only [hworks, Option.isSome_none, Bool.false_or, Bool.and_eq_true] at hend
      exact hend.1
    exact (hforwards sent _ _ trace).ended hstopped hcrash hstaffed.listened
  · exact absurd hworks hfailed

namespace Rehearsal

/-- A line that ends with a carriage return and a line feed, with a pause between them, a blank
line, and a line that does not end. -/
def ragged : List Segment :=
  [.data (Text.utf8 "1 .\r"), .wait 3, .data (Text.utf8 "\n \n dup\r")]

end Rehearsal

theorem forwarded_rehearsal :
    let service : Service Scripted := .create Rehearsal.registry Rehearsal.settings .text
      (some (.start none)) (.ofSegments Rehearsal.ragged) none
    ∃ sent, service.Trace sent service.journal service.run ∧ service.run.ended = true ∧
      service.run.fault? = none ∧ sent = [.command "1 .", .command " dup\r"] ∧
      taken service.journal = [.control (.start none), .command "1 .", .command " dup\r"] := by
  intro service
  have hfine : service.run.fault? = none := by decide +kernel
  have hexpected : Framing.text.inputMessages (Rehearsal.ragged.flatMap Segment.bytes) =
      [.command "1 .", .command " dup\r"] := by decide +kernel
  obtain ⟨-, sent, trace, hended, hdone⟩ := forwarded Rehearsal.registry Rehearsal.settings .text
    (some (.start none)) Rehearsal.ragged none
  obtain ⟨-, hsent, htaken, -⟩ := hdone hfine
  rw [hexpected] at hsent htaken
  exact ⟨sent, trace, hended, hfine, hsent, htaken⟩

end EngineBridge
