import Mathlib.Data.List.DropRight
import EngineBridge.Proofs.Custody
import EngineBridge.Proofs.Delimiting

/-!
# A child that echoes

A child that writes back what it reads, with a sync command that is the marker itself. A command
that mentions the marker is taken for its own end: its output is cut short, and what is left of it
is read as output of the commands that come after it.
-/

namespace EngineBridge

open Text (Bytes utf8 cut terminated heardAs)

namespace Sync

variable {m : List Char}

theorem infix_terminated {lines : List (List Char)} {rest : List Char} (hm : '\n' ∉ m)
    (h : m <:+: terminated lines ++ rest) : (∃ line ∈ lines, m <:+: line) ∨ m <:+: rest := by
  induction lines with
  | nil => exact .inr h
  | cons line lines ih =>
    rw [Text.terminated_cons, List.append_assoc, List.cons_append] at h
    rcases infix_append_cons hm h with hline | hmore
    · exact .inl ⟨line, List.mem_cons_self, hline⟩
    · obtain ⟨found, hfound, hinfix⟩ | hrest := ih hmore
      · exact .inl ⟨found, List.mem_cons_of_mem _ hfound, hinfix⟩
      · exact .inr hrest

theorem First.not_infix {head tail : List Char} (hm : m ≠ [])
    (h : First m head (head ++ (m ++ tail))) : ¬ m <:+: head := by
  rintro ⟨s, t, rfl⟩
  have hle := h s (t ++ (m ++ tail)) (by simp)
  have hpos := List.length_pos_iff.2 hm
  simp only [List.length_append] at hle
  omega

theorem exists_first {line : List Char} (h : m <:+: line) :
    ∃ head tail, line = head ++ (m ++ tail) ∧ First m head (head ++ (m ++ tail)) := by
  cases hb : before? m [] line with
  | none => exact absurd h (before?_eq_none_iff.1 hb)
  | some found =>
    obtain ⟨head, tail, hfound, rfl⟩ := eq_of_before? hb
    obtain rfl : found = head := by simpa using hfound
    exact ⟨found, tail, rfl, fun a b hwhole => by simpa using length_le_of_before? hb hwhole⟩

/-- Lines, divided at the first occurrence of the marker in them. -/
structure Divided (m : List Char) (lines before : List (List Char)) (head tail : List Char)
    (behind : List (List Char)) : Prop where
  lines_eq : lines = before ++ (head ++ (m ++ tail)) :: behind
  unmarked : ∀ line ∈ before, ¬ m <:+: line
  first : First m head (head ++ (m ++ tail))

theorem exists_divided {lines : List (List Char)} (h : ∃ line ∈ lines, m <:+: line) :
    ∃ before head tail behind, Divided m lines before head tail behind := by
  induction lines with
  | nil => simp at h
  | cons line lines ih =>
    by_cases hline : m <:+: line
    · obtain ⟨head, tail, rfl, hfirst⟩ := exists_first hline
      exact ⟨[], head, tail, lines, rfl, by simp, hfirst⟩
    · obtain ⟨before, head, tail, behind, rfl, hbefore, hfirst⟩ := ih (by simpa [hline] using h)
      exact ⟨line :: before, head, tail, behind, rfl,
        List.forall_mem_cons.2 ⟨hline, hbefore⟩, hfirst⟩

variable {lines before behind : List (List Char)} {head tail : List Char}

theorem Divided.not_infix (hd : Divided m lines before head tail behind) (hn : '\n' ∉ m)
    (hm : m ≠ []) : ¬ m <:+: terminated before ++ head := by
  intro hinfix
  rcases infix_terminated hn hinfix with ⟨line, hline, hmarked⟩ | hhead
  · exact hd.unmarked line hline hmarked
  · exact hd.first.not_infix hm hhead

theorem listen_divided {command marker : String} (hm : '\n' ∉ marker.toList)
    (hlines : ∀ line ∈ lines, '\n' ∉ line)
    (hd : Divided marker.toList lines before head tail behind) (standing : Standing) :
    listen command marker standing false (lines.map (.line ∘ heardAs)) =
      ⟨before.map (fun line => .emit (.ofList (line ++ ['\n']))) ++ [.emit (.ofList head)], .done,
        ((before ++ [head ++ (marker.toList ++ tail)]).flatMap heardAs).length⟩ := by
  rw [hd.lines_eq] at hlines ⊢
  have htame : ∀ line ∈ before, '\n' ∉ line ∧ Tame command marker false line := by
    intro line h
    exact ⟨hlines line (List.mem_append_left _ h), hd.unmarked line h,
      fun h => absurd h Bool.false_ne_true⟩
  have hline : '\n' ∉ head ++ (marker.toList ++ tail) := hlines _ (by simp)
  rw [List.map_append, listen_tame_append hm htame, List.map_cons, Function.comp_apply,
    listen_marked hline hd.first fun h => absurd h Bool.false_ne_true]
  simp [Result.behind]

end Sync

/-- The sync command is the marker, a line of its own. -/
structure ModuleSettings.Echoed (s : ModuleSettings) : Prop where
  same : s.syncCommand = s.syncMarker
  lineFeed : '\n' ∉ s.syncMarker.toList
  nonempty : s.syncMarker ≠ ""

/-- A child that echoes, and the lines of it that are still to be read. -/
structure Running.Echoing (r : Running) (unread : List (List Char)) : Prop where
  child : r.child = .echo
  taken_le : r.taken ≤ r.sent.length
  rest : r.sent.drop r.taken = unread.flatMap heardAs
  lineFeed : ∀ line ∈ unread, '\n' ∉ line

theorem Child.echo_after (input : Bytes) (taken : Nat) :
    (echo input).after taken = (Text.cutLines (input.drop taken)).1.map .line := by
  have hheard (b : Bytes) : Timeline.heard false [] [.bytes b] =
      (Text.cutLines b).1.map .line := by
    simp [Timeline.heard]
  by_cases h : input.length ≤ taken
  · have hdrop : input.drop taken = [] := List.drop_of_length_le h
    rw [hdrop]
    simp [echo, Timeline.after, Timeline.unread, h, Timeline.heard, Text.cutLines]
  · have hunread : Timeline.unread taken [.bytes input] = [.bytes (input.drop taken)] := by
      rw [Timeline.unread, if_neg h]
    rw [← hheard, ← hunread]
    rfl

theorem Text.cutLines_heardAs {lines : List (List Char)} (h : ∀ line ∈ lines, '\n' ∉ line) :
    Text.cutLines (lines.flatMap heardAs) = (lines.map heardAs, []) := by
  rw [← Text.utf8_terminated, Text.cutLines_utf8, Text.cut_terminated h]
  rfl

namespace Running.Echoing

variable {s : ModuleSettings} {r : Running} {unread new before behind : List (List Char)}
  {line : List Char} {text : Option String}

theorem send (h : r.Echoing unread)
    (hsent : (ChildInterpreter.send s r text).sent = r.sent ++ new.flatMap heardAs)
    (hnew : ∀ line ∈ new, '\n' ∉ line) :
    (ChildInterpreter.send s r text).Echoing (unread ++ new) where
  child := h.child
  taken_le := by
    rw [hsent, List.length_append]
    exact h.taken_le.trans (Nat.le_add_right _ _)
  rest := by
    rw [hsent, List.flatMap_append, ← h.rest]
    exact List.drop_append_of_le_length h.taken_le
  lineFeed := List.forall_mem_append.2 ⟨h.lineFeed, hnew⟩

theorem take (h : r.Echoing (before ++ line :: behind)) :
    Running.Echoing
      { r with taken := r.taken + ((before ++ [line]).flatMap heardAs).length } behind := by
  have hrest : r.sent.drop r.taken =
      (before ++ [line]).flatMap heardAs ++ behind.flatMap heardAs := by
    rw [h.rest]
    simp
  have hlength := congrArg List.length hrest
  rw [List.length_drop, List.length_append] at hlength
  have hle := h.taken_le
  constructor
  · exact h.child
  · change r.taken + _ ≤ r.sent.length
    omega
  · rw [← List.drop_drop, hrest, List.drop_left]
  · exact fun line hl => h.lineFeed line (by simp [hl])

end Running.Echoing

namespace ChildInterpreter

variable {s : ModuleSettings} {r : Running} {unread new : List (List Char)} {text : Option String}

/-- What there is to be read is read up to the first occurrence of the marker. -/
theorem exchange_echo (hs : s.Echoed) (h : r.Echoing unread)
    (hsent : (send s r text).sent = r.sent ++ new.flatMap heardAs)
    (hnew : ∀ line ∈ new, '\n' ∉ line) (hmem : s.syncMarker.toList ∈ new) :
    ∃ before head tail behind,
      Sync.Divided s.syncMarker.toList (unread ++ new) before head tail behind ∧
      (exchange s r text).1 =
        ⟨.yield :: (before.map (fun line => .emit (.ofList (line ++ ['\n']))) ++
          [.emit (.ofList head)]), .done⟩ ∧
      (exchange s r text).2.Echoing behind := by
  have hmarked : ∃ line ∈ unread ++ new, s.syncMarker.toList <:+: line :=
    ⟨_, List.mem_append_right _ hmem, List.infix_refl _⟩
  obtain ⟨before, head, tail, behind, hd⟩ := Sync.exists_divided hmarked
  have hsend := h.send hsent hnew
  have hunread : (send s r text).sent.drop r.taken = (unread ++ new).flatMap heardAs := hsend.rest
  have hechoes : Sync.echoes s.syncCommand s.syncMarker = false := by
    simp [Sync.echoes, hs.same]
  have hopen : (r.child r.sent).standing ≠ .closed := by
    simp [h.child, Child.echo]
  rw [exchange_of_open hopen, h.child, Child.echo_after, hunread,
    Text.cutLines_heardAs hsend.lineFeed, List.map_map, hechoes,
    Sync.listen_divided hs.lineFeed hsend.lineFeed hd]
  rw [hd.lines_eq] at hsend
  exact ⟨before, head, tail, behind, hd, rfl, hsend.take⟩

/-- A command as it comes back. -/
def echoOf (command : String) : String :=
  .ofList (Text.dropEndWhile (· = '\n') command.toList) ++ "\n"

def Mentions (s : ModuleSettings) (command : String) : Prop :=
  s.syncMarker.toList <:+: command.toList

variable {command : String}

/-- The lines that a child is sent with a command. -/
def written (s : ModuleSettings) (command : String) : List (List Char) :=
  (LineChild.commandLines command).map String.toList ++ [s.syncMarker.toList]

theorem sentLine_syncCommand (hs : s.Echoed) :
    sentLine s.syncCommand = [s.syncMarker.toList].flatMap heardAs := by
  rw [hs.same, LineChild.sentLine_line hs.lineFeed, LineChild.input_eq]
  rfl

theorem sent_written (hs : s.Echoed) (r : Running) (command : String) :
    (send s r (some command)).sent = r.sent ++ (written s command).flatMap heardAs := by
  simp [send, written, sentLine_syncCommand hs, LineChild.sentLine_eq, LineChild.input_eq]

theorem lineFeed_not_mem_written (hs : s.Echoed) (command : String) :
    ∀ line ∈ written s command, '\n' ∉ line := by
  intro line hline
  rcases List.mem_append.1 hline with hline | hline
  · obtain ⟨text, htext, rfl⟩ := List.mem_map.1 hline
    exact LineChild.lineFeed_not_mem_commandLines htext
  · exact List.mem_singleton.1 hline ▸ hs.lineFeed

theorem mentions_of_line (hs : s.Echoed) {line : String}
    (hl : line ∈ LineChild.commandLines command) (h : s.syncMarker.toList <:+: line.toList) :
    Mentions s command := by
  have hline : line.toList <:+:
      terminated ((LineChild.commandLines command).map String.toList) := by
    obtain ⟨before, behind, hlines⟩ := List.append_of_mem (List.mem_map_of_mem hl)
    rw [hlines, Text.terminated_append, Text.terminated_cons]
    exact ⟨terminated before, '\n' :: terminated behind, by simp⟩
  have hinfix := h.trans hline
  rw [LineChild.terminated_commandLines, Sync.infix_concat_iff hs.lineFeed] at hinfix
  exact hinfix.trans (List.rdropWhile_prefix _ command.toList).isInfix

private theorem printed_first (before : List (List Char)) (head : List Char) :
    Script.printed (.yield :: (before.map (fun line => .emit (.ofList (line ++ ['\n']))) ++
      [.emit (.ofList head)])) = .ofList (terminated before ++ head) := by
  rw [Script.printed_cons, Script.printed_append, Sync.printed_lines, String.ofList_append]
  simp [Act.text]

/-- What is read for a command never contains the marker. -/
theorem exchange_unmarked (hs : s.Echoed) (h : r.Echoing unread) (command : String) :
    ¬ s.syncMarker.toList <:+:
      (Script.printed (exchange s r (some command)).1.acts).toList := by
  obtain ⟨before, head, tail, behind, hd, hscript, -⟩ :=
    exchange_echo hs h (sent_written hs r command) (lineFeed_not_mem_written hs command)
      (List.mem_append_right _ List.mem_cons_self)
  have hnonempty : s.syncMarker.toList ≠ [] := by simpa using hs.nonempty
  rw [hscript, printed_first, String.toList_ofList]
  exact hd.not_infix hs.lineFeed hnonempty

/-- If nothing was left to be read, a command without the marker comes back, and nothing is left
again. -/
theorem exchange_aligned (hs : s.Echoed) (h : r.Echoing []) (hc : ¬ Mentions s command) :
    Script.printed (exchange s r (some command)).1.acts = echoOf command ∧
      (exchange s r (some command)).2.Echoing [] := by
  obtain ⟨before, head, tail, behind, ⟨hlines, -, -⟩, hscript, hnext⟩ :=
    exchange_echo hs h (sent_written hs r command) (lineFeed_not_mem_written hs command)
      (List.mem_append_right _ List.mem_cons_self)
  rw [List.nil_append, written] at hlines
  rcases List.eq_nil_or_concat behind with rfl | ⟨more, last, rfl⟩
  · obtain ⟨rfl, hmarker⟩ := List.append_inj' hlines rfl
    have hhead : head = [] := by
      have hlength := congrArg List.length (List.singleton_inj.1 hmarker)
      simp only [List.length_append] at hlength
      exact List.length_eq_zero_iff.1 (by omega)
    refine ⟨?_, hnext⟩
    rw [hscript, printed_first, hhead, List.append_nil, LineChild.terminated_commandLines, echoOf,
      String.ofList_append]
  · -- Then a line of the command contains the marker.
    rw [List.concat_eq_append, ← List.cons_append, ← List.append_assoc] at hlines
    obtain ⟨hcommand, -⟩ := List.append_inj' hlines rfl
    have hmem : head ++ (s.syncMarker.toList ++ tail) ∈
        (LineChild.commandLines command).map String.toList := by
      rw [hcommand]
      exact List.mem_append_right _ List.mem_cons_self
    obtain ⟨line, hline, hsame⟩ := List.mem_map.1 hmem
    exact absurd (mentions_of_line hs hline ⟨head, tail, by simp [hsame]⟩) hc

variable {p : ChildInterpreter} {past : List Enquiry} {a : Adapter ChildInterpreter} {limit : Nat}

theorem sent_handshake (hs : s.Echoed) (r : Running) :
    (send s r none).sent = r.sent ++ [s.syncMarker.toList].flatMap heardAs := by
  simp [send, sentLine_syncCommand hs]

theorem exchange_handshake (hs : s.Echoed) (serial : Nat) :
    (exchange s { serial, child := .echo } none).1.ending = .done ∧
      (exchange s { serial, child := .echo } none).2.Echoing [] := by
  have hfresh : Running.Echoing { serial, child := .echo } [] :=
    ⟨rfl, Nat.le_refl _, rfl, nofun⟩
  obtain ⟨before, head, tail, behind, ⟨hlines, -, -⟩, hscript, hnext⟩ :=
    exchange_echo hs hfresh (sent_handshake hs _) (by simpa using hs.lineFeed)
      List.mem_cons_self
  have hbehind : behind = [] := by
    have hlength := congrArg List.length hlines
    simp only [List.nil_append, List.length_append, List.length_cons, List.length_nil] at hlength
    exact List.length_eq_zero_iff.1 (by omega)
  rw [hbehind] at hnext
  exact ⟨by rw [hscript], hnext⟩

/-- Unless a command has mentioned the marker, nothing is left to be read. -/
theorem echoing_of_attuned (hs : p.settings.Echoed) (hstarts : ∀ n, p.starts n = .ok .echo)
    {cs : List String} (h : p.Attuned cs r) :
    ∃ unread, r.Echoing unread ∧ ((∀ c ∈ cs, ¬ Mentions p.settings c) → unread = []) := by
  induction h with
  | @greeted serial child hc hd =>
    obtain rfl : Child.echo = child := Except.ok.inj ((hstarts serial).symm.trans hc)
    exact ⟨[], (exchange_handshake hs serial).2, fun _ => rfl⟩
  | @answered cs r command h hd ih =>
    obtain ⟨unread, hr, hunread⟩ := ih
    -- Once a command has mentioned the marker, it is only known that whole lines are left.
    by_cases hcs : ∀ c ∈ cs ++ [command], ¬ Mentions p.settings c
    · obtain rfl := hunread fun c hc => hcs c (List.mem_append_left _ hc)
      exact ⟨[], (exchange_aligned hs hr (hcs command (by simp))).2, fun _ => rfl⟩
    · obtain ⟨before, head, tail, behind, -, -, hnext⟩ :=
        exchange_echo hs hr (sent_written hs r command) (lineFeed_not_mem_written hs command)
          (List.mem_append_right _ List.mem_cons_self)
      exact ⟨behind, hnext, fun h => absurd h hcs⟩

theorem start_echo (hs : p.settings.Echoed) (hstarts : ∀ n, p.starts n = .ok .echo) :
    p.start.script.ending = .done := by
  have hending := (exchange_handshake hs p.started).1
  simp only [start, hstarts, hending]

/-- A call of a course, and the child that its command was written to. -/
theorem answer_of_served (hs : p.settings.Echoed) (hstarts : ∀ n, p.starts n = .ok .echo)
    (served : (p.adapter limit).Served past a) {q : Enquiry} (hq : q ∈ past) {text : String}
    (hx : q.execution.answer = .ok text) :
    ∃ r unread, r.Echoing unread ∧
      text = Script.printed (exchange p.settings r (some q.command)).1.acts ∧
      ((∀ x ∈ past, ∀ text, x.execution.answer = .ok text → ¬ Mentions p.settings x.command) →
        unread = []) := by
  obtain ⟨earlier, hearlier, hsub⟩ := served.before hq
  have held := held_of_served (start_echo hs hstarts) hearlier
  obtain ⟨r, haddr, -, htext, -⟩ := held.answered hx
  obtain ⟨⟨hattuned, hanswered⟩, -⟩ := held.addressee haddr
  obtain ⟨unread, hr, hunread⟩ := echoing_of_attuned hs hstarts hattuned
  refine ⟨r, unread, hr, htext, fun hnone => hunread fun c hc => ?_⟩
  obtain ⟨x, hxmem, rfl⟩ := List.mem_map.1 hc
  obtain ⟨hxmem, hfor⟩ := List.mem_filter.1 hxmem
  obtain ⟨answer, hanswer⟩ := hanswered x hxmem hfor
  exact hnone x (hsub x hxmem) answer hanswer

theorem verdict_echo (hs : s.Echoed) (h : r.Echoing unread) (hl : 0 < limit) (command : String) :
    ((exchange s r (some command)).1.within limit).verdict = .done := by
  obtain ⟨before, head, tail, behind, -, hscript, -⟩ :=
    exchange_echo hs h (sent_written hs r command) (lineFeed_not_mem_written hs command)
      (List.mem_append_right _ List.mem_cons_self)
  have hemits : before.map (fun line => Act.emit (.ofList (line ++ ['\n']))) ++
      [.emit (.ofList head)] =
        (before.map (fun line => String.ofList (line ++ ['\n'])) ++ [String.ofList head]).map
          .emit := by
    simp
  rw [hscript, hemits, Script.within, Script.follow, if_pos hl]
  exact Script.follow_emits _ _ _

theorem running_of_served (hs : p.settings.Echoed) (hstarts : ∀ n, p.starts n = .ok .echo)
    (hl : 0 < limit) (served : (p.adapter limit).Served past a) :
    (a.unusable = none ∧ a.execTimeout = limit ∧ ∃ r, a.engine.running = some r) ∧
      ∀ q ∈ past, q.context = onlyContext → ∃ text, q.execution.answer = .ok text := by
  have hstart := start_echo hs hstarts
  induction served with
  | nothing =>
    rcases start_cases p with ⟨child, -, -, -, -, hafter⟩ | ⟨hfailed, -⟩
    · exact ⟨⟨rfl, rfl, _, congrArg ChildInterpreter.running hafter⟩, nofun⟩
    · exact absurd hstart hfailed
  | @next past a served context command ih =>
    obtain ⟨⟨hu, htime, r, hr⟩, hanswered⟩ := ih
    have held := held_of_served hstart served
    obtain ⟨unread, hecho, -⟩ := echoing_of_attuned hs hstarts (held.trusted r hr).attuned
    by_cases hc : context = onlyContext
    · subst hc
      have hv : ((Interpreter.execute a.engine onlyContext command).script.within
          a.execTimeout).verdict = .done := by
        rw [execute_of_running hr, converse_of_running hr, held.settings, htime]
        exact verdict_echo hs hecho hl command
      obtain ⟨text, hx⟩ : ∃ text, (a.execute onlyContext command).answer = .ok text := by
        simp only [Adapter.execute, hu, hv]
        exact ⟨_, rfl⟩
      have hu' : (a.execute onlyContext command).after.unusable = none := by
        simp only [Adapter.execute, hu, hv]
        rfl
      obtain ⟨r', -, -, -, hr'⟩ := held.answered hx
      obtain ⟨-, htime'⟩ := Adapter.execute_frame held.drained onlyContext command
      refine ⟨⟨hu', htime'.trans htime, _, hr'⟩, fun q hq hcontext => ?_⟩
      rcases List.mem_append.1 hq with hq | hq
      · exact hanswered q hq hcontext
      · obtain rfl := List.mem_singleton.1 hq
        exact ⟨text, hx⟩
    · rw [Adapter.execute_foreign hu held.drained hc]
      refine ⟨⟨hu, htime, r, hr⟩, fun q hq hcontext => ?_⟩
      rcases List.mem_append.1 hq with hq | hq
      · exact hanswered q hq hcontext
      · obtain rfl := List.mem_singleton.1 hq
        exact absurd hcontext hc

/-- Each answer is its own command, come back, if and only if no command that is answered contains
the marker. The child is never late. -/
theorem echoed_iff_of_served (hs : p.settings.Echoed) (hstarts : ∀ n, p.starts n = .ok .echo)
    (served : (p.adapter limit).Served past a) :
    ((∀ q ∈ past, ∀ text, q.execution.answer = .ok text → text = echoOf q.command) ↔
      ∀ q ∈ past, ∀ text, q.execution.answer = .ok text → ¬ Mentions p.settings q.command) ∧
    (0 < limit → ∀ q ∈ past, q.context = onlyContext → ∃ text, q.execution.answer = .ok text) := by
  refine ⟨⟨fun hall q hq text hx hmentions => ?_, fun hnone q hq text hx => ?_⟩, fun hl =>
    (running_of_served hs hstarts hl served).2⟩
  · -- Its echo would contain the marker, and what is read does not.
    obtain ⟨r, unread, hr, htext, -⟩ := answer_of_served hs hstarts served hq hx
    have hunmarked := exchange_unmarked hs hr q.command
    rw [← htext, hall q hq text hx] at hunmarked
    apply hunmarked
    have hinfix := Sync.infix_dropEndWhile hs.lineFeed hmentions
    rw [echoOf, String.toList_append, String.toList_ofList]
    exact hinfix.trans (List.prefix_append _ _).isInfix
  · obtain ⟨r, unread, hr, htext, hunread⟩ := answer_of_served hs hstarts served hq hx
    obtain rfl := hunread hnone
    rw [htext]
    exact (exchange_aligned hs hr (hnone q hq text hx)).1

end ChildInterpreter

namespace Rehearsal

def cat : ChildInterpreter where
  name := "cat"
  settings := { command := "cat", syncCommand := "--end--", syncMarker := "--end--" }
  starts _ := .ok Child.echo

theorem cat_echoed : cat.settings.Echoed where
  same := rfl
  lineFeed := by decide
  nonempty := by decide

end Rehearsal

/-- The second command has two lines, and line feeds at its end. -/
theorem echoed_rehearsal :
    Rehearsal.cat.settings.Echoed ∧ ∃ past a, (Rehearsal.cat.adapter 50).Served past a ∧
      past.map (·.execution.answer) = [.ok "a\n", .ok "b\nc\n"] ∧
      ∀ q ∈ past, ∀ text, q.execution.answer = .ok text →
        text = ChildInterpreter.echoOf q.command := by
  have served : (Rehearsal.cat.adapter 50).Served [] _ := .nothing
  have served := (served.next 0 "a").next 0 "b\nc\n\n"
  have hechoed := ChildInterpreter.echoed_iff_of_served Rehearsal.cat_echoed (fun _ => rfl) served
  refine ⟨Rehearsal.cat_echoed, _, _, served, by decide +kernel, hechoed.1.2 ?_⟩
  have hcommands : ∀ c ∈ ["a", "b\nc\n\n"],
      ¬ ChildInterpreter.Mentions Rehearsal.cat.settings c := by
    unfold ChildInterpreter.Mentions
    decide
  intro q hq text _
  exact hcommands q.command (List.mem_map_of_mem hq)

/-- A command that is the marker ends at once; its echo, and all that follow, are read one command
late. -/
theorem output_leaked : ∃ past a, (Rehearsal.cat.adapter 50).Served past a ∧
    past.map (fun q => (q.command, q.execution.answer)) =
      [("--end--", .ok ""), ("a", .ok ""), ("b", .ok "a\n")] ∧
    ¬ ∀ q ∈ past, ∀ text, q.execution.answer = .ok text →
      text = ChildInterpreter.echoOf q.command := by
  have served : (Rehearsal.cat.adapter 50).Served [] _ := .nothing
  have served := ((served.next 0 "--end--").next 0 "a").next 0 "b"
  refine ⟨_, _, served, by decide +kernel, fun h => ?_⟩
  have hempty : "" = ChildInterpreter.echoOf "--end--" :=
    h ⟨Rehearsal.cat.adapter 50, 0, "--end--"⟩ (by simp) "" (by decide +kernel)
  revert hempty
  decide

end EngineBridge
