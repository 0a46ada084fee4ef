import EngineBridge.Proofs.Listening

/-!
# Where the output of a command begins and ends

A child that answers line by line and never prints a marker of its own accord is read exactly: what
a command is answered with is what the child has printed for its lines, up to the marker.
-/

namespace EngineBridge

open Text (Bytes utf8 cut)

/-- The sync command and the marker fit into a line. -/
structure ModuleSettings.Inline (s : ModuleSettings) : Prop where
  command_lineFeed : '\n' ∉ s.syncCommand.toList
  command_return : '\r' ∉ s.syncCommand.toList
  marker_lineFeed : '\n' ∉ s.syncMarker.toList
  marker_return : '\r' ∉ s.syncMarker.toList

/-- Without the carriage returns at its end, the line neither contains the marker nor is the sync
command. -/
def ModuleSettings.Plain (s : ModuleSettings) (line : List Char) : Prop :=
  let body := Text.dropEndWhile (· = '\r') line
  ¬ s.syncMarker.toList <:+: body ∧ body ≠ s.syncCommand.toList

structure LineChild where
  State : Type
  initial : State
  greeting : String
  /-- What it does with a line that is not the sync command. -/
  react : State → String → State × String
  /-- The sync command makes it print the marker, with something before it and behind it. -/
  sync : State → State × String × String
  /-- Whether the sync command is printed first. -/
  echoing : Bool

namespace LineChild

variable (m : LineChild) (s : ModuleSettings)

def syncText (st : m.State) : String :=
  (if m.echoing then s.syncCommand ++ "\n" else "") ++
    ((m.sync st).2.1 ++ s.syncMarker ++ (m.sync st).2.2 ++ "\n")

def reply (st : m.State) (line : String) : m.State × String :=
  if line = s.syncCommand then ((m.sync st).1, m.syncText s st) else m.react st line

def stateAfter (st : m.State) (lines : List String) : m.State :=
  lines.foldl (fun st line => (m.reply s st line).1) st

def printed (st : m.State) : List String → String
  | [] => ""
  | line :: lines => (m.reply s st line).2 ++ printed (m.reply s st line).1 lines

def input (lines : List String) : Bytes := lines.flatMap fun line => utf8 (line ++ "\n")

/-- The child does what the machine does. It may write it in any pieces and take its time. -/
def Plays (child : Child) : Prop :=
  ∀ lines : List String, (∀ line ∈ lines, '\n' ∉ line.toList) →
    (child (input lines)).standing = .waiting ∧
    Timeline.written (child (input lines)).emissions =
      utf8 (m.greeting ++ m.printed s m.initial lines)

/-- The machine can be in this state, with this text since its last line feed. -/
inductive Reaches : m.State → List Char → Prop
  | greeting : Reaches m.initial (cut m.greeting.toList).2
  | react {st rest line} (h : Reaches st rest) (hn : '\n' ∉ line.toList)
      (hl : line ≠ s.syncCommand) :
      Reaches (m.react st line).1 (cut (rest ++ (m.react st line).2.toList)).2
  | sync {st rest} (h : Reaches st rest) : Reaches (m.sync st).1 []

/-- What is in the marker's line before the machine prints `before`. -/
def lead (rest : List Char) : List Char := if m.echoing then [] else rest

def markerLine (st : m.State) (rest : List Char) : List Char :=
  m.lead rest ++ (m.sync st).2.1.toList ++
    (s.syncMarker.toList ++ (m.sync st).2.2.toList)

/-- The machine prints the marker when it is asked to, and nothing that could be taken for it
otherwise. -/
structure Honest : Prop where
  greeting : ∀ line ∈ (cut m.greeting.toList).1, s.Plain line
  react {st rest line} : m.Reaches s st rest → '\n' ∉ line.toList → line ≠ s.syncCommand →
    ∀ out ∈ (cut (rest ++ (m.react st line).2.toList)).1, s.Plain out
  before_lineFeed {st rest} : m.Reaches s st rest → '\n' ∉ (m.sync st).2.1.toList
  behind_lineFeed {st rest} : m.Reaches s st rest → '\n' ∉ (m.sync st).2.2.toList
  /-- It does not begin earlier. -/
  first {st rest} : m.Reaches s st rest → Sync.First s.syncMarker.toList
    (m.lead rest ++ (m.sync st).2.1.toList) (m.markerLine s st rest)
  echo {st rest} : m.Reaches s st rest → m.echoing = true →
    s.syncCommand ≠ s.syncMarker ∧ rest = []
  /-- The line cannot be taken for an echo. -/
  silent {st rest} : m.Reaches s st rest → m.echoing = false → s.syncCommand ≠ s.syncMarker →
    Text.dropEndWhile (· = '\r') (m.markerLine s st rest) ≠ s.syncCommand.toList

variable {m s} {st : m.State} {rest t : List Char}

theorem lineFeed_not_mem_markerLine (hs : s.Inline) (honest : m.Honest s)
    (hr : m.Reaches s st (cut t).2) : '\n' ∉ m.markerLine s st (cut t).2 := by
  have hlead : '\n' ∉ m.lead (cut t).2 := by
    rw [lead]
    split
    · exact List.not_mem_nil
    · exact (Text.not_mem_cut t).2
  have hbefore := honest.before_lineFeed hr
  have hbehind := honest.behind_lineFeed hr
  have hmarker := hs.marker_lineFeed
  simp only [markerLine, List.mem_append, not_or]
  exact ⟨⟨hlead, hbefore⟩, hmarker, hbehind⟩

/-- The lines that a text and the answer to the sync command make up. -/
theorem cut_syncText (hs : s.Inline) (honest : m.Honest s) (hr : m.Reaches s st (cut t).2) :
    cut (t ++ (m.syncText s st).toList) =
      ((cut t).1 ++ (if m.echoing then [s.syncCommand.toList] else []) ++
        [m.markerLine s st (cut t).2], []) := by
  have hn := lineFeed_not_mem_markerLine hs honest hr
  rw [Text.cut_append]
  cases hecho : m.echoing with
  | false =>
    have hwhole : (cut t).2 ++ (m.syncText s st).toList =
        m.markerLine s st (cut t).2 ++ '\n' :: [] := by
      simp [syncText, markerLine, lead, hecho]
    rw [hwhole, Text.cut_line hn]
    simp [cut]
  | true =>
    obtain ⟨-, hrest⟩ := honest.echo hr hecho
    have hwhole : (cut t).2 ++ (m.syncText s st).toList =
        s.syncCommand.toList ++ '\n' :: (m.markerLine s st (cut t).2 ++ '\n' :: []) := by
      simp [syncText, markerLine, lead, hecho, hrest]
    rw [hwhole, Text.cut_line hs.command_lineFeed, Text.cut_line hn]
    simp [cut]

theorem tame_of_plain (hs : s.Inline) {line : List Char} (h : s.Plain line) (echo : Bool) :
    Sync.Tame s.syncCommand s.syncMarker echo line :=
  ⟨fun hinfix => h.1 (Sync.infix_dropEndWhile hs.marker_return hinfix), fun _ => h.2⟩

/-- The lines are output up to the marker, and all of them are taken. -/
theorem listen_cut_syncText (hs : s.Inline) (honest : m.Honest s) (hr : m.Reaches s st (cut t).2)
    (ht : ∀ line ∈ (cut t).1, s.Plain line) (standing : Standing) :
    Sync.listen s.syncCommand s.syncMarker standing (Sync.echoes s.syncCommand s.syncMarker)
        ((cut (t ++ (m.syncText s st).toList)).1.map (.line ∘ Text.heardAs)) =
      ⟨(cut t).1.map (fun line => .emit (.ofList (line ++ ['\n']))) ++
          [.emit (.ofList (m.lead (cut t).2 ++ (m.sync st).2.1.toList))],
        .done,
        ((cut (t ++ (m.syncText s st).toList)).1.flatMap Text.heardAs).length⟩ := by
  have hn := lineFeed_not_mem_markerLine hs honest hr
  have hfirst := honest.first hr
  have htame : ∀ line ∈ (cut t).1, '\n' ∉ line ∧
      Sync.Tame s.syncCommand s.syncMarker (Sync.echoes s.syncCommand s.syncMarker) line :=
    fun line h => ⟨(Text.not_mem_cut t).1 line h, tame_of_plain hs (ht line h) _⟩
  rw [cut_syncText hs honest hr]
  cases hecho : m.echoing with
  | false =>
    have hsilent : Sync.echoes s.syncCommand s.syncMarker = true →
        Text.dropEndWhile (· = '\r') (m.markerLine s st (cut t).2) ≠ s.syncCommand.toList :=
      fun h => honest.silent hr hecho (by simpa [Sync.echoes] using h)
    simp only [Bool.false_eq_true, if_false, List.append_nil, List.map_append]
    rw [Sync.listen_tame_append hs.marker_lineFeed htame, markerLine]
    simp only [List.map_cons, List.map_nil, Function.comp_apply]
    rw [Sync.listen_marked hn hfirst hsilent]
    simp [Sync.Result.behind]
  | true =>
    obtain ⟨hne, -⟩ := honest.echo hr hecho
    have hechoes : Sync.echoes s.syncCommand s.syncMarker = true := by
      simpa [Sync.echoes] using hne
    simp only [if_true, List.append_assoc, List.map_append]
    rw [Sync.listen_tame_append hs.marker_lineFeed htame, hechoes, markerLine]
    simp only [List.map_cons, List.map_nil, Function.comp_apply, List.cons_append, List.nil_append]
    rw [Sync.listen_echoed hs.command_lineFeed hs.command_return,
      Sync.listen_marked hn hfirst fun h => absurd h Bool.false_ne_true]
    simp [Sync.Result.behind]

/-- Of a child that has written a text, and then the answer to the sync command, the text is heard
up to the marker. -/
theorem listen_after (hs : s.Inline) (honest : m.Honest s) (hr : m.Reaches s st (cut t).2)
    (ht : ∀ line ∈ (cut t).1, s.Plain line) {timeline : Timeline} {taken : Nat}
    (hw : timeline.standing = .waiting)
    (hwritten : (Timeline.written timeline.emissions).drop taken =
      utf8 (.ofList t ++ m.syncText s st)) :
    let r := Sync.listen s.syncCommand s.syncMarker timeline.standing
      (Sync.echoes s.syncCommand s.syncMarker) (timeline.after taken)
    r.ending = .done ∧ r.taken = (utf8 (.ofList t ++ m.syncText s st)).length ∧
      Script.printed r.acts = .ofList t ++ (m.sync st).2.1 := by
  have hwhole : String.ofList t ++ m.syncText s st =
      .ofList (t ++ (m.syncText s st).toList) := by
    simp [String.ofList_append]
  have hcut := cut_syncText hs honest hr
  have hlines : ((timeline.after taken).filterMap Heard.line?).map Heard.line =
      (cut (t ++ (m.syncText s st).toList)).1.map (.line ∘ Text.heardAs) := by
    rw [Timeline.lines_after (by simp [hw]), hwritten, hwhole, Text.cutLines_utf8, List.map_map]
  have hbytes : (cut (t ++ (m.syncText s st).toList)).1.flatMap Text.heardAs =
      utf8 (.ofList t ++ m.syncText s st) := by
    rw [← Text.utf8_terminated, hwhole]
    conv_rhs => rw [← Text.terminated_cut (t ++ (m.syncText s st).toList), hcut, List.append_nil]
    rw [hcut]
  have hlead : m.lead (cut t).2 = (cut t).2 := by
    rw [lead]
    split
    · next hecho => exact (honest.echo hr hecho).2.symm
    · rfl
  have hprinted : Script.printed ((cut t).1.map (fun line => .emit (.ofList (line ++ ['\n']))) ++
      [.emit (.ofList (m.lead (cut t).2 ++ (m.sync st).2.1.toList))]) =
      .ofList t ++ (m.sync st).2.1 := by
    rw [Script.printed_append, Sync.printed_lines, hlead]
    simp only [Script.printed_cons, Script.printed_nil, Act.text, String.append_empty]
    rw [← String.ofList_append, ← List.append_assoc, Text.terminated_cut, String.ofList_append,
      String.ofList_toList]
  obtain ⟨hending, htaken, hacts⟩ := Sync.listen_lines s.syncCommand s.syncMarker
    timeline.standing (Sync.echoes s.syncCommand s.syncMarker) (timeline.after taken)
  rw [hlines, listen_cut_syncText hs honest hr ht] at hending htaken hacts
  exact ⟨hending, htaken.trans (congrArg List.length hbytes), hacts.trans hprinted⟩

def commandLines (command : String) : List String :=
  (cut (Text.dropEndWhile (· = '\n') command.toList ++ ['\n'])).1.map String.ofList

theorem lineFeed_not_mem_commandLines {command line : String} (h : line ∈ commandLines command) :
    '\n' ∉ line.toList := by
  obtain ⟨cs, hcs, rfl⟩ := List.mem_map.1 h
  rw [String.toList_ofList]
  exact (Text.not_mem_cut _).1 cs hcs

theorem input_append (lines more : List String) :
    input (lines ++ more) = input lines ++ input more :=
  List.flatMap_append

theorem input_eq (lines : List String) :
    input lines = (lines.map String.toList).flatMap Text.heardAs := by
  rw [input, List.flatMap_map]
  congr
  funext line
  rw [Text.heardAs, String.ofList_append, String.ofList_toList]

theorem terminated_commandLines (command : String) :
    Text.terminated ((commandLines command).map String.toList) =
      Text.dropEndWhile (· = '\n') command.toList ++ ['\n'] := by
  have hrest : (cut (Text.dropEndWhile (· = '\n') command.toList ++ ['\n'])).2 = [] := by
    rw [Text.cut_append, Text.cut_line (Text.not_mem_cut _).2]
    rfl
  have hwhole := Text.terminated_cut (Text.dropEndWhile (· = '\n') command.toList ++ ['\n'])
  rw [hrest, List.append_nil] at hwhole
  simpa [commandLines, Function.comp_def] using hwhole

theorem sentLine_eq (command : String) :
    ChildInterpreter.sentLine command = input (commandLines command) := by
  rw [input_eq, ← Text.utf8_terminated, terminated_commandLines, ChildInterpreter.sentLine,
    String.ofList_append]

theorem sentLine_line {line : String} (h : '\n' ∉ line.toList) :
    ChildInterpreter.sentLine line = input [line] := by
  have hkept : Text.dropEndWhile (· = '\n') line.toList = line.toList := by
    apply Text.dropEndWhile_of_forall
    intro c hc
    simpa using fun hfeed : c = '\n' => h (hfeed ▸ hc)
  simp [ChildInterpreter.sentLine, hkept, input]

variable {lines : List String}

theorem stateAfter_append (st : m.State) (lines more : List String) :
    m.stateAfter s st (lines ++ more) = m.stateAfter s (m.stateAfter s st lines) more :=
  List.foldl_append

theorem printed_append (st : m.State) (lines more : List String) :
    m.printed s st (lines ++ more) =
      m.printed s st lines ++ m.printed s (m.stateAfter s st lines) more := by
  induction lines generalizing st with
  | nil => simp [printed, stateAfter]
  | cons line lines ih =>
    rw [List.cons_append, printed, printed, ih, String.append_assoc]
    rfl

theorem lineFeed_not_mem_of_reaches (h : m.Reaches s st rest) : '\n' ∉ rest := by
  cases h with
  | sync => exact List.not_mem_nil
  | _ => exact (Text.not_mem_cut _).2

/-- What is printed for the lines of a command is plain. -/
theorem reaches_lines (honest : m.Honest s) (h : m.Reaches s st rest)
    (hl : ∀ line ∈ lines, '\n' ∉ line.toList ∧ line ≠ s.syncCommand) :
    m.Reaches s (m.stateAfter s st lines) (cut (rest ++ (m.printed s st lines).toList)).2 ∧
      ∀ out ∈ (cut (rest ++ (m.printed s st lines).toList)).1, s.Plain out := by
  -- A line of the output may be printed for several lines, so the induction is for every `rest`.
  induction lines generalizing st rest with
  | nil =>
    have hrest := Text.cut_of_not_mem (lineFeed_not_mem_of_reaches h)
    simpa [printed, stateAfter, hrest] using h
  | cons line lines ih =>
    obtain ⟨⟨hn, hline⟩, hlines⟩ := List.forall_mem_cons.1 hl
    have hreply : m.reply s st line = m.react st line := if_neg hline
    obtain ⟨hreaches, hplain⟩ := ih (h.react hn hline) hlines
    have hwhole : rest ++ (m.printed s st (line :: lines)).toList =
        (rest ++ (m.react st line).2.toList) ++
          (m.printed s (m.react st line).1 lines).toList := by
      simp [printed, hreply]
    rw [hwhole, Text.cut_append]
    refine ⟨?_, fun out hout => ?_⟩
    · rw [stateAfter, List.foldl_cons, hreply]
      exact hreaches
    · rcases List.mem_append.1 hout with hout | hout
      · exact honest.react h hn hline out hout
      · exact hplain out hout

/-- How the machine answers a command, and its state after the sync command that follows. -/
def answer (m : LineChild) (s : ModuleSettings) (st : m.State) (command : String) :
    m.State × String :=
  let next := m.stateAfter s st (commandLines command)
  ((m.sync next).1, m.printed s st (commandLines command) ++ (m.sync next).2.1)

/-- The state after the handshake and these commands. -/
def stateWith (m : LineChild) (s : ModuleSettings) (past : List String) : m.State :=
  past.foldl (fun st command => (m.answer s st command).1) (m.sync m.initial).1

/-- All lines that the child is sent for the handshake and these commands. -/
def session (s : ModuleSettings) (past : List String) : List String :=
  s.syncCommand :: past.flatMap fun command => commandLines command ++ [s.syncCommand]

/-- The child has answered these commands, and nothing that it printed is still to be read. -/
structure Aligned (m : LineChild) (s : ModuleSettings) (past : List String) (r : Running) :
    Prop where
  plays : m.Plays s r.child
  sent : r.sent = input (session s past)
  taken : r.taken = (utf8 (m.greeting ++ m.printed s m.initial (session s past))).length
  reaches : m.Reaches s (m.stateWith s past) []

theorem reply_syncCommand (st : m.State) :
    m.reply s st s.syncCommand = ((m.sync st).1, m.syncText s st) :=
  if_pos rfl

theorem session_snoc (past : List String) (command : String) :
    session s (past ++ [command]) =
      session s past ++ (commandLines command ++ [s.syncCommand]) := by
  simp [session]

theorem stateWith_snoc (past : List String) (command : String) :
    m.stateWith s (past ++ [command]) = (m.answer s (m.stateWith s past) command).1 := by
  simp [stateWith]

theorem stateAfter_session (past : List String) :
    m.stateAfter s m.initial (session s past) = m.stateWith s past := by
  induction past using List.reverseRecOn with
  | nil => simp [session, stateAfter, stateWith, reply_syncCommand]
  | append_singleton past command ih =>
    rw [session_snoc, stateAfter_append, ih, stateAfter_append, stateWith_snoc]
    rw [stateAfter, List.foldl_cons, reply_syncCommand]
    rfl

theorem lineFeed_not_mem_session (hs : s.Inline) (past : List String) :
    ∀ line ∈ session s past, '\n' ∉ line.toList := by
  intro line hline
  rcases List.mem_cons.1 hline with rfl | hline
  · exact hs.command_lineFeed
  · obtain ⟨command, -, hline⟩ := List.mem_flatMap.1 hline
    rcases List.mem_append.1 hline with hline | hline
    · exact lineFeed_not_mem_commandLines hline
    · exact List.mem_singleton.1 hline ▸ hs.command_lineFeed

/-- One exchange with a child that has written a text that is still to be read. -/
theorem exchange_of_written (hs : s.Inline) (honest : m.Honest s)
    (hr : m.Reaches s st (cut t).2) (ht : ∀ line ∈ (cut t).1, s.Plain line) {r : Running}
    (text : Option String) (hopen : (r.child r.sent).standing ≠ .closed)
    (hw : (r.child (ChildInterpreter.send s r text).sent).standing = .waiting)
    (hwritten : (Timeline.written (r.child (ChildInterpreter.send s r text).sent).emissions).drop
      r.taken = utf8 (.ofList t ++ m.syncText s st)) :
    let x := ChildInterpreter.exchange s r text
    x.1.ending = .done ∧ Script.printed x.1.acts = .ofList t ++ (m.sync st).2.1 ∧
      x.2 = { ChildInterpreter.send s r text with
        taken := r.taken + (utf8 (.ofList t ++ m.syncText s st)).length } := by
  obtain ⟨hending, htaken, hprinted⟩ := listen_after hs honest hr ht hw hwritten
  rw [ChildInterpreter.exchange_of_open hopen]
  refine ⟨hending, ?_, ?_⟩
  · rw [Script.printed_cons]
    exact (String.empty_append).trans hprinted
  · exact congrArg (fun n => { ChildInterpreter.send s r text with taken := r.taken + n }) htaken

theorem aligned_handshake (hs : s.Inline) (honest : m.Honest s) {child : Child}
    (hm : m.Plays s child) (serial : Nat) :
    let x := ChildInterpreter.exchange s { serial, child } none
    x.1.ending = .done ∧ Script.printed x.1.acts = m.greeting ++ (m.sync m.initial).2.1 ∧
      m.Aligned s [] x.2 := by
  have hsent : (ChildInterpreter.send s { serial, child } none).sent =
      input (session s []) := by
    simp [ChildInterpreter.send, sentLine_line hs.command_lineFeed, session]
  have hprints : m.printed s m.initial (session s []) = m.syncText s m.initial := by
    simp [session, printed, reply_syncCommand]
  obtain ⟨hopen, -⟩ := hm [] nofun
  obtain ⟨hw, hwritten⟩ := hm (session s []) (lineFeed_not_mem_session hs [])
  rw [hprints] at hwritten
  obtain ⟨hending, hprinted, hx⟩ := exchange_of_written (t := m.greeting.toList)
    (r := { serial, child }) hs honest .greeting honest.greeting none
    (fun hclosed => absurd (hopen.symm.trans hclosed) nofun)
    (by rw [hsent]; exact hw)
    (by rw [hsent, List.drop_zero, hwritten, String.ofList_toList])
  rw [String.ofList_toList] at hprinted hx
  refine ⟨hending, hprinted, ?_⟩
  rw [hx]
  exact ⟨hm, hsent, by rw [hprints]; exact Nat.zero_add _, .sync .greeting⟩

theorem Aligned.next (hs : s.Inline) (honest : m.Honest s) {past : List String} {r : Running}
    (h : m.Aligned s past r) {command : String}
    (hl : ∀ line ∈ commandLines command, line ≠ s.syncCommand) :
    let x := ChildInterpreter.exchange s r (some command)
    x.1.ending = .done ∧ Script.printed x.1.acts = (m.answer s (m.stateWith s past) command).2 ∧
      m.Aligned s (past ++ [command]) x.2 := by
  have hsent : (ChildInterpreter.send s r (some command)).sent =
      input (session s (past ++ [command])) := by
    simp [ChildInterpreter.send, sentLine_line hs.command_lineFeed, sentLine_eq, session_snoc,
      input_append, h.sent]
  have hprints : m.printed s m.initial (session s (past ++ [command])) =
      m.printed s m.initial (session s past) ++
        (m.printed s (m.stateWith s past) (commandLines command) ++
          m.syncText s (m.stateAfter s (m.stateWith s past) (commandLines command))) := by
    rw [session_snoc, printed_append, stateAfter_session, printed_append]
    simp [printed, reply_syncCommand]
  obtain ⟨hopen, -⟩ := h.plays (session s past) (lineFeed_not_mem_session hs past)
  obtain ⟨hw, hwritten⟩ := h.plays (session s (past ++ [command]))
    (lineFeed_not_mem_session hs (past ++ [command]))
  obtain ⟨hreaches, hplain⟩ := reaches_lines honest h.reaches fun line hline =>
    ⟨lineFeed_not_mem_commandLines hline, hl line hline⟩
  rw [List.nil_append] at hreaches hplain
  rw [hprints, ← String.append_assoc, Text.utf8_append] at hwritten
  obtain ⟨hending, hprinted, hx⟩ := exchange_of_written (r := r) hs honest hreaches hplain
    (some command) (fun hclosed => by rw [h.sent, hopen] at hclosed; cases hclosed)
    (by rw [hsent]; exact hw)
    (by rw [hsent, hwritten, h.taken, List.drop_left, String.ofList_toList])
  rw [String.ofList_toList] at hprinted hx
  refine ⟨hending, hprinted, ?_⟩
  rw [hx]
  refine ⟨h.plays, hsent, ?_, ?_⟩
  · have hlength := congrArg List.length (Text.utf8_append
      (m.greeting ++ m.printed s m.initial (session s past))
      (m.printed s (m.stateWith s past) (commandLines command) ++
        m.syncText s (m.stateAfter s (m.stateWith s past) (commandLines command))))
    rw [List.length_append, ← h.taken] at hlength
    rw [hprints, ← String.append_assoc]
    exact hlength.symm
  · rw [stateWith_snoc]
    exact .sync hreaches

def child (m : LineChild) (s : ModuleSettings) : Child := fun bytes =>
  let lines := (Text.cutLines bytes).1.map fun line => (Text.ofUtf8? line.dropLast).getD ""
  ⟨[.bytes (utf8 (m.greeting ++ m.printed s m.initial lines))], .waiting⟩

theorem plays_child (m : LineChild) (s : ModuleSettings) : m.Plays s (m.child s) := by
  intro lines hlines
  have hinput : input lines = utf8 (.ofList (Text.terminated (lines.map String.toList))) := by
    rw [Text.utf8_terminated, input_eq]
  have hcut : cut (Text.terminated (lines.map String.toList)) = (lines.map String.toList, []) :=
    Text.cut_terminated (by simpa using hlines)
  have hread (line : List Char) :
      (Text.ofUtf8? (Text.heardAs line).dropLast).getD "" = .ofList line := by
    rw [Text.heardAs_eq, List.dropLast_concat, Text.ofUtf8?_utf8]
    rfl
  have hsame : ((Text.cutLines (input lines)).1.map fun line =>
      (Text.ofUtf8? line.dropLast).getD "") = lines := by
    rw [hinput, Text.cutLines_utf8, hcut, List.map_map, List.map_map]
    exact (List.map_congr_left fun line _ => by simp [hread]).trans (List.map_id lines)
  refine ⟨rfl, ?_⟩
  simp [child, hsame, Timeline.written, Emission.written]

end LineChild

namespace ChildInterpreter

variable {p : ChildInterpreter} {m : LineChild} {child : Child}

/-- The interpreter after a start and these commands. -/
def afterCommands (p : ChildInterpreter) (past : List String) : ChildInterpreter :=
  past.foldl (fun q command => (Interpreter.execute q onlyContext command).after) p.start.after

/-- Commands with a line of their own that is the sync command are left out: what they are answered
with would be taken for the answer to the sync command that follows. -/
def Speakable (s : ModuleSettings) (command : String) : Prop :=
  ∀ line ∈ LineChild.commandLines command, line ≠ s.syncCommand

instance (s : ModuleSettings) (command : String) : Decidable (Speakable s command) :=
  inferInstanceAs (Decidable (∀ line ∈ LineChild.commandLines command, line ≠ s.syncCommand))

theorem afterCommands_snoc (past : List String) (command : String) :
    p.afterCommands (past ++ [command]) =
      (Interpreter.execute (p.afterCommands past) onlyContext command).after := by
  simp [afterCommands]

theorem start_aligned (hs : p.settings.Inline) (honest : m.Honest p.settings)
    (hc : p.starts p.started = .ok child) (hm : m.Plays p.settings child) :
    p.start.script.ending = .done ∧
      p.start.after.banner = m.greeting ++ (m.sync m.initial).2.1 ∧
      p.start.after.settings = p.settings ∧
      ∃ r, p.start.after.running = some r ∧ m.Aligned p.settings [] r := by
  obtain ⟨hending, hprinted, haligned⟩ := LineChild.aligned_handshake hs honest hm p.started
  rcases start_cases p with ⟨child', hc', hd, hstart, -, hafter⟩ | ⟨hstart, -⟩
  · obtain rfl : child = child' := Except.ok.inj (hc.symm.trans hc')
    rw [hafter]
    exact ⟨hstart, hprinted, rfl, _, rfl, haligned⟩
  · have hdone : p.start.script.ending = .done := by
      simp only [start, hc, hending]
    exact absurd hdone hstart

theorem afterCommands_aligned (hs : p.settings.Inline) (honest : m.Honest p.settings)
    (hc : p.starts p.started = .ok child) (hm : m.Plays p.settings child) (past : List String)
    (hpast : ∀ command ∈ past, Speakable p.settings command) :
    (p.afterCommands past).settings = p.settings ∧
      ∃ r, (p.afterCommands past).running = some r ∧ m.Aligned p.settings past r := by
  induction past using List.reverseRecOn with
  | nil => exact (start_aligned hs honest hc hm).2.2
  | append_singleton past command ih =>
    obtain ⟨hsettings, r, hr, haligned⟩ := ih fun c h => hpast c (List.mem_append_left _ h)
    -- The call is answered, so that the child is not given up.
    obtain ⟨hending, -, hnext⟩ := haligned.next hs honest (hpast command (by simp))
    rw [afterCommands_snoc, execute_of_running hr, converse_of_running hr]
    refine ⟨hsettings, _, ?_, hnext⟩
    simp only [hsettings, hending]

/-- A command is answered, and its output is exactly what the child has printed for its lines, and
then before the marker. -/
theorem execute_of_honest (hs : p.settings.Inline) (honest : m.Honest p.settings)
    (hc : p.starts p.started = .ok child) (hm : m.Plays p.settings child) :
    p.start.script.ending = .done ∧
    p.start.after.banner = m.greeting ++ (m.sync m.initial).2.1 ∧
    ∀ past command, (∀ c ∈ past ++ [command], Speakable p.settings c) →
      let call := Interpreter.execute (p.afterCommands past) onlyContext command
      call.script.ending = .done ∧
      Script.printed call.script.acts =
        (m.answer p.settings (m.stateWith p.settings past) command).2 := by
  obtain ⟨hstart, hbanner, -⟩ := start_aligned hs honest hc hm
  refine ⟨hstart, hbanner, fun past command hlines => ?_⟩
  obtain ⟨hsettings, r, hr, haligned⟩ := afterCommands_aligned hs honest hc hm past
    fun c h => hlines c (List.mem_append_left _ h)
  obtain ⟨hending, hprinted, -⟩ := haligned.next hs honest (hlines command (by simp))
  rw [execute_of_running hr, converse_of_running hr, hsettings]
  exact ⟨hending, hprinted⟩

end ChildInterpreter

namespace Rehearsal

def forthSettings : ModuleSettings := { command := "gforth" }

def forth : LineChild where
  State := Unit
  initial := ()
  greeting := "Forth 1.0\n"
  react _ _ := ((), "ok ")
  sync _ := ((), "", "")
  echoing := false

theorem forth_rest {st : forth.State} {rest : List Char} (h : forth.Reaches forthSettings st rest) :
    '\n' ∉ rest ∧ '-' ∉ rest := by
  induction h with
  | greeting => decide
  | @react st rest line h hn hl ih =>
    have hrest : cut (rest ++ "ok ".toList) = ([], rest ++ "ok ".toList) :=
      Text.cut_of_not_mem (by simpa using ih.1)
    change '\n' ∉ (cut (rest ++ "ok ".toList)).2 ∧ '-' ∉ (cut (rest ++ "ok ".toList)).2
    rw [hrest]
    simpa using ih
  | sync => decide

theorem forth_honest : forth.Honest forthSettings where
  greeting := by
    have hlines : (cut forth.greeting.toList).1 = ["Forth 1.0".toList] := by decide
    intro line hline
    rw [hlines] at hline
    obtain rfl := List.mem_singleton.1 hline
    exact ⟨by decide, by decide⟩
  react {st rest line} h hn hl out hout := by
    have hrest : cut (rest ++ "ok ".toList) = ([], rest ++ "ok ".toList) :=
      Text.cut_of_not_mem (by simpa using (forth_rest h).1)
    change out ∈ (cut (rest ++ "ok ".toList)).1 at hout
    rw [hrest] at hout
    cases hout
  before_lineFeed _ := List.not_mem_nil
  behind_lineFeed _ := List.not_mem_nil
  first {st rest} h := by
    have hmarker : forthSettings.syncMarker.toList = '-' :: "-bridge-sync--".toList := by decide
    have hhead : '-' ∉ forth.lead rest ++ (forth.sync st).2.1.toList := by
      simpa [forth, LineChild.lead] using (forth_rest h).2
    rw [hmarker, LineChild.markerLine]
    exact Sync.first_of_not_mem hhead _
  echo _ hecho := by cases hecho
  silent {st rest} h _ _ := by
    have hline : forth.markerLine forthSettings st rest =
        rest ++ "--bridge-sync-".toList ++ ['-'] := by
      simp [LineChild.markerLine, LineChild.lead, forth, forthSettings, defaultSyncMarker]
    intro hsame
    have hlast := congrArg List.getLast? hsame
    rw [hline] at hlast
    simp [Text.dropEndWhile, forthSettings, defaultSyncCommand] at hlast

def forthInterpreter : ChildInterpreter where
  name := "forth"
  settings := forthSettings
  starts _ := .ok (forth.child forthSettings)

end Rehearsal

theorem execute_of_honest_rehearsal :
    Rehearsal.forthSettings.Inline ∧ Rehearsal.forth.Honest Rehearsal.forthSettings ∧
    Rehearsal.forth.Plays Rehearsal.forthSettings (Rehearsal.forth.child Rehearsal.forthSettings) ∧
    let call := Interpreter.execute (Rehearsal.forthInterpreter.afterCommands ["1 2 +"])
      ChildInterpreter.onlyContext ".\ncr\n"
    call.script.ending = .done ∧ Script.printed call.script.acts = "ok ok " := by
  have hs : Rehearsal.forthSettings.Inline := by constructor <;> decide
  have hplays := Rehearsal.forth.plays_child Rehearsal.forthSettings
  have hdelimited := ChildInterpreter.execute_of_honest (p := Rehearsal.forthInterpreter) hs
    Rehearsal.forth_honest rfl hplays
  have hlines : ∀ c ∈ ["1 2 +"] ++ [".\ncr\n"],
      ChildInterpreter.Speakable Rehearsal.forthSettings c := by
    decide
  obtain ⟨hending, hprinted⟩ := hdelimited.2.2 ["1 2 +"] ".\ncr\n" hlines
  exact ⟨hs, Rehearsal.forth_honest, hplays, hending, hprinted⟩

end EngineBridge
