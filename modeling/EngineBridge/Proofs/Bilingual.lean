import EngineBridge.Proofs.Relaying

/-!
# One session in two framings

Commands that are written as they are in text framing, and as JSON in JSON framing, make the same
session: the bridge does the same, call for call. What is written in text framing is what a host
that reads the other output makes of its responses.
-/

namespace EngineBridge

open Journal

namespace Text

/-- The line is read as it stands, and not passed over. -/
structure Verbatim (line : String) : Prop where
  lineFeed : '\n' ∉ line.toList
  carriageReturn : line.toList.getLast? ≠ some '\r'
  nonblank : isBlankLine line = false

instance (line : String) : Decidable (Verbatim line) :=
  decidable_of_iff ('\n' ∉ line.toList ∧ line.toList.getLast? ≠ some '\r' ∧
      isBlankLine line = false)
    ⟨fun ⟨h, h', h''⟩ => ⟨h, h', h''⟩, fun ⟨h, h', h''⟩ => ⟨h, h', h''⟩⟩

/-- Lines as they are written, each with a line feed. -/
def written (lines : List String) : Bytes := lines.flatMap fun line => utf8 line ++ [lineFeed]

variable {line : String} {lines : List String}

theorem utf8_injective {a b : String} (h : utf8 a = utf8 b) : a = b := by
  have hread := ofUtf8?_utf8 a
  rw [h, ofUtf8?_utf8] at hread
  exact (Option.some.inj hread).symm

theorem Verbatim.lineFeed_not_mem (h : Verbatim line) : Text.lineFeed ∉ utf8 line := by
  rw [← String.ofList_toList (s := line)]
  exact lineFeed_not_mem_utf8 h.lineFeed

theorem Verbatim.dropReturn_utf8 (h : Verbatim line) : dropReturn (utf8 line) = utf8 line := by
  unfold dropReturn
  split
  next hlast =>
    obtain ⟨init, hinit⟩ := List.getLast?_eq_some_iff.1 hlast
    obtain ⟨t, rfl⟩ := utf8_concat_return hinit
    have hline : line = t ++ "\r" := utf8_injective (by rw [hinit, utf8_append]; rfl)
    exact absurd (by simp [hline]) h.carriageReturn
  · rfl

theorem cutLines_written (h : ∀ line ∈ lines, Verbatim line) :
    cutLines (written lines) = (lines.map fun line => utf8 line ++ [lineFeed], []) := by
  induction lines with
  | nil => rfl
  | cons line lines ih =>
    obtain ⟨hline, hlines⟩ := List.forall_mem_cons.1 h
    have hmore := cutLines_line hline.lineFeed_not_mem (written lines)
    rw [ih hlines] at hmore
    simpa [written] using hmore

theorem readable_written (h : ∀ line ∈ lines, Verbatim line) :
    readable (lines.map fun line => utf8 line ++ [lineFeed]) = (lines, true) := by
  induction lines with
  | nil => rfl
  | cons line lines ih =>
    obtain ⟨hline, hlines⟩ := List.forall_mem_cons.1 h
    rw [List.map_cons, readable, chomp_terminated, hline.dropReturn_utf8, ofUtf8?_utf8, ih hlines]

theorem texts_written (h : ∀ line ∈ lines, Verbatim line) : texts (written lines) = lines := by
  simp [texts, allLines, cutLines_written h, readable_written h]

/-- A response as it is written in text framing: it ends its line. -/
def endLine (text : String) : String :=
  if text.toList.getLast? = some '\n' then text else text ++ "\n"

end Text

def Outbound.response? : Outbound → Option String
  | .response text => some text
  | .notice _ => none

namespace Framing

/-- Both framings read the same commands. -/
theorem messages_text {lines : List String} (h : ∀ line ∈ lines, Text.Verbatim line)
    {portions : List Segment} (hbytes : portions.flatMap Segment.bytes = Text.written lines) :
    Framing.text.messages ((Source.ofSegments portions).lines.map (·.2)) =
      lines.map .command := by
  rw [Source.texts_ofSegments, hbytes, Text.texts_written h, messages,
    List.filterMap_eq_map_iff_forall_eq_some]
  intro line hline
  simp [message?, (h line hline).nonblank]

theorem messages_json {lines : List String} {portions : List Segment}
    (hbytes : portions.flatMap Segment.bytes =
      Text.written (lines.map fun line => (Inbound.command line).encode)) :
    Framing.json.messages ((Source.ofSegments portions).lines.map (·.2)) =
      lines.map .command := by
  have hwritten : portions.flatMap Segment.bytes =
      (lines.map fun line => (Inbound.command line, LineEnd.lf)).flatMap Inbound.line := by
    rw [hbytes, Text.written, List.flatMap_map, List.flatMap_map]
    rfl
  have hmessages := messages_ofSegments (by simp [Inbound.Sent]) hwritten
  simpa [Function.comp_def] using hmessages

/-- In text framing the responses are all that is written. -/
theorem frames_text (l : List Outbound) :
    Framing.text.frames l =
      (l.filterMap Outbound.response?).flatMap fun text => Text.utf8 (Text.endLine text) := by
  induction l with
  | nil => rfl
  | cons m l ih =>
    rw [frames_cons, ih]
    cases m with
    | notice n => rfl
    | response text =>
      simp only [List.filterMap_cons, Outbound.response?, List.flatMap_cons, pieces, Text.endLine]
      split <;> simp

end Framing

variable {σ : Type} [Interpreter σ]

/-- If the status is asked for before any command, its answer counts none. -/
theorem Session.Run.counted_of_first {registry : Registry σ} {settings : BridgeSettings}
    {j : Journal σ} {s : Session σ} (run : Session.Run (.create registry settings) j s)
    (hfirst : ∀ past later, taken j = past ++ .control .status :: later → past = []) :
    ∀ m ∈ posted j, m.Counted := by
  intro m hm
  obtain ⟨past, future, rfl⟩ := List.append_of_mem (mem_posted.1 hm)
  have hreports := run.faithful.conduct.reports
  rw [List.append_assoc, List.cons_append] at hreports
  have hreport := hreports.at
  cases m with
  | response text => trivial
  | notice n =>
    cases n with
    | ready => trivial
    | error kind detail => trivial
    | status state module waiting =>
      obtain ⟨before, rfl, hinformed⟩ := hreport
      have hnone : taken before = [] := hfirst _ (taken future) (by simp)
      have hcommands : commands before = [] := by
        rw [← filterMap_command?_taken, hnone, List.filterMap_nil]
      have hwaiting : waiting = 0 := by
        by_cases hover : state = .ready ∨ state = .failed
        · exact hinformed.none_waiting hover
        · obtain ⟨hready, hfailed⟩ := not_or.1 hover
          have hcount := hinformed.waiting_eq hready hfailed
          rw [hcommands, List.length_nil] at hcount
          omega
      rw [hwaiting]
      exact Nat.two_pow_pos 64

namespace Service

variable {registry : Registry σ} {settings : BridgeSettings} {framing : Framing}
  {first : Option Control} {source : Source} {v w : Service σ} {sent : List Inbound}
  {j : Journal σ}

/-- What has been done is what was to be expected, up to what still is. -/
theorem Trace.outlook_eq
    (trace : (create registry settings framing first source none).Trace sent j v)
    (hready : ∀ name ∈ requested (create registry settings framing first source none).outlook,
      ∀ x, registry.find? name = some x → x.module.starting.Prompt) :
    v.session.Fresh ∧
      (create registry settings framing first source none).outlook = j ++ v.outlook := by
  induction trace with
  | start =>
    refine ⟨?_, rfl⟩
    intro x p deadline seen hj
    cases first <;> cases hj
  | @bridge sent j w u before h ih =>
    obtain ⟨hfresh, houtlook⟩ := ih
    obtain ⟨_, run⟩ := before.run
    have hsound := run.sound
    obtain ⟨t, ht, rfl⟩ := Option.map_eq_some_iff.1 h
    have hstill : w.session.Ready w.unsent := by
      intro name hname x hx
      rw [hsound.registry_eq] at hx
      refine hready name ?_ x hx
      rw [houtlook, requested_append]
      exact List.mem_append_right _ hname
    have hclosed (hs : w.session.inbound.sending = false) : w.unsent = [] := by
      simp [unsent, Framing.messages, hsound.closed hs]
    obtain ⟨-, hfulfils⟩ := Session.fulfils_advance before.session.faithful hfresh
      hsound.listened hstill hclosed ht
    refine ⟨hfulfils.fresh, ?_⟩
    rw [houtlook, List.append_assoc]
    exact congrArg _ hfulfils.outlook_eq
  | read before h ih =>
    obtain ⟨_, run⟩ := before.run
    rw [outlook_read run.sound h]
    refine ⟨?_, ih.2⟩
    cases readStep_reads h <;> exact ih.1
  | write before h ih =>
    obtain ⟨_, run⟩ := before.run
    rw [outlook_write run.sound h]
    refine ⟨?_, ih.2⟩
    obtain ⟨_, _, -, hsession, -⟩ := writeStep_accepting run.sound.accepts h
    rw [hsession]
    exact ih.1
  | pause _ h ih =>
    obtain ⟨hfresh, houtlook, -⟩ := pause_eq ih.1 h
    exact ⟨hfresh, houtlook ▸ ih.2⟩

/-- A service that has come to its end has done all that was to be expected of it, and has written
what its bridge has posted. -/
theorem Trace.whole
    (trace : (create registry settings framing first source none).Trace sent j v)
    (hready : ∀ name ∈ requested (create registry settings framing first source none).outlook,
      ∀ x, registry.find? name = some x → x.module.starting.Prompt)
    (hended : v.ended = true) :
    j = (create registry settings framing first source none).outlook ∧
      v.sink.bytes = framing.frames (posted j) := by
  obtain ⟨_, run⟩ := trace.run
  obtain ⟨hstopped, hitems⟩ : v.session.stopped = true ∧ v.session.outbound.items = [] := by
    simpa [ended, run.sound.working] using hended
  obtain ⟨-, houtlook⟩ := trace.outlook_eq hready
  obtain ⟨out, hposted, hbytes⟩ := trace.written
  rw [outlook_stopped hstopped, List.append_nil] at houtlook
  rw [hitems, List.append_nil] at hposted
  exact ⟨houtlook.symm, hposted ▸ hbytes⟩

theorem outlook_resize (capacity : Nat) :
    (create registry { settings with channelCapacity := capacity } framing first source
      none).outlook = Bridge.dialogue (registry.loader settings) (some { settings })
        (first.toList.map .control ++ framing.messages (source.lines.map (·.2))) := by
  rw [outlook_create]
  exact Bridge.dialogue_resize _ (some { settings }) capacity _

end Service

private theorem status_first {first : Option Control} {lines : List String}
    {past later : List Inbound}
    (h : past ++ .control .status :: later <+: first.toList.map .control ++ lines.map .command) :
    past = [] := by
  obtain ⟨rest, hwhole⟩ := h
  have hstatus : (.control .status : Inbound) ∉ lines.map Inbound.command := by simp
  cases past with
  | nil => rfl
  | cons m past =>
    refine absurd ?_ hstatus
    cases first with
    | none =>
      have hall : m :: past ++ .control .status :: later ++ rest = lines.map .command := hwhole
      rw [← hall]
      simp
    | some c =>
      have htail : past ++ .control .status :: later ++ rest = lines.map .command :=
        (List.cons.inj hwhole).2
      rw [← htail]
      simp

/-- Commands that are served as they stand in text framing, and as JSON in JSON framing, make the
same session. However the tasks of either service have their turns, whatever the portions of its
input and the capacity of its channels, its bridge does the same in both, so that the same calls are
made in the same order; and the output in text framing is the responses of the JSON output, each on
lines of its own, and nothing else. -/
theorem same_in_either_framing (registry : Registry σ) (settings : BridgeSettings)
    (first : Option Control) (lines : List String) (hlines : ∀ line ∈ lines, Text.Verbatim line)
    (hprompt : ∀ name ∈ settings.requestedModule
        (first.toList.map .control ++ lines.map .command),
      ∀ x, registry.find? name = some x → x.module.starting.Prompt)
    {portions portions' : List Segment} (hraw : portions.flatMap Segment.bytes = Text.written lines)
    (hjson : portions'.flatMap Segment.bytes =
      Text.written (lines.map fun line => (Inbound.command line).encode))
    (capacity capacity' : Nat) :
    let text : Service σ := .create registry { settings with channelCapacity := capacity } .text
      first (.ofSegments portions) none
    let json : Service σ := .create registry { settings with channelCapacity := capacity' } .json
      first (.ofSegments portions') none
    ((∃ sent, text.Trace sent text.journal text.run) ∧ text.run.ended = true) ∧
    ((∃ sent, json.Trace sent json.journal json.run) ∧ json.run.ended = true) ∧
    ∀ sent j v sent' j' w, text.Trace sent j v → v.ended = true → json.Trace sent' j' w →
      w.ended = true →
      j = j' ∧ calls j = calls j' ∧
      ∃ out, Outbound.decodeAll w.sink.bytes = .ok out ∧
        v.sink.bytes =
          (out.filterMap Outbound.response?).flatMap fun s => Text.utf8 (Text.endLine s) := by
  intro text json
  have houtlook : text.outlook = json.outlook := by
    rw [Service.outlook_resize, Service.outlook_resize, Framing.messages_text hlines hraw,
      Framing.messages_json hjson]
  have hready : ∀ name ∈ requested text.outlook, ∀ x, registry.find? name = some x →
      x.module.starting.Prompt := by
    intro name hname
    rw [Service.outlook_resize, Framing.messages_text hlines hraw,
      Bridge.requested_dialogue rfl, Option.mem_toList] at hname
    exact hprompt name hname
  refine ⟨⟨Service.trace_runFor _ _, Service.run_ended ..⟩,
    ⟨Service.trace_runFor _ _, Service.run_ended ..⟩, ?_⟩
  intro sent j v sent' j' w trace hended trace' hended'
  obtain ⟨hj, hbytes⟩ := trace.whole hready hended
  obtain ⟨hj', hbytes'⟩ := trace'.whole (houtlook ▸ hready) hended'
  have hsame : j = j' := hj.trans (houtlook.trans hj'.symm)
  -- Only the first message can be a question for the status, and no command waits then.
  have hcounted : ∀ m ∈ posted j', m.Counted := by
    apply trace'.session.counted_of_first
    intro past later htaken
    have hdelivers := trace'.delivers
    have hprefix := hdelivers.taken_le.trans
      ((List.prefix_append_right_inj _).2 hdelivers.sent_le)
    rw [htaken, Framing.messages_json hjson] at hprefix
    exact status_first hprefix
  refine ⟨hsame, congrArg calls hsame, posted j', ?_, ?_⟩
  · rw [hbytes']
    exact Framing.decodeAll_frames hcounted
  · rw [hbytes, hsame, Framing.frames_text]

namespace Rehearsal

/-- The second line would be a message in JSON, and the third begins like a text in JSON. -/
def utterances : List String := ["1 .", "\x7b\"cmd\":\"status\"\x7d", " \"dup\t\r "]

def uttered : List Segment :=
  [.data ((Text.written utterances).take 2), .wait 3, .data ((Text.written utterances).drop 2)]

def quoted : List Segment :=
  [.data (Text.written (utterances.map fun line => (Inbound.command line).encode))]

end Rehearsal

theorem same_in_either_framing_rehearsal :
    (∀ line ∈ Rehearsal.utterances, Text.Verbatim line) ∧
    Rehearsal.uttered.flatMap Segment.bytes = Text.written Rehearsal.utterances ∧
    Rehearsal.quoted.flatMap Segment.bytes =
      Text.written (Rehearsal.utterances.map fun line => (Inbound.command line).encode) ∧
    let text : Service Scripted := .create Rehearsal.registry
      { Rehearsal.settings with channelCapacity := 1 } .text (some (.start none))
      (.ofSegments Rehearsal.uttered) none
    let json : Service Scripted := .create Rehearsal.registry
      { Rehearsal.settings with channelCapacity := 0 } .json (some (.start none))
      (.ofSegments Rehearsal.quoted) none
    calls text.journal = Rehearsal.utterances.map (0, ·) ∧
    calls text.journal = calls json.journal ∧
    (posted json.journal).length = 4 ∧ text.run.sink.bytes = Text.utf8 "1 \n" ∧
    ∃ out, Outbound.decodeAll json.run.sink.bytes = .ok out ∧
      text.run.sink.bytes =
        (out.filterMap Outbound.response?).flatMap fun s => Text.utf8 (Text.endLine s) := by
  have hlines : ∀ line ∈ Rehearsal.utterances, Text.Verbatim line := by decide
  have hraw : Rehearsal.uttered.flatMap Segment.bytes = Text.written Rehearsal.utterances := by
    simp [Rehearsal.uttered, Segment.bytes]
  have hjson : Rehearsal.quoted.flatMap Segment.bytes =
      Text.written (Rehearsal.utterances.map fun line => (Inbound.command line).encode) := by
    simp [Rehearsal.quoted, Segment.bytes]
  have hprompt : ∀ name ∈ Rehearsal.settings.requestedModule
      ((some (Control.start none)).toList.map .control ++ Rehearsal.utterances.map .command),
      ∀ x, Rehearsal.registry.find? name = some x → x.module.starting.Prompt := by
    intro name hname x hx
    obtain rfl : "forth" = name := Option.some.inj hname
    obtain rfl : _ = x := Option.some.inj hx
    decide
  obtain ⟨⟨⟨sent, trace⟩, hended⟩, ⟨⟨sent', trace'⟩, hended'⟩, hsame⟩ :=
    same_in_either_framing Rehearsal.registry Rehearsal.settings (some (.start none))
      Rehearsal.utterances hlines hprompt hraw hjson 1 0
  obtain ⟨-, hcalls, out, hout, hbytes⟩ := hsame _ _ _ _ _ _ trace hended trace' hended'
  exact ⟨hlines, hraw, hjson, by decide +kernel, hcalls, by decide +kernel, by decide +kernel, out,
    hout, hbytes⟩

end EngineBridge
