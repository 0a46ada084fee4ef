import EngineBridge.Proofs.Codec
import EngineBridge.Proofs.Forwarding
import EngineBridge.Proofs.Reporting

/-!
# Messages on a stream

What one side writes in JSON framing the other side reads as the same messages in the same order,
whatever texts are in them and in whatever portions the bytes come.
-/

namespace EngineBridge

open Journal

/-- How a line ends: with a line feed, or with a carriage return in front of it. -/
inductive LineEnd where
  | lf
  | crlf
  deriving DecidableEq, Repr

def LineEnd.bytes : LineEnd → Text.Bytes
  | .lf => [Text.lineFeed]
  | .crlf => [Text.carriageReturn, Text.lineFeed]

namespace Text

/-- A text as it is written on a line. -/
def line (x : String × LineEnd) : Bytes := utf8 x.1 ++ x.2.bytes

/-- Neither a line feed nor a carriage return is among the bytes of a legible text. -/
theorem Legible.le_toNat {s : String} (h : Legible s.toList) : ∀ b ∈ utf8 s, 0x20 ≤ b.toNat := by
  intro b hb
  rw [utf8_eq_flatMap, List.mem_flatMap] at hb
  obtain ⟨c, hc, hb⟩ := hb
  by_cases hlow : b.toNat < 128
  · have hsame := toNat_of_mem_utf8EncodeChar hlow hb
    have hleast := h c hc
    omega
  · omega

variable {x : String × LineEnd} {l : List (String × LineEnd)}

theorem cutLines_line_append (h : Legible x.1.toList) (more : Bytes) :
    cutLines (line x ++ more) = (line x :: (cutLines more).1, (cutLines more).2) := by
  obtain ⟨s, e⟩ := x
  have hbytes := h.le_toNat
  have hs : lineFeed ∉ utf8 s := by
    intro hmem
    exact absurd (hbytes _ hmem) (by decide)
  cases e with
  | lf => simpa [line, LineEnd.bytes] using cutLines_line hs more
  | crlf =>
    have hreturn : lineFeed ∉ utf8 s ++ [carriageReturn] := by
      intro hmem
      rcases List.mem_append.1 hmem with hmem | hmem
      · exact hs hmem
      · exact absurd hmem (by decide)
    simpa [line, LineEnd.bytes] using cutLines_line hreturn more

theorem cutLines_lines (h : ∀ x ∈ l, Legible x.1.toList) :
    cutLines (l.flatMap line) = (l.map line, []) := by
  induction l with
  | nil => rfl
  | cons x l ih =>
    obtain ⟨hx, hl⟩ := List.forall_mem_cons.1 h
    rw [List.flatMap_cons, cutLines_line_append hx, ih hl]
    rfl

theorem chomp_line (h : Legible x.1.toList) : chomp (line x) = utf8 x.1 := by
  obtain ⟨s, e⟩ := x
  have hbytes := h.le_toNat
  cases e with
  | lf =>
    -- The byte in front of the line feed is one of the text, and stays.
    rcases List.eq_nil_or_concat (utf8 s) with hnil | ⟨init, b, hlast⟩
    · simp [line, LineEnd.bytes, hnil, chomp]
    · have hb : b ≠ carriageReturn := by
        rintro rfl
        exact absurd (hbytes carriageReturn (by simp [hlast])) (by decide)
      simp [line, LineEnd.bytes, hlast, chomp, hb]
  | crlf => simp [line, LineEnd.bytes, chomp]

theorem readable_lines (h : ∀ x ∈ l, Legible x.1.toList) :
    readable (l.map line) = (l.map (·.1), true) := by
  induction l with
  | nil => rfl
  | cons x l ih =>
    obtain ⟨hx, hl⟩ := List.forall_mem_cons.1 h
    rw [List.map_cons, readable, chomp_line hx, ofUtf8?_utf8, ih hl]
    rfl

/-- Legible texts on lines of their own are read back. -/
theorem texts_lines (h : ∀ x ∈ l, Legible x.1.toList) : texts (l.flatMap line) = l.map (·.1) := by
  have hcut : allLines (l.flatMap line) = l.map line := by
    rw [allLines, cutLines_lines h]
    simp
  rw [texts, hcut, readable_lines h]

end Text

namespace Inbound

/-- A message as a host writes it. -/
def line (x : Inbound × LineEnd) : Text.Bytes := Text.line (x.1.encode, x.2)

theorem texts_lines (l : List (Inbound × LineEnd)) :
    Text.texts (l.flatMap line) = (l.map (·.1)).map encode := by
  have hlegible : ∀ x ∈ l.map fun x => (x.1.encode, x.2), Text.Legible x.1.toList := by
    intro x hx
    obtain ⟨y, -, rfl⟩ := List.mem_map.1 hx
    exact y.1.oneLine_encode.legible
  have htexts := Text.texts_lines hlegible
  rw [List.flatMap_map, List.map_map] at htexts
  rw [List.map_map]
  exact htexts

end Inbound

namespace Outbound

variable {l : List Outbound}

/-- A message as it is written to a host. -/
def line (m : Outbound) : Text.Bytes := Text.line (m.encode, .lf)

/-- What a host makes of the bytes that it gets: one message of each line. -/
def decodeAll (bytes : Text.Bytes) : Except BridgeError (List Outbound) :=
  (Text.texts bytes).mapM decode

theorem legible_lines (h : ∀ m ∈ l, m.Counted) :
    ∀ x ∈ l.map fun m => (m.encode, LineEnd.lf), Text.Legible x.1.toList := by
  intro x hx
  obtain ⟨m, hm, rfl⟩ := List.mem_map.1 hx
  exact (oneLine_encode (h m hm)).legible

theorem mapM_decode (h : ∀ m ∈ l, m.Counted) : (l.map encode).mapM decode = .ok l := by
  induction l with
  | nil => rfl
  | cons m l ih =>
    obtain ⟨hm, hl⟩ := List.forall_mem_cons.1 h
    rw [List.map_cons, List.mapM_cons, decode_encode hm, ih hl]
    rfl

end Outbound

namespace Framing

theorem messages_encode {l : List Inbound} (h : ∀ m ∈ l, m.Sent) :
    Framing.json.messages (l.map Inbound.encode) = l := by
  induction l with
  | nil => rfl
  | cons m l ih =>
    obtain ⟨hm, hl⟩ := List.forall_mem_cons.1 h
    have hdecode := Inbound.decode_encode hm
    have hnonblank := m.oneLine_encode.nonblank
    have hrest := ih hl
    simp only [messages] at hrest ⊢
    simp [message?, hdecode, hnonblank, hrest]

theorem messages_ofSegments {l : List (Inbound × LineEnd)} (h : ∀ x ∈ l, x.1.Sent)
    {segments : List Segment} (hbytes : segments.flatMap Segment.bytes = l.flatMap Inbound.line) :
    Framing.json.messages ((Source.ofSegments segments).lines.map (·.2)) = l.map (·.1) := by
  have hsent : ∀ m ∈ l.map (·.1), m.Sent := by
    intro m hm
    obtain ⟨x, hx, rfl⟩ := List.mem_map.1 hm
    exact h x hx
  rw [Source.texts_ofSegments, hbytes, Inbound.texts_lines]
  exact messages_encode hsent

theorem frames_json (l : List Outbound) : Framing.json.frames l = l.flatMap Outbound.line := by
  have hend : Text.utf8 "\n" = [Text.lineFeed] := rfl
  have hline (m : Outbound) :
      ((Framing.json.pieces m).map Text.utf8).flatten = Outbound.line m := by
    simp [pieces, Outbound.line, Text.line, LineEnd.bytes, hend]
  simp only [frames, hline]

/-- Each message is on a line of its own, and there is nothing behind the last one. -/
theorem cutLines_frames {l : List Outbound} (h : ∀ m ∈ l, m.Counted) :
    Text.cutLines (Framing.json.frames l) = (l.map Outbound.line, []) := by
  have hcut := Text.cutLines_lines (Outbound.legible_lines h)
  rw [List.flatMap_map, List.map_map] at hcut
  rw [frames_json]
  exact hcut

theorem decodeAll_frames {l : List Outbound} (h : ∀ m ∈ l, m.Counted) :
    Outbound.decodeAll (Framing.json.frames l) = .ok l := by
  have htexts := Text.texts_lines (Outbound.legible_lines h)
  rw [List.flatMap_map, List.map_map] at htexts
  rw [Outbound.decodeAll, frames_json]
  change (Text.texts (l.flatMap fun m => Text.line (m.encode, .lf))).mapM _ = _
  rw [htexts]
  exact Outbound.mapM_decode h

end Framing

namespace Sink

/-- Write these messages, one after the other. -/
def putAll (s : Sink) (framing : Framing) (l : List Outbound) : Sink :=
  l.foldl (fun s m => (s.put ((framing.pieces m).map Text.utf8)).1) s

theorem bytes_putAll {s : Sink} (h : s.room = none) (framing : Framing) (l : List Outbound) :
    (s.putAll framing l).bytes = s.bytes ++ framing.frames l := by
  induction l generalizing s with
  | nil => simp [putAll]
  | cons m l ih =>
    obtain ⟨-, hroom, hbytes⟩ := put_accepting h ((framing.pieces m).map Text.utf8)
    have hrest := ih hroom
    simp only [putAll] at hrest ⊢
    rw [List.foldl_cons, hrest, hbytes, Framing.frames_cons, List.append_assoc]

end Sink

variable {σ : Type} [Interpreter σ]

/-- A status notice counts what is in the queue, and that does not grow beyond its limit. -/
theorem Session.Run.counted {registry : Registry σ} {settings : BridgeSettings} {j : Journal σ}
    {s : Session σ} (hlimit : settings.maxPending < 2 ^ 64)
    (run : Session.Run (.create registry settings) j s) : ∀ m ∈ posted j, m.Counted := by
  intro m hm
  obtain ⟨past, future, rfl⟩ := List.append_of_mem (mem_posted.1 hm)
  have hreports := run.faithful.conduct.reports
  rw [List.append_assoc, List.cons_append] at hreports
  have hreport := hreports.at
  cases m with
  | response text => trivial
  | notice n =>
    cases n with
    | ready => trivial
    | error kind detail => trivial
    | status state module waiting =>
      obtain ⟨before, -, hinformed⟩ := hreport
      exact Nat.lt_of_le_of_lt hinformed.waiting_le hlimit

namespace Service

variable {registry : Registry σ} {settings : BridgeSettings} {v w : Service σ} {j : Journal σ}

/-- What the journal tells is what goes in and out: the messages of the lines come in, and what the
bridge posts is written. -/
structure Relays (framing : Framing) (coming : List Inbound) (j : Journal σ) (v : Service σ) :
    Prop where
  framing_eq : v.framing = framing
  written : ∃ sent, posted j = sent ++ v.session.outbound.items ∧
    v.sink.bytes = framing.frames sent
  taken_le : taken j <+: coming
  /-- As long as the bridge is there no message is lost. -/
  coming_eq : v.session.stopped = false →
    taken j ++ (v.session.inbound.items ++ v.unsent) = coming

variable {framing : Framing} {coming : List Inbound}

/-- What the bridge has posted is written or on its way. -/
theorem Trace.written {source : Source} {first : Option Control} {sent : List Inbound}
    (trace : (create registry settings framing first source none).Trace sent j v) :
    ∃ out, posted j = out ++ v.session.outbound.items ∧ v.sink.bytes = framing.frames out := by
  induction trace with
  | start => cases first <;> exact ⟨[], rfl, rfl⟩
  | bridge _ h ih =>
    obtain ⟨t, ht, rfl⟩ := Option.map_eq_some_iff.1 h
    obtain ⟨out, hposted, hbytes⟩ := ih
    refine ⟨out, ?_, hbytes⟩
    simp [hposted, (Session.alone_noted ht).items_eq]
  | read _ h ih => cases readStep_reads h <;> exact ih
  | write before h ih =>
    obtain ⟨out, hposted, hwritten⟩ := ih
    obtain ⟨_, run⟩ := before.run
    obtain ⟨m, rest, hitems, hsession, -, -, -, -, hbytes⟩ :=
      writeStep_accepting run.sound.accepts h
    refine ⟨out ++ [m], ?_, ?_⟩
    · simp [hposted, hitems, hsession]
    · simp [hbytes, hwritten, before.delivers.framing_eq]
  | pause _ h ih =>
    cases h with
    | wake =>
      obtain ⟨-, -, -, houtbound, -⟩ := Session.wake_frame (σ := σ) _
      rw [houtbound]
      exact ih
    | elapse => exact ih
    | reschedule => exact ih

variable {first : Option Control} {source : Source} {n : Nat}

theorem Run.relays (run : Run (create registry settings framing first source none) n v) :
    ∃ j, Session.Run (.create registry settings) j v.session ∧
      Relays framing (first.toList.map .control ++ framing.messages (source.lines.map (·.2))) j
        v := by
  obtain ⟨sent, j, trace⟩ := run.trace
  have hdelivers := trace.delivers
  refine ⟨j, trace.session, hdelivers.framing_eq, trace.written,
    hdelivers.taken_le.trans ((List.prefix_append_right_inj _).2 hdelivers.sent_le), ?_⟩
  intro hstill
  rw [← List.append_assoc, hdelivers.taken_eq hstill, List.append_assoc, hdelivers.sent_eq hstill]

/-- How messages fare between a host and a service, told by the journal of its bridge: none that the
host has sent is changed, lost or put out of its place before the bridge ends, and what the host
reads is what the bridge has posted, but for what is still on its way. -/
structure Carries (coming : List Inbound) (j : Journal σ) (v : Service σ) : Prop where
  taken_le : taken j <+: coming
  coming_eq : v.session.stopped = false →
    taken j ++ (v.session.inbound.items ++ v.unsent) = coming
  heard : ∃ sent, posted j = sent ++ v.session.outbound.items ∧
    Outbound.decodeAll v.sink.bytes = .ok sent

theorem Run.carries {l : List (Inbound × LineEnd)} (hl : ∀ x ∈ l, x.1.Sent)
    {segments : List Segment} (hbytes : segments.flatMap Segment.bytes = l.flatMap Inbound.line)
    (hlimit : settings.maxPending < 2 ^ 64)
    (run : Run (create registry settings .json first (.ofSegments segments) none) n v) :
    ∃ j, Session.Run (.create registry settings) j v.session ∧
      Carries (first.toList.map .control ++ l.map (·.1)) j v := by
  obtain ⟨j, hj, hrelays⟩ := run.relays
  obtain ⟨sent, hposted, hwritten⟩ := hrelays.written
  have hcounted : ∀ m ∈ sent, m.Counted := by
    intro m hm
    apply hj.counted hlimit
    rw [hposted]
    exact List.mem_append_left _ hm
  rw [Framing.messages_ofSegments hl hbytes] at hrelays
  refine ⟨j, hj, hrelays.taken_le, hrelays.coming_eq, sent, hposted, ?_⟩
  rw [hwritten]
  exact Framing.decodeAll_frames hcounted

end Service

/-- In JSON framing messages get across. Every message that is sent is decoded as what it was before
it was encoded, and its encoding is one line that is not blank and holds no control below U+0020.
So the bytes that are written for a list of messages, cut at each line feed, give that list; lines
that a host writes give the list of its messages, in whatever portions the bytes come and whichever
way the lines end; and this is how every service fares, whatever its tasks do and when. -/
theorem carried :
    (∀ m : Outbound, m.Counted → Outbound.decode m.encode = .ok m ∧ Text.OneLine m.encode) ∧
    (∀ m : Inbound, m.Sent → Inbound.decode m.encode = m ∧ Text.OneLine m.encode) ∧
    (∀ l : List Outbound, (∀ m ∈ l, m.Counted) →
      let bytes := (({} : Sink).putAll .json l).bytes
      Text.cutLines bytes = (l.map Outbound.line, []) ∧ Outbound.decodeAll bytes = .ok l) ∧
    (∀ (l : List (Inbound × LineEnd)) (segments : List Segment), (∀ x ∈ l, x.1.Sent) →
      segments.flatMap Segment.bytes = l.flatMap Inbound.line →
      Framing.json.messages ((Source.ofSegments segments).lines.map (·.2)) = l.map (·.1) ∧
      ∀ (registry : Registry σ) (settings : BridgeSettings) (first : Option Control) (n : Nat)
        (v : Service σ), settings.maxPending < 2 ^ 64 →
        Service.Run (.create registry settings .json first (.ofSegments segments) none) n v →
        ∃ j, Session.Run (.create registry settings) j v.session ∧
          v.Carries (first.toList.map .control ++ l.map (·.1)) j) := by
  refine ⟨?_, ?_, ?_, ?_⟩
  · intro m hm
    exact ⟨Outbound.decode_encode hm, Outbound.oneLine_encode hm⟩
  · intro m hm
    exact ⟨Inbound.decode_encode hm, m.oneLine_encode⟩
  · intro l hl
    have hbytes : (({} : Sink).putAll .json l).bytes = Framing.json.frames l := by
      rw [Sink.bytes_putAll rfl]
      rfl
    dsimp only
    rw [hbytes]
    exact ⟨Framing.cutLines_frames hl, Framing.decodeAll_frames hl⟩
  · intro l segments hl hbytes
    refine ⟨Framing.messages_ofSegments hl hbytes, ?_⟩
    intro registry settings first n v hlimit run
    exact run.carries hl hbytes hlimit

namespace Rehearsal

/-- What is awkward in a text, and the largest count. -/
def replies : List Outbound :=
  [.notice .ready, .notice (.error .fault "no \"reply\"\r\n"), .response "\x00\\ \x7f",
    .notice (.status .loading none (2 ^ 64 - 1))]

def requests : List (Inbound × LineEnd) :=
  [(.control (.start none), .crlf), (.control (.start (some "forth")), .lf),
    (.command "1 .\r\n", .crlf), (.command "", .lf), (.control .status, .lf)]

/-- The lines, with a pause inside the first one. -/
def parcels : List Segment :=
  [.data ((requests.flatMap Inbound.line).take 7), .wait 3,
    .data ((requests.flatMap Inbound.line).drop 7)]

end Rehearsal

theorem carried_rehearsal :
    (∀ m ∈ Rehearsal.replies, m.Counted) ∧ (∀ x ∈ Rehearsal.requests, x.1.Sent) ∧
    Outbound.decodeAll (({} : Sink).putAll .json Rehearsal.replies).bytes =
      .ok Rehearsal.replies ∧
    Framing.json.messages ((Source.ofSegments Rehearsal.parcels).lines.map (·.2)) =
      Rehearsal.requests.map (·.1) ∧
    ∃ n v j, Service.Run (.create Rehearsal.registry Rehearsal.settings .json none
        (.ofSegments Rehearsal.parcels) none) n v ∧
      Session.Run (.create Rehearsal.registry Rehearsal.settings) j v.session ∧
      v.Carries (Rehearsal.requests.map (·.1)) j := by
  have hreplies : ∀ m ∈ Rehearsal.replies, m.Counted := by decide
  have hrequests : ∀ x ∈ Rehearsal.requests, x.1.Sent := by decide
  have hparcels : Rehearsal.parcels.flatMap Segment.bytes =
      Rehearsal.requests.flatMap Inbound.line := by
    simp [Rehearsal.parcels, Segment.bytes]
  obtain ⟨-, -, hout, hin⟩ := carried (σ := Scripted)
  obtain ⟨-, hdecoded⟩ := hout Rehearsal.replies hreplies
  obtain ⟨hmessages, hserved⟩ := hin Rehearsal.requests Rehearsal.parcels hrequests hparcels
  obtain ⟨n, run⟩ := Service.run_runFor 60 (.create Rehearsal.registry Rehearsal.settings .json none
    (.ofSegments Rehearsal.parcels) none)
  obtain ⟨j, hj, hcarries⟩ := hserved _ _ _ _ _ (by decide) run
  exact ⟨hreplies, hrequests, hdecoded, hmessages, n, _, j, run, hj, hcarries⟩

end EngineBridge
