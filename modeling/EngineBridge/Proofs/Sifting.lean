import EngineBridge.Proofs.Listening
import EngineBridge.Proofs.Printing

/-!
# What reading keeps and what it drops

An output of any kind, with or without an end, that is read after a sync command. Reading stops at
the first line that contains the marker and is not the echo of the sync command. That one echo is
dropped, and the rest of the line at which reading stops; all else before it is put out.
-/

namespace EngineBridge

open Text (Bytes utf8 cut terminated)

/-- The lines of an output, each with its line ending. They may come to an end. -/
abbrev Feed := Nat → Option (List Char)

namespace Feed

/-- These lines, and no more. -/
def ofList (lines : List (List Char)) : Feed := fun i => lines[i]?

/-- Lines without an end, each of which a line feed follows. -/
def endless (line : Nat → List Char) : Feed := fun i => some (line i ++ ['\n'])

/-- The lines after the first. -/
def tail (f : Feed) : Feed := fun i => f (i + 1)

/-- The first `n` lines as they are written. -/
def bytes (f : Feed) (n : Nat) : Bytes :=
  (List.range n).flatMap fun i => utf8 (.ofList ((f i).getD []))

variable {f : Feed} {line : List Char}

theorem bytes_succ (h : f 0 = some line) (n : Nat) :
    f.bytes (n + 1) = utf8 (.ofList line) ++ f.tail.bytes n := by
  simp [bytes, List.range_succ_eq_map, List.flatMap_map, h, tail]

end Feed

/-- How reading ends that has found no marker in all there is. -/
def Standing.ending : Standing → Ending
  | .closed => .fault (.ofText "interpreter exited")
  | .broken e => .fault (.ofSystem e)
  | .waiting | .busy => .hang

namespace Sync

/-- The line is the sync command, but for the carriage returns and line feeds at its end. -/
def Repeats (command : String) (line : List Char) : Prop :=
  Text.dropEndWhile (fun c => c = '\r' || c = '\n') line = command.toList

instance (command : String) (line : List Char) : Decidable (Repeats command line) :=
  inferInstanceAs (Decidable (_ = _))

section

variable (command marker : String) (awaited : Bool) (f : Feed)

/-- The echo is the first line that repeats the sync command, if an echo is awaited. -/
def IsEcho (e : Nat) : Prop :=
  awaited = true ∧ (∃ line ∈ f e, Repeats command line) ∧
    ∀ i < e, ∀ line ∈ f i, ¬ Repeats command line

instance : DecidablePred (IsEcho command awaited f) := fun e =>
  inferInstanceAs (Decidable (_ ∧ _ ∧ ∀ i < e, _))

/-- The line contains the marker, and is not the echo. -/
def IsMarked (k : Nat) : Prop :=
  (∃ line ∈ f k, marker.toList <:+: line) ∧ ¬ IsEcho command awaited f k

/-- Reading stops at the first such line. -/
def IsStop (k : Nat) : Prop :=
  IsMarked command marker awaited f k ∧ ∀ i < k, ¬ IsMarked command marker awaited f i

/-- The first `n` lines without the echo. -/
def kept (n : Nat) : List (List Char) :=
  (List.range n).filterMap fun i => if IsEcho command awaited f i then none else f i

end

/-- What becomes of the first `n` lines of a feed, if there are no more of them as yet and the child
stands like this. If reading stops among them, then all lines before that but the echo have been put
out, and of the line at which it stops the part before the marker; it has taken these lines and no
more. Else all lines but the echo have been put out, and all have been taken. -/
structure Sifts (command marker : String) (awaited : Bool) (f : Feed) (n : Nat)
    (standing : Standing) (r : Result) : Prop where
  stopped : ∀ k < n, IsStop command marker awaited f k → ∃ head behind,
    f k = some (head ++ (marker.toList ++ behind)) ∧
    First marker.toList head (head ++ (marker.toList ++ behind)) ∧
    r.ending = .done ∧
    Script.fragments r.acts = (kept command awaited f k ++ [head]).map .ofList ∧
    r.taken = (f.bytes (k + 1)).length
  unstopped : (∀ k < n, ¬ IsStop command marker awaited f k) →
    r.ending = standing.ending ∧
    Script.fragments r.acts = (kept command awaited f n).map .ofList ∧
    r.taken = (f.bytes n).length

variable {command marker : String} {awaited : Bool} {f : Feed} {line : List Char}
  {standing : Standing} {n : Nat}

theorem unended_ofList_eq_iff : unended (.ofList line) = command ↔ Repeats command line := by
  simp [unended, Repeats, Text.dropEndWhile, String.ext_iff]

/-- Whether an echo is still to be expected after a line. -/
def stillAwaited (command : String) (awaited : Bool) (line : List Char) : Bool :=
  awaited && !decide (Repeats command line)

theorem isEcho_zero (h : f 0 = some line) :
    IsEcho command awaited f 0 ↔ awaited = true ∧ Repeats command line := by
  simp [IsEcho, h]

theorem isEcho_succ (h : f 0 = some line) (e : Nat) :
    IsEcho command awaited f (e + 1) ↔
      IsEcho command (stillAwaited command awaited line) f.tail e := by
  have hbefore : (∀ i < e + 1, ∀ l ∈ f i, ¬ Repeats command l) ↔
      ¬ Repeats command line ∧ ∀ i < e, ∀ l ∈ f (i + 1), ¬ Repeats command l := by
    rw [Nat.forall_lt_succ_left]
    simp [h]
  unfold IsEcho stillAwaited Feed.tail
  rw [hbefore]
  simp only [Bool.and_eq_true, Bool.not_eq_true', decide_eq_false_iff_not]
  tauto

theorem isMarked_succ (h : f 0 = some line) (k : Nat) :
    IsMarked command marker awaited f (k + 1) ↔
      IsMarked command marker (stillAwaited command awaited line) f.tail k := by
  unfold IsMarked
  rw [isEcho_succ h]
  rfl

theorem isStop_succ (h : f 0 = some line) (k : Nat) :
    IsStop command marker awaited f (k + 1) ↔ ¬ IsMarked command marker awaited f 0 ∧
      IsStop command marker (stillAwaited command awaited line) f.tail k := by
  unfold IsStop
  rw [Nat.forall_lt_succ_left]
  simp only [isMarked_succ h]
  tauto

theorem kept_succ (h : f 0 = some line) (n : Nat) :
    kept command awaited f (n + 1) =
      (if IsEcho command awaited f 0 then [] else [line]) ++
        kept command (stillAwaited command awaited line) f.tail n := by
  unfold kept
  rw [List.range_succ_eq_map, List.filterMap_cons, List.filterMap_map]
  simp only [Function.comp_def, Nat.succ_eq_add_one, isEcho_succ h, h]
  by_cases hecho : IsEcho command awaited f 0
  · simp [hecho, Feed.tail]
  · simp [hecho, Feed.tail]

/-- A line at which reading does not stop is put out, unless it is the echo. -/
theorem Sifts.cons {r : Result} (h : f 0 = some line)
    (hline : ¬ IsMarked command marker awaited f 0)
    (hr : Sifts command marker (stillAwaited command awaited line) f.tail n standing r) :
    Sifts command marker awaited f (n + 1) standing
      (r.behind (if IsEcho command awaited f 0 then [] else [.emit (.ofList line)])
        (utf8 (.ofList line)).length) := by
  have hfragments :
      Script.fragments (if IsEcho command awaited f 0 then [] else [.emit (.ofList line)]) =
        (if IsEcho command awaited f 0 then [] else [line]).map .ofList := by
    split <;> rfl
  constructor
  · intro k hk hstop
    cases k with
    | zero => exact absurd hstop.1 hline
    | succ k =>
      obtain ⟨head, behind, hat, hfirst, hending, hput, htaken⟩ :=
        hr.stopped k (Nat.lt_of_succ_lt_succ hk) ((isStop_succ h k).1 hstop).2
      refine ⟨head, behind, hat, hfirst, hending, ?_, ?_⟩
      · rw [Result.behind, Script.fragments_append, hfragments, hput, kept_succ h]
        simp
      · rw [Result.behind, htaken, Feed.bytes_succ h (k + 1), List.length_append]
  · intro hnone
    obtain ⟨hending, hput, htaken⟩ := hr.unstopped fun k hk hstop =>
      hnone (k + 1) (Nat.succ_lt_succ hk) ((isStop_succ h k).2 ⟨hline, hstop⟩)
    refine ⟨hending, ?_, ?_⟩
    · rw [Result.behind, Script.fragments_append, hfragments, hput, kept_succ h, List.map_append]
    · rw [Result.behind, htaken, Feed.bytes_succ h n, List.length_append]

theorem Sifts.pause {r : Result} (hr : Sifts command marker awaited f n standing r)
    (millis : Nat) : Sifts command marker awaited f n standing (r.behind [.sleep millis] 0) := by
  have hsame : (r.behind [.sleep millis] 0).taken = r.taken := Nat.zero_add _
  constructor
  · intro k hk hstop
    obtain ⟨head, behind, hat, hfirst, hending, hput, htaken⟩ := hr.stopped k hk hstop
    exact ⟨head, behind, hat, hfirst, hending, hput, hsame.trans htaken⟩
  · intro hnone
    obtain ⟨hending, hput, htaken⟩ := hr.unstopped hnone
    exact ⟨hending, hput, hsame.trans htaken⟩

/-- A line with the marker that is not the echo is where reading stops. -/
theorem sifts_marked {found : String} (h : f 0 = some line)
    (hecho : ¬ (awaited = true ∧ Repeats command line))
    (hfound : beforeMarker? marker (.ofList line) = some found) :
    Sifts command marker awaited f (n + 1) standing
      ⟨[.emit found], .done, (utf8 (.ofList line)).length⟩ := by
  obtain ⟨head, hbefore, rfl⟩ := Option.map_eq_some_iff.1 hfound
  rw [String.toList_ofList] at hbefore
  obtain ⟨before, behind, hhead, rfl⟩ := eq_of_before? hbefore
  obtain rfl : head = before := by simpa using hhead
  have hmarked : IsMarked command marker awaited f 0 :=
    ⟨⟨_, h, head, behind, by simp⟩, fun hzero => hecho ((isEcho_zero h).1 hzero)⟩
  constructor
  · intro k hk hstop
    cases k with
    | zero =>
      refine ⟨head, behind, h, ?_, rfl, rfl, ?_⟩
      · intro a b hwhole
        simpa using length_le_of_before? hbefore hwhole
      · simp [Feed.bytes, h]
    | succ k => exact absurd hmarked ((isStop_succ h k).1 hstop).1
  · intro hnone
    exact absurd ⟨hmarked, by simp⟩ (hnone 0 (Nat.succ_pos n))

/-- What reading does with the lines that it hears, whatever pauses there are between them. -/
theorem sifts_listen (standing : Standing) {heard : List Heard} {lines : List (List Char)}
    (hheard : heard.filterMap Heard.line? = lines.map fun line => utf8 (.ofList line))
    (hf : ∀ i < lines.length, f i = lines[i]?) :
    Sifts command marker awaited f lines.length standing
      (listen command marker standing awaited heard) := by
  induction heard generalizing awaited lines f with
  | nil =>
    obtain rfl : lines = [] := List.map_eq_nil_iff.1 hheard.symm
    have hend : listen command marker standing awaited [] = .only standing.ending := by
      cases standing <;> rfl
    rw [hend]
    exact ⟨nofun, fun _ => ⟨rfl, rfl, rfl⟩⟩
  | cons x heard ih =>
    cases x with
    | pause millis => exact (ih hheard hf).pause millis
    | line bytes =>
      obtain ⟨line, rest, rfl⟩ : ∃ line rest, lines = line :: rest := by
        cases lines with
        | nil => simp [Heard.line?] at hheard
        | cons line rest => exact ⟨line, rest, rfl⟩
      obtain ⟨rfl, hrest⟩ : bytes = utf8 (.ofList line) ∧ heard.filterMap Heard.line? =
          rest.map fun line => utf8 (.ofList line) := by
        simpa [Heard.line?] using hheard
      have hfirst : f 0 = some line := by simpa using hf 0 (Nat.succ_pos _)
      have htail : ∀ i < rest.length, f.tail i = rest[i]? := by
        intro i hi
        simpa [Feed.tail] using hf (i + 1) (Nat.succ_lt_succ hi)
      have hmore : Sifts command marker (stillAwaited command awaited line) f.tail rest.length
          standing (listen command marker standing (stillAwaited command awaited line) heard) :=
        ih hrest htail
      rw [List.length_cons, listen, Text.ofUtf8?_utf8]
      dsimp only
      by_cases hecho : awaited = true ∧ Repeats command line
      · -- The one line that is dropped.
        have hzero : IsEcho command awaited f 0 := (isEcho_zero hfirst).2 hecho
        have hcons := hmore.cons hfirst fun hmarked => hmarked.2 hzero
        rw [if_pos hzero] at hcons
        simpa [hecho, stillAwaited, unended_ofList_eq_iff] using hcons
      · have hgoes : (awaited && decide (unended (.ofList line) = command)) = false := by
          simpa [unended_ofList_eq_iff] using hecho
        have hstill : stillAwaited command awaited line = awaited := by
          cases awaited <;> simp_all [stillAwaited]
        rw [hgoes]
        cases hfound : beforeMarker? marker (.ofList line) with
        | some found => exact sifts_marked hfirst hecho hfound
        | none =>
          have hunmarked : ¬ IsMarked command marker awaited f 0 := by
            rintro ⟨⟨l, hl, hinfix⟩, -⟩
            obtain rfl : line = l := Option.some.inj (hfirst.symm.trans hl)
            have hnone : before? marker.toList [] line = none := by
              simpa [beforeMarker?] using hfound
            exact before?_eq_none_iff.1 hnone hinfix
          have hcons := hmore.cons hfirst hunmarked
          rw [if_neg fun hzero => hecho ((isEcho_zero hfirst).1 hzero), hstill] at hcons
          exact hcons

/-- No two lines are echoes. -/
theorem IsEcho.unique {e e' : Nat} (h : IsEcho command awaited f e)
    (h' : IsEcho command awaited f e') : e = e' := by
  obtain ⟨-, ⟨line, hline, hrepeats⟩, hfirst⟩ := h
  obtain ⟨-, ⟨line', hline', hrepeats'⟩, hfirst'⟩ := h'
  rcases Nat.lt_trichotomy e e' with hlt | heq | hgt
  · exact absurd hrepeats (hfirst' e hlt line hline)
  · exact heq
  · exact absurd hrepeats' (hfirst e' hgt line' hline')

end Sync

namespace Text

/-- The lines of an output, each with its line ending. What follows the last line feed is a line
only if the output has come to an end. -/
def linesOf (ended : Bool) (output : List Char) : List (List Char) :=
  (cut output).1.map (· ++ ['\n']) ++
    if ended && !(cut output).2.isEmpty then [(cut output).2] else []

theorem isEmpty_utf8 (cs : List Char) : (utf8 (.ofList cs)).isEmpty = cs.isEmpty := by
  rw [utf8_eq_flatMap, String.toList_ofList]
  cases cs <;> simp

theorem linesOf_terminated {lines : List (List Char)} {part : List Char}
    (hlines : ∀ line ∈ lines, '\n' ∉ line) (hpart : '\n' ∉ part) :
    linesOf false (terminated lines ++ part) = lines.map (· ++ ['\n']) := by
  rw [linesOf, cut_append, cut_terminated hlines]
  simp [cut_of_not_mem hpart]

end Text

theorem Timeline.lines_after_text {t : Timeline} {taken : Nat} {output : List Char}
    (h : (written t.emissions).drop taken = utf8 (.ofList output)) :
    (t.after taken).filterMap Heard.line? =
      (Text.linesOf (t.standing = .closed) output).map fun line => utf8 (.ofList line) := by
  rw [after, lines_heard _ rfl, List.nil_append, written_unread, h, Text.cutLines_utf8]
  simp only [Text.isEmpty_utf8, Text.linesOf, List.map_append, List.map_map]
  split <;> rfl

namespace ChildInterpreter

/-- Reading stops at the first line that contains the marker and is not the echo of the sync
command, and drops nothing but that echo and the rest of the line at which it stops. If it finds no
such line, it fails at the end of the output, and goes on for as long as there is none. The lines
may come in any pieces and at any time; of an output without an end, any part may have been written
by now. -/
theorem sifted_of_exchange (s : ModuleSettings) (r : Running) (text : Option String)
    (hopen : text = none ∨ (r.child r.sent).standing ≠ .closed) :
    let next := send s r text
    let timeline := r.child next.sent
    let unread := (Timeline.written timeline.emissions).drop r.taken
    let awaited := decide (s.syncCommand ≠ s.syncMarker)
    (∀ f e e', Sync.IsEcho s.syncCommand awaited f e → Sync.IsEcho s.syncCommand awaited f e' →
      e = e') ∧
    ∃ result : Sync.Result,
      exchange s r text = (⟨.yield :: result.acts, result.ending⟩,
        { next with taken := r.taken + result.taken }) ∧
      (∀ output, unread = utf8 (.ofList output) →
        let lines := Text.linesOf (timeline.standing = .closed) output
        Sync.Sifts s.syncCommand s.syncMarker awaited (.ofList lines) lines.length
          timeline.standing result) ∧
      ∀ (line : Nat → List Char) (n : Nat) (part : List Char), (∀ i, '\n' ∉ line i) →
        part <+: line n → timeline.standing = .busy →
        unread = utf8 (.ofList (terminated ((List.range n).map line) ++ part)) →
        Sync.Sifts s.syncCommand s.syncMarker awaited (.endless line) n .busy result := by
  intro next timeline unread awaited
  have hawaited : Sync.echoes s.syncCommand s.syncMarker = awaited := by
    simp [Sync.echoes, awaited, bne, beq_eq_decide]
  refine ⟨fun f e e' h h' => h.unique h', Sync.listen s.syncCommand s.syncMarker timeline.standing
    awaited (timeline.after r.taken), ?_, ?_, ?_⟩
  · have hclosed : ¬ (text.isSome && decide ((r.child r.sent).standing = .closed)) = true := by
      rcases hopen with rfl | hopen
      · simp
      · simp [hopen]
    unfold exchange
    simp only [if_neg hclosed, hawaited]
    rfl
  · intro output houtput lines
    exact Sync.sifts_listen _ (Timeline.lines_after_text houtput) fun i _ => rfl
  · intro line n part hline hpart hbusy houtput
    have hpart : '\n' ∉ part := fun hmem => hline n (hpart.subset hmem)
    have hlines := Timeline.lines_after_text houtput
    have hended : decide (timeline.standing = .closed) = false := by simp [hbusy]
    rw [hended, Text.linesOf_terminated (by simpa using fun i _ => hline i) hpart] at hlines
    have hfeed : ∀ i < (((List.range n).map line).map (· ++ ['\n'])).length,
        Feed.endless line i = (((List.range n).map line).map (· ++ ['\n']))[i]? := by
      intro i hi
      have hi : i < n := by simpa using hi
      simp [Feed.endless, hi]
    have hsifts : Sync.Sifts s.syncCommand s.syncMarker awaited (Feed.endless line) _
        timeline.standing _ := Sync.sifts_listen timeline.standing hlines hfeed
    rw [hbusy] at hsifts ⊢
    simpa using hsifts

end ChildInterpreter

namespace Rehearsal

/-- Prints the sync command twice, and then a line that does not end; it takes its time. -/
def mumbling : Child := fun input =>
  if input.isEmpty then ⟨[], .waiting⟩
  else ⟨[.bytes (utf8 "one\n.( M"), .pause 3, .bytes (utf8 ")\r\n.( M)\ntwo")], .busy⟩

def mumbled : List Char := "one\n.( M)\r\n.( M)\ntwo".toList

def terse : ModuleSettings := { command := "forth", syncCommand := ".( M)", syncMarker := "M" }

end Rehearsal

/-- The first of the two echoes is dropped, though it contains the marker; at the second one reading
stops. -/
theorem sifted_rehearsal :
    let r : Running := { serial := 0, child := Rehearsal.mumbling }
    let lines := Text.linesOf false Rehearsal.mumbled
    (r.child r.sent).standing ≠ .closed ∧ Sync.IsEcho ".( M)" true (.ofList lines) 1 ∧
    Sync.IsStop ".( M)" "M" true (.ofList lines) 2 ∧
    ∃ result : Sync.Result,
      (ChildInterpreter.exchange Rehearsal.terse r (some "1 .")).1 =
        ⟨.yield :: result.acts, result.ending⟩ ∧
      Sync.Sifts ".( M)" "M" true (.ofList lines) 3 .busy result ∧
      result.ending = .done ∧ Script.fragments result.acts = ["one\n", ".( "] ∧
      result.taken = 17 := by
  intro r lines
  have hopen : (r.child r.sent).standing ≠ .closed := by decide
  have hecho : Sync.IsEcho ".( M)" true (.ofList lines) 1 := by decide +kernel
  have hstop : Sync.IsStop ".( M)" "M" true (.ofList lines) 2 := by
    unfold Sync.IsStop Sync.IsMarked
    decide +kernel
  obtain ⟨-, result, hx, hfinite, -⟩ := ChildInterpreter.sifted_of_exchange Rehearsal.terse r
    (some "1 .") (.inr hopen)
  have hsifts : Sync.Sifts ".( M)" "M" true (.ofList lines) 3 .busy result :=
    hfinite Rehearsal.mumbled (by decide +kernel)
  obtain ⟨head, behind, -, -, hending, -, htaken⟩ := hsifts.stopped 2 (by decide) hstop
  have hput : Script.fragments
      (ChildInterpreter.exchange Rehearsal.terse r (some "1 .")).1.acts = ["one\n", ".( "] := by
    decide +kernel
  rw [hx] at hput
  have hbytes : ((Feed.ofList lines).bytes 3).length = 17 := by decide +kernel
  exact ⟨hopen, hecho, hstop, result, congrArg Prod.fst hx, hsifts, hending, hput,
    htaken.trans hbytes⟩

end EngineBridge
