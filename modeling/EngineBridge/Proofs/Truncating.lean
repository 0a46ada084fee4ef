import EngineBridge.Proofs.Deadlines
import EngineBridge.Proofs.Forwarding

/-!
# Writers that fail

A writer that takes so many bytes and then fails has got the first of the bytes that another gets
which never fails, wherever in a message that may be. Up to then the two services do the same, and
after that the bridge may go on for a while without a host: it calls its engine for nothing that it
would not have called it for.
-/

namespace EngineBridge

open Journal

namespace Sink

variable {s t u : Sink} {r r' r'' : Nat} {a b c : Text.Bytes}

/-- A writer `s` with room for `r` bytes that is offered `a`, and whatever is behind that, comes to
the same as `t` with room for `r'` that is offered `b` and that. -/
structure Passes (s : Sink) (r : Nat) (a : Text.Bytes) (t : Sink) (r' : Nat) (b : Text.Bytes) :
    Prop where
  room_eq : t.room = some r'
  bytes_eq : ∀ more, t.bytes ++ (b ++ more).take r' = s.bytes ++ (a ++ more).take r
  fits_iff : ∀ k, b.length + k ≤ r' ↔ a.length + k ≤ r
  left_eq : ∀ k, r' - (b.length + k) = r - (a.length + k)

private theorem passes_self (h : s.room = some r) : Passes s r a s r a :=
  ⟨h, fun _ => rfl, fun _ => Iff.rfl, fun _ => rfl⟩

private theorem Passes.trans (first : Passes s r a t r' b) (second : Passes t r' b u r'' c) :
    Passes s r a u r'' c where
  room_eq := second.room_eq
  bytes_eq more := (second.bytes_eq more).trans (first.bytes_eq more)
  fits_iff k := (second.fits_iff k).trans (first.fits_iff k)
  left_eq k := (second.left_eq k).trans (first.left_eq k)

private theorem Passes.append (h : Passes s r a t r' b) (c : Text.Bytes) :
    Passes s r (a ++ c) t r' (b ++ c) where
  room_eq := h.room_eq
  bytes_eq more := by
    have hbytes := h.bytes_eq (c ++ more)
    rwa [← List.append_assoc, ← List.append_assoc] at hbytes
  fits_iff k := by
    have hfits := h.fits_iff (c.length + k)
    simp only [List.length_append]
    omega
  left_eq k := by
    have hleft := h.left_eq (c.length + k)
    simp only [List.length_append]
    omega

private theorem offer_passes (h : s.room = some r) (a : Text.Bytes) :
    Passes s r a (s.offer a).1 (r - a.length) (s.offer a).2 := by
  have hoffer : s.offer a =
      ({ room := some (r - a.length), taken := a.take r :: s.taken }, a.drop r) := by
    simp [offer, h]
  rw [hoffer]
  refine ⟨rfl, fun more => ?_, fun k => ?_, fun k => ?_⟩
  · have hbytes : ({ room := some (r - a.length), taken := a.take r :: s.taken } : Sink).bytes =
        s.bytes ++ a.take r := by simp [Sink.bytes]
    rw [hbytes, List.append_assoc]
    by_cases hfits : a.length ≤ r
    · rw [List.take_of_length_le hfits, List.drop_of_length_le hfits, List.nil_append,
        List.take_append, List.take_of_length_le hfits]
    · have hfull : r - a.length = 0 := by omega
      rw [hfull, List.take_zero, List.append_nil, List.take_append_of_le_length (by omega)]
  · simp only [List.length_drop]
    omega
  · simp only [List.length_drop]
    omega

private theorem offer_full (h : s.room = some r) {a : Text.Bytes} (hleft : (s.offer a).2 ≠ []) :
    r < a.length ∧ (s.offer a).1.bytes = s.bytes ++ a.take r := by
  have hoffer : s.offer a =
      ({ room := some (r - a.length), taken := a.take r :: s.taken }, a.drop r) := by
    simp [offer, h]
  rw [hoffer] at hleft ⊢
  have hpos : 0 < (a.drop r).length := List.length_pos_iff.2 hleft
  rw [List.length_drop] at hpos
  exact ⟨by omega, by simp [Sink.bytes]⟩

private theorem write_passes (h : s.room = some r) (buffered piece : Text.Bytes) :
    (∃ t r' rest, s.write buffered piece = (t, some rest) ∧
      Passes s r (buffered ++ piece) t r' rest) ∨
    ∃ t, s.write buffered piece = (t, none) ∧ r < (buffered ++ piece).length ∧
      t.bytes = s.bytes ++ (buffered ++ piece).take r := by
  have hsize : 0 < bufferSize := by decide
  -- Nothing is buffered when a large piece goes to the writer itself.
  have direct {t : Sink} {r' : Nat} (hpassed : Passes s r buffered t r' [])
      (hlarge : ¬ piece.length < bufferSize)
      (hwrite : s.write buffered piece =
        if (t.offer piece).2.length < bufferSize then
          ((t.offer piece).1, some (t.offer piece).2)
        else ((t.offer piece).1, none)) :
      (∃ t r' rest, s.write buffered piece = (t, some rest) ∧
        Passes s r (buffered ++ piece) t r' rest) ∨
      ∃ t, s.write buffered piece = (t, none) ∧ r < (buffered ++ piece).length ∧
        t.bytes = s.bytes ++ (buffered ++ piece).take r := by
    have hahead := hpassed.append piece
    rw [List.nil_append] at hahead
    by_cases hsmall : (t.offer piece).2.length < bufferSize
    · rw [if_pos hsmall] at hwrite
      exact .inl ⟨_, _, _, hwrite, hahead.trans (offer_passes hpassed.room_eq piece)⟩
    · rw [if_neg hsmall] at hwrite
      have hleft : (t.offer piece).2 ≠ [] := List.length_pos_iff.1 (by omega)
      obtain ⟨hover, hbytes⟩ := offer_full hpassed.room_eq hleft
      have hfits := hahead.fits_iff 0
      have htaken := hahead.bytes_eq []
      simp only [Nat.add_zero, List.append_nil] at hfits htaken
      refine .inr ⟨_, hwrite, ?_, hbytes.trans htaken⟩
      exact Nat.lt_of_not_le fun hle => absurd (hfits.2 hle) (Nat.not_le.2 hover)
  by_cases hfull : bufferSize < buffered.length + piece.length
  · by_cases hleft : (s.offer buffered).2 = []
    · have hpassed := offer_passes h buffered
      rw [hleft] at hpassed
      by_cases hsmall : piece.length < bufferSize
      · refine .inl ⟨(s.offer buffered).1, _, piece, ?_, hpassed.append piece⟩
        simp [write, hfull, hleft, hsmall]
      · refine direct hpassed hsmall ?_
        simp [write, hfull, hleft, hsmall]
    · obtain ⟨hover, hbytes⟩ := offer_full h hleft
      refine .inr ⟨(s.offer buffered).1, ?_, ?_, ?_⟩
      · simp [write, hfull, hleft]
      · rw [List.length_append]
        omega
      · rw [hbytes, List.take_append_of_le_length (Nat.le_of_lt hover)]
  · by_cases hsmall : piece.length < bufferSize
    · refine .inl ⟨s, r, buffered ++ piece, ?_, passes_self h⟩
      simp [write, hfull, hsmall]
    · obtain rfl : buffered = [] := List.eq_nil_of_length_eq_zero (by omega)
      have hfits : ¬ bufferSize < piece.length := by simpa using hfull
      refine direct (passes_self h) hsmall ?_
      simp [write, hfits, hsmall]

private theorem go_limited (h : s.room = some r) (buffered : Text.Bytes)
    (pieces : List Text.Bytes) :
    (put.go s buffered pieces).1.bytes = s.bytes ++ (buffered ++ pieces.flatten).take r ∧
    ((put.go s buffered pieces).2 = none ↔ (buffered ++ pieces.flatten).length ≤ r) ∧
    ((put.go s buffered pieces).2 = none → (put.go s buffered pieces).1.room =
      some (r - (buffered ++ pieces.flatten).length)) := by
  induction pieces generalizing s r buffered with
  | nil =>
    have hpassed := offer_passes h buffered
    by_cases hleft : (s.offer buffered).2 = []
    · rw [hleft] at hpassed
      have hbytes := hpassed.bytes_eq []
      have hfits := hpassed.fits_iff 0
      simp only [List.append_nil, List.take_nil, List.length_nil, Nat.add_zero, Nat.zero_le,
        true_iff] at hbytes hfits
      simp [put.go, hleft, hbytes, hfits, hpassed.room_eq]
    · obtain ⟨hover, hbytes⟩ := offer_full h hleft
      simp [put.go, hleft, hbytes, hover]
  | cons piece pieces ih =>
    rw [put.go]
    rcases write_passes h buffered piece with ⟨t, r', rest, hwrite, hpassed⟩ |
      ⟨t, hwrite, hover, hbytes⟩
    · obtain ⟨hbytes, hfits, hroom⟩ := ih hpassed.room_eq rest
      have hsame := hpassed.bytes_eq pieces.flatten
      have hiff := hpassed.fits_iff pieces.flatten.length
      have hleft := hpassed.left_eq pieces.flatten.length
      simp only [hwrite, List.flatten_cons, ← List.append_assoc]
      simp only [List.length_append] at hiff hleft hfits hroom ⊢
      exact ⟨hbytes.trans hsame, hfits.trans hiff, fun hfine => hleft ▸ hroom hfine⟩
    · simp only [hwrite, List.flatten_cons, ← List.append_assoc]
      refine ⟨?_, ?_, fun hfine => absurd hfine (Option.some_ne_none _)⟩
      · rw [hbytes, List.take_append_of_le_length (Nat.le_of_lt hover)]
      · simp only [List.length_append] at hover ⊢
        exact ⟨fun hfine => absurd hfine (Option.some_ne_none _),
          fun hle => absurd hover (Nat.not_lt.2 (Nat.le_of_add_right_le hle))⟩

/-- A writer takes as much of a message as it has room for, and fails if that is not all. -/
theorem put_limited (h : s.room = some r) (pieces : List Text.Bytes) :
    (s.put pieces).1.bytes = s.bytes ++ pieces.flatten.take r ∧
    ((s.put pieces).2 = none ↔ pieces.flatten.length ≤ r) ∧
    ((s.put pieces).2 = none → (s.put pieces).1.room = some (r - pieces.flatten.length)) := by
  simpa [put] using go_limited h [] pieces

end Sink

variable {σ : Type} [Interpreter σ]

namespace Service

/-- The same service with another writer. -/
abbrev withSink (v : Service σ) (sink : Sink) : Service σ := { v with sink }

variable {v w full cut : Service σ} {sink : Sink} {n fuel : Nat}

omit [Interpreter σ] in
theorem wakeBridge_withSink (v : Service σ) (sink : Sink) (needed : Bool) :
    (v.withSink sink).wakeBridge needed = (v.wakeBridge needed).withSink sink := by
  unfold wakeBridge
  dsimp only [withSink]
  split <;> rfl

omit [Interpreter σ] in
theorem wakeReader_withSink (v : Service σ) (sink : Sink) (needed : Bool) :
    (v.withSink sink).wakeReader needed = (v.wakeReader needed).withSink sink := by
  unfold wakeReader
  dsimp only [withSink]
  split <;> rfl

omit [Interpreter σ] in
theorem failure_wakeBridge (v : Service σ) (needed : Bool) :
    (v.wakeBridge needed).failure = v.failure := by
  unfold wakeBridge
  dsimp only
  split <;> rfl

omit [Interpreter σ] in
theorem sink_wakeBridge (v : Service σ) (needed : Bool) :
    (v.wakeBridge needed).sink = v.sink := by
  unfold wakeBridge
  dsimp only
  split <;> rfl

theorem bridgeTurn_withSink (v : Service σ) (sink : Sink) :
    (v.withSink sink).bridgeTurn = v.bridgeTurn.withSink sink := by
  unfold bridgeTurn
  cases hs : v.session.advance with
  | none => rfl
  | some s => exact wakeReader_withSink { v with session := s, schedule := _ } sink _

omit [Interpreter σ] in
theorem readStep_withSink (v : Service σ) (sink : Sink) :
    (v.withSink sink).readStep = v.readStep.map (·.withSink sink) := by
  unfold readStep
  dsimp only
  cases v.source.lines with
  | nil =>
    dsimp only
    by_cases hclosed : (v.session.inbound.sending && v.source.closes ≤ v.session.now) = true
    · rw [if_pos hclosed, if_pos hclosed]
      rfl
    · rw [if_neg hclosed, if_neg hclosed]
      rfl
  | cons x rest =>
    dsimp only
    by_cases hlater : v.session.now < x.1
    · rw [if_pos hlater, if_pos hlater]
      rfl
    · rw [if_neg hlater, if_neg hlater]
      cases v.framing.message? x.2 with
      | none => rfl
      | some m => cases v.session.inbound.receiving <;> cases v.session.inbound.hasRoom <;> rfl

omit [Interpreter σ] in
theorem readerTurn_withSink (v : Service σ) (sink : Sink) :
    (v.withSink sink).readerTurn = v.readerTurn.withSink sink := by
  unfold readerTurn
  rw [readStep_withSink]
  cases v.readStep with
  | none => rfl
  | some w => exact wakeBridge_withSink w sink _

/-- A writer makes no difference until it is the output's turn. -/
theorem step_withSink (hw : v.schedule.writing = false) (sink : Sink) :
    (v.withSink sink).step = v.step.map (·.withSink sink) := by
  have hround : ({ v.withSink sink with schedule := v.schedule.round }.wakeBridge
      v.schedule.deferred) =
        ({ v with schedule := v.schedule.round }.wakeBridge v.schedule.deferred).withSink sink :=
    wakeBridge_withSink { v with schedule := v.schedule.round } sink _
  have hwriting : ¬ v.schedule.writing = true := by simp [hw]
  unfold step
  dsimp only
  by_cases he : v.ended = true
  · rw [if_pos (show (v.withSink sink).ended = true from he), if_pos he]
    rfl
  rw [if_neg (show ¬ (v.withSink sink).ended = true from he), if_neg he, if_neg hwriting,
    if_neg hwriting]
  by_cases hturns : Schedule.interval ≤ v.schedule.turns
  · rw [if_pos hturns, if_pos hturns]
    exact congrArg some hround
  rw [if_neg hturns, if_neg hturns]
  cases v.schedule.queue with
  | cons role queue =>
    cases role with
    | bridge => exact congrArg some (bridgeTurn_withSink v sink)
    | reader => exact congrArg some (readerTurn_withSink v sink)
  | nil =>
    cases v.schedule.deferred || v.schedule.awake with
    | true => exact congrArg some hround
    | false =>
      have htimer : (v.withSink sink).timer = v.timer := rfl
      simp only [clockStep, htimer, Bool.false_eq_true, if_false, Option.map_map]
      congr 1
      funext now
      exact (congrArg (·.wakeReader true) (wakeBridge_withSink
        { v.onClock now with schedule := v.schedule.round } sink _)).trans
          (wakeReader_withSink _ sink true)

/-- Only the output gives its writer anything. -/
theorem sink_step (hw : v.schedule.writing = false) (h : v.step = some w) : w.sink = v.sink := by
  have hkept : v.step = v.step.map (·.withSink v.sink) := step_withSink hw v.sink
  rw [h, Option.map_some, Option.some.injEq] at hkept
  rw [hkept]

theorem step_writing (hw : v.schedule.writing = true) :
    v.step = if v.ended then none else some v.outputTurn := by
  simp [step, hw]

omit [Interpreter σ] in
/-- How the turn of an output with something to write ends is up to its writer alone. -/
theorem outputTurn_writes {m : Outbound} {rest : List Outbound}
    (hitems : v.session.outbound.items = m :: rest) :
    ∃ w : Service σ, ∀ sink : Sink,
      let put := sink.put ((v.framing.pieces m).map Text.utf8)
      (put.2 = none → (v.withSink sink).outputTurn = w.withSink put.1) ∧
      (put.2 ≠ none → (v.withSink sink).outputTurn.failure ≠ none ∧
        (v.withSink sink).outputTurn.sink = put.1) := by
  let written : Service σ :=
    { v with
      session := { v.session with outbound := { v.session.outbound with items := rest } }
      diagnostics := (v.framing.diagnostic? m).toList ++ v.diagnostics
      failure := none }
  refine ⟨written.wakeBridge (!v.session.agenda.isEmpty), fun sink => ?_⟩
  have hwrite : (v.withSink sink).writeStep = some
      (let put := sink.put ((v.framing.pieces m).map Text.utf8)
      let w : Service σ := { written with sink := put.1, failure := put.2 }
      if put.2.isNone then w
      else { w with session :=
        { w.session with outbound := w.session.outbound.closeReceiver } }) := by
    simp [writeStep, Channel.take?, hitems, written]
  unfold outputTurn
  rw [hwrite]
  rcases sink.put ((v.framing.pieces m).map Text.utf8) with ⟨after, failure⟩
  refine ⟨?_, ?_⟩
  · rintro rfl
    exact wakeBridge_withSink written after _
  · intro hfailed
    obtain ⟨f, rfl⟩ := Option.ne_none_iff_exists'.1 hfailed
    dsimp only
    rw [failure_wakeBridge, sink_wakeBridge]
    exact ⟨Option.some_ne_none f, rfl⟩

/-- Two services that differ in their writers alone: one takes everything, the other takes `n` bytes
and has taken the same so far. -/
structure Alike (n : Nat) (full cut : Service σ) : Prop where
  cut_eq : cut = full.withSink cut.sink
  accepts : full.sink.room = none
  room_eq : cut.sink.room = some (n - full.sink.bytes.length)
  fits : full.sink.bytes.length ≤ n
  bytes_eq : cut.sink.bytes = full.sink.bytes

/-- The writer of the one service has failed: it has the first bytes of what the other has. -/
structure Broken (n : Nat) (full cut : Service σ) : Prop where
  failed : cut.failure ≠ none
  exceeds : n < full.sink.bytes.length
  bytes_eq : cut.sink.bytes = full.sink.bytes.take n

omit [Interpreter σ] in
private theorem Alike.of_sink (h : Alike n full cut) (hw : w.sink = full.sink) :
    Alike n w (w.withSink cut.sink) where
  cut_eq := rfl
  accepts := hw ▸ h.accepts
  room_eq := hw ▸ h.room_eq
  fits := hw ▸ h.fits
  bytes_eq := hw ▸ h.bytes_eq

omit [Interpreter σ] in
private theorem Alike.outputTurn (h : Alike n full cut) :
    Alike n full.outputTurn cut.outputTurn ∨ Broken n full.outputTurn cut.outputTurn := by
  cases hitems : full.session.outbound.items with
  | nil =>
    have idle (v : Service σ) (hnone : v.session.outbound.items = []) : v.outputTurn =
        { v with schedule := { v.schedule with writing := false } } := by
      simp [Service.outputTurn, writeStep, Channel.take?, hnone]
    rw [h.cut_eq, idle full hitems, idle (full.withSink cut.sink) hitems]
    exact .inl (h.of_sink rfl)
  | cons m rest =>
    obtain ⟨w, hturn⟩ := outputTurn_writes hitems
    generalize (full.framing.pieces m).map Text.utf8 = pieces at hturn
    have hfits := h.fits
    obtain ⟨hfine, hroom, hbytes⟩ := Sink.put_accepting h.accepts pieces
    obtain ⟨hbytes', hfits', hroom'⟩ := Sink.put_limited h.room_eq pieces
    rw [h.bytes_eq] at hbytes'
    have hlength := congrArg List.length hbytes
    rw [List.length_append] at hlength
    have hfull : full.outputTurn = w.withSink (full.sink.put pieces).1 := (hturn full.sink).1 hfine
    rw [h.cut_eq, hfull]
    by_cases hcut : (cut.sink.put pieces).2 = none
    · have hle := hfits'.1 hcut
      have hfits'' : (full.sink.put pieces).1.bytes.length ≤ n := by omega
      rw [(hturn cut.sink).1 hcut]
      refine .inl ⟨rfl, hroom, ?_, hfits'', ?_⟩
      · rw [hroom' hcut, hlength, Nat.sub_sub]
      · rw [hbytes', hbytes, List.take_of_length_le hle]
    · have hmore := Nat.lt_of_not_le (hfits'.not.1 hcut)
      have hover : n < (full.sink.put pieces).1.bytes.length := by omega
      obtain ⟨hfailed, hsink⟩ := (hturn cut.sink).2 hcut
      refine .inr ⟨hfailed, hover, ?_⟩
      rw [hsink, hbytes', hbytes, List.take_append, List.take_of_length_le hfits]

/-- The two services take the same step, unless the writer fails in it. -/
theorem Alike.step (h : Alike n full cut) :
    full.step = none ∧ cut.step = none ∨
    ∃ full' cut', full.step = some full' ∧ cut.step = some cut' ∧
      (Alike n full' cut' ∨ Broken n full' cut') := by
  by_cases hw : full.schedule.writing = true
  · have hcut : cut.schedule.writing = true := by
      rw [h.cut_eq]
      exact hw
    have hended : cut.ended = full.ended := by
      rw [h.cut_eq]
      rfl
    rw [step_writing hw, step_writing hcut, hended]
    cases full.ended with
    | true => exact .inl ⟨rfl, rfl⟩
    | false => exact .inr ⟨_, _, rfl, rfl, h.outputTurn⟩
  · have hwriting : full.schedule.writing = false := by simpa using hw
    have hcut : cut.step = full.step.map (·.withSink cut.sink) := by
      conv_lhs => rw [h.cut_eq]
      exact step_withSink hwriting cut.sink
    rw [hcut]
    cases hstep : full.step with
    | none => exact .inl ⟨rfl, rfl⟩
    | some w => exact .inr ⟨w, _, rfl, rfl, .inl (h.of_sink (sink_step hwriting hstep))⟩

theorem Alike.noted_eq (h : Alike n full cut) : cut.noted = full.noted := by
  rw [h.cut_eq]
  rfl

/-- A writer that takes everything keeps what it has. -/
theorem Trace.bytes_le {sent : List Inbound} {j : Journal σ} (hroom : v.sink.room = none)
    (trace : v.Trace sent j w) : w.sink.room = none ∧ v.sink.bytes <+: w.sink.bytes := by
  induction trace with
  | start => exact ⟨hroom, List.prefix_rfl⟩
  | bridge _ h ih =>
    obtain ⟨s, -, rfl⟩ := Option.map_eq_some_iff.1 h
    exact ih
  | read _ h ih =>
    cases readStep_reads h <;> exact ih
  | write _ h ih =>
    obtain ⟨m, rest, -, -, -, -, -, hroom', hbytes⟩ := writeStep_accepting ih.1 h
    exact ⟨hroom', ih.2.trans ⟨_, hbytes.symm⟩⟩
  | pause _ h ih => cases h <;> exact ih

/-- Two services that begin alike do the same until the writer of the one fails. -/
theorem Alike.runFor (h : Alike n full cut) (fuel : Nat) :
    Alike n (full.runFor fuel) (cut.runFor fuel) ∧
      cut.journalFor fuel = full.journalFor fuel ∨
    Broken n (full.runFor fuel) (cut.runFor fuel) ∧
      cut.journalFor fuel <+: full.journalFor fuel := by
  induction fuel generalizing full cut with
  | zero => exact .inl ⟨h, rfl⟩
  | succ fuel ih =>
    rcases h.step with ⟨hfull, hcut⟩ | ⟨full', cut', hfull, hcut, hnext⟩
    · simp only [Service.runFor, journalFor, hfull, hcut, and_true]
      exact .inl h
    · simp only [Service.runFor, journalFor, hfull, hcut, h.noted_eq]
      rcases hnext with halike | hbroken
      · rcases ih halike with ⟨hrun, hjournal⟩ | ⟨hrun, hjournal⟩
        · exact .inl ⟨hrun, by rw [hjournal]⟩
        · exact .inr ⟨hrun, (List.prefix_append_right_inj _).2 hjournal⟩
      · have hended : cut'.ended = true := by
          have hsome := Option.isSome_iff_ne_none.2 hbroken.failed
          simp [ended, hsome]
        have hstop : cut'.step = none := by simp [Service.step, hended]
        have hsilent : cut'.journalFor fuel = [] := by
          cases fuel <;> simp [journalFor, hstop]
        obtain ⟨_, first⟩ := trace_of_step hfull
        obtain ⟨_, rest⟩ := trace_runFor fuel full'
        obtain ⟨more, hmore⟩ := (rest.bytes_le (first.bytes_le h.accepts).1).2
        rw [runFor_ended hended, hsilent, List.append_nil]
        refine .inr ⟨⟨hbroken.failed, ?_, ?_⟩, List.prefix_append _ _⟩
        · rw [← hmore, List.length_append]
          exact Nat.lt_add_right _ hbroken.exceeds
        · rw [← hmore, List.take_append_of_le_length (Nat.le_of_lt hbroken.exceeds)]
          exact hbroken.bytes_eq

end Service

/-- The adapter that a start of the module gives. -/
def Module.adapter (m : Module σ) (execTimeout : Nat) : Adapter σ :=
  { module := m.name, engine := m.engine, execTimeout }

/-- No start of a module panics, and no recovery after a call, whatever its adapter has been called
for before. The call itself may panic. -/
structure Registry.Steady (r : Registry σ) (settings : BridgeSettings) : Prop where
  start : ∀ name x, r.find? name = some x → ∀ p, x.module.starting.ending ≠ .panic p
  recovery : ∀ name x, r.find? name = some x → ∀ past a,
    (x.module.adapter settings.execTimeout).after? settings.contextId past = some a →
    ∀ command p, (a.execute settings.contextId command).answer ≠ .crashed p

/-- A property of engines that calls and recoveries keep and under which no recovery panics. -/
structure Interpreter.Quiet (P : σ → Prop) : Prop where
  after : ∀ e context command, P e → P (Interpreter.execute e context command).after
  cut : ∀ e context command n, P e → P ((Interpreter.execute e context command).cut n)
  recovered : ∀ e script e', P e → Interpreter.recover e = some (script, e') → P e'
  recovery : ∀ e, P e → ∀ p, (Interpreter.recovery e).ending ≠ .panic p

namespace Adapter

variable {P : σ → Prop} {a b : Adapter σ} {context : Nat} {past : List String}

private theorem quiet_abandon (hP : Interpreter.Quiet P) (ha : P a.engine) (millis : Nat)
    (e : EngineError) : P (a.abandon millis e).after.engine := by
  have hrecover : P ({ a with output := a.output.clear } : Adapter σ).recover.1.engine := by
    unfold recover
    cases hr : Interpreter.recover a.engine with
    | none => exact ha
    | some recovery =>
      have hnext := hP.recovered a.engine recovery.1 recovery.2 ha hr
      dsimp only
      cases (recovery.1.within a.execTimeout).verdict <;> exact hnext
  exact hrecover

private theorem quiet_execute (hP : Interpreter.Quiet P) (ha : P a.engine) (command : String) :
    P (a.execute context command).after.engine := by
  have hafter := hP.after a.engine context command ha
  have hcut := fun n => hP.cut a.engine context command n ha
  unfold execute
  cases a.unusable with
  | some reason => exact ha
  | none =>
    dsimp only
    cases ((Interpreter.execute a.engine context command).script.within a.execTimeout).verdict with
    | done | fault e => exact hafter
    | panic p => exact quiet_abandon hP hafter _ _
    | late => exact quiet_abandon hP (hcut _) _ _

private theorem quiet_after? (hP : Interpreter.Quiet P) (ha : P a.engine)
    (h : a.after? context past = some b) : P b.engine := by
  induction past generalizing a with
  | nil =>
    obtain rfl : a = b := Option.some.inj h
    exact ha
  | cons command past ih =>
    obtain ⟨-, -, hrest⟩ := after?_cons.1 h
    exact ih (quiet_execute hP ha command) hrest

theorem answer_of_quiet (hP : Interpreter.Quiet P) (ha : P a.engine) (command : String)
    (p : Panic) : (a.execute context command).answer ≠ .crashed p := by
  have recovers {e : σ} (he : P e) :
      (some (a.recoveryOf e) : Option Verdict) ≠ some (.panic p) := by
    intro hr
    have hquiet := Script.within_panic? (hP.recovery e he) a.execTimeout
    rw [← recoveryOf_eq, Option.some.inj hr] at hquiet
    cases hquiet
  rw [Ne, execute_crashed_iff, recovery?]
  cases a.unusable with
  | some reason => simp
  | none =>
    dsimp only
    cases ((Interpreter.execute a.engine context command).script.within a.execTimeout).verdict with
    | done | fault e => simp
    | panic q => exact recovers (hP.after _ _ _ ha)
    | late => exact recovers (hP.cut _ _ _ _ ha)

end Adapter

theorem Registry.steady_of_quiet {r : Registry σ} {P : σ → Prop} (hP : Interpreter.Quiet P)
    (h : ∀ name x, r.find? name = some x →
      P x.module.engine ∧ ∀ p, x.module.starting.ending ≠ .panic p)
    (settings : BridgeSettings) : r.Steady settings where
  start name x hx := (h name x hx).2
  recovery name x hx past a hafter command p := by
    have ha : P a.engine := Adapter.quiet_after? hP (h name x hx).1 hafter
    exact Adapter.answer_of_quiet hP ha command p

/-- An adapter that a module of the registry gives, after some calls. -/
def Registry.Gives (r : Registry σ) (settings : BridgeSettings) (a : Adapter σ) : Prop :=
  ∃ name x past, r.find? name = some x ∧
    (x.module.adapter settings.execTimeout).after? settings.contextId past = some a

/-- The work of a bridge is the start of a module of the registry, or a call of its adapter. -/
def Job.Given (registry : Registry σ) (settings : BridgeSettings) : Job σ → Prop
  | .none => True
  | .loading x p _ _ => (∃ name, registry.find? name = some x) ∧
      p.rest.ending = x.module.starting.ending ∧ (p.wait = .forever → p.rest.ending = .hang)
  | .calling _ x => ∃ a command, registry.Gives settings a ∧
      x = a.execute settings.contextId command

namespace Session

variable {registry : Registry σ} {settings : BridgeSettings} {s t : Session σ}

/-- The bridge has not panicked, and its adapters and its work are those of the registry. -/
structure Steady (registry : Registry σ) (settings : BridgeSettings) (s : Session σ) : Prop where
  registry_eq : s.registry = registry
  settings_eq : s.bridge.settings = settings
  crash_eq : s.crash = none
  engines : Bridge.Engines (registry.Gives settings) s.bridge s.agenda
  job : s.job.Given registry settings

theorem Steady.feed (h : s.Steady registry settings) {e : BridgeEvent (Adapter σ)}
    (he : ∀ a, e.engine? = some a → registry.Gives settings a) :
    (s.feed e).Steady registry settings := by
  obtain ⟨hresting, hcalled⟩ := Bridge.engines_step (b := s.bridge)
    ⟨h.engines.resting, by simp⟩ he
  refine ⟨h.registry_eq, (Bridge.settings_step s.bridge e).trans h.settings_eq, h.crash_eq,
    ⟨hresting, ?_⟩, h.job⟩
  intro a text hmem
  exact (List.mem_append.1 hmem).elim (h.engines.called a text) (hcalled a text)

theorem Steady.free (h : s.Steady registry settings) :
    ({ s with job := .none } : Session σ).Steady registry settings :=
  { h with job := trivial }

theorem Steady.wake (h : s.Steady registry settings) : s.wake.Steady registry settings := by
  have hjob := h.job
  unfold Session.wake
  split
  next x p deadline seen hj =>
    rw [hj] at hjob
    exact { h with job := hjob }
  · exact h

theorem Steady.finishLoad (h : s.Steady registry settings) {name : String} {x : Registration σ}
    (hx : registry.find? name = some x) {v : Verdict} (hv : ∀ p, v ≠ .panic p) :
    (s.finishLoad (x.module.conclude s.bridge.settings.loadTimeout
      s.bridge.settings.execTimeout v)).Steady registry settings := by
  have hgiven : registry.Gives settings (x.module.adapter s.bridge.settings.execTimeout) := by
    rw [h.settings_eq]
    exact ⟨name, x, [], hx, rfl⟩
  cases v with
  | done =>
    refine h.free.feed (e := .loaded (.ok _)) fun a ha => ?_
    obtain rfl := Option.some.inj ha
    exact hgiven
  | fault f => exact h.free.feed (e := .loaded (.error _)) (by simp [BridgeEvent.engine?])
  | late => exact h.free.feed (e := .loaded (.error _)) (by simp [BridgeEvent.engine?])
  | panic p => exact absurd rfl (hv p)

theorem Steady.look (h : s.Steady registry settings) (hsteady : registry.Steady settings)
    {x : Registration σ} {p : Progress} {deadline : Nat} {seen : Bool}
    (hj : s.job = .loading x p deadline seen) :
    (s.look x p deadline).Steady registry settings := by
  have hjob := h.job
  rw [hj] at hjob
  obtain ⟨⟨name, hx⟩, hending, hwait⟩ := hjob
  have hpoll := p.poll_ending s.now (s.releases.contains x.serial) hwait
  revert hpoll
  unfold Session.look
  rcases p.poll s.now (s.releases.contains x.serial) with ⟨result, released⟩
  have hkept : (if released then s else
      { s with releases := s.releases.erase x.serial }).Steady registry settings ∧
      (if released then s else { s with releases := s.releases.erase x.serial }).bridge =
        s.bridge := by
    cases released with
    | true => exact ⟨h, rfl⟩
    | false => exact ⟨{ h with }, rfl⟩
  dsimp only
  generalize (if released then s else { s with releases := s.releases.erase x.serial }) = u
    at hkept ⊢
  obtain ⟨hu, hbridge⟩ := hkept
  intro hpoll
  rw [← hbridge]
  cases result with
  | inr verdict =>
    obtain ⟨-, rfl⟩ := hpoll
    refine hu.finishLoad hx fun panic hpanic => hsteady.start name x hx panic ?_
    rw [hending] at hpanic
    cases he : x.module.starting.ending <;> rw [he] at hpanic <;> simp_all [Verdict.ofEnding]
  | inl next =>
    obtain ⟨hnext, hforever⟩ := hpoll
    dsimp only
    split
    · exact hu.finishLoad hx (by simp)
    · exact { hu with
        job := ⟨⟨name, hx⟩, hnext.trans hending, fun hw => hnext.trans (hforever hw)⟩ }

theorem Steady.finishCall (h : s.Steady registry settings) (hsteady : registry.Steady settings)
    {since : Nat} {x : Execution σ} (hj : s.job = .calling since x) :
    (s.finishCall x).Steady registry settings := by
  have hjob := h.job
  rw [hj] at hjob
  obtain ⟨a, command, ⟨name, y, past, hy, hafter⟩, rfl⟩ := hjob
  have given (hr : (a.execute settings.contextId command).answer.result?.isSome = true) :
      registry.Gives settings (a.execute settings.contextId command).after := by
    obtain ⟨r, hr⟩ := Option.isSome_iff_exists.1 hr
    refine ⟨name, y, past ++ [command], hy, ?_⟩
    rw [Adapter.after?_append hafter]
    simp [Adapter.after?, hr]
  unfold Session.finishCall
  cases hx : (a.execute settings.contextId command).answer with
  | crashed p => exact absurd hx (hsteady.recovery name y hy past a hafter command p)
  | ok text =>
    refine h.free.feed (e := .answered _ (.ok text)) fun b hb => ?_
    obtain rfl := Option.some.inj hb
    exact given (by simp [hx, Answer.result?])
  | error e =>
    refine h.free.feed (e := .answered _ (.error e)) fun b hb => ?_
    obtain rfl := Option.some.inj hb
    exact given (by simp [hx, Answer.result?])

/-- Of modules of which only calls may panic no bridge panics. -/
theorem Steady.advance (h : s.Steady registry settings) (hsteady : registry.Steady settings)
    (ht : s.advance = some t) : t.Steady registry settings := by
  obtain ⟨-, hmove⟩ := advance_move ht
  cases hmove with
  | @perform e rest _ ha hperform =>
    have hrest : ({ s with agenda := rest } : Session σ).Steady registry settings :=
      { h with engines :=
        ⟨h.engines.resting, fun a text hmem => h.engines.called a text (by simp [ha, hmem])⟩ }
    cases e with
    | publish tr =>
      obtain rfl := Option.some.inj hperform
      exact { hrest with }
    | post m =>
      simp only [perform] at hperform
      split at hperform
      · obtain rfl := Option.some.inj hperform
        exact { h with }
      · split at hperform
        · obtain rfl := Option.some.inj hperform
          exact { hrest with }
        · cases hperform
    | load name =>
      obtain rfl := Option.some.inj hperform
      unfold beginLoad
      split
      · exact hrest.feed (e := .loaded (.error _)) (by simp [BridgeEvent.engine?])
      next x hx =>
        have hfound : registry.find? name = some x := h.registry_eq ▸ hx
        exact { hrest with job := ⟨⟨name, hfound⟩, rfl, fun hwait => by cases hwait⟩ }
    | call a command =>
      obtain rfl := Option.some.inj hperform
      have hcalled := h.engines.called a command (by simp [ha])
      exact { hrest with job := ⟨a, command, hcalled, by rw [← h.settings_eq]⟩ }
  | exhaust => exact { h with }
  | take ha hj hi htake =>
    obtain ⟨m, rest, -, rfl⟩ := takeMessage_eq_some htake
    have htaken : ({ s with inbound := { s.inbound with items := rest } } : Session σ).Steady
        registry settings := { h with }
    exact htaken.feed (e := .received m) (by simp [BridgeEvent.engine?])
  | interrupt ha hj htake =>
    obtain ⟨m, rest, -, rfl⟩ := takeMessage_eq_some htake
    have htaken : ({ s.wake with inbound := { s.wake.inbound with items := rest } } :
        Session σ).Steady registry settings := { h.wake with }
    exact htaken.feed (e := .received m) (by simp [BridgeEvent.engine?])
  | look ha hj => exact h.look hsteady hj
  | finish ha hj hdue => exact h.finishCall hsteady hj

end Session

/-- A bridge that has lost its host after `j` and goes on for a while calls its engine for nothing
but what it would have called it for: without an engine it cannot get one, for it ends when it is to
tell that it is ready. -/
theorem Session.Faithful.calls_left {settings : BridgeSettings} {j k l : Journal σ}
    {s t : Session σ} {phase : Phase (Adapter σ)} {pending : List String}
    (hj : Session.Faithful settings j s) (hk : Session.Faithful settings (j ++ k) t)
    (hsilent : posted k = []) (hl : Conduct settings (j ++ l) phase pending) (hp : phase.Taking)
    (htaken : taken k <+: taken l) : calls (j ++ k) <+: calls (j ++ l) := by
  have unheard (hnone : ofEngine (j ++ k) = []) : calls (j ++ k) <+: calls (j ++ l) := by
    have hcalls : calls (j ++ k) = [] := by
      rw [← calls_ofEngine, hnone]
      rfl
    rw [hcalls]
    exact List.nil_prefix
  by_cases hready : ∃ a, loadResult (j ++ k) = some (.ok a)
  · obtain ⟨a, ha⟩ := hready
    cases hr : loadResult j with
    | some r =>
      obtain rfl : r = .ok a := by simpa [hr] using ha
      have hfull : loadResult (j ++ l) = some (.ok a) := by simp [hr]
      obtain ⟨-, -, hcalls⟩ := (hl.transcript hfull).2 hp
      have hcommands : commands k <+: commands l := by
        rw [← filterMap_command?_taken, ← filterMap_command?_taken]
        exact htaken.filterMap _
      refine (hk.calls_le ha).trans ?_
      rw [hcalls, accepted_append hr, accepted_append hr]
      exact ((List.prefix_append_right_inj _).2 hcommands).map _
    | none =>
      have hbefore : ofEngine j = [] := hj.unheard (by simp [hr])
      have hheard := hk.heard ha
      refine unheard ?_
      rw [ofEngine_append, hbefore, List.nil_append] at hheard ⊢
      by_contra hsome
      obtain ⟨x, rest, hx⟩ := List.exists_cons_of_ne_nil hsome
      rw [hx, List.cons_prefix_cons] at hheard
      obtain ⟨rfl, -⟩ := hheard
      have hmem : Entry.posted (.notice .ready) ∈ k :=
        (List.mem_filter.1 (hx ▸ List.mem_cons_self : _ ∈ ofEngine k)).1
      have hposted := mem_posted.2 hmem
      simp [hsilent] at hposted
  · exact unheard (hk.unheard fun a ha => hready ⟨a, ha⟩)

namespace Service

variable {registry : Registry σ} {settings : BridgeSettings} {framing : Framing}
  {first : Option Control} {source : Source} {room : Option Nat} {v w : Service σ}
  {sent : List Inbound} {j k : Journal σ}

theorem Trace.silent (trace : v.Trace sent k w) (hs : v.session.stopped = true) :
    k = [] ∧ w.session.stopped = true := by
  induction trace with
  | start => exact ⟨rfl, hs⟩
  | bridge _ h ih =>
    obtain ⟨t, ht, rfl⟩ := Option.map_eq_some_iff.1 h
    exact absurd (ih.2.symm.trans (Session.advance_move ht).1) (by decide)
  | read _ h ih =>
    refine ⟨ih.1, ?_⟩
    cases readStep_reads h <;> exact ih.2
  | write _ h ih =>
    obtain ⟨-, -, outbound, hsession, -⟩ := writeStep_frame h
    exact ⟨ih.1, by rw [hsession]; exact ih.2⟩
  | pause _ h ih =>
    refine ⟨ih.1, ?_⟩
    cases h with
    | wake => exact (Session.wake_frame _).1.trans ih.2
    | elapse => exact ih.2
    | reschedule => exact ih.2

/-- A bridge that has lost its host tells nothing any more. -/
theorem Trace.posted_left (trace : v.Trace sent k w)
    (hleft : v.session.outbound.receiving = false) :
    posted k = [] ∧ w.session.outbound.receiving = false := by
  induction trace with
  | start => exact ⟨rfl, hleft⟩
  | bridge _ h ih =>
    obtain ⟨t, ht, rfl⟩ := Option.map_eq_some_iff.1 h
    refine ⟨?_, (Session.advance_keeps ht).receiving_eq.trans ih.2⟩
    rw [posted_append, ih.1, Session.posted_noted_of_left ih.2]
    rfl
  | read _ h ih =>
    refine ⟨ih.1, ?_⟩
    cases readStep_reads h <;> exact ih.2
  | write _ h ih =>
    obtain ⟨-, -, outbound, hsession, hlistens⟩ := writeStep_frame h
    refine ⟨ih.1, ?_⟩
    rw [hsession]
    by_contra hreceives
    exact absurd (ih.2.symm.trans (hlistens (by simpa using hreceives))) (by decide)
  | pause _ h ih =>
    refine ⟨ih.1, ?_⟩
    cases h with
    | wake =>
      obtain ⟨-, -, -, houtbound, -⟩ := Session.wake_frame (σ := σ) _
      rw [houtbound]
      exact ih.2
    | elapse => exact ih.2
    | reschedule => exact ih.2

theorem Trace.steady (trace :
    (create registry settings framing first source room).Trace sent j v)
    (hsteady : registry.Steady settings) : v.session.Steady registry settings := by
  induction trace with
  | start =>
    have hnone : Bridge.Engines (registry.Gives settings) { settings } [] := ⟨by simp, by simp⟩
    cases first <;> exact ⟨rfl, rfl, rfl, hnone, trivial⟩
  | bridge _ h ih =>
    obtain ⟨t, ht, rfl⟩ := Option.map_eq_some_iff.1 h
    exact ih.advance hsteady ht
  | read _ h ih => cases readStep_reads h <;> exact { ih with }
  | write _ h ih =>
    obtain ⟨-, -, outbound, hsession, -⟩ := writeStep_frame h
    rw [hsession]
    exact { ih with }
  | pause _ h ih =>
    cases h with
    | wake => exact ih.wake
    | elapse => exact { ih with }
    | reschedule => exact ih

omit [Interpreter σ] in
theorem alike_create (n : Nat) : Alike n (create registry settings framing first source none)
    (create registry settings framing first source (some n)) := by
  cases first <;> exact ⟨rfl, rfl, rfl, Nat.zero_le n, rfl⟩

variable (framing first source) in
/-- A service whose writer takes everything, and whose bridge does not panic, comes to its end after
all messages have been taken. -/
theorem run_accepting (hsteady : registry.Steady settings) :
    let service := create registry settings framing first source none
    service.run.failure = none ∧ service.run.session.crash = none ∧
      service.run.session.stopped = true ∧
      taken service.journal =
        first.toList.map .control ++ framing.messages (source.lines.map (·.2)) ∧
      ∃ phase pending, Conduct settings service.journal phase pending ∧ phase.Taking := by
  intro service
  obtain ⟨sent, trace⟩ := trace_runFor service.effort service
  obtain ⟨_, run⟩ := trace.run
  have hsound := run.sound
  have hcrash := (trace.steady hsteady).crash_eq
  have hended : service.run.ended = true := run_ended ..
  have hstopped : service.run.session.stopped = true := by
    have hworks : service.run.failure = none := hsound.working
    unfold ended at hended
    simp only [hworks, Option.isSome_none, Bool.false_or, Bool.and_eq_true] at hended
    exact hended.1
  obtain ⟨-, -, htaken⟩ := trace.delivers.finished hstopped hcrash hsound.listened
  have hfaithful := trace.session.faithful
  have hresting : service.run.session.Resting := .inr ⟨hstopped, hsound.listened, hcrash⟩
  exact ⟨hsound.working, hcrash, hstopped, htaken, _, _,
    hfaithful.conduct_rest (hfaithful.agenda_resting hresting), hfaithful.taking_resting hresting⟩

end Service

/-- Two services come to their ends. A writer that takes `n` bytes and then fails has got the first
`n` of the bytes that the service writes if its writer takes everything, and the service ends
without a fault exactly if those are all. If it fails, the bridge may go on in whatever way, without
a host: what it calls its engine for is the beginning of what it would have called it for. -/
theorem truncated (registry : Registry σ) (settings : BridgeSettings) (framing : Framing)
    (first : Option Control) (source : Source) (n : Nat) (hsteady : registry.Steady settings) :
    let service (room : Option Nat) : Service σ :=
      .create registry settings framing first source room
    let full := (service none).run
    let cut := (service (some n)).run
    full.ended = true ∧ cut.ended = true ∧
    cut.sink.bytes = full.sink.bytes.take n ∧
    (cut.fault? = none ↔ full.sink.bytes.length ≤ n) ∧
    ∀ sent k w, cut.Trace sent k w →
      calls ((service (some n)).journal ++ k) <+: calls (service none).journal := by
  intro service full cut
  obtain ⟨hworks, hcrash, hstopped, htaken, phase, pending, hconduct, hp⟩ :=
    Service.run_accepting framing first source hsteady
  have halike : Service.Alike n (service none) (service (some n)) := Service.alike_create n
  have hbreaks : Service.Alike n full cut ∧ (service (some n)).journal = (service none).journal ∨
      Service.Broken n full cut ∧ (service (some n)).journal <+: (service none).journal :=
    halike.runFor (service none).effort
  refine ⟨Service.run_ended .., Service.run_ended .., ?_⟩
  rcases hbreaks with ⟨hsame, hjournal⟩ | ⟨hbroken, l, hjournal⟩
  · have hfault : cut.fault? = full.fault? := by
      rw [hsame.cut_eq]
      rfl
    refine ⟨?_, ?_, fun sent k w trace => ?_⟩
    · rw [hsame.bytes_eq, List.take_of_length_le hsame.fits]
    · rw [hfault, full.fault?_eq_none_iff]
      exact ⟨fun _ => hsame.fits, fun _ => ⟨hworks, hcrash⟩⟩
    · have hcut : cut.session.stopped = true := by
        rw [hsame.cut_eq]
        exact hstopped
      rw [hjournal, (trace.silent hcut).1, List.append_nil]
  · refine ⟨hbroken.bytes_eq, ?_, fun sent k w trace => ?_⟩
    · rw [cut.fault?_eq_none_iff]
      exact ⟨fun hfine => absurd hfine.1 hbroken.failed,
        fun hle => absurd hbroken.exceeds (Nat.not_lt.2 hle)⟩
    · obtain ⟨_, before⟩ := Service.trace_runFor (service (some n)).effort (service (some n))
      have whole := before.trans trace
      have hleft : cut.session.outbound.receiving = false := by
        rcases before.attended with hstaffed | ⟨-, -, hleft⟩
        · exact absurd hstaffed.working hbroken.failed
        · exact hleft
      have hall : taken ((service (some n)).journal ++ k) <+:
          taken ((service (some n)).journal ++ l) := by
        rw [hjournal, htaken]
        exact whole.delivers.taken_le.trans
          ((List.prefix_append_right_inj _).2 whole.delivers.sent_le)
      rw [taken_append, taken_append, List.prefix_append_right_inj] at hall
      rw [← hjournal] at hconduct ⊢
      exact before.session.faithful.calls_left whole.session.faithful
        (trace.posted_left hleft).1 hconduct hp hall

namespace Rehearsal

/-- A scripted engine whose recovery does nothing. -/
theorem quiet_scripted : Interpreter.Quiet fun s : Scripted => s.recovery = some .nothing where
  after _ _ _ h := h
  cut _ _ _ _ h := h
  recovered s script s' h hr := by
    obtain ⟨r, -, hr⟩ := Option.map_eq_some_iff.1 hr
    obtain ⟨-, rfl⟩ := Prod.mk.inj hr
    exact h
  recovery s h p := by
    have hrecovery : Interpreter.recovery s = .nothing := by
      simp [Interpreter.recovery, Interpreter.recover, h]
    rw [hrecovery]
    nofun

theorem steady_registry : registry.Steady settings := by
  refine Registry.steady_of_quiet quiet_scripted (fun name x hx => ?_) settings
  have hmem : x ∈ [⟨0, "forth", "", .nothing, engine⟩] := List.mem_of_find?_eq_some hx
  obtain rfl := List.mem_singleton.1 hmem
  exact ⟨rfl, nofun⟩

end Rehearsal

/-- The writer fails within the answer to the first command. -/
theorem truncated_rehearsal :
    let service (room : Option Nat) : Service Scripted :=
      .create Rehearsal.registry Rehearsal.settings .json (some (.start none))
        (.ofSegments Rehearsal.portions) room
    Rehearsal.registry.Steady Rehearsal.settings ∧
    (service (some 18)).run.sink.bytes = (Text.utf8 Rehearsal.answers).take 18 ∧
    (service (some 18)).run.fault? ≠ none ∧
    ∀ sent k w, (service (some 18)).run.Trace sent k w →
      calls ((service (some 18)).journal ++ k) <+: calls (service none).journal := by
  intro service
  obtain ⟨-, -, hbytes, hfault, hcalls⟩ := truncated Rehearsal.registry Rehearsal.settings .json
    (some (.start none)) (.ofSegments Rehearsal.portions) 18 Rehearsal.steady_registry
  have hfull : (service none).run.sink.bytes = Text.utf8 Rehearsal.answers := by decide +kernel
  rw [hfull] at hbytes hfault
  refine ⟨Rehearsal.steady_registry, hbytes, hfault.not.2 ?_, hcalls⟩
  decide +kernel

end EngineBridge
