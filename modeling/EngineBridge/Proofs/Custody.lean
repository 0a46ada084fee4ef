import EngineBridge.Proofs.Turns

/-!
# The custody of a child

A command is written only to a child that has answered its handshake and every command before. A
child that fails, or is abandoned, is never spoken to again: the next command starts another one.
-/

namespace EngineBridge

open ChildInterpreter

namespace Adapter

/-- The child that a command is written to, if it is written to one. -/
def addressee? (a : Adapter ChildInterpreter) (context : Nat) : Option Running :=
  if a.unusable = none ∧ context = onlyContext ∧ a.Punctual then
    a.engine.ready?.bind (·.running)
  else none

end Adapter

/-- A call, and the adapter it is made to. -/
structure Enquiry where
  before : Adapter ChildInterpreter
  context : Nat
  command : String

namespace Enquiry

def execution (q : Enquiry) : Execution ChildInterpreter := q.before.execute q.context q.command

def addressee? (q : Enquiry) : Option Running := q.before.addressee? q.context

def isFor (serial : Nat) (q : Enquiry) : Bool := q.addressee?.any (·.serial = serial)

/-- The commands that the child of a start has been sent. -/
def spoken (serial : Nat) (past : List Enquiry) : List String :=
  (past.filter (isFor serial)).map (·.command)

variable {q : Enquiry} {past : List Enquiry} {serial : Nat} {r : Running}

theorem isFor_iff : q.isFor serial = true ↔ ∃ r, q.addressee? = some r ∧ r.serial = serial := by
  simp [isFor, Option.any_eq_true]

theorem spoken_snoc_of_isFor (h : q.isFor serial = true) :
    spoken serial (past ++ [q]) = spoken serial past ++ [q.command] := by
  simp [spoken, h]

theorem spoken_eq_nil (h : ∀ q ∈ past, q.isFor serial = false) : spoken serial past = [] := by
  rw [spoken, List.filter_eq_nil_iff.2 (by simpa using h), List.map_nil]

end Enquiry

/-- Calls that have been made one after the other, and what has become of the adapter. -/
inductive Adapter.Served (first : Adapter ChildInterpreter) :
    List Enquiry → Adapter ChildInterpreter → Prop
  | nothing : Served first [] first
  | next {past a} (h : Served first past a) (context : Nat) (command : String) :
      Served first (past ++ [⟨a, context, command⟩]) (a.execute context command).after

theorem Adapter.Served.before {first a : Adapter ChildInterpreter} {past : List Enquiry}
    (served : first.Served past a) {q : Enquiry} (hq : q ∈ past) :
    ∃ earlier, first.Served earlier q.before ∧ ∀ x ∈ earlier, x ∈ past := by
  induction served with
  | nothing => cases hq
  | @next past a served context command ih =>
    rcases List.mem_append.1 hq with hq | hq
    · obtain ⟨earlier, hserved, hsub⟩ := ih hq
      exact ⟨earlier, hserved, fun x hx => List.mem_append_left _ (hsub x hx)⟩
    · obtain rfl := List.mem_singleton.1 hq
      exact ⟨past, served, fun x hx => List.mem_append_left _ hx⟩

namespace ChildInterpreter

variable {p : ChildInterpreter} {past : List Enquiry} {r : Running} {cs : List String}

/-- An adapter with the interpreter that a start hands out. -/
def adapter (p : ChildInterpreter) (limit : Nat) : Adapter ChildInterpreter where
  module := p.name
  engine := p.start.after
  execTimeout := limit

theorem exchange_serial (s : ModuleSettings) (r : Running) (text : Option String) :
    (exchange s r text).2.serial = r.serial := by
  unfold exchange
  split <;> rfl

theorem exchange_sent {s : ModuleSettings} {text : Option String}
    (h : (exchange s r text).1.ending = .done) :
    (exchange s r text).2.sent =
      r.sent ++ (text.map sentLine).getD [] ++ sentLine s.syncCommand := by
  unfold exchange at h ⊢
  split at h
  · cases h
  · rename_i hopen
    rw [if_neg hopen]
    rfl

/-- A child that has answered its handshake and these commands, each up to the marker. -/
inductive Attuned (p : ChildInterpreter) : List String → Running → Prop
  | greeted {serial child} (hc : p.starts serial = .ok child)
      (hd : (exchange p.settings { serial, child } none).1.ending = .done) :
      Attuned p [] (exchange p.settings { serial, child } none).2
  | answered {cs r command} (h : Attuned p cs r)
      (hd : (exchange p.settings r (some command)).1.ending = .done) :
      Attuned p (cs ++ [command]) (exchange p.settings r (some command)).2

theorem Attuned.sent_eq (h : p.Attuned cs r) :
    r.sent = sentLine p.settings.syncCommand ++
      cs.flatMap fun command => sentLine command ++ sentLine p.settings.syncCommand := by
  induction h with
  | greeted hc hd => simp [exchange_sent hd]
  | answered h hd ih => simp [exchange_sent hd, ih]

/-- Nothing that the child has been sent is left unanswered. -/
structure Trusted (p : ChildInterpreter) (past : List Enquiry) (r : Running) : Prop where
  attuned : p.Attuned (Enquiry.spoken r.serial past) r
  answered : ∀ q ∈ past, q.isFor r.serial = true → ∃ text, q.execution.answer = .ok text

/-- What holds between calls. -/
structure Held (p : ChildInterpreter) (past : List Enquiry) (a : Adapter ChildInterpreter) :
    Prop where
  settings : a.engine.settings = p.settings
  starts : a.engine.starts = p.starts
  drained : a.output = .empty
  retired : a.unusable ≠ none → a.engine.running = none
  past_lt : ∀ q ∈ past, ∀ r, q.addressee? = some r → r.serial < a.engine.started
  running_lt : ∀ r, a.engine.running = some r → r.serial < a.engine.started
  trusted : ∀ r, a.engine.running = some r → p.Trusted past r

variable {a : Adapter ChildInterpreter} {context : Nat} {command : String}

theorem addressee?_some (h : a.addressee? context = some r) :
    a.unusable = none ∧ context = onlyContext ∧ a.Punctual ∧
      ∃ q, a.engine.ready? = some q ∧ q.running = some r := by
  unfold Adapter.addressee? at h
  split at h
  · next hc => exact ⟨hc.1, hc.2.1, hc.2.2, by simpa [Option.bind_eq_some_iff] using h⟩
  · cases h

theorem addressee?_of_ready {q : ChildInterpreter} (hu : a.unusable = none) (hs : a.Punctual)
    (hq : a.engine.ready? = some q) (hr : q.running = some r) :
    a.addressee? onlyContext = some r := by
  simp [Adapter.addressee?, hu, hs, hq, hr]

theorem ready?_cases {q : ChildInterpreter} (h : p.ready? = some q) :
    (∃ r, p.running = some r ∧ q = p) ∨
    p.running = none ∧ ∃ child, p.starts p.started = .ok child ∧
      (p.handshake child).1.ending = .done ∧ q = p.greeted child := by
  cases hr : p.running with
  | some r =>
    rw [ready?_of_running hr] at h
    exact .inl ⟨r, rfl, (Option.some.inj h).symm⟩
  | none =>
    refine .inr ⟨rfl, ?_⟩
    rcases start_cases p with ⟨child, hc, hd, hs, -, hafter⟩ | ⟨hs, -⟩
    · rw [ready?_of_started hr hs] at h
      exact ⟨child, hc, hd, (Option.some.inj h).symm.trans hafter⟩
    · simp [ready?, hr, hs] at h

theorem Attuned.of_greeted {child : Child} {serial : Nat} {settings : ModuleSettings}
    (hc : p.starts serial = .ok child) (hs : settings = p.settings)
    (hd : (exchange settings { serial, child } none).1.ending = .done) :
    p.Attuned [] (exchange settings { serial, child } none).2 := by
  subst hs
  exact .greeted hc hd

/-- An exchange that is answered keeps the child. -/
theorem Trusted.next (h : p.Trusted past r) (haddr : a.addressee? context = some r)
    (hd : (exchange p.settings r (some command)).1.ending = .done)
    (hx : ∃ text, (a.execute context command).answer = .ok text) :
    p.Trusted (past ++ [⟨a, context, command⟩]) (exchange p.settings r (some command)).2 := by
  have hserial := exchange_serial p.settings r (some command)
  have hfor : Enquiry.isFor r.serial ⟨a, context, command⟩ = true :=
    Enquiry.isFor_iff.2 ⟨r, haddr, rfl⟩
  constructor
  · rw [hserial, Enquiry.spoken_snoc_of_isFor hfor]
    exact .answered h.attuned hd
  · rw [hserial]
    intro q hq hfor'
    rcases List.mem_append.1 hq with hq | hq
    · exact h.answered q hq hfor'
    · obtain rfl := List.mem_singleton.1 hq
      exact hx

namespace Held

theorem isFor_started (h : p.Held past a) : ∀ q ∈ past, q.isFor a.engine.started = false := by
  intro q hq
  by_contra hfor
  obtain ⟨r, hr, hserial⟩ := Enquiry.isFor_iff.1 (by simpa using hfor)
  have := h.past_lt q hq r hr
  omega

/-- A command is written to a child with nothing unanswered, and to a new one if none runs. -/
theorem addressee (h : p.Held past a) (hr : a.addressee? context = some r) :
    p.Trusted past r ∧ (a.engine.running = none → r.serial = a.engine.started) := by
  obtain ⟨-, -, -, q, hq, hrun⟩ := addressee?_some hr
  rcases ready?_cases hq with ⟨r', hr', rfl⟩ | ⟨hnone, child, hc, hd, rfl⟩
  · exact ⟨h.trusted r hrun, fun hnone => by simp [hnone] at hr'⟩
  · obtain rfl : (a.engine.handshake child).2 = r := Option.some.inj hrun
    have hserial : (a.engine.handshake child).2.serial = a.engine.started := exchange_serial ..
    -- No call before has written to a child of this start, so that it owes no answer.
    have hfresh := h.isFor_started
    refine ⟨⟨?_, ?_⟩, fun _ => hserial⟩
    · rw [hserial, Enquiry.spoken_eq_nil hfresh]
      exact .of_greeted (h.starts ▸ hc) h.settings hd
    · intro q hq hfor
      rw [hserial, hfresh q hq] at hfor
      cases hfor

theorem ready {q : ChildInterpreter} (h : p.Held past a) (hq : a.engine.ready? = some q)
    (hr : q.running = some r) :
    q.settings = p.settings ∧ q.starts = p.starts ∧ a.engine.started ≤ q.started ∧
      r.serial < q.started := by
  rcases ready?_cases hq with ⟨-, -, rfl⟩ | ⟨hnone, child, -, -, rfl⟩
  · exact ⟨h.settings, h.starts, Nat.le_refl _, h.running_lt r hr⟩
  · obtain rfl : (a.engine.handshake child).2 = r := Option.some.inj hr
    have hserial : (a.engine.handshake child).2.serial = a.engine.started := exchange_serial ..
    refine ⟨h.settings, h.starts, Nat.le_succ _, ?_⟩
    rw [hserial]
    exact Nat.lt_succ_self _

private theorem of_childless {b : Adapter ChildInterpreter}
    (hs : b.engine.settings = p.settings) (hst : b.engine.starts = p.starts)
    (ho : b.output = .empty) (hr : b.engine.running = none)
    (hlt : ∀ q ∈ past, ∀ r, q.addressee? = some r → r.serial < b.engine.started) :
    p.Held past b where
  settings := hs
  starts := hst
  drained := ho
  retired _ := hr
  past_lt := hlt
  running_lt := by simp [hr]
  trusted := by simp [hr]

private theorem past_lt_snoc {n : Nat} (h : p.Held past a) (hn : a.engine.started ≤ n)
    (hr : ∀ r, a.addressee? context = some r → r.serial < n) :
    ∀ q ∈ past ++ [⟨a, context, command⟩], ∀ r, q.addressee? = some r → r.serial < n := by
  intro q hq r haddr
  rcases List.mem_append.1 hq with hq | hq
  · exact Nat.lt_of_lt_of_le (h.past_lt q hq r haddr) hn
  · obtain rfl := List.mem_singleton.1 hq
    exact hr r haddr

private theorem snoc (h : p.Held past a) (hnone : a.addressee? context = none) :
    p.Held (past ++ [⟨a, context, command⟩]) a where
  settings := h.settings
  starts := h.starts
  drained := h.drained
  retired := h.retired
  past_lt := h.past_lt_snoc (Nat.le_refl _) (by simp [hnone])
  running_lt := h.running_lt
  trusted r hr := by
    have hfor : Enquiry.isFor r.serial ⟨a, context, command⟩ = false := by
      simp [Enquiry.isFor, Enquiry.addressee?, hnone]
    obtain ⟨hattuned, hanswered⟩ := h.trusted r hr
    refine ⟨by simpa [Enquiry.spoken, hfor] using hattuned, fun q hq hfor' => ?_⟩
    rcases List.mem_append.1 hq with hq | hq
    · exact hanswered q hq hfor'
    · rw [List.mem_singleton.1 hq, hfor] at hfor'
      cases hfor'

private theorem next_of_turn (h : p.Held past a) (hu : a.unusable = none) {x}
    (hx : a.execute onlyContext command = x) (turn : a.Turn command x) :
    p.Held (past ++ [⟨a, onlyContext, command⟩]) x.after := by
  obtain ⟨ho, -⟩ := Adapter.execute_frame h.drained onlyContext command
  rw [hx] at ho
  cases turn with
  | unstarted hr hs he hu' hanswer =>
    have hnone : a.addressee? onlyContext = none := by
      simp [Adapter.addressee?, hs]
    refine of_childless ?_ ?_ ho ?_ ?_
    · rw [he]; exact h.settings
    · rw [he]; exact h.starts
    · rw [he]; exact hr
    · rw [he]
      exact h.past_lt_snoc (Nat.le_succ _) (by simp [hnone])
  | @dropped q r hq hr hs he hanswer =>
    obtain ⟨hsettings, hstarts, hle, hlt⟩ := h.ready hq hr
    have haddr := addressee?_of_ready hu hs hq hr
    refine of_childless ?_ ?_ ho ?_ ?_
    · rw [he]; exact hsettings
    · rw [he]; exact hstarts
    · rw [he]
    · rw [he]
      exact h.past_lt_snoc hle (by simpa [haddr] using hlt)
  | @answered q r hq hr hs hd he hu' hanswer =>
    obtain ⟨hsettings, hstarts, hle, hlt⟩ := h.ready hq hr
    have haddr := addressee?_of_ready hu hs hq hr
    obtain ⟨htrusted, -⟩ := h.addressee haddr
    rw [hsettings] at hd he
    have hnext := htrusted.next haddr hd ⟨_, (congrArg Execution.answer hx).trans hanswer⟩
    constructor
    · rw [he]
    · rw [he]; exact hstarts
    · exact ho
    · exact fun hne => absurd hu' hne
    · rw [he]
      exact h.past_lt_snoc hle (by simpa [haddr] using hlt)
    · intro r' hr'
      rw [he] at hr' ⊢
      obtain rfl := Option.some.inj hr'
      rw [exchange_serial]
      exact hlt
    · intro r' hr'
      rw [he] at hr'
      obtain rfl := Option.some.inj hr'
      exact hnext

theorem next (h : p.Held past a) (context : Nat) (command : String) :
    p.Held (past ++ [⟨a, context, command⟩]) (a.execute context command).after := by
  cases hu : a.unusable with
  | some reason =>
    rw [Adapter.execute_unusable hu]
    exact h.snoc (by simp [Adapter.addressee?, hu])
  | none =>
    by_cases hc : context = onlyContext
    · subst hc
      exact h.next_of_turn hu rfl (Adapter.execute_turn hu command)
    · rw [Adapter.execute_foreign hu h.drained hc]
      exact h.snoc (by simp [Adapter.addressee?, hc])

end Held

theorem held_adapter (limit : Nat) (h : p.start.script.ending = .done) :
    p.Held [] (p.adapter limit) := by
  rcases start_cases p with ⟨child, hc, hd, -, -, hafter⟩ | ⟨hs, -⟩
  · have hengine : (p.adapter limit).engine = p.greeted child := hafter
    have hserial : (p.handshake child).2.serial = p.started := exchange_serial ..
    have hrunning : (p.greeted child).running = some (p.handshake child).2 := rfl
    constructor
    · rw [hengine]; rfl
    · rw [hengine]; rfl
    · rfl
    · exact fun hu => absurd rfl hu
    · nofun
    · intro r hr
      rw [hengine] at hr ⊢
      obtain rfl := Option.some.inj (hrunning.symm.trans hr)
      rw [hserial]
      exact Nat.lt_succ_self _
    · intro r hr
      rw [hengine] at hr
      obtain rfl := Option.some.inj (hrunning.symm.trans hr)
      exact ⟨.greeted hc hd, nofun⟩
  · exact absurd h hs

theorem held_of_served {limit : Nat} (h : p.start.script.ending = .done)
    (served : (p.adapter limit).Served past a) : p.Held past a := by
  induction served with
  | nothing => exact held_adapter limit h
  | next served context command ih => exact ih.next context command

/-- How a call to `a` treats the children, if these calls came before it. -/
structure Guarded (p : ChildInterpreter) (past : List Enquiry) (a : Adapter ChildInterpreter)
    (context : Nat) (command : String) : Prop where
  /-- A command is written to a child that has answered its handshake and every command before. -/
  written : ∀ r, a.addressee? context = some r → p.Trusted past r ∧
    r.sent = sentLine p.settings.syncCommand ++ (Enquiry.spoken r.serial past).flatMap fun c =>
      sentLine c ++ sentLine p.settings.syncCommand
  /-- Only a command that has been written is answered, and then the child is kept. -/
  kept : ∀ text, (a.execute context command).answer = .ok text →
    ∃ r next, a.addressee? context = some r ∧
      (a.execute context command).after.engine.running = some next ∧ next.serial = r.serial ∧
      next.sent = r.sent ++ sentLine command ++ sentLine p.settings.syncCommand
  /-- A failed command leaves no child behind. -/
  dropped : context = onlyContext → (∀ text, (a.execute context command).answer ≠ .ok text) →
    (a.execute context command).after.engine.running = none
  /-- If there is no child, a command is written to one that has been started for it and has
  answered its handshake. The banner is what it printed then. -/
  fresh : a.engine.running = none → ∀ r, a.addressee? context = some r →
    ∃ child, p.starts a.engine.started = .ok child ∧
      let greeting := exchange p.settings { serial := a.engine.started, child } none
      greeting.1.ending = .done ∧ r = greeting.2 ∧
      (a.execute context command).after.engine.banner = Script.printed greeting.1.acts ∧
      ∀ q ∈ past, q.isFor a.engine.started = false
  /-- Another context is refused, and nothing is touched. -/
  foreign : context ≠ onlyContext → (a.execute context command).after = a ∧
    ∃ reason, (a.execute context command).answer = .error (.fault reason)
  /-- A start that fails or is late leaves no child, and the next command starts another. -/
  retried : context = onlyContext → a.unusable = none → ¬ a.Punctual →
    (∀ text, (a.execute context command).answer ≠ .ok text) ∧
      (a.execute context command).after.engine =
        { a.engine with started := a.engine.started + 1, running := none } ∧
      (a.execute context command).after.unusable = none

namespace Held

theorem answered (h : p.Held past a) {text : String}
    (hx : (a.execute context command).answer = .ok text) :
    ∃ r, a.addressee? context = some r ∧
      (exchange p.settings r (some command)).1.ending = .done ∧
      text = Script.printed (exchange p.settings r (some command)).1.acts ∧
      (a.execute context command).after.engine.running =
        some (exchange p.settings r (some command)).2 := by
  cases hu : a.unusable with
  | some reason =>
    rw [Adapter.execute_unusable hu] at hx
    cases hx
  | none =>
    by_cases hc : context = onlyContext
    · subst hc
      cases Adapter.execute_turn hu command with
      | unstarted _ _ _ _ hanswer => exact absurd hx (hanswer text)
      | dropped _ _ _ _ hanswer => exact absurd hx (hanswer text)
      | @answered q r hq hr hs hd he _ hanswer =>
        obtain ⟨hsettings, -⟩ := h.ready hq hr
        rw [hsettings] at hd he hanswer
        refine ⟨r, addressee?_of_ready hu hs hq hr, hd, ?_, by rw [he]⟩
        rw [hx, h.drained] at hanswer
        exact (Answer.ok.inj hanswer).trans (String.empty_append)
    · rw [Adapter.execute_foreign hu h.drained hc] at hx
      cases hx

private theorem dropped (h : p.Held past a)
    (hx : ∀ text, (a.execute onlyContext command).answer ≠ .ok text) :
    (a.execute onlyContext command).after.engine.running = none := by
  cases hu : a.unusable with
  | some reason =>
    rw [Adapter.execute_unusable hu]
    exact h.retired (by simp [hu])
  | none =>
    cases Adapter.execute_turn hu command with
    | unstarted hr _ he _ _ =>
      rw [he]
      exact hr
    | dropped _ _ _ he _ => rw [he]
    | answered _ _ _ _ _ _ hanswer => exact absurd hanswer (hx _)

private theorem fresh (h : p.Held past a) (hr : a.engine.running = none)
    (haddr : a.addressee? context = some r) :
    ∃ child, p.starts a.engine.started = .ok child ∧
      let greeting := exchange p.settings { serial := a.engine.started, child } none
      greeting.1.ending = .done ∧ r = greeting.2 ∧
      (a.execute context command).after.engine.banner = Script.printed greeting.1.acts ∧
      ∀ q ∈ past, q.isFor a.engine.started = false := by
  obtain ⟨hu, rfl, hs, q, hq, hrun⟩ := addressee?_some haddr
  obtain ⟨r', hr', -⟩ | ⟨-, child, hc, hd, hgreeted⟩ := ready?_cases hq
  · simp [hr] at hr'
  · have hbanner : (a.execute onlyContext command).after.engine.banner = q.banner := by
      cases Adapter.execute_turn hu command with
      | unstarted _ hlate _ _ _ => exact absurd hs hlate
      | dropped hq' _ _ he _ =>
        rw [he, Option.some.inj (hq.symm.trans hq')]
      | answered hq' _ _ _ he _ _ =>
        rw [he, Option.some.inj (hq.symm.trans hq')]
    rw [hgreeted] at hrun hbanner
    rw [handshake, h.settings] at hd
    refine ⟨child, h.starts ▸ hc, hd, ?_, ?_, h.isFor_started⟩
    · rw [← Option.some.inj hrun, handshake, h.settings]
    · rw [hbanner, greeted, handshake, h.settings]

end Held

/-- Whatever the children do, and whatever becomes of starting and killing them: no child is spoken
to after a command that it has not answered. -/
theorem guarded_of_served {limit : Nat} (h : p.start.script.ending = .done)
    (served : (p.adapter limit).Served past a) (context : Nat) (command : String) :
    p.Guarded past a context command := by
  have held := held_of_served h served
  constructor
  · intro r hr
    obtain ⟨trusted, -⟩ := held.addressee hr
    exact ⟨trusted, trusted.attuned.sent_eq⟩
  · intro text hx
    obtain ⟨r, haddr, hd, -, hnext⟩ := held.answered hx
    exact ⟨r, _, haddr, hnext, exchange_serial .., exchange_sent hd⟩
  · rintro rfl hx
    exact held.dropped hx
  · intro hr r haddr
    exact held.fresh hr haddr
  · intro hc
    cases hu : a.unusable with
    | some reason =>
      rw [Adapter.execute_unusable hu]
      exact ⟨rfl, _, rfl⟩
    | none =>
      rw [Adapter.execute_foreign hu held.drained hc]
      exact ⟨rfl, _, rfl⟩
  · rintro rfl hu hlate
    cases Adapter.execute_turn hu command with
    | unstarted hr _ he hu' hanswer =>
      refine ⟨hanswer, ?_, hu'⟩
      rw [he, ← hr]
    | dropped _ _ hs _ _ => exact absurd hs hlate
    | answered _ _ hs _ _ _ _ => exact absurd hs hlate

end ChildInterpreter

namespace Rehearsal

def taciturn : Child := fun input => ⟨[.bytes (input.take 8)], .waiting⟩

/-- The second of its starts fails. -/
def troubled : ChildInterpreter where
  name := "cat"
  settings := { command := "cat", syncCommand := "--end--", syncMarker := "--end--" }
  starts n := if n = 0 then .ok taciturn else if n = 1 then .error .notFound else .ok Child.echo

end Rehearsal

/-- One command is cut off, the start for the next one fails, and the third is written to a child of
its own. -/
theorem guarded_rehearsal :
    Rehearsal.troubled.start.script.ending = .done ∧
    ∃ past a, (Rehearsal.troubled.adapter 50).Served past a ∧
      past.map (·.execution.answer) = [.error (.timeout 50), .error (.fault
        "failed to spawn `cat`: No such file or directory (os error 2)")] ∧
      (a.execute 0 "c").answer = .ok "c\n" ∧ Rehearsal.troubled.Guarded past a 0 "c" := by
  have hstart : Rehearsal.troubled.start.script.ending = .done := by decide +kernel
  have served : (Rehearsal.troubled.adapter 50).Served [] _ := .nothing
  have served := (served.next 0 "a").next 0 "b"
  exact ⟨hstart, _, _, served, by decide +kernel, by decide +kernel,
    guarded_of_served hstart served 0 "c"⟩

end EngineBridge
