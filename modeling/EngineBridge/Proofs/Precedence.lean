import EngineBridge.Proofs.Serving

/-!
# Loads that do not wait

A bridge looks at its load before it takes a message. If the first look finds the load at its end,
no message is taken before that end, however many of them are there already. Then no command has to
wait, and what is said of waiting commands makes no difference.
-/

namespace EngineBridge

open Journal

variable {σ : Type}

/-- A host visits a new bridge. It sends these messages, one after another and as far as there is
room for them, takes what the bridge posts, and listens throughout; once all is sent it may close
the channel. What it has not sent yet stands beside the journal. The bridge goes on and is woken at
any time, time passes as it likes, and so do the releases of gates come and go. -/
inductive Session.Visit [Interpreter σ] (registry : Registry σ) (settings : BridgeSettings)
    (messages : List Inbound) :
    List Inbound → Journal σ → Session σ → Prop
  | arrive : Visit registry settings messages messages [] (.create registry settings)
  | advance {unsent j s t} (visit : Visit registry settings messages unsent j s)
      (h : s.advance = some t) : Visit registry settings messages unsent (j ++ s.noted) t
  | wake {unsent j s} (visit : Visit registry settings messages unsent j s) :
      Visit registry settings messages unsent j s.wake
  | elapse {unsent j s now releases} (visit : Visit registry settings messages unsent j s) :
      Visit registry settings messages unsent j { s with now, releases }
  | send {m unsent j s} (visit : Visit registry settings messages (m :: unsent) j s)
      (hr : s.inbound.receiving = true) (hc : s.inbound.hasRoom = true) :
      Visit registry settings messages unsent j { s with inbound := s.inbound.push m }
  | collect {unsent j s m rest} (visit : Visit registry settings messages unsent j s)
      (h : s.outbound.take? = some (m, rest)) :
      Visit registry settings messages unsent j { s with outbound := rest }
  | close {j s} (visit : Visit registry settings messages [] j s) :
      Visit registry settings messages [] j { s with inbound := s.inbound.closeSender }

variable {settings : BridgeSettings} {j k : Journal σ}

/-- The answer to a command that comes before the load has ended and is not kept. -/
def Outbound.isRefusal : Outbound → Bool
  | .notice (.error .notReady _) | .notice (.error .queueFull _) => true
  | _ => false

/-- A command is taken only once the load has ended. -/
def InTime (settings : BridgeSettings) (past : Journal σ) (x : Entry σ) : Prop :=
  x.command?.isSome = true → (outcome settings past).isSome = true

theorem orderly_inTime {past : Journal σ} (h : commands k = []) :
    Orderly (InTime settings) past k := by
  induction k generalizing past with
  | nil => trivial
  | cons x k ih =>
    obtain ⟨hx, hk⟩ : x.command? = none ∧ commands k = [] := by simpa using h
    exact ⟨fun hcommand => absurd hcommand (by simp only [hx]; decide), ih hk⟩

variable [Interpreter σ] {phase : Phase (Adapter σ)} {pending : List String}

private theorem Conduct.not_waiting {text : String} {l : Journal σ}
    (h : Conduct settings j phase pending)
    (hj : Orderly (InTime settings) [] (j ++ .took (.command text) :: l)) : ¬ phase.Waiting := by
  intro hp
  have hin : (outcome settings j).isSome = true := by simpa using hj.at rfl
  simp [h.outcome_waiting hp] at hin

private theorem isRefusal_answerPosts {context : Nat} {a : Adapter σ} {command : String}
    {result : Except EngineError String}
    (hx : (a.execute context command).answer = .ofResult result) :
    ∀ m ∈ Bridge.answerPosts result, m.isRefusal = false := by
  cases result with
  | ok text =>
    unfold Bridge.answerPosts
    dsimp only
    split <;> simp [Outbound.isRefusal]
  | error e =>
    rcases Adapter.kind_of_execute hx with hk | hk <;>
      simp [Bridge.answerPosts, BridgeError.notice, hk, Outbound.isRefusal]

/-- If all commands come in time, none has to wait and none is refused. -/
theorem Conduct.undelayed (h : Conduct settings j phase pending)
    (hj : Orderly (InTime settings) [] j) :
    pending = [] ∧ ∀ m ∈ posted j, m.isRefusal = false := by
  induction h with
  | start => simp
  | aside h hr ih =>
    obtain ⟨hpending, hposts⟩ := ih (orderly_append.1 hj).1
    refine ⟨hpending, ?_⟩
    simp only [posted_append, posted_cons, posted_posts, List.forall_mem_append]
    refine ⟨hposts, by simp, ?_⟩
    cases hr with
    | reject hp hq => exact absurd hp (h.not_waiting hj)
    | overflow hp hq hn => exact absurd hp (h.not_waiting hj)
    | _ => simp [Outbound.isRefusal, BridgeError.notice, BridgeError.kind]
  | keep h hp hq hn ih => exact absurd hp (h.not_waiting hj)
  | begin h hm ih =>
    obtain ⟨hpending, hposts⟩ := ih (orderly_append.1 hj).1
    exact ⟨hpending, by simpa using hposts⟩
  | nameless h hm ih =>
    obtain ⟨rfl, hposts⟩ := ih (orderly_append.1 hj).1
    simpa [failing, or_imp, forall_and, Outbound.isRefusal, BridgeError.notice, BridgeError.kind]
      using hposts
  | fail h ih =>
    obtain ⟨rfl, hposts⟩ := ih (orderly_append.1 hj).1
    simpa [failing, or_imp, forall_and, Outbound.isRefusal, BridgeError.notice, BridgeError.kind]
      using hposts
  | ready h ih =>
    obtain ⟨-, hposts⟩ := ih (orderly_append.1 hj).1
    simpa [arriving, or_imp, forall_and, Outbound.isRefusal] using hposts
  | replay h ih =>
    obtain ⟨hpending, -⟩ := ih (orderly_append.1 (orderly_append.1 hj).1).1
    cases hpending
  | serve h ih =>
    obtain ⟨hpending, hposts⟩ := ih (orderly_append.1 hj).1
    exact ⟨hpending, by simpa using hposts⟩
  | rest h hx ih =>
    obtain ⟨-, hposts⟩ := ih (orderly_append.1 hj).1
    have hanswer := isRefusal_answerPosts hx
    refine ⟨rfl, ?_⟩
    simp only [posted_append, posted_cons, posted_posts, List.forall_mem_append] at hposts ⊢
    exact ⟨hposts, by simp, hanswer⟩
  | next h hx ih =>
    obtain ⟨hpending, -⟩ := ih (orderly_append.1 (orderly_append.1 hj).1).1
    cases hpending

namespace Session

variable {s t : Session σ} {registry : Registry σ} {messages unsent : List Inbound}

theorem Faithful.undelayed (h : Faithful settings j s) (hj : Orderly (InTime settings) [] j) :
    s.bridge.pending = [] ∧ ∀ m ∈ posted j, m.isRefusal = false := by
  have hall : Orderly (InTime settings) []
      (j ++ s.agenda.map (Effect.entry settings.contextId)) :=
    orderly_append.2 ⟨hj, orderly_inTime (commands_effects _ _)⟩
  obtain ⟨hpending, hposts⟩ := h.conduct.undelayed hall
  rw [posted_append, List.forall_mem_append] at hposts
  exact ⟨hpending, hposts.1⟩

private theorem noted_cases (hf : s.Fresh) (h : s.advance = some t) :
    commands s.noted = [] ∨
      s.agenda = [] ∧ s.job = .none ∧
        ∃ m rest, s.inbound.items = m :: rest ∧ s.noted = [.took m] := by
  obtain ⟨-, hmove⟩ := advance_move h
  cases hmove with
  | @perform e rest t ha ht =>
    refine .inl ?_
    cases e with
    | publish tr => simp [noted, ha, Effect.entry]
    | post m => cases hr : s.outbound.receiving <;> simp [noted, ha, hr]
    | load name => cases hx : s.registry.find? name <;> simp [noted, ha, hx]
    | call a text => simp [noted, ha, Effect.entry]
  | exhaust ha hj hi =>
    obtain ⟨hitems, -⟩ : s.inbound.items = [] ∧ s.inbound.sending = false := by
      simpa [Channel.exhausted] using hi
    exact .inl (by simp [noted, ha, hj, hitems])
  | take ha hj hi ht =>
    obtain ⟨m, rest, hitems, rfl⟩ := takeMessage_eq_some ht
    exact .inr ⟨ha, hj, m, rest, hitems, by simp [noted, ha, hj, hitems]⟩
  | @look x p deadline ha hj =>
    refine .inl ?_
    rcases hfound : s.found x p deadline with - | result
    · simp [noted, ha, hj, hfound]
    · cases result <;> simp [noted, ha, hj, hfound, Loaded.entries]
  | interrupt ha hj ht =>
    obtain ⟨-, hunseen, -⟩ := hf _ _ _ _ hj
    cases hunseen
  | @finish since x ha hj hdue =>
    refine .inl ?_
    cases hx : x.answer <;> simp [noted, ha, hj, hx, Answer.entries]

/-- What has become of a visit whose messages ask for a load that does not wait. -/
structure Ahead (registry : Registry σ) (settings : BridgeSettings) (messages unsent : List Inbound)
    (j : Journal σ) (s : Session σ) : Prop where
  run : Run (.create registry settings) j s
  listened : s.outbound.receiving = true
  registry_eq : s.registry = registry
  fresh : s.Fresh
  closed : s.inbound.sending = false → unsent = []
  taken_eq : s.stopped = false → taken j ++ (s.inbound.items ++ unsent) = messages
  outlook_eq : j ++ s.outlook unsent =
    Bridge.dialogue (registry.loader settings) (some { settings }) messages
  inTime : Orderly (InTime settings) [] j

omit [Interpreter σ] in
private theorem findSome?_taken (j : Journal σ) :
    (taken j).findSome? Inbound.start? = asked j := by
  induction j with
  | nil => rfl
  | cons x j ih =>
    cases x with
    | took m =>
      cases m with
      | control c => cases c <;> simp [List.findSome?_cons, Inbound.start?, ih]
      | _ => simp [List.findSome?_cons, Inbound.start?, ih]
    | _ => simpa using ih

private theorem startsFirst_of_append {l rest : List Inbound}
    (h : Bridge.StartsFirst (l ++ rest)) (hl : l.findSome? Inbound.start? = none) :
    Bridge.StartsFirst rest := by
  induction l with
  | nil => exact h
  | cons m l ih =>
    rw [List.findSome?_cons] at hl
    cases hm : m.start? with
    | none => exact ih (h.tail hm) (by simpa [hm] using hl)
    | some module => simp [hm] at hl

private theorem Ahead.next (h : Ahead registry settings messages unsent j s)
    (hfirst : Bridge.StartsFirst messages) (hs : s.stopped = false) (ha : s.agenda = [])
    (hj : s.job = .none) {m : Inbound} {rest : List Inbound} (hm : s.inbound.items = m :: rest) :
    InTime settings j (.took m) := by
  intro hcommand
  have hfaithful := h.run.faithful
  have hconduct := hfaithful.conduct_rest ha
  have hengaged := hfaithful.engaged
  rw [ha, hj] at hengaged
  have hsettled := hengaged.settled
  cases hp : s.bridge.phase with
  | uninitialized =>
    have hasked : asked j = none := by
      have htells := hconduct.tells
      rw [hp] at htells
      exact htells.1
    have hrest : Bridge.StartsFirst (s.inbound.items ++ unsent) :=
      startsFirst_of_append (h.taken_eq hs ▸ hfirst) (by rw [findSome?_taken, hasked])
    rw [hm] at hrest
    cases m with
    | command text => exact absurd rfl (hrest.head text)
    | _ => cases hcommand
  | loading name => exact (hp ▸ hsettled).elim
  | running name => exact (hp ▸ hsettled).elim
  | ready name a =>
    obtain ⟨a, ho⟩ := (hp ▸ hconduct).outcome_ready
    simp [ho]
  | failed module e => simp [(hp ▸ hconduct).outcome_failed]

theorem Ahead.advance (h : Ahead registry settings messages unsent j s)
    (hfirst : Bridge.StartsFirst messages)
    (hprompt : ∀ name ∈ settings.requestedModule messages, ∀ x, registry.find? name = some x →
      x.module.starting.Prompt)
    (ht : s.advance = some t) : Ahead registry settings messages unsent (j ++ s.noted) t := by
  have hkeeps := advance_keeps ht
  have halone := alone_noted ht
  have hready : s.Ready unsent := by
    intro name hname x hx
    rw [h.registry_eq] at hx
    refine hprompt name ?_ x hx
    have hall := congrArg requested h.outlook_eq
    rw [Bridge.requested_dialogue rfl, requested_append] at hall
    exact Option.mem_toList.1 (hall ▸ List.mem_append_right _ hname)
  obtain ⟨hs, hfulfils⟩ := fulfils_advance h.run.faithful h.fresh h.listened hready h.closed ht
  refine
    { run := h.run.trans halone.run
      listened := hkeeps.receiving_eq.trans h.listened
      registry_eq := hkeeps.registry_eq.trans h.registry_eq
      fresh := hfulfils.fresh
      closed := fun hc => h.closed (hkeeps.sending_eq.symm.trans hc)
      taken_eq := fun hstopped => ?_
      outlook_eq := ?_
      inTime := orderly_append.2 ⟨h.inTime, ?_⟩ }
  · rcases halone.taken_eq with htaken | ⟨hend, -⟩
    · rw [← h.taken_eq hs, htaken]
      simp
    · simp [hstopped] at hend
  · rw [List.append_assoc, ← hfulfils.outlook_eq, h.outlook_eq]
  · rcases noted_cases h.fresh ht with hnone | ⟨ha, hj, m, rest, hm, hnoted⟩
    · exact orderly_inTime hnone
    · rw [hnoted]
      exact ⟨by simpa using h.next hfirst hs ha hj hm, trivial⟩

theorem Visit.ahead (visit : Visit registry settings messages unsent j s)
    (hfirst : Bridge.StartsFirst messages)
    (hprompt : ∀ name ∈ settings.requestedModule messages, ∀ x, registry.find? name = some x →
      x.module.starting.Prompt) :
    Ahead registry settings messages unsent j s := by
  induction visit with
  | arrive =>
    exact
      { run := .start
        listened := rfl
        registry_eq := rfl
        fresh := fun x p deadline seen hj => by cases hj
        closed := fun hc => by cases hc
        taken_eq := fun _ => rfl
        outlook_eq := by simp [outlook, create]
        inTime := trivial }
  | advance visit ht ih => exact ih.advance hfirst hprompt ht
  | wake visit ih =>
    rw [ih.fresh.wake_eq]
    exact ih
  | elapse visit ih =>
    exact { ih with run := by simpa using ih.run.step .elapse }
  | @send m unsent j s visit hr hc ih =>
    have hsending : s.inbound.sending = true := by
      by_contra hclosed
      cases ih.closed (by simpa using hclosed)
    exact
      { ih with
        run := by simpa using ih.run.step (.send (m := m) hsending hr hc)
        closed := fun hclosed => absurd hclosed (by simp [Channel.push, hsending])
        taken_eq := fun hs => by simpa [Channel.push] using ih.taken_eq hs
        outlook_eq := by simpa [outlook, Channel.push] using ih.outlook_eq }
  | collect visit h ih =>
    have hrun := ih.run.step (.collect h)
    obtain ⟨rest, -, rfl⟩ := Channel.take?_eq_some h
    exact { ih with run := by simpa using hrun }
  | close visit ih =>
    exact { ih with run := by simpa using ih.run.step .close, closed := fun _ => rfl }

omit [Interpreter σ] in
/-- The bridge has ended, or it has nothing to do and no message is on its way. -/
def Spent (s : Session σ) (unsent : List Inbound) : Prop :=
  s.stopped = true ∨ unsent = [] ∧ s.inbound.items = [] ∧ s.agenda = [] ∧ s.job = .none

private theorem Spent.outlook_eq (h : s.Spent unsent) : s.outlook unsent = [] := by
  rcases h with hs | ⟨rfl, hitems, ha, hj⟩
  · simp [outlook, hs]
  · simp [outlook, hitems, ha, hj]

/-- The bridge goes on by itself, so many steps at most. -/
def goOn : Nat → Session σ → Journal σ × Session σ
  | 0, s => ([], s)
  | n + 1, s =>
    match s.advance with
    | none => ([], s)
    | some t => before s.noted (goOn n t)

theorem Visit.goOn (visit : Visit registry settings messages unsent j s) (n : Nat) :
    Visit registry settings messages unsent (j ++ (s.goOn n).1) (s.goOn n).2 := by
  induction n generalizing j s with
  | zero => simpa [Session.goOn] using visit
  | succ n ih =>
    unfold Session.goOn
    split
    · simpa using visit
    next t ht => simpa [before] using ih (visit.advance ht)

end Session

/-- If no command comes before the first request to load, and the module that it names starts
without waiting, no command ever waits or is refused for coming too early, however many messages are
there before the bridge has its first turn. What is said of waiting commands and the capacity of the
channels make no difference then: of two visits one goes as far as the other or further, with the
same calls and the same posts, and they are the same once both are at an end. -/
theorem undelayed_of_visit {registry : Registry σ} {messages unsent : List Inbound} {s : Session σ}
    (hfirst : Bridge.StartsFirst messages)
    (hprompt : ∀ name ∈ settings.requestedModule messages, ∀ x, registry.find? name = some x →
      x.module.starting.Prompt)
    (visit : Session.Visit registry settings messages unsent j s) :
    s.bridge.pending = [] ∧ (∀ m ∈ posted j, m.isRefusal = false) ∧
    ∀ policy limit capacity unsent' j' s',
      Session.Visit registry
        { settings with
          pendingPolicy := policy, maxPending := limit, channelCapacity := capacity }
        messages unsent' j' s' →
      (j <+: j' ∨ j' <+: j) ∧ (s.Spent unsent → s'.Spent unsent' → j' = j) := by
  have hahead := visit.ahead hfirst hprompt
  obtain ⟨hpending, hposts⟩ := hahead.run.faithful.undelayed hahead.inTime
  refine ⟨hpending, hposts, fun policy limit capacity unsent' j' s' visit' => ?_⟩
  have hahead' := visit'.ahead hfirst hprompt
  have hsame := Bridge.dialogue_adjust (registry.loader settings)
    (f := fun settings => { settings with
      pendingPolicy := policy, maxPending := limit, channelCapacity := capacity })
    (fun _ => rfl) (fun _ => rfl) (b := { settings }) trivial (fun _ => hfirst)
  have houtlook := hahead.outlook_eq
  have houtlook' := hahead'.outlook_eq.trans hsame
  refine ⟨List.prefix_or_prefix_of_prefix ⟨_, houtlook⟩ ⟨_, houtlook'⟩, fun hs hs' => ?_⟩
  rw [hs.outlook_eq, List.append_nil] at houtlook
  rw [hs'.outlook_eq, List.append_nil] at houtlook'
  exact houtlook'.trans houtlook.symm

namespace Rehearsal

/-- A request to load, and behind it two commands. -/
def buffered : List Inbound := [.control (.start none), .command "1 .", .command "dup"]

end Rehearsal

/-- With room for all three messages they are sent before the bridge has its first turn; with room
for one, and no queue, the host has to wait for the bridge. -/
theorem undelayed_rehearsal :
    ∃ j s, Session.Visit Rehearsal.registry Rehearsal.settings Rehearsal.buffered [] j s ∧
      s.Spent [] ∧ calls j = [(0, "1 ."), (0, "dup")] ∧ s.bridge.pending = [] ∧
      ∃ s', Session.Visit Rehearsal.registry
          { Rehearsal.settings with
            pendingPolicy := .reject, maxPending := 0, channelCapacity := 1 }
          Rehearsal.buffered [] j s' ∧ s'.Spent [] := by
  have hprompt : ∀ name ∈ Rehearsal.settings.requestedModule Rehearsal.buffered,
      ∀ x, Rehearsal.registry.find? name = some x → x.module.starting.Prompt := by
    intro name hname x hx
    obtain rfl : "forth" = name := Option.some.inj hname
    obtain rfl : _ = x := Option.some.inj hx
    decide
  have hfirst : Bridge.StartsFirst Rehearsal.buffered := by
    intro text hmem
    simp [Rehearsal.buffered, Inbound.start?] at hmem
  have visit : Session.Visit Rehearsal.registry Rehearsal.settings Rehearsal.buffered _ _ _ :=
    .arrive
  have visit := ((visit.send rfl rfl).send rfl rfl).send rfl rfl
  have visit := visit.goOn 20
  have visit' : Session.Visit Rehearsal.registry
      { Rehearsal.settings with pendingPolicy := .reject, maxPending := 0, channelCapacity := 1 }
      Rehearsal.buffered _ _ _ := .arrive
  have visit' := ((visit'.send rfl rfl).goOn 10).collect rfl
  have visit' := ((visit'.send rfl rfl).goOn 10).collect rfl
  have visit' := (visit'.send rfl rfl).goOn 10
  obtain ⟨hpending, -, hother⟩ := undelayed_of_visit hfirst hprompt visit
  obtain ⟨-, hsame⟩ := hother _ _ _ _ _ _ visit'
  exact ⟨_, _, visit, .inr ⟨rfl, rfl, rfl, rfl⟩, rfl, hpending, _,
    hsame (.inr ⟨rfl, rfl, rfl, rfl⟩) (.inr ⟨rfl, rfl, rfl, rfl⟩) ▸ visit',
    .inr ⟨rfl, rfl, rfl, rfl⟩⟩

end EngineBridge
