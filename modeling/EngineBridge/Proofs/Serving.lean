import EngineBridge.Proofs.Dialogue
import EngineBridge.Proofs.Network

/-!
# What a service writes

If a module starts without waiting, all that a service will ever write is settled when it begins: it
is what the bridge says that takes the messages one at a time. Neither the order in which the tasks
have their turns, nor the capacity of the channels, nor the portions in which the input comes makes
a difference.
-/

namespace EngineBridge

open Journal

variable {σ : Type}

/-- The first look at the work finds it at its end. -/
def Script.Prompt (s : Script) : Prop := ((Progress.start s).poll 0 false).1.isRight = true

instance (s : Script) : Decidable s.Prompt := inferInstanceAs (Decidable (_ = true))

private theorem advance_prompt {ending : Ending} {acts : List Act}
    (h : (Progress.advance 0 ending false acts).1.isRight = true) :
    ∃ verdict,
      (∀ now released, Progress.advance now ending released acts = (.inr verdict, released)) ∧
      ∀ limit now, (Script.follow limit ending now acts).verdict = verdict := by
  induction acts with
  | nil =>
    cases ending with
    | hang => cases h
    | _ => exact ⟨_, fun _ _ => by simp [Progress.advance, Verdict.ofEnding], fun _ _ => rfl⟩
  | cons act acts ih =>
    cases act with
    | emit text => exact ih h
    | sleep ms =>
      by_cases hms : ms = 0
      · subst hms
        exact ih h
      · simp [Progress.advance, hms] at h
    | yield => cases h
    | gate => cases h

/-- Whenever such work is looked at, it has come to the end that it would have under a deadline. It
does not use a release that is there. -/
theorem Script.Prompt.poll_eq {s : Script} (h : s.Prompt) (now limit : Nat) (released : Bool) :
    (Progress.start s).poll now released = (.inr (s.within limit).verdict, released) := by
  have hfirst : (Progress.advance 0 s.ending false s.acts).1.isRight = true := h
  obtain ⟨verdict, hadvance, hfollow⟩ := advance_prompt hfirst
  rw [Script.within, hfollow]
  exact hadvance now released

variable [Interpreter σ]

namespace Bridge

/-- Carry out these effects, and then take these messages. -/
def pursue (load : String → Loaded σ) (b : Bridge (Adapter σ)) (effects : List (Effect (Adapter σ)))
    (messages : List Inbound) : Journal σ :=
  (settle load b effects).1 ++ dialogue load (settle load b effects).2 messages

/-- What comes of the end of a load and of the messages after it. Nothing comes of a panic. -/
def pursueLoad (load : String → Loaded σ) (b : Bridge (Adapter σ)) (result : Loaded σ)
    (messages : List Inbound) : Journal σ :=
  match result.result? with
  | none => []
  | some r => .loaded r :: pursue load (b.step (.loaded r)).1 (b.step (.loaded r)).2 messages

/-- What comes of the answer to a call and of the messages after it. -/
def pursueCall (load : String → Loaded σ) (b : Bridge (Adapter σ)) (x : Execution σ)
    (messages : List Inbound) : Journal σ :=
  match x.answer.result? with
  | none => []
  | some r =>
    .answered r :: pursue load (b.step (.answered x.after r)).1 (b.step (.answered x.after r)).2
      messages

section

variable {load : String → Loaded σ} {b : Bridge (Adapter σ)} {rest : List (Effect (Adapter σ))}
  {messages : List Inbound}

@[simp] theorem pursue_nil : pursue load b [] messages = dialogue load (some b) messages := by
  simp [pursue]

theorem pursue_took (m : Inbound) :
    pursue load b [] (m :: messages) =
      .took m :: pursue load (b.receive m).1 (b.receive m).2 messages := by
  simp [pursue, dialogue_cons]

theorem pursue_publish (t : Transition) :
    pursue load b (.publish t :: rest) messages = .published t :: pursue load b rest messages := by
  simp [pursue, before]

theorem pursue_post (m : Outbound) :
    pursue load b (.post m :: rest) messages = .posted m :: pursue load b rest messages := by
  simp [pursue, before]

theorem pursue_load (name : String) :
    pursue load b [.load name] messages =
      .requested name :: pursueLoad load b (load name) messages := by
  cases hr : (load name).result? <;> simp [pursue, pursueLoad, settle_load, before, hr]

theorem pursue_call (a : Adapter σ) (text : String) :
    pursue load b [.call a text] messages =
      .called b.settings.contextId a text ::
        pursueCall load b (a.execute b.settings.contextId text) messages := by
  cases hr : (a.execute b.settings.contextId text).answer.result? <;>
    simp [pursue, pursueCall, settle_call, before, hr]

end

end Bridge

omit [Interpreter σ] in
/-- What a load of each name gives, under these settings. -/
def Registry.loader (r : Registry σ) (settings : BridgeSettings) (name : String) : Loaded σ :=
  (r.load name settings.loadTimeout settings.execTimeout).1

namespace Session

/-- What a session will still take and do that is sent these messages after those on their way. -/
def outlook (s : Session σ) (messages : List Inbound) : Journal σ :=
  let load := s.registry.loader s.bridge.settings
  let coming := s.inbound.items ++ messages
  if s.stopped then []
  else
    match s.job with
    | .none => s.bridge.pursue load s.agenda coming
    | .loading x _ _ _ =>
      s.bridge.pursueLoad load
        (x.module.load s.bridge.settings.loadTimeout s.bridge.settings.execTimeout).1 coming
    | .calling _ x => s.bridge.pursueCall load x coming

/-- A load that is under way has not been looked at, and its first look will find it at its end. -/
def Fresh (s : Session σ) : Prop :=
  ∀ x p deadline seen, s.job = .loading x p deadline seen →
    s.agenda = [] ∧ seen = false ∧ p = .start x.module.starting ∧ x.module.starting.Prompt

omit [Interpreter σ] in
/-- It has nothing to look at once more. -/
theorem Fresh.wake_eq {s : Session σ} (h : s.Fresh) : s.wake = s := by
  unfold wake
  split
  next x p deadline seen hj =>
    obtain ⟨-, rfl, -⟩ := h x p deadline seen hj
    rw [← hj]
  · rfl

/-- All that is still to be loaded starts without waiting. -/
def Ready (s : Session σ) (messages : List Inbound) : Prop :=
  ∀ name ∈ requested (s.outlook messages), ∀ x, s.registry.find? name = some x →
    x.module.starting.Prompt

variable {s t : Session σ} {settings : BridgeSettings} {j : Journal σ} {messages : List Inbound}

/-- One step of the bridge does what the outlook tells first. Only the last one may add nothing. -/
structure Fulfils (messages : List Inbound) (s t : Session σ) (k : Journal σ) : Prop where
  outlook_eq : s.outlook messages = k ++ t.outlook messages
  items_eq : t.outbound.items = s.outbound.items ++ posted k
  fresh : t.Fresh
  ends : k = [] → t.stopped = true

omit [Interpreter σ] in
private theorem fresh_of_none (hj : s.job = .none) : s.Fresh := by
  intro x p deadline seen hloading
  simp [hj] at hloading

omit [Interpreter σ] in
private theorem fresh_of_calling {since : Nat} {x : Execution σ} (hj : s.job = .calling since x) :
    s.Fresh := by
  intro x p deadline seen hloading
  simp [hj] at hloading

private theorem outlook_feed (hs : s.stopped = false) (hj : s.job = .none) (ha : s.agenda = [])
    (e : BridgeEvent (Adapter σ)) (messages : List Inbound) :
    (s.feed e).outlook messages =
      (s.bridge.step e).1.pursue (s.registry.loader s.bridge.settings) (s.bridge.step e).2
        (s.inbound.items ++ messages) := by
  have hsettings := Bridge.settings_step s.bridge e
  simp [outlook, feed, hs, hj, ha, hsettings]

private theorem Faithful.job_of_agenda {e : Effect (Adapter σ)} {rest : List (Effect (Adapter σ))}
    (h : Faithful settings j s) (hf : s.Fresh) (ha : s.agenda = e :: rest) : s.job = .none := by
  have hengaged := h.engaged
  rw [ha] at hengaged
  cases hj : s.job with
  | none => rfl
  | loading x p deadline seen =>
    obtain ⟨hagenda, -⟩ := hf x p deadline seen hj
    simp [ha] at hagenda
  | calling since x =>
    rw [hj] at hengaged
    cases hengaged.agenda_of_calling

private theorem outlook_agenda {e : Effect (Adapter σ)} {rest : List (Effect (Adapter σ))}
    (hs : s.stopped = false) (hj : s.job = .none) (ha : s.agenda = e :: rest)
    (messages : List Inbound) : s.outlook messages = s.bridge.pursue
      (s.registry.loader s.bridge.settings) (e :: rest) (s.inbound.items ++ messages) := by
  simp [outlook, hs, hj, ha]

private theorem fulfils_load {name : String} (hs : s.stopped = false) (hj : s.job = .none)
    (hready : s.Ready messages) (ha : s.agenda = [.load name]) :
    Fulfils messages s ({ s with agenda := [] }.beginLoad name) s.noted := by
  have houtlook := outlook_agenda hs hj ha messages
  rw [Bridge.pursue_load] at houtlook
  cases hx : s.registry.find? name with
  | none =>
    have hnoted : s.noted = [.requested name, .loaded (.error (.unknownModule name))] := by
      simp [noted, ha, hx]
    have hfeed := outlook_feed (s := { s with agenda := [] }) hs hj rfl
      (.loaded (.error (.unknownModule name))) messages
    rw [hnoted]
    refine ⟨?_, ?_, ?_, by simp⟩
    · simp only [beginLoad, hx]
      rw [houtlook, hfeed]
      simp [Bridge.pursueLoad, Registry.loader, Registry.load, hx, Loaded.result?]
    · simp [beginLoad, hx, feed]
    · simp only [beginLoad, hx]
      exact fresh_of_none hj
  | some x =>
    have hnoted : s.noted = [.requested name] := by simp [noted, ha, hx]
    have hprompt : x.module.starting.Prompt := hready name (by simp [houtlook]) x hx
    rw [hnoted]
    refine ⟨?_, ?_, ?_, by simp⟩
    · rw [houtlook]
      simp [beginLoad, hx, outlook, hs, Registry.loader, Registry.load]
    · simp [beginLoad, hx]
    · intro x' p deadline seen hj
      obtain ⟨rfl, rfl, -, rfl⟩ : x = x' ∧ .start x.module.starting = p ∧ _ ∧ false = seen := by
        simpa [beginLoad, hx] using hj
      exact ⟨by simp [beginLoad, hx], rfl, rfl, hprompt⟩

private theorem fulfils_perform {e : Effect (Adapter σ)} {rest : List (Effect (Adapter σ))}
    (hfaithful : Faithful settings j s) (hf : s.Fresh) (hs : s.stopped = false)
    (ho : s.outbound.receiving = true) (hready : s.Ready messages) (ha : s.agenda = e :: rest)
    (h : s.perform e rest = some t) : Fulfils messages s t s.noted := by
  have hjob := hfaithful.job_of_agenda hf ha
  have hengaged := hfaithful.engaged
  rw [ha] at hengaged
  have houtlook := outlook_agenda hs hjob ha messages
  cases e with
  | publish tr =>
    have hnoted : s.noted = [.published tr] := by simp [noted, ha, Effect.entry]
    obtain rfl := Option.some.inj h
    rw [hnoted]
    refine ⟨?_, by simp, fresh_of_none hjob, by simp⟩
    rw [houtlook, Bridge.pursue_publish]
    simp [outlook, hs, hjob]
  | post m =>
    have hnoted : s.noted = [.posted m] := by simp [noted, ha, ho]
    obtain ⟨hc, rfl⟩ : s.outbound.hasRoom = true ∧
        { s with agenda := rest, outbound := s.outbound.push m } = t := by
      simpa [perform, ho] using h
    rw [hnoted]
    refine ⟨?_, by simp [Channel.push], fresh_of_none hjob, by simp⟩
    rw [houtlook, Bridge.pursue_post]
    simp [outlook, hs, hjob]
  | load name =>
    obtain rfl := Option.some.inj h
    obtain ⟨-, -, rfl⟩ := hengaged.of_load
    exact fulfils_load hs hjob hready ha
  | call a text =>
    have hnoted : s.noted = [.called s.bridge.settings.contextId a text] := by
      simp [noted, ha, Effect.entry]
    obtain rfl := Option.some.inj h
    obtain ⟨-, -, -, rfl⟩ := hengaged.of_call
    rw [Bridge.pursue_call] at houtlook
    rw [hnoted]
    refine ⟨?_, by simp [beginCall], fresh_of_calling rfl, by simp⟩
    rw [houtlook]
    simp [outlook, beginCall, hs]

private theorem fulfils_stop (hf : s.Fresh) (crash : Option Panic)
    (houtlook : s.outlook messages = []) : Fulfils messages s { s.stop with crash } [] where
  outlook_eq := by simpa [outlook, stop] using houtlook
  items_eq := by simp [stop, Channel.closeSender]
  fresh := hf
  ends := fun _ => rfl

private theorem fulfils_finishLoad {result : Loaded σ} (hf : s.Fresh) (hs : s.stopped = false)
    (ha : s.agenda = [])
    (houtlook : s.outlook messages =
      s.bridge.pursueLoad (s.registry.loader s.bridge.settings) result
        (s.inbound.items ++ messages)) :
    Fulfils messages s (s.finishLoad result) result.entries := by
  have hfeed (r : Except LoadError (Adapter σ)) :=
    outlook_feed (s := { s with job := .none }) hs rfl ha (.loaded r) messages
  cases result with
  | ready a =>
    refine ⟨?_, by simp [finishLoad, feed, Loaded.entries], fresh_of_none rfl,
      by simp [Loaded.entries]⟩
    rw [houtlook, finishLoad, hfeed]
    rfl
  | refused e =>
    refine ⟨?_, by simp [finishLoad, feed, Loaded.entries], fresh_of_none rfl,
      by simp [Loaded.entries]⟩
    rw [houtlook, finishLoad, hfeed]
    rfl
  | crashed p => exact fulfils_stop hf (some p) houtlook

private theorem fulfils_look {x : Registration σ} {p : Progress} {deadline : Nat}
    (hf : s.Fresh) (hs : s.stopped = false) (hj : s.job = .loading x p deadline false) :
    Fulfils messages s (s.look x p deadline) s.noted := by
  obtain ⟨ha, -, rfl, hprompt⟩ := hf x p deadline false hj
  have hpoll := hprompt.poll_eq s.now s.bridge.settings.loadTimeout
  have hnoted : s.noted =
      (x.module.load s.bridge.settings.loadTimeout s.bridge.settings.execTimeout).1.entries := by
    simp [noted, ha, hj, found, hpoll, Module.load]
  have hlook : s.look x (.start x.module.starting) deadline = s.finishLoad
      (x.module.load s.bridge.settings.loadTimeout s.bridge.settings.execTimeout).1 := by
    unfold look
    cases hreleased : s.releases.contains x.serial with
    | true => simp [hpoll, Module.load]
    | false =>
      have hnot : x.serial ∉ s.releases := by simpa using hreleased
      simp [hpoll, Module.load, List.erase_of_not_mem hnot]
  rw [hlook, hnoted]
  exact fulfils_finishLoad hf hs ha (by simp [outlook, hs, hj])

private theorem fulfils_finishCall {since : Nat} {x : Execution σ} (hs : s.stopped = false)
    (ha : s.agenda = []) (hj : s.job = .calling since x) :
    Fulfils messages s (s.finishCall x) s.noted := by
  have hnoted : s.noted = x.answer.entries := by simp [noted, ha, hj]
  have houtlook : s.outlook messages = s.bridge.pursueCall
      (s.registry.loader s.bridge.settings) x (s.inbound.items ++ messages) := by
    simp [outlook, hs, hj]
  have hfeed (r : Except EngineError String) :=
    outlook_feed (s := { s with job := .none }) hs rfl ha (.answered x.after r) messages
  rw [hnoted]
  unfold finishCall
  cases hx : x.answer with
  | ok text =>
    refine ⟨?_, by simp [feed, Answer.entries], fresh_of_none rfl, by simp [Answer.entries]⟩
    rw [houtlook, hfeed]
    simp [Bridge.pursueCall, hx, Answer.result?, Answer.entries]
  | error e =>
    refine ⟨?_, by simp [feed, Answer.entries], fresh_of_none rfl, by simp [Answer.entries]⟩
    rw [houtlook, hfeed]
    simp [Bridge.pursueCall, hx, Answer.result?, Answer.entries]
  | crashed p =>
    have hnothing : s.outlook messages = [] := by
      rw [houtlook]
      simp [Bridge.pursueCall, hx, Answer.result?]
    exact fulfils_stop (fresh_of_calling hj) (some p) hnothing

/-- A bridge that goes on does what was to be expected of it. -/
theorem fulfils_advance (hfaithful : Faithful settings j s) (hf : s.Fresh)
    (ho : s.outbound.receiving = true) (hready : s.Ready messages)
    (hclosed : s.inbound.sending = false → messages = []) (h : s.advance = some t) :
    s.stopped = false ∧ Fulfils messages s t s.noted := by
  obtain ⟨hs, hmove⟩ := advance_move h
  refine ⟨hs, ?_⟩
  cases hmove with
  | perform ha ht => exact fulfils_perform hfaithful hf hs ho hready ha ht
  | exhaust ha hj hi =>
    obtain ⟨hitems, hsending⟩ : s.inbound.items = [] ∧ s.inbound.sending = false := by
      simpa [Channel.exhausted] using hi
    have hnothing : s.outlook messages = [] := by
      simp [outlook, hs, hj, ha, hitems, hclosed hsending]
    have hnoted : s.noted = [] := by simp [noted, ha, hj, hitems]
    rw [hnoted]
    exact fulfils_stop hf s.crash hnothing
  | take ha hj hi ht =>
    obtain ⟨m, rest, hitems, rfl⟩ := takeMessage_eq_some ht
    have hnoted : s.noted = [.took m] := by simp [noted, ha, hj, hitems]
    have hfeed := outlook_feed (s := { s with inbound := { s.inbound with items := rest } })
      hs hj ha (.received m) messages
    rw [hnoted]
    refine ⟨?_, by simp [feed], fresh_of_none hj, by simp⟩
    rw [hfeed]
    simp [outlook, hs, hj, ha, hitems, -Bridge.pursue_nil, Bridge.pursue_took, Bridge.step]
  | look ha hj => exact fulfils_look hf hs hj
  | interrupt ha hj ht =>
    -- Work that starts without waiting has an end when it is looked at first.
    obtain ⟨-, hunseen, -⟩ := hf _ _ _ _ hj
    cases hunseen
  | finish ha hj hdue => exact fulfils_finishCall hs ha hj

end Session

namespace Framing

/-- The messages of these lines. -/
def messages (f : Framing) (lines : List String) : List Inbound := lines.filterMap f.message?

/-- The bytes that these messages write. -/
def frames (f : Framing) (l : List Outbound) : Text.Bytes :=
  l.flatMap fun m => ((f.pieces m).map Text.utf8).flatten

@[simp] theorem frames_nil (f : Framing) : f.frames [] = [] := rfl

@[simp] theorem frames_cons (f : Framing) (m : Outbound) (l : List Outbound) :
    f.frames (m :: l) = ((f.pieces m).map Text.utf8).flatten ++ f.frames l :=
  List.flatMap_cons

@[simp] theorem frames_append (f : Framing) (l k : List Outbound) :
    f.frames (l ++ k) = f.frames l ++ f.frames k :=
  List.flatMap_append

end Framing

namespace Service

/-- The messages that have not been sent yet. -/
def unsent (v : Service σ) : List Inbound := v.framing.messages (v.source.lines.map (·.2))

def outlook (v : Service σ) : Journal σ := v.session.outlook v.unsent

/-- All that is written and is still to be written. -/
def prospect (v : Service σ) : Text.Bytes :=
  v.sink.bytes ++ v.framing.frames (v.session.outbound.items ++ posted v.outlook)

/-- How much is still to be done. A message that is posted has still to be written, so that an entry
of the journal weighs more than a message on its way. -/
def toil (v : Service σ) : Nat :=
  2 * v.outlook.length + v.session.outbound.items.length + v.source.lines.length +
    (if v.session.stopped then 0 else 1) + (if v.session.inbound.sending then 1 else 0)

variable {registry : Registry σ} {settings : BridgeSettings} {v w : Service σ} {j : Journal σ}

/-- A task does what is to be done, and nothing else. -/
structure Advances (v w : Service σ) : Prop where
  fresh : w.session.Fresh
  outlook_eq : ∃ k, v.outlook = k ++ w.outlook
  prospect_eq : w.prospect = v.prospect
  toil_lt : w.toil < v.toil

theorem advances_bridge (h : v.Sound registry settings)
    (hfaithful : Session.Faithful settings j v.session) (hf : v.session.Fresh)
    (hready : v.session.Ready v.unsent) (hb : v.bridgeStep = some w) : v.Advances w := by
  obtain ⟨t, ht, rfl⟩ := Option.map_eq_some_iff.1 hb
  have hkeeps := Session.advance_keeps ht
  have hclosed (hs : v.session.inbound.sending = false) : v.unsent = [] := by
    simp [unsent, Framing.messages, h.closed hs]
  obtain ⟨hs, hk⟩ := Session.fulfils_advance hfaithful hf h.listened hready hclosed ht
  generalize v.session.noted = k at hk
  have houtlook : v.outlook = k ++ ({ v with session := t } : Service σ).outlook := hk.outlook_eq
  refine ⟨hk.fresh, ⟨k, houtlook⟩, ?_, ?_⟩
  · simp [prospect, houtlook, hk.items_eq]
  · have hposted : (posted k).length ≤ k.length := List.length_filterMap_le _ _
    have hlast : t.stopped = true ∨ 0 < k.length := by
      by_cases hnil : k = []
      · exact .inl (hk.ends hnil)
      · exact .inr (List.length_pos_iff.2 hnil)
    simp only [toil, houtlook, hk.items_eq, hkeeps.sending_eq, hs, List.length_append]
    rcases hlast with hstopped | hpos
    · simp only [hstopped, if_true, Bool.false_eq_true, if_false]
      omega
    · simp only [Bool.false_eq_true, if_false]
      have hle : (if t.stopped then 0 else 1) ≤ 1 := by split <;> decide
      omega

/-- What the reader does changes nothing in what is to be expected. -/
theorem outlook_read (h : v.Sound registry settings) (hr : v.readStep = some w) :
    w.outlook = v.outlook := by
  cases readStep_reads hr with
  | finish hl hs => simp [outlook, unsent, hl, Session.outlook, Channel.closeSender, hangUp]
  | skip hl hm => simp [outlook, unsent, Framing.messages, hl, hm, nextLine]
  | abandon hl hm hclosed =>
    have hstopped : v.session.stopped = true := by simpa [hclosed] using h.heard
    simp [outlook, Session.outlook, hstopped, hangUp]
  | send hl hm hr hc =>
    simp [outlook, unsent, Framing.messages, hl, hm, Session.outlook, Channel.push, nextLine]

/-- Nor does what the writer does. -/
theorem outlook_write (h : v.Sound registry settings) (hw : v.writeStep = some w) :
    w.outlook = v.outlook := by
  obtain ⟨m, rest, -, hsession, hsource, hframing, -⟩ := writeStep_accepting h.accepts hw
  simp only [outlook, unsent, hsession, hsource, hframing]
  rfl

private theorem advances_of_input (hf : v.session.Fresh) (source : Source)
    (inbound : Channel Inbound)
    (houtlook : ({ v with source, session := { v.session with inbound } } : Service σ).outlook =
      v.outlook)
    (hless : source.lines.length + (if inbound.sending then 1 else 0) <
      v.source.lines.length + (if v.session.inbound.sending then 1 else 0)) :
    v.Advances { v with source, session := { v.session with inbound } } := by
  refine ⟨hf, ⟨[], houtlook.symm⟩, ?_, ?_⟩
  · simp only [prospect, houtlook]
  · simp only [toil, houtlook]
    omega

theorem advances_read (h : v.Sound registry settings) (hf : v.session.Fresh)
    (hr : v.readStep = some w) : v.Advances w := by
  have houtlook := outlook_read h hr
  cases readStep_reads hr with
  | finish hl hs =>
    refine advances_of_input hf ⟨[], v.source.closes⟩ v.session.inbound.closeSender houtlook ?_
    simp [Channel.closeSender, hl, hs]
  | @skip t line rest hl hm =>
    refine advances_of_input hf { v.source with lines := rest } v.session.inbound houtlook ?_
    simp only [hl, List.length_cons]
    omega
  | abandon hl hm hclosed =>
    refine advances_of_input hf ⟨[], v.source.closes⟩ v.session.inbound.closeSender houtlook ?_
    simp only [Channel.closeSender, hl, Bool.false_eq_true, if_false, List.length_nil,
      List.length_cons]
    omega
  | @send t line rest m hl hm hr hc =>
    refine advances_of_input hf { v.source with lines := rest } (v.session.inbound.push m)
      houtlook ?_
    change rest.length + (if v.session.inbound.sending then 1 else 0) < _
    simp only [hl, List.length_cons]
    omega

theorem advances_write (h : v.Sound registry settings) (hf : v.session.Fresh)
    (hw : v.writeStep = some w) : v.Advances w := by
  have houtlook := outlook_write h hw
  obtain ⟨m, rest, hitems, hsession, hsource, hframing, -, -, hbytes⟩ :=
    writeStep_accepting h.accepts hw
  refine ⟨?_, ⟨[], houtlook.symm⟩, ?_, ?_⟩
  · rw [hsession]
    exact hf
  · simp [prospect, houtlook, hsession, hframing, hitems, hbytes]
  · simp only [toil, houtlook, hsession, hsource, hitems]
    simp

theorem Sound.advances (h : v.Sound registry settings)
    (hfaithful : Session.Faithful settings j v.session) (hf : v.session.Fresh)
    (hready : v.session.Ready v.unsent) (next : Task v w) : v.Advances w := by
  cases next with
  | bridge hb => exact advances_bridge h hfaithful hf hready hb
  | read hr => exact advances_read h hf hr
  | write hw => exact advances_write h hf hw

/-- Pauses change nothing in what is to be expected. -/
theorem pause_eq (hf : v.session.Fresh) (next : Pause v w) :
    w.session.Fresh ∧ w.outlook = v.outlook ∧ w.prospect = v.prospect ∧ w.toil = v.toil := by
  cases next with
  | wake =>
    rw [hf.wake_eq]
    exact ⟨hf, rfl, rfl, rfl⟩
  | elapse => exact ⟨hf, rfl, rfl, rfl⟩
  | reschedule => exact ⟨hf, rfl, rfl, rfl⟩

/-- What has become of what was to be expected of a service when it began. -/
structure Pursues (start v : Service σ) (n : Nat) : Prop where
  fresh : v.session.Fresh
  outlook_eq : ∃ k, start.outlook = k ++ v.outlook
  prospect_eq : v.prospect = start.prospect
  toil_le : n + v.toil ≤ start.toil

variable {framing : Framing} {first : Option Control} {source : Source} {n : Nat}

theorem Run.pursues (run : Run (create registry settings framing first source none) n v)
    (hready : ∀ name ∈ requested (create registry settings framing first source none).outlook,
      ∀ x, registry.find? name = some x → x.module.starting.Prompt) :
    Pursues (create registry settings framing first source none) v n := by
  induction run with
  | start =>
    refine ⟨?_, ⟨[], rfl⟩, rfl, Nat.le_of_eq (Nat.zero_add _)⟩
    intro x p deadline seen hj
    cases first <;> cases hj
  | @task n v w run next ih =>
    obtain ⟨k, hk⟩ := ih.outlook_eq
    have hsound := run.sound
    obtain ⟨j, hsession⟩ := run.session
    have hstill : v.session.Ready v.unsent := by
      intro name hname x hx
      rw [hsound.registry_eq] at hx
      refine hready name ?_ x hx
      rw [hk, requested_append]
      exact List.mem_append_right _ hname
    have hadvances := hsound.advances hsession.faithful ih.fresh hstill next
    obtain ⟨k', hk'⟩ := hadvances.outlook_eq
    have htoil := ih.toil_le
    have hless := hadvances.toil_lt
    refine ⟨hadvances.fresh, ⟨k ++ k', ?_⟩, hadvances.prospect_eq.trans ih.prospect_eq, by omega⟩
    rw [hk, hk', List.append_assoc]
  | pause run next ih =>
    obtain ⟨hfresh, houtlook, hprospect, htoil⟩ := pause_eq ih.fresh next
    obtain ⟨k, hk⟩ := ih.outlook_eq
    exact ⟨hfresh, ⟨k, houtlook ▸ hk⟩, hprospect.trans ih.prospect_eq, htoil ▸ ih.toil_le⟩

/-- Of a bridge that has ended nothing is to be expected. -/
theorem outlook_stopped (h : v.session.stopped = true) : v.outlook = [] := by
  simp [outlook, Session.outlook, h]

/-- What is to be expected of a service when it begins. -/
theorem outlook_create :
    (create registry settings framing first source none).outlook =
      Bridge.dialogue (registry.loader settings) (some { settings })
        (first.toList.map .control ++ framing.messages (source.lines.map (·.2))) := by
  cases first with
  | none => simp [outlook, create, Session.outlook, Session.create, unsent]
  | some c => simp [outlook, create, Session.outlook, Session.create, unsent, Channel.push]

theorem prospect_create :
    (create registry settings framing first source none).prospect =
      framing.frames
        (posted (create registry settings framing first source none).outlook) := by
  cases first <;> rfl

theorem toil_create :
    (create registry settings framing first source none).toil =
      2 * (create registry settings framing first source none).outlook.length +
        source.lines.length + 2 := by
  cases first <;> rfl

end Service

namespace Text

/-- The lines of a whole input; what follows the last line feed is one too. -/
def allLines (bytes : Bytes) : List Bytes :=
  let (lines, tail) := cutLines bytes
  lines ++ if tail.isEmpty then [] else [tail]

/-- The texts of an input, up to the first line that is not text. -/
def texts (bytes : Bytes) : List String := (readable (allLines bytes)).1

theorem allLines_append (a b : Bytes) :
    allLines (a ++ b) = (cutLines a).1 ++ allLines ((cutLines a).2 ++ b) := by
  simp [allLines, cutLines_append a b]

theorem allLines_tail {carry : Bytes} (h : (cutLines carry).1 = []) :
    allLines carry = if carry.isEmpty then [] else [carry] := by
  have htail : (cutLines carry).2 = carry := by simpa [h] using flatten_cutLines carry
  simp [allLines, h, htail]

theorem readable_append (a b : List Bytes) :
    (readable (a ++ b)).1 =
      if (readable a).2 then (readable a).1 ++ (readable b).1 else (readable a).1 := by
  induction a with
  | nil => simp [readable]
  | cons line rest ih =>
    cases ht : ofUtf8? (chomp line) with
    | none => simp [readable, ht]
    | some text =>
      simp only [List.cons_append, readable, ht, ih]
      split <;> rfl

end Text

def Segment.bytes : Segment → Text.Bytes
  | .data bytes => bytes
  | .wait _ => []

namespace Source

theorem texts_prepend (now : Nat) (lines : List Text.Bytes) (rest : Source) :
    (prepend now lines rest).lines.map (·.2) =
      if (Text.readable lines).2 then (Text.readable lines).1 ++ rest.lines.map (·.2)
      else (Text.readable lines).1 := by
  unfold prepend
  rcases Text.readable lines with ⟨texts, whole⟩
  cases whole <;> simp [Function.comp_def]

theorem texts_arriving (segments : List Segment) (now : Nat) {carry : Text.Bytes}
    (hcarry : (Text.cutLines carry).1 = []) :
    (arriving now carry segments).lines.map (·.2) =
      Text.texts (carry ++ segments.flatMap Segment.bytes) := by
  induction segments generalizing now carry with
  | nil =>
    rw [arriving, texts_prepend]
    simp [Text.texts, Text.allLines_tail hcarry]
  | cons segment segments ih =>
    cases segment with
    | wait ms => exact ih (now + ms) hcarry
    | data bytes =>
      have hrest := ih now (Text.cutLines_tail (carry ++ bytes))
      rw [arriving, texts_prepend, hrest]
      simp only [List.flatMap_cons, Segment.bytes, ← List.append_assoc, Text.texts,
        Text.allLines_append (carry ++ bytes), Text.readable_append]

/-- The texts of an input depend on its bytes alone. -/
theorem texts_ofSegments (segments : List Segment) :
    (ofSegments segments).lines.map (·.2) = Text.texts (segments.flatMap Segment.bytes) :=
  texts_arriving segments 0 rfl

end Source

namespace Service

variable {registry : Registry σ} {settings : BridgeSettings} {framing : Framing}
  {first : Option Control} {source : Source} {v : Service σ} {n : Nat}

theorem Able.step (h : v.Able) : ∃ w, Run v 1 w := by
  cases h with
  | task next => exact ⟨_, Run.start.task next⟩
  | turn _ hb => exact ⟨_, (Run.start.pause .wake).task (.bridge hb)⟩

/-- There is always a way to the end. -/
theorem Run.completes {v : Service σ} {n : Nat}
    (run : Run (create registry settings framing first source none) n v)
    (hready : ∀ name ∈ requested (create registry settings framing first source none).outlook,
      ∀ x, registry.find? name = some x → x.module.starting.Prompt) :
    ∃ m w, Run v m w ∧ w.ended = true := by
  cases he : v.ended with
  | true => exact ⟨_, _, .start, he⟩
  | false =>
    obtain ⟨now, -, hable⟩ := (run.sound.live he).later
    obtain ⟨w, hw⟩ := hable.step
    have next : Run v 1 w := by simpa using (Run.start.pause .elapse).trans hw
    have hbound := ((run.trans next).pursues hready).toil_le
    obtain ⟨m, u, hrun, hend⟩ := (run.trans next).completes hready
    exact ⟨_, _, next.trans hrun, hend⟩
termination_by (create registry settings framing first source none).toil - n

/-- How a service goes of which all is settled when it begins: its tasks take so many steps at most,
it writes nothing but what is expected, all of that at its end, and there is a way to the end. -/
structure Settled (framing : Framing) (expected : List Outbound) (steps : Nat) (n : Nat)
    (v : Service σ) : Prop where
  steps_le : n ≤ steps
  writes : v.sink.bytes <+: framing.frames expected
  written : v.ended = true → v.sink.bytes = framing.frames expected
  completes : ∃ m w, Run v m w ∧ w.ended = true

/-- The messages of a service: what the host asks for at the start, and then the lines. -/
def messages (framing : Framing) (first : Option Control) (input : Text.Bytes) : List Inbound :=
  first.toList.map .control ++ framing.messages (Text.texts input)

/-- A service whose writer takes everything is never at a standstill. If the module that is asked
for starts without waiting, the service writes what a bridge answers that takes the messages one at
a time; neither the order of the steps, nor the capacity of the channels, nor the portions of the
input make a difference. -/
theorem served_of_run {segments : List Segment} {capacity : Nat}
    (run : Run (create registry { settings with channelCapacity := capacity } framing first
      (.ofSegments segments) none) n v) :
    let input := segments.flatMap Segment.bytes
    let journal := Bridge.dialogue (registry.loader settings) (some { settings })
      (messages framing first input)
    (v.ended = false → v.Live) ∧
    ((∀ name ∈ settings.requestedModule (messages framing first input),
        ∀ x, registry.find? name = some x → x.module.starting.Prompt) →
      v.Settled framing (posted journal)
        (2 * journal.length + (Text.texts input).length + 2) n) := by
  have hlines := Source.texts_ofSegments segments
  refine ⟨fun he => run.sound.live he, fun hprompt => ?_⟩
  -- The capacity of the channels is nothing to the bridge.
  have houtlook : (create registry { settings with channelCapacity := capacity } framing first
      (.ofSegments segments) none).outlook =
        Bridge.dialogue (registry.loader settings) (some { settings })
          (messages framing first (segments.flatMap Segment.bytes)) := by
    rw [outlook_create, hlines]
    exact Bridge.dialogue_resize _ (some { settings }) capacity _
  have hready : ∀ name ∈ requested (create registry { settings with channelCapacity := capacity }
      framing first (.ofSegments segments) none).outlook,
      ∀ x, registry.find? name = some x → x.module.starting.Prompt := by
    intro name hname
    rw [houtlook, Bridge.requested_dialogue rfl, Option.mem_toList] at hname
    exact hprompt name hname
  have hpursues := run.pursues hready
  have hprospect := hpursues.prospect_eq
  have htoil := hpursues.toil_le
  rw [prospect_create, houtlook] at hprospect
  have hcount := congrArg List.length hlines
  rw [List.length_map] at hcount
  rw [toil_create, houtlook, hcount] at htoil
  refine ⟨by omega, ⟨_, hprospect⟩, ?_, run.completes hready⟩
  intro hend
  obtain ⟨hstopped, hitems⟩ : v.session.stopped = true ∧ v.session.outbound.items = [] := by
    simpa [ended, run.sound.working] using hend
  simpa [prospect, outlook_stopped hstopped, hitems] using hprospect

end Service

namespace Rehearsal

/-- Two commands as JSON, with a blank line between them, cut where it suits nobody. -/
def portions : List Segment :=
  [.data (Text.utf8 "\"1 "), .wait 3, .data (Text.utf8 ".\"\n\n\"dup"), .data (Text.utf8 "\"\n")]

/-- A service with channels for one message each, which asks for its module at the start. -/
def service : Service Scripted :=
  .create registry { Rehearsal.settings with channelCapacity := 0 } .json (some (.start none))
    (.ofSegments portions) none

def answers : String :=
  "\x7b\"cmd\":\"ready\"\x7d\n" ++ "\"1 \"\n" ++
    "\x7b\"cmd\":\"error\",\"kind\":\"fault\"," ++
    "\"detail\":\"execution fault: ScriptedInterpreter: no reply for `dup`\"\x7d\n"

/-- What a bridge does that takes the same messages one at a time. -/
def conversation : Journal Scripted :=
  Bridge.dialogue (registry.loader Rehearsal.settings) (some { settings := Rehearsal.settings })
    (Service.messages .json (some (.start none)) (portions.flatMap Segment.bytes))

end Rehearsal

/-- The schedule of the service itself brings it to its end, and it has written the answers. -/
theorem served_rehearsal : ∃ n v, Service.Run Rehearsal.service n v ∧ v.ended = true ∧
    v.sink.bytes = Text.utf8 Rehearsal.answers ∧
    Framing.json.frames (posted Rehearsal.conversation) = Text.utf8 Rehearsal.answers := by
  obtain ⟨n, run⟩ := Service.run_runFor 60 Rehearsal.service
  have hprompt : ∀ name ∈ Rehearsal.settings.requestedModule
      (Service.messages .json (some (.start none)) (Rehearsal.portions.flatMap Segment.bytes)),
      ∀ x, Rehearsal.registry.find? name = some x → x.module.starting.Prompt := by
    intro name hname x hx
    obtain rfl : "forth" = name := Option.some.inj hname
    obtain rfl : _ = x := Option.some.inj hx
    decide
  have hsettled := (Service.served_of_run run).2 hprompt
  have hbytes : (Rehearsal.service.runFor 60).sink.bytes = Text.utf8 Rehearsal.answers := by
    decide +kernel
  exact ⟨n, _, run, rfl, hbytes, (hsettled.written rfl).symm.trans hbytes⟩

end EngineBridge
