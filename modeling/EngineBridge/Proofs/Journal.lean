import EngineBridge.Bridge.Session
import EngineBridge.Engine.Scripted

/-!
# The journal of a session

Everything that a bridge takes and does is one entry of a journal. A run interleaves the steps of a
session with those of its surroundings in any order: messages sent and collected, time, the end of a
load, a closed channel, a host that leaves. A load may end in any way and at any moment, so what is
shown of all runs holds whatever the loader does.
-/

namespace EngineBridge

/-- One thing that a bridge takes or does. -/
inductive Entry (σ : Type) where
  | took (m : Inbound)
  | loaded (result : Except LoadError (Adapter σ))
  | answered (result : Except EngineError String)
  | published (t : Transition)
  | posted (m : Outbound)
  /-- The loader is called. -/
  | requested (module : String)
  /-- The adapter is called. -/
  | called (context : Nat) (engine : Adapter σ) (command : String)

/-- The entry of an effect that is carried out. -/
def Effect.entry {σ : Type} (context : Nat) : Effect (Adapter σ) → Entry σ
  | .publish t => .published t
  | .post m => .posted m
  | .load name => .requested name
  | .call a command => .called context a command

abbrev Journal (σ : Type) := List (Entry σ)

namespace Entry

variable {σ : Type}

@[simp] def took? : Entry σ → Option Inbound
  | .took m => some m
  | _ => none

@[simp] def command? : Entry σ → Option String
  | .took (.command text) => some text
  | _ => none

/-- The module named by a request to load, which may name none. -/
@[simp] def start? : Entry σ → Option (Option String)
  | .took (.control (.start module)) => some module
  | _ => none

@[simp] def loaded? : Entry σ → Option (Except LoadError (Adapter σ))
  | .loaded r => some r
  | _ => none

@[simp] def answered? : Entry σ → Option (Except EngineError String)
  | .answered r => some r
  | _ => none

@[simp] def published? : Entry σ → Option Transition
  | .published t => some t
  | _ => none

@[simp] def posted? : Entry σ → Option Outbound
  | .posted m => some m
  | _ => none

@[simp] def requested? : Entry σ → Option String
  | .requested name => some name
  | _ => none

@[simp] def called? : Entry σ → Option (Nat × String)
  | .called context _ command => some (context, command)
  | _ => none

end Entry

namespace Journal

variable {σ : Type}

/-- The messages taken, in the order of their arrival. -/
def taken (j : Journal σ) : List Inbound := j.filterMap Entry.took?

def commands (j : Journal σ) : List String := j.filterMap Entry.command?

def results (j : Journal σ) : List (Except EngineError String) := j.filterMap Entry.answered?

def published (j : Journal σ) : List Transition := j.filterMap Entry.published?

def posted (j : Journal σ) : List Outbound := j.filterMap Entry.posted?

/-- The calls of the loader. -/
def requested (j : Journal σ) : List String := j.filterMap Entry.requested?

/-- The calls of the adapter, with their contexts. -/
def calls (j : Journal σ) : List (Nat × String) := j.filterMap Entry.called?

/-- What the first request to load asked for. -/
def asked (j : Journal σ) : Option (Option String) := j.findSome? Entry.start?

def loadResult (j : Journal σ) : Option (Except LoadError (Adapter σ)) := j.findSome? Entry.loaded?

/-- How the load has ended. A request that names no module, with none configured, ends it at
once. -/
def outcome (settings : BridgeSettings) (j : Journal σ) : Option (Except LoadError (Adapter σ)) :=
  match asked j with
  | none => none
  | some module =>
    match module.or settings.defaultModule with
    | none => some (.error .noModule)
    | some _ => loadResult j

private theorem filterMap_cons_toList {α β : Type} (f : α → Option β) (x : α) (l : List α) :
    (x :: l).filterMap f = (f x).toList ++ l.filterMap f := by
  cases h : f x <;> simp [h]

private theorem findSome?_cons_or {α β : Type} (f : α → Option β) (x : α) (l : List α) :
    (x :: l).findSome? f = (f x).or (l.findSome? f) := by
  cases h : f x <;> simp [h]

@[simp] theorem taken_nil : taken ([] : Journal σ) = [] := rfl

@[simp] theorem taken_cons (x : Entry σ) (j : Journal σ) :
    taken (x :: j) = x.took?.toList ++ taken j :=
  filterMap_cons_toList _ x j

@[simp] theorem taken_append (j k : Journal σ) : taken (j ++ k) = taken j ++ taken k :=
  List.filterMap_append

@[simp] theorem commands_nil : commands ([] : Journal σ) = [] := rfl

@[simp] theorem commands_cons (x : Entry σ) (j : Journal σ) :
    commands (x :: j) = x.command?.toList ++ commands j :=
  filterMap_cons_toList _ x j

@[simp] theorem commands_append (j k : Journal σ) : commands (j ++ k) = commands j ++ commands k :=
  List.filterMap_append

@[simp] theorem results_nil : results ([] : Journal σ) = [] := rfl

@[simp] theorem results_cons (x : Entry σ) (j : Journal σ) :
    results (x :: j) = x.answered?.toList ++ results j :=
  filterMap_cons_toList _ x j

@[simp] theorem results_append (j k : Journal σ) : results (j ++ k) = results j ++ results k :=
  List.filterMap_append

@[simp] theorem published_nil : published ([] : Journal σ) = [] := rfl

@[simp] theorem published_cons (x : Entry σ) (j : Journal σ) :
    published (x :: j) = x.published?.toList ++ published j :=
  filterMap_cons_toList _ x j

@[simp] theorem published_append (j k : Journal σ) :
    published (j ++ k) = published j ++ published k :=
  List.filterMap_append

@[simp] theorem posted_nil : posted ([] : Journal σ) = [] := rfl

@[simp] theorem posted_cons (x : Entry σ) (j : Journal σ) :
    posted (x :: j) = x.posted?.toList ++ posted j :=
  filterMap_cons_toList _ x j

@[simp] theorem posted_append (j k : Journal σ) : posted (j ++ k) = posted j ++ posted k :=
  List.filterMap_append

@[simp] theorem requested_nil : requested ([] : Journal σ) = [] := rfl

@[simp] theorem requested_cons (x : Entry σ) (j : Journal σ) :
    requested (x :: j) = x.requested?.toList ++ requested j :=
  filterMap_cons_toList _ x j

@[simp] theorem requested_append (j k : Journal σ) :
    requested (j ++ k) = requested j ++ requested k :=
  List.filterMap_append

@[simp] theorem calls_nil : calls ([] : Journal σ) = [] := rfl

@[simp] theorem calls_cons (x : Entry σ) (j : Journal σ) :
    calls (x :: j) = x.called?.toList ++ calls j :=
  filterMap_cons_toList _ x j

@[simp] theorem calls_append (j k : Journal σ) : calls (j ++ k) = calls j ++ calls k :=
  List.filterMap_append

@[simp] theorem asked_nil : asked ([] : Journal σ) = none := rfl

@[simp] theorem asked_cons (x : Entry σ) (j : Journal σ) : asked (x :: j) = x.start?.or (asked j) :=
  findSome?_cons_or _ x j

@[simp] theorem asked_append (j k : Journal σ) : asked (j ++ k) = (asked j).or (asked k) :=
  List.findSome?_append

@[simp] theorem loadResult_nil : loadResult ([] : Journal σ) = none := rfl

@[simp] theorem loadResult_cons (x : Entry σ) (j : Journal σ) :
    loadResult (x :: j) = x.loaded?.or (loadResult j) :=
  findSome?_cons_or _ x j

@[simp] theorem loadResult_append (j k : Journal σ) :
    loadResult (j ++ k) = (loadResult j).or (loadResult k) :=
  List.findSome?_append

/-- Messages that are posted one after another. -/
def posts (l : List Outbound) : Journal σ := l.map .posted

@[simp] theorem posts_nil : posts [] = ([] : Journal σ) := rfl

@[simp] theorem taken_posts (l : List Outbound) : taken (posts l : Journal σ) = [] := by
  simp [taken, posts]

@[simp] theorem commands_posts (l : List Outbound) : commands (posts l : Journal σ) = [] := by
  simp [commands, posts]

@[simp] theorem results_posts (l : List Outbound) : results (posts l : Journal σ) = [] := by
  simp [results, posts]

@[simp] theorem published_posts (l : List Outbound) : published (posts l : Journal σ) = [] := by
  simp [published, posts]

@[simp] theorem posted_posts (l : List Outbound) : posted (posts l : Journal σ) = l := by
  induction l with
  | nil => rfl
  | cons m l ih => simpa [posts] using ih

@[simp] theorem requested_posts (l : List Outbound) : requested (posts l : Journal σ) = [] := by
  simp [requested, posts]

@[simp] theorem calls_posts (l : List Outbound) : calls (posts l : Journal σ) = [] := by
  simp [calls, posts]

@[simp] theorem asked_posts (l : List Outbound) : asked (posts l : Journal σ) = none := by
  simp [asked, posts]

@[simp] theorem loadResult_posts (l : List Outbound) : loadResult (posts l : Journal σ) = none := by
  simp [loadResult, posts]

/-- What a bridge is to do is no message taken and no end of a load. -/
@[simp] theorem commands_effects (context : Nat) (l : List (Effect (Adapter σ))) :
    commands (l.map (Effect.entry context)) = [] := by
  induction l with
  | nil => rfl
  | cons e l ih => cases e <;> simpa [Effect.entry] using ih

@[simp] theorem loadResult_effects (context : Nat) (l : List (Effect (Adapter σ))) :
    loadResult (l.map (Effect.entry context)) = none := by
  induction l with
  | nil => rfl
  | cons e l ih => cases e <;> simpa [Effect.entry] using ih

@[simp] theorem asked_effects (context : Nat) (l : List (Effect (Adapter σ))) :
    asked (l.map (Effect.entry context)) = none := by
  induction l with
  | nil => rfl
  | cons e l ih => cases e <;> simpa [Effect.entry] using ih

theorem mem_posted {j : Journal σ} {m : Outbound} : m ∈ posted j ↔ .posted m ∈ j := by
  unfold posted
  rw [List.mem_filterMap]
  constructor
  · rintro ⟨x, hx, hm⟩
    cases x <;> simp at hm
    subst hm
    exact hx
  · intro h
    exact ⟨_, h, rfl⟩

theorem outcome_congr {settings : BridgeSettings} {j k : Journal σ} (ha : asked k = asked j)
    (hl : loadResult k = loadResult j) : outcome settings k = outcome settings j := by
  simp only [outcome, ha, hl]

/-- A load that has ended stays as it is. -/
theorem outcome_append {settings : BridgeSettings} {j : Journal σ}
    {r : Except LoadError (Adapter σ)} (h : outcome settings j = some r) (k : Journal σ) :
    outcome settings (j ++ k) = some r := by
  unfold outcome at h ⊢
  cases ha : asked j with
  | none => simp [ha] at h
  | some module =>
    cases hm : module.or settings.defaultModule with
    | none => simpa [ha, hm] using h
    | some name =>
      have hr : loadResult j = some r := by simpa [ha, hm] using h
      simp [ha, hm, hr]

end Journal

/-- The entries of the end of a load. A panic has none. -/
def Loaded.entries {σ : Type} : Loaded σ → Journal σ
  | .ready a => [.loaded (.ok a)]
  | .refused e => [.loaded (.error e)]
  | .crashed _ => []

/-- The entries of the end of a call. -/
def Answer.entries {σ : Type} : Answer → Journal σ
  | .ok text => [.answered (.ok text)]
  | .error e => [.answered (.error e)]
  | .crashed _ => []

/-- The answer that hands out a result. -/
def Answer.ofResult : Except EngineError String → Answer
  | .ok text => .ok text
  | .error e => .error e

theorem Channel.take?_eq_some {μ : Type} {c d : Channel μ} {m : μ} (h : c.take? = some (m, d)) :
    ∃ rest, c.items = m :: rest ∧ d = { c with items := rest } := by
  unfold take? at h
  split at h
  · cases h
  next hitems =>
    obtain ⟨rfl, rfl⟩ := Prod.mk.inj (Option.some.inj h)
    exact ⟨_, hitems, rfl⟩

theorem Channel.take?_of_items {μ : Type} {c : Channel μ} {m : μ} {rest : List μ}
    (h : c.items = m :: rest) : c.take? = some (m, { c with items := rest }) := by
  simp [take?, h]

namespace Session

variable {σ : Type} [Interpreter σ]

/-- One step of a session or of its surroundings, with what it adds to the journal. -/
inductive Step : Session σ → Journal σ → Session σ → Prop
  /-- The host sends a message. -/
  | send {s m} (hs : s.inbound.sending = true) (hr : s.inbound.receiving = true)
      (hc : s.inbound.hasRoom = true) : Step s [] { s with inbound := s.inbound.push m }
  /-- The host takes the oldest message that the bridge has posted. -/
  | collect {s m rest} (h : s.outbound.take? = some (m, rest)) :
      Step s [] { s with outbound := rest }
  | close {s} : Step s [] { s with inbound := s.inbound.closeSender }
  | disconnect {s} : Step s [] { s with outbound := s.outbound.closeReceiver }
  /-- Time passes, and modules and gates change. -/
  | elapse {s now registry releases} : Step s [] { s with now, registry, releases }
  /-- The load goes on without an end. -/
  | linger {s x p p' deadline seen seen'} (hj : s.job = .loading x p deadline seen) :
      Step s [] { s with job := .loading x p' deadline seen' }
  | publish {s t rest} (hs : s.stopped = false) (ha : s.agenda = .publish t :: rest) :
      Step s [.published t] { s with agenda := rest, events := (s.events.publish t).1 }
  | post {s m rest} (hs : s.stopped = false) (ha : s.agenda = .post m :: rest)
      (hr : s.outbound.receiving = true) (hc : s.outbound.hasRoom = true) :
      Step s [.posted m] { s with agenda := rest, outbound := s.outbound.push m }
  /-- A message cannot be posted, for the host has left. -/
  | lose {s m rest} (hs : s.stopped = false) (ha : s.agenda = .post m :: rest)
      (hr : s.outbound.receiving = false) : Step s [] s.stop
  | request {s name rest x} (hs : s.stopped = false) (ha : s.agenda = .load name :: rest)
      (hx : s.registry.find? name = some x) :
      Step s [.requested name] ({ s with agenda := rest }.beginLoad name)
  /-- The loader refuses at once. -/
  | refuse {s name rest} (hs : s.stopped = false) (ha : s.agenda = .load name :: rest)
      (hx : s.registry.find? name = none) :
      Step s [.requested name, .loaded (.error (.unknownModule name))]
        ({ s with agenda := rest }.beginLoad name)
  | call {s a command rest} (hs : s.stopped = false) (ha : s.agenda = .call a command :: rest) :
      Step s [.called s.bridge.settings.contextId a command]
        ({ s with agenda := rest }.beginCall a command)
  | take {s m rest} (hl : s.listens = true) (hm : s.inbound.take? = some (m, rest)) :
      Step s [.took m] ({ s with inbound := rest }.feed (.received m))
  /-- The load ends, in whatever way. -/
  | load {s x p deadline seen result} (hs : s.stopped = false) (ha : s.agenda = [])
      (hj : s.job = .loading x p deadline seen) :
      Step s [.loaded result] ({ s with job := .none }.feed (.loaded result))
  | answer {s since x result} (hs : s.stopped = false) (ha : s.agenda = [])
      (hj : s.job = .calling since x) (hx : x.answer = .ofResult result) :
      Step s [.answered result] ({ s with job := .none }.feed (.answered x.after result))
  /-- Nothing more will come. -/
  | exhaust {s} (hs : s.stopped = false) (ha : s.agenda = []) (hj : s.job = .none)
      (hi : s.inbound.exhausted = true) : Step s [] s.stop
  /-- A start of the interpreter panics. -/
  | crashLoad {s x p deadline seen panic} (hs : s.stopped = false) (ha : s.agenda = [])
      (hj : s.job = .loading x p deadline seen) : Step s [] (s.crashed panic)
  /-- A recovery panics. -/
  | crashCall {s since x panic} (hs : s.stopped = false) (ha : s.agenda = [])
      (hj : s.job = .calling since x) (hx : x.answer = .crashed panic) :
      Step s [] (s.crashed panic)

/-- The steps from one session to another, with the journal of them all. -/
inductive Run (s : Session σ) : Journal σ → Session σ → Prop
  | start : Run s [] s
  | step {j k t u} (run : Run s j t) (next : Step t k u) : Run s (j ++ k) u

theorem Run.single {s t : Session σ} {j : Journal σ} (h : Step s j t) : Run s j t :=
  .step .start h

theorem Run.trans {s t u : Session σ} {j k : Journal σ} (first : Run s j t) (second : Run t k u) :
    Run s (j ++ k) u := by
  induction second with
  | start => simpa using first
  | step _ next ih => simpa only [List.append_assoc] using ih.step next

/-- Steps of the bridge alone. What they post waits behind what the host has still to collect; they
take messages in their order, and a bridge that ends drops what it has not taken. -/
structure Alone (s : Session σ) (j : Journal σ) (t : Session σ) : Prop where
  run : Run s j t
  items_eq : t.outbound.items = s.outbound.items ++ j.posted
  taken_eq : s.inbound.items = j.taken ++ t.inbound.items ∨ t.stopped = true ∧ j.taken = []

private theorem Alone.silent {s t u : Session σ} {j : Journal σ} (run : Run s [] t)
    (next : Step t j u) (hj : j.posted = []) (ho : u.outbound.items = s.outbound.items)
    (hi : s.inbound.items = j.taken ++ u.inbound.items ∨ u.stopped = true ∧ j.taken = []) :
    Alone s j u where
  run := by simpa using run.step next
  items_eq := by simpa [hj] using ho
  taken_eq := hi

/-- How the load ends at which the bridge looks, if it does. -/
def found (s : Session σ) (x : Registration σ) (p : Progress) (deadline : Nat) :
    Option (Loaded σ) :=
  let settings := s.bridge.settings
  let conclude := x.module.conclude settings.loadTimeout settings.execTimeout
  match (p.poll s.now (s.releases.contains x.serial)).1 with
  | .inr verdict => some (conclude verdict)
  | .inl _ => if deadline ≤ s.now then some (conclude .late) else none

/-- What a bridge adds to its journal when it goes on. -/
def noted (s : Session σ) : Journal σ :=
  match s.agenda, s.job with
  | .post m :: _, _ => if s.outbound.receiving then [.posted m] else []
  | .load name :: _, _ =>
    .requested name ::
      if (s.registry.find? name).isSome then [] else [.loaded (.error (.unknownModule name))]
  | e :: _, _ => [e.entry s.bridge.settings.contextId]
  | [], .loading x p deadline false => (s.found x p deadline).elim [] Loaded.entries
  | [], .calling _ x => x.answer.entries
  | [], _ => s.inbound.items.head?.toList.map .took

private theorem perform_alone {s t : Session σ} {e : Effect (Adapter σ)}
    {rest : List (Effect (Adapter σ))} (hs : s.stopped = false) (ha : s.agenda = e :: rest)
    (h : s.perform e rest = some t) : Alone s s.noted t := by
  cases e with
  | publish tr =>
    have hnoted : s.noted = [.published tr] := by simp [noted, ha, Effect.entry]
    obtain rfl := Option.some.inj h
    rw [hnoted]
    exact .silent .start (.publish hs ha) rfl rfl (.inl rfl)
  | post m =>
    cases hr : s.outbound.receiving with
    | false =>
      have hnoted : s.noted = [] := by simp [noted, ha, hr]
      obtain rfl : s.stop = t := by simpa [perform, hr] using h
      rw [hnoted]
      exact .silent .start (.lose hs ha hr) rfl rfl (.inr ⟨rfl, rfl⟩)
    | true =>
      have hnoted : s.noted = [.posted m] := by simp [noted, ha, hr]
      obtain ⟨hc, rfl⟩ : s.outbound.hasRoom = true ∧
          { s with agenda := rest, outbound := s.outbound.push m } = t := by
        simpa [perform, hr] using h
      rw [hnoted]
      exact ⟨.single (.post hs ha hr hc), rfl, .inl rfl⟩
  | load name =>
    obtain rfl := Option.some.inj h
    cases hx : s.registry.find? name with
    | none =>
      have hnoted : s.noted = [.requested name, .loaded (.error (.unknownModule name))] := by
        simp [noted, ha, hx]
      rw [hnoted]
      exact .silent .start (.refuse hs ha hx) rfl (by simp [beginLoad, hx, feed])
        (.inl (by simp [beginLoad, hx, feed]))
    | some x =>
      have hnoted : s.noted = [.requested name] := by simp [noted, ha, hx]
      rw [hnoted]
      exact .silent .start (.request hs ha hx) rfl (by simp [beginLoad, hx])
        (.inl (by simp [beginLoad, hx]))
  | call a command =>
    have hnoted : s.noted = [.called s.bridge.settings.contextId a command] := by
      simp [noted, ha, Effect.entry]
    obtain rfl := Option.some.inj h
    rw [hnoted]
    exact .silent .start (.call hs ha) rfl rfl (.inl rfl)

private theorem look_alone {s : Session σ} {x : Registration σ} {p : Progress} {deadline : Nat}
    {seen : Bool} (hs : s.stopped = false) (ha : s.agenda = [])
    (hj : s.job = .loading x p deadline seen) :
    Alone s ((s.found x p deadline).elim [] Loaded.entries) (s.look x p deadline) := by
  have first (releases : List Nat) : Run s [] { s with releases } :=
    .single .elapse
  have finish (releases : List Nat) (result : Loaded σ) :
      Alone s result.entries ({ s with releases }.finishLoad result) := by
    cases result with
    | ready a => exact .silent (first releases) (.load hs ha hj) rfl rfl (.inl rfl)
    | refused e => exact .silent (first releases) (.load hs ha hj) rfl rfl (.inl rfl)
    | crashed panic =>
      exact .silent (first releases) (.crashLoad hs ha hj) rfl rfl (.inr ⟨rfl, rfl⟩)
  unfold look found
  rcases p.poll s.now (s.releases.contains x.serial) with ⟨result, released⟩
  have hreleases : (if released then s else { s with releases := s.releases.erase x.serial }) =
      { s with releases := if released then s.releases else s.releases.erase x.serial } := by
    cases released <;> rfl
  simp only [hreleases]
  cases result with
  | inr verdict => exact finish _ _
  | inl next =>
    dsimp only
    split
    · exact finish _ (x.module.conclude _ _ .late)
    · have paused := first (if released then s.releases else s.releases.erase x.serial)
      exact .silent paused (.linger hj) rfl rfl (.inl rfl)

/-- What a bridge does when it goes on. -/
inductive Move (s : Session σ) : Session σ → Prop
  | perform {e rest t} (ha : s.agenda = e :: rest) (ht : s.perform e rest = some t) : Move s t
  | exhaust (ha : s.agenda = []) (hj : s.job = .none) (hi : s.inbound.exhausted = true) :
      Move s s.stop
  | take {t} (ha : s.agenda = []) (hj : s.job = .none) (hi : s.inbound.exhausted = false)
      (ht : s.takeMessage = some t) : Move s t
  | look {x p deadline} (ha : s.agenda = []) (hj : s.job = .loading x p deadline false) :
      Move s (s.look x p deadline)
  /-- A message comes while the load waits. -/
  | interrupt {x p deadline t} (ha : s.agenda = []) (hj : s.job = .loading x p deadline true)
      (ht : s.wake.takeMessage = some t) : Move s t
  | finish {since x} (ha : s.agenda = []) (hj : s.job = .calling since x)
      (hdue : since + x.millis ≤ s.now) : Move s (s.finishCall x)

theorem advance_move {s t : Session σ} (h : s.advance = some t) : s.stopped = false ∧ Move s t := by
  unfold advance at h
  split at h
  · cases h
  next hstopped =>
    refine ⟨by simpa using hstopped, ?_⟩
    cases ha : s.agenda with
    | cons e rest => exact .perform ha (by simpa [ha] using h)
    | nil =>
      cases hj : s.job with
      | none =>
        cases hi : s.inbound.exhausted with
        | true =>
          obtain rfl : s.stop = t := by simpa [ha, hj, hi] using h
          exact .exhaust ha hj hi
        | false => exact .take ha hj hi (by simpa [ha, hj, hi] using h)
      | loading x p deadline seen =>
        cases seen with
        | false =>
          obtain rfl : s.look x p deadline = t := by simpa [ha, hj] using h
          exact .look ha hj
        | true => exact .interrupt ha hj (by simpa [ha, hj] using h)
      | calling since x =>
        obtain ⟨hdue, rfl⟩ : since + x.millis ≤ s.now ∧ s.finishCall x = t := by
          simpa [ha, hj] using h
        exact .finish ha hj hdue

/-- A bridge that goes on does nothing but such steps. -/
theorem alone_noted {s t : Session σ} (h : s.advance = some t) : Alone s s.noted t := by
  obtain ⟨hs, hmove⟩ := advance_move h
  cases hmove with
  | perform ha ht => exact perform_alone hs ha ht
  | exhaust ha hj hi =>
    obtain ⟨hitems, -⟩ : s.inbound.items = [] ∧ s.inbound.sending = false := by
      simpa [Channel.exhausted] using hi
    have hnoted : s.noted = [] := by simp [noted, ha, hj, hitems]
    rw [hnoted]
    exact .silent .start (.exhaust hs ha hj hi) rfl rfl (.inr ⟨rfl, rfl⟩)
  | take ha hj hi ht =>
    obtain ⟨⟨m, inbound⟩, hm, rfl⟩ := Option.map_eq_some_iff.1 ht
    obtain ⟨rest, hitems, rfl⟩ := Channel.take?_eq_some hm
    have hnoted : s.noted = [.took m] := by simp [noted, ha, hj, hitems]
    rw [hnoted]
    exact .silent .start (.take (by simp [listens, hs, ha, hj]) hm) rfl rfl (.inl hitems)
  | @look x p deadline ha hj =>
    have hnoted : s.noted = (s.found x p deadline).elim [] Loaded.entries := by
      simp [noted, ha, hj]
    rw [hnoted]
    exact look_alone hs ha hj
  | interrupt ha hj ht =>
    obtain ⟨⟨m, inbound⟩, hm, rfl⟩ := Option.map_eq_some_iff.1 ht
    obtain ⟨rest, hitems, rfl⟩ := Channel.take?_eq_some hm
    have hw : Run s [] s.wake := by
      simp only [wake, hj]
      exact .single (.linger hj)
    have hlistens : s.wake.listens = true := by simp [listens, wake, hs, ha, hj]
    have houtbound : s.wake.outbound.items = s.outbound.items := by simp [wake, hj]
    have hinbound : s.wake.inbound.items = s.inbound.items := by simp [wake, hj]
    have hnoted : s.noted = [.took m] := by simp [noted, ha, hj, ← hinbound, hitems]
    rw [hnoted]
    exact .silent hw (.take hlistens hm) rfl houtbound (.inl (hinbound.symm.trans hitems))
  | @finish since x ha hj =>
    have hnoted : s.noted = x.answer.entries := by simp [noted, ha, hj]
    rw [hnoted]
    cases hx : x.answer with
    | ok text =>
      have hr : x.answer = .ofResult (.ok text) := hx
      simp only [finishCall, hx]
      exact .silent .start (.answer hs ha hj hr) rfl rfl (.inl rfl)
    | error e =>
      have hr : x.answer = .ofResult (.error e) := hx
      simp only [finishCall, hx]
      exact .silent .start (.answer hs ha hj hr) rfl rfl (.inl rfl)
    | crashed panic =>
      simp only [finishCall, hx]
      exact .silent .start (.crashCall hs ha hj hx) rfl rfl (.inr ⟨rfl, rfl⟩)

theorem advance_alone {s t : Session σ} (h : s.advance = some t) : ∃ j, Alone s j t :=
  ⟨s.noted, alone_noted h⟩

theorem advance_run {s t : Session σ} (h : s.advance = some t) : ∃ j, Run s j t := by
  obtain ⟨j, halone⟩ := advance_alone h
  exact ⟨j, halone.run⟩

end Session

namespace Rehearsal

def settings : BridgeSettings := { maxPending := 1, defaultModule := some "forth" }

def engine : Scripted := .ofReplies [("1 .", .output "1 ")] false

def registry : Registry Scripted := Registry.empty.register ⟨"forth", "", .nothing, engine⟩

def adapter : Adapter Scripted := { module := "forth", engine, execTimeout := 5000 }

/-- The error of a command that the engine does not know. -/
def unknown : EngineError := .fault "ScriptedInterpreter: no reply for `dup`"

/-- Of two early commands one waits and one is refused; the load succeeds, the waiting command
prints something, and a later one fails. -/
def journal : Journal Scripted :=
  [.took (.command "1 ."), .took (.command "2 ."), .posted (BridgeError.queueFull 1).notice,
    .took (.control (.start none)), .published ⟨.uninitialized, .loading⟩, .requested "forth",
    .loaded (.ok adapter), .published ⟨.loading, .ready⟩, .posted (.notice .ready),
    .called 0 adapter "1 .", .answered (.ok "1 "), .posted (.response "1 "),
    .took (.command "dup"), .called 0 (adapter.execute 0 "1 .").after "dup",
    .answered (.error unknown), .posted (BridgeError.engine unknown).notice]

/-- The bridge waits for a message again; once nobody sends any more, it comes to its end. -/
theorem run_journal : ∃ s t, Session.Run (.create registry settings) journal s ∧
    s.listens = true ∧ Session.Run s [] t ∧
    t.stopped = true ∧ t.outbound.receiving = true ∧ t.crash = none := by
  have run := Session.Run.start (s := .create registry settings)
  have run := run.step (.send (m := .command "1 .") rfl rfl rfl)
  have run := run.step (.take rfl rfl)
  have run := run.step (.send (m := .command "2 .") rfl rfl rfl)
  have run := run.step (.take rfl rfl)
  have run := run.step (.post rfl rfl rfl rfl)
  have run := run.step (.send (m := .control (.start none)) rfl rfl rfl)
  have run := run.step (.take rfl rfl)
  have run := run.step (.publish rfl rfl)
  have run := run.step (.request rfl rfl rfl)
  have run := run.step (k := [.loaded (.ok adapter)]) (.load rfl rfl rfl)
  have run := run.step (.publish rfl rfl)
  have run := run.step (.post rfl rfl rfl rfl)
  have run := run.step (.call rfl rfl)
  have run := run.step (k := [.answered (.ok "1 ")]) (.answer rfl rfl rfl rfl)
  have run := run.step (.post rfl rfl rfl rfl)
  have run := run.step (.send (m := .command "dup") rfl rfl rfl)
  have run := run.step (.take rfl rfl)
  have run := run.step (.call rfl rfl)
  have run := run.step (k := [.answered (.error unknown)]) (.answer rfl rfl rfl rfl)
  have run := run.step (.post rfl rfl rfl rfl)
  exact ⟨_, _, run, rfl, (Session.Run.single .close).step (.exhaust rfl rfl rfl rfl), rfl, rfl, rfl⟩

end Rehearsal

end EngineBridge
