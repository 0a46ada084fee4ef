import EngineBridge.Bridge.Host
import EngineBridge.Proofs.Pacing
import EngineBridge.Proofs.Timing
import Mathlib.Algebra.GroupWithZero.Nat
import Mathlib.Algebra.Order.BigOperators.Group.List
import Mathlib.Algebra.Order.Group.Nat

/-!
# The end of every run

Once its host sends no more, a bridge comes to its end, whatever its modules, its interpreters and
their recoveries do, and however long they would go on doing it. The steps that it takes are counted
by what it has still to do, and the time that it needs by the deadlines it works under: that of a
load and, for each command, those of a call and of a recovery.
-/

namespace EngineBridge

open Journal

/-- What each thing costs that a bridge has still to do. -/
structure Tariff where
  /-- Whatever is over at once. -/
  brief : Nat
  command : Nat
  load : Nat
  brief_le : brief ≤ command

namespace Tariff

variable {α : Type} (w : Tariff)

def effect : Effect α → Nat
  | .publish _ | .post _ => w.brief
  | .call _ _ => w.command
  | .load _ => w.load

def agenda (l : List (Effect α)) : Nat := (l.map w.effect).sum

def message : Inbound → Nat
  | .command _ => w.command
  | _ => 3 * w.brief

def messages (l : List Inbound) : Nat := (l.map w.message).sum

/-- The waiting commands, and the load that has still to be asked for. -/
def bridge (b : Bridge α) : Nat :=
  w.command * b.pending.length + match b.phase with | .uninitialized => w.load | _ => 0

def cost (b : Bridge α) (effects : List (Effect α)) : Nat := w.bridge b + w.agenda effects

@[simp] theorem agenda_nil : w.agenda ([] : List (Effect α)) = 0 := rfl

@[simp] theorem agenda_cons (e : Effect α) (l : List (Effect α)) :
    w.agenda (e :: l) = w.effect e + w.agenda l := by
  simp [agenda]

@[simp] theorem agenda_append (l k : List (Effect α)) :
    w.agenda (l ++ k) = w.agenda l + w.agenda k := by
  simp [agenda]

@[simp] theorem agenda_posts {β : Type} (l : List β) (f : β → Outbound) :
    w.agenda (l.map fun x => (.post (f x) : Effect α)) = w.brief * l.length := by
  induction l with
  | nil => rfl
  | cons x l ih =>
    simp only [List.map_cons, agenda_cons, ih, effect, List.length_cons, Nat.mul_succ]
    omega

@[simp] theorem messages_nil : w.messages [] = 0 := rfl

@[simp] theorem messages_cons (m : Inbound) (l : List Inbound) :
    w.messages (m :: l) = w.message m + w.messages l := by
  simp [messages]

variable {w} {b : Bridge α}

theorem cost_proceed (name : String) (a : α) :
    w.cost (b.proceed name a).1 (b.proceed name a).2 ≤ w.bridge b := by
  obtain ⟨settings, phase, pending⟩ := b
  cases pending with
  | nil => simp [Bridge.proceed, cost, bridge]
  | cons text rest =>
    simp only [Bridge.proceed, cost, bridge, agenda_cons, agenda_nil, effect, List.length_cons,
      Nat.mul_succ]
    omega

/-- A load that fails costs no more than the commands that wait for it. -/
theorem cost_fail (module : Option String) (e : LoadError) :
    w.cost (b.fail module e).1 (b.fail module e).2 ≤
      w.command * b.pending.length + 2 * w.brief := by
  have hposts : w.brief * b.pending.length ≤ w.command * b.pending.length :=
    Nat.mul_le_mul_right _ w.brief_le
  simp only [Bridge.fail, cost, bridge, agenda_cons, agenda_posts, effect, List.length_nil]
  omega

theorem cost_defer (text : String) :
    w.cost (b.defer text).1 (b.defer text).2 ≤ w.bridge b + w.command := by
  have hbrief := w.brief_le
  unfold Bridge.defer
  cases b.settings.pendingPolicy with
  | reject =>
    simp only [cost, agenda_cons, agenda_nil, effect]
    omega
  | queue =>
    dsimp only
    split
    · simp only [cost, agenda_cons, agenda_nil, effect]
      omega
    · simp only [cost, bridge, agenda_nil, List.length_append, List.length_cons, List.length_nil,
        Nat.mul_add]
      omega

theorem cost_start (module : Option String) :
    w.cost (b.start module).1 (b.start module).2 ≤ w.bridge b + 3 * w.brief := by
  unfold Bridge.start
  cases hp : b.phase with
  | uninitialized =>
    cases hm : module.or b.settings.defaultModule with
    | none =>
      have hfail := cost_fail (w := w) (b := b) none .noModule
      have hbridge : w.bridge b = w.command * b.pending.length + w.load := by simp [bridge, hp]
      simp only [cost, agenda_cons, effect] at hfail ⊢
      omega
    | some name =>
      simp only [cost, bridge, hp, agenda_cons, agenda_nil, effect]
      omega
  | _ => simp [cost]

/-- A message costs no more than it was priced at. -/
theorem cost_receive (m : Inbound) :
    w.cost (b.receive m).1 (b.receive m).2 ≤ w.bridge b + w.message m := by
  have hbrief := w.brief_le
  cases m with
  | malformed reason =>
    simp only [Bridge.receive, cost, agenda_cons, agenda_nil, effect, message]
    omega
  | command text =>
    unfold Bridge.receive Bridge.command
    cases hp : b.phase with
    | uninitialized | loading name => exact cost_defer text
    | ready name a =>
      simp only [cost, bridge, hp, agenda_cons, agenda_nil, effect, message]
      omega
    | running name => simp [cost]
    | failed name e =>
      simp only [cost, agenda_cons, agenda_nil, effect, message]
      omega
  | control c =>
    cases c with
    | status =>
      simp only [Bridge.receive, cost, agenda_cons, agenda_nil, effect, message]
      omega
    | start module => exact cost_start module

theorem cost_loaded (result : Except LoadError α) :
    w.cost (b.step (.loaded result)).1 (b.step (.loaded result)).2 ≤ w.bridge b + 2 * w.brief := by
  cases hp : b.phase with
  | loading name =>
    cases result with
    | ok a =>
      have hproceed := cost_proceed (w := w) (b := b) name a
      simp only [Bridge.step, hp]
      simp only [cost, agenda_cons, effect] at hproceed ⊢
      omega
    | error e =>
      have hfail := cost_fail (w := w) (b := b) (some name) e
      simp only [Bridge.step, hp]
      simp only [bridge, hp] at hfail ⊢
      omega
  | _ => simp [Bridge.step, hp, cost]

theorem cost_answered (a : α) (result : Except EngineError String) :
    w.cost (b.step (.answered a result)).1 (b.step (.answered a result)).2 ≤
      w.bridge b + w.brief := by
  cases hp : b.phase with
  | running name =>
    have hproceed := cost_proceed (w := w) (b := b) name a
    have hposts : w.brief * (Bridge.answerPosts result).length ≤ w.brief := by
      cases result with
      | error e => simp [Bridge.answerPosts]
      | ok text =>
        unfold Bridge.answerPosts
        dsimp only
        split <;> simp
    have hagenda : w.agenda ((Bridge.answerPosts result).map (.post : Outbound → Effect α)) =
        w.brief * (Bridge.answerPosts result).length := agenda_posts w _ id
    simp only [Bridge.step, hp]
    simp only [cost, agenda_append, hagenda] at hproceed ⊢
    omega
  | _ => simp [Bridge.step, hp, cost]

section Session

variable {σ : Type} {s : Session σ} {e : BridgeEvent (Adapter σ)}

def session (w : Tariff) (s : Session σ) : Nat :=
  w.messages s.inbound.items + w.cost s.bridge s.agenda

theorem session_feed {w : Tariff} (ha : s.agenda = []) :
    w.session (s.feed e) = w.messages s.inbound.items +
      w.cost (s.bridge.step e).1 (s.bridge.step e).2 := by
  simp [session, Session.feed, ha]

theorem session_rest {w : Tariff} (ha : s.agenda = []) :
    w.session s = w.messages s.inbound.items + w.bridge s.bridge := by
  simp [session, cost, ha]

end Session

end Tariff

/-- The acts of all modules that can be loaded, each with one look more and its end. -/
def Registry.rounds {σ : Type} (r : Registry σ) : Nat :=
  (r.entries.map fun x => x.module.starting.acts.length + 2).sum

theorem Registry.le_rounds {σ : Type} {r : Registry σ} {x : Registration σ} {name : String}
    (h : r.find? name = some x) : x.module.starting.acts.length + 2 ≤ r.rounds :=
  List.le_sum_of_mem (List.mem_map.2 ⟨x, List.mem_of_find?_eq_some h, rfl⟩)

/-- What is paid in steps. -/
def Registry.steps {σ : Type} (r : Registry σ) : Tariff where
  brief := 1
  command := 4
  load := 2 * r.rounds + 3
  brief_le := by decide

@[simp] theorem Registry.steps_brief {σ : Type} (r : Registry σ) : r.steps.brief = 1 := rfl

@[simp] theorem Registry.steps_command {σ : Type} (r : Registry σ) : r.steps.command = 4 := rfl

@[simp] theorem Registry.steps_load {σ : Type} (r : Registry σ) :
    r.steps.load = 2 * r.rounds + 3 := rfl

theorem Registry.steps_message_le {σ : Type} (r : Registry σ) (m : Inbound) :
    r.steps.message m ≤ 4 := by
  cases m <;> simp [Tariff.message]

/-- How many steps the work under way can take. A load that has been looked at is looked at again
only when there is something to be seen. -/
def Job.steps {σ : Type} (now : Nat) (releases : List Nat) : Job σ → Nat
  | .none => 0
  | .calling since x => 2 + if now < since + x.millis then 1 else 0
  | .loading x p deadline seen =>
    2 * p.rounds +
      if seen then 4
      else if now < deadline ∧ p.blocked now (releases.contains x.serial) = true then 5
      else 3

namespace Job

variable {σ : Type} {now deadline since : Nat} {releases : List Nat} {x : Registration σ}
  {p : Progress}

theorem steps_seen : (loading x p deadline true).steps now releases = 2 * p.rounds + 4 := by
  simp [steps]

theorem steps_unseen_le :
    (loading x p deadline false).steps now releases ≤ 2 * p.rounds + 5 := by
  simp only [steps, Bool.false_eq_true, if_false]
  split <;> omega

theorem le_steps_unseen :
    2 * p.rounds + 3 ≤ (loading x p deadline false).steps now releases := by
  simp only [steps, Bool.false_eq_true, if_false]
  split <;> omega

/-- Work that waits can only be looked at in vain. -/
theorem steps_blocked (hd : now < deadline)
    (hp : p.blocked now (releases.contains x.serial) = true) :
    (loading x p deadline false).steps now releases = 2 * p.rounds + 5 := by
  simp only [steps, Bool.false_eq_true, if_false, hd, hp, and_self, if_true]

/-- Work that need not wait, or has waited long enough, is not looked at in vain. -/
theorem steps_due (h : deadline ≤ now ∨ p.blocked now (releases.contains x.serial) = false) :
    (loading x p deadline false).steps now releases = 2 * p.rounds + 3 := by
  have hnot : ¬ (now < deadline ∧ p.blocked now (releases.contains x.serial) = true) := by
    rintro ⟨hd, hp⟩
    rcases h with h | h
    · omega
    · rw [h] at hp
      cases hp
  simp only [steps, Bool.false_eq_true, if_false, hnot]

theorem steps_calling_le {x : Execution σ} : (calling since x).steps now releases ≤ 3 := by
  simp only [steps]
  split <;> omega

theorem le_steps_calling {x : Execution σ} : 2 ≤ (calling since x).steps now releases :=
  Nat.le_add_right _ _

end Job

namespace Session

variable {σ : Type} [Interpreter σ] {settings : BridgeSettings} {registry : Registry σ}
  {s t : Session σ} {j : Journal σ}

/-- How many steps a bridge can still take. A message that interrupts a load makes the bridge look
at it once more. -/
def steps (s : Session σ) : Nat :=
  if s.stopped then 0
  else
    1 + 2 * s.inbound.items.length + s.registry.steps.session s + s.job.steps s.now s.releases

omit [Interpreter σ] in
theorem steps_eq (hs : s.stopped = false) : s.steps =
    1 + 2 * s.inbound.items.length + s.registry.steps.session s +
      s.job.steps s.now s.releases := by
  simp [steps, hs]

omit [Interpreter σ] in
private theorem steps_feed (ha : s.agenda = []) (e : BridgeEvent (Adapter σ)) :
    (s.feed e).steps ≤ 1 + 2 * s.inbound.items.length + (s.registry.steps.messages s.inbound.items +
      s.registry.steps.cost (s.bridge.step e).1 (s.bridge.step e).2) +
        s.job.steps s.now s.releases := by
  rw [← Tariff.session_feed ha]
  unfold steps
  split
  · exact Nat.zero_le _
  · exact Nat.le_refl _

/-- Each step of a bridge costs one. -/
theorem Goes.steps_lt (next : s.Goes t) (hs : s.stopped = false) : t.steps < s.steps := by
  rw [steps_eq hs]
  cases next with
  | publish ha | post ha =>
    rw [steps_eq (by exact hs)]
    simp only [Tariff.session, Tariff.cost, ha, Tariff.agenda_cons, Tariff.effect,
      Registry.steps_brief]
    omega
  | @request name x ha hx =>
    have hrounds := Registry.le_rounds hx
    have hjob : (Job.loading x (.start x.module.starting) (s.now + s.bridge.settings.loadTimeout)
        false).steps s.now s.releases = 2 * (x.module.starting.acts.length + 1) + 3 :=
      Job.steps_due (.inr rfl)
    simp only [beginLoad, hx]
    rw [steps_eq (by exact hs)]
    simp only [Tariff.session, Tariff.cost, ha, Tariff.agenda_cons, Tariff.agenda_nil,
      Tariff.effect, Registry.steps_load, hjob]
    omega
  | @refuse name ha hx =>
    have hcost := Tariff.cost_loaded (w := s.registry.steps) (b := s.bridge)
      (.error (.unknownModule name))
    refine Nat.lt_of_le_of_lt (steps_feed rfl _) ?_
    simp only [Tariff.session, Tariff.cost, ha, Tariff.agenda_cons, Tariff.agenda_nil,
      Tariff.effect, Registry.steps_load, Registry.steps_brief] at hcost ⊢
    omega
  | @call a text ha =>
    have hjob : (Job.calling s.now (a.execute s.bridge.settings.contextId text)).steps s.now
        s.releases ≤ 3 := Job.steps_calling_le
    rw [steps_eq (by exact hs)]
    simp only [Tariff.session, Tariff.cost, ha, Tariff.agenda_cons, Tariff.agenda_nil,
      Tariff.effect, Registry.steps_command, beginCall]
    omega
  | @take m rest ha hj hi =>
    have hcost := Tariff.cost_receive (w := s.registry.steps) (b := s.bridge) m
    have hm := s.registry.steps_message_le m
    refine Nat.lt_of_le_of_lt (steps_feed (by exact ha) _) ?_
    rw [Tariff.session_rest ha, hi]
    simp only [Tariff.messages_cons, List.length_cons, Bridge.step]
    omega
  | @interrupt x p deadline m rest ha hj hi =>
    have hcost := Tariff.cost_receive (w := s.registry.steps) (b := s.bridge) m
    have hm := s.registry.steps_message_le m
    have hjob : (Job.loading x p deadline false).steps s.now s.releases ≤ 2 * p.rounds + 5 :=
      Job.steps_unseen_le
    refine Nat.lt_of_le_of_lt (steps_feed (by exact ha) _) ?_
    rw [Tariff.session_rest ha, hi, hj, Job.steps_seen]
    simp only [Tariff.messages_cons, List.length_cons, Bridge.step]
    omega
  | @wait x p p' deadline releases ha hj hd hl hp =>
    have hless : 2 * p'.rounds + 4 < (Job.loading x p deadline false).steps s.now s.releases := by
      obtain ⟨rfl, hblocked⟩ | hrounds := hp
      · rw [Job.steps_blocked hd hblocked]
        omega
      · have hle : 2 * p.rounds + 3 ≤ (Job.loading x p deadline false).steps s.now s.releases :=
          Job.le_steps_unseen
        omega
    rw [steps_eq (by exact hs), hj]
    simp only [Tariff.session, Job.steps_seen]
    omega
  | @loaded x p deadline releases result ha hj hr =>
    have hcost := Tariff.cost_loaded (w := s.registry.steps) (b := s.bridge) result
    have hjob : 2 * p.rounds + 3 ≤ (Job.loading x p deadline false).steps s.now s.releases :=
      Job.le_steps_unseen
    have hnone : (Job.none : Job σ).steps s.now releases = 0 := rfl
    refine Nat.lt_of_le_of_lt (steps_feed (by exact ha) _) ?_
    rw [Registry.steps_brief] at hcost
    rw [Tariff.session_rest ha, hj]
    dsimp only
    omega
  | @answered since x result ha hj =>
    have hcost := Tariff.cost_answered (w := s.registry.steps) (b := s.bridge) x.after result
    have hjob : 2 ≤ (Job.calling since x).steps s.now s.releases := Job.le_steps_calling
    have hnone : (Job.none : Job σ).steps s.now s.releases = 0 := rfl
    refine Nat.lt_of_le_of_lt (steps_feed (by exact ha) _) ?_
    rw [Registry.steps_brief] at hcost
    rw [Tariff.session_rest ha, hj]
    dsimp only
    omega
  | @stop releases crash ha =>
    have hstopped : ({ s.stop with releases, crash } : Session σ).steps = 0 := by
      simp [steps, Session.stop]
    omega

omit [Interpreter σ] in
theorem effort_eq (s : Session σ) : s.effort =
    8 * (s.inbound.items.length + s.bridge.pending.length + s.agenda.length + 4) +
      2 * match s.job with
        | .loading _ p _ _ => p.rest.acts.length + 2
        | _ => s.registry.rounds := by
  have hrounds : s.registry.rounds =
      s.registry.entries.foldl (fun n x => n + (x.module.starting.acts.length + 2)) 0 := by
    rw [Registry.rounds, List.sum_eq_foldl, List.foldl_map]
  cases hj : s.job <;> simp only [effort, hj, hrounds]

omit [Interpreter σ] in
theorem messages_le (r : Registry σ) (l : List Inbound) : r.steps.messages l ≤ 4 * l.length := by
  induction l with
  | nil => exact Nat.le_refl _
  | cons m l ih =>
    have hm := r.steps_message_le m
    rw [Tariff.messages_cons, List.length_cons]
    omega

omit [Interpreter σ] in
theorem agenda_of_brief {w : Tariff} {l : List (Effect (Adapter σ))} (h : ∀ e ∈ l, e.Brief) :
    w.agenda l = w.brief * l.length := by
  induction l with
  | nil => rfl
  | cons e l ih =>
    have hrest := ih fun e' he => h e' (List.mem_cons_of_mem e he)
    have he := h e List.mem_cons_self
    rw [Tariff.agenda_cons, hrest, List.length_cons, Nat.mul_succ]
    cases e with
    | publish | post =>
      simp only [Tariff.effect]
      omega
    | load | call => exact he.elim

/-- The steps that a bridge is given suffice. -/
theorem Faithful.steps_le (h : Faithful settings j s) : s.steps ≤ s.effort := by
  have hmessages := messages_le s.registry s.inbound.items
  have hengaged := h.engaged
  unfold steps
  split
  · exact Nat.zero_le _
  rw [effort_eq]
  simp only [Tariff.session, Tariff.cost, Tariff.bridge, Registry.steps_command,
    Registry.steps_load]
  generalize s.job = job at hengaged ⊢
  generalize s.bridge.phase = phase at hengaged ⊢
  generalize s.agenda = agenda at hengaged ⊢
  cases hengaged with
  | free hp ha =>
    rw [agenda_of_brief ha]
    cases phase <;> simp only [Registry.steps_brief, Job.steps] <;> omega
  | @order name agenda ha =>
    rw [Tariff.agenda_append, agenda_of_brief ha]
    simp only [Tariff.agenda_cons, Tariff.agenda_nil, Tariff.effect, Registry.steps_brief,
      Registry.steps_load, Job.steps, List.length_append, List.length_cons, List.length_nil]
    omega
  | @summons name a command agenda ha =>
    rw [Tariff.agenda_append, agenda_of_brief ha]
    simp only [Tariff.agenda_cons, Tariff.agenda_nil, Tariff.effect, Registry.steps_brief,
      Registry.steps_command, Job.steps, List.length_append, List.length_cons, List.length_nil]
    omega
  | @loading x p deadline seen name agenda ha =>
    rw [agenda_of_brief ha]
    have hjob : (Job.loading x p deadline seen).steps s.now s.releases ≤ 2 * p.rounds + 5 := by
      cases seen with
      | false => exact Job.steps_unseen_le
      | true =>
        rw [Job.steps_seen]
        omega
    have hrounds : p.rounds ≤ p.rest.acts.length + 1 := by
      unfold Progress.rounds
      split <;> omega
    simp only [Registry.steps_brief]
    omega
  | @calling since name a command before hj =>
    have hjob : (Job.calling since (a.execute settings.contextId command)).steps s.now
        s.releases ≤ 3 := Job.steps_calling_le
    simp only [Tariff.agenda_nil]
    omega

end Session

/-- What is paid in time. -/
def BridgeSettings.hours (settings : BridgeSettings) : Tariff where
  brief := 0
  command := 2 * settings.execTimeout
  load := settings.loadTimeout
  brief_le := Nat.zero_le _

@[simp] theorem BridgeSettings.hours_brief (settings : BridgeSettings) :
    settings.hours.brief = 0 := rfl

@[simp] theorem BridgeSettings.hours_command (settings : BridgeSettings) :
    settings.hours.command = 2 * settings.execTimeout := rfl

@[simp] theorem BridgeSettings.hours_load (settings : BridgeSettings) :
    settings.hours.load = settings.loadTimeout := rfl

/-- How long the work under way can still take. -/
def Job.remaining {σ : Type} (now : Nat) : Job σ → Nat
  | .none => 0
  | .loading _ _ deadline _ => deadline - now
  | .calling since x => since + x.millis - now

namespace Session

variable {σ : Type} [Interpreter σ] {settings : BridgeSettings} {registry : Registry σ}
  {s t : Session σ} {j : Journal σ}

/-- How long a bridge can still take. -/
def remaining (settings : BridgeSettings) (s : Session σ) : Nat :=
  if s.stopped then 0 else settings.hours.session s + s.job.remaining s.now

omit [Interpreter σ] in
theorem remaining_eq (hs : s.stopped = false) :
    s.remaining settings = settings.hours.session s + s.job.remaining s.now := by
  simp [remaining, hs]

omit [Interpreter σ] in
private theorem remaining_feed (ha : s.agenda = []) (e : BridgeEvent (Adapter σ)) :
    (s.feed e).remaining settings ≤ settings.hours.messages s.inbound.items +
      settings.hours.cost (s.bridge.step e).1 (s.bridge.step e).2 + s.job.remaining s.now := by
  rw [← Tariff.session_feed ha]
  unfold remaining
  split
  · exact Nat.zero_le _
  · exact Nat.le_refl _

/-- No step of a bridge takes time, and none lengthens what it can still take. -/
theorem Goes.remaining_le (next : s.Goes t) (h : s.Timed settings) (hs : s.stopped = false) :
    t.now = s.now ∧ t.remaining settings ≤ s.remaining settings := by
  obtain ⟨hb, ⟨-, hcalled⟩, -⟩ := h
  rw [remaining_eq hs]
  cases next with
  | publish ha | post ha =>
    refine ⟨rfl, ?_⟩
    rw [remaining_eq (by exact hs)]
    simp only [Tariff.session, Tariff.cost, ha, Tariff.agenda_cons]
    omega
  | @request name x ha hx =>
    simp only [beginLoad, hx]
    refine ⟨trivial, ?_⟩
    rw [remaining_eq (by exact hs)]
    simp only [Tariff.session, Tariff.cost, ha, Tariff.agenda_cons, Tariff.agenda_nil,
      Tariff.effect, BridgeSettings.hours_load, Job.remaining, hb]
    omega
  | @refuse name ha hx =>
    have hcost := Tariff.cost_loaded (w := settings.hours) (b := s.bridge)
      (.error (.unknownModule name))
    refine ⟨rfl, Nat.le_trans (remaining_feed rfl _) ?_⟩
    simp only [Tariff.session, Tariff.cost, BridgeSettings.hours_brief] at hcost ⊢
    omega
  | @call a text ha =>
    have hlimit : a.execTimeout = settings.execTimeout := hcalled a text (by simp [ha])
    have hmillis := (a.execute_limit s.bridge.settings.contextId text).2
    rw [hlimit] at hmillis
    refine ⟨rfl, ?_⟩
    rw [remaining_eq (by exact hs)]
    simp only [Tariff.session, Tariff.cost, ha, Tariff.agenda_cons, Tariff.agenda_nil,
      Tariff.effect, BridgeSettings.hours_command, beginCall, Job.remaining]
    omega
  | @take m rest ha hj hi =>
    have hcost := Tariff.cost_receive (w := settings.hours) (b := s.bridge) m
    refine ⟨rfl, Nat.le_trans (remaining_feed (by exact ha) _) ?_⟩
    rw [Tariff.session_rest ha, hi]
    simp only [Tariff.messages_cons, Bridge.step]
    omega
  | @interrupt x p deadline m rest ha hj hi =>
    have hcost := Tariff.cost_receive (w := settings.hours) (b := s.bridge) m
    refine ⟨rfl, Nat.le_trans (remaining_feed (by exact ha) _) ?_⟩
    rw [Tariff.session_rest ha, hi, hj]
    simp only [Tariff.messages_cons, Bridge.step, Job.remaining]
    omega
  | wait ha hj hd hl hp =>
    refine ⟨rfl, ?_⟩
    rw [remaining_eq (by exact hs), hj]
    exact Nat.le_refl _
  | @loaded x p deadline releases result ha hj hr =>
    have hcost := Tariff.cost_loaded (w := settings.hours) (b := s.bridge) result
    rw [BridgeSettings.hours_brief] at hcost
    refine ⟨rfl, Nat.le_trans (remaining_feed (by exact ha) _) ?_⟩
    rw [Tariff.session_rest ha]
    simp only [Job.remaining]
    omega
  | @answered since x result ha hj =>
    have hcost := Tariff.cost_answered (w := settings.hours) (b := s.bridge) x.after result
    rw [BridgeSettings.hours_brief] at hcost
    refine ⟨rfl, Nat.le_trans (remaining_feed (by exact ha) _) ?_⟩
    rw [Tariff.session_rest ha]
    simp only [Job.remaining]
    omega
  | @stop releases crash ha =>
    have hstopped : ({ s.stop with releases, crash } : Session σ).remaining settings = 0 := by
      simp [remaining, Session.stop]
    exact ⟨rfl, by omega⟩

/-- How many commands have no result yet: those on their way, those that wait, and the one that is
called. -/
def unfinished (s : Session σ) : Nat :=
  (s.inbound.items.filterMap Inbound.command?).length + s.bridge.pending.length +
    (s.agenda.filterMap Effect.engine?).length +
      match s.job with
      | .calling _ _ => 1
      | _ => 0

omit [Interpreter σ] in
theorem hours_messages (settings : BridgeSettings) (l : List Inbound) :
    settings.hours.messages l =
      2 * settings.execTimeout * (l.filterMap Inbound.command?).length := by
  induction l with
  | nil => rfl
  | cons m l ih =>
    rw [Tariff.messages_cons, ih]
    cases m <;>
      simp [Tariff.message, Inbound.command?, List.filterMap_cons, Nat.mul_add, Nat.add_comm]

/-- What a bridge can still take is what its deadlines give for what it has to do. -/
theorem Faithful.remaining_le (h : Faithful settings j s) (ht : s.Timed settings) :
    s.remaining settings ≤ settings.loadTimeout + 2 * settings.execTimeout * s.unfinished := by
  have hengaged := h.engaged
  have hjob := ht.inTime
  unfold remaining
  split
  · exact Nat.zero_le _
  simp only [Tariff.session, Tariff.cost, Tariff.bridge, hours_messages, unfinished, Nat.mul_add,
    BridgeSettings.hours_command, BridgeSettings.hours_load]
  have brief {l : List (Effect (Adapter σ))} (hl : ∀ e ∈ l, e.Brief) :
      settings.hours.agenda l = 0 := by
    rw [agenda_of_brief hl, BridgeSettings.hours_brief, Nat.zero_mul]
  generalize s.job = job at hengaged hjob ⊢
  generalize s.bridge.phase = phase at hengaged ⊢
  generalize s.agenda = agenda at hengaged ⊢
  cases hengaged with
  | free hp ha =>
    rw [brief ha]
    cases phase <;> simp only [Job.remaining] <;> omega
  | @order name agenda ha =>
    rw [Tariff.agenda_append, brief ha]
    simp only [Tariff.agenda_cons, Tariff.agenda_nil, Tariff.effect, BridgeSettings.hours_load,
      Job.remaining]
    omega
  | @summons name a command agenda ha =>
    rw [Tariff.agenda_append, brief ha]
    simp only [Tariff.agenda_cons, Tariff.agenda_nil, Tariff.effect, BridgeSettings.hours_command,
      Job.remaining, List.filterMap_append, List.filterMap_cons, List.filterMap_nil, Effect.engine?,
      List.length_append, List.length_cons, List.length_nil, Nat.mul_add]
    omega
  | @loading x p deadline seen name agenda ha =>
    have hdeadline : deadline ≤ s.now + settings.loadTimeout := hjob
    rw [brief ha]
    simp only [Job.remaining]
    omega
  | @calling since name a command before hj =>
    obtain ⟨-, hsince, hmillis⟩ := hjob
    simp only [Tariff.agenda_nil, Job.remaining]
    omega

/-- The host sends no more, and the bridge has its turn. -/
def shut (s : Session σ) : Session σ :=
  ({ s with inbound := s.inbound.closeSender } : Session σ).wake

/-- What can happen once the host sends no more: the bridge goes on, the host takes a message, or a
load that has let others run is looked at again. When all of them wait, the clock shows the time of
the next timer. -/
inductive Unwinds (s : Session σ) : List Outbound → Session σ → Prop
  | go {u} (h : s.advance = some u) : Unwinds s [] u
  | collect {m rest} (h : s.outbound.take? = some (m, rest)) :
      Unwinds s [m] { s with outbound := rest }
  | turn (h : s.yields = true) : Unwinds s [] s.wake
  | tick {now} (hn : s.advance = none) (hy : s.yields = false) (ho : s.outbound.items = [])
      (ht : s.timer = some now) : Unwinds s [] ({ s with now } : Session σ).wake

/-- The steps from one session to another, their number, and what the host takes meanwhile. -/
inductive Unwinding (s : Session σ) : Nat → List Outbound → Session σ → Prop
  | start : Unwinding s 0 [] s
  | step {n l k t u} (run : Unwinding s n l t) (next : Unwinds t k u) :
      Unwinding s (n + 1) (l ++ k) u

theorem Unwinding.trans {n m : Nat} {l k : List Outbound} {u : Session σ}
    (first : Unwinding s n l t) (second : Unwinding t m k u) :
    Unwinding s (n + m) (l ++ k) u := by
  induction second with
  | start => simpa using first
  | step _ next ih => simpa only [List.append_assoc, Nat.add_assoc] using ih.step next

/-- What holds once the host sends no more and as long as it is there. A load that has been looked
at waits for what is still to come. -/
structure Closing (registry : Registry σ) (settings : BridgeSettings) (s : Session σ) : Prop where
  attended : s.Attended registry settings
  closed : s.inbound.sending = false
  awake : ∀ x p deadline, s.job = .loading x p deadline true → s.now < deadline ∧ p.Later s.now

omit [Interpreter σ] in
theorem wake_frame (s : Session σ) : s.wake.stopped = s.stopped ∧ s.wake.now = s.now ∧
    s.wake.inbound = s.inbound ∧ s.wake.outbound = s.outbound ∧ s.wake.bridge = s.bridge ∧
    s.wake.agenda = s.agenda := by
  unfold wake
  split <;> exact ⟨rfl, rfl, rfl, rfl, rfl, rfl⟩

omit [Interpreter σ] in
/-- A bridge that has its turn has not looked at its load yet. -/
theorem awake_wake (s : Session σ) {x : Registration σ} {p : Progress} {deadline : Nat} :
    s.wake.job ≠ .loading x p deadline true := by
  unfold wake
  split
  · simp
  next hj =>
    intro hloading
    exact hj x p deadline true hloading

theorem Course.closing (h : Course registry settings s) : s.shut.Closing registry settings := by
  obtain ⟨⟨⟨j, run⟩, htimed, hlistened, hroom⟩, -⟩ := h.attended
  have hclosed : ({ s with inbound := s.inbound.closeSender } : Session σ).Attended
      registry settings :=
    ⟨⟨_, run.step .close⟩, ⟨htimed.1, htimed.2, htimed.3⟩, hlistened, hroom⟩
  refine ⟨hclosed.wake, ?_, fun x p deadline hj => absurd hj (awake_wake _)⟩
  rw [shut, (wake_frame _).2.2.1]
  rfl

theorem Goes.awake (next : s.Goes t)
    (h : ∀ x p deadline, s.job = .loading x p deadline true → s.now < deadline ∧ p.Later s.now) :
    ∀ x p deadline, t.job = .loading x p deadline true → t.now < deadline ∧ p.Later t.now := by
  cases next with
  | publish | post | refuse | stop => exact h
  | request ha hx =>
    simp only [beginLoad, hx]
    rintro _ _ _ ⟨⟩
  | call => rintro _ _ _ ⟨⟩
  | take ha hj hi => exact h
  | interrupt => rintro _ _ _ ⟨⟩
  | wait ha hj hd hl hp =>
    rintro _ _ _ ⟨⟩
    exact ⟨hd, hl⟩
  | loaded => rintro _ _ _ ⟨⟩
  | answered => rintro _ _ _ ⟨⟩

/-- The timer of a bridge that waits has not gone off. -/
theorem Closing.timer (h : s.Closing registry settings) (hn : s.advance = none)
    (ho : s.outbound.items = []) {now : Nat} (ht : s.timer = some now) :
    s.stopped = false ∧ s.now ≤ now ∧
      ((∃ x p deadline, s.job = .loading x p deadline true ∧ now ≤ deadline ∧
          (now = deadline ∨ p.wakes = some now)) ∨
        ∃ since x, s.job = .calling since x ∧ now = since + x.millis ∧ s.now < now) := by
  have hroom : s.outbound.hasRoom = true := by
    simpa [Channel.hasRoom, ho] using h.attended.room
  unfold Session.timer at ht
  split at ht
  · cases ht
  next hidle =>
    obtain ⟨hs, -⟩ : s.stopped = false ∧ s.agenda = [] := by simpa using hidle
    refine ⟨hs, ?_⟩
    obtain ⟨ha, ⟨hj, -⟩ | ⟨x, p, deadline, hj, -⟩ | ⟨since, x, hj⟩⟩ :=
      advance_eq_none hs h.attended.listened hroom hn
    · simp [hj] at ht
    · obtain ⟨hdeadline, hlater⟩ := h.awake x p deadline hj
      simp only [hj, Option.some.injEq] at ht
      cases hw : p.wakes with
      | none =>
        rw [hw] at ht
        subst ht
        exact ⟨Nat.le_of_lt hdeadline, .inl ⟨x, p, _, hj, Nat.le_refl _, .inl rfl⟩⟩
      | some t =>
        have hlt := hlater t hw
        rw [hw] at ht
        subst ht
        dsimp only
        refine ⟨by omega, .inl ⟨x, p, deadline, hj, Nat.min_le_right _ _, ?_⟩⟩
        by_cases hle : deadline ≤ t
        · exact .inl (Nat.min_eq_right hle)
        · exact .inr (hw.trans (by rw [Nat.min_eq_left (Nat.le_of_not_le hle)]))
    · simp only [hj, Option.some.injEq] at ht
      have hnotdue : ¬ since + x.millis ≤ s.now := by
        intro hdue
        simp [advance, hs, ha, hj, hdue] at hn
      exact ⟨by omega, .inr ⟨since, x, hj, ht.symm, by omega⟩⟩

theorem Closing.step {l : List Outbound} (h : s.Closing registry settings)
    (next : s.Unwinds l t) : t.Closing registry settings := by
  obtain ⟨hattended, hclosed, hawake⟩ := h
  obtain ⟨j, run⟩ := hattended.run
  cases next with
  | go ha =>
    exact ⟨hattended.go ha, (advance_keeps ha).sending_eq.trans hclosed,
      (run.faithful.goes hattended.listened ha).awake hawake⟩
  | collect hm => exact ⟨hattended.collect hm, hclosed, hawake⟩
  | turn hy =>
    refine ⟨hattended.wake, ?_, fun x p deadline hj => absurd hj (awake_wake _)⟩
    rw [(wake_frame s).2.2.1, hclosed]
  | @tick now hn hy ho ht =>
    have hle := (Closing.timer ⟨hattended, hclosed, hawake⟩ hn ho ht).2.1
    have helapsed : ({ s with now } : Session σ).Attended registry settings :=
      hattended.elapse hle s.registry s.releases
    refine ⟨helapsed.wake, ?_, fun x p deadline hj => absurd hj (awake_wake _)⟩
    rw [(wake_frame _).2.2.1]
    exact hclosed

omit [Interpreter σ] in
private theorem wake_loading {x : Registration σ} {p : Progress} {deadline : Nat}
    (hj : s.job = .loading x p deadline true) (now : Nat) :
    ({ s with now } : Session σ).wake = { s with now, job := .loading x p deadline false } := by
  simp [wake, hj]

omit [Interpreter σ] in
private theorem steps_loading {x : Registration σ} {p : Progress} {deadline now : Nat}
    (hs : s.stopped = false) (hj : s.job = .loading x p deadline true)
    (hdue : deadline ≤ now ∨ p.blocked now (s.releases.contains x.serial) = false) :
    ({ s with now } : Session σ).wake.steps < s.steps := by
  have hjob := Job.steps_due hdue
  rw [wake_loading hj, steps_eq hs, steps_eq (by exact hs), hj, Job.steps_seen]
  simp only [Tariff.session]
  omega

omit [Interpreter σ] in
theorem loading_of_yields (h : s.yields = true) : s.stopped = false ∧
    ∃ x p deadline, s.job = .loading x p deadline true ∧ p.wait = .turn := by
  unfold yields at h
  rw [Bool.and_eq_true] at h
  obtain ⟨hs, hjob⟩ := h
  refine ⟨by simpa using hs, ?_⟩
  cases hj : s.job with
  | none => simp [hj] at hjob
  | calling since x => simp [hj] at hjob
  | loading x p deadline seen =>
    obtain ⟨rfl, hturn⟩ : seen = true ∧ p.wait = .turn := by simpa [hj] using hjob
    exact ⟨x, p, deadline, rfl, hturn⟩

omit [Interpreter σ] in
private theorem remaining_wake (s : Session σ) :
    s.wake.remaining settings = s.remaining settings := by
  unfold wake
  split
  next hj =>
    unfold remaining
    rw [hj]
    rfl
  · rfl

theorem Goes.items_le (next : s.Goes t) :
    t.outbound.items.length ≤ s.outbound.items.length + 1 := by
  cases next with
  | post ha => simp [Channel.push]
  | request ha hx =>
    simp only [beginLoad, hx]
    exact Nat.le_succ _
  | _ => exact Nat.le_succ _

omit [Interpreter σ] in
/-- When the timer of a load or of a call goes off, there is something to be seen. -/
theorem steps_alarm {now : Nat} (hs : s.stopped = false)
    (hjob : (∃ x p deadline, s.job = .loading x p deadline true ∧
        (now = deadline ∨ p.wakes = some now)) ∨
      ∃ since x, s.job = .calling since x ∧ now = since + x.millis ∧ s.now < now) :
    ({ s with now } : Session σ).wake.steps < s.steps := by
  obtain ⟨x, p, deadline, hj, hdue⟩ | ⟨since, x, hj, hend, hlt⟩ := hjob
  · refine steps_loading hs hj (hdue.imp (fun heq => Nat.le_of_eq heq.symm) ?_)
    intro hwakes
    unfold Progress.wakes at hwakes
    unfold Progress.blocked
    cases hw : p.wait <;> simp_all
  · have hwake : ({ s with now } : Session σ).wake = { s with now } := by simp [wake, hj]
    have hbefore : s.job.steps s.now s.releases = 3 := by
      have hwaits : s.now < since + x.millis := hend ▸ hlt
      simp [Job.steps, hj, hwaits]
    have hafter : s.job.steps now s.releases = 2 := by simp [Job.steps, hj, hend]
    rw [hwake, steps_eq hs, steps_eq (by exact hs), hbefore]
    simp only [Tariff.session, hafter]
    omega

theorem steps_tick {now : Nat} (h : s.Closing registry settings) (hn : s.advance = none)
    (ho : s.outbound.items = []) (ht : s.timer = some now) :
    ({ s with now } : Session σ).wake.steps < s.steps := by
  obtain ⟨hs, -, hjob⟩ := h.timer hn ho ht
  refine steps_alarm hs (hjob.imp_left ?_)
  rintro ⟨x, p, deadline, hj, -, hdue⟩
  exact ⟨x, p, deadline, hj, hdue⟩

omit [Interpreter σ] in
theorem steps_turn (h : s.yields = true) : s.wake.steps < s.steps := by
  obtain ⟨hs, x, p, deadline, hj, hturn⟩ := loading_of_yields h
  have hfree (now : Nat) (released : Bool) : p.blocked now released = false := by
    simp [Progress.blocked, hturn]
  have hless : ({ s with now := s.now } : Session σ).wake.steps < s.steps :=
    steps_loading hs hj (.inr (hfree s.now _))
  exact hless

theorem remaining_tick {now : Nat} (h : s.Closing registry settings) (hn : s.advance = none)
    (ho : s.outbound.items = []) (ht : s.timer = some now) :
    now + ({ s with now } : Session σ).remaining settings ≤ s.now + s.remaining settings := by
  obtain ⟨hs, hle, hjob⟩ := h.timer hn ho ht
  rw [remaining_eq hs, remaining_eq (by exact hs)]
  obtain ⟨x, p, deadline, hj, hdeadline, -⟩ | ⟨since, x, hj, hend, -⟩ := hjob
  · simp only [Tariff.session, hj, Job.remaining]
    omega
  · simp only [Tariff.session, hj, Job.remaining]
    omega

/-- What one step spends of the steps and the time that are left, and what the host is told. A
message that is posted has still to be taken, so that a step of the bridge counts twice. -/
structure Spends (settings : BridgeSettings) (s : Session σ) (l : List Outbound)
    (t : Session σ) : Prop where
  steps_lt : 2 * t.steps + t.outbound.items.length < 2 * s.steps + s.outbound.items.length
  time_le : t.now + t.remaining settings ≤ s.now + s.remaining settings
  told : ∃ j, Run s j t ∧ l ++ t.outbound.items = s.outbound.items ++ posted j

theorem Closing.spends {l : List Outbound} (h : s.Closing registry settings)
    (next : s.Unwinds l t) : Spends settings s l t := by
  obtain ⟨j, run⟩ := h.attended.run
  cases next with
  | go ha =>
    have hgoes := run.faithful.goes h.attended.listened ha
    have hs : s.stopped = false := (advance_move ha).1
    have hsteps := hgoes.steps_lt hs
    have hitems := hgoes.items_le
    obtain ⟨hnow, hremaining⟩ := hgoes.remaining_le h.attended.timed hs
    obtain ⟨k, halone⟩ := advance_alone ha
    exact ⟨by omega, by omega, k, halone.run, by simpa using halone.items_eq⟩
  | @collect m rest hm =>
    have hcollect : Run s [] { s with outbound := rest } := .single (.collect hm)
    obtain ⟨items, hitems, rfl⟩ := Channel.take?_eq_some hm
    refine ⟨?_, Nat.le_refl _, [], hcollect, by simp [hitems]⟩
    rw [hitems, List.length_cons]
    exact Nat.lt_succ_self _
  | turn hy =>
    have hsteps := steps_turn hy
    obtain ⟨-, hnow, -, hout, -⟩ := wake_frame s
    refine ⟨by rw [hout]; omega, ?_, [], run_wake s, by simp [hout]⟩
    rw [hnow, remaining_wake]
  | @tick now hn hy ho ht =>
    have hsteps := steps_tick h hn ho ht
    have htime := remaining_tick h hn ho ht
    obtain ⟨-, hnow, -, hout, -⟩ := wake_frame { s with now }
    have helapse : Run s [] { s with now } := .single .elapse
    refine ⟨by rw [hout]; dsimp only; omega, ?_, [], helapse.trans (run_wake _), by simp [hout]⟩
    rw [hnow, remaining_wake]
    exact htime

/-- What has come of an unwinding so far. -/
structure Unwound (registry : Registry σ) (settings : BridgeSettings) (s : Session σ) (n : Nat)
    (l : List Outbound) (t : Session σ) : Prop where
  closing : t.Closing registry settings
  steps_le : n + (2 * t.steps + t.outbound.items.length) ≤
    2 * s.steps + s.outbound.items.length
  time_le : t.now + t.remaining settings ≤ s.now + s.remaining settings
  told : ∃ j, Run s j t ∧ l ++ t.outbound.items = s.outbound.items ++ posted j

theorem Unwinding.unwound {n : Nat} {l : List Outbound} (h : s.Closing registry settings)
    (run : Unwinding s n l t) : Unwound registry settings s n l t := by
  induction run with
  | start => exact ⟨h, Nat.le_of_eq (Nat.zero_add _), Nat.le_refl _, [], .start, by simp⟩
  | @step n l k t u run next ih =>
    obtain ⟨hclosing, hsteps, htime, j, hrun, htold⟩ := ih
    obtain ⟨hless, hlater, j', hrun', htold'⟩ := hclosing.spends next
    refine ⟨hclosing.step next, by omega, by omega, j ++ j', hrun.trans hrun', ?_⟩
    calc l ++ k ++ u.outbound.items
      _ = l ++ t.outbound.items ++ posted j' := by
        rw [List.append_assoc, htold', List.append_assoc]
      _ = s.outbound.items ++ posted (j ++ j') := by
        rw [htold, List.append_assoc, posted_append]

/-- Whoever has not come to the end goes on. -/
theorem Closing.unwinds (h : s.Closing registry settings)
    (hs : s.stopped = false ∨ s.outbound.items ≠ []) : ∃ l t, s.Unwinds l t := by
  cases ho : s.outbound.items with
  | cons m rest => exact ⟨_, _, .collect (Channel.take?_of_items ho)⟩
  | nil =>
    have hs : s.stopped = false := by simpa [ho] using hs
    have hroom : s.outbound.hasRoom = true := by
      simpa [Channel.hasRoom, ho] using h.attended.room
    cases hn : s.advance with
    | some t => exact ⟨_, _, .go hn⟩
    | none =>
      cases hy : s.yields with
      | true => exact ⟨_, _, .turn hy⟩
      | false =>
        obtain ⟨ha, ⟨-, -, hsending⟩ | ⟨x, p, deadline, hj, -⟩ | ⟨since, x, hj⟩⟩ :=
          advance_eq_none hs h.attended.listened hroom hn
        · rw [h.closed] at hsending
          cases hsending
        · have htimer : s.timer.isSome = true := by simp [Session.timer, hs, ha, hj]
          obtain ⟨now, ht⟩ := Option.isSome_iff_exists.1 htimer
          exact ⟨_, _, .tick hn hy ho ht⟩
        · have htimer : s.timer.isSome = true := by simp [Session.timer, hs, ha, hj]
          obtain ⟨now, ht⟩ := Option.isSome_iff_exists.1 htimer
          exact ⟨_, _, .tick hn hy ho ht⟩

/-- The host takes all that has been posted. -/
theorem unwinding_collect (s : Session σ) :
    Unwinding s s.outbound.items.length s.outbound.items
      { s with outbound := { s.outbound with items := [] } } := by
  generalize hitems : s.outbound.items = items
  induction items generalizing s with
  | nil =>
    have hsame : ({ s with outbound := { s.outbound with items := [] } } : Session σ) = s := by
      rw [← hitems]
    rw [hsame]
    exact .start
  | cons m rest ih =>
    have first : Unwinding s 1 [m] { s with outbound := { s.outbound with items := rest } } :=
      .step .start (.collect (Channel.take?_of_items hitems))
    rw [List.length_cons, Nat.add_comm]
    exact first.trans (ih { s with outbound := { s.outbound with items := rest } } rfl)

/-- What a host does with one of its steps, as long as the bridge has not ended. -/
theorem Closing.round (h : s.Closing registry settings) (ho : s.outbound.items = [])
    (hs : s.stopped = false) :
    ∃ n l t, Unwinding s n l t ∧ t.outbound.items = [] ∧ t.steps < s.steps ∧
      ∀ fuel received, Host.runFor none (fuel + 1) ⟨s, received⟩ =
        Host.runFor none fuel ⟨t, received ++ l⟩ := by
  obtain ⟨j, run⟩ := h.attended.run
  cases hn : s.advance with
  | some u =>
    have hless := (run.faithful.goes h.attended.listened hn).steps_lt hs
    refine ⟨_, _, _, (Unwinding.step .start (.go hn)).trans (unwinding_collect u), rfl, hless, ?_⟩
    intro fuel received
    simp [Host.runFor, hn, Host.collect]
  | none =>
    cases hy : s.yields with
    | true =>
      have hempty : s.wake.outbound.items = [] := by rw [(wake_frame s).2.2.2.1, ho]
      refine ⟨_, _, _, .step .start (.turn hy), hempty, steps_turn hy, ?_⟩
      intro fuel received
      simp [Host.runFor, hn, hy]
    | false =>
      obtain ⟨l, t, next⟩ := h.unwinds (.inl hs)
      cases next with
      | go ha => simp [hn] at ha
      | collect hm =>
        obtain ⟨rest, hitems, -⟩ := Channel.take?_eq_some hm
        simp [ho] at hitems
      | turn hy' => simp [hy] at hy'
      | @tick now _ _ _ ht =>
        have hempty : ({ s with now } : Session σ).wake.outbound.items = [] := by
          rw [(wake_frame _).2.2.2.1]
          exact ho
        refine ⟨_, _, _, .step .start (.tick hn hy ho ht), hempty, steps_tick h hn ho ht, ?_⟩
        intro fuel received
        simp [Host.runFor, hn, hy, ht]

theorem runFor_stopped (hs : s.stopped = true) (fuel : Nat) (received : List Outbound) :
    Host.runFor none fuel ⟨s, received⟩ = ⟨s, received⟩ := by
  cases fuel with
  | zero => rfl
  | succ fuel => simp [Host.runFor, advance, yields, Session.timer, hs]

/-- A host that has steps enough lets the bridge come to its end. -/
theorem Closing.runFor (h : s.Closing registry settings) (ho : s.outbound.items = [])
    (received : List Outbound) {fuel : Nat} (hfuel : s.steps ≤ fuel) :
    ∃ n l t, Unwinding s n l t ∧ t.stopped = true ∧ t.outbound.items = [] ∧
      Host.runFor none fuel ⟨s, received⟩ = ⟨t, received ++ l⟩ := by
  induction fuel generalizing s received with
  | zero =>
    have hs : s.stopped = true := by
      by_contra hrunning
      have hsteps := steps_eq (s := s) (by simpa using hrunning)
      omega
    exact ⟨0, [], s, .start, hs, ho, by simp [Host.runFor]⟩
  | succ fuel ih =>
    cases hs : s.stopped with
    | true => exact ⟨0, [], s, .start, hs, ho, by simp [runFor_stopped hs]⟩
    | false =>
      obtain ⟨n, l, t, first, hempty, hless, hround⟩ := h.round ho hs
      have hclosing := (first.unwound h).closing
      obtain ⟨m, k, u, rest, hu, huo, hrun⟩ := ih hclosing hempty (received ++ l) (by omega)
      exact ⟨_, _, u, first.trans rest, hu, huo, by rw [hround, hrun, List.append_assoc]⟩

omit [Interpreter σ] in
theorem shut_frame (s : Session σ) : s.shut.now = s.now ∧ s.shut.outbound = s.outbound ∧
    s.shut.effort = s.effort ∧ s.shut.unfinished = s.unfinished := by
  obtain ⟨-, hnow, -, hout, -⟩ := wake_frame { s with inbound := s.inbound.closeSender }
  refine ⟨hnow, hout, ?_, ?_⟩
  · unfold shut wake
    split
    next hj =>
      dsimp only at hj
      simp [effort, hj, Channel.closeSender]
    · rfl
  · unfold shut wake
    split
    next hj =>
      dsimp only at hj
      simp [unfinished, hj, Channel.closeSender]
    · rfl

/-- How a run ends whose host sends no more and takes what comes: after finitely many steps of
whatever order, within the time of one load and of two calls for each command that has no result
yet, and with all that the host has not taken before, in the order in which it was posted. -/
structure Ends (settings : BridgeSettings) (s : Session σ) : Prop where
  finite : ∀ n l t, Unwinding s.shut n l t → n ≤ 2 * s.effort + s.outbound.items.length
  goes_on : ∀ n l t, Unwinding s.shut n l t → t.stopped = false ∨ t.outbound.items ≠ [] →
    ∃ k u, Unwinds t k u
  in_time : ∀ n l t, Unwinding s.shut n l t →
    t.now ≤ s.now + (settings.loadTimeout + 2 * settings.execTimeout * s.unfinished)
  in_order : ∀ n l t, Unwinding s.shut n l t →
    ∃ j, Run s.shut j t ∧ l ++ t.outbound.items = s.outbound.items ++ posted j
  /-- What a host does that asks for the end. -/
  shutdown : s.outbound.items = [] → ∀ received, ∃ n l t, Unwinding s.shut n l t ∧
    t.stopped = true ∧ t.outbound.items = [] ∧
    (Host.mk s received).shutdown = ⟨t, received ++ l⟩

theorem ends_of_course (h : Course registry settings s) : s.Ends settings := by
  have hclosing := h.closing
  obtain ⟨j, run⟩ := hclosing.attended.run
  obtain ⟨hnow, hout, heffort, hunfinished⟩ := shut_frame s
  have hsteps := run.faithful.steps_le
  have hremaining := run.faithful.remaining_le hclosing.attended.timed
  rw [heffort] at hsteps
  rw [hunfinished] at hremaining
  refine ⟨?_, ?_, ?_, ?_, ?_⟩
  · intro n l t unwinding
    have hle := (unwinding.unwound hclosing).steps_le
    rw [hout] at hle
    omega
  · intro n l t unwinding hmore
    exact (unwinding.unwound hclosing).closing.unwinds hmore
  · intro n l t unwinding
    have hle := (unwinding.unwound hclosing).time_le
    rw [hnow] at hle
    omega
  · intro n l t unwinding
    obtain ⟨k, hrun, htold⟩ := (unwinding.unwound hclosing).told
    exact ⟨k, hrun, by rw [htold, hout]⟩
  · intro ho received
    exact hclosing.runFor (by rw [hout, ho]) received hsteps

end Session

namespace Rehearsal

/-- A module whose start never ends. -/
def hanging : Registry Scripted := Registry.empty.register ⟨"forth", "", ⟨[], .hang⟩, engine⟩

/-- The load hangs, and a command waits for it. -/
theorem course_hanging : ∃ s, Session.Course hanging settings s ∧ s.unfinished = 1 ∧
    s.yields = false ∧ s.timer = some settings.loadTimeout := by
  have course : Session.Course hanging settings (.create hanging settings) := .create
  have course := course.send (m := .command "1 .") rfl rfl
  have course := course.go rfl
  have course := course.send (m := .control (.start none)) rfl rfl
  have course := course.go rfl
  have course := course.go rfl
  have course := course.go rfl
  have course := course.go rfl
  exact ⟨_, course, rfl, rfl, rfl⟩

end Rehearsal

theorem ends_rehearsal : ∃ s, Session.Course Rehearsal.hanging Rehearsal.settings s ∧
    s.unfinished = 1 ∧ s.timer = some Rehearsal.settings.loadTimeout ∧
    s.Ends Rehearsal.settings := by
  obtain ⟨s, course, hunfinished, -, htimer⟩ := Rehearsal.course_hanging
  exact ⟨s, course, hunfinished, htimer, Session.ends_of_course course⟩

end EngineBridge
