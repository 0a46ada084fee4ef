import EngineBridge.Proofs.Order

/-!
# The ledger of a run

Each message that a bridge has taken has its fate, which hangs on what came before it and on how the
load has ended. What the bridge has posted is what the ledger of these fates says, neither more nor
less.
-/

namespace EngineBridge

open Journal
open scoped List

variable {σ : Type}

/-- What becomes of a message. -/
inductive Fate where
  | silent
  | told (m : Outbound)
  /-- The request to load that counts. It is answered when the load has ended. -/
  | loads
  /-- A command that waits for the end of the load. -/
  | waits (text : String)
  | executed (text : String)

namespace Fate

@[simp] def told? : Fate → Option Outbound
  | .told m => some m
  | _ => none

@[simp] def loads? : Fate → Option Unit
  | .loads => some ()
  | _ => none

@[simp] def waits? : Fate → Option String
  | .waits text => some text
  | _ => none

@[simp] def executed? : Fate → Option String
  | .executed text => some text
  | _ => none

/-- What becomes of it once the load has ended in this way, if it has. -/
def resolve {α : Type} : Option (Except LoadError α) → Fate → Fate
  | some (.ok _), .loads => .told (.notice .ready)
  | some (.ok _), .waits text => .executed text
  | some (.error e), .loads => .told (.notice (.error .load e.message))
  | some (.error e), .waits _ => .told (.notice (.error .load e.message))
  | _, fate => fate

@[simp] theorem resolve_silent {α : Type} (o : Option (Except LoadError α)) :
    Fate.silent.resolve o = .silent := by
  rcases o with - | e | a <;> rfl

@[simp] theorem resolve_told {α : Type} (o : Option (Except LoadError α)) (m : Outbound) :
    (Fate.told m).resolve o = .told m := by
  rcases o with - | e | a <;> rfl

end Fate

namespace Journal

/-- What a host hears that asks after these entries how far the bridge has come. -/
def standing (settings : BridgeSettings) (past : Journal σ) : Outbound :=
  let waiting := (settings.kept (commands past)).length
  match asked past, outcome settings past with
  | none, _ => .notice (.status .uninitialized none waiting)
  | some module, none => .notice (.status .loading (module.or settings.defaultModule) waiting)
  | some module, some (.ok _) => .notice (.status .ready (module.or settings.defaultModule) 0)
  | some module, some (.error _) => .notice (.status .failed (module.or settings.defaultModule) 0)

/-- What is to become of a message that is taken after these entries. -/
def fate (settings : BridgeSettings) (past : Journal σ) : Inbound → Fate
  | .malformed reason =>
    .told (.notice (.error .malformed (BridgeError.malformed reason).message))
  | .control .status => .told (standing settings past)
  | .control (.start _) => if (asked past).isSome then .silent else .loads
  | .command text =>
    match outcome settings past with
    | some (.ok _) => .executed text
    | some (.error e) => .told (.notice (.error .load e.message))
    | none =>
      match settings.pendingPolicy with
      | .reject => .told (.notice (.error .notReady EngineError.notReady.message))
      | .queue =>
        if (commands past).length < settings.maxPending then .waits text
        else
          .told (.notice (.error .queueFull (BridgeError.queueFull settings.maxPending).message))

end Journal

/-- Where a message is about an error, it gives the text of that error in full. -/
def Outbound.Spelled (m : Outbound) : Prop :=
  ∀ kind detail, m = .notice (.error kind detail) →
    ∃ e : BridgeError, e.kind = kind ∧ e.message = detail

theorem spelled_notice (e : BridgeError) : e.notice.Spelled := by
  intro kind detail h
  injection h with h
  injection h with hkind hmessage
  exact ⟨e, hkind, hmessage⟩

/-- Messages in the order in which they were taken, each with its fate. -/
abbrev Ledger := List (Inbound × Fate)

namespace Ledger

def told (l : Ledger) : List Outbound := l.filterMap (·.2.told?)

def loads (l : Ledger) : Nat := (l.filterMap (·.2.loads?)).length

def waiting (l : Ledger) : List String := l.filterMap (·.2.waits?)

def executed (l : Ledger) : List String := l.filterMap (·.2.executed?)

def resolve {α : Type} (o : Option (Except LoadError α)) (l : Ledger) : Ledger :=
  l.map fun x => (x.1, x.2.resolve o)

/-- The messages, each with all that is said to the host about it, where these are the results of
the executed commands in their order. -/
def settle : Ledger → List (Except EngineError String) → List (Inbound × List Outbound)
  | [], _ => []
  | (m, .executed _) :: rest, result :: results => (m, report result) :: settle rest results
  | (m, fate) :: rest, results => (m, fate.told?.toList) :: settle rest results

end Ledger

namespace Journal

/-- The fates of the messages of a journal, with `past` in front of them all. -/
def fates (settings : BridgeSettings) : Journal σ → Journal σ → Ledger
  | _, [] => []
  | past, x :: rest =>
    (x.took?.map fun m => (m, fate settings past m)).toList ++ fates settings (past ++ [x]) rest

def ledger (settings : BridgeSettings) (j : Journal σ) : Ledger :=
  (fates settings [] j).resolve (outcome settings j)

end Journal

namespace Ledger

variable {l k : Ledger} {α : Type}

@[simp] theorem told_append : told (l ++ k) = told l ++ told k := List.filterMap_append

@[simp] theorem loads_append : loads (l ++ k) = loads l + loads k := by
  simp only [loads, List.filterMap_append, List.length_append]

@[simp] theorem waiting_append : waiting (l ++ k) = waiting l ++ waiting k := List.filterMap_append

@[simp] theorem executed_append : executed (l ++ k) = executed l ++ executed k :=
  List.filterMap_append

@[simp] theorem told_single (m : Inbound) (f : Fate) : told [(m, f)] = f.told?.toList := by
  cases f <;> rfl

@[simp] theorem loads_single (m : Inbound) (f : Fate) :
    loads [(m, f)] = f.loads?.toList.length := by
  cases f <;> rfl

@[simp] theorem waiting_single (m : Inbound) (f : Fate) : waiting [(m, f)] = f.waits?.toList := by
  cases f <;> rfl

@[simp] theorem executed_single (m : Inbound) (f : Fate) :
    executed [(m, f)] = f.executed?.toList := by
  cases f <;> rfl

/-- A load that goes on decides nothing. -/
@[simp] theorem resolve_none : resolve (none : Option (Except LoadError α)) l = l := by
  have hfate (f : Fate) : f.resolve (none : Option (Except LoadError α)) = f := by
    cases f <;> rfl
  simp only [resolve, hfate, List.map_id']

theorem resolve_append {o : Option (Except LoadError α)} :
    resolve o (l ++ k) = resolve o l ++ resolve o k := List.map_append

/-- A load that fails answers its request and each command that waits. -/
theorem told_resolve_error (e : LoadError) :
    told (resolve (some (.error e : Except LoadError α)) l) ~
      told l ++ List.replicate (loads l + (waiting l).length) (BridgeError.load e).notice := by
  induction l with
  | nil => rfl
  | cons x l ih =>
    obtain ⟨m, f⟩ := x
    have hlate := (ih.cons (BridgeError.load e).notice).trans List.perm_middle.symm
    rw [← List.replicate_succ] at hlate
    cases f with
    | silent => exact ih
    | told n => exact ih.cons n
    | loads =>
      have hn : loads ((m, .loads) :: l) + (waiting ((m, .loads) :: l)).length =
          loads l + (waiting l).length + 1 := Nat.add_right_comm _ _ _
      rw [hn]
      exact hlate
    | waits text => exact hlate
    | executed text => exact ih

/-- A load that succeeds answers its request. -/
theorem told_resolve_ok (a : α) :
    told (resolve (some (.ok a : Except LoadError α)) l) ~
      told l ++ List.replicate (loads l) (.notice .ready) := by
  induction l with
  | nil => rfl
  | cons x l ih =>
    obtain ⟨m, f⟩ := x
    cases f with
    | silent => exact ih
    | told n => exact ih.cons n
    | loads => exact (ih.cons (.notice .ready)).trans List.perm_middle.symm
    | waits text => exact ih
    | executed text => exact ih

/-- Once the load has ended nothing waits for it. -/
theorem waiting_resolve (r : Except LoadError α) : waiting (resolve (some r) l) = [] := by
  induction l with
  | nil => rfl
  | cons x l ih =>
    obtain ⟨m, f⟩ := x
    cases f <;> cases r <;> exact ih

theorem executed_resolve_ok (a : α) (h : executed l = []) :
    executed (resolve (some (.ok a : Except LoadError α)) l) = waiting l := by
  induction l with
  | nil => rfl
  | cons x l ih =>
    obtain ⟨m, f⟩ := x
    cases f with
    | executed text => cases h
    | waits text => exact congrArg (text :: ·) (ih h)
    | _ => exact ih h

theorem executed_resolve_error (e : LoadError) :
    executed (resolve (some (.error e : Except LoadError α)) l) = executed l := by
  induction l with
  | nil => rfl
  | cons x l ih =>
    obtain ⟨m, f⟩ := x
    cases f with
    | executed text => exact congrArg (text :: ·) ih
    | _ => exact ih

/-- All that is said of these messages, in another order: what they are told, and the results. -/
theorem settle_perm {results : List (Except EngineError String)}
    (h : results.length ≤ (executed l).length) :
    (settle l results).flatMap Prod.snd ~ told l ++ results.flatMap report := by
  induction l generalizing results with
  | nil =>
    obtain rfl : results = [] := List.length_eq_zero_iff.1 (Nat.le_zero.1 h)
    rfl
  | cons x l ih =>
    obtain ⟨m, f⟩ := x
    cases f with
    | silent => exact ih h
    | told n => exact (ih h).cons n
    | loads => exact ih h
    | waits text => exact ih h
    | executed text =>
      cases results with
      | nil => exact ih (Nat.zero_le _)
      | cons result results =>
        have hrest := ih (Nat.le_of_succ_le_succ h)
        calc report result ++ (settle l results).flatMap Prod.snd
          _ ~ report result ++ (told l ++ results.flatMap report) := hrest.append_left _
          _ ~ told l ++ (report result ++ results.flatMap report) :=
            List.perm_append_comm_assoc _ _ _

end Ledger

section Fates

variable {settings : BridgeSettings} {past j k : Journal σ} {m : Inbound}

theorem fates_append : fates settings past (j ++ k) =
    fates settings past j ++ fates settings (past ++ j) k := by
  induction j generalizing past with
  | nil => simp [fates]
  | cons x j ih => simp [fates, ih]

theorem fates_of_taken_nil (h : taken k = []) : fates settings past k = [] := by
  induction k generalizing past with
  | nil => rfl
  | cons x k ih =>
    rw [taken_cons, List.append_eq_nil_iff] at h
    obtain ⟨hx, hk⟩ := h
    cases x with
    | took m => cases hx
    | _ => exact ih hk

theorem map_fst_fates : (fates settings past j).map Prod.fst = taken j := by
  induction j generalizing past with
  | nil => rfl
  | cons x j ih => cases x <;> simp [fates, ih]

theorem map_fst_ledger : (ledger settings j).map Prod.fst = taken j := by
  rw [ledger, Ledger.resolve, List.map_map]
  exact map_fst_fates

theorem mem_fates {x : Inbound × Fate} (h : x ∈ fates settings past j) :
    ∃ before : Journal σ, x.2 = fate settings before x.1 := by
  induction j generalizing past with
  | nil => cases h
  | cons y j ih =>
    rw [fates, List.mem_append] at h
    rcases h with h | h
    · obtain ⟨m, -, rfl⟩ := Option.map_eq_some_iff.1 (Option.mem_toList.1 h)
      exact ⟨past, rfl⟩
    · exact ih h

theorem mem_ledger {x : Inbound × Fate} (h : x ∈ ledger settings j) :
    ∃ before : Journal σ, x.2 = (fate settings before x.1).resolve (outcome settings j) := by
  obtain ⟨y, hy, rfl⟩ := List.mem_map.1 h
  obtain ⟨before, hf⟩ := mem_fates hy
  exact ⟨before, congrArg (Fate.resolve _) hf⟩

/-- A malformed message is told why it is, whenever it comes. -/
theorem told_of_malformed {reason : String} {f : Fate}
    (h : (Inbound.malformed reason, f) ∈ ledger settings j) :
    f = .told (.notice (.error .malformed ("malformed message: " ++ reason))) := by
  obtain ⟨before, hf⟩ := mem_ledger h
  exact hf.trans (Fate.resolve_told _ _)

theorem spelled_standing : (standing settings past).Spelled := by
  unfold standing
  dsimp only
  split <;> nofun

theorem spelled_fate (f : Fate) (o : Option (Except LoadError (Adapter σ)))
    (hf : ∀ n, f = .told n → n.Spelled) : ∀ n, f.resolve o = .told n → n.Spelled := by
  intro n hn
  cases f with
  | told m =>
    rw [Fate.resolve_told] at hn
    exact hf n hn
  | silent => simp at hn
  | executed text => rcases o with - | e | a <;> cases hn
  | loads =>
    rcases o with - | e | a
    · cases hn
    · obtain rfl := Fate.told.inj hn
      exact spelled_notice (.load e)
    · obtain rfl := Fate.told.inj hn
      nofun
  | waits text =>
    rcases o with - | e | a
    · cases hn
    · obtain rfl := Fate.told.inj hn
      exact spelled_notice (.load e)
    · cases hn

theorem spelled_of_fate : ∀ n, fate settings past m = .told n → n.Spelled := by
  intro n hn
  cases m with
  | malformed reason =>
    obtain rfl := Fate.told.inj hn
    exact spelled_notice (.malformed reason)
  | control c =>
    cases c with
    | status =>
      obtain rfl := Fate.told.inj hn
      exact spelled_standing
    | start module =>
      simp only [fate] at hn
      split at hn <;> cases hn
  | command text =>
    simp only [fate] at hn
    split at hn
    · cases hn
    · obtain rfl := Fate.told.inj hn
      exact spelled_notice (.load _)
    · split at hn
      · obtain rfl := Fate.told.inj hn
        exact spelled_notice (.engine .notReady)
      · split at hn
        · cases hn
        · obtain rfl := Fate.told.inj hn
          exact spelled_notice (.queueFull _)

theorem spelled_told : ∀ n ∈ (ledger settings j).told, n.Spelled := by
  intro n hn
  obtain ⟨x, hx, ht⟩ := List.mem_filterMap.1 hn
  obtain ⟨before, hf⟩ := mem_ledger hx
  refine spelled_fate _ _ (fun n => spelled_of_fate n) n (hf.symm.trans ?_)
  cases hx2 : x.2 with
  | told m =>
    rw [hx2] at ht
    exact congrArg Fate.told (Option.some.inj ht)
  | _ => simp [hx2] at ht

/-- The ledger of a journal that goes on without a message. -/
theorem ledger_append (hk : taken k = []) :
    ledger settings (j ++ k) = (fates settings [] j).resolve (outcome settings (j ++ k)) := by
  rw [ledger, fates_append, fates_of_taken_nil hk, List.append_nil]

theorem ledger_frame (hk : taken k = []) (ho : outcome settings (j ++ k) = outcome settings j) :
    ledger settings (j ++ k) = ledger settings j := by
  rw [ledger_append hk, ho, ledger]

/-- The end of the load. -/
theorem ledger_ends (ho : outcome settings j = none) (hk : taken k = []) :
    ledger settings (j ++ k) = (ledger settings j).resolve (outcome settings (j ++ k)) := by
  rw [ledger_append hk, ledger, ho, Ledger.resolve_none]

theorem ledger_took (hk : taken k = []) :
    ledger settings (j ++ Entry.took m :: k) =
      (fates settings [] j ++ [(m, fate settings j m)]).resolve
        (outcome settings (j ++ Entry.took m :: k)) := by
  have hm : fates settings j (.took m :: k) = [(m, fate settings j m)] := by
    simp [fates, fates_of_taken_nil hk]
  rw [ledger, fates_append, List.nil_append, hm]

/-- A message that does not touch the load. -/
theorem ledger_took_frame (hk : taken k = [])
    (ho : outcome settings (j ++ Entry.took m :: k) = outcome settings j) :
    ledger settings (j ++ Entry.took m :: k) =
      ledger settings j ++ [(m, (fate settings j m).resolve (outcome settings j))] := by
  rw [ledger_took hk, ho, Ledger.resolve_append]
  rfl

theorem ledger_called {context : Nat} {a : Adapter σ} {command : String} :
    ledger settings (j ++ [Entry.called context a command]) = ledger settings j :=
  ledger_frame rfl (outcome_congr (by simp) (by simp))

theorem ledger_answered {result : Except EngineError String} {answers : List Outbound} :
    ledger settings (j ++ Entry.answered result :: posts answers) = ledger settings j :=
  ledger_frame (by simp) (outcome_congr (by simp) (by simp))

end Fates

variable {settings : BridgeSettings} {j k : Journal σ} {phase : Phase (Adapter σ)}
  {pending : List String}

/-- What the ledger still owes in this phase, and to which commands. -/
def Phase.Owes (settings : BridgeSettings) (j : Journal σ) (pending : List String) :
    Phase (Adapter σ) → Prop
  | .uninitialized => (ledger settings j).loads = 0 ∧ (ledger settings j).waiting = pending ∧
      (ledger settings j).executed = [] ∧ calls j = []
  | .loading _ => (ledger settings j).loads = 1 ∧ (ledger settings j).waiting = pending ∧
      (ledger settings j).executed = [] ∧ calls j = []
  | .ready _ _ => (ledger settings j).waiting = [] ∧
      (ledger settings j).executed = (calls j).map Prod.snd ∧ pending = []
  | .running _ => (ledger settings j).waiting = [] ∧
      (ledger settings j).executed = (calls j).map Prod.snd ++ pending
  | .failed _ _ => (ledger settings j).waiting = [] ∧ (ledger settings j).executed = [] ∧
      calls j = [] ∧ pending = []

theorem Phase.Owes.frame (h : phase.Owes settings j pending)
    (hl : (ledger settings k).loads = (ledger settings j).loads)
    (hw : (ledger settings k).waiting = (ledger settings j).waiting)
    (he : (ledger settings k).executed = (ledger settings j).executed) (hc : calls k = calls j) :
    phase.Owes settings k pending := by
  cases phase <;> simpa only [Owes, hl, hw, he, hc] using h

theorem posted_failing (e : LoadError) :
    posted (failing e pending : Journal σ) =
      List.replicate (1 + pending.length) (BridgeError.load e).notice := by
  simp [failing, List.map_const', Nat.add_comm 1, List.replicate_succ]

@[simp] theorem results_failing (e : LoadError) :
    results (failing e pending : Journal σ) = [] := by
  simp [failing]

variable [Interpreter σ]

/-- The state that is told is that of the bridge. -/
theorem Conduct.standing_eq (h : Conduct settings j phase pending) (hp : phase.Taking) :
    standing settings j =
      .notice (.status phase.lifecycle phase.module pending.length) := by
  have ht := h.tells
  have hs := h.serves
  cases phase with
  | uninitialized => simp [standing, ht.1, hs.2, Phase.lifecycle, Phase.module]
  | loading name =>
    have ho := h.outcome_waiting trivial
    obtain ⟨⟨module, ha, hm⟩, -⟩ := ht
    simp [standing, ha, hm, ho, hs.2, Phase.lifecycle, Phase.module]
  | ready name a =>
    obtain ⟨b, ho⟩ := h.outcome_ready
    obtain ⟨⟨module, ha, hm⟩, -⟩ := ht
    obtain ⟨first, -, rfl, -⟩ := hs
    simp [standing, ha, hm, ho, Phase.lifecycle, Phase.module]
  | running name => exact hp.elim
  | failed module e =>
    have ho := h.outcome_failed
    obtain ⟨-, rfl⟩ := hs
    cases module with
    | none =>
      obtain ⟨⟨module, ha, hm⟩, -⟩ := ht
      simp [standing, ha, hm, ho, Phase.lifecycle, Phase.module]
    | some name =>
      obtain ⟨⟨module, ha, hm⟩, -⟩ := ht
      simp [standing, ha, hm, ho, Phase.lifecycle, Phase.module]

/-- The fate of a message that is answered at once is its answer. -/
theorem Aside.fate_eq {m : Inbound} {answers : List Outbound}
    (h : Conduct settings j phase pending) (hr : Aside settings phase pending m answers) :
    fate settings j m = .silent ∧ answers = [] ∨
      ∃ n, fate settings j m = .told n ∧ answers = [n] := by
  cases hr with
  | status hp => exact .inr ⟨_, congrArg Fate.told (h.standing_eq hp), rfl⟩
  | malformed => exact .inr ⟨_, rfl, rfl⟩
  | again hp hu => exact .inl ⟨by simp [fate, h.tells.asked_isSome hu], rfl⟩
  | reject hp hq =>
    have ho := h.outcome_waiting hp
    exact .inr ⟨_, by simp only [fate, ho, hq]; rfl, rfl⟩
  | overflow hp hq hn =>
    have ho := h.outcome_waiting hp
    have hfull : ¬ (commands j).length < settings.maxPending := by
      rw [← kept_length_lt hq, ← (h.serves.waiting hp).2]
      exact Nat.not_lt_of_le hn
    exact .inr ⟨_, by simp only [fate, ho, hq, hfull, if_false]; rfl, rfl⟩
  | deny =>
    have ho := h.outcome_failed
    exact .inr ⟨_, by simp only [fate, ho]; rfl, rfl⟩

/-- A message that is answered at once adds its answers to what is told. -/
theorem ledger_aside {m : Inbound} {answers : List Outbound}
    (h : Conduct settings j phase pending) (hr : Aside settings phase pending m answers) :
    ∃ f, ledger settings (j ++ Entry.took m :: posts answers) = ledger settings j ++ [(m, f)] ∧
      (f = Fate.silent ∧ answers = [] ∨ ∃ n, f = Fate.told n ∧ answers = [n]) := by
  have ho : outcome settings (j ++ Entry.took m :: posts answers) = outcome settings j :=
    outcome_congr (hr.asked_eq h.tells) (by simp)
  refine ⟨_, ledger_took_frame (by simp) ho, ?_⟩
  rcases hr.fate_eq h with ⟨hf, ha⟩ | ⟨n, hf, ha⟩
  · rw [hf, Fate.resolve_silent]
    exact .inl ⟨rfl, ha⟩
  · rw [hf, Fate.resolve_told]
    exact .inr ⟨n, rfl, ha⟩

theorem ledger_keep (h : Conduct settings j phase pending) (hp : phase.Waiting)
    (hq : settings.pendingPolicy = .queue) (hn : pending.length < settings.maxPending)
    (text : String) :
    ledger settings (j ++ [Entry.took (.command text)]) =
      ledger settings j ++ [(Inbound.command text, Fate.waits text)] := by
  have ho := h.outcome_waiting hp
  have hroom : (commands j).length < settings.maxPending := by
    rwa [← kept_length_lt hq, ← (h.serves.waiting hp).2]
  have hf : fate settings j (.command text) = .waits text := by
    simp only [fate, ho, hq, hroom, if_true]
  rw [ledger_took_frame rfl (outcome_congr (by simp) (by simp)), ho, hf]
  rfl

theorem ledger_begin {module : Option String} {name : String}
    (h : Conduct settings j .uninitialized pending)
    (hm : module.or settings.defaultModule = some name) :
    ledger settings (j ++ [Entry.took (.control (.start module)),
      .published ⟨.uninitialized, .loading⟩, .requested name]) =
        ledger settings j ++ [(Inbound.control (.start module), Fate.loads)] := by
  have ho := h.outcome_waiting trivial
  have ho' := (h.begin hm).outcome_waiting trivial
  have hf : fate settings j (.control (.start module)) = .loads := by
    simp [fate, h.tells.1]
  rw [ledger_took_frame rfl (ho'.trans ho.symm), ho, hf]
  rfl

theorem ledger_nameless {module : Option String} (h : Conduct settings j .uninitialized pending)
    (hm : module.or settings.defaultModule = none) :
    ledger settings (j ++ Entry.took (.control (.start module)) ::
      .published ⟨.uninitialized, .loading⟩ :: failing .noModule pending) =
        Ledger.resolve (some (.error .noModule : Except LoadError (Adapter σ)))
          (ledger settings j ++ [(Inbound.control (.start module), Fate.loads)]) := by
  have ho := h.outcome_waiting trivial
  have ho' := (h.nameless hm).outcome_failed
  have hf : fate settings j (.control (.start module)) = .loads := by
    simp [fate, h.tells.1]
  rw [ledger_took (by simp [failing]), ho', hf, ledger, ho, Ledger.resolve_none]

theorem ledger_fail {name : String} (h : Conduct settings j (.loading name) pending)
    (e : LoadError) :
    ledger settings (j ++ Entry.loaded (.error e) :: failing e pending) =
      (ledger settings j).resolve (some (.error e : Except LoadError (Adapter σ))) := by
  rw [ledger_ends (h.outcome_waiting trivial) (by simp [failing]), h.fail.outcome_failed]

/-- The load succeeds, whatever becomes of the first of the waiting commands. -/
theorem ledger_loaded {name : String} (h : Conduct settings j (.loading name) pending)
    (a : Adapter σ) (hk : taken k = []) :
    ledger settings (j ++ Entry.loaded (.ok a) :: k) =
      (ledger settings j).resolve (some (.ok a : Except LoadError (Adapter σ))) := by
  have ho : outcome settings (j ++ Entry.loaded (.ok a) :: k) = some (.ok a) := by
    obtain ⟨⟨module, ha, hm⟩, hl⟩ := h.tells
    simp [outcome, ha, hm, hl]
  rw [ledger_ends (h.outcome_waiting trivial) (by simpa using hk), ho]

theorem ledger_serve {name : String} {a : Adapter σ}
    (h : Conduct settings j (.ready name a) pending) (command : String) :
    ledger settings (j ++ [Entry.took (.command command), .called settings.contextId a command]) =
      ledger settings j ++ [(Inbound.command command, Fate.executed command)] := by
  obtain ⟨b, ho⟩ := h.outcome_ready
  have hf : fate settings j (.command command) = .executed command := by
    simp only [fate, ho]
  rw [ledger_took_frame rfl (outcome_congr (by simp) (by simp)), ho, hf]
  rfl

theorem Conduct.owes (h : Conduct settings j phase pending) : phase.Owes settings j pending := by
  induction h with
  | start => exact ⟨rfl, rfl, rfl, rfl⟩
  | aside h hr ih =>
    obtain ⟨f, hl, hf⟩ := ledger_aside h hr
    rcases hf with ⟨rfl, -⟩ | ⟨n, rfl, -⟩ <;>
      exact ih.frame (by simp [hl]) (by simp [hl]) (by simp [hl]) (by simp)
  | @keep j phase pending text h hp hq hn ih =>
    have hl := ledger_keep h hp hq hn text
    cases phase with
    | uninitialized =>
      obtain ⟨hn, hw, he, hc⟩ := ih
      exact ⟨by simp [hl, hn], by simp [hl, hw], by simp [hl, he], by simp [hc]⟩
    | loading name =>
      obtain ⟨hn, hw, he, hc⟩ := ih
      exact ⟨by simp [hl, hn], by simp [hl, hw], by simp [hl, he], by simp [hc]⟩
    | _ => exact hp.elim
  | begin h hm ih =>
    obtain ⟨hn, hw, he, hc⟩ := ih
    have hl := ledger_begin h hm
    exact ⟨by simp [hl, hn], by simp [hl, hw], by simp [hl, he], by simp [hc]⟩
  | nameless h hm ih =>
    obtain ⟨-, -, he, hc⟩ := ih
    have hl := ledger_nameless h hm
    refine ⟨by rw [hl, Ledger.waiting_resolve], ?_, by simp [hc, failing], rfl⟩
    rw [hl, Ledger.executed_resolve_error]
    simp [he]
  | @fail j name pending e h ih =>
    obtain ⟨-, -, he, hc⟩ := ih
    have hl := ledger_fail h e
    refine ⟨by rw [hl, Ledger.waiting_resolve], ?_, by simp [hc, failing], rfl⟩
    rw [hl, Ledger.executed_resolve_error, he]
  | @ready j name a h ih =>
    obtain ⟨-, hw, he, hc⟩ := ih
    have hl := ledger_loaded h a (k := arriving) rfl
    refine ⟨by rw [hl, Ledger.waiting_resolve], ?_, rfl⟩
    rw [hl, Ledger.executed_resolve_ok _ he, hw]
    simp [hc, arriving]
  | @replay j name a command pending h ih =>
    obtain ⟨-, hw, he, hc⟩ := ih
    have hl := ledger_loaded h a (k := arriving ++ [Entry.called settings.contextId a command]) rfl
    rw [List.append_assoc, List.cons_append]
    refine ⟨by rw [hl, Ledger.waiting_resolve], ?_⟩
    rw [hl, Ledger.executed_resolve_ok _ he, hw]
    simp [hc, arriving]
  | @serve j name a command pending h ih =>
    obtain ⟨hw, he, rfl⟩ := ih
    have hl := ledger_serve h command
    exact ⟨by simp [hl, hw], by simp [hl, he]⟩
  | rest h hx ih =>
    obtain ⟨hw, he⟩ := ih
    refine ⟨by rw [ledger_answered, hw], ?_, rfl⟩
    rw [ledger_answered, he]
    simp
  | next h hx ih =>
    obtain ⟨hw, he⟩ := ih
    refine ⟨by rw [ledger_called, ledger_answered, hw], ?_⟩
    rw [ledger_called, ledger_answered, he]
    simp

private theorem perm_told {posted told told' reports more : List Outbound}
    (h : posted ~ told ++ reports) (ht : told' ~ told ++ more) :
    posted ++ more ~ told' ++ reports := by
  calc posted ++ more
    _ ~ told ++ reports ++ more := h.append_right more
    _ ~ told ++ (more ++ reports) := by
      rw [List.append_assoc]
      exact List.perm_append_comm.append_left told
    _ = told ++ more ++ reports := (List.append_assoc _ _ _).symm
    _ ~ told' ++ reports := ht.symm.append_right reports

/-- A bridge has posted what its ledger tells, and a report of each result. -/
theorem Conduct.posted_perm (h : Conduct settings j phase pending) :
    posted j ~ (ledger settings j).told ++ (results j).flatMap report := by
  induction h with
  | start => rfl
  | @aside j phase pending m answers h hr ih =>
    obtain ⟨f, hl, hf⟩ := ledger_aside h hr
    have htold : (ledger settings (j ++ Entry.took m :: posts answers)).told =
        (ledger settings j).told ++ answers := by
      rw [hl]
      rcases hf with ⟨rfl, rfl⟩ | ⟨n, rfl, rfl⟩ <;> simp
    simpa using perm_told ih (.of_eq htold)
  | keep h hp hq hn ih => simpa [ledger_keep h hp hq hn] using ih
  | begin h hm ih => simpa [ledger_begin h hm] using ih
  | @nameless j module pending h hm ih =>
    obtain ⟨hn, hw, -⟩ := h.owes
    have hend := @Ledger.told_resolve_error
      (ledger settings j ++ [(Inbound.control (.start module), Fate.loads)]) (Adapter σ) .noModule
    rw [← ledger_nameless h hm] at hend
    have hposted := perm_told ih (by simpa [hn, hw] using hend)
    simpa [posted_failing] using hposted
  | @fail j name pending e h ih =>
    obtain ⟨hn, hw, -⟩ := h.owes
    have hend := @Ledger.told_resolve_error (ledger settings j) (Adapter σ) e
    rw [← ledger_fail h e, hn, hw] at hend
    simpa [posted_failing] using perm_told ih hend
  | @ready j name a h ih =>
    obtain ⟨hn, -⟩ := h.owes
    have hend := @Ledger.told_resolve_ok (ledger settings j) (Adapter σ) a
    rw [← ledger_loaded h a (k := arriving) rfl, hn] at hend
    simpa [arriving] using perm_told ih hend
  | @replay j name a command pending h ih =>
    obtain ⟨hn, -⟩ := h.owes
    have hend := @Ledger.told_resolve_ok (ledger settings j) (Adapter σ) a
    have hl := ledger_loaded h a (k := arriving ++ [Entry.called settings.contextId a command]) rfl
    rw [← hl, hn] at hend
    simpa [arriving] using perm_told ih hend
  | serve h ih => simpa [ledger_serve h] using ih
  | @rest j name a command result h hx ih =>
    rw [ledger_answered]
    simpa [answerPosts_eq_report] using ih.append_right (report result)
  | @next j name a command result text pending h hx ih =>
    rw [ledger_called, ledger_answered]
    simpa [answerPosts_eq_report] using ih.append_right (report result)

/-- Between two calls the commands without an answer are those of the queue. -/
theorem Conduct.waiting_eq (h : Conduct settings j phase pending) (hp : phase.Taking) :
    (ledger settings j).waiting = pending := by
  have ho := h.owes
  cases phase with
  | uninitialized => exact ho.2.1
  | loading name => exact ho.2.1
  | ready name a => exact ho.1.trans ho.2.2.symm
  | running name => exact hp.elim
  | failed module e => exact ho.1.trans ho.2.2.2.symm

/-- Each executed command was called once, and has its result. -/
theorem Conduct.executed_eq (h : Conduct settings j phase pending) (hp : phase.Taking) :
    calls j = (ledger settings j).executed.map (settings.contextId, ·) ∧
    (results j).length = (ledger settings j).executed.length ∧
    (∀ a, loadResult j = some (.ok a) →
      results j = results (a.transcript settings.contextId (ledger settings j).executed)) ∧
    ∀ e, .error e ∈ results j →
      (BridgeError.engine e).kind = .fault ∨ (BridgeError.engine e).kind = .timeout := by
  have idle (he : ofEngine j = []) (hx : (ledger settings j).executed = []) :
      calls j = [] ∧ results j = [] ∧ (ledger settings j).executed = [] := by
    rw [← calls_ofEngine, ← results_ofEngine, he]
    exact ⟨rfl, rfl, hx⟩
  have ho := h.owes
  have hs := h.serves
  cases phase with
  | uninitialized =>
    obtain ⟨hc, hr, hx⟩ := idle hs.1 ho.2.2.1
    simp [hc, hr, hx, Adapter.transcript]
  | loading name =>
    obtain ⟨hc, hr, hx⟩ := idle hs.1 ho.2.2.1
    simp [hc, hr, hx, Adapter.transcript]
  | failed module e =>
    obtain ⟨hc, hr, hx⟩ := idle hs.1 ho.2.1
    simp [hc, hr, hx, Adapter.transcript]
  | running name => exact hp.elim
  | ready name a =>
    obtain ⟨first, hl, rfl, hafter, hengine⟩ := hs
    have hcalls : calls j = (accepted settings j).map (settings.contextId, ·) := by
      rw [← calls_ofEngine, hengine]
      exact Adapter.calls_transcript_eq hafter
    have hresults : results j =
        results (first.transcript settings.contextId (accepted settings j)) := by
      rw [← results_ofEngine, hengine]
      rfl
    have hx : (ledger settings j).executed = accepted settings j := by
      rw [ho.2.1, hcalls, List.map_map]
      exact List.map_id _
    rw [hx]
    refine ⟨hcalls, ?_, ?_, ?_⟩
    · rw [hresults, Adapter.length_results_transcript hafter]
    · intro b hb
      obtain rfl : first = b := by simpa [hl] using hb
      exact hresults
    · intro e he
      rw [hresults] at he
      exact Adapter.kind_of_transcript he

theorem spelled_report (result : Except EngineError String) :
    ∀ n ∈ report result, n.Spelled := by
  intro n hn
  cases result with
  | ok text =>
    unfold report at hn
    dsimp only at hn
    split at hn
    · cases hn
    · obtain rfl := List.mem_singleton.1 hn
      nofun
  | error e =>
    obtain rfl := List.mem_singleton.1 hn
    exact spelled_notice (.engine e)

/-- Whatever is posted about an error tells everything that the error is about. -/
theorem Conduct.spelled (h : Conduct settings j phase pending) :
    ∀ kind detail, .notice (.error kind detail) ∈ posted j →
      ∃ e : BridgeError, e.kind = kind ∧ e.message = detail ∧
        ∀ t ∈ e.data, t.toList <:+: detail.toList := by
  intro kind detail hm
  have hspelled : (Outbound.notice (.error kind detail)).Spelled := by
    rcases List.mem_append.1 (h.posted_perm.mem_iff.1 hm) with hm | hm
    · exact spelled_told _ hm
    · obtain ⟨result, -, hr⟩ := List.mem_flatMap.1 hm
      exact spelled_report result _ hr
  obtain ⟨e, hkind, rfl⟩ := hspelled kind detail rfl
  exact ⟨e, hkind, rfl, e.message_carries⟩

/-- Each message that a bridge has taken is answered as its fate wants, and nothing else is posted;
the commands that are to be executed were called once each, in their order, and those that wait are
in the queue. A malformed message is told its reason, and no error is told but in full. -/
structure Session.Balanced (settings : BridgeSettings) (j : Journal σ) (s : Session σ) : Prop where
  every_message : (ledger settings j).map Prod.fst = taken j
  nothing_else : posted j ~ ((ledger settings j).settle (results j)).flatMap Prod.snd
  waiting_eq : (ledger settings j).waiting = s.bridge.pending
  calls_eq : calls j = (ledger settings j).executed.map (settings.contextId, ·)
  one_result_each : (results j).length = (calls j).length
  results_eq : ∀ a, loadResult j = some (.ok a) →
    results j = results (a.transcript settings.contextId (ledger settings j).executed)
  fault_or_timeout : ∀ e, .error e ∈ results j →
    (BridgeError.engine e).kind = .fault ∨ (BridgeError.engine e).kind = .timeout
  reason_told : ∀ reason f, (.malformed reason, f) ∈ ledger settings j →
    f = .told (.notice (.error .malformed ("malformed message: " ++ reason)))
  errors_told : ∀ kind detail, .notice (.error kind detail) ∈ posted j →
    ∃ e : BridgeError, e.kind = kind ∧ e.message = detail ∧
      ∀ t ∈ e.data, t.toList <:+: detail.toList

/-- With nothing left to do the ledger of a bridge balances. -/
theorem Conduct.balanced {s : Session σ} (h : Conduct settings j s.bridge.phase s.bridge.pending)
    (hp : s.bridge.phase.Taking) : s.Balanced settings j := by
  obtain ⟨hcalls, hlength, hresults, herrors⟩ := h.executed_eq hp
  have hwaiting := h.waiting_eq hp
  have hsettle := Ledger.settle_perm (Nat.le_of_eq hlength)
  refine ⟨map_fst_ledger, h.posted_perm.trans hsettle.symm, hwaiting, hcalls, ?_, hresults,
    herrors, fun _ _ => told_of_malformed, h.spelled⟩
  rw [hlength, hcalls, List.length_map]

/-- The ledger balances whenever the bridge is about to take a message, and when it has come to its
end with a host that listens. -/
theorem balanced_of_run {registry : Registry σ} {s : Session σ}
    (run : Session.Run (.create registry settings) j s) (hr : s.Resting) :
    s.Balanced settings j := by
  have hfaithful := run.faithful
  have hconduct := hfaithful.conduct_rest (hfaithful.agenda_resting hr)
  exact hconduct.balanced (hfaithful.taking_resting hr)

theorem balanced_rehearsal : ∃ s, Session.Run (.create Rehearsal.registry Rehearsal.settings)
    Rehearsal.journal s ∧ s.listens = true ∧ s.Balanced Rehearsal.settings Rehearsal.journal := by
  obtain ⟨s, -, run, hl, -⟩ := Rehearsal.run_journal
  exact ⟨s, run, hl, balanced_of_run run (.inl hl)⟩

end EngineBridge
