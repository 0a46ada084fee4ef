import EngineBridge.Proofs.Ledger

/-!
# What the journal tells of a bridge

The name of the module, how many commands wait, and why a command is refused: each of them can be
read off the messages that the bridge has taken and the end of its load.
-/

namespace EngineBridge

open Journal

variable {σ : Type} {settings : BridgeSettings} {j k : Journal σ} {phase : Phase (Adapter σ)}
  {pending : List String}

/-- The module is the one that the first request names, or else the configured one. -/
theorem Phase.Tells.module_eq (h : phase.Tells settings j) :
    phase.module = (asked j).bind (·.or settings.defaultModule) := by
  cases phase with
  | uninitialized => simp [Phase.module, h.1]
  | failed module e =>
    cases module with
    | none =>
      obtain ⟨⟨module, ha, hm⟩, -⟩ := h
      simp [Phase.module, ha, hm]
    | some name =>
      obtain ⟨⟨module, ha, hm⟩, -⟩ := h
      simp [Phase.module, ha, hm]
  | _ =>
    obtain ⟨⟨module, ha, hm⟩, -⟩ := h
    simp [Phase.module, ha, hm]

theorem Phase.Tells.uninitialized_iff (h : phase.Tells settings j) :
    phase.lifecycle = .uninitialized ↔ asked j = none := by
  cases phase with
  | uninitialized => simp [Phase.lifecycle, h.1]
  | _ =>
    have hasked := h.asked_isSome (by simp)
    have hne : asked j ≠ none := by
      intro hnone
      rw [hnone] at hasked
      cases hasked
    simp [Phase.lifecycle, hne]

/-- What stands behind a refusal, where so many commands came before the end of the load. -/
def Outbound.Excused (settings : BridgeSettings) (early : Nat) : Outbound → Prop
  | .notice (.error .notReady _) => settings.pendingPolicy = .reject
  | .notice (.error .queueFull _) => settings.maxPending < early
  | _ => True

theorem Outbound.Excused.mono {m : Outbound} {early more : Nat} (h : m.Excused settings early)
    (hle : early ≤ more) : m.Excused settings more := by
  unfold Excused at h ⊢
  split
  · exact h
  · exact Nat.lt_of_lt_of_le h hle
  · trivial

/-- How many commands came before the end of the load. -/
def Journal.early {σ : Type} (j : Journal σ) : Nat := (commands (beforeLoad j)).length

theorem early_of_waiting (h : loadResult j = none) : early j = (commands j).length := by
  have hbefore : beforeLoad j = j :=
    List.takeWhile_eq_self_iff.2 fun x hx =>
      Option.isNone_iff_eq_none.2 (List.findSome?_eq_none_iff.1 h x hx)
  rw [early, hbefore]

theorem early_le_append (j k : Journal σ) : early j ≤ early (j ++ k) := by
  unfold early beforeLoad
  rw [List.takeWhile_append]
  split
  next hall =>
    rw [(List.takeWhile_prefix _).eq_of_length hall]
    simp
  next => exact Nat.le_refl _

private theorem excused_append (h : ∀ m ∈ posted j, m.Excused settings (early j))
    (hk : ∀ m ∈ posted k, m.Excused settings (early (j ++ k))) :
    ∀ m ∈ posted (j ++ k), m.Excused settings (early (j ++ k)) := by
  intro m hm
  rw [posted_append, List.mem_append] at hm
  rcases hm with hm | hm
  · exact (h m hm).mono (early_le_append j k)
  · exact hk m hm

private theorem excused_failing {n : Nat} (e : LoadError) :
    ∀ m ∈ posted (failing e pending : Journal σ), m.Excused settings n := by
  intro m hm
  rw [posted_failing] at hm
  rw [List.eq_of_mem_replicate hm]
  trivial

private theorem excused_answer [Interpreter σ] {n : Nat} {a : Adapter σ} {context : Nat}
    {command : String} {result : Except EngineError String}
    (hx : (a.execute context command).answer = .ofResult result) :
    ∀ m ∈ Bridge.answerPosts result, m.Excused settings n := by
  intro m hm
  rw [answerPosts_eq_report] at hm
  cases result with
  | ok text =>
    unfold report at hm
    dsimp only at hm
    split at hm
    · cases hm
    · obtain rfl := List.mem_singleton.1 hm
      trivial
  | error e =>
    obtain rfl := List.mem_singleton.1 hm
    rcases Adapter.kind_of_execute hx with hk | hk <;> rw [hk] <;> trivial

variable [Interpreter σ]

theorem Conduct.excused (h : Conduct settings j phase pending) :
    ∀ m ∈ posted j, m.Excused settings (early j) := by
  induction h with
  | start => simp
  | @aside j phase pending m answers h hr ih =>
    refine excused_append ih ?_
    intro n hn
    have hn : n ∈ answers := by simpa using hn
    cases hr with
    | reject hp hq =>
      obtain rfl := List.mem_singleton.1 hn
      exact hq
    | overflow hp hq hfull =>
      obtain rfl := List.mem_singleton.1 hn
      -- The queue holds all that came, so that one more is more than it may hold.
      have hwaiting := (h.serves.waiting hp).2
      rw [hwaiting, ← Nat.not_lt, kept_length_lt hq, Nat.not_lt] at hfull
      have hnone : loadResult j = none := by
        have ht := h.tells
        cases phase with
        | uninitialized => exact ht.2
        | loading name => exact ht.2
        | _ => exact hp.elim
      rw [early_of_waiting (by simp [hnone])]
      simpa [Outbound.Excused, BridgeError.notice, BridgeError.kind] using
        Nat.lt_succ_of_le hfull
    | again => cases hn
    | _ =>
      obtain rfl := List.mem_singleton.1 hn
      trivial
  | keep _ _ _ _ ih => exact excused_append ih (by simp)
  | begin _ _ ih => exact excused_append ih (by simp)
  | nameless _ _ ih => exact excused_append ih (by simpa using excused_failing _)
  | fail _ ih => exact excused_append ih (by simpa using excused_failing _)
  | ready _ ih => exact excused_append ih (by simp [arriving, Outbound.Excused])
  | replay _ ih =>
    rw [List.append_assoc]
    exact excused_append ih (by simp [arriving, Outbound.Excused])
  | serve _ ih => exact excused_append ih (by simp)
  | rest _ hx ih => exact excused_append ih (by simpa using excused_answer hx)
  | next _ hx ih =>
    rw [List.append_assoc]
    exact excused_append ih (by simpa using excused_answer hx)

theorem Conduct.pending_le (h : Conduct settings j phase pending) :
    pending.length ≤ settings.maxPending := by
  induction h with
  | keep _ _ _ hn _ =>
    rw [List.length_append]
    exact hn
  | replay _ ih => exact Nat.le_of_succ_le ih
  | next _ _ ih => exact Nat.le_of_succ_le ih
  | aside _ _ ih => exact ih
  | begin _ _ ih => exact ih
  | serve _ ih => exact ih
  | _ => exact Nat.zero_le _

/-- Between two calls commands wait only for the end of a load, and only by policy. -/
theorem Conduct.waiting_of_pending (h : Conduct settings j phase pending) (hp : phase.Taking)
    (hne : pending ≠ []) : phase.Waiting ∧ settings.pendingPolicy = .queue := by
  have hs := h.serves
  have queue (hk : pending = settings.kept (commands j)) : settings.pendingPolicy = .queue := by
    cases hq : settings.pendingPolicy with
    | queue => rfl
    | reject => exact absurd (hk.trans (kept_of_reject hq)) hne
  cases phase with
  | uninitialized => exact ⟨trivial, queue hs.2⟩
  | loading name => exact ⟨trivial, queue hs.2⟩
  | ready name a =>
    obtain ⟨first, -, hnil, -⟩ := hs
    exact absurd hnil hne
  | running name => exact hp.elim
  | failed module e => exact absurd hs.2 hne

end EngineBridge
