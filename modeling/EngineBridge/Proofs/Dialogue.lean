import EngineBridge.Proofs.Order

/-!
# One message after another

What a bridge does that takes its messages one at a time and does at once all that each of them
asks for, loads and calls included. No clock, no channel and no other task has a part in it.
-/

namespace EngineBridge

open Journal

variable {σ : Type}

/-- What a load gives to the bridge, unless the start panics. -/
def Loaded.result? : Loaded σ → Option (Except LoadError (Adapter σ))
  | .ready a => some (.ok a)
  | .refused e => some (.error e)
  | .crashed _ => none

/-- The module that a message asks to load; it may name none. -/
def Inbound.start? : Inbound → Option (Option String)
  | .control (.start module) => some module
  | _ => none

/-- The module that is to be loaded, if one is. -/
def BridgeSettings.requestedModule (settings : BridgeSettings) (messages : List Inbound) :
    Option String :=
  (messages.findSome? Inbound.start?).bind (·.or settings.defaultModule)

namespace Effect

variable {α : Type}

def weight : Effect α → Nat
  | .publish _ | .post _ => 1
  | .call _ _ => 2
  | .load _ => 3

/-- What effects weigh together. -/
def burden : List (Effect α) → Nat
  | [] => 0
  | e :: rest => e.weight + burden rest

@[simp] theorem burden_nil : burden ([] : List (Effect α)) = 0 := rfl

@[simp] theorem burden_cons (e : Effect α) (rest : List (Effect α)) :
    burden (e :: rest) = e.weight + burden rest := rfl

@[simp] theorem burden_append (l k : List (Effect α)) : burden (l ++ k) = burden l + burden k := by
  induction l with
  | nil => simp
  | cons e l ih =>
    simp only [List.cons_append, burden_cons, ih]
    omega

@[simp] theorem burden_posts {β : Type} (l : List β) (f : β → Outbound) :
    burden (l.map fun x => (.post (f x) : Effect α)) = l.length := by
  induction l with
  | nil => rfl
  | cons x l ih =>
    simp only [List.map_cons, burden_cons, ih, weight, List.length_cons]
    omega

end Effect

namespace Bridge

/-- What is still to be done weighs less with each effect that is carried out, since a waiting
command weighs more than its call. -/
def weight {α : Type} (b : Bridge α) (effects : List (Effect α)) : Nat :=
  3 * b.pending.length + Effect.burden effects

section Weight

variable {α : Type}

private theorem weight_proceed (b : Bridge α) (module : String) (engine : α) :
    (b.proceed module engine).1.weight (b.proceed module engine).2 ≤ b.weight [] := by
  obtain ⟨settings, phase, pending⟩ := b
  cases pending with
  | nil => simp [proceed, weight]
  | cons text rest =>
    simp only [proceed, weight, Effect.burden_cons, Effect.burden_nil, Effect.weight,
      List.length_cons]
    omega

private theorem weight_append (b : Bridge α) (l k : List (Effect α)) :
    b.weight (l ++ k) = b.weight k + Effect.burden l := by
  simp only [weight, Effect.burden_append]
  omega

private theorem length_answerPosts_le (result : Except EngineError String) :
    (answerPosts result).length ≤ 1 := by
  cases result with
  | error e => simp [answerPosts]
  | ok text =>
    unfold answerPosts
    dsimp only
    split <;> simp

theorem weight_loaded_lt (b : Bridge α) (result : Except LoadError α) (name : String)
    (rest : List (Effect α)) :
    (b.step (.loaded result)).1.weight (rest ++ (b.step (.loaded result)).2) <
      b.weight (.load name :: rest) := by
  have hafter :
      (b.step (.loaded result)).1.weight (b.step (.loaded result)).2 ≤ b.weight [] + 2 := by
    cases hp : b.phase with
    | loading m =>
      cases result with
      | ok engine =>
        have hproceed := weight_proceed b m engine
        simp only [step, hp]
        simp only [weight, Effect.burden_cons, Effect.weight] at hproceed ⊢
        omega
      | error e =>
        simp only [step, hp, fail, weight, Effect.burden_cons, Effect.burden_posts, Effect.weight,
          Effect.burden_nil, List.length_nil]
        omega
    | _ => cases result <;> simp [step, hp]
  rw [weight_append]
  simp only [weight, Effect.burden_cons, Effect.burden_nil, Effect.weight] at hafter ⊢
  omega

theorem weight_answered_lt (b : Bridge α) (engine a : α) (text : String)
    (result : Except EngineError String) (rest : List (Effect α)) :
    (b.step (.answered engine result)).1.weight (rest ++ (b.step (.answered engine result)).2) <
      b.weight (.call a text :: rest) := by
  have hafter : (b.step (.answered engine result)).1.weight (b.step (.answered engine result)).2 ≤
      b.weight [] + 1 := by
    cases hp : b.phase with
    | running m =>
      have hproceed := weight_proceed b m engine
      have hposts := length_answerPosts_le result
      simp only [step, hp]
      rw [weight_append, Effect.burden_posts]
      omega
    | _ => simp [step, hp]
  rw [weight_append]
  simp only [weight, Effect.burden_cons, Effect.burden_nil, Effect.weight] at hafter ⊢
  omega

end Weight

end Bridge

/-- Entries that come before others; where those leave off stays as it is. -/
def Journal.before {β : Type} (k : Journal σ) (x : Journal σ × β) : Journal σ × β :=
  (k ++ x.1, x.2)

variable [Interpreter σ]

namespace Bridge

/-- Carry out these effects and all that comes of them, where a load of a module gives at once what
`load` says. Gives the entries, and the bridge unless a panic has ended it. -/
def settle (load : String → Loaded σ) (b : Bridge (Adapter σ)) :
    List (Effect (Adapter σ)) → Journal σ × Option (Bridge (Adapter σ))
  | [] => ([], some b)
  | .publish t :: rest => before [.published t] (settle load b rest)
  | .post m :: rest => before [.posted m] (settle load b rest)
  | .load name :: rest =>
    match (load name).result? with
    | none => ([.requested name], none)
    | some result =>
      before [.requested name, .loaded result]
        (settle load (b.step (.loaded result)).1 (rest ++ (b.step (.loaded result)).2))
  | .call a text :: rest =>
    let x := a.execute b.settings.contextId text
    match x.answer.result? with
    | none => ([.called b.settings.contextId a text], none)
    | some result =>
      before [.called b.settings.contextId a text, .answered result]
        (settle load (b.step (.answered x.after result)).1
          (rest ++ (b.step (.answered x.after result)).2))
termination_by effects => b.weight effects
decreasing_by
  · simp [weight, Effect.weight]
  · simp [weight, Effect.weight]
  · exact weight_loaded_lt b result name rest
  · exact weight_answered_lt b _ a text result rest

/-- Take these messages in order, each once all that came of the one before it is done. A bridge
that a panic has ended takes none. -/
def dialogue (load : String → Loaded σ) : Option (Bridge (Adapter σ)) → List Inbound → Journal σ
  | _, [] => []
  | none, _ :: _ => []
  | some b, m :: rest =>
    let (j, b') := settle load (b.receive m).1 (b.receive m).2
    .took m :: j ++ dialogue load b' rest

section

variable {load : String → Loaded σ} {b : Bridge (Adapter σ)}
  {effects rest : List (Effect (Adapter σ))}

@[simp] theorem settle_nil : settle load b [] = ([], some b) := by rw [settle]

@[simp] theorem settle_publish (t : Transition) :
    settle load b (.publish t :: rest) = before [.published t] (settle load b rest) := by
  rw [settle]

@[simp] theorem settle_post (m : Outbound) :
    settle load b (.post m :: rest) = before [.posted m] (settle load b rest) := by
  rw [settle]

theorem settle_load (name : String) :
    settle load b (.load name :: rest) =
      match (load name).result? with
      | none => ([.requested name], none)
      | some result =>
        before [.requested name, .loaded result]
          (settle load (b.step (.loaded result)).1 (rest ++ (b.step (.loaded result)).2)) := by
  rw [settle]

theorem settle_call (a : Adapter σ) (text : String) :
    settle load b (.call a text :: rest) =
      let x := a.execute b.settings.contextId text
      match x.answer.result? with
      | none => ([.called b.settings.contextId a text], none)
      | some result =>
        before [.called b.settings.contextId a text, .answered result]
          (settle load (b.step (.answered x.after result)).1
            (rest ++ (b.step (.answered x.after result)).2)) := by
  rw [settle]

@[simp] theorem dialogue_none (messages : List Inbound) :
    dialogue load (none : Option (Bridge (Adapter σ))) messages = [] := by
  cases messages <;> rfl

@[simp] theorem dialogue_nil (b : Option (Bridge (Adapter σ))) : dialogue load b [] = [] := rfl

theorem dialogue_cons (m : Inbound) (messages : List Inbound) :
    dialogue load (some b) (m :: messages) =
      .took m :: (settle load (b.receive m).1 (b.receive m).2).1 ++
        dialogue load (settle load (b.receive m).1 (b.receive m).2).2 messages := rfl

end

section Underway

variable {α : Type} {b : Bridge α}

private theorem defer_underway (hb : b.phase ≠ .uninitialized) (text : String) :
    (b.defer text).1.phase ≠ .uninitialized ∧ ∀ name, .load name ∉ (b.defer text).2 := by
  unfold defer
  cases b.settings.pendingPolicy with
  | reject => exact ⟨hb, by simp⟩
  | queue =>
    dsimp only
    split
    · exact ⟨hb, by simp⟩
    · exact ⟨hb, by simp⟩

private theorem proceed_underway (b : Bridge α) (module : String) (engine : α) :
    (b.proceed module engine).1.phase ≠ .uninitialized ∧
      ∀ name, .load name ∉ (b.proceed module engine).2 := by
  unfold proceed
  cases b.pending <;> simp

/-- Once a load has been asked for, no message asks for another. -/
theorem receive_underway (hb : b.phase ≠ .uninitialized) (m : Inbound) :
    (b.receive m).1.phase ≠ .uninitialized ∧ ∀ name, .load name ∉ (b.receive m).2 := by
  cases m with
  | malformed reason => exact ⟨hb, by simp [receive]⟩
  | control c =>
    cases c with
    | status => exact ⟨hb, by simp [receive]⟩
    | start module =>
      cases hp : b.phase with
      | uninitialized => exact absurd hp hb
      | _ => simp [receive, start, hp]
  | command text =>
    cases hp : b.phase with
    | uninitialized => exact absurd hp hb
    | loading name => simpa [receive, command, hp] using defer_underway hb text
    | _ => simp [receive, command, hp]

theorem step_underway (hb : b.phase ≠ .uninitialized) (e : BridgeEvent α) :
    (b.step e).1.phase ≠ .uninitialized ∧ ∀ name, .load name ∉ (b.step e).2 := by
  cases e with
  | received m => exact receive_underway hb m
  | loaded result =>
    cases hp : b.phase with
    | loading name =>
      cases result with
      | ok engine => simpa [step, hp] using proceed_underway b name engine
      | error e => simp [step, hp, fail]
    | _ => cases result <;> simp [step, hp] at hb ⊢
  | answered engine result =>
    cases hp : b.phase with
    | running name => simpa [step, hp] using proceed_underway b name engine
    | _ => simp [step, hp] at hb ⊢

private theorem receive_before {m : Inbound} (hm : m.start? = none)
    (hb : b.phase = .uninitialized) :
    (b.receive m).1.settings = b.settings ∧ (b.receive m).1.phase = .uninitialized ∧
      ∀ e ∈ (b.receive m).2, e.Brief := by
  cases m with
  | malformed reason => simp [receive, hb, Effect.Brief]
  | control c =>
    cases c with
    | status => simp [receive, hb, Effect.Brief]
    | start module => cases hm
  | command text =>
    simp only [receive, command, hb, defer]
    cases b.settings.pendingPolicy with
    | reject => simp [hb, Effect.Brief]
    | queue =>
      dsimp only
      split <;> simp [hb, Effect.Brief]

end Underway

section

variable {load : String → Loaded σ} {b : Bridge (Adapter σ)}
  {effects : List (Effect (Adapter σ))}

/-- What is over at once does not change the bridge. -/
theorem settle_brief (he : ∀ e ∈ effects, e.Brief) :
    settle load b effects = (effects.map (Effect.entry b.settings.contextId), some b) := by
  induction effects with
  | nil => exact settle_nil
  | cons e rest ih =>
    obtain ⟨hbrief, hrest⟩ := List.forall_mem_cons.1 he
    cases e with
    | publish t => rw [settle_publish, ih hrest]; rfl
    | post m => rw [settle_post, ih hrest]; rfl
    | load name => exact hbrief.elim
    | call a text => exact hbrief.elim

theorem settle_underway (load : String → Loaded σ) (hb : b.phase ≠ .uninitialized)
    (he : ∀ name, .load name ∉ effects) :
    requested (settle load b effects).1 = [] ∧
      ∀ b' ∈ (settle load b effects).2, b'.phase ≠ .uninitialized := by
  fun_induction settle load b effects with
  | case1 b => simpa using hb
  | case2 b t rest ih => simpa [before] using ih hb (by simpa using he)
  | case3 b m rest ih => simpa [before] using ih hb (by simpa using he)
  | case4 b name rest => exact absurd (List.mem_cons_self ..) (he name)
  | case5 b name rest => exact absurd (List.mem_cons_self ..) (he name)
  | case6 b a text rest x hx => simp
  | case7 b a text rest x result hx ih =>
    obtain ⟨hphase, hfx⟩ := step_underway hb (.answered x.after result)
    simpa [before] using ih hphase (by simpa [hfx] using he)

omit [Interpreter σ] in
private theorem requested_brief {context : Nat} (he : ∀ e ∈ effects, e.Brief) :
    requested (effects.map (Effect.entry context)) = [] := by
  refine List.filterMap_eq_nil_iff.2 fun x hx => ?_
  obtain ⟨e, hmem, rfl⟩ := List.mem_map.1 hx
  have hbrief := he e hmem
  cases e with
  | load name => exact hbrief.elim
  | _ => rfl

private theorem requested_underway {b : Option (Bridge (Adapter σ))}
    (hb : ∀ b' ∈ b, b'.phase ≠ .uninitialized) (messages : List Inbound) :
    requested (dialogue load b messages) = [] := by
  induction messages generalizing b with
  | nil => simp
  | cons m messages ih =>
    cases b with
    | none => simp
    | some b =>
      obtain ⟨hphase, hfx⟩ := receive_underway (hb b rfl) m
      obtain ⟨hj, hb'⟩ := settle_underway load hphase hfx
      simp [dialogue_cons, hj, ih hb']

private theorem settle_start (load : String → Loaded σ) (hb : b.phase = .uninitialized)
    (module : Option String) :
    requested (settle load (b.start module).1 (b.start module).2).1 =
        (module.or b.settings.defaultModule).toList ∧
      ∀ b' ∈ (settle load (b.start module).1 (b.start module).2).2, b'.phase ≠ .uninitialized := by
  cases hm : module.or b.settings.defaultModule with
  | none =>
    simp only [start, hb, hm]
    exact settle_underway load (by simp [fail]) (by simp [fail])
  | some name =>
    simp only [start, hb, hm, settle_publish, settle_load]
    cases (load name).result? with
    | none => simp [before]
    | some result =>
      have hunderway : ({ b with phase := .loading name } : Bridge (Adapter σ)).phase ≠
          .uninitialized := by simp
      obtain ⟨hphase, hfx⟩ := step_underway hunderway (.loaded result)
      obtain ⟨hj, hb'⟩ := settle_underway load hphase hfx
      simpa [before, hj] using hb'

/-- The loader is called once at most, for the module that the first request names. -/
theorem requested_dialogue (hb : b.phase = .uninitialized) (messages : List Inbound) :
    requested (dialogue load (some b) messages) =
      (b.settings.requestedModule messages).toList := by
  induction messages generalizing b with
  | nil => rfl
  | cons m messages ih =>
    cases hm : m.start? with
    | none =>
      obtain ⟨hsettings, hphase, hbrief⟩ := receive_before hm hb
      have hrest := ih hphase
      rw [hsettings] at hrest
      simp [dialogue_cons, settle_brief hbrief, requested_brief hbrief, hrest,
        BridgeSettings.requestedModule, hm]
    | some module =>
      obtain rfl : m = .control (.start module) := by
        unfold Inbound.start? at hm
        split at hm
        · rw [Option.some.inj hm]
        · cases hm
      obtain ⟨hj, hb'⟩ := settle_start load hb module
      simp [dialogue_cons, receive, hj, requested_underway hb', BridgeSettings.requestedModule, hm]

end

/-- The bridge under other settings. -/
def adjust {α : Type} (b : Bridge α) (f : BridgeSettings → BridgeSettings) : Bridge α :=
  { b with settings := f b.settings }

/-- The bridge with channels of another capacity. -/
def resize {α : Type} (b : Bridge α) (capacity : Nat) : Bridge α :=
  { b with settings := { b.settings with channelCapacity := capacity } }

section Adjust

variable {α : Type} (b : Bridge α) {f : BridgeSettings → BridgeSettings}

private theorem start_adjust (hf : (f b.settings).defaultModule = b.settings.defaultModule)
    (module : Option String) :
    (b.adjust f).start module = ((b.start module).1.adjust f, (b.start module).2) := by
  obtain ⟨settings, phase, pending⟩ := b
  cases phase with
  | uninitialized =>
    have hdefault : (f settings).defaultModule = settings.defaultModule := hf
    cases hm : module.or settings.defaultModule <;> simp [start, adjust, fail, hm, hdefault]
  | _ => rfl

/-- Only a command that comes before the engine asks what is to become of it. -/
theorem receive_adjust (hf : (f b.settings).defaultModule = b.settings.defaultModule) {m : Inbound}
    (hm : b.phase.Waiting → ∀ text, m ≠ .command text) :
    (b.adjust f).receive m = ((b.receive m).1.adjust f, (b.receive m).2) := by
  cases m with
  | malformed reason => rfl
  | control c =>
    cases c with
    | status => rfl
    | start module => exact start_adjust b hf module
  | command text =>
    obtain ⟨settings, phase, pending⟩ := b
    cases phase with
    | uninitialized => exact absurd rfl (hm trivial text)
    | loading name => exact absurd rfl (hm trivial text)
    | _ => rfl

/-- What comes of the end of a load is the same under all settings. -/
theorem loaded_adjust (f : BridgeSettings → BridgeSettings) (result : Except LoadError α) :
    (b.adjust f).step (.loaded result) =
      ((b.step (.loaded result)).1.adjust f, (b.step (.loaded result)).2) := by
  obtain ⟨settings, phase, pending⟩ := b
  cases phase with
  | loading name =>
    cases result with
    | ok engine => cases pending <;> rfl
    | error e => rfl
  | _ => cases result <;> rfl

theorem answered_adjust (f : BridgeSettings → BridgeSettings) (engine : α)
    (result : Except EngineError String) :
    (b.adjust f).step (.answered engine result) =
      ((b.step (.answered engine result)).1.adjust f, (b.step (.answered engine result)).2) := by
  obtain ⟨settings, phase, pending⟩ := b
  cases phase with
  | running name => cases pending <;> rfl
  | _ => rfl

private theorem defer_resize (capacity : Nat) (text : String) :
    (b.resize capacity).defer text =
      ((b.defer text).1.resize capacity, (b.defer text).2) := by
  obtain ⟨settings, phase, pending⟩ := b
  unfold defer
  cases hq : settings.pendingPolicy with
  | reject => simp [resize, hq]
  | queue => by_cases hn : settings.maxPending ≤ pending.length <;> simp [resize, hq, hn]

/-- The capacity of the channels is nothing to the bridge, whatever it takes. -/
theorem receive_resize (capacity : Nat) (m : Inbound) :
    (b.resize capacity).receive m =
      ((b.receive m).1.resize capacity, (b.receive m).2) := by
  cases m with
  | malformed reason => rfl
  | control c =>
    cases c with
    | status => rfl
    | start module =>
      exact start_adjust (f := fun s => { s with channelCapacity := capacity }) b rfl module
  | command text =>
    have hdefer := defer_resize b capacity text
    obtain ⟨settings, phase, pending⟩ := b
    cases phase with
    | uninitialized => exact hdefer
    | loading name => exact hdefer
    | _ => rfl

end Adjust

section

variable {load : String → Loaded σ} {f : BridgeSettings → BridgeSettings}

/-- Of all settings the context alone has a part in what is carried out. -/
theorem settle_adjust (load : String → Loaded σ) (hf : ∀ s, (f s).contextId = s.contextId)
    (b : Bridge (Adapter σ)) (effects : List (Effect (Adapter σ))) :
    settle load (b.adjust f) effects =
      ((settle load b effects).1, (settle load b effects).2.map (·.adjust f)) := by
  fun_induction settle load b effects with
  | case1 b => simp
  | case2 b t rest ih => simp [before, ih]
  | case3 b m rest ih => simp [before, ih]
  | case4 b name rest hx => simp [settle_load, hx]
  | case5 b name rest result hx ih => simp [settle_load, hx, loaded_adjust, before, ih]
  | case6 b a text rest x hx =>
    have hcontext : (b.adjust f).settings.contextId = b.settings.contextId := hf b.settings
    have hcrash : (a.execute b.settings.contextId text).answer.result? = none := hx
    simp [settle_call, hcontext, hcrash]
  | case7 b a text rest x result hx ih =>
    have hcontext : (b.adjust f).settings.contextId = b.settings.contextId := hf b.settings
    have hresult : (a.execute b.settings.contextId text).answer.result? = some result := hx
    simp [settle_call, hcontext, hresult, answered_adjust, before, ih, x]

theorem dialogue_resize (load : String → Loaded σ) (b : Option (Bridge (Adapter σ)))
    (capacity : Nat) (messages : List Inbound) :
    dialogue load (b.map (·.resize capacity)) messages = dialogue load b messages := by
  have hsettle (b : Bridge (Adapter σ)) (effects : List (Effect (Adapter σ))) :
      settle load (b.resize capacity) effects =
        ((settle load b effects).1, (settle load b effects).2.map (·.resize capacity)) :=
    settle_adjust load (f := fun s => { s with channelCapacity := capacity }) (fun _ => rfl) b
      effects
  induction messages generalizing b with
  | nil => simp
  | cons m messages ih =>
    cases b with
    | none => simp
    | some b => simp [dialogue_cons, receive_resize, hsettle, ih]

/-- Once all is carried out, neither a load nor a call is under way. -/
theorem settle_settled {settings : BridgeSettings} {j : Journal σ} (load : String → Loaded σ)
    {b : Bridge (Adapter σ)} {effects : List (Effect (Adapter σ))}
    (he : Session.Engaged settings j .none b.phase effects) :
    ∀ b' ∈ (settle load b effects).2, b'.phase.Settled := by
  fun_induction settle load b effects with
  | case1 b => simpa using he.settled
  | case2 b t rest ih => exact ih (he.tail (by trivial))
  | case3 b m rest ih => exact ih (he.tail (by trivial))
  | case4 b name rest hx => simp
  | case5 b name rest result hx ih =>
    obtain ⟨hp, -, rfl⟩ := he.of_load
    exact ih (Session.engaged_load hp result)
  | case6 b a text rest x hx => simp
  | case7 b a text rest x result hx ih =>
    obtain ⟨name, hp, -, rfl⟩ := he.of_call
    exact ih (Session.engaged_answer hp x.after result)

/-- No command comes before the first request to load. -/
def StartsFirst (messages : List Inbound) : Prop :=
  ∀ text, .command text ∉ messages.takeWhile (·.start?.isNone)

theorem StartsFirst.head {m : Inbound} {messages : List Inbound} (h : StartsFirst (m :: messages))
    (text : String) : m ≠ .command text := by
  rintro rfl
  exact h text (by simp [Inbound.start?])

theorem StartsFirst.tail {m : Inbound} {messages : List Inbound} (h : StartsFirst (m :: messages))
    (hm : m.start? = none) : StartsFirst messages := by
  intro text hmem
  exact h text (by simp [hm, hmem])

private theorem settle_receive {b b' : Bridge (Adapter σ)} {m : Inbound}
    (hb' : b' ∈ (settle load (b.receive m).1 (b.receive m).2).2)
    (hp : b'.phase = .uninitialized) : b.phase = .uninitialized ∧ m.start? = none := by
  have hb : b.phase = .uninitialized := by
    by_contra hb
    obtain ⟨hphase, hfx⟩ := receive_underway hb m
    exact (settle_underway load hphase hfx).2 b' hb' hp
  refine ⟨hb, ?_⟩
  cases m with
  | malformed reason => rfl
  | command text => rfl
  | control c =>
    cases c with
    | status => rfl
    | start module => exact absurd hp ((settle_start load hb module).2 b' hb')

/-- If no command comes before the first request to load, neither what is said of waiting commands
nor the capacity of the channels has a part in what the bridge does. -/
theorem dialogue_adjust (load : String → Loaded σ) (hcontext : ∀ s, (f s).contextId = s.contextId)
    (hdefault : ∀ s, (f s).defaultModule = s.defaultModule) {b : Bridge (Adapter σ)}
    (hb : b.phase.Settled) {messages : List Inbound}
    (hfirst : b.phase = .uninitialized → StartsFirst messages) :
    dialogue load (some (b.adjust f)) messages = dialogue load (some b) messages := by
  induction messages generalizing b with
  | nil => rfl
  | cons m messages ih =>
    have hcommand : b.phase.Waiting → ∀ text, m ≠ .command text := by
      intro hp
      cases hphase : b.phase with
      | uninitialized => exact (hfirst hphase).head
      | _ => simp [hphase, Phase.Settled, Phase.Waiting] at hb hp
    rw [dialogue_cons, dialogue_cons, receive_adjust b (hdefault _) hcommand,
      settle_adjust load hcontext]
    congr 1
    cases hb' : (settle load (b.receive m).1 (b.receive m).2).2 with
    | none => rfl
    | some b' =>
      have hengaged : Session.Engaged b.settings [] .none (b.receive m).1.phase (b.receive m).2 :=
        Session.engaged_receive hb m
      refine ih (settle_settled load hengaged b' hb') fun hp => ?_
      obtain ⟨huninitialized, hm⟩ := settle_receive hb' hp
      exact (hfirst huninitialized).tail hm

end

end Bridge

end EngineBridge
