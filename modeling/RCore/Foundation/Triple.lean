import RCore.Foundation.StateExcept

/-! # Pre- and postconditions over state and failure

`Foundation.Triple pre x post` is partial correctness over failures: from a state satisfying
`pre`, every success of `x` ends in a value and a state satisfying `post`. A failure satisfies
every triple; what a computation does when it fails is stated with `Foundation.bind_eq_error`.

The rules follow the shape of the code: `Triple.bind` for a sequence, `Triple.pure`,
`Triple.get`, `Triple.set`, `Triple.modify` and `Triple.lift` for the primitives,
`Triple.forM_foldl` for a loop whose every step moves a projection of the state by one fold
step, and `Triple.mono` to strengthen the precondition and weaken the postcondition.
`Foundation.Keeps view x` says that `x` leaves the projection `view` of the state alone.
-/

namespace Foundation

variable {σ ε α β γ τ : Type}

/-- From a state satisfying `pre`, every success of `x` satisfies `post`. -/
def Triple (pre : σ → Prop) (x : StateT σ (Except ε) α) (post : α → σ → Prop) : Prop :=
  ∀ ⦃s a s'⦄, pre s → x s = .ok (a, s') → post a s'

/-- `x` leaves the projection `view` of the state as it was. -/
def Keeps (view : σ → τ) (x : StateT σ (Except ε) α) : Prop :=
  ∀ t, Triple (fun s => view s = t) x fun _ s => view s = t

namespace Triple

variable {pre pre' : σ → Prop} {post post' : α → σ → Prop} {x y : StateT σ (Except ε) α}

theorem mono (holds : Triple pre x post) (weaker : ∀ s, pre' s → pre s)
    (stronger : ∀ a s, post a s → post' a s) : Triple pre' x post' :=
  fun _ _ _ start ran => stronger _ _ (holds (weaker _ start) ran)

theorem bind {mid : α → σ → Prop} {f : α → StateT σ (Except ε) β} {post : β → σ → Prop}
    (first : Triple pre x mid) (rest : ∀ a, Triple (mid a) (f a) post) : Triple pre (x >>= f) post := by
  intro s b s' start ran
  obtain ⟨a, s1, ran1, ran2⟩ := bind_eq_ok.mp ran
  exact rest a (first start ran1) ran2

theorem pure (a : α) : Triple (post a) (Pure.pure a : StateT σ (Except ε) α) post := by
  intro s b s' start ran
  cases ran
  exact start

theorem get {post : σ → σ → Prop} :
    Triple (fun s => post s s) (get : StateT σ (Except ε) σ) post := by
  intro s b s' start ran
  cases ran
  exact start

theorem set (s₁ : σ) {post : PUnit → σ → Prop} :
    Triple (fun _ => post ⟨⟩ s₁) (set s₁ : StateT σ (Except ε) PUnit) post := by
  intro s b s' start ran
  cases ran
  exact start

theorem modify (f : σ → σ) {post : PUnit → σ → Prop} :
    Triple (fun s => post ⟨⟩ (f s)) (modify f : StateT σ (Except ε) PUnit) post := by
  intro s b s' start ran
  cases ran
  exact start

theorem lift (e : Except ε α) :
    Triple (fun s => ∀ a, e = .ok a → post a s) (StateT.lift e : StateT σ (Except ε) α) post := by
  intro s b s' start ran
  obtain ⟨ok, rfl⟩ := liftExcept_eq_ok.mp ran
  exact start b ok

theorem throw (e : ε) : Triple pre (throw e : StateT σ (Except ε) α) post := by
  intro s b s' _ ran
  cases ran

theorem ite {c : Prop} [Decidable c] (yes : c → Triple pre x post) (no : ¬ c → Triple pre y post) :
    Triple pre (if c then x else y) post := by
  by_cases holds : c
  · rw [if_pos holds]
    exact yes holds
  · rw [if_neg holds]
    exact no holds

/-- A precondition that only fixes a projection of the state, and a second fact about it. -/
theorem and {other : σ → Prop} {post₁ post₂ : α → σ → Prop} (first : Triple pre x post₁)
    (second : Triple other x post₂) : Triple (fun s => pre s ∧ other s) x fun a s => post₁ a s ∧ post₂ a s :=
  fun _ _ _ start ran => ⟨first start.1 ran, second start.2 ran⟩

/-- A loop whose every step moves the projection `view` by one step of the fold `g` moves it by
the whole fold; the steps need only hold where `good` does, which the fold keeps. By induction
over the list. -/
theorem forM_foldl {f : γ → StateT σ (Except ε) PUnit} {view : σ → τ} {g : τ → γ → τ} (good : τ → Prop)
    (step : ∀ c t, good t → Triple (fun s => view s = t) (f c) fun _ s => view s = g t c)
    (keeps : ∀ c t, good t → good (g t c)) :
    ∀ (l : List γ) (t : τ), good t → Triple (fun s => view s = t) (l.forM f) fun _ s => view s = l.foldl g t
  | [], _, _ => by
      intro s b s' start ran
      cases ran
      exact start
  | c :: rest, t, holds => by
      show Triple _ (f c >>= fun _ => rest.forM f) _
      exact (step c t holds).bind fun _ => forM_foldl good step keeps rest (g t c) (keeps c t holds)

end Triple

namespace Keeps

variable {view : σ → τ} {x : StateT σ (Except ε) α}

/-- A success of `x` leaves `view` as it was. -/
theorem view_eq (keeps : Keeps view x) {s s' : σ} {a : α} (ran : x s = .ok (a, s')) : view s' = view s :=
  keeps (view s) rfl ran

theorem bind {f : α → StateT σ (Except ε) β} (first : Keeps view x) (rest : ∀ a, Keeps view (f a)) :
    Keeps view (x >>= f) :=
  fun t => (first t).bind fun a => rest a t

theorem pure (a : α) : Keeps view (Pure.pure a : StateT σ (Except ε) α) := by
  intro t s b s' start ran
  cases ran
  exact start

theorem get : Keeps view (MonadState.get : StateT σ (Except ε) σ) :=
  fun _ => Triple.get.mono (fun _ same => same) fun _ _ same => same

theorem lift (e : Except ε α) : Keeps view (StateT.lift e : StateT σ (Except ε) α) :=
  fun _ => (Triple.lift e).mono (fun _ same _ _ => same) fun _ _ same => same

theorem modify {f : σ → σ} (same : ∀ s, view (f s) = view s) :
    Keeps view (modify f : StateT σ (Except ε) PUnit) :=
  fun _ => (Triple.modify f).mono (fun s start => (same s).trans start) fun _ _ holds => holds

theorem throw (e : ε) : Keeps view (MonadExcept.throw e : StateT σ (Except ε) α) :=
  fun _ => Triple.throw e

theorem ite {c : Prop} [Decidable c] {y : StateT σ (Except ε) α} (yes : Keeps view x) (no : Keeps view y) :
    Keeps view (if c then x else y) :=
  fun t => Triple.ite (fun _ => yes t) fun _ => no t

theorem forM {f : γ → StateT σ (Except ε) PUnit} (each : ∀ c, Keeps view (f c)) :
    ∀ l : List γ, Keeps view (l.forM f)
  | [] => pure _
  | c :: rest => (each c).bind fun _ => forM each rest

/-- What leaves `view` alone leaves every function of it alone. -/
theorem map {τ' : Type} (keeps : Keeps view x) (g : τ → τ') : Keeps (fun s => g (view s)) x :=
  fun _ _ _ _ start ran => (congrArg g (keeps.view_eq ran)).trans start

end Keeps

end Foundation
