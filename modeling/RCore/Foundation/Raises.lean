import RCore.Foundation.StateExcept

/-! # Which errors a computation can raise

`Foundation.RaisesOnly allowed x` says that every failure of `x`, from any state, is an
`allowed` error: the code never fails in any other way. The rules follow the shape of the
code, as those of `Foundation.Triple` do for successes: the primitives that cannot fail,
`RaisesOnly.throw` for an error that is allowed, `RaisesOnly.lift` for a lifted `Except`,
`RaisesOnly.bind` for a sequence, and `RaisesOnly.forM` and `RaisesOnly.foldlM` for loops,
each by induction over the list.
-/

namespace Foundation

variable {σ ε α β γ : Type}

/-- Every failure of `x` is an `allowed` error. -/
def RaisesOnly (allowed : ε → Prop) (x : StateT σ (Except ε) α) : Prop :=
  ∀ ⦃s : σ⦄ ⦃e : ε⦄, x s = .error e → allowed e

namespace RaisesOnly

variable {allowed : ε → Prop} {x : StateT σ (Except ε) α}

theorem pure (a : α) : RaisesOnly allowed (Pure.pure a : StateT σ (Except ε) α) := by
  intro s e failed
  cases failed

theorem get : RaisesOnly allowed (MonadState.get : StateT σ (Except ε) σ) := by
  intro s e failed
  cases failed

theorem set (s₁ : σ) : RaisesOnly allowed (MonadStateOf.set s₁ : StateT σ (Except ε) PUnit) := by
  intro s e failed
  cases failed

theorem modify (f : σ → σ) : RaisesOnly allowed (modify f : StateT σ (Except ε) PUnit) := by
  intro s e failed
  cases failed

theorem throw {e : ε} (holds : allowed e) : RaisesOnly allowed (MonadExcept.throw e : StateT σ (Except ε) α) := by
  intro s e' failed
  cases failed
  exact holds

theorem lift {x : Except ε α} (holds : ∀ e, x = .error e → allowed e) :
    RaisesOnly allowed (StateT.lift x : StateT σ (Except ε) α) := by
  intro s e failed
  cases x with
  | error e' =>
      cases failed
      exact holds _ rfl
  | ok a => cases failed

theorem bind {f : α → StateT σ (Except ε) β} (first : RaisesOnly allowed x) (rest : ∀ a, RaisesOnly allowed (f a)) :
    RaisesOnly allowed (x >>= f) := by
  intro s e failed
  rcases bind_eq_error.mp failed with early | ⟨a, s', -, late⟩
  · exact first early
  · exact rest a late

/-- After an allowed error nothing else runs. -/
theorem throw_bind {e : ε} {f : α → StateT σ (Except ε) β} (holds : allowed e) :
    RaisesOnly allowed (MonadExcept.throw e >>= f) := by
  intro s e' failed
  cases failed
  exact holds

theorem ite {c : Prop} [Decidable c] {y : StateT σ (Except ε) α} (yes : RaisesOnly allowed x)
    (no : RaisesOnly allowed y) : RaisesOnly allowed (if c then x else y) := by
  by_cases holds : c
  · rw [if_pos holds]
    exact yes
  · rw [if_neg holds]
    exact no

theorem forM {f : γ → StateT σ (Except ε) PUnit} (each : ∀ c, RaisesOnly allowed (f c)) :
    ∀ l : List γ, RaisesOnly allowed (l.forM f)
  | [] => pure _
  | c :: rest => (each c).bind fun _ => forM each rest

theorem foldlM {f : β → γ → StateT σ (Except ε) β} (each : ∀ b c, RaisesOnly allowed (f b c)) :
    ∀ (l : List γ) (init : β), RaisesOnly allowed (l.foldlM f init)
  | [], _ => pure _
  | c :: rest, init => (each init c).bind fun b => foldlM each rest b

end RaisesOnly

end Foundation
