import Mathlib

/-! # State over failure

Stateful code that can fail is a function in `StateT σ (Except ε)`. A composite
computation succeeds exactly when its first part succeeds and the rest succeeds from
the state the first part left (`Foundation.bind_eq_ok`); it fails when the first part
fails or the rest does (`Foundation.bind_eq_error`). Proofs about such code peel a
computation apart with these two rules instead of unfolding the monad.
-/

namespace Foundation

variable {σ ε α β : Type}

theorem bind_eq_ok {x : StateT σ (Except ε) α} {f : α → StateT σ (Except ε) β} {s : σ}
    {r : β × σ} : (x >>= f) s = .ok r ↔ ∃ a s', x s = .ok (a, s') ∧ f a s' = .ok r := by
  show (x s >>= fun p => f p.1 p.2) = _ ↔ _
  cases hx : x s with
  | error e => simp [bind, Except.bind]
  | ok p =>
      obtain ⟨a, s'⟩ := p
      constructor
      · intro ran
        exact ⟨a, s', rfl, ran⟩
      · rintro ⟨a', s'', same, ran⟩
        cases same
        exact ran

theorem bind_eq_error {x : StateT σ (Except ε) α} {f : α → StateT σ (Except ε) β} {s : σ}
    {e : ε} :
    (x >>= f) s = .error e ↔ x s = .error e ∨ ∃ a s', x s = .ok (a, s') ∧ f a s' = .error e := by
  show (x s >>= fun p => f p.1 p.2) = _ ↔ _
  cases hx : x s with
  | error e' => simp [bind, Except.bind]
  | ok p =>
      obtain ⟨a, s'⟩ := p
      constructor
      · intro ran
        exact .inr ⟨a, s', rfl, ran⟩
      · rintro (bad | ⟨a', s'', same, ran⟩)
        · cases bad
        · cases same
          exact ran

@[simp]
theorem pure_apply (a : α) (s : σ) : (pure a : StateT σ (Except ε) α) s = .ok (a, s) := rfl

@[simp]
theorem get_apply (s : σ) : (get : StateT σ (Except ε) σ) s = .ok (s, s) := rfl

@[simp]
theorem set_apply (s s' : σ) : (set s' : StateT σ (Except ε) PUnit) s = .ok (⟨⟩, s') := rfl

@[simp]
theorem throw_apply (e : ε) (s : σ) : (throw e : StateT σ (Except ε) α) s = .error e := rfl

@[simp]
theorem modify_apply (f : σ → σ) (s : σ) :
    (modify f : StateT σ (Except ε) PUnit) s = .ok (⟨⟩, f s) := rfl

@[simp]
theorem liftExcept_apply (x : Except ε α) (s : σ) :
    (StateT.lift x : StateT σ (Except ε) α) s = x.map fun a => (a, s) := by
  cases x <;> rfl

@[simp]
theorem get_bind (f : σ → StateT σ (Except ε) β) (s : σ) : (get >>= f) s = f s s := rfl

/-- A bind whose first step succeeded continues from that step's value and state. -/
theorem bind_of_ok {x : StateT σ (Except ε) α} {f : α → StateT σ (Except ε) β} {s s' : σ} {a : α}
    (ran : x s = .ok (a, s')) : (x >>= f) s = f a s' := by
  show (x s >>= fun p => f p.1 p.2) = _
  rw [ran]
  rfl

/-- A bind whose first step failed fails the same way. -/
theorem bind_of_error {x : StateT σ (Except ε) α} {f : α → StateT σ (Except ε) β} {s : σ} {e : ε}
    (failed : x s = .error e) : (x >>= f) s = .error e :=
  bind_eq_error.mpr (.inl failed)

/-- A lifted computation succeeds when the lifted value is a success, leaving the state alone. -/
theorem liftExcept_eq_ok {x : Except ε α} {s s' : σ} {a : α} :
    (StateT.lift x : StateT σ (Except ε) α) s = .ok (a, s') ↔ x = .ok a ∧ s' = s := by
  cases x with
  | error e => simp [liftExcept_apply, Except.map]
  | ok b =>
      simp only [liftExcept_apply, Except.map, Except.ok.injEq, Prod.mk.injEq]
      exact ⟨fun ⟨same, state⟩ => ⟨same, state.symm⟩, fun ⟨same, state⟩ => ⟨same, state.symm⟩⟩

/-- A lifted success passes its value on and leaves the state alone. -/
@[simp]
theorem liftExcept_ok_bind (a : α) (f : α → StateT σ (Except ε) β) (s : σ) :
    (StateT.lift (.ok a) >>= f) s = f a s := rfl

/-- A lifted failure fails the bind. -/
@[simp]
theorem liftExcept_error_bind (e : ε) (f : α → StateT σ (Except ε) β) (s : σ) :
    (StateT.lift (.error e) >>= f) s = .error e := rfl

/-- A loop whose steps each succeed and leave the state alone succeeds with their values. -/
theorem mapM_of_ok {f : α → StateT σ (Except ε) β} {g : α → β} {s : σ} :
    ∀ {l : List α}, (∀ a ∈ l, f a s = .ok (g a, s)) → l.mapM f s = .ok (l.map g, s)
  | [], _ => rfl
  | a :: rest, each => by
      rw [List.mapM_cons, bind_of_ok (each a List.mem_cons_self),
        bind_of_ok (mapM_of_ok fun b member => each b (List.mem_cons_of_mem a member))]
      rfl

end Foundation
