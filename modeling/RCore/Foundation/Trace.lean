import RCore.Foundation.StateExcept

/-! # Runs of a step relation, and code that refines it

A step relation `spec t e o t'` says that in the state `t` the event `e` may lead to `t'`,
reporting `o`. `Foundation.Trace spec t es os t'` is a run of it over the events `es`, with the
reports concatenated in order. An invariant that every step keeps holds at the end of every run
(`Foundation.Trace.inv`).

Code that handles one event is a computation in `StateT σ (Except ε)`; `Foundation.runEvents`
runs it over a list of events. It refines `spec` through `abs` under `inv`
(`Foundation.Refines`) when, from every state satisfying `inv`, each success of the code is a
step of `spec` between the abstractions and ends in `inv` again. Then every success of the code
over a list of events is a run of `spec` (`Foundation.Refines.trace`), and a run fails only in
the ways its steps may (`Foundation.Refines.raises`).
-/

namespace Foundation

variable {σ T E O ε : Type}

/-- The runs of `spec`: the events in order, and what the steps report, concatenated. -/
inductive Trace (spec : T → E → List O → T → Prop) : T → List E → List O → T → Prop
  | nil {t : T} : Trace spec t [] [] t
  | cons {t t' t'' : T} {e : E} {es : List E} {o os : List O} :
      spec t e o t' → Trace spec t' es os t'' → Trace spec t (e :: es) (o ++ os) t''

/-- An invariant that every step keeps holds at the end of every run; by induction on the run. -/
theorem Trace.inv {spec : T → E → List O → T → Prop} {inv : T → Prop}
    (keeps : ∀ {t e o t'}, inv t → spec t e o t' → inv t') {t t' : T} {es : List E} {os : List O}
    (run : Trace spec t es os t') (start : inv t) : inv t' := by
  induction run with
  | nil => exact start
  | cons first _ ih => exact ih (keeps start first)

/-- `step` run over the events in order, with everything the steps return concatenated. -/
def runEvents (step : E → StateT σ (Except ε) (List O)) : List E → StateT σ (Except ε) (List O)
  | [] => pure []
  | e :: es => do
      let seen ← step e
      let later ← runEvents step es
      return seen ++ later

/-- From every state satisfying `inv`, each success of `step` is a step of `spec` between the
abstractions, and it ends in `inv` again. -/
structure Refines (step : E → StateT σ (Except ε) (List O)) (spec : T → E → List O → T → Prop)
    (abs : σ → T) (inv : σ → Prop) : Prop where
  step_spec : ∀ {s : σ} {e : E} {o : List O} {s' : σ}, inv s → step e s = .ok (o, s') → spec (abs s) e o (abs s')
  step_inv : ∀ {s : σ} {e : E} {o : List O} {s' : σ}, inv s → step e s = .ok (o, s') → inv s'

/-- Every success of the code over a list of events is a run of `spec`, and ends in `inv`; by
induction on the events, one step each. -/
theorem Refines.trace {step : E → StateT σ (Except ε) (List O)} {spec : T → E → List O → T → Prop}
    {abs : σ → T} {inv : σ → Prop} (refines : Refines step spec abs inv) :
    ∀ (es : List E) {s : σ} {os : List O} {s' : σ}, inv s → runEvents step es s = .ok (os, s') →
      Trace spec (abs s) es os (abs s') ∧ inv s'
  | [], s, os, s', start, ran => by
      cases ran
      exact ⟨.nil, start⟩
  | e :: es, s, os, s', start, ran => by
      obtain ⟨o, s₁, first, ran⟩ := bind_eq_ok.mp ran
      obtain ⟨later, s₂, rest, ran⟩ := bind_eq_ok.mp ran
      cases ran
      obtain ⟨run, holds⟩ := refines.trace es (refines.step_inv start first) rest
      exact ⟨.cons (refines.step_spec start first) run, holds⟩

/-- When from every state satisfying `inv` a step fails with an `allowed` error only, so does every
run of the code; by induction on the events, the invariant carried by the successful steps. -/
theorem Refines.raises {step : E → StateT σ (Except ε) (List O)} {spec : T → E → List O → T → Prop}
    {abs : σ → T} {inv : σ → Prop} (refines : Refines step spec abs inv) {allowed : ε → Prop}
    (safe : ∀ {s : σ} {e : E} {err : ε}, inv s → step e s = .error err → allowed err) :
    ∀ (es : List E) {s : σ} {err : ε}, inv s → runEvents step es s = .error err → allowed err
  | [], s, err, _, failed => by cases failed
  | e :: es, s, err, start, failed => by
      rcases bind_eq_error.mp failed with early | ⟨o, s₁, first, rest₁⟩
      · exact safe start early
      rcases bind_eq_error.mp rest₁ with early | ⟨later, s₂, -, rest₂⟩
      · exact refines.raises safe es (refines.step_inv start first) early
      · cases rest₂

end Foundation
