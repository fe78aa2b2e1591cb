import Mathlib

/-! # Runs of a partial step function, and one machine simulating another

A step function takes a state and an event to the next state and what the step emits, or to
`none` when the event cannot happen in the state; `Foundation.runSteps` runs it over a list
of events and collects what the steps emit. A map `abs` from the states of one machine to
those of another is a `Foundation.Simulation` under an invariant when, from every state
satisfying it, each step agrees with one step of the other machine and keeps the invariant.
Then whole runs agree (`Foundation.Simulation.run_map`): both succeed or fail together, with
the same output and corresponding final states.
-/

namespace Foundation

variable {S T E O : Type*}

/-- The run of `step` from `s` over `events`: the final state and what the steps emitted, in
order; `none` when some event cannot happen. -/
def runSteps (step : S → E → Option (S × List O)) : S → List E → Option (S × List O)
  | s, [] => some (s, [])
  | s, event :: events => (step s event).bind fun r => (runSteps step r.1 events).map (Prod.map id (r.2 ++ ·))

@[simp] theorem runSteps_nil (step : S → E → Option (S × List O)) (s : S) : runSteps step s [] = some (s, []) :=
  rfl

theorem runSteps_cons (step : S → E → Option (S × List O)) (s : S) (event : E) (events : List E) :
    runSteps step s (event :: events) =
      (step s event).bind fun r => (runSteps step r.1 events).map (Prod.map id (r.2 ++ ·)) :=
  rfl

/-- `abs` takes the steps of `step` from states satisfying `inv` to steps of `spec`, and the
steps keep `inv`. -/
structure Simulation (step : S → E → Option (S × List O)) (spec : T → E → Option (T × List O))
    (abs : S → T) (inv : S → Prop) : Prop where
  step_map : ∀ {s : S} (event : E), inv s → (step s event).map (Prod.map abs id) = spec (abs s) event
  step_inv : ∀ {s : S} {event : E} {r : S × List O}, inv s → step s event = some r → inv r.1

namespace Simulation

variable {step : S → E → Option (S × List O)} {spec : T → E → Option (T × List O)} {abs : S → T}
  {inv : S → Prop}

/-- Whole runs from a state satisfying the invariant agree; by induction on the events, one
step each. -/
theorem run_map (sim : Simulation step spec abs inv) :
    ∀ (events : List E) {s : S}, inv s → (runSteps step s events).map (Prod.map abs id) = runSteps spec (abs s) events
  | [], s, _ => rfl
  | event :: events, s, holds => by
      have first := sim.step_map event holds
      rw [runSteps_cons, runSteps_cons, ← first]
      cases stepped : step s event with
      | none => rfl
      | some r =>
          rw [Option.bind_some, Option.map_some, Option.bind_some, Prod.map_fst,
            ← run_map sim events (sim.step_inv holds stepped), Option.map_map, Option.map_map]
          rfl

/-- The invariant holds at the end of every run that starts in it. -/
theorem run_inv (sim : Simulation step spec abs inv) :
    ∀ (events : List E) {s : S} {r : S × List O}, inv s → runSteps step s events = some r → inv r.1
  | [], s, r, holds, ran => by
      cases ran
      exact holds
  | event :: events, s, r, holds, ran => by
      rw [runSteps_cons] at ran
      obtain ⟨r', stepped, rest⟩ := Option.bind_eq_some_iff.mp ran
      obtain ⟨r'', ran', rfl⟩ := Option.map_eq_some_iff.mp rest
      exact run_inv sim events (r := r'') (sim.step_inv holds stepped) ran'

end Simulation

end Foundation
