import RCore.Task.Manager

/-! # Stride passes over whole runs

Over unbounded passes the stride scheduler keeps every scheduled task's pass within
`BIG_STRIDE / 2` of every other's, provided priorities are at least 2
(`RCore.Scheduler.passWindow_runWith`); every fetch then takes a task of smallest pass
and advances it by exactly `BIG_STRIDE / priority` (`RCore.Scheduler.fetch_keeps_pass_window`).
That advance is zero for the priorities above `BIG_STRIDE` that `sys_set_priority`
also accepts (`RCore.Scheduler.fetch_leaves_pass_of_huge_priority`).

The code's passes are `usize` and wrap. Two tasks of priority 2 alternating from pass 0
keep the two definitions in step for `2 ^ 21` rounds (`RCore.Scheduler.runWith_rounds`);
in the next round the first task's pass wraps to a small value and the code's `fetch`
picks it again where the unbounded `fetch` picks the other task
(`RCore.Scheduler.fetch_trace_diverges_after_wrap`).
-/

namespace RCore

namespace Scheduler

/-- Every two tasks the scheduler holds have passes within `BIG_STRIDE / 2` of each other. -/
def PassWindow (s : Scheduler) : Prop :=
  ∀ t ∈ s.tasks, ∀ u ∈ s.tasks, s.pass t ≤ s.pass u + bigStride / 2

/-- Every task the scheduler holds has a priority that `sys_set_priority` accepts. -/
def PriorityAtLeastTwo (s : Scheduler) : Prop :=
  ∀ t ∈ s.tasks, 2 ≤ s.priority t

instance (s : Scheduler) : Decidable s.PassWindow :=
  inferInstanceAs (Decidable (∀ t ∈ s.tasks, ∀ u ∈ s.tasks, s.pass t ≤ s.pass u + bigStride / 2))

instance (s : Scheduler) : Decidable s.PriorityAtLeastTwo :=
  inferInstanceAs (Decidable (∀ t ∈ s.tasks, 2 ≤ s.priority t))

/-- Two ready tasks `0` and `1` of priority 2, queued in this order, with passes `first`
and `second`. -/
def pairState (first second : Nat) : Scheduler :=
  ⟨⟨[0, 1]⟩, none, fun t => if t = 0 then first else if t = 1 then second else 0, fun _ => 2⟩

variable {advance : Nat → Nat → Nat} {s next : Scheduler}

theorem stepWith_fetch_eq_some {task : Nat} (stepped : s.stepWith advance .fetch = some (next, some task)) :
    s.current = none ∧ next.current = some task ∧ next.priority = s.priority ∧
      s.manager.fetchWith advance s.pass s.priority = some (task, next.manager, next.pass) := by
  cases current : s.current with
  | some running => simp [stepWith, current] at stepped
  | none =>
      cases fetched : s.manager.fetchWith advance s.pass s.priority with
      | none => simp [stepWith, current, fetched] at stepped
      | some result =>
          obtain ⟨fetchedTask, manager, pass⟩ := result
          simp only [stepWith, current, fetched, Option.isSome_none, Bool.false_eq_true,
            ↓reduceIte, Option.some.injEq, Prod.mk.injEq] at stepped
          obtain ⟨rfl, rfl⟩ := stepped
          exact ⟨rfl, rfl, rfl, rfl⟩

theorem stepWith_fetch_eq_some_none (stepped : s.stepWith advance .fetch = some (next, none)) :
    next = s := by
  cases current : s.current with
  | some running => simp [stepWith, current] at stepped
  | none =>
      cases fetched : s.manager.fetchWith advance s.pass s.priority with
      | none =>
          simp only [stepWith, current, fetched, Option.isSome_none, Bool.false_eq_true,
            ↓reduceIte, Option.some.injEq, Prod.mk.injEq] at stepped
          exact stepped.1.symm
      | some result => simp [stepWith, current, fetched] at stepped

theorem stepWith_suspend_eq_some {fetched : Option Nat}
    (stepped : s.stepWith advance .suspend = some (next, fetched)) :
    ∃ task, s.current = some task ∧ fetched = none ∧
      next = { s with manager := s.manager.add task, current := none } := by
  cases current : s.current with
  | none => simp [stepWith, current] at stepped
  | some task =>
      simp only [stepWith, current, Option.some.injEq, Prod.mk.injEq] at stepped
      exact ⟨task, rfl, stepped.2.symm, stepped.1.symm⟩

theorem stepWith_exit_eq_some {fetched : Option Nat}
    (stepped : s.stepWith advance .exit = some (next, fetched)) :
    ∃ task, s.current = some task ∧ fetched = none ∧ next = { s with current := none } := by
  cases current : s.current with
  | none => simp [stepWith, current] at stepped
  | some task =>
      simp only [stepWith, current, Option.some.injEq, Prod.mk.injEq] at stepped
      exact ⟨task, rfl, stepped.2.symm, stepped.1.symm⟩

/-- A step only drops tasks or moves them between the queue and the processor. -/
theorem tasks_stepWith {event : SchedEvent} {fetched : Option Nat}
    (stepped : s.stepWith advance event = some (next, fetched)) :
    (∀ t ∈ next.tasks, t ∈ s.tasks) ∧ next.priority = s.priority := by
  cases event with
  | fetch =>
      cases fetched with
      | none =>
          rw [stepWith_fetch_eq_some_none stepped]
          exact ⟨fun t member => member, rfl⟩
      | some task =>
          obtain ⟨idle, current, priority, fetchedEq⟩ := stepWith_fetch_eq_some stepped
          obtain ⟨queued, rest⟩ := TaskManager.fetchWith_mem fetchedEq
          refine ⟨?_, priority⟩
          intro t member
          simp only [tasks, current, idle, Option.toList_some, Option.toList_none, List.append_nil,
            List.mem_append, List.mem_singleton] at member ⊢
          rcases member with queuedNow | rfl
          · exact rest t queuedNow
          · exact queued
  | suspend =>
      obtain ⟨task, current, -, rfl⟩ := stepWith_suspend_eq_some stepped
      refine ⟨?_, rfl⟩
      intro t member
      simpa [tasks, current, TaskManager.add] using member
  | exit =>
      obtain ⟨task, current, -, rfl⟩ := stepWith_exit_eq_some stepped
      refine ⟨?_, rfl⟩
      intro t member
      simp only [tasks, current, Option.toList_none, List.append_nil, Option.toList_some,
        List.mem_append] at member ⊢
      exact Or.inl member

/-- The stride of a task whose priority is at least 2 is at most `BIG_STRIDE / 2`. -/
theorem stride_le_half {priority : Nat} (accepted : 2 ≤ priority) :
    bigStride / priority ≤ bigStride / 2 :=
  Nat.div_le_div_left accepted (by decide)

/-- A fetch over unbounded passes keeps the window: the fetched task had the smallest
pass, and it moves up by at most `BIG_STRIDE / 2`. -/
theorem passWindow_fetch {task : Nat} (window : s.PassWindow) (priorities : s.PriorityAtLeastTwo)
    (stepped : s.stepWith (· + ·) .fetch = some (next, some task)) : next.PassWindow := by
  obtain ⟨idle, current, priority, fetched⟩ := stepWith_fetch_eq_some stepped
  obtain ⟨queued, rest⟩ := TaskManager.fetchWith_mem fetched
  obtain ⟨-, -, -, -, passEq⟩ := TaskManager.fetchWith_eq_some fetched
  have held : ∀ t, t ∈ s.tasks ↔ t ∈ s.manager.readyQueue := by
    intro t
    simp [tasks, idle]
  have nextHeld : ∀ t ∈ next.tasks, t ∈ s.tasks := (tasks_stepWith stepped).1
  have least : ∀ u ∈ s.tasks, s.pass task ≤ s.pass u := fun u member =>
    TaskManager.fetchWith_pass_le fetched ((held u).mp member)
  have taskHeld : task ∈ s.tasks := (held task).mpr queued
  have small := stride_le_half (priorities task taskHeld)
  intro t tHeld u uHeld
  have tOld := nextHeld t tHeld
  have uOld := nextHeld u uHeld
  rw [passEq]
  -- only the fetched task's pass moved; compare each side with it
  by_cases tFetched : t = task <;> by_cases uFetched : u = task
  · subst t u
    omega
  · subst t
    simp only [Function.update_self, Function.update_of_ne uFetched]
    have := least u uOld
    omega
  · subst u
    simp only [Function.update_self, Function.update_of_ne tFetched]
    have := window t tOld task taskHeld
    have := Nat.zero_le (bigStride / s.priority task)
    omega
  · simp only [Function.update_of_ne tFetched, Function.update_of_ne uFetched]
    exact window t tOld u uOld

/-- Every event keeps the window and the priorities, over unbounded passes. -/
theorem passWindow_stepWith {event : SchedEvent} {fetched : Option Nat} (window : s.PassWindow)
    (priorities : s.PriorityAtLeastTwo) (stepped : s.stepWith (· + ·) event = some (next, fetched)) :
    next.PassWindow ∧ next.PriorityAtLeastTwo := by
  obtain ⟨nextHeld, samePriority⟩ := tasks_stepWith stepped
  have nextPriorities : next.PriorityAtLeastTwo := fun t member => by
    rw [samePriority]
    exact priorities t (nextHeld t member)
  refine ⟨?_, nextPriorities⟩
  cases event with
  | fetch =>
      cases fetched with
      | none =>
          -- an empty queue leaves the state as it was
          rw [stepWith_fetch_eq_some_none stepped]
          exact window
      | some task => exact passWindow_fetch window priorities stepped
  | suspend =>
      -- the passes are untouched and no task is added
      obtain ⟨task, -, -, rfl⟩ := stepWith_suspend_eq_some stepped
      intro t tHeld u uHeld
      exact window t (nextHeld t tHeld) u (nextHeld u uHeld)
  | exit =>
      obtain ⟨task, -, -, rfl⟩ := stepWith_exit_eq_some stepped
      intro t tHeld u uHeld
      exact window t (nextHeld t tHeld) u (nextHeld u uHeld)

/-- The window and the priorities hold along every run over unbounded passes. -/
theorem passWindow_runWith {events : List SchedEvent} {final : Scheduler} {trace : List Nat}
    (window : s.PassWindow) (priorities : s.PriorityAtLeastTwo)
    (ran : s.runWith (· + ·) events = some (final, trace)) :
    final.PassWindow ∧ final.PriorityAtLeastTwo := by
  induction events generalizing s trace with
  | nil =>
      simp only [runWith, Option.some.injEq, Prod.mk.injEq] at ran
      obtain ⟨rfl, -⟩ := ran
      exact ⟨window, priorities⟩
  | cons event rest ih =>
      unfold runWith at ran
      split at ran
      case h_1 => cases ran
      case h_2 next fetched stepped =>
        obtain ⟨⟨tailFinal, tailTrace⟩, tailRan, same⟩ := Option.map_eq_some_iff.mp ran
        simp only [Prod.mk.injEq] at same
        obtain ⟨rfl, -⟩ := same
        obtain ⟨nextWindow, nextPriorities⟩ := passWindow_stepWith window priorities stepped
        exact ih nextWindow nextPriorities tailRan

/-- **Stride over unbounded passes.** Along any run of `fetch`, `suspend` and `exit` that
starts with every pass within `BIG_STRIDE / 2` of every other and every priority at least
2, each fetch takes a task of smallest pass among those scheduled, advances its pass by
exactly `BIG_STRIDE / priority`, and leaves the passes within `BIG_STRIDE / 2` again. -/
theorem fetch_keeps_pass_window {events : List SchedEvent} {middle : Scheduler}
    {trace : List Nat} {task : Nat} (window : s.PassWindow) (priorities : s.PriorityAtLeastTwo)
    (reached : s.runWith (· + ·) events = some (middle, trace))
    (fetched : middle.stepWith (· + ·) .fetch = some (next, some task)) :
    (∀ other ∈ middle.tasks, middle.pass task ≤ middle.pass other) ∧
      next.pass task = middle.pass task + bigStride / middle.priority task ∧
      next.PassWindow := by
  obtain ⟨middleWindow, middlePriorities⟩ := passWindow_runWith window priorities reached
  obtain ⟨idle, -, -, fetchedEq⟩ := stepWith_fetch_eq_some fetched
  obtain ⟨-, -, -, -, passEq⟩ := TaskManager.fetchWith_eq_some fetchedEq
  refine ⟨?_, ?_, passWindow_fetch middleWindow middlePriorities fetched⟩
  · intro other member
    have queued : other ∈ middle.manager.readyQueue := by
      simpa [tasks, idle] using member
    exact TaskManager.fetchWith_pass_le fetchedEq queued
  · rw [passEq, Function.update_self]

/-- The first fetch of two tasks of priority 2 at pass 0 takes task `0` and keeps the window. -/
theorem pairState_fetch_keeps_pass_window :
    (∀ other ∈ (pairState 0 0).tasks, (pairState 0 0).pass 0 ≤ (pairState 0 0).pass other) ∧
      Function.update (pairState 0 0).pass 0 (0 + bigStride / 2) 0 =
        (pairState 0 0).pass 0 + bigStride / (pairState 0 0).priority 0 ∧
      PassWindow ⟨⟨[1]⟩, some 0, Function.update (pairState 0 0).pass 0 (0 + bigStride / 2),
        fun _ => 2⟩ :=
  fetch_keeps_pass_window (by decide) (by decide) (rfl : (pairState 0 0).runWith (· + ·) [] = _) rfl

/-- `sys_set_priority` accepts any priority from 2 to `isize::MAX`; above `BIG_STRIDE` the
stride is zero and the fetched task's pass does not move. -/
theorem fetch_leaves_pass_of_huge_priority :
    let s : Scheduler := ⟨⟨[0]⟩, none, fun _ => 0, fun _ => 2 ^ 44⟩
    2 ≤ s.priority 0 ∧ s.priority 0 ≤ isizeMax ∧ s.PassWindow ∧
      ∃ next, s.stepWith (· + ·) .fetch = some (next, some 0) ∧ next.pass 0 = s.pass 0 := by
  intro s
  refine ⟨by decide, by decide, ?_, ?_⟩
  · intro t _ u _
    exact Nat.zero_le _
  · refine ⟨⟨⟨[]⟩, some 0, Function.update (fun _ => 0) 0 (0 + bigStride / 2 ^ 44),
      fun _ => 2 ^ 44⟩, rfl, ?_⟩
    simp [bigStride_eq, s]

/-- One round: each task of the pair is fetched and put back. -/
def round : List SchedEvent := [.fetch, .suspend, .fetch, .suspend]

/-- `k` rounds. -/
def rounds (k : Nat) : List SchedEvent := (List.replicate k round).flatten

/-- A round from equal passes `a` fetches task `0`, then task `1`, and advances both by the
stride of priority 2, as long as that advance does not wrap. -/
theorem runWith_round {a : Nat} (exact : advance a (bigStride / 2) = a + bigStride / 2) :
    (pairState a a).runWith advance round =
      some (pairState (a + bigStride / 2) (a + bigStride / 2), [0, 1]) := by
  have tie : ¬(a > a) := lt_irrefl a
  have ahead : ¬(a > a + bigStride / 2) := by omega
  simp only [round, runWith, stepWith, pairState, TaskManager.fetchWith_pair, TaskManager.add,
    Option.isSome_none, Bool.false_eq_true, ↓reduceIte, tie, List.cons_append, List.nil_append,
    ite_self, Function.update_self, Function.update_of_ne Nat.one_ne_zero, exact, ahead]
  simp only [Option.map_some, Option.toList_some, Option.toList_none, List.nil_append,
    List.cons_append, Option.some.injEq, Prod.mk.injEq, and_true]
  -- the two updates give both tasks the advanced pass
  congr 1
  funext t
  by_cases one : t = 1
  · subst one
    simp
  · by_cases zero : t = 0
    · subst zero
      simp
    · simp [zero, one]

/-- While no pass leaves the range where `advance` adds exactly, `k` rounds from passes 0
advance both tasks by `k` strides and fetch `0, 1` in every round. -/
theorem runWith_rounds (k : Nat)
    (exact : ∀ j < k, advance (j * (bigStride / 2)) (bigStride / 2) = j * (bigStride / 2) + bigStride / 2) :
    (pairState 0 0).runWith advance (rounds k) =
      some (pairState (k * (bigStride / 2)) (k * (bigStride / 2)), (List.replicate k [0, 1]).flatten) := by
  induction k with
  | zero => rfl
  | succ k ih =>
      have earlier : ∀ j < k, advance (j * (bigStride / 2)) (bigStride / 2) =
          j * (bigStride / 2) + bigStride / 2 := fun j below => exact j (by omega)
      rw [rounds, List.replicate_succ', List.flatten_append, List.flatten_singleton, runWith_append,
        ← rounds, ih earlier, Option.bind_some]
      dsimp only
      rw [runWith_round (exact k (by omega)), Option.map_some, List.replicate_succ',
        List.flatten_append, List.flatten_singleton, Nat.succ_mul]

/-- The run of `2 ^ 21` rounds followed by the fetch at which the pass of task `0` has
wrapped. -/
def wrapEvents : List SchedEvent := rounds (2 ^ 21) ++ [.fetch, .suspend, .fetch]

/-- **Stride with wrapping passes.** From two tasks of priority 2 at pass 0, the code's
`fetch` and the unbounded `fetch` return the same tasks for `2 ^ 21` rounds; then the pass of
task `0` wraps past `usize::MAX`, and at the next fetch the code takes task `0` again where
the unbounded passes take task `1`. -/
theorem fetch_trace_diverges_after_wrap :
    ((pairState 0 0).runWith wrappingAdd wrapEvents).map Prod.snd ≠
      ((pairState 0 0).runWith (· + ·) wrapEvents).map Prod.snd := by
  have half : bigStride / 2 = 8796093022207 := by decide
  have noWrap : ∀ j < 2 ^ 21, wrappingAdd (j * (bigStride / 2)) (bigStride / 2) =
      j * (bigStride / 2) + bigStride / 2 := by
    intro j below
    apply wrappingAdd_of_lt
    rw [half]
    omega
  have wrapped : Option.map Prod.snd ((pairState (2 ^ 21 * (bigStride / 2))
      (2 ^ 21 * (bigStride / 2))).runWith wrappingAdd [.fetch, .suspend, .fetch]) = some [0, 0] := by
    decide
  have unbounded : Option.map Prod.snd ((pairState (2 ^ 21 * (bigStride / 2))
      (2 ^ 21 * (bigStride / 2))).runWith (· + ·) [.fetch, .suspend, .fetch]) = some [0, 1] := by
    decide
  rw [wrapEvents, runWith_append, runWith_append, runWith_rounds _ noWrap,
    runWith_rounds _ fun j _ => rfl, Option.bind_some, Option.bind_some]
  obtain ⟨⟨finalWrapped, traceWrapped⟩, tailWrapped, rfl⟩ := Option.map_eq_some_iff.mp wrapped
  obtain ⟨⟨finalUnbounded, traceUnbounded⟩, tailUnbounded, rfl⟩ :=
    Option.map_eq_some_iff.mp unbounded
  dsimp only
  rw [tailWrapped, tailUnbounded]
  simp only [Option.map_some, ne_eq, Option.some.injEq]
  intro same
  exact absurd (List.append_cancel_left same) (by decide)

end Scheduler

end RCore
