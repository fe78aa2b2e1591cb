import RCore.Task.Stride
import RCore.Foundation.Simulation

/-! # Stride with equal priorities is the FIFO scheduler

os5-ref's `TaskManager` (`os5-ref/src/task/manager.rs`) is the FIFO queue the stride
scheduler replaced: `fetch` is `pop_front`. The runs compared here are those of `run_tasks`,
`suspend_current_and_run_next`, `exit_current_and_run_next` and `sys_fork`
(`RCore.ForkEvent`), whose child inherits its parent's pass and priority
(`TaskControlBlock::fork`) and goes to the back of the queue.

When every task has priority `p` and the passes of the queue, followed by the current task,
increase and span at most one stride `BIG_STRIDE / p` (`RCore.Scheduler.Aligned`), the task of
smallest pass that `fetch` finds first is the front one, and each step keeps that arrangement:
a fetched task is the first of the list and goes to its end with a pass one stride larger, a
suspended task stays where it is, and a forked child takes its parent's pass just before it.
Over unbounded passes the stride scheduler then simulates the FIFO one
(`RCore.Scheduler.fetch_agrees_with_fifo`).
-/

namespace RCore

open Foundation

/-- The events of a run with `sys_fork`: those of the scheduler, and `sys_fork` by the current
task of a new task `child`. -/
inductive ForkEvent where
  | sched (event : SchedEvent)
  | fork (child : Nat)
deriving DecidableEq, Repr

namespace TaskManager

/-- os5-ref's `TaskManager::fetch`: `pop_front`. -/
def fetchFifo (manager : TaskManager) : Option (Nat × TaskManager) :=
  match manager.readyQueue with
  | [] => none
  | task :: rest => some (task, ⟨rest⟩)

end TaskManager

/-- The scheduling state of os5-ref: its FIFO `TaskManager` and `PROCESSOR.current`. -/
structure FifoScheduler where
  manager : TaskManager
  current : Option Nat
deriving DecidableEq, Repr

namespace FifoScheduler

/-- The tasks os5-ref's scheduler holds: the ready queue, then the current task. -/
def tasks (s : FifoScheduler) : List Nat := s.manager.readyQueue ++ s.current.toList

/-- One event of os5-ref, with the task fetched. `sys_fork` needs a current task, and its
child is a new task control block, never one the scheduler holds. -/
def step (s : FifoScheduler) : ForkEvent → Option (FifoScheduler × List Nat)
  | .sched .fetch =>
      if s.current.isSome then none
      else
        match s.manager.fetchFifo with
        | none => some (s, [])
        | some (task, manager) => some (⟨manager, some task⟩, [task])
  | .sched .suspend =>
      match s.current with
      | none => none
      | some task => some (⟨s.manager.add task, none⟩, [])
  | .sched .exit =>
      match s.current with
      | none => none
      | some _ => some (⟨s.manager, none⟩, [])
  | .fork child =>
      match s.current with
      | none => none
      | some _ => if child ∈ s.tasks then none else some (⟨s.manager.add child, s.current⟩, [])

end FifoScheduler

namespace Scheduler

/-- `sys_fork` by the current task: the child, a task control block the scheduler does not
hold yet, takes the parent's `pass` and `priority` and is added to the ready queue. -/
def fork (s : Scheduler) (child : Nat) : Option Scheduler :=
  match s.current with
  | none => none
  | some parent =>
      if child ∈ s.tasks then none
      else
        some { s with
          manager := s.manager.add child
          pass := Function.update s.pass child (s.pass parent)
          priority := Function.update s.priority child (s.priority parent) }

/-- One event of os5 with the pass addition `advance`, with the task fetched. -/
def stepFork (advance : Nat → Nat → Nat) (s : Scheduler) : ForkEvent → Option (Scheduler × List Nat)
  | .sched event => (s.stepWith advance event).map (Prod.map id Option.toList)
  | .fork child => (s.fork child).map (·, [])

/-- The state os5-ref's scheduler would be in: the same queue and current task. -/
def toFifo (s : Scheduler) : FifoScheduler := ⟨s.manager, s.current⟩

/-- The passes of the tasks the scheduler holds, queue first. -/
def passes (s : Scheduler) : List Nat := s.tasks.map s.pass

end Scheduler

section Window

/-- A list of passes in increasing order whose largest exceeds its smallest by at most `d`. -/
def SortedWithin (d : Nat) (l : List Nat) : Prop :=
  l.Pairwise (· ≤ ·) ∧ ∀ a ∈ l, ∀ b ∈ l, b ≤ a + d

variable {d x y : Nat} {xs ys : List Nat}

/-- The first pass moved to the end, one stride larger, as `fetch` and a later return to the
queue do to it. -/
theorem SortedWithin.rotate (window : SortedWithin d (x :: xs)) : SortedWithin d (xs ++ [x + d]) := by
  obtain ⟨sorted, span⟩ := window
  have first : ∀ a ∈ xs, x ≤ a := fun a member => List.rel_of_pairwise_cons sorted member
  have last : ∀ a ∈ xs, a ≤ x + d := fun a member => span x List.mem_cons_self a (List.mem_cons_of_mem _ member)
  refine ⟨List.pairwise_append.mpr ⟨sorted.of_cons, List.pairwise_singleton _ _, ?_⟩, ?_⟩
  · intro a member b same
    rw [List.mem_singleton.mp same]
    exact last a member
  · intro a memberA b memberB
    rcases List.mem_append.mp memberA with inA | endA <;> rcases List.mem_append.mp memberB with inB | endB
    · exact span a (List.mem_cons_of_mem _ inA) b (List.mem_cons_of_mem _ inB)
    · rw [List.mem_singleton.mp endB]
      have := first a inA
      omega
    · rw [List.mem_singleton.mp endA]
      have := last b inB
      omega
    · rw [List.mem_singleton.mp endA, List.mem_singleton.mp endB]
      omega

/-- The last pass repeated, as a forked child takes its running parent's pass. -/
theorem SortedWithin.dup_last (window : SortedWithin d (ys ++ [y])) : SortedWithin d (ys ++ [y, y]) := by
  obtain ⟨sorted, span⟩ := window
  have below : ∀ a ∈ ys, a ≤ y := fun a member => (List.pairwise_append.mp sorted).2.2 a member y List.mem_cons_self
  -- a repeated pass adds nothing to the span
  have same : ∀ a, a ∈ ys ++ [y, y] ↔ a ∈ ys ++ [y] := by
    intro a
    simp only [List.mem_append, List.mem_cons, List.not_mem_nil, or_false, or_self]
  refine ⟨List.pairwise_append.mpr ⟨(List.pairwise_append.mp sorted).1, by simp, ?_⟩, ?_⟩
  · intro a member b last
    rw [show b = y by simpa using last]
    exact below a member
  · intro a memberA b memberB
    exact span a ((same a).mp memberA) b ((same b).mp memberB)

theorem SortedWithin.sublist (window : SortedWithin d xs) (sub : ys.Sublist xs) : SortedWithin d ys :=
  ⟨window.1.sublist sub, fun a memberA b memberB => window.2 a (sub.subset memberA) b (sub.subset memberB)⟩

end Window

namespace Scheduler

/-- Every task the scheduler holds has priority `p`, each once, and their passes, queue first
and then the current task, increase and span at most one stride. -/
structure Aligned (p : Nat) (s : Scheduler) : Prop where
  nodup : s.tasks.Nodup
  priority_eq : ∀ t ∈ s.tasks, s.priority t = p
  window : SortedWithin (bigStride / p) s.passes

instance (p : Nat) (s : Scheduler) : Decidable (s.Aligned p) :=
  decidable_of_iff (s.tasks.Nodup ∧ (∀ t ∈ s.tasks, s.priority t = p) ∧
      (s.passes.Pairwise (· ≤ ·) ∧ ∀ a ∈ s.passes, ∀ b ∈ s.passes, b ≤ a + bigStride / p))
    ⟨fun ⟨nodup, priority_eq, window⟩ => ⟨nodup, priority_eq, window⟩,
      fun ⟨nodup, priority_eq, window⟩ => ⟨nodup, priority_eq, window⟩⟩

variable {p : Nat} {s : Scheduler}

/-- With no task current and a queue in pass order, `fetch` takes the front task and makes it
current, as `pop_front` does, and the arrangement is kept: the fetched task, now last, has the
largest pass, one stride above its old one. -/
theorem Aligned.fetch (aligned : s.Aligned p) (idle : s.current = none) {task : Nat} {rest : List Nat}
    (queue : s.manager.readyQueue = task :: rest) :
    ∃ next, s.stepFork (· + ·) (.sched .fetch) = some (next, [task]) ∧
      next.toFifo = ⟨⟨rest⟩, some task⟩ ∧ next.Aligned p := by
  have tasks : s.tasks = task :: rest := by rw [Scheduler.tasks, queue, idle, Option.toList_none, List.append_nil]
  have sorted : (s.manager.readyQueue.map s.pass).Pairwise (· ≤ ·) := by
    have := aligned.window.1
    rwa [passes, tasks, ← queue] at this
  have front := Foundation.firstMinPos_eq_zero_of_pairwise sorted
  have priority : s.priority task = p := aligned.priority_eq task (by rw [tasks]; exact List.mem_cons_self)
  have fresh : task ∉ rest := (List.nodup_cons.mp (tasks ▸ aligned.nodup)).1
  obtain ⟨moved, moved_eq⟩ : ∃ f, f = Function.update s.pass task (s.pass task + bigStride / p) := ⟨_, rfl⟩
  have fetched : s.manager.fetchWith (· + ·) s.pass s.priority = some (task, ⟨rest⟩, moved) := by
    unfold TaskManager.fetchWith
    rw [front, queue]
    simp only [List.isEmpty_cons, Bool.false_eq_true, ↓reduceIte, List.getD_cons_zero, List.eraseIdx_cons_zero,
      priority, moved_eq]
  refine ⟨{ s with manager := ⟨rest⟩, current := some task, pass := moved }, ?_, rfl, ?_, ?_, ?_⟩
  · rw [stepFork, stepWith, idle]
    simp only [Option.isSome_none, Bool.false_eq_true, ↓reduceIte, fetched]
    rfl
  · -- the tasks are rotated: the front one is now current
    show (rest ++ [task]).Nodup
    exact (List.perm_append_singleton task rest).nodup_iff.mpr (tasks ▸ aligned.nodup)
  · intro t member
    exact aligned.priority_eq t (by
      rw [tasks]
      simpa [Scheduler.tasks, or_comm] using member)
  · have rotated : SortedWithin (bigStride / p) (rest.map s.pass ++ [s.pass task + bigStride / p]) :=
      SortedWithin.rotate (by have := aligned.window; rwa [passes, tasks, List.map_cons] at this)
    show SortedWithin (bigStride / p) ((rest ++ [task]).map moved)
    rw [List.map_append, List.map_singleton, moved_eq, Function.update_self]
    rwa [List.map_congr_left fun t member => Function.update_of_ne (ne_of_mem_of_not_mem member fresh) _ _]

/-- A state that holds some of the tasks of an aligned one, in the same order and with the same
passes and priorities, is aligned: as after `suspend`, which leaves the list of tasks as it
was, and after `exit`, which drops its last task. -/
theorem Aligned.of_sublist {s' : Scheduler} (aligned : s.Aligned p) (sub : s'.tasks.Sublist s.tasks)
    (pass : s'.pass = s.pass) (priority : s'.priority = s.priority) : s'.Aligned p where
  nodup := aligned.nodup.sublist sub
  priority_eq t member := priority ▸ aligned.priority_eq t (sub.subset member)
  window := by
    rw [passes, pass]
    exact aligned.window.sublist (sub.map s.pass)

/-- `sys_fork` keeps the arrangement: the child takes its parent's pass just before it. -/
theorem Aligned.fork (aligned : s.Aligned p) {parent child : Nat} (running : s.current = some parent)
    (fresh : child ∉ s.tasks) :
    s.fork child = some { s with
        manager := s.manager.add child
        pass := Function.update s.pass child (s.pass parent)
        priority := Function.update s.priority child (s.priority parent) } ∧
      ({ s with
        manager := s.manager.add child
        pass := Function.update s.pass child (s.pass parent)
        priority := Function.update s.priority child (s.priority parent) } : Scheduler).Aligned p := by
  have tasks : s.tasks = s.manager.readyQueue ++ [parent] := by rw [Scheduler.tasks, running, Option.toList_some]
  have parentHeld : parent ∈ s.tasks := by rw [tasks]; simp
  have other : ∀ t ∈ s.tasks, t ≠ child := fun t member same => fresh (same ▸ member)
  have forkedTasks : ({ s with
      manager := s.manager.add child
      pass := Function.update s.pass child (s.pass parent)
      priority := Function.update s.priority child (s.priority parent) } : Scheduler).tasks =
        s.manager.readyQueue ++ [child] ++ [parent] := by
    rw [Scheduler.tasks, running]
    rfl
  refine ⟨by rw [Scheduler.fork, running]; exact if_neg fresh, ?_, ?_, ?_⟩
  · -- the child is new, the other tasks keep their order
    rw [forkedTasks, List.append_assoc, List.singleton_append, List.perm_middle.nodup_iff, List.nodup_cons, ← tasks]
    exact ⟨fresh, aligned.nodup⟩
  · intro t member
    rw [forkedTasks] at member
    dsimp only
    by_cases isChild : t = child
    · rw [isChild, Function.update_self]
      exact aligned.priority_eq parent parentHeld
    · rw [Function.update_of_ne isChild]
      refine aligned.priority_eq t ?_
      rw [tasks]
      simp only [List.mem_append, List.mem_singleton] at member ⊢
      tauto
  · have window := aligned.window
    rw [passes, tasks, List.map_append, List.map_singleton] at window
    have queued : ∀ t ∈ s.manager.readyQueue, Function.update s.pass child (s.pass parent) t = s.pass t :=
      fun t member => Function.update_of_ne (other t (by rw [tasks]; exact List.mem_append_left _ member)) _ _
    rw [passes, forkedTasks]
    dsimp only
    rw [List.map_append, List.map_append, List.map_congr_left queued, List.map_singleton, List.map_singleton,
      Function.update_self, Function.update_of_ne (other parent parentHeld), List.append_assoc]
    exact window.dup_last

/-- From an aligned state each event of os5, over unbounded passes, is the same event of
os5-ref on the same queue, and the state stays aligned. -/
theorem Aligned.step (aligned : s.Aligned p) (event : ForkEvent) :
    (s.stepFork (· + ·) event).map (Prod.map toFifo id) = s.toFifo.step event ∧
      ∀ r, s.stepFork (· + ·) event = some r → r.1.Aligned p := by
  cases event with
  | sched event =>
      cases event with
      | fetch =>
          cases running : s.current with
          | some task =>
              have none : s.stepFork (· + ·) (.sched .fetch) = none := by
                simp [stepFork, stepWith, running]
              refine ⟨by rw [none]; simp [toFifo, FifoScheduler.step, running], fun r ran => ?_⟩
              rw [none] at ran
              cases ran
          | none =>
              cases queue : s.manager.readyQueue with
              | nil =>
                  have empty : s.stepFork (· + ·) (.sched .fetch) = some (s, []) := by
                    simp [stepFork, stepWith, running, TaskManager.fetchWith, queue]
                  refine ⟨?_, fun r ran => ?_⟩
                  · rw [empty]
                    simp [toFifo, FifoScheduler.step, running, TaskManager.fetchFifo, queue]
                  · rw [empty] at ran
                    cases ran
                    exact aligned
              | cons task rest =>
                  obtain ⟨next, fetched, fifo, aligned'⟩ := aligned.fetch running queue
                  refine ⟨?_, fun r ran => ?_⟩
                  · rw [fetched, Option.map_some, Prod.map, fifo]
                    simp [toFifo, FifoScheduler.step, running, TaskManager.fetchFifo, queue]
                  · rw [fetched] at ran
                    cases ran
                    exact aligned'
      | suspend =>
          cases running : s.current with
          | none =>
              have none : s.stepFork (· + ·) (.sched .suspend) = none := by simp [stepFork, stepWith, running]
              refine ⟨by rw [none]; simp [toFifo, FifoScheduler.step, running], fun r ran => ?_⟩
              rw [none] at ran
              cases ran
          | some task =>
              have suspended : s.stepFork (· + ·) (.sched .suspend) =
                  some ({ s with manager := s.manager.add task, current := none }, []) := by
                simp [stepFork, stepWith, running]
              refine ⟨by rw [suspended]; simp [toFifo, FifoScheduler.step, running], fun r ran => ?_⟩
              rw [suspended] at ran
              cases ran
              -- the task goes from the processor to the back of the queue: the list is the same
              refine aligned.of_sublist ?_ rfl rfl
              simp [Scheduler.tasks, running, TaskManager.add]
      | exit =>
          cases running : s.current with
          | none =>
              have none : s.stepFork (· + ·) (.sched .exit) = none := by simp [stepFork, stepWith, running]
              refine ⟨by rw [none]; simp [toFifo, FifoScheduler.step, running], fun r ran => ?_⟩
              rw [none] at ran
              cases ran
          | some task =>
              have exited : s.stepFork (· + ·) (.sched .exit) = some ({ s with current := none }, []) := by
                simp [stepFork, stepWith, running]
              refine ⟨by rw [exited]; simp [toFifo, FifoScheduler.step, running], fun r ran => ?_⟩
              rw [exited] at ran
              cases ran
              refine aligned.of_sublist ?_ rfl rfl
              simp [Scheduler.tasks, running]
  | fork child =>
      cases running : s.current with
      | none =>
          have none : s.stepFork (· + ·) (.fork child) = none := by simp [stepFork, Scheduler.fork, running]
          refine ⟨by rw [none]; simp [toFifo, FifoScheduler.step, running], fun r ran => ?_⟩
          rw [none] at ran
          cases ran
      | some parent =>
          by_cases held : child ∈ s.tasks
          · have none : s.stepFork (· + ·) (.fork child) = none := by
              simp [stepFork, Scheduler.fork, running, held]
            have fifoHeld : child ∈ (⟨s.manager, some parent⟩ : FifoScheduler).tasks := by
              rw [← running]
              exact held
            refine ⟨by rw [none]; simp [FifoScheduler.step, toFifo, running, fifoHeld], fun r ran => ?_⟩
            rw [none] at ran
            cases ran
          · obtain ⟨forked, aligned'⟩ := aligned.fork running held
            have fifoFresh : child ∉ (⟨s.manager, some parent⟩ : FifoScheduler).tasks := by
              rw [← running]
              exact held
            refine ⟨?_, fun r ran => ?_⟩
            · rw [stepFork, forked, Option.map_some, Option.map_some]
              simp [FifoScheduler.step, toFifo, running, fifoFresh]
            · rw [stepFork, forked, Option.map_some] at ran
              cases ran
              exact aligned'

/-- The alignment makes `toFifo` a simulation of os5-ref by os5. -/
theorem fifo_simulation (p : Nat) : Simulation (stepFork (· + ·)) FifoScheduler.step toFifo (Aligned p) where
  step_map event aligned := (aligned.step event).1
  step_inv aligned ran := (aligned.step _).2 _ ran

/-- From a state where every task has priority `p` and the passes of the ready queue, then of
the current task, increase and span at most one stride, every run of `run_tasks`,
`suspend_current_and_run_next`, `exit_current_and_run_next` and `sys_fork` over unbounded
passes fetches the same tasks, in the same order, as os5-ref's FIFO scheduler from the same
queue, leaves the same queue and current task, and fails exactly when it does; the
arrangement holds at the end. -/
theorem fetch_agrees_with_fifo (p : Nat) (s : Scheduler) (aligned : s.Aligned p) (events : List ForkEvent) :
    (runSteps (stepFork (· + ·)) s events).map (Prod.map toFifo id) = runSteps FifoScheduler.step s.toFifo events ∧
      ∀ r, runSteps (stepFork (· + ·)) s events = some r → r.1.Aligned p :=
  ⟨(fifo_simulation p).run_map events aligned, fun _ ran => (fifo_simulation p).run_inv events aligned ran⟩

/-- Tasks `0` and `1` of priority `16` at pass `0`: `0` runs, forks `2`, yields, and `1` runs
and exits. -/
theorem fetch_agrees_with_fifo_after_fork :
    (⟨⟨[0, 1]⟩, none, fun _ => 0, fun _ => 16⟩ : Scheduler).Aligned 16 ∧
      ((runSteps (stepFork (· + ·)) ⟨⟨[0, 1]⟩, none, fun _ => 0, fun _ => 16⟩
          [.sched .fetch, .fork 2, .sched .suspend, .sched .fetch, .sched .exit]).map (Prod.map toFifo id) =
        runSteps FifoScheduler.step ⟨⟨[0, 1]⟩, none⟩
          [.sched .fetch, .fork 2, .sched .suspend, .sched .fetch, .sched .exit] ∧
      ∀ r, runSteps (stepFork (· + ·)) ⟨⟨[0, 1]⟩, none, fun _ => 0, fun _ => 16⟩
          [.sched .fetch, .fork 2, .sched .suspend, .sched .fetch, .sched .exit] = some r → r.1.Aligned 16) := by
  have aligned : (⟨⟨[0, 1]⟩, none, fun _ => 0, fun _ => 16⟩ : Scheduler).Aligned 16 := by decide
  exact ⟨aligned, fetch_agrees_with_fifo 16 _ aligned _⟩

example : (runSteps FifoScheduler.step ⟨⟨[0, 1]⟩, none⟩
    [.sched .fetch, .fork 2, .sched .suspend, .sched .fetch, .sched .exit]).map Prod.snd = some [0, 1] := by
  decide

end Scheduler

end RCore
