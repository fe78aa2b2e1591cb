import RCore.Config
import RCore.Foundation.FirstMin

/-! # The stride scheduler

`TaskManager` of `os5/src/task/manager.rs` keeps the ready queue; `fetch` scans it for
the first task of smallest `pass`, removes it, and advances its pass by
`BIG_STRIDE / priority` with the release build's wrapping `usize` addition. The
scheduling state of the kernel (`RCore.Scheduler`) is that queue together with
`PROCESSOR.current` and every task's `pass` and `priority`; `run_tasks`,
`suspend_current_and_run_next` and `exit_current_and_run_next` move it
(`RCore.Scheduler.stepWith`).

The pass addition is a parameter of the definitions: the code adds with wrap-around
(`RCore.TaskManager.fetch`), while the stride algorithm is stated over unbounded passes
(`RCore.TaskManager.fetchUnbounded`). The two agree while no pass leaves `usize`, and
part ways at the first wrap.
-/

namespace RCore

/-- `TaskManager`: the ready queue, holding tasks by identity. -/
structure TaskManager where
  readyQueue : List Nat
deriving DecidableEq, Repr

namespace TaskManager

/-- `TaskManager::add`: `push_back`. -/
def add (manager : TaskManager) (task : Nat) : TaskManager :=
  ⟨manager.readyQueue ++ [task]⟩

/-- `TaskManager::fetch` with the addition of `inner.pass += BIG_STRIDE / inner.priority`
as the parameter `advance`. The scan compares `ready_queue[task_pos].pass` with each later
task's pass using a strict `>`; passes do not change during the scan, so it runs over the
queue's list of passes. Returns the task, the manager without it, and the passes after
the update. -/
def fetchWith (advance : Nat → Nat → Nat) (manager : TaskManager) (pass priority : Nat → Nat) :
    Option (Nat × TaskManager × (Nat → Nat)) :=
  if manager.readyQueue.isEmpty then none
  else
    let taskPos := Foundation.firstMinPos (manager.readyQueue.map pass)
    let task := manager.readyQueue.getD taskPos 0
    some (task, ⟨manager.readyQueue.eraseIdx taskPos⟩,
      Function.update pass task (advance (pass task) (bigStride / priority task)))

/-- `TaskManager::fetch` as the code runs it: the pass wraps modulo `2 ^ 64`. -/
def fetch (manager : TaskManager) (pass priority : Nat → Nat) :
    Option (Nat × TaskManager × (Nat → Nat)) :=
  fetchWith wrappingAdd manager pass priority

/-- The stride algorithm's `fetch`, over unbounded passes. -/
def fetchUnbounded (manager : TaskManager) (pass priority : Nat → Nat) :
    Option (Nat × TaskManager × (Nat → Nat)) :=
  fetchWith (· + ·) manager pass priority

variable {advance : Nat → Nat → Nat} {manager manager' : TaskManager} {pass pass' priority : Nat → Nat}
  {task : Nat}

/-- Everything a successful `fetch` does: the queue was nonempty, the task sits at the scan's
position, it is removed there, and only its pass changes. -/
theorem fetchWith_eq_some (fetched : manager.fetchWith advance pass priority = some (task, manager', pass')) :
    manager.readyQueue ≠ [] ∧
      Foundation.firstMinPos (manager.readyQueue.map pass) < manager.readyQueue.length ∧
      task = manager.readyQueue.getD (Foundation.firstMinPos (manager.readyQueue.map pass)) 0 ∧
      manager'.readyQueue =
        manager.readyQueue.eraseIdx (Foundation.firstMinPos (manager.readyQueue.map pass)) ∧
      pass' = Function.update pass task (advance (pass task) (bigStride / priority task)) := by
  unfold fetchWith at fetched
  split at fetched
  case isTrue => cases fetched
  case isFalse nonempty =>
    simp only [Option.some.injEq, Prod.mk.injEq] at fetched
    obtain ⟨rfl, rfl, rfl⟩ := fetched
    have ne : manager.readyQueue ≠ [] := by simpa using nonempty
    have inside : Foundation.firstMinPos (manager.readyQueue.map pass) <
        (manager.readyQueue.map pass).length :=
      Foundation.firstMinPos_lt_length fun empty => ne (List.map_eq_nil_iff.mp empty)
    rw [List.length_map] at inside
    exact ⟨ne, inside, rfl, rfl, rfl⟩

/-- The fetched task has the smallest pass of the queue. -/
theorem fetchWith_pass_le (fetched : manager.fetchWith advance pass priority = some (task, manager', pass'))
    {other : Nat} (queued : other ∈ manager.readyQueue) : pass task ≤ pass other := by
  obtain ⟨-, inside, rfl, -, -⟩ := fetchWith_eq_some fetched
  obtain ⟨j, below, rfl⟩ := List.getElem_of_mem queued
  have least := Foundation.firstMinPos_le (manager.readyQueue.map pass)
    (by rw [List.length_map]; exact below)
  simpa [List.getD_eq_getElem?_getD, List.getElem?_map, inside, below] using least

/-- The fetched task was in the queue, and the queue after `fetch` is part of the one before. -/
theorem fetchWith_mem (fetched : manager.fetchWith advance pass priority = some (task, manager', pass')) :
    task ∈ manager.readyQueue ∧ ∀ other ∈ manager'.readyQueue, other ∈ manager.readyQueue := by
  obtain ⟨-, inside, rfl, rest, -⟩ := fetchWith_eq_some fetched
  refine ⟨?_, ?_⟩
  · rw [List.getD_eq_getElem?_getD, List.getElem?_eq_getElem inside, Option.getD_some]
    exact List.getElem_mem inside
  · intro other member
    rw [rest] at member
    exact List.mem_of_mem_eraseIdx member

/-- `fetch` on a queue of two tasks: the second is taken only when its pass is strictly
smaller. -/
theorem fetchWith_pair (x y : Nat) (pass priority : Nat → Nat) :
    fetchWith advance ⟨[x, y]⟩ pass priority =
      if pass x > pass y then
        some (y, ⟨[x]⟩, Function.update pass y (advance (pass y) (bigStride / priority y)))
      else some (x, ⟨[y]⟩, Function.update pass x (advance (pass x) (bigStride / priority x))) := by
  unfold fetchWith
  by_cases later : pass x > pass y
  · simp only [later, List.isEmpty_cons, Bool.false_eq_true, ↓reduceIte, List.map_cons, List.map_nil,
      Foundation.firstMinPos_pair]
    rfl
  · simp only [later, List.isEmpty_cons, Bool.false_eq_true, ↓reduceIte, List.map_cons, List.map_nil,
      Foundation.firstMinPos_pair]
    rfl

end TaskManager

/-- The scheduling state of the kernel: `TASK_MANAGER`, `PROCESSOR.current`, and the
`pass` and `priority` fields of every task control block. -/
structure Scheduler where
  manager : TaskManager
  current : Option Nat
  pass : Nat → Nat
  priority : Nat → Nat

/-- What moves the scheduling state: `run_tasks` fetching a task and making it current,
`suspend_current_and_run_next` putting the current task back at the tail of the queue,
and `exit_current_and_run_next` dropping it. -/
inductive SchedEvent where
  | fetch
  | suspend
  | exit
deriving DecidableEq, Repr

namespace Scheduler

/-- The tasks the scheduler holds: the ready queue, then the current task. -/
def tasks (s : Scheduler) : List Nat := s.manager.readyQueue ++ s.current.toList

/-- One event, with the fetched task if there is one. `run_tasks` runs only on the idle
control flow, when no task is current; with an empty queue it loops without change.
`suspend` and `exit` start with `take_current_task().unwrap()`, so they need a current
task. `none` marks an event that cannot happen in the state. -/
def stepWith (advance : Nat → Nat → Nat) (s : Scheduler) : SchedEvent → Option (Scheduler × Option Nat)
  | .fetch =>
      if s.current.isSome then none
      else
        match s.manager.fetchWith advance s.pass s.priority with
        | none => some (s, none)
        | some (task, manager, pass) => some ({ s with manager, pass, current := some task }, some task)
  | .suspend =>
      match s.current with
      | none => none
      | some task => some ({ s with manager := s.manager.add task, current := none }, none)
  | .exit =>
      match s.current with
      | none => none
      | some _ => some ({ s with current := none }, none)

/-- A run of events, with the tasks fetched along it in order. -/
def runWith (advance : Nat → Nat → Nat) : Scheduler → List SchedEvent → Option (Scheduler × List Nat)
  | s, [] => some (s, [])
  | s, event :: rest =>
      match s.stepWith advance event with
      | none => none
      | some (next, fetched) =>
          (runWith advance next rest).map fun (final, trace) => (final, fetched.toList ++ trace)

theorem runWith_append (advance : Nat → Nat → Nat) (s : Scheduler) (first second : List SchedEvent) :
    runWith advance s (first ++ second) =
      (runWith advance s first).bind fun (middle, trace) =>
        (runWith advance middle second).map fun (final, rest) => (final, trace ++ rest) := by
  induction first generalizing s with
  | nil =>
      simp only [List.nil_append, runWith, Option.bind_some, List.nil_append]
      cases runWith advance s second <;> rfl
  | cons event first ih =>
      simp only [List.cons_append, runWith]
      cases s.stepWith advance event with
      | none => rfl
      | some result =>
          obtain ⟨next, fetched⟩ := result
          simp only [ih]
          cases runWith advance next first with
          | none => rfl
          | some middle =>
              simp only [Option.bind_some, Option.map_some]
              cases runWith advance middle.1 second <;> simp

end Scheduler

end RCore
