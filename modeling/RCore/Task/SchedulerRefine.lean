import RCore.Task.TableRefine

/-! # The kernel moves its scheduling state

The scheduling state of a kernel state (`RCore.Kernel.scheduler`) is the ready queue,
`PROCESSOR.current`, and the `pass` and `priority` of every block. Every entry into the kernel
that schedules moves it by the scheduler's own step with the code's wrapping pass addition
(`RCore.Kernel.step_scheduler`): a pass of `run_tasks` fetches, a timer interrupt, `sys_yield`
and a `sys_read` that waits suspend, and the exits exit. The stride results of
`RCore.Task.Stride` are about that step.

The proofs peel the code as those of `RCore.Kernel.step_moves` do. Writing back a block as it
was read, with fields other than `pass` and `priority` changed, keeps the scheduling state
(`RCore.scheduler_setTask`); the only other block writes of these entries are the pass update
of `run_tasks` and the drop of a block, which no place of the scheduler holds.
-/

namespace RCore

open Foundation

/-- The scheduling state of a kernel state. -/
def Kernel.scheduler (k : Kernel) : Scheduler := ⟨k.manager, k.current, k.passOf, k.priorityOf⟩

/-- `s` holds the tasks `s'` holds, in the same places, with the same pass and priority for
each. -/
structure Scheduler.Agrees (s s' : Scheduler) : Prop where
  manager : s.manager = s'.manager
  current : s.current = s'.current
  pass : ∀ p ∈ s'.tasks, s.pass p = s'.pass p
  priority : ∀ p ∈ s'.tasks, s.priority p = s'.priority p

theorem Scheduler.Agrees.of_eq {s s' : Scheduler} (same : s = s') : s.Agrees s' :=
  same ▸ ⟨rfl, rfl, fun _ _ => rfl, fun _ _ => rfl⟩

/-- The scheduling move of an entry, if it makes one. -/
def SysEvent.schedEvent : SysEvent → Option SchedEvent
  | .runTasks _ => some .fetch
  | .timer | .yield => some .suspend
  | .read _ _ _ c | .readPoll _ c => if c = 0 then some .suspend else none
  | .exit _ | .fault | .illegalInstruction => some .exit
  | _ => none

/-- A read schedules only when it finds no byte, and then it suspends. -/
theorem schedEvent_poll {c : Nat} {se : SchedEvent} (moves : (if c = 0 then some SchedEvent.suspend else none) = some se) :
    c = 0 ∧ se = .suspend := by
  split at moves
  case isTrue zero => exact ⟨zero, (Option.some.inj moves).symm⟩
  case isFalse => cases moves

variable {k k' : Kernel} {p : Nat} {task old : TaskControlBlock} {u : PUnit}

/-- `set_task` replaces every block of its pid. -/
theorem task?_setTask (ran : setTask task k = .ok (u, k')) (q : Nat) :
    k'.task? q = (k.task? q).map fun t => if t.pid = task.pid then task else t := by
  unfold setTask at ran
  rw [modify_apply] at ran
  cases ran
  unfold Kernel.task?
  rw [List.find?_map]
  congr 2
  funext t
  by_cases same : t.pid = task.pid
  · simp [same]
  · simp [same]

/-- A field of the block of each pid after `set_task`: the written block's under its pid, when
a block of that pid was there. -/
theorem field_setTask (field : TaskControlBlock → Nat) (ran : setTask task k = .ok (u, k'))
    (found : k.task? task.pid = some old) (q : Nat) :
    ((k'.task? q).map field).getD 0 = Function.update (fun q => ((k.task? q).map field).getD 0) task.pid (field task) q := by
  rw [task?_setTask ran]
  by_cases same : q = task.pid
  · subst same
    rw [found, Function.update_self]
    simp [Kernel.pid_of_task? found]
  · rw [Function.update_of_ne same]
    cases lookup : k.task? q with
    | none => rfl
    | some t =>
        have apart : t.pid ≠ task.pid := (Kernel.pid_of_task? lookup).symm ▸ same
        simp [apart]

theorem manager_setTask (ran : setTask task k = .ok (u, k')) : k'.manager = k.manager ∧ k'.current = k.current := by
  unfold setTask at ran
  rw [modify_apply] at ran
  cases ran
  exact ⟨rfl, rfl⟩

/-- A field that `set_task` writes back as it was keeps its value under every pid. -/
theorem field_setTask_of_eq (field : TaskControlBlock → Nat) (ran : setTask task k = .ok (u, k'))
    (found : k.task? task.pid = some old) (same : field task = field old) :
    (fun q => ((k'.task? q).map field).getD 0) = fun q => ((k.task? q).map field).getD 0 := by
  funext q
  rw [field_setTask field ran found, same]
  have at_pid : ((k.task? task.pid).map field).getD 0 = field old := by rw [found]; rfl
  rw [← at_pid, Function.update_eq_self]

/-- Writing back the block of its pid with the same `pass` and `priority` keeps the scheduling
state. -/
theorem scheduler_setTask (ran : setTask task k = .ok (u, k')) (found : k.task? task.pid = some old)
    (pass : task.pass = old.pass) (priority : task.priority = old.priority) : k'.scheduler = k.scheduler := by
  obtain ⟨manager, current⟩ := manager_setTask ran
  unfold Kernel.scheduler Kernel.passOf Kernel.priorityOf
  rw [manager, current, field_setTask_of_eq _ ran found pass, field_setTask_of_eq _ ran found priority]

section Keeps

theorem keeps_scheduler_liftMachine {α : Type} (x : KernelM α) : Keeps Kernel.scheduler (liftMachine x) := by
  intro t k a k' start ran
  obtain ⟨-, same⟩ := liftMachine_ok ran
  rw [same]
  exact start

theorem keeps_scheduler_getTask : Keeps Kernel.scheduler (getTask p) := fun _ _ _ _ start ran => by
  obtain ⟨-, rfl⟩ := getTask_ok ran
  exact start

theorem keeps_scheduler_currentTask : Keeps Kernel.scheduler currentTask := fun _ _ _ _ start ran => by
  obtain ⟨-, -, rfl⟩ := currentTask_ok ran
  exact start

theorem keeps_scheduler_trapCxAddr : Keeps Kernel.scheduler (trapCxAddr task) :=
  Keeps.bind (Keeps.lift _) fun _ => Keeps.pure _

theorem keeps_scheduler_storeWord (addr value : Nat) : Keeps Kernel.scheduler (storeWord addr value) :=
  Keeps.modify fun _ => rfl

theorem keeps_scheduler_setKernelSpace (kernelSpace : MemorySet) :
    Keeps Kernel.scheduler (modify fun k => { k with kernelSpace } : SysM PUnit) :=
  Keeps.modify fun _ => rfl

end Keeps

theorem scheduler_countSyscall {n : Nat} (ran : countSyscall n k = .ok (u, k')) : k'.scheduler = k.scheduler := by
  unfold countSyscall at ran
  split at ran
  · obtain ⟨task, k₁, first, rest⟩ := bind_eq_ok.mp ran
    obtain ⟨-, found, rfl⟩ := currentTask_ok first
    exact scheduler_setTask rest found rfl rfl
  · cases ran
    rfl

theorem scheduler_enterSyscall {n : Nat} (ran : enterSyscall n k = .ok (u, k')) : k'.scheduler = k.scheduler := by
  unfold enterSyscall at ran
  obtain ⟨task, k₁, first, rest⟩ := bind_eq_ok.mp ran
  obtain ⟨addr, k₂, second, rest⟩ := bind_eq_ok.mp rest
  rw [get_bind] at rest
  obtain ⟨_, k₃, third, rest⟩ := bind_eq_ok.mp rest
  calc k'.scheduler = k₃.scheduler := scheduler_countSyscall rest
    _ = k₂.scheduler := (keeps_scheduler_storeWord _ _).view_eq third
    _ = k₁.scheduler := keeps_scheduler_trapCxAddr.view_eq second
    _ = k.scheduler := keeps_scheduler_currentTask.view_eq first

theorem scheduler_addTask (ran : addTask p k = .ok (u, k')) :
    k'.scheduler = { k.scheduler with manager := k.scheduler.manager.add p } := by
  unfold addTask at ran
  rw [modify_apply] at ran
  cases ran
  rfl

/-- `suspend_current_and_run_next` puts the current task back at the tail of the queue. -/
theorem scheduler_suspendCurrentAndRunNext (ran : suspendCurrentAndRunNext k = .ok (u, k')) :
    ∃ p, k.current = some p ∧
      k'.scheduler = { k.scheduler with manager := k.scheduler.manager.add p, current := none } := by
  unfold suspendCurrentAndRunNext at ran
  obtain ⟨task, k₁, first, rest₁⟩ := bind_eq_ok.mp ran
  obtain ⟨current, found, rfl⟩ := takeCurrentTask_ok first
  obtain ⟨_, k₂, second, rest₂⟩ := bind_eq_ok.mp rest₁
  refine ⟨task.pid, current, ?_⟩
  rw [scheduler_addTask rest₂, scheduler_setTask second found rfl rfl]
  rfl

theorem scheduler_pushChild {parent c : Nat} (ran : pushChild parent c k = .ok (u, k')) : k'.scheduler = k.scheduler := by
  unfold pushChild at ran
  obtain ⟨task, k₁, first, rest⟩ := bind_eq_ok.mp ran
  obtain ⟨found, rfl⟩ := getTask_ok first
  have found' := Kernel.task?_pid found
  exact scheduler_setTask rest found' rfl rfl

/-- One iteration of the loop of `exit_current_and_run_next` over the children. -/
theorem keeps_scheduler_reparent (initproc child : Nat) : Keeps Kernel.scheduler (do
    let childTask ← getTask child
    setTask { childTask with parent := some initproc }
    pushChild initproc child) := by
  intro t k u k' start ran
  obtain ⟨childTask, k₁, first, rest₁⟩ := bind_eq_ok.mp ran
  obtain ⟨found, rfl⟩ := getTask_ok first
  obtain ⟨_, k₂, second, rest₂⟩ := bind_eq_ok.mp rest₁
  have found' := Kernel.task?_pid found
  rw [scheduler_pushChild rest₂, scheduler_setTask second found' rfl rfl]
  exact start

/-- Dropping the blocks of `pid` leaves the block of every other pid where it was. -/
theorem task?_of_filter {pid q : Nat} (filtered : k'.tasks = k.tasks.filter (·.pid != pid)) (other : q ≠ pid) :
    k'.task? q = k.task? q := by
  unfold Kernel.task?
  rw [filtered, List.find?_filter]
  congr 1
  funext t
  by_cases at_q : t.pid = q
  · simp [at_q, other]
  · simp [at_q]

/-- The drop of a block keeps the queue, the current task, and the pass and priority of every
other pid. -/
theorem scheduler_dropTask (ran : dropTask task k = .ok (u, k')) :
    k'.manager = k.manager ∧ k'.current = k.current ∧
      ∀ q, q ≠ task.pid → k'.passOf q = k.passOf q ∧ k'.priorityOf q = k.priorityOf q := by
  unfold dropTask at ran
  rw [get_bind] at ran
  obtain ⟨allocator, k₁, first, rest₁⟩ := bind_eq_ok.mp ran
  obtain ⟨-, rfl⟩ := liftExcept_eq_ok.mp first
  rw [bind_of_ok (modify_apply _ _)] at rest₁
  have tail := (Keeps.bind (Keeps.lift _) fun _ => Keeps.bind Keeps.get fun _ =>
    Keeps.bind (keeps_scheduler_liftMachine _) fun _ => Keeps.bind (keeps_scheduler_setKernelSpace _) fun _ =>
      keeps_scheduler_liftMachine _).view_eq rest₁
  unfold Kernel.scheduler at tail
  simp only [Scheduler.mk.injEq] at tail
  obtain ⟨manager, current, pass, priority⟩ := tail
  refine ⟨manager, current, fun q other => ⟨?_, ?_⟩⟩
  · rw [pass]
    unfold Kernel.passOf
    rw [task?_of_filter rfl other]
  · rw [priority]
    unfold Kernel.priorityOf
    rw [task?_of_filter rfl other]

/-- A block that no place holds is in no place of the scheduler. -/
theorem not_mem_tasks_of_strongCount (unheld : k.strongCount p = 0) : p ∉ k.scheduler.tasks := by
  unfold Kernel.strongCount at unheld
  intro member
  rcases List.mem_append.mp member with queued | current
  · have : 0 < k.manager.readyQueue.count p := List.count_pos_iff.mpr queued
    omega
  · rw [Option.mem_toList] at current
    have : k.current = some p := current
    simp only [this, if_true] at unheld
    omega

/-- `drop(arc)`: the block goes only when no place holds it, and then no place of the scheduler
held it. -/
theorem scheduler_dropArc (ran : dropArc p k = .ok (u, k')) : k'.scheduler.Agrees k.scheduler := by
  unfold dropArc at ran
  rw [get_bind] at ran
  split at ran
  case isTrue unheld =>
    obtain ⟨task, k₁, first, rest₁⟩ := bind_eq_ok.mp ran
    obtain ⟨found, same₁⟩ := getTask_ok first
    subst k₁
    obtain ⟨manager, current, kept⟩ := scheduler_dropTask rest₁
    have apart : ∀ q ∈ k.scheduler.tasks, q ≠ task.pid := fun q member same => by
      rw [same, Kernel.pid_of_task? found] at member
      exact not_mem_tasks_of_strongCount unheld member
    exact ⟨manager, current, fun q member => (kept q (apart q member)).1,
      fun q member => (kept q (apart q member)).2⟩
  case isFalse =>
    cases ran
    exact .of_eq rfl

/-- `exit_current_and_run_next` takes the current task off the processor and keeps every other
place of the scheduler, with its pass and priority. -/
theorem scheduler_exitCurrentAndRunNext {code : Int} (ran : exitCurrentAndRunNext code k = .ok (u, k')) :
    ∃ p, k.current = some p ∧ k'.scheduler.Agrees { k.scheduler with current := none } := by
  unfold exitCurrentAndRunNext at ran
  obtain ⟨task, k₁, first, rest₁⟩ := bind_eq_ok.mp ran
  obtain ⟨current, found, same₁⟩ := takeCurrentTask_ok first
  subst k₁
  obtain ⟨_, k₂, second, rest₂⟩ := bind_eq_ok.mp rest₁
  have kept₂ := scheduler_setTask second found rfl rfl
  rw [get_bind] at rest₂
  by_cases isInit : task.pid = k₂.initproc
  · rw [if_pos isInit] at rest₂
    obtain ⟨_, _, thrown, -⟩ := bind_eq_ok.mp rest₂
    cases thrown
  rw [if_neg isInit] at rest₂
  -- the loop hands the children to `INITPROC` and moves no place of the scheduler
  obtain ⟨_, k₄, fourth, rest₄⟩ := bind_eq_ok.mp rest₂
  have looped := (Keeps.forM (keeps_scheduler_reparent k₂.initproc) task.children).view_eq fourth
  obtain ⟨task₄, k₅, fifth, rest₅⟩ := bind_eq_ok.mp rest₄
  obtain ⟨found₄, same₅⟩ := getTask_ok fifth
  subst k₅
  obtain ⟨ms, k₆, sixth, rest₆⟩ := bind_eq_ok.mp rest₅
  obtain ⟨-, same₆⟩ := liftMachine_ok sixth
  have found₆ : k₆.task? task₄.pid = some task₄ := same₆ ▸ Kernel.task?_pid found₄
  obtain ⟨_, k₇, seventh, rest₇⟩ := bind_eq_ok.mp rest₆
  have cleared : k₇.scheduler = { k.scheduler with current := none } := by
    rw [scheduler_setTask seventh found₆ rfl rfl, (keeps_scheduler_liftMachine _).view_eq sixth, looped, kept₂]
    rfl
  exact ⟨task.pid, current, cleared ▸ scheduler_dropArc rest₇⟩

/-- A pass of `run_tasks` on the idle control flow is the scheduler's `fetch`, with the wrapping
pass addition of the code. -/
theorem scheduler_runTasksStep {now : Nat} (idle : k.current = none) (ran : runTasksStep now k = .ok (u, k')) :
    ∃ s' fetched, k.scheduler.stepWith wrappingAdd .fetch = some (s', fetched) ∧ k'.scheduler.Agrees s' := by
  unfold runTasksStep at ran
  rw [get_bind] at ran
  unfold Scheduler.stepWith
  rw [if_neg (by simp [Kernel.scheduler, idle])]
  generalize picked : k.manager.fetch k.passOf k.priorityOf = fetched at ran
  have picked' : k.scheduler.manager.fetchWith wrappingAdd k.scheduler.pass k.scheduler.priority = fetched := picked
  rw [picked']
  cases fetched with
  | none =>
      cases ran
      exact ⟨_, _, rfl, .of_eq rfl⟩
  | some result =>
      obtain ⟨pid, manager, pass⟩ := result
      obtain ⟨-, -, -, -, updated⟩ := TaskManager.fetchWith_eq_some picked
      dsimp only at ran
      rw [bind_of_ok (set_apply _ _)] at ran
      obtain ⟨task, k₁, first, rest₁⟩ := bind_eq_ok.mp ran
      obtain ⟨found, same₁⟩ := getTask_ok first
      subst k₁
      obtain ⟨_, k₂, second, rest₂⟩ := bind_eq_ok.mp rest₁
      rw [modify_apply] at rest₂
      cases rest₂
      have found' := Kernel.task?_pid found
      -- the fetched block gets its advanced pass; every other block keeps its pass and priority
      have passes : k₂.passOf = pass := by
        funext q
        rw [Kernel.passOf, field_setTask _ second found', updated, Kernel.pid_of_task? found, Function.update_self]
        rfl
      have priorities : k₂.priorityOf = ({ k with manager } : Kernel).priorityOf :=
        field_setTask_of_eq (·.priority) second found' rfl
      obtain ⟨manager₂, -⟩ := manager_setTask second
      refine ⟨_, _, rfl, .of_eq ?_⟩
      show (⟨k₂.manager, some pid, k₂.passOf, k₂.priorityOf⟩ : Scheduler) = ⟨manager, some pid, pass, k.priorityOf⟩
      rw [passes, priorities, manager₂]
      rfl

/-- Every entry into the kernel that schedules moves the scheduling state by the scheduler's
step, with the wrapping pass addition of the code: a pass of `run_tasks` on the idle control
flow fetches, a timer interrupt, `sys_yield` and a `sys_read` that finds no byte suspend, and
`sys_exit` and the two fault exits exit. -/
theorem Kernel.step_scheduler (img : KernelImage) {e : SysEvent} {se : SchedEvent} {obs : List Observation}
    (ran : Kernel.step img e k = .ok (obs, k')) (moves : e.schedEvent = some se)
    (idle : se = .fetch → k.current = none) :
    ∃ s' fetched, k.scheduler.stepWith wrappingAdd se = some (s', fetched) ∧ k'.scheduler.Agrees s' := by
  -- a suspension after the machine and the statistics moved, as the entries that suspend make it
  have suspended : ∀ {k₁ : Kernel} {u : PUnit}, k₁.scheduler = k.scheduler → suspendCurrentAndRunNext k₁ = .ok (u, k') →
      ∃ s' fetched, k.scheduler.stepWith wrappingAdd .suspend = some (s', fetched) ∧ k'.scheduler.Agrees s' := by
    intro k₁ u same ran₁
    obtain ⟨p, current, moved⟩ := scheduler_suspendCurrentAndRunNext ran₁
    have current' : k.scheduler.current = some p := (congrArg Scheduler.current same).symm.trans current
    refine ⟨_, _, by rw [Scheduler.stepWith, current'], .of_eq ?_⟩
    rw [moved, same]
  -- an exit, from a state whose scheduling state is that of `k`
  have exited : ∀ {k₁ : Kernel} {code : Int} {u : PUnit}, k₁.scheduler = k.scheduler →
      exitCurrentAndRunNext code k₁ = .ok (u, k') →
      ∃ s' fetched, k.scheduler.stepWith wrappingAdd .exit = some (s', fetched) ∧ k'.scheduler.Agrees s' := by
    intro k₁ code u same ran₁
    obtain ⟨p, current, agrees⟩ := scheduler_exitCurrentAndRunNext ran₁
    have current' : k.scheduler.current = some p := (congrArg Scheduler.current same).symm.trans current
    refine ⟨_, _, by rw [Scheduler.stepWith, current'], ?_⟩
    rw [same] at agrees
    exact agrees
  cases e with
  | runTasks now =>
      cases moves
      dsimp only [Kernel.step] at ran
      rw [get_bind, if_neg (by simp [idle rfl])] at ran
      obtain ⟨_, k₁, first, rest₁⟩ := bind_eq_ok.mp ran
      cases rest₁
      exact scheduler_runTasksStep (idle rfl) first
  | timer =>
      cases moves
      obtain ⟨_, k₁, first, rest₁⟩ := bind_eq_ok.mp ran
      cases rest₁
      exact suspended rfl first
  | yield =>
      cases moves
      obtain ⟨_, k₁, first, rest₁⟩ := bind_eq_ok.mp ran
      obtain ⟨task, k₂, second, rest₂⟩ := bind_eq_ok.mp rest₁
      obtain ⟨addr, k₃, third, rest₃⟩ := bind_eq_ok.mp rest₂
      obtain ⟨_, k₄, fourth, rest₄⟩ := bind_eq_ok.mp rest₃
      obtain ⟨_, k₅, fifth, rest₅⟩ := bind_eq_ok.mp rest₄
      cases rest₅
      refine suspended ?_ fifth
      calc k₄.scheduler = k₃.scheduler := (keeps_scheduler_storeWord _ _).view_eq fourth
        _ = k₂.scheduler := keeps_scheduler_trapCxAddr.view_eq third
        _ = k₁.scheduler := keeps_scheduler_currentTask.view_eq second
        _ = k.scheduler := scheduler_enterSyscall first
  | exit code =>
      cases moves
      obtain ⟨_, k₁, first, rest₁⟩ := bind_eq_ok.mp ran
      obtain ⟨pid, k₂, second, rest₂⟩ := bind_eq_ok.mp rest₁
      obtain ⟨_, k₃, third, rest₃⟩ := bind_eq_ok.mp rest₂
      cases rest₃
      obtain ⟨-, same₂⟩ := currentPid_ok second
      subst k₂
      exact exited (scheduler_enterSyscall first) third
  | fault | illegalInstruction =>
      cases moves
      obtain ⟨pid, k₁, first, rest₁⟩ := bind_eq_ok.mp ran
      obtain ⟨_, k₂, second, rest₂⟩ := bind_eq_ok.mp rest₁
      cases rest₂
      obtain ⟨-, same₁⟩ := currentPid_ok first
      subst k₁
      exact exited rfl second
  | read fd buf len c =>
      obtain ⟨rfl, rfl⟩ := schedEvent_poll moves
      obtain ⟨_, k₁, first, rest₁⟩ := bind_eq_ok.mp ran
      obtain ⟨_, k₂, second, rest₂⟩ := bind_eq_ok.mp rest₁
      obtain ⟨_, k₃, third, rest₃⟩ := bind_eq_ok.mp rest₂
      cases rest₃
      unfold sysReadPoll at third
      rw [if_pos rfl] at third
      refine suspended ?_ third
      rw [(keeps_sysReadChecks Kernel.scheduler fd len).view_eq second, scheduler_enterSyscall first]
  | readPoll buf c =>
      obtain ⟨rfl, rfl⟩ := schedEvent_poll moves
      obtain ⟨_, k₁, first, rest₁⟩ := bind_eq_ok.mp ran
      cases rest₁
      unfold sysReadPoll at first
      rw [if_pos rfl] at first
      exact suspended rfl first
  | _ => cases moves

end RCore
