import RCore.Task.TableMoves
import RCore.Foundation.Triple
import RCore.Foundation.Trace

/-! # The kernel moves its process table

Every entry into the kernel that does not panic moves the process table of the kernel state
(`RCore.Kernel.table`) by one of the moves of `RCore.ProcessTable.Moves`, with the same
reports (`RCore.Kernel.step_moves`): the kernel code refines the table machine, and every run
of the kernel from a table with the invariant is a run of the table machine and keeps the
invariant (`RCore.Kernel.run_moves`).

The proofs follow the code. A success of a composite computation is peeled into the successes
of its parts (`Foundation.bind_eq_ok`); code that only touches the machine, `KERNEL_SPACE` or
the trap contexts keeps the table (`Foundation.Keeps`), and each operation on the blocks, the
ready queue and `PID_ALLOCATOR` moves the table by one of its operations: `set_task` by
`RCore.ProcessTable.setTask`, `push` onto `children` by `RCore.ProcessTable.modifyTask`, the
drop of a block by `RCore.ProcessTable.dropTask`. The loop of `exit_current_and_run_next` over
the children is one `RCore.ProcessTable.reparent` per child (`Foundation.Triple.forM_foldl`).
The writes of a block that keep what the table sees of it, as `count_syscall` and `exec` make,
need that the live pids are distinct.
-/

namespace RCore

open Foundation

variable {k k' : Kernel} {p c : Nat} {task : TaskControlBlock} {u : PUnit}

namespace Kernel

theorem task?_table : k.table.task? p = (k.task? p).map TaskControlBlock.view := by
  unfold ProcessTable.task? Foundation.lookup Kernel.table Kernel.task?
  rw [List.find?_map]
  rfl

theorem pid_of_task? (found : k.task? p = some task) : task.pid = p := by
  simpa using List.find?_some found

/-- A block found under a pid is found under its own pid. -/
theorem task?_pid (found : k.task? p = some task) : k.task? task.pid = some task := by
  rw [pid_of_task? found]
  exact found

theorem strongCount_table : k.strongCount p = k.table.strongCount p := by
  unfold Kernel.strongCount ProcessTable.strongCount ProcessTable.childCount Kernel.table
  rw [List.map_map]
  rfl

theorem isZombie_table : k.isZombie c = k.table.isZombie c := by
  unfold Kernel.isZombie ProcessTable.isZombie
  rw [task?_table]
  cases k.task? c <;> rfl

theorem exitCodeOf_table : k.exitCodeOf p = k.table.exitCodeOf p := by
  unfold Kernel.exitCodeOf ProcessTable.exitCodeOf
  rw [task?_table, Option.map_map]
  rfl

end Kernel

theorem getTask_ok (ran : getTask p k = .ok (task, k')) : k.task? p = some task ∧ k' = k := by
  unfold getTask at ran
  rw [get_bind] at ran
  cases found : k.task? p with
  | none => rw [found] at ran; cases ran
  | some t => rw [found] at ran; cases ran; exact ⟨rfl, rfl⟩

theorem currentTask_ok (ran : currentTask k = .ok (task, k')) :
    k.current = some task.pid ∧ k.task? task.pid = some task ∧ k' = k := by
  unfold currentTask at ran
  rw [get_bind] at ran
  cases current : k.current with
  | none => rw [current] at ran; cases ran
  | some p =>
      rw [current] at ran
      obtain ⟨found, rfl⟩ := getTask_ok ran
      rw [Kernel.pid_of_task? found]
      exact ⟨rfl, found, rfl⟩

theorem currentPid_ok (ran : currentPid k = .ok (p, k')) : k.current = some p ∧ k' = k := by
  unfold currentPid at ran
  obtain ⟨task, k₁, first, rest₁⟩ := bind_eq_ok.mp ran
  obtain ⟨current, -, same₁⟩ := currentTask_ok first
  subst k₁
  cases rest₁
  exact ⟨current, rfl⟩

theorem takeCurrentTask_ok (ran : takeCurrentTask k = .ok (task, k')) :
    k.current = some task.pid ∧ k.task? task.pid = some task ∧ k' = { k with current := none } := by
  unfold takeCurrentTask at ran
  obtain ⟨t, k₁, first, rest⟩ := bind_eq_ok.mp ran
  obtain ⟨current, found, rfl⟩ := currentTask_ok first
  rw [bind_of_ok (modify_apply _ _)] at rest
  cases rest
  exact ⟨current, found, rfl⟩

theorem setTask_table (ran : setTask task k = .ok (u, k')) : k'.table = k.table.setTask task.view := by
  unfold setTask at ran
  rw [modify_apply] at ran
  cases ran
  unfold Kernel.table ProcessTable.setTask
  congr 1
  exact Foundation.map_replace TaskControlBlock.view fun _ => rfl

theorem keeps_liftMachine {α : Type} (x : KernelM α) : Keeps Kernel.table (liftMachine x) := by
  intro t s a s' start ran
  unfold liftMachine at ran
  cases ranx : x s.machine with
  | error e => rw [ranx] at ran; cases ran
  | ok r =>
      obtain ⟨a', m⟩ := r
      rw [ranx] at ran
      cases ran
      exact start

theorem keeps_getTask : Keeps Kernel.table (getTask p) := fun _ _ _ _ start ran => by
  obtain ⟨-, rfl⟩ := getTask_ok ran
  exact start

theorem keeps_currentTask : Keeps Kernel.table currentTask := fun _ _ _ _ start ran => by
  obtain ⟨-, -, rfl⟩ := currentTask_ok ran
  exact start

theorem keeps_trapCxAddr : Keeps Kernel.table (trapCxAddr task) :=
  Keeps.bind (Keeps.lift _) fun _ => Keeps.pure _

theorem keeps_storeWord (addr value : Nat) : Keeps Kernel.table (storeWord addr value) :=
  Keeps.modify fun _ => rfl

theorem keeps_storeTrapCx (addr : Nat) (cx : TrapContext) : Keeps Kernel.table (storeTrapCx addr cx) :=
  Keeps.modify fun _ => rfl

theorem keeps_trapCxPpnOf (ms : MemorySet) : Keeps Kernel.table (trapCxPpnOf ms) := by
  unfold trapCxPpnOf
  refine Keeps.bind (Keeps.lift _) fun _ => Keeps.bind Keeps.get fun _ => ?_
  split
  · exact Keeps.pure _
  · exact fun _ => Triple.throw _

theorem keeps_kernelStackNew (pid : Nat) : Keeps Kernel.table (kernelStackNew pid) :=
  Keeps.bind Keeps.get fun _ => Keeps.bind (keeps_liftMachine _) fun _ =>
    Keeps.bind (Keeps.modify fun _ => rfl) fun _ => Keeps.pure _

theorem keeps_currentPath (path : Nat) : Keeps Kernel.table (currentPath path) :=
  Keeps.bind keeps_currentTask fun _ => Keeps.bind Keeps.get fun _ => Keeps.lift _

theorem keeps_storeExitCode (token ptr : Nat) (code : Int) : Keeps Kernel.table (storeExitCode token ptr code) :=
  Keeps.bind Keeps.get fun _ => Keeps.bind (Keeps.lift _) fun _ => Keeps.modify fun _ => rfl

theorem keeps_kernelStackBottomVpn (pid : Nat) : Keeps Kernel.table (kernelStackBottomVpn pid) := Keeps.lift _

theorem keeps_setKernelSpace (kernelSpace : MemorySet) :
    Keeps Kernel.table (modify fun k => { k with kernelSpace } : SysM PUnit) := by
  refine Keeps.modify ?_
  intro _
  rfl

theorem addTask_table (ran : addTask p k = .ok (u, k')) :
    k'.table = { k.table with readyQueue := k.table.readyQueue ++ [p] } := by
  unfold addTask at ran
  rw [modify_apply] at ran
  cases ran
  rfl

theorem pidAlloc_ok (ran : pidAlloc k = .ok (p, k')) :
    k.pidAllocator.alloc = (p, k'.pidAllocator) ∧ k'.table = { k.table with pidAllocator := k'.pidAllocator } := by
  unfold pidAlloc at ran
  rw [get_bind] at ran
  rcases allocated : k.pidAllocator.alloc with ⟨n, allocator⟩
  rw [allocated] at ran
  dsimp only at ran
  rw [bind_of_ok (modify_apply _ _)] at ran
  cases ran
  exact ⟨rfl, rfl⟩

theorem PidAllocator.dealloc_ok {allocator allocator' : PidAllocator}
    (ran : allocator.dealloc p = .ok allocator') :
    allocator' = { allocator with recycled := allocator.recycled ++ [p] } := by
  unfold PidAllocator.dealloc at ran
  split_ifs at ran
  cases ran
  rfl

namespace ProcessTable

/-- Writing back the view that the table holds changes nothing. -/
theorem setTask_of_task? {t : ProcessTable} {v : TaskView} (nodup : t.pids.Nodup) (found : t.task? v.pid = some v) :
    t.setTask v = t := by
  unfold setTask
  rw [Foundation.replace_of_lookup nodup found]

end ProcessTable

/-- A write of a block that the table sees as it was. -/
theorem setTask_same_view {old : TaskControlBlock} (nodup : k.table.pids.Nodup) (ran : setTask task k = .ok (u, k'))
    (found : k.task? old.pid = some old) (same : task.view = old.view) : k'.table = k.table := by
  rw [setTask_table ran]
  apply ProcessTable.setTask_of_task? nodup
  rw [Kernel.task?_table, same, show old.view.pid = old.pid from rfl, found, Option.map_some]

theorem pushChild_table {parent : Nat} (ran : pushChild parent c k = .ok (u, k')) :
    k'.table = k.table.modifyTask parent fun v => { v with children := v.children ++ [c] } := by
  unfold pushChild at ran
  obtain ⟨task, k₁, first, rest⟩ := bind_eq_ok.mp ran
  obtain ⟨found, rfl⟩ := getTask_ok first
  rw [setTask_table rest, ProcessTable.modifyTask_of_task? (by rw [Kernel.task?_table, found]; rfl)]
  rfl

theorem countSyscall_table {n : Nat} (nodup : k.table.pids.Nodup) (ran : countSyscall n k = .ok (u, k')) :
    k'.table = k.table := by
  unfold countSyscall at ran
  split at ran
  · obtain ⟨task, k₁, first, rest⟩ := bind_eq_ok.mp ran
    obtain ⟨-, found, rfl⟩ := currentTask_ok first
    exact setTask_same_view nodup rest found rfl
  · cases ran
    rfl

theorem enterSyscall_table {n : Nat} (nodup : k.table.pids.Nodup) (ran : enterSyscall n k = .ok (u, k')) :
    k'.table = k.table := by
  unfold enterSyscall at ran
  obtain ⟨task, k₁, first, rest⟩ := bind_eq_ok.mp ran
  obtain ⟨addr, k₂, second, rest⟩ := bind_eq_ok.mp rest
  rw [get_bind] at rest
  obtain ⟨v, k₃, third, rest⟩ := bind_eq_ok.mp rest
  have stored : k₃.table = k.table := calc
    k₃.table = k₂.table := (keeps_storeWord _ _).view_eq third
    _ = k₁.table := keeps_trapCxAddr.view_eq second
    _ = k.table := keeps_currentTask.view_eq first
  rw [countSyscall_table (stored ▸ nodup) rest, stored]

theorem userEnvCall_ok {n : Nat} {call : SysM Int} {r : Int} (nodup : k.table.pids.Nodup)
    (ran : userEnvCall n call k = .ok (r, k')) :
    ∃ k₁ k₂, k₁.table = k.table ∧ call k₁ = .ok (r, k₂) ∧ k'.table = k₂.table := by
  unfold userEnvCall at ran
  obtain ⟨_, k₁, first, rest₁⟩ := bind_eq_ok.mp ran
  obtain ⟨result, k₂, second, rest₂⟩ := bind_eq_ok.mp rest₁
  obtain ⟨task, k₃, third, rest₃⟩ := bind_eq_ok.mp rest₂
  obtain ⟨addr, k₄, fourth, rest₄⟩ := bind_eq_ok.mp rest₃
  obtain ⟨_, k₅, fifth, rest₅⟩ := bind_eq_ok.mp rest₄
  cases rest₅
  refine ⟨k₁, k₂, enterSyscall_table nodup first, second, ?_⟩
  calc k'.table = k₄.table := (keeps_storeWord _ _).view_eq fifth
    _ = k₃.table := keeps_trapCxAddr.view_eq fourth
    _ = k₂.table := keeps_currentTask.view_eq third

theorem table_appendTask : ({ k with tasks := k.tasks ++ [task] }).table =
    { k.table with tasks := k.table.tasks ++ [task.view] } := by
  unfold Kernel.table
  rw [List.map_append]
  rfl

section Img

variable {img : KernelImage} {elf : ElfFile}

theorem exec_table (nodup : k.table.pids.Nodup) (ran : task.exec img elf k = .ok (u, k')) : k'.table = k.table := by
  unfold TaskControlBlock.exec at ran
  obtain ⟨⟨ms, sp, entry⟩, k₁, first, rest₁⟩ := bind_eq_ok.mp ran
  dsimp only at rest₁
  obtain ⟨ppn, k₂, second, rest₂⟩ := bind_eq_ok.mp rest₁
  obtain ⟨task₂, k₃, third, rest₃⟩ := bind_eq_ok.mp rest₂
  obtain ⟨found, same₃⟩ := getTask_ok third
  obtain ⟨_, k₄, fourth, rest₄⟩ := bind_eq_ok.mp rest₃
  have table₃ : k₃.table = k.table := by
    rw [same₃, (keeps_trapCxPpnOf ms).view_eq second, (keeps_liftMachine _).view_eq first]
  have found₃ : k₃.task? task₂.pid = some task₂ := by rw [same₃, Kernel.pid_of_task? found]; exact found
  have table₄ : k₄.table = k₃.table := setTask_same_view (table₃ ▸ nodup) fourth found₃ rfl
  have tail := (Keeps.bind (keeps_liftMachine _) fun _ => Keeps.bind keeps_trapCxAddr fun _ =>
    Keeps.bind Keeps.get fun _ => keeps_storeTrapCx _ _).view_eq rest₄
  rw [tail, table₄, table₃]

/-- The table after `TaskControlBlock::fork`, before `add_task`: the child's block with the
pid `PID_ALLOCATOR` handed out, in the parent's `children`. -/
theorem fork_table {parent child : TaskControlBlock} (ran : parent.fork img k = .ok (child, k')) :
    k.pidAllocator.alloc = (child.pid, k'.pidAllocator) ∧
      k'.table =
        ({ k.table with
            pidAllocator := k'.pidAllocator,
            tasks := k.table.tasks ++ [⟨child.pid, .ready, some parent.pid, [], 0⟩] } : ProcessTable).modifyTask
          parent.pid fun v => { v with children := v.children ++ [child.pid] } := by
  unfold TaskControlBlock.fork at ran
  obtain ⟨ms, k₁, first, rest₁⟩ := bind_eq_ok.mp ran
  obtain ⟨ppn, k₂, second, rest₂⟩ := bind_eq_ok.mp rest₁
  obtain ⟨pid, k₃, third, rest₃⟩ := bind_eq_ok.mp rest₂
  obtain ⟨allocated, table₃⟩ := pidAlloc_ok third
  obtain ⟨top, k₄, fourth, rest₄⟩ := bind_eq_ok.mp rest₃
  rw [bind_of_ok (modify_apply _ _)] at rest₄
  obtain ⟨_, k₅, fifth, rest₅⟩ := bind_eq_ok.mp rest₄
  obtain ⟨addr, k₆, sixth, rest₆⟩ := bind_eq_ok.mp rest₅
  obtain ⟨_, k₇, seventh, rest₇⟩ := bind_eq_ok.mp rest₆
  cases rest₇
  have table₂ : k₂.table = k.table :=
    ((keeps_trapCxPpnOf ms).view_eq second).trans ((keeps_liftMachine _).view_eq first)
  have table₄ : k₄.table = { k.table with pidAllocator := k₃.pidAllocator } := by
    rw [(keeps_kernelStackNew pid).view_eq fourth, table₃, table₂]
  have table' := ((keeps_storeWord _ _).view_eq seventh).trans ((keeps_trapCxAddr.view_eq sixth).trans
    (pushChild_table fifth))
  rw [table_appendTask, table₄] at table'
  have alloc' : k'.pidAllocator = k₃.pidAllocator := by
    have := congrArg ProcessTable.pidAllocator table'
    rw [ProcessTable.pidAllocator_modifyTask] at this
    exact this
  have alloc₂ : k₂.pidAllocator = k.pidAllocator := congrArg ProcessTable.pidAllocator table₂
  refine ⟨by rw [← alloc₂, alloc']; exact allocated, ?_⟩
  rw [table', alloc']
  rfl

/-- The table after `TaskControlBlock::spawn`, before `add_task`, as after `fork`. -/
theorem spawn_table {parent child : TaskControlBlock} (ran : parent.spawn img elf k = .ok (child, k')) :
    k.pidAllocator.alloc = (child.pid, k'.pidAllocator) ∧
      k'.table =
        ({ k.table with
            pidAllocator := k'.pidAllocator,
            tasks := k.table.tasks ++ [⟨child.pid, .ready, some parent.pid, [], 0⟩] } : ProcessTable).modifyTask
          parent.pid fun v => { v with children := v.children ++ [child.pid] } := by
  unfold TaskControlBlock.spawn at ran
  obtain ⟨⟨ms, sp, entry⟩, k₁, first, rest₁⟩ := bind_eq_ok.mp ran
  dsimp only at rest₁
  obtain ⟨ppn, k₂, second, rest₂⟩ := bind_eq_ok.mp rest₁
  obtain ⟨pid, k₃, third, rest₃⟩ := bind_eq_ok.mp rest₂
  obtain ⟨allocated, table₃⟩ := pidAlloc_ok third
  obtain ⟨top, k₄, fourth, rest₄⟩ := bind_eq_ok.mp rest₃
  rw [bind_of_ok (modify_apply _ _)] at rest₄
  obtain ⟨_, k₅, fifth, rest₅⟩ := bind_eq_ok.mp rest₄
  obtain ⟨addr, k₆, sixth, rest₆⟩ := bind_eq_ok.mp rest₅
  rw [get_bind] at rest₆
  obtain ⟨_, k₇, seventh, rest₇⟩ := bind_eq_ok.mp rest₆
  cases rest₇
  have table₂ : k₂.table = k.table :=
    ((keeps_trapCxPpnOf ms).view_eq second).trans ((keeps_liftMachine _).view_eq first)
  have table₄ : k₄.table = { k.table with pidAllocator := k₃.pidAllocator } := by
    rw [(keeps_kernelStackNew pid).view_eq fourth, table₃, table₂]
  have table' := ((keeps_storeTrapCx _ _).view_eq seventh).trans ((keeps_trapCxAddr.view_eq sixth).trans
    (pushChild_table fifth))
  rw [table_appendTask, table₄] at table'
  have alloc' : k'.pidAllocator = k₃.pidAllocator := by
    have := congrArg ProcessTable.pidAllocator table'
    rw [ProcessTable.pidAllocator_modifyTask] at this
    exact this
  have alloc₂ : k₂.pidAllocator = k.pidAllocator := congrArg ProcessTable.pidAllocator table₂
  refine ⟨by rw [← alloc₂, alloc']; exact allocated, ?_⟩
  rw [table', alloc']
  rfl

/-- `add_task` of the child that `fork` or `spawn` built is `RCore.ProcessTable.addChild`. -/
theorem addTask_forked {parent child : TaskControlBlock} {k₁ : Kernel}
    (allocated : k.pidAllocator.alloc = (child.pid, k₁.pidAllocator))
    (forked : k₁.table =
        ({ k.table with
            pidAllocator := k₁.pidAllocator,
            tasks := k.table.tasks ++ [⟨child.pid, .ready, some parent.pid, [], 0⟩] } : ProcessTable).modifyTask
          parent.pid fun v => { v with children := v.children ++ [child.pid] })
    (ran : addTask child.pid k₁ = .ok (u, k')) : k'.table = k.table.addChild parent.pid := by
  rw [addTask_table ran, forked, ProcessTable.addChild_eq allocated]
  simp only [ProcessTable.readyQueue_modifyTask]

theorem sysFork_ok {r : Int} (ran : sysFork img k = .ok (r, k')) :
    ∃ p, k.current = some p ∧ k'.table = k.table.addChild p := by
  unfold sysFork at ran
  obtain ⟨parent, k₁, first, rest₁⟩ := bind_eq_ok.mp ran
  obtain ⟨current, -, same₁⟩ := currentTask_ok first
  subst same₁
  obtain ⟨child, k₂, second, rest₂⟩ := bind_eq_ok.mp rest₁
  obtain ⟨allocated, forked⟩ := fork_table second
  obtain ⟨addr, k₃, third, rest₃⟩ := bind_eq_ok.mp rest₂
  obtain ⟨_, k₄, fourth, rest₄⟩ := bind_eq_ok.mp rest₃
  obtain ⟨_, k₅, fifth, rest₅⟩ := bind_eq_ok.mp rest₄
  cases rest₅
  have kept : k₄.table = k₂.table := ((keeps_storeWord _ _).view_eq fourth).trans (keeps_trapCxAddr.view_eq third)
  have kept₄ : k₄.pidAllocator = k₂.pidAllocator := congrArg ProcessTable.pidAllocator kept
  refine ⟨parent.pid, current, addTask_forked (kept₄ ▸ allocated) (by rw [kept, forked, kept₄]) fifth⟩

theorem sysSpawn_ok {path : Nat} {r : Int} (ran : sysSpawn img path k = .ok (r, k')) :
    k'.table = k.table ∨ ∃ p, k.current = some p ∧ k'.table = k.table.addChild p := by
  unfold sysSpawn at ran
  obtain ⟨name, k₁, first, rest₁⟩ := bind_eq_ok.mp ran
  have table₁ := (keeps_currentPath path).view_eq first
  cases known : getAppDataByName img.apps name with
  | none =>
      rw [known] at rest₁
      cases rest₁
      exact .inl table₁
  | some elf =>
      rw [known] at rest₁
      obtain ⟨parent, k₂, second, rest₂⟩ := bind_eq_ok.mp rest₁
      obtain ⟨current, -, same₂⟩ := currentTask_ok second
      subst same₂
      obtain ⟨child, k₃, third, rest₃⟩ := bind_eq_ok.mp rest₂
      obtain ⟨allocated, spawned⟩ := spawn_table third
      obtain ⟨_, k₄, fourth, rest₄⟩ := bind_eq_ok.mp rest₃
      cases rest₄
      have current' : k.current = some parent.pid := (congrArg ProcessTable.current table₁).symm.trans current
      right
      refine ⟨parent.pid, current', ?_⟩
      rw [← table₁]
      exact addTask_forked allocated spawned fourth

theorem sysExec_table {path : Nat} {r : Int} (nodup : k.table.pids.Nodup) (ran : sysExec img path k = .ok (r, k')) :
    k'.table = k.table := by
  unfold sysExec at ran
  obtain ⟨name, k₁, first, rest₁⟩ := bind_eq_ok.mp ran
  have table₁ := (keeps_currentPath path).view_eq first
  cases known : getAppDataByName img.apps name with
  | none =>
      rw [known] at rest₁
      cases rest₁
      exact table₁
  | some elf =>
      rw [known] at rest₁
      obtain ⟨task, k₂, second, rest₂⟩ := bind_eq_ok.mp rest₁
      obtain ⟨-, -, same₂⟩ := currentTask_ok second
      subst same₂
      obtain ⟨_, k₃, third, rest₃⟩ := bind_eq_ok.mp rest₂
      cases rest₃
      rw [exec_table (table₁ ▸ nodup) third, table₁]

end Img

theorem suspendCurrentAndRunNext_ok (ran : suspendCurrentAndRunNext k = .ok (u, k')) :
    ∃ p, k.current = some p ∧ k'.table = k.table.suspend p := by
  unfold suspendCurrentAndRunNext at ran
  obtain ⟨task, k₁, first, rest₁⟩ := bind_eq_ok.mp ran
  obtain ⟨current, found, same₁⟩ := takeCurrentTask_ok first
  subst same₁
  obtain ⟨_, k₂, second, rest₂⟩ := bind_eq_ok.mp rest₁
  have found₁ : ({ k.table with current := none } : ProcessTable).task? task.pid = some task.view := by
    rw [show ({ k.table with current := none } : ProcessTable).task? task.pid = k.table.task? task.pid from rfl,
      Kernel.task?_table, found]
    rfl
  refine ⟨task.pid, current, ?_⟩
  rw [addTask_table rest₂, setTask_table second]
  unfold ProcessTable.suspend
  rw [ProcessTable.modifyTask_of_task? found₁]
  rfl

theorem dropTask_table (ran : dropTask task k = .ok (u, k')) : k'.table = k.table.dropTask task.pid := by
  unfold dropTask at ran
  rw [get_bind] at ran
  obtain ⟨allocator, k₁, first, rest₁⟩ := bind_eq_ok.mp ran
  obtain ⟨dealloced, same₁⟩ := liftExcept_eq_ok.mp first
  subst same₁
  rw [bind_of_ok (modify_apply _ _)] at rest₁
  have tail := (Keeps.bind (keeps_kernelStackBottomVpn _) fun _ => Keeps.bind Keeps.get fun _ =>
    Keeps.bind (keeps_liftMachine _) fun _ => Keeps.bind (keeps_setKernelSpace _) fun _ =>
      keeps_liftMachine _).view_eq rest₁
  rw [tail, PidAllocator.dealloc_ok dealloced]
  unfold Kernel.table ProcessTable.dropTask
  rw [List.filter_map]
  rfl

theorem dropArc_table (ran : dropArc p k = .ok (u, k')) : k'.table = k.table.dropArc p := by
  unfold dropArc at ran
  rw [get_bind] at ran
  unfold ProcessTable.dropArc
  rw [← Kernel.strongCount_table]
  split at ran
  case isTrue unheld =>
    rw [if_pos unheld]
    obtain ⟨task, k₁, first, rest₁⟩ := bind_eq_ok.mp ran
    obtain ⟨found, same₁⟩ := getTask_ok first
    subst same₁
    rw [dropTask_table rest₁, Kernel.pid_of_task? found]
  case isFalse held =>
    rw [if_neg held]
    cases ran
    rfl


/-- `exit_current_and_run_next(code)` moves the table by `RCore.ProcessTable.exit` of the
current task, which is not `INITPROC`: for `INITPROC` the code panics. -/
theorem exitCurrentAndRunNext_ok {code : Int} (ran : exitCurrentAndRunNext code k = .ok (u, k')) :
    ∃ p, k.current = some p ∧ p ≠ k.initproc ∧ k'.table = k.table.exit p code := by
  unfold exitCurrentAndRunNext at ran
  obtain ⟨task, k₁, first, rest₁⟩ := bind_eq_ok.mp ran
  obtain ⟨current, found, same₁⟩ := takeCurrentTask_ok first
  subst same₁
  obtain ⟨_, k₂, second, rest₂⟩ := bind_eq_ok.mp rest₁
  have table₂ := setTask_table second
  have init₂ : k₂.initproc = k.initproc := congrArg ProcessTable.initproc table₂
  rw [get_bind] at rest₂
  have notInit : task.pid ≠ k.initproc := fun same => by
    rw [if_pos (same.trans init₂.symm)] at rest₂
    obtain ⟨_, _, thrown, -⟩ := bind_eq_ok.mp rest₂
    cases thrown
  rw [if_neg fun same => notInit (same.trans init₂)] at rest₂
  obtain ⟨_, k₄, fourth, rest₄⟩ := bind_eq_ok.mp rest₂
  -- the loop hands each child to `INITPROC`: one `reparent` per child
  have looped : k₄.table = task.children.foldl ProcessTable.reparent k₂.table := by
    refine Triple.forM_foldl (fun t => t.initproc = k₂.initproc) ?_ ?_ task.children k₂.table rfl rfl fourth
    · intro c t atInit s b s' start ran
      subst start
      obtain ⟨childTask, s₁, got, rest⟩ := bind_eq_ok.mp ran
      obtain ⟨childFound, same⟩ := getTask_ok got
      subst same
      obtain ⟨_, s₂, written, pushed⟩ := bind_eq_ok.mp rest
      have childFound' : s₁.table.task? c = some childTask.view := by rw [Kernel.task?_table, childFound]; rfl
      rw [pushChild_table pushed, setTask_table written]
      unfold ProcessTable.reparent
      rw [atInit, ProcessTable.modifyTask_of_task? childFound']
      rfl
    · intro c t atInit
      rw [ProcessTable.initproc_reparent]
      exact atInit
  obtain ⟨task₄, k₅, fifth, rest₅⟩ := bind_eq_ok.mp rest₄
  obtain ⟨found₄, same₅⟩ := getTask_ok fifth
  subst same₅
  obtain ⟨ms, k₆, sixth, rest₆⟩ := bind_eq_ok.mp rest₅
  obtain ⟨_, k₇, seventh, rest₇⟩ := bind_eq_ok.mp rest₆
  have found₄' : k₅.table.task? task.pid = some task₄.view := by rw [Kernel.task?_table, found₄]; rfl
  have cleared : k₇.table = k₅.table.modifyTask task.pid fun w => { w with children := [] } := by
    rw [setTask_table seventh, (keeps_liftMachine _).view_eq sixth, ProcessTable.modifyTask_of_task? found₄']
    rfl
  refine ⟨task.pid, current, notInit, ?_⟩
  rw [dropArc_table rest₇, Kernel.pid_of_task? found₄, cleared, looped, table₂]
  unfold ProcessTable.exit
  rw [show k.table.task? task.pid = some task.view by rw [Kernel.task?_table, found]; rfl]
  rfl

/-- `sys_waitpid` moves the table by `RCore.ProcessTable.wait` of the current task, and returns
what it returns. -/
theorem sysWaitpid_ok {pid : Int} {ptr : Nat} {r : Int} (ran : sysWaitpid pid ptr k = .ok (r, k')) :
    ∃ p, k.current = some p ∧ r = (k.table.wait p pid).1 ∧ k'.table = (k.table.wait p pid).2 := by
  unfold sysWaitpid at ran
  obtain ⟨task, k₁, first, rest₁⟩ := bind_eq_ok.mp ran
  obtain ⟨current, found, same₁⟩ := currentTask_ok first
  subst k₁
  have viewFound : k.table.task? task.pid = some task.view := by rw [Kernel.task?_table, found]; rfl
  refine ⟨task.pid, current, ?_⟩
  unfold ProcessTable.wait
  rw [viewFound]
  dsimp only
  rw [show task.view.children = task.children from rfl]
  by_cases none : (!task.children.any (waitMatches pid)) = true
  · rw [if_pos none] at rest₁
    cases rest₁
    rw [if_pos none]
    exact ⟨rfl, rfl⟩
  rw [if_neg none] at rest₁
  rw [if_neg none]
  rw [get_bind] at rest₁
  generalize picked : List.find? _ task.children.zipIdx = target at rest₁
  have picked' : k.table.waitTarget task.children pid = target := by
    rw [← picked]
    unfold ProcessTable.waitTarget
    simp only [Kernel.isZombie_table]
  rw [picked']
  cases target with
  | none =>
      cases rest₁
      exact ⟨rfl, rfl⟩
  | some pair =>
      obtain ⟨child, idx⟩ := pair
      dsimp only at rest₁ ⊢
      obtain ⟨_, k₂, second, rest₂⟩ := bind_eq_ok.mp rest₁
      rw [get_bind] at rest₂
      by_cases held : k₂.strongCount child ≠ 0
      · rw [if_pos held] at rest₂
        obtain ⟨_, _, thrown, -⟩ := bind_eq_ok.mp rest₂
        cases thrown
      rw [if_neg held] at rest₂
      obtain ⟨childTask, k₃, third, rest₃⟩ := bind_eq_ok.mp rest₂
      obtain ⟨childFound, same₃⟩ := getTask_ok third
      subst k₃
      obtain ⟨_, k₄, fourth, rest₄⟩ := bind_eq_ok.mp rest₃
      obtain ⟨_, k₅, fifth, rest₅⟩ := bind_eq_ok.mp rest₄
      cases rest₅
      refine ⟨rfl, ?_⟩
      rw [dropTask_table fifth, (keeps_storeExitCode _ _ _).view_eq fourth, Kernel.pid_of_task? childFound,
        setTask_table second]
      rfl

/-- One pass of `run_tasks` takes no task, or the one at some position of the ready queue. -/
theorem runTasksStep_ok {now : Nat} (ran : runTasksStep now k = .ok (u, k')) :
    k'.table = k.table ∨ ∃ pos, pos < k.table.readyQueue.length ∧ k'.table = k.table.runTask pos := by
  unfold runTasksStep at ran
  rw [get_bind] at ran
  generalize fetched : k.manager.fetch k.passOf k.priorityOf = picked at ran
  cases picked with
  | none =>
      cases ran
      exact .inl rfl
  | some result =>
      obtain ⟨pid, manager, pass⟩ := result
      obtain ⟨-, inside, named, queue, -⟩ := TaskManager.fetchWith_eq_some fetched
      dsimp only at ran
      rw [bind_of_ok (set_apply _ _)] at ran
      obtain ⟨task, k₁, first, rest₁⟩ := bind_eq_ok.mp ran
      obtain ⟨found, same₁⟩ := getTask_ok first
      subst k₁
      obtain ⟨_, k₂, second, rest₂⟩ := bind_eq_ok.mp rest₁
      rw [modify_apply] at rest₂
      cases rest₂
      refine .inr ⟨_, inside, ?_⟩
      have found' : ({ k with manager }).table.task? pid = some task.view := by
        rw [Kernel.task?_table, found]
        rfl
      have named' : k.table.readyQueue.getD (firstMinPos (k.manager.readyQueue.map k.passOf)) 0 = pid := named.symm
      have queue' : k.table.readyQueue.eraseIdx (firstMinPos (k.manager.readyQueue.map k.passOf)) =
          manager.readyQueue := queue.symm
      unfold ProcessTable.runTask
      rw [named', queue']
      show { k₂.table with current := some pid } =
        { (({ k with manager }).table.modifyTask pid fun v => { v with taskStatus := .running }) with
          current := some pid }
      rw [ProcessTable.modifyTask_of_task? found', setTask_table second]
      rfl

section Calls

theorem liftMachine_ok {α : Type} {x : KernelM α} {a : α} (ran : liftMachine x k = .ok (a, k')) :
    x k.machine = .ok (a, k'.machine) ∧ k' = { k with machine := k'.machine } := by
  unfold liftMachine at ran
  cases ranx : x k.machine with
  | error e => rw [ranx] at ran; cases ran
  | ok r =>
      rw [ranx] at ran
      cases ran
      exact ⟨rfl, rfl⟩

theorem keeps_currentUserToken : Keeps Kernel.table currentUserToken :=
  Keeps.bind keeps_currentTask fun _ => Keeps.pure _

theorem keeps_sysGetpid : Keeps Kernel.table sysGetpid :=
  Keeps.bind keeps_currentTask fun _ => Keeps.pure _

/-- The checks of `sys_read` change no part of the state. -/
theorem keeps_sysReadChecks {τ : Type} (view : Kernel → τ) (fd len : Nat) : Keeps view (sysReadChecks fd len) :=
  Keeps.ite (Keeps.throw _) (Keeps.ite (Keeps.throw _) (Keeps.pure _))

theorem keeps_sysTaskInfo (img : KernelImage) (ti now : Nat) : Keeps Kernel.table (sysTaskInfo img ti now) := by
  unfold sysTaskInfo
  refine Keeps.bind keeps_currentUserToken fun _ => Keeps.bind Keeps.get fun _ =>
    Keeps.bind (Keeps.lift _) fun _ => Keeps.bind keeps_currentTask fun task => ?_
  cases task.startTime with
  | some startTime => exact Keeps.bind Keeps.get fun _ => Keeps.bind (Keeps.modify fun _ => rfl) fun _ => Keeps.pure _
  | none => exact Keeps.throw _

/-- Reading the current block, running machine code on its address space and writing the
block back with the new one: the table sees no change. -/
theorem replaceMemorySet_table (x : MemorySet → KernelM (MemorySet × Int)) {r : Int} (nodup : k.table.pids.Nodup)
    (ran : (do
      let task ← currentTask
      let (memorySet, result) ← liftMachine (x task.memorySet)
      setTask { task with memorySet }
      return result) k = .ok (r, k')) : k'.table = k.table := by
  obtain ⟨task, k₁, first, rest₁⟩ := bind_eq_ok.mp ran
  obtain ⟨-, found, rfl⟩ := currentTask_ok first
  obtain ⟨⟨memorySet, result⟩, k₂, second, rest₂⟩ := bind_eq_ok.mp rest₁
  obtain ⟨-, same₂⟩ := liftMachine_ok second
  have table₂ := (keeps_liftMachine _).view_eq second
  have found₂ : k₂.task? task.pid = some task := by rw [same₂]; exact found
  obtain ⟨_, k₃, third, rest₃⟩ := bind_eq_ok.mp rest₂
  cases rest₃
  rw [setTask_same_view (table₂ ▸ nodup) third found₂ rfl, table₂]

theorem sysMmap_table {start len port : Nat} {r : Int} (nodup : k.table.pids.Nodup)
    (ran : sysMmap start len port k = .ok (r, k')) : k'.table = k.table :=
  replaceMemorySet_table (fun ms => taskMmap ms start len port) nodup ran

theorem sysMunmap_table {start len : Nat} {r : Int} (nodup : k.table.pids.Nodup)
    (ran : sysMunmap start len k = .ok (r, k')) : k'.table = k.table :=
  replaceMemorySet_table (fun ms => taskMunmap ms start len) nodup ran

theorem sysSetPriority_table {prio r : Int} (nodup : k.table.pids.Nodup) (ran : sysSetPriority prio k = .ok (r, k')) :
    k'.table = k.table := by
  unfold sysSetPriority at ran
  split at ran
  · cases ran
    rfl
  · obtain ⟨task, k₁, first, rest₁⟩ := bind_eq_ok.mp ran
    obtain ⟨-, found, rfl⟩ := currentTask_ok first
    obtain ⟨_, k₂, second, rest₂⟩ := bind_eq_ok.mp rest₁
    cases rest₂
    exact setTask_same_view nodup second found rfl

/-- A poll of `sys_read` suspends the task when it finds no byte, and otherwise keeps the table. -/
theorem sysReadPoll_ok {buf c : Nat} (ran : sysReadPoll buf c k = .ok (u, k')) :
    (c = 0 ∧ ∃ p, k.current = some p ∧ k'.table = k.table.suspend p) ∨ (c ≠ 0 ∧ k'.table = k.table) := by
  unfold sysReadPoll at ran
  split at ran
  case isTrue none => exact .inl ⟨none, suspendCurrentAndRunNext_ok ran⟩
  case isFalse some =>
    refine .inr ⟨some, ?_⟩
    obtain ⟨token, k₁, first, rest₁⟩ := bind_eq_ok.mp ran
    rw [get_bind] at rest₁
    obtain ⟨buffers, k₂, second, rest₂⟩ := bind_eq_ok.mp rest₁
    cases head : buffers.head? with
    | none =>
      rw [head] at rest₂
      cases rest₂
    | some slice =>
      rw [head] at rest₂
      obtain ⟨_, k₃, third, rest₃⟩ := bind_eq_ok.mp rest₂
      rw [modify_apply] at third
      cases third
      calc k'.table = _ :=
            (Keeps.bind keeps_currentTask fun _ => Keeps.bind keeps_trapCxAddr fun _ => keeps_storeWord _ _).view_eq rest₃
        _ = k₂.table := rfl
        _ = k₁.table := (Keeps.lift _).view_eq second
        _ = k.table := keeps_currentUserToken.view_eq first

/-- A system call that returns, with a call that keeps the table, is the move `keep`: it keeps
the table and reports nothing. -/
theorem userEnvCall_keeps {e : SysEvent} {n : Nat} {call : SysM Int} {obs : List Observation}
    (nodup : k.table.pids.Nodup) (keepsTable : e.KeepsTable)
    (keeps : ∀ {k₁ k₂ : Kernel} {r : Int}, k₁.table.pids.Nodup → call k₁ = .ok (r, k₂) → k₂.table = k₁.table)
    (ran : (do let _ ← userEnvCall n call; return ([] : List Observation)) k = .ok (obs, k')) :
    ProcessTable.Moves k.table e obs k'.table := by
  obtain ⟨_, k₁, first, rest₁⟩ := bind_eq_ok.mp ran
  cases rest₁
  obtain ⟨k₂, k₃, table₂, called, table'⟩ := userEnvCall_ok nodup first
  rw [table', keeps (table₂ ▸ nodup) called, table₂]
  exact .keep keepsTable

end Calls

/-- Every entry into the kernel that does not panic moves the process table by one of its
moves, and reports what that move reports; it needs only that the live pids are distinct. -/
theorem Kernel.step_moves (img : KernelImage) {e : SysEvent} {obs : List Observation} (nodup : k.table.pids.Nodup)
    (ran : Kernel.step img e k = .ok (obs, k')) : ProcessTable.Moves k.table e obs k'.table := by
  cases e with
  | runTasks now =>
      dsimp only [Kernel.step] at ran
      rw [get_bind] at ran
      by_cases busy : k.current.isSome = true
      · rw [if_pos busy] at ran
        cases ran
        exact .idle
      rw [if_neg busy] at ran
      obtain ⟨_, k₁, first, rest₁⟩ := bind_eq_ok.mp ran
      cases rest₁
      have idle : k.current = none := by simpa using busy
      rcases runTasksStep_ok first with same | ⟨pos, inside, moved⟩
      · rw [same]
        exact .idle
      · rw [moved]
        exact .run idle inside
  | timer =>
      obtain ⟨_, k₁, first, rest₁⟩ := bind_eq_ok.mp ran
      cases rest₁
      obtain ⟨p, current, moved⟩ := suspendCurrentAndRunNext_ok first
      rw [moved]
      exact .timer current
  | yield =>
      obtain ⟨_, k₁, first, rest₁⟩ := bind_eq_ok.mp ran
      obtain ⟨task, k₂, second, rest₂⟩ := bind_eq_ok.mp rest₁
      obtain ⟨addr, k₃, third, rest₃⟩ := bind_eq_ok.mp rest₂
      obtain ⟨_, k₄, fourth, rest₄⟩ := bind_eq_ok.mp rest₃
      obtain ⟨_, k₅, fifth, rest₅⟩ := bind_eq_ok.mp rest₄
      cases rest₅
      have table₄ : k₄.table = k.table := calc
        k₄.table = k₃.table := (keeps_storeWord _ _).view_eq fourth
        _ = k₂.table := keeps_trapCxAddr.view_eq third
        _ = k₁.table := keeps_currentTask.view_eq second
        _ = k.table := enterSyscall_table nodup first
      obtain ⟨p, current, moved⟩ := suspendCurrentAndRunNext_ok fifth
      rw [moved, table₄]
      exact .yield (table₄ ▸ (current : k₄.table.current = some p))
  | exit code =>
      obtain ⟨_, k₁, first, rest₁⟩ := bind_eq_ok.mp ran
      obtain ⟨pid, k₂, second, rest₂⟩ := bind_eq_ok.mp rest₁
      obtain ⟨_, k₃, third, rest₃⟩ := bind_eq_ok.mp rest₂
      cases rest₃
      have table₁ := enterSyscall_table nodup first
      obtain ⟨current₂, same₂⟩ := currentPid_ok second
      subst k₂
      obtain ⟨p, current, notInit, moved⟩ := exitCurrentAndRunNext_ok third
      obtain rfl : p = pid := Option.some.inj (current.symm.trans current₂)
      rw [moved, table₁]
      exact .exit (table₁ ▸ (current : k₁.table.current = some p)) (table₁ ▸ notInit)
  | fault =>
      obtain ⟨pid, k₁, first, rest₁⟩ := bind_eq_ok.mp ran
      obtain ⟨_, k₂, second, rest₂⟩ := bind_eq_ok.mp rest₁
      cases rest₂
      obtain ⟨current₁, same₁⟩ := currentPid_ok first
      subst k₁
      obtain ⟨p, current, notInit, moved⟩ := exitCurrentAndRunNext_ok second
      obtain rfl : p = pid := Option.some.inj (current.symm.trans current₁)
      rw [moved]
      exact .fault current notInit
  | illegalInstruction =>
      obtain ⟨pid, k₁, first, rest₁⟩ := bind_eq_ok.mp ran
      obtain ⟨_, k₂, second, rest₂⟩ := bind_eq_ok.mp rest₁
      cases rest₂
      obtain ⟨current₁, same₁⟩ := currentPid_ok first
      subst k₁
      obtain ⟨p, current, notInit, moved⟩ := exitCurrentAndRunNext_ok second
      obtain rfl : p = pid := Option.some.inj (current.symm.trans current₁)
      rw [moved]
      exact .illegalInstruction current notInit
  | fork =>
      obtain ⟨_, k₁, first, rest₁⟩ := bind_eq_ok.mp ran
      cases rest₁
      obtain ⟨k₂, k₃, table₂, called, table'⟩ := userEnvCall_ok nodup first
      obtain ⟨p, current, moved⟩ := sysFork_ok called
      rw [table', moved, table₂]
      exact .fork (table₂ ▸ (current : k₂.table.current = some p))
  | exec path =>
      obtain ⟨_, k₁, first, rest₁⟩ := bind_eq_ok.mp ran
      cases rest₁
      obtain ⟨k₂, k₃, table₂, called, table'⟩ := userEnvCall_ok nodup first
      rw [table', sysExec_table (table₂ ▸ nodup) called, table₂]
      exact .exec
  | spawn path =>
      obtain ⟨_, k₁, first, rest₁⟩ := bind_eq_ok.mp ran
      cases rest₁
      obtain ⟨k₂, k₃, table₂, called, table'⟩ := userEnvCall_ok nodup first
      rw [table']
      rcases sysSpawn_ok called with same | ⟨p, current, moved⟩
      · rw [same, table₂]
        exact .spawnUnknown
      · rw [moved, table₂]
        exact .spawn (table₂ ▸ (current : k₂.table.current = some p))
  | waitpid pid exitCodePtr =>
      dsimp only [Kernel.step] at ran
      rw [get_bind] at ran
      obtain ⟨result, k₁, first, rest₁⟩ := bind_eq_ok.mp ran
      obtain ⟨k₂, k₃, table₂, called, table₁⟩ := userEnvCall_ok nodup first
      obtain ⟨p, current, returned, moved⟩ := sysWaitpid_ok called
      rw [table₂] at returned moved
      have reported : obs = k.table.waitReport result := by
        unfold ProcessTable.waitReport
        rw [← Kernel.exitCodeOf_table]
        split at rest₁ <;> cases rest₁ <;> simp_all
      have after : k'.table = k₁.table := by split at rest₁ <;> cases rest₁ <;> rfl
      rw [after, table₁, moved, reported, returned]
      exact .waitpid (table₂ ▸ (current : k₂.table.current = some p))
  | write fd buf len =>
      exact userEnvCall_keeps nodup trivial (fun _ called =>
        (Keeps.bind keeps_currentUserToken fun _ => Keeps.bind Keeps.get fun _ => Keeps.lift _).view_eq called) ran
  | read fd buf len c =>
      obtain ⟨_, k₁, first, rest₁⟩ := bind_eq_ok.mp ran
      obtain ⟨_, k₂, second, rest₂⟩ := bind_eq_ok.mp rest₁
      obtain ⟨_, k₃, third, rest₃⟩ := bind_eq_ok.mp rest₂
      cases rest₃
      have table₂ : k₂.table = k.table := by
        rw [(keeps_sysReadChecks Kernel.table fd len).view_eq second, enterSyscall_table nodup first]
      rcases sysReadPoll_ok third with ⟨none, p, current, moved⟩ | ⟨some, kept⟩
      · rw [moved, table₂]
        exact .wait none (table₂ ▸ (current : k₂.table.current = some p))
      · rw [kept, table₂]
        exact .keep some
  | readPoll buf c =>
      obtain ⟨_, k₁, first, rest₁⟩ := bind_eq_ok.mp ran
      cases rest₁
      rcases sysReadPoll_ok first with ⟨none, p, current, moved⟩ | ⟨some, kept⟩
      · rw [moved]
        exact .wait none current
      · rw [kept]
        exact .keep some
  | getpid => exact userEnvCall_keeps nodup trivial (fun _ called => keeps_sysGetpid.view_eq called) ran
  | getTime ts us =>
      exact userEnvCall_keeps nodup trivial (fun _ called =>
        (Keeps.bind keeps_currentUserToken fun _ => keeps_liftMachine _).view_eq called) ran
  | taskInfo ti now =>
      exact userEnvCall_keeps nodup trivial (fun _ called => (keeps_sysTaskInfo img ti now).view_eq called) ran
  | mmap start len port => exact userEnvCall_keeps nodup trivial sysMmap_table ran
  | munmap start len => exact userEnvCall_keeps nodup trivial sysMunmap_table ran
  | setPriority prio => exact userEnvCall_keeps nodup trivial sysSetPriority_table ran

theorem Kernel.run_eq_runEvents (img : KernelImage) :
    ∀ events, Kernel.run img events = Foundation.runEvents (Kernel.step img) events
  | [] => rfl
  | e :: es => by
      rw [Kernel.run, Foundation.runEvents, Kernel.run_eq_runEvents img es]

/-- The kernel refines the machine of process-table moves, under the invariant of the table. -/
theorem Kernel.refines_moves (img : KernelImage) :
    Refines (Kernel.step img) ProcessTable.Moves Kernel.table fun k => k.table.Inv where
  step_spec holds ran := Kernel.step_moves img holds.nodup ran
  step_inv holds ran := holds.moves (Kernel.step_moves img holds.nodup ran)

/-- Every run of the kernel that does not panic, from a state whose table satisfies the
invariant, is a run of the table's moves with the same reports, and ends in the invariant. -/
theorem Kernel.run_moves (img : KernelImage) {events : List SysEvent} {obs : List Observation}
    (inv : k.table.Inv) (ran : Kernel.run img events k = .ok (obs, k')) :
    Trace ProcessTable.Moves k.table events obs k'.table ∧ k'.table.Inv := by
  rw [Kernel.run_eq_runEvents] at ran
  exact (Kernel.refines_moves img).trace events inv ran

/-- `INITPROC` alone, ready, as `add_initproc()` leaves it: the kernel runs it and a timer
interrupt puts it back, and the table stays a process tree. -/
theorem Kernel.run_moves_initproc : ∃ (img : KernelImage) (k k' : Kernel) (obs : List Observation),
    k.table.Inv ∧ Kernel.run img [.runTasks 0, .timer] k = .ok (obs, k') ∧
      Trace ProcessTable.Moves k.table [.runTasks 0, .timer] obs k'.table ∧ k'.table.Inv :=
  let img : KernelImage := ⟨[], 0, 0, 0, 0, ⟨2008, 8, 0⟩⟩
  let initproc : TaskControlBlock := ⟨0, ⟨0⟩, 0, ⟨0, 0, []⟩, .ready, ⟨⟨⟨0⟩, []⟩, []⟩, none, [], 0, 0, 16, [], none⟩
  let k : Kernel := ⟨⟨fun _ => 0, ⟨0, 0, []⟩⟩, ⟨1, []⟩, ⟨⟨⟨0⟩, []⟩, []⟩, [initproc], ⟨[0]⟩, none, 0⟩
  have inv : k.table.Inv := ProcessTable.inv_boot
  have ran : Kernel.run img [.runTasks 0, .timer] k = .ok (_, _) := rfl
  ⟨img, k, _, _, inv, ran, Kernel.run_moves img inv ran⟩

end RCore
