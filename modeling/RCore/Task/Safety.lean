import RCore.Task.TableRefine
import RCore.Mm.Raises

/-! # No entry into the kernel trips an assertion of process management

`PidAllocator::dealloc` asserts that the pid it takes back was handed out and is not recycled,
and `sys_waitpid` that the child it reaps is held by no other `Arc`. From a kernel state whose
process table satisfies `RCore.ProcessTable.Inv`, neither fires on any entry into the kernel
(`RCore.Kernel.step_raises`), and so on no run of entries (`RCore.Kernel.run_raises`).

Most of the kernel's code fails in the ways of the memory code only, whatever the state
(`RCore.sysFork_raises` and the lemmas before it). The assertions sit in the drop of a task
control block, which `exit_current_and_run_next` and `sys_waitpid` reach: a drop gives back a
pid that is live, which the allocator holds as handed out (`RCore.dropTask_raises`), and the
child that `sys_waitpid` reaps is, by the invariant, a zombie that only the caller's `children`
held (`RCore.ProcessTable.Inv.strongCount_reap`).
-/

namespace RCore

open Foundation

variable {k k' : Kernel} {p : Nat} {task : TaskControlBlock} {e : Panic} {u : PUnit}

theorem Kernel.mem_pids_of_task? (found : k.task? p = some task) : p ∈ k.table.pids :=
  ProcessTable.mem_pids_of_task? (v := task.view) (by rw [Kernel.task?_table, found]; rfl)

section Primitives

theorem liftMachine_raises {α : Type} {x : KernelM α} (raises : NoAssertion x) : NoAssertion (liftMachine x) := by
  intro k e failed
  unfold liftMachine at failed
  cases ran : x k.machine with
  | error e' =>
      rw [ran] at failed
      cases failed
      exact raises ran
  | ok r =>
      rw [ran] at failed
      cases failed

theorem setTask_raises (task : TaskControlBlock) : NoAssertion (setTask task) := RaisesOnly.modify _

theorem addTask_raises (p : Nat) : NoAssertion (addTask p) := RaisesOnly.modify _

theorem storeWord_raises (addr value : Nat) : NoAssertion (storeWord addr value) := RaisesOnly.modify _

theorem storeTrapCx_raises (addr : Nat) (cx : TrapContext) : NoAssertion (storeTrapCx addr cx) :=
  RaisesOnly.modify _

theorem getTask_raises (p : Nat) : NoAssertion (getTask p) := by
  unfold getTask
  refine RaisesOnly.get.bind fun k => ?_
  split
  · exact RaisesOnly.pure _
  · exact RaisesOnly.throw (by rfl)

theorem currentTask_raises : NoAssertion currentTask := by
  unfold currentTask
  refine RaisesOnly.get.bind fun k => ?_
  split
  · exact getTask_raises _
  · exact RaisesOnly.throw (by rfl)

theorem takeCurrentTask_raises : NoAssertion takeCurrentTask :=
  currentTask_raises.bind fun _ => (RaisesOnly.modify _).bind fun _ => RaisesOnly.pure _

theorem currentPid_raises : NoAssertion currentPid := currentTask_raises.bind fun _ => RaisesOnly.pure _

theorem pushChild_raises (parent child : Nat) : NoAssertion (pushChild parent child) :=
  (getTask_raises _).bind fun _ => setTask_raises _

theorem pidAlloc_raises : NoAssertion pidAlloc :=
  RaisesOnly.get.bind fun _ => (RaisesOnly.modify _).bind fun _ => RaisesOnly.pure _

theorem KernelStack.new_raises (kernelSpace : MemorySet) (pid : Nat) : NoAssertion (KernelStack.new kernelSpace pid) := by
  rw [KernelStack.new_eq]
  exact (RaisesOnly.lift fun _ failed => MapArea.new_raises failed).bind fun _ => MemorySet.push_raises _

theorem kernelStackNew_raises (pid : Nat) : NoAssertion (kernelStackNew pid) :=
  RaisesOnly.get.bind fun _ => (liftMachine_raises (KernelStack.new_raises _ _)).bind fun _ =>
    (RaisesOnly.modify _).bind fun _ => RaisesOnly.pure _

theorem trapCxPpnOf_raises (ms : MemorySet) : NoAssertion (trapCxPpnOf ms) := by
  unfold trapCxPpnOf
  refine (RaisesOnly.lift fun _ failed => VirtAddr.toVirtPageNum_raises failed).bind fun _ =>
    RaisesOnly.get.bind fun _ => ?_
  split
  · exact RaisesOnly.pure _
  · exact RaisesOnly.throw (by rfl)

theorem trapCxAddr_raises (task : TaskControlBlock) : NoAssertion (trapCxAddr task) :=
  (RaisesOnly.lift fun _ failed => PhysAddr.getMut_raises failed).bind fun _ => RaisesOnly.pure _

theorem kernelStackBottomVpn_raises (pid : Nat) : NoAssertion (kernelStackBottomVpn pid) :=
  RaisesOnly.lift fun _ failed => VirtAddr.toVirtPageNum_raises failed

theorem storeExitCode_raises (token ptr : Nat) (code : Int) : NoAssertion (storeExitCode token ptr code) :=
  RaisesOnly.get.bind fun _ => (RaisesOnly.lift fun _ failed => translatedRefmut_raises failed).bind fun _ =>
    RaisesOnly.modify _

theorem currentPath_raises (path : Nat) : NoAssertion (currentPath path) :=
  currentTask_raises.bind fun _ => RaisesOnly.get.bind fun _ =>
    RaisesOnly.lift fun _ failed => translatedStr_raises failed

theorem suspendCurrentAndRunNext_raises : NoAssertion suspendCurrentAndRunNext :=
  takeCurrentTask_raises.bind fun _ => (setTask_raises _).bind fun _ => addTask_raises _

theorem currentUserToken_raises : NoAssertion currentUserToken := currentTask_raises.bind fun _ => RaisesOnly.pure _

theorem countSyscall_raises (syscallId : Nat) : NoAssertion (countSyscall syscallId) := by
  unfold countSyscall
  exact RaisesOnly.ite (currentTask_raises.bind fun _ => setTask_raises _) (RaisesOnly.pure _)

theorem enterSyscall_raises (syscallId : Nat) : NoAssertion (enterSyscall syscallId) :=
  currentTask_raises.bind fun _ => (trapCxAddr_raises _).bind fun _ => RaisesOnly.get.bind fun _ =>
    (storeWord_raises _ _).bind fun _ => countSyscall_raises _

theorem userEnvCallOf_raises {n : Nat} {call : SysM Int} (raises : NoAssertion call) :
    NoAssertion (userEnvCall n call) :=
  (enterSyscall_raises _).bind fun _ => raises.bind fun _ => currentTask_raises.bind fun _ =>
    (trapCxAddr_raises _).bind fun _ => (storeWord_raises _ _).bind fun _ => RaisesOnly.pure _

theorem runTasksStep_raises (now : Nat) : NoAssertion (runTasksStep now) := by
  unfold runTasksStep
  refine RaisesOnly.get.bind fun k => ?_
  split
  · exact RaisesOnly.pure _
  · exact (RaisesOnly.set _).bind fun _ => (getTask_raises _).bind fun _ => (setTask_raises _).bind fun _ =>
      RaisesOnly.modify _

end Primitives

section Img

variable (img : KernelImage)

theorem TaskControlBlock.exec_raises (task : TaskControlBlock) (elf : ElfFile) : NoAssertion (task.exec img elf) := by
  unfold TaskControlBlock.exec
  dsimp only
  exact (liftMachine_raises (MemorySet.fromElf_raises _ _)).bind fun _ => (trapCxPpnOf_raises _).bind fun _ =>
    (getTask_raises _).bind fun _ => (setTask_raises _).bind fun _ =>
      (liftMachine_raises MemorySet.drop_raises).bind fun _ => (trapCxAddr_raises _).bind fun _ =>
        RaisesOnly.get.bind fun _ => storeTrapCx_raises _ _

theorem TaskControlBlock.fork_raises (parent : TaskControlBlock) : NoAssertion (parent.fork img) :=
  (liftMachine_raises (MemorySet.fromExistedUser_raises _ _)).bind fun _ => (trapCxPpnOf_raises _).bind fun _ =>
    pidAlloc_raises.bind fun _ => (kernelStackNew_raises _).bind fun _ => (RaisesOnly.modify _).bind fun _ =>
      (pushChild_raises _ _).bind fun _ => (trapCxAddr_raises _).bind fun _ =>
        (storeWord_raises _ _).bind fun _ => RaisesOnly.pure _

theorem TaskControlBlock.spawn_raises (parent : TaskControlBlock) (elf : ElfFile) :
    NoAssertion (parent.spawn img elf) := by
  unfold TaskControlBlock.spawn
  dsimp only
  exact (liftMachine_raises (MemorySet.fromElf_raises _ _)).bind fun _ => (trapCxPpnOf_raises _).bind fun _ =>
    pidAlloc_raises.bind fun _ => (kernelStackNew_raises _).bind fun _ => (RaisesOnly.modify _).bind fun _ =>
      (pushChild_raises _ _).bind fun _ => (trapCxAddr_raises _).bind fun _ =>
        RaisesOnly.get.bind fun _ => (storeTrapCx_raises _ _).bind fun _ => RaisesOnly.pure _

theorem sysFork_raises : NoAssertion (sysFork img) :=
  currentTask_raises.bind fun _ => (TaskControlBlock.fork_raises img _).bind fun _ =>
    (trapCxAddr_raises _).bind fun _ => (storeWord_raises _ _).bind fun _ =>
      (addTask_raises _).bind fun _ => RaisesOnly.pure _

theorem sysExec_raises (path : Nat) : NoAssertion (sysExec img path) := by
  unfold sysExec
  refine (currentPath_raises _).bind fun _ => ?_
  split
  · exact currentTask_raises.bind fun _ => (TaskControlBlock.exec_raises img _ _).bind fun _ => RaisesOnly.pure _
  · exact RaisesOnly.pure _

theorem sysSpawn_raises (path : Nat) : NoAssertion (sysSpawn img path) := by
  unfold sysSpawn
  refine (currentPath_raises _).bind fun _ => ?_
  split
  · exact currentTask_raises.bind fun _ => (TaskControlBlock.spawn_raises img _ _).bind fun _ =>
      (addTask_raises _).bind fun _ => RaisesOnly.pure _
  · exact RaisesOnly.pure _

end Img

section Drop

/-- `PID_ALLOCATOR` with the pids of the live task control blocks. -/
def Kernel.pidState (k : Kernel) : PidState := ⟨k.table.pidAllocator, k.table.pids⟩

theorem keeps_pidState_of_table {α : Type} {x : SysM α} (keeps : Keeps Kernel.table x) : Keeps Kernel.pidState x :=
  keeps.map fun t => (⟨t.pidAllocator, t.pids⟩ : PidState)

theorem keeps_pidState_setTask (task : TaskControlBlock) : Keeps Kernel.pidState (setTask task) := by
  intro t k a k' start ran
  rw [← start]
  unfold Kernel.pidState
  rw [setTask_table ran]
  show (⟨k.table.pidAllocator, (Foundation.replace TaskView.pid k.table.tasks task.view).map TaskView.pid⟩ : PidState) = _
  rw [Foundation.map_key_replace]
  rfl

theorem keeps_pidState_takeCurrentTask : Keeps Kernel.pidState takeCurrentTask := by
  intro t k a k' start ran
  obtain ⟨-, -, rfl⟩ := takeCurrentTask_ok ran
  exact start

theorem keeps_pidState_pushChild (parent child : Nat) : Keeps Kernel.pidState (pushChild parent child) :=
  (keeps_pidState_of_table keeps_getTask).bind fun _ => keeps_pidState_setTask _

/-- The drop of a block whose pid is live gives back a pid that the allocator handed out and
holds as such. -/
theorem dropTask_raises (sound : k.pidState.Inv) (live : task.pid ∈ k.table.pids)
    (failed : dropTask task k = .error e) : e.processAssertion = false := by
  unfold dropTask at failed
  rw [get_bind] at failed
  have dealloced : k.pidAllocator.dealloc task.pid = _ := sound.dealloc_of_mem live
  rcases bind_eq_error.mp failed with early | ⟨allocator, k₁, -, rest₁⟩
  · rw [liftExcept_apply, dealloced] at early
    cases early
  · exact ((RaisesOnly.modify _).bind fun _ => (kernelStackBottomVpn_raises _).bind fun _ =>
      RaisesOnly.get.bind fun _ => (liftMachine_raises (MemorySet.removeAreaWithStartVpn_raises _)).bind fun _ =>
        (RaisesOnly.modify _).bind fun _ => liftMachine_raises MemorySet.drop_raises) rest₁

theorem dropArc_raises (sound : k.pidState.Inv) (failed : dropArc p k = .error e) : e.processAssertion = false := by
  unfold dropArc at failed
  rw [get_bind] at failed
  split at failed
  · rcases bind_eq_error.mp failed with early | ⟨task, k₁, first, rest₁⟩
    · exact getTask_raises _ early
    obtain ⟨found, rfl⟩ := getTask_ok first
    exact dropTask_raises sound (Kernel.pid_of_task? found ▸ Kernel.mem_pids_of_task? found) rest₁
  · cases failed

/-- `exit_current_and_run_next` drops the last `Arc` of the block only after steps that leave the
allocator and the live pids alone. -/
theorem exitCurrentAndRunNext_raises {code : Int} (sound : k.pidState.Inv)
    (failed : exitCurrentAndRunNext code k = .error e) : e.processAssertion = false := by
  unfold exitCurrentAndRunNext at failed
  rcases bind_eq_error.mp failed with early | ⟨task, k₁, first, rest₁⟩
  · exact takeCurrentTask_raises early
  rcases bind_eq_error.mp rest₁ with early | ⟨_, k₂, second, rest₂⟩
  · exact setTask_raises _ early
  rw [get_bind] at rest₂
  by_cases isInit : task.pid = k₂.initproc
  · rw [if_pos isInit] at rest₂
    exact (RaisesOnly.throw_bind (by rfl) : NoAssertion (throw _ >>= _)) rest₂
  rw [if_neg isInit] at rest₂
  rcases bind_eq_error.mp rest₂ with early | ⟨_, k₃, third, rest₃⟩
  · refine (RaisesOnly.forM (fun c => ?_) _ : NoAssertion (List.forM _ _)) early
    exact (getTask_raises _).bind fun _ => (setTask_raises _).bind fun _ => pushChild_raises _ _
  rcases bind_eq_error.mp rest₃ with early | ⟨task₃, k₄, fourth, rest₄⟩
  · exact getTask_raises _ early
  rcases bind_eq_error.mp rest₄ with early | ⟨ms, k₅, fifth, rest₅⟩
  · exact liftMachine_raises MemorySet.recycleDataPages_raises early
  rcases bind_eq_error.mp rest₅ with early | ⟨_, k₆, sixth, rest₆⟩
  · exact setTask_raises _ early
  have looped : k₃.pidState = k₂.pidState := by
    refine (Keeps.forM (fun c => ?_) _).view_eq third
    exact (keeps_pidState_of_table keeps_getTask).bind fun _ => (keeps_pidState_setTask _).bind fun _ =>
      keeps_pidState_pushChild _ _
  have kept : k₆.pidState = k.pidState := by
    rw [(keeps_pidState_setTask _).view_eq sixth, (keeps_pidState_of_table (keeps_liftMachine _)).view_eq fifth,
      (keeps_pidState_of_table keeps_getTask).view_eq fourth, looped, (keeps_pidState_setTask _).view_eq second,
      keeps_pidState_takeCurrentTask.view_eq first]
  exact dropArc_raises (kept ▸ sound) rest₆

/-- `sys_waitpid` reaps a zombie child that, once out of the caller's `children`, no place holds,
and gives back its live pid. -/
theorem sysWaitpid_raises {pid : Int} {ptr : Nat} (inv : k.table.Inv) (failed : sysWaitpid pid ptr k = .error e) :
    e.processAssertion = false := by
  unfold sysWaitpid at failed
  rcases bind_eq_error.mp failed with early | ⟨task, k₁, first, rest₁⟩
  · exact currentTask_raises early
  obtain ⟨-, found, same₁⟩ := currentTask_ok first
  subst k₁
  have viewFound : k.table.task? task.pid = some task.view := by rw [Kernel.task?_table, found]; rfl
  by_cases none : (!task.children.any (waitMatches pid)) = true
  · rw [if_pos none] at rest₁
    cases rest₁
  rw [if_neg none, get_bind] at rest₁
  generalize picked : List.find? _ task.children.zipIdx = target at rest₁
  cases target with
  | none => cases rest₁
  | some pair =>
      obtain ⟨child, idx⟩ := pair
      have picked' : k.table.waitTarget task.view.children pid = some (child, idx) := by
        rw [← picked]
        unfold ProcessTable.waitTarget
        simp only [Kernel.isZombie_table]
        rfl
      dsimp only at rest₁
      rcases bind_eq_error.mp rest₁ with early | ⟨_, k₂, second, rest₂⟩
      · exact setTask_raises _ early
      rw [get_bind] at rest₂
      have unheld : k₂.strongCount child = 0 := by
        rw [Kernel.strongCount_table, setTask_table second]
        exact inv.strongCount_reap viewFound picked'
      rw [if_neg (not_not_intro unheld)] at rest₂
      rcases bind_eq_error.mp rest₂ with early | ⟨childTask, k₃, third, rest₃⟩
      · exact getTask_raises _ early
      obtain ⟨childFound, same₃⟩ := getTask_ok third
      subst k₃
      rcases bind_eq_error.mp rest₃ with early | ⟨_, k₄, fourth, rest₄⟩
      · exact storeExitCode_raises _ _ _ early
      rcases bind_eq_error.mp rest₄ with early | ⟨_, k₅, -, rest₅⟩
      · have table₄ := (keeps_storeExitCode _ _ _).view_eq fourth
        have kept : k₄.pidState = k.pidState := by
          rw [(keeps_pidState_of_table (keeps_storeExitCode _ _ _)).view_eq fourth,
            (keeps_pidState_setTask _).view_eq second]
        refine dropTask_raises (kept ▸ inv.pids) ?_ early
        rw [table₄, Kernel.pid_of_task? childFound]
        exact Kernel.mem_pids_of_task? childFound
      · cases rest₅

end Drop

section Calls

/-- What `sys_write` prints fails only on a slice that is not UTF-8; by induction on the slices. -/
theorem printBuffers_raises (buffers : List (List UInt8)) :
    ∀ {e : Panic}, (printBuffers buffers).2 = .error e → e.processAssertion = false := by
  induction buffers with
  | nil =>
      intro e failed
      cases failed
  | cons buffer rest ih =>
      intro e failed
      unfold printBuffers at failed
      split at failed
      · cases failed
        rfl
      · exact ih failed

theorem sysWrite_raises {token fd buf len : Nat} {mem : Nat → UInt8}
    (failed : (sysWrite token mem fd buf len).2 = .error e) : e.processAssertion = false := by
  unfold sysWrite at failed
  split at failed
  · split at failed
    · next e' translated =>
        cases failed
        exact translatedByteBuffer_raises translated
    · next slices _ =>
        dsimp only at failed
        cases printed : (printBuffers (slices.map (ByteSlice.bytes mem))).2 with
        | error e' =>
            rw [printed] at failed
            cases failed
            exact printBuffers_raises _ printed
        | ok u =>
            rw [printed] at failed
            cases failed
  · cases failed
    rfl

theorem sysGetpid_raises : NoAssertion sysGetpid := currentTask_raises.bind fun _ => RaisesOnly.pure _

theorem sysSetPriority_raises (prio : Int) : NoAssertion (sysSetPriority prio) := by
  unfold sysSetPriority
  exact RaisesOnly.ite (RaisesOnly.pure _)
    (currentTask_raises.bind fun _ => (setTask_raises _).bind fun _ => RaisesOnly.pure _)

/-- Replacing the address space of the current block by the one machine code builds fails only
where that code fails. -/
theorem replaceMemorySet_raises (x : MemorySet → KernelM (MemorySet × Int)) (raises : ∀ ms, NoAssertion (x ms)) :
    NoAssertion (do
      let task ← currentTask
      let (memorySet, result) ← liftMachine (x task.memorySet)
      setTask { task with memorySet }
      return result) :=
  currentTask_raises.bind fun task => (liftMachine_raises (raises task.memorySet)).bind fun _ =>
    (setTask_raises _).bind fun _ => RaisesOnly.pure _

theorem sysMmap_raises (start len port : Nat) : NoAssertion (sysMmap start len port) := by
  unfold sysMmap
  exact replaceMemorySet_raises (fun ms => taskMmap ms start len port) fun _ => taskMmap_raises start len port

theorem sysMunmap_raises (start len : Nat) : NoAssertion (sysMunmap start len) := by
  unfold sysMunmap
  exact replaceMemorySet_raises (fun ms => taskMunmap ms start len) fun _ => taskMunmap_raises start len

theorem sysTaskInfo_raises (img : KernelImage) (ti now : Nat) : NoAssertion (sysTaskInfo img ti now) := by
  unfold sysTaskInfo
  refine currentUserToken_raises.bind fun _ => RaisesOnly.get.bind fun _ =>
    (RaisesOnly.lift fun _ failed => translatedRefmut_raises failed).bind fun _ => currentTask_raises.bind fun task => ?_
  cases task.startTime with
  | some startTime => exact RaisesOnly.get.bind fun _ => (RaisesOnly.modify _).bind fun _ => RaisesOnly.pure _
  | none => exact RaisesOnly.throw (by rfl)

theorem sysReadChecks_raises (fd len : Nat) : NoAssertion (sysReadChecks fd len) :=
  RaisesOnly.ite (RaisesOnly.throw (by rfl)) (RaisesOnly.ite (RaisesOnly.throw (by rfl)) (RaisesOnly.pure _))

theorem sysReadPoll_raises (buf c : Nat) : NoAssertion (sysReadPoll buf c) := by
  unfold sysReadPoll
  refine RaisesOnly.ite suspendCurrentAndRunNext_raises ?_
  refine currentUserToken_raises.bind fun _ => RaisesOnly.get.bind fun _ =>
    (RaisesOnly.lift fun _ failed => translatedByteBuffer_raises failed).bind fun buffers => ?_
  cases buffers.head? with
  | none => exact RaisesOnly.throw (by rfl)
  | some slice =>
      exact (RaisesOnly.modify _).bind fun _ => currentTask_raises.bind fun _ => (trapCxAddr_raises _).bind fun _ =>
        storeWord_raises _ _

end Calls

section Step

/-- A system call that returns fails in the ways of its entry, of the call from the table its
entry leaves as it was, and of the store of its result. -/
theorem userEnvCall_raises {n : Nat} {call : SysM Int} (nodup : k.table.pids.Nodup)
    (safe : ∀ {k₁ : Kernel} {e : Panic}, k₁.table = k.table → call k₁ = .error e → e.processAssertion = false)
    (failed : userEnvCall n call k = .error e) : e.processAssertion = false := by
  unfold userEnvCall at failed
  rcases bind_eq_error.mp failed with early | ⟨_, k₁, first, rest₁⟩
  · exact enterSyscall_raises _ early
  rcases bind_eq_error.mp rest₁ with early | ⟨r, k₂, -, rest₂⟩
  · exact safe (enterSyscall_table nodup first) early
  · exact (currentTask_raises.bind fun _ => (trapCxAddr_raises _).bind fun _ =>
      (storeWord_raises _ _).bind fun _ => RaisesOnly.pure _) rest₂

/-- An exit of the current task, with its report. -/
theorem exitReported_raises {code : Int} (sound : k.pidState.Inv)
    (failed : (do let pid ← currentPid; exitCurrentAndRunNext code; return [Observation.exited pid code]) k =
      .error e) : e.processAssertion = false := by
  rcases bind_eq_error.mp failed with early | ⟨pid, k₁, first, rest₁⟩
  · exact currentPid_raises early
  obtain ⟨-, same₁⟩ := currentPid_ok first
  subst k₁
  rcases bind_eq_error.mp rest₁ with early | ⟨_, k₂, -, rest₂⟩
  · exact exitCurrentAndRunNext_raises sound early
  · cases rest₂

/-- From a kernel state whose process table satisfies the invariant, no entry into the kernel
panics with an assertion of process management. -/
theorem Kernel.step_raises (img : KernelImage) {ev : SysEvent} {err : Panic} (inv : k.table.Inv)
    (failed : Kernel.step img ev k = .error err) : err.processAssertion = false := by
  cases ev with
  | runTasks now =>
      dsimp only [Kernel.step] at failed
      exact (RaisesOnly.get.bind fun _ => RaisesOnly.ite (RaisesOnly.pure _)
        ((runTasksStep_raises now).bind fun _ => RaisesOnly.pure _) : NoAssertion _) failed
  | timer => exact (suspendCurrentAndRunNext_raises.bind fun _ => RaisesOnly.pure _ : NoAssertion _) failed
  | yield =>
      exact ((enterSyscall_raises _).bind fun _ => currentTask_raises.bind fun _ => (trapCxAddr_raises _).bind
        fun _ => (storeWord_raises _ _).bind fun _ => suspendCurrentAndRunNext_raises.bind fun _ =>
          RaisesOnly.pure _ : NoAssertion _) failed
  | exit code =>
      dsimp only [Kernel.step] at failed
      rcases bind_eq_error.mp failed with early | ⟨_, k₁, first, rest₁⟩
      · exact enterSyscall_raises _ early
      have table₁ := enterSyscall_table inv.nodup first
      refine exitReported_raises ?_ rest₁
      show PidState.Inv ⟨k₁.table.pidAllocator, k₁.table.pids⟩
      rw [table₁]
      exact inv.pids
  | fault => exact exitReported_raises inv.pids failed
  | illegalInstruction => exact exitReported_raises inv.pids failed
  | fork =>
      exact ((RaisesOnly.bind (userEnvCallOf_raises (sysFork_raises img))) fun _ => RaisesOnly.pure _ : NoAssertion _)
        failed
  | exec path =>
      exact ((RaisesOnly.bind (userEnvCallOf_raises (sysExec_raises img path))) fun _ => RaisesOnly.pure _ :
        NoAssertion _) failed
  | spawn path =>
      exact ((RaisesOnly.bind (userEnvCallOf_raises (sysSpawn_raises img path))) fun _ => RaisesOnly.pure _ :
        NoAssertion _) failed
  | waitpid pid exitCodePtr =>
      dsimp only [Kernel.step] at failed
      rw [get_bind] at failed
      rcases bind_eq_error.mp failed with early | ⟨r, k₁, -, rest₁⟩
      · exact userEnvCall_raises inv.nodup (fun same called => sysWaitpid_raises (same ▸ inv) called) early
      · split at rest₁ <;> cases rest₁
  | write fd buf len =>
      exact ((userEnvCallOf_raises (currentUserToken_raises.bind fun _ => RaisesOnly.get.bind fun _ =>
        RaisesOnly.lift fun _ written => sysWrite_raises written)).bind fun _ => RaisesOnly.pure _ : NoAssertion _) failed
  | read fd buf len c =>
      exact ((enterSyscall_raises _).bind fun _ => (sysReadChecks_raises _ _).bind fun _ =>
        (sysReadPoll_raises _ _).bind fun _ => RaisesOnly.pure _ : NoAssertion _) failed
  | readPoll buf c => exact ((sysReadPoll_raises _ _).bind fun _ => RaisesOnly.pure _ : NoAssertion _) failed
  | getpid => exact ((userEnvCallOf_raises sysGetpid_raises).bind fun _ => RaisesOnly.pure _ : NoAssertion _) failed
  | getTime ts us =>
      exact ((userEnvCallOf_raises (currentUserToken_raises.bind fun _ => liftMachine_raises
        (RaisesOnly.get.bind fun _ => (RaisesOnly.lift fun _ translated => translatedRefmut_raises translated).bind
          fun _ => (RaisesOnly.set _).bind fun _ => RaisesOnly.pure _))).bind fun _ => RaisesOnly.pure _ :
        NoAssertion _) failed
  | taskInfo ti now =>
      exact ((userEnvCallOf_raises (sysTaskInfo_raises img ti now)).bind fun _ => RaisesOnly.pure _ : NoAssertion _)
        failed
  | mmap start len port =>
      exact ((userEnvCallOf_raises (sysMmap_raises start len port)).bind fun _ => RaisesOnly.pure _ : NoAssertion _)
        failed
  | munmap start len =>
      exact ((userEnvCallOf_raises (sysMunmap_raises start len)).bind fun _ => RaisesOnly.pure _ : NoAssertion _) failed
  | setPriority prio =>
      exact ((userEnvCallOf_raises (sysSetPriority_raises _)).bind fun _ => RaisesOnly.pure _ : NoAssertion _) failed

/-- From a kernel state whose process table satisfies the invariant, no run of entries into the
kernel panics with an assertion of process management. -/
theorem Kernel.run_raises (img : KernelImage) {events : List SysEvent} {err : Panic} (inv : k.table.Inv)
    (failed : Kernel.run img events k = .error err) : err.processAssertion = false := by
  rw [Kernel.run_eq_runEvents] at failed
  exact (Kernel.refines_moves img).raises (fun start stepFailed => Kernel.step_raises img start stepFailed) events
    inv failed

/-- `INITPROC` alone, with its trap context in frame 1: once it runs, its `sys_exit` panics, as
`exit_current_and_run_next` borrows `INITPROC` twice, and that is no assertion of process
management. -/
theorem Kernel.run_raises_initproc_exit : ∃ (img : KernelImage) (k : Kernel) (err : Panic),
    k.table.Inv ∧ Kernel.run img [.runTasks 0, .exit 0] k = .error err ∧ err.processAssertion = false :=
  let img : KernelImage := ⟨[], 0, 0, 0, 0, ⟨2008, 8, 0⟩⟩
  let initproc : TaskControlBlock := ⟨0, ⟨1⟩, 0, ⟨0, 0, []⟩, .ready, ⟨⟨⟨0⟩, []⟩, []⟩, none, [], 0, 0, 16, [], none⟩
  let k : Kernel := ⟨⟨fun _ => 0, ⟨0, 0, []⟩⟩, ⟨1, []⟩, ⟨⟨⟨0⟩, []⟩, []⟩, [initproc], ⟨[0]⟩, none, 0⟩
  have inv : k.table.Inv := ProcessTable.inv_boot
  have ran : Kernel.run img [.runTasks 0, .exit 0] k = .error .alreadyBorrowed := rfl
  ⟨img, k, _, inv, ran, Kernel.run_raises img inv ran⟩

end Step

end RCore
