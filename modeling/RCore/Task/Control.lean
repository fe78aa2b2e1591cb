import RCore.Task.Pid
import RCore.Task.Manager
import RCore.Mm.UserBuffer

/-! # Task control blocks and the process system calls

`os5/src/task/task.rs`, `task/mod.rs`, `task/processor.rs` and the process calls of
`syscall/process.rs`. The kernel state (`RCore.Kernel`) is the machine, `PID_ALLOCATOR`,
`KERNEL_SPACE`, the task control blocks that are alive, the ready queue of `TASK_MANAGER` and
`PROCESSOR.current`. A task control block is shared through `Arc`s; the model names each block
by its pid and keeps the places that hold an `Arc` of it (a parent's `children`, the ready queue,
`PROCESSOR.current`, the static `INITPROC`), so `Arc::strong_count` is the number of those places
(`RCore.Kernel.strongCount`). Weak parent links are pids.

The trap context lives in the frame `trap_cx_ppn` of the task's own address space, as the
37 `usize` words of `#[repr(C)] TrapContext` (`RCore.TrapContext.store`). The addresses of
`trap_return`, `trap_handler` and `strampoline`, the value `sstatus::read()` returns inside a
system call and the applications linked into the kernel are those of the kernel image
(`RCore.KernelImage`).
-/

namespace RCore

/-- `TaskStatus`. -/
inductive TaskStatus where
  | unInit
  | ready
  | running
  | zombie
deriving DecidableEq, Repr

/-- `TaskContext`: `ra`, `sp` and the twelve callee-saved registers. -/
structure TaskContext where
  ra : Nat
  sp : Nat
  s : List Nat
deriving DecidableEq, Repr

/-- `TaskContext::goto_trap_return(kstack_ptr)`, with the address of `trap_return`. -/
def TaskContext.gotoTrapReturn (trapReturn kstackPtr : Nat) : TaskContext :=
  ⟨trapReturn, kstackPtr, List.replicate 12 0⟩

/-- `TrapContext`. -/
structure TrapContext where
  x : List Nat
  sstatus : Nat
  sepc : Nat
  kernelSatp : Nat
  kernelSp : Nat
  trapHandler : Nat
deriving DecidableEq, Repr

namespace TrapContext

/-- `TrapContext::app_init_context`, with `sstatus` the value of `sstatus::read()`;
`set_spp(SPP::User)` clears bit 8. -/
def appInitContext (sstatus entry sp kernelSatp kernelSp trapHandler : Nat) : TrapContext :=
  let sstatus := sstatus &&& (usizeMax - 2 ^ 8)
  let cx : TrapContext := ⟨List.replicate 32 0, sstatus, entry, kernelSatp, kernelSp, trapHandler⟩
  { cx with x := cx.x.set 2 sp }

/-- The words of the context in the order of its `#[repr(C)]` layout. -/
def words (cx : TrapContext) : List Nat :=
  cx.x ++ [cx.sstatus, cx.sepc, cx.kernelSatp, cx.kernelSp, cx.trapHandler]

/-- Byte offset of `sepc`. -/
def sepcOffset : Nat := 8 * 33

/-- Byte offset of `kernel_sp`. -/
def kernelSpOffset : Nat := 8 * 35

/-- Byte offset of `x[i]`. -/
def xOffset (i : Nat) : Nat := 8 * i

end TrapContext

/-- Memory with the words stored from `addr` on, eight little-endian bytes each. -/
def storeWords (mem : Nat → UInt8) (addr : Nat) : List Nat → Nat → UInt8
  | [] => mem
  | word :: rest => storeWords (Foundation.storeLE mem addr 8 word) (addr + 8) rest

/-- `*trap_cx = cx` for the context at physical address `addr`. -/
def TrapContext.store (mem : Nat → UInt8) (addr : Nat) (cx : TrapContext) : Nat → UInt8 :=
  storeWords mem addr cx.words

/-- The byte offsets the compiler gave the fields `status`, `syscall_times` and `time` of
`TaskInfo`, which is not `#[repr(C)]`. -/
structure TaskInfoLayout where
  status : Nat
  syscallTimes : Nat
  time : Nat
deriving DecidableEq, Repr

/-- What the kernel binary fixes: the linked applications with the files `xmas_elf` parses from
them, the addresses of `strampoline`, `trap_return` and `trap_handler`, the value
`sstatus::read()` returns while a system call runs, and the layout of `TaskInfo`. -/
structure KernelImage where
  apps : List (List UInt8 × ElfFile)
  strampoline : Nat
  trapReturn : Nat
  trapHandler : Nat
  sstatus : Nat
  taskInfo : TaskInfoLayout

/-- `get_app_data_by_name(name)`: the first application of that name. -/
def getAppDataByName (apps : List (List UInt8 × ElfFile)) (name : List UInt8) : Option ElfFile :=
  (apps.find? fun app => app.1 == name).map (·.2)

/-- `TaskControlBlock` with its `TaskControlBlockInner`. The `KernelStack` holds the pid. -/
structure TaskControlBlock where
  pid : Nat
  trapCxPpn : PhysPageNum
  baseSize : Nat
  taskCx : TaskContext
  taskStatus : TaskStatus
  memorySet : MemorySet
  parent : Option Nat
  children : List Nat
  exitCode : Int
  pass : Nat
  priority : Nat
  syscallTimes : List Nat
  startTime : Option Nat

/-- The state of the kernel that the process calls read and write. -/
structure Kernel where
  machine : Machine
  pidAllocator : PidAllocator
  kernelSpace : MemorySet
  tasks : List TaskControlBlock
  manager : TaskManager
  current : Option Nat
  initproc : Nat

/-- Kernel code over the whole kernel state, which may panic. -/
abbrev SysM := StateT Kernel (Except Panic)

namespace Kernel

/-- The task control block of `pid`. -/
def task? (k : Kernel) (pid : Nat) : Option TaskControlBlock := k.tasks.find? (·.pid == pid)

/-- `Arc::strong_count` of the block of `pid`: the `children` entries, the ready queue,
`PROCESSOR.current` and `INITPROC`. -/
def strongCount (k : Kernel) (pid : Nat) : Nat :=
  (k.tasks.map fun task => task.children.count pid).sum + k.manager.readyQueue.count pid +
    (if k.current = some pid then 1 else 0) + (if k.initproc = pid then 1 else 0)

end Kernel

/-- Run machine code on the kernel's machine. -/
def liftMachine {α : Type} (x : KernelM α) : SysM α := fun k =>
  (x k.machine).map fun (a, m) => (a, { k with machine := m })

/-- Write the block back, under its pid. -/
def setTask (task : TaskControlBlock) : SysM Unit :=
  modify fun k => { k with tasks := k.tasks.map fun t => if t.pid = task.pid then task else t }

/-- The block of `pid`; every pid the kernel follows names a block that is alive. -/
def getTask (pid : Nat) : SysM TaskControlBlock := do
  match (← get).task? pid with
  | some task => pure task
  | none => throw .noCurrentTask

/-- `current_task().unwrap()`. -/
def currentTask : SysM TaskControlBlock := do
  match (← get).current with
  | some pid => getTask pid
  | none => throw .noCurrentTask

/-- `take_current_task().unwrap()`. -/
def takeCurrentTask : SysM TaskControlBlock := do
  let task ← currentTask
  modify fun k => { k with current := none }
  return task

/-- `add_task(task)`. -/
def addTask (pid : Nat) : SysM Unit :=
  modify fun k => { k with manager := k.manager.add pid }

/-- `pid_alloc()`. -/
def pidAlloc : SysM Nat := do
  let (pid, pidAllocator) := (← get).pidAllocator.alloc
  modify fun k => { k with pidAllocator }
  return pid

/-- `KernelStack::new(&pid_handle)` on `KERNEL_SPACE`; the stack's top. -/
def kernelStackNew (pid : Nat) : SysM Nat := do
  let kernelSpace ← liftMachine (KernelStack.new (← get).kernelSpace pid)
  modify fun k => { k with kernelSpace }
  return (kernelStackPosition pid).2

/-- `memory_set.translate(VirtAddr::from(TRAP_CONTEXT).into()).unwrap().ppn()`. -/
def trapCxPpnOf (ms : MemorySet) : SysM PhysPageNum := do
  let vpn ← StateT.lift (VirtAddr.toVirtPageNum ⟨trapContext⟩)
  match ms.translate (← get).machine.mem vpn with
  | some pte => pure pte.ppn
  | none => throw (.translationMissing vpn.val)

/-- `get_trap_cx()`: the physical address of the trap context, `trap_cx_ppn.get_mut()`. -/
def trapCxAddr (task : TaskControlBlock) : SysM Nat := do
  let pa ← StateT.lift task.trapCxPpn.toPhysAddr.getMut
  return pa.val

/-- Write `cx` as the trap context at `addr`. -/
def storeTrapCx (addr : Nat) (cx : TrapContext) : SysM Unit :=
  modify fun k => { k with machine := { k.machine with mem := TrapContext.store k.machine.mem addr cx } }

/-- Write one `usize` field of a trap context. -/
def storeWord (addr value : Nat) : SysM Unit :=
  modify fun k => { k with machine := { k.machine with mem := Foundation.storeLE k.machine.mem addr 8 value } }

/-- `push` a new child to the `children` of `parent`, read again from the state. -/
def pushChild (parent child : Nat) : SysM Unit := do
  let task ← getTask parent
  setTask { task with children := task.children ++ [child] }

variable (img : KernelImage)

/-- `TaskControlBlock::new(elf_data)`, used for `INITPROC`. -/
def TaskControlBlock.new (elf : ElfFile) : SysM TaskControlBlock := do
  let (memorySet, userSp, entryPoint) ← liftMachine (MemorySet.fromElf img.strampoline elf)
  let trapCxPpn ← trapCxPpnOf memorySet
  let pid ← pidAlloc
  let kernelStackTop ← kernelStackNew pid
  let task : TaskControlBlock :=
    { pid, trapCxPpn, baseSize := userSp, taskCx := .gotoTrapReturn img.trapReturn kernelStackTop,
      taskStatus := .ready, memorySet, parent := none, children := [], exitCode := 0, pass := 0,
      priority := 16, syscallTimes := List.replicate maxSyscallNum 0, startTime := none }
  modify fun k => { k with tasks := k.tasks ++ [task] }
  let addr ← trapCxAddr task
  storeTrapCx addr (.appInitContext img.sstatus entryPoint userSp (← get).kernelSpace.token kernelStackTop
    img.trapHandler)
  return task

/-- `TaskControlBlock::exec(elf_data)`: the new address space replaces the old one, which is
dropped, and the trap context starts the program. -/
def TaskControlBlock.exec (task : TaskControlBlock) (elf : ElfFile) : SysM Unit := do
  let (memorySet, userSp, entryPoint) ← liftMachine (MemorySet.fromElf img.strampoline elf)
  let trapCxPpn ← trapCxPpnOf memorySet
  let task ← getTask task.pid
  setTask { task with memorySet, trapCxPpn }
  liftMachine task.memorySet.drop
  let addr ← trapCxAddr { task with trapCxPpn }
  storeTrapCx addr (.appInitContext img.sstatus entryPoint userSp (← get).kernelSpace.token
    (kernelStackPosition task.pid).2 img.trapHandler)

/-- `TaskControlBlock::fork()`: a copy of the parent's address space, trap context included,
under a new pid and kernel stack. -/
def TaskControlBlock.fork (parent : TaskControlBlock) : SysM TaskControlBlock := do
  let memorySet ← liftMachine (MemorySet.fromExistedUser img.strampoline parent.memorySet)
  let trapCxPpn ← trapCxPpnOf memorySet
  let pid ← pidAlloc
  let kernelStackTop ← kernelStackNew pid
  let task : TaskControlBlock :=
    { pid, trapCxPpn, baseSize := parent.baseSize, taskCx := .gotoTrapReturn img.trapReturn kernelStackTop,
      taskStatus := .ready, memorySet, parent := some parent.pid, children := [], exitCode := 0,
      pass := parent.pass, priority := parent.priority, syscallTimes := parent.syscallTimes,
      startTime := parent.startTime }
  modify fun k => { k with tasks := k.tasks ++ [task] }
  pushChild parent.pid pid
  let addr ← trapCxAddr task
  storeWord (addr + TrapContext.kernelSpOffset) kernelStackTop
  return task

/-- `TaskControlBlock::spawn(elf_data)`: a child that runs the program from its entry point. -/
def TaskControlBlock.spawn (parent : TaskControlBlock) (elf : ElfFile) : SysM TaskControlBlock := do
  let (memorySet, userSp, entryPoint) ← liftMachine (MemorySet.fromElf img.strampoline elf)
  let trapCxPpn ← trapCxPpnOf memorySet
  let pid ← pidAlloc
  let kernelStackTop ← kernelStackNew pid
  let task : TaskControlBlock :=
    { pid, trapCxPpn, baseSize := parent.baseSize, taskCx := .gotoTrapReturn img.trapReturn kernelStackTop,
      taskStatus := .ready, memorySet, parent := some parent.pid, children := [], exitCode := 0, pass := 0,
      priority := parent.priority, syscallTimes := List.replicate maxSyscallNum 0, startTime := none }
  modify fun k => { k with tasks := k.tasks ++ [task] }
  pushChild parent.pid pid
  let addr ← trapCxAddr task
  storeTrapCx addr (.appInitContext img.sstatus entryPoint userSp (← get).kernelSpace.token kernelStackTop
    img.trapHandler)
  return task

/-- `translated_str(current_user_token(), path)`; the loop reads at most the whole address
space. -/
def currentPath (path : Nat) : SysM (List UInt8) := do
  let task ← currentTask
  StateT.lift (translatedStr task.memorySet.token (← get).machine.mem usizeModulus path)

/-- `sys_fork()`. -/
def sysFork : SysM Int := do
  let current ← currentTask
  let child ← current.fork img
  let addr ← trapCxAddr child
  storeWord (addr + TrapContext.xOffset 10) 0
  addTask child.pid
  return child.pid

/-- `sys_exec(path)`. -/
def sysExec (path : Nat) : SysM Int := do
  let name ← currentPath path
  match getAppDataByName img.apps name with
  | some elf => do
      let task ← currentTask
      task.exec img elf
      return 0
  | none => return -1

/-- `sys_spawn(path)`. -/
def sysSpawn (path : Nat) : SysM Int := do
  let name ← currentPath path
  match getAppDataByName img.apps name with
  | some elf => do
      let task ← (← currentTask).spawn img elf
      addTask task.pid
      return task.pid
  | none => return -1

/-- `suspend_current_and_run_next()`, up to the switch to the idle control flow. -/
def suspendCurrentAndRunNext : SysM Unit := do
  let task ← takeCurrentTask
  setTask { task with taskStatus := .ready }
  addTask task.pid

/-- `kernel_stack_bottom_va.into()`: `From<VirtAddr> for VirtPageNum` asserts the alignment. -/
def kernelStackBottomVpn (pid : Nat) : SysM VirtPageNum :=
  StateT.lift (VirtAddr.toVirtPageNum ⟨(kernelStackPosition pid).1⟩)

/-- The drop of a task control block, field by field: the `PidHandle` gives the pid back, the
`KernelStack` removes its area from `KERNEL_SPACE`, and the address space goes with `inner`.
A block is dropped only after `exit_current_and_run_next` cleared its `children`, so no
further block goes with it. -/
def dropTask (task : TaskControlBlock) : SysM Unit := do
  let pidAllocator ← StateT.lift ((← get).pidAllocator.dealloc task.pid)
  modify fun k => { k with pidAllocator, tasks := k.tasks.filter (·.pid != task.pid) }
  let startVpn ← kernelStackBottomVpn task.pid
  let kernelSpace ← liftMachine ((← get).kernelSpace.removeAreaWithStartVpn startVpn)
  modify fun k => { k with kernelSpace }
  liftMachine task.memorySet.drop

/-- The drop of one `Arc` of the block of `pid`: the block goes when no place holds it. -/
def dropArc (pid : Nat) : SysM Unit := do
  if (← get).strongCount pid = 0 then dropTask (← getTask pid)

/-- `exit_current_and_run_next(exit_code)`, up to the switch to the idle control flow. -/
def exitCurrentAndRunNext (exitCode : Int) : SysM Unit := do
  let task ← takeCurrentTask
  setTask { task with taskStatus := .zombie, exitCode }
  let initproc := (← get).initproc
  -- `INITPROC.inner_exclusive_access()` while the block's own `inner` is borrowed
  if task.pid = initproc then throw .alreadyBorrowed
  task.children.forM fun child => do
    let childTask ← getTask child
    setTask { childTask with parent := some initproc }
    pushChild initproc child
  let task ← getTask task.pid
  let memorySet ← liftMachine task.memorySet.recycleDataPages
  setTask { task with children := [], memorySet }
  dropArc task.pid

/-- `pid == -1 || pid as usize == p.getpid()`. -/
def waitMatches (pid : Int) (child : Nat) : Bool := pid == -1 || asUsize pid == child

/-- `p.inner_exclusive_access().is_zombie()` for the block of `child`. -/
def Kernel.isZombie (k : Kernel) (child : Nat) : Bool :=
  (k.task? child).any (·.taskStatus == .zombie)

/-- `*translated_refmut(token, ptr) = code` for an `i32`. -/
def storeExitCode (token ptr : Nat) (code : Int) : SysM Unit := do
  let pa ← StateT.lift (translatedRefmut token (← get).machine.mem ptr)
  modify fun k =>
    { k with machine := { k.machine with mem := Foundation.storeLE k.machine.mem pa.val 4 (asUsize code) } }

/-- `sys_waitpid(pid, exit_code_ptr)`. The removed child is dropped when its `Arc` goes out of
scope, after the store. -/
def sysWaitpid (pid : Int) (exitCodePtr : Nat) : SysM Int := do
  let task ← currentTask
  if !task.children.any (waitMatches pid) then return -1
  let k ← get
  match task.children.zipIdx.find? (fun (child, _) => k.isZombie child && waitMatches pid child) with
  | none => return -2
  | some (child, idx) => do
      setTask { task with children := task.children.eraseIdx idx }
      -- `assert_eq!(Arc::strong_count(&child), 1)`: the `Arc` just removed is the only one
      let count := (← get).strongCount child
      if count ≠ 0 then throw (.strongCountNotOne (count + 1))
      let childTask ← getTask child
      storeExitCode task.memorySet.token exitCodePtr childTask.exitCode
      dropTask childTask
      return child

/-- The `pass` and `priority` of the block of `pid`, as `fetch` reads them. -/
def Kernel.passOf (k : Kernel) (pid : Nat) : Nat := ((k.task? pid).map (·.pass)).getD 0

def Kernel.priorityOf (k : Kernel) (pid : Nat) : Nat := ((k.task? pid).map (·.priority)).getD 0

/-- One pass of the loop of `run_tasks` at `get_time_ms() = now`, on the idle control flow:
`fetch_task()` with its pass update, then `start_time`, `Running` and `PROCESSOR.current`. -/
def runTasksStep (now : Nat) : SysM Unit := do
  let k ← get
  match k.manager.fetch k.passOf k.priorityOf with
  | none => pure ()
  | some (pid, manager, pass) => do
      set { k with manager }
      let task ← getTask pid
      setTask { task with pass := pass pid, startTime := task.startTime.or (some now), taskStatus := .running }
      modify fun k => { k with current := some pid }

end RCore
