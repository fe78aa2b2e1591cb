import RCore.Task.Control
import RCore.Task.Processor
import RCore.Syscall.Fs

/-! # The system calls that leave the processes alone

The calls of `os5/src/syscall/process.rs` and `syscall/fs.rs` that no process-table move
names: `sys_getpid`, `sys_get_time`, `sys_task_info`, `sys_set_priority`, `sys_mmap`,
`sys_munmap`, `sys_write` and `sys_read`, each on the kernel state through the current task.
They write user memory, the statistics, the priority or the address space of the caller, and
never a field of a task control block that the process table reads
(`RCore.Kernel.step_moves`).

`sys_read(FD_STDIN, buf, 1)` polls `console_getchar()` until it returns a byte that is not
`0`, and suspends the task after each `0`; the task resumes inside the loop. Its model is one
poll per entry (`RCore.sysReadPoll`): the call itself, and each later poll of a task that
waits, are separate entries into the kernel.
-/

namespace RCore

/-- `current_user_token()`. -/
def currentUserToken : SysM Nat := do
  return (← currentTask).memorySet.token

/-- `sys_getpid()`. -/
def sysGetpid : SysM Int := do
  return asIsize (← currentTask).pid

/-- `sys_set_priority(prio)`: a priority below `2` is refused. -/
def sysSetPriority (prio : Int) : SysM Int := do
  if prio < 2 then return -1
  let task ← currentTask
  setTask { task with priority := prio.toNat }
  return prio

/-- `sys_mmap(start, len, port)`: `task_mmap` on the address space of the current task. -/
def sysMmap (start len port : Nat) : SysM Int := do
  let task ← currentTask
  let (memorySet, result) ← liftMachine (taskMmap task.memorySet start len port)
  setTask { task with memorySet }
  return result

/-- `sys_munmap(start, len)`: `task_munmap` on the address space of the current task. -/
def sysMunmap (start len : Nat) : SysM Int := do
  let task ← currentTask
  let (memorySet, result) ← liftMachine (taskMunmap task.memorySet start len)
  setTask { task with memorySet }
  return result

/-- The discriminant of a `TaskStatus`, the byte that stores it. -/
def TaskStatus.discriminant : TaskStatus → Nat
  | .unInit => 0
  | .ready => 1
  | .running => 2
  | .zombie => 3

/-- `*ti = TaskInfo { status, syscall_times, time }` at the physical address `addr`: the status
as its discriminant, the `u32` counters and the `usize` time, each at its offset. -/
def TaskInfoLayout.store (layout : TaskInfoLayout) (mem : Nat → UInt8) (addr : Nat) (status : TaskStatus)
    (syscallTimes : List Nat) (time : Nat) : Nat → UInt8 :=
  let mem := Foundation.storeLE mem (addr + layout.status) 1 status.discriminant
  let mem := syscallTimes.zipIdx.foldl
    (fun mem entry => Foundation.storeLE mem (addr + layout.syscallTimes + 4 * entry.2) 4 entry.1) mem
  Foundation.storeLE mem (addr + layout.time) 8 time

variable (img : KernelImage)

/-- `sys_task_info(ti)` at `get_time_ms() = now`: the status, the counters and the time since
the task first ran, which `current_run_time` subtracts in `usize`. -/
def sysTaskInfo (ti now : Nat) : SysM Int := do
  let pa ← StateT.lift (translatedRefmut (← currentUserToken) (← get).machine.mem ti)
  let task ← currentTask
  let some startTime := task.startTime | throw .noStartTime
  let mem := img.taskInfo.store (← get).machine.mem pa.val task.taskStatus task.syscallTimes
    (wrappingSub now startTime)
  modify fun k => { k with machine := { k.machine with mem } }
  return 0

/-- `FD_STDIN`. -/
def fdStdin : Nat := 0

/-- What `sys_read(fd, buf, len)` checks before its loop. -/
def sysReadChecks (fd len : Nat) : SysM Unit :=
  if fd ≠ fdStdin then throw .unsupportedFdInSysRead
  else if len ≠ 1 then throw (.readLenNotOne len)
  else pure ()

/-- One pass of the loop of `sys_read(FD_STDIN, buf, 1)` in which `console_getchar()` returned
`c`. On `0` the task is suspended and polls again when it runs next; otherwise `c as u8` goes
to the first byte of the first slice of the buffer, and the `1` the call returns to `x[10]`
of the trap context, as `trap_handler` stores it. -/
def sysReadPoll (buf c : Nat) : SysM Unit := do
  if c = 0 then
    suspendCurrentAndRunNext
  else
    let buffers ← StateT.lift (translatedByteBuffer (← currentUserToken) (← get).machine.mem buf 1)
    let some slice := buffers.head? | throw .noBuffer
    modify fun k => { k with machine := { k.machine with
      mem := Foundation.storeLE k.machine.mem (slice.ppn.toPhysAddr.val + slice.lo) 1 c } }
    let addr ← trapCxAddr (← currentTask)
    storeWord (addr + TrapContext.xOffset 10) 1

end RCore
