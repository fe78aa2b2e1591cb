import RCore.Syscall.Process

/-! # Entries into the kernel

What moves the processes of `os5`: one pass of the idle loop `run_tasks`, and the traps that
`trap_handler` (`os5/src/trap/mod.rs`) takes from the running task, through `syscall`
(`syscall/mod.rs`) for the process calls. A system call first advances `sepc` past the
`ecall` and counts itself (`count_syscall`); a call that returns then stores its result in
`x[10]` of the trap context of the task that is current afterwards, read again because
`sys_exec` replaces it (`RCore.userEnvCall`). `sys_exit` and the two fault exits do not
return; `sys_yield` switches away before it returns, and the `0` it returns is stored at once,
which no other task can observe before the task runs again. `sys_read` stores its result when
a poll finds a byte, and a task that waits for one polls again as an entry of its own
(`RCore.SysEvent.readPoll`).

A step also reports what it shows of processes (`RCore.Observation`): the exit of a task with
its code, and a child reaped by `sys_waitpid` with the code that the call stores for the
waiter. `RCore.Kernel.run` runs a sequence of events and collects these reports.
-/

namespace RCore

/-- What enters the kernel; a system call carries the raw registers `x[10]`, `x[11]`. -/
inductive SysEvent where
  | runTasks (now : Nat)
  | timer
  | yield
  | exit (code : Nat)
  | fault
  | illegalInstruction
  | fork
  | exec (path : Nat)
  | spawn (path : Nat)
  | waitpid (pid exitCodePtr : Nat)
  | write (fd buf len : Nat)
  /-- `sys_read`, whose first poll of the console returns `c`. -/
  | read (fd buf len c : Nat)
  /-- A later poll of `sys_read` by a task that waits for input. -/
  | readPoll (buf c : Nat)
  | getpid
  /-- `sys_get_time` at `get_time_us() = us`. -/
  | getTime (ts us : Nat)
  /-- `sys_task_info` at `get_time_ms() = now`. -/
  | taskInfo (ti now : Nat)
  | mmap (start len port : Nat)
  | munmap (start len : Nat)
  | setPriority (prio : Nat)
deriving DecidableEq, Repr

namespace SysEvent

/-- The entries that leave the processes as they are: the console, the clock, the statistics,
the priority and the address space of the caller, and a read that finds its byte. -/
def KeepsTable : SysEvent → Prop
  | write .. | getpid | getTime .. | taskInfo .. | mmap .. | munmap .. | setPriority _ => True
  | read _ _ _ c | readPoll _ c => c ≠ 0
  | _ => False

/-- A read that finds no byte suspends the task, as `sys_yield` does. -/
def WaitsForInput : SysEvent → Prop
  | read _ _ _ c | readPoll _ c => c = 0
  | _ => False

end SysEvent

/-- What a step shows of processes. -/
inductive Observation where
  | exited (pid : Nat) (code : Int)
  | reaped (pid : Nat) (code : Int)
deriving DecidableEq, Repr

namespace Observation

/-- The process an observation is about. -/
def pid : Observation → Nat
  | exited pid _ => pid
  | reaped pid _ => pid

end Observation

/-- `count_syscall(syscall_id)`: the `u32` counter of the current task. -/
def countSyscall (syscallId : Nat) : SysM Unit := do
  if syscallId < maxSyscallNum then
    let task ← currentTask
    setTask { task with syscallTimes := task.syscallTimes.modify syscallId fun n => (n + 1) % 2 ^ 32 }

/-- `cx.sepc += 4` on the trap context of the current task, then `count_syscall`. -/
def enterSyscall (syscallId : Nat) : SysM Unit := do
  let addr ← trapCxAddr (← currentTask)
  let sepc := Foundation.loadLE (← get).machine.mem (addr + TrapContext.sepcOffset) 8
  storeWord (addr + TrapContext.sepcOffset) (wrappingAdd sepc 4)
  countSyscall syscallId

/-- A system call that returns: its result goes to `x[10]` of the current trap context. -/
def userEnvCall (syscallId : Nat) (call : SysM Int) : SysM Int := do
  enterSyscall syscallId
  let result ← call
  let addr ← trapCxAddr (← currentTask)
  storeWord (addr + TrapContext.xOffset 10) (asUsize result)
  return result

/-- The exit code that `sys_waitpid` stores for a child, read before the call. -/
def Kernel.exitCodeOf (k : Kernel) (pid : Nat) : Int := ((k.task? pid).map (·.exitCode)).getD 0

variable (img : KernelImage)

/-- The pid of the current task, for the report of its exit. -/
def currentPid : SysM Nat := do
  return (← currentTask).pid

/-- One event. The idle loop runs only when no task is current. -/
def Kernel.step : SysEvent → SysM (List Observation)
  | .runTasks now => do
      if (← get).current.isSome then return []
      runTasksStep now
      return []
  | .timer => do
      suspendCurrentAndRunNext
      return []
  | .yield => do
      enterSyscall 124
      let addr ← trapCxAddr (← currentTask)
      storeWord (addr + TrapContext.xOffset 10) 0
      suspendCurrentAndRunNext
      return []
  | .exit code => do
      enterSyscall 93
      let pid ← currentPid
      exitCurrentAndRunNext (asI32 code)
      return [.exited pid (asI32 code)]
  | .fault => do
      let pid ← currentPid
      exitCurrentAndRunNext (-2)
      return [.exited pid (-2)]
  | .illegalInstruction => do
      let pid ← currentPid
      exitCurrentAndRunNext (-3)
      return [.exited pid (-3)]
  | .fork => do
      let _ ← userEnvCall 220 (sysFork img)
      return []
  | .exec path => do
      let _ ← userEnvCall 221 (sysExec img path)
      return []
  | .spawn path => do
      let _ ← userEnvCall 400 (sysSpawn img path)
      return []
  | .waitpid pid exitCodePtr => do
      let k ← get
      let result ← userEnvCall 260 (sysWaitpid (asIsize pid) exitCodePtr)
      if 0 ≤ result then return [.reaped result.toNat (k.exitCodeOf result.toNat)]
      return []
  | .write fd buf len => do
      -- what `sys_write` prints leaves the kernel state as it is
      let _ ← userEnvCall 64 do
        StateT.lift (sysWrite (← currentUserToken) (← get).machine.mem fd buf len).2
      return []
  | .read fd buf len c => do
      enterSyscall 63
      sysReadChecks fd len
      sysReadPoll buf c
      return []
  | .readPoll buf c => do
      sysReadPoll buf c
      return []
  | .getpid => do
      let _ ← userEnvCall 172 sysGetpid
      return []
  | .getTime ts us => do
      let _ ← userEnvCall 169 do liftMachine (sysGetTime (← currentUserToken) ts us)
      return []
  | .taskInfo ti now => do
      let _ ← userEnvCall 410 (sysTaskInfo img ti now)
      return []
  | .mmap start len port => do
      let _ ← userEnvCall 222 (sysMmap start len port)
      return []
  | .munmap start len => do
      let _ ← userEnvCall 215 (sysMunmap start len)
      return []
  | .setPriority prio => do
      let _ ← userEnvCall 140 (sysSetPriority (asIsize prio))
      return []

/-- A run of events, with everything they report in order. -/
def Kernel.run : List SysEvent → SysM (List Observation)
  | [] => return []
  | event :: rest => do
      let seen ← Kernel.step img event
      let later ← Kernel.run rest
      return seen ++ later

end RCore
