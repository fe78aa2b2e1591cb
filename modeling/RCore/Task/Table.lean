import RCore.Task.Trap
import RCore.Foundation.KeyedList

/-! # The process table

What the process calls keep of the kernel state (`RCore.ProcessTable`): the pid, status,
parent, children and exit code of every live task control block, the ready queue,
`PROCESSOR.current`, the pid of `INITPROC` and `PID_ALLOCATOR`. `RCore.Kernel.table` projects a
kernel state onto its table.

Every entry into the kernel moves the table by one of the operations below, which are the
steps of the code on these fields: `run_tasks` takes the task at some position of the queue
(`RCore.ProcessTable.runTask`), `suspend_current_and_run_next` puts the current task back
(`RCore.ProcessTable.suspend`), `exit_current_and_run_next` makes it a zombie and hands its
children to `INITPROC` (`RCore.ProcessTable.exit`), `fork` and `spawn` add a child
(`RCore.ProcessTable.addChild`) and `sys_waitpid` reaps one (`RCore.ProcessTable.wait`).
`RCore.ProcessTable.Moves` collects them, with what each event reports.
-/

namespace RCore

/-- What the process calls read and write of a task control block. -/
structure TaskView where
  pid : Nat
  taskStatus : TaskStatus
  parent : Option Nat
  children : List Nat
  exitCode : Int
deriving DecidableEq, Repr

/-- The process table of a kernel state. -/
structure ProcessTable where
  tasks : List TaskView
  readyQueue : List Nat
  current : Option Nat
  initproc : Nat
  pidAllocator : PidAllocator
deriving DecidableEq, Repr

/-- The view of a task control block. -/
def TaskControlBlock.view (task : TaskControlBlock) : TaskView :=
  ⟨task.pid, task.taskStatus, task.parent, task.children, task.exitCode⟩

/-- The process table of a kernel state. -/
def Kernel.table (k : Kernel) : ProcessTable :=
  ⟨k.tasks.map TaskControlBlock.view, k.manager.readyQueue, k.current, k.initproc, k.pidAllocator⟩

namespace ProcessTable

/-- The table right after `add_initproc()`: `INITPROC`, pid 0, ready. -/
def boot : ProcessTable := ⟨[⟨0, .ready, none, [], 0⟩], [0], none, 0, ⟨1, []⟩⟩

/-- The view of the live block of `pid`. -/
def task? (t : ProcessTable) (pid : Nat) : Option TaskView := Foundation.lookup TaskView.pid t.tasks pid

/-- The pids of the live blocks. -/
def pids (t : ProcessTable) : List Nat := t.tasks.map TaskView.pid

/-- Write a view back, under its pid. -/
def setTask (t : ProcessTable) (v : TaskView) : ProcessTable :=
  { t with tasks := Foundation.replace TaskView.pid t.tasks v }

/-- Read the view of `pid`, change it by `f`, and write it back. -/
def modifyTask (t : ProcessTable) (pid : Nat) (f : TaskView → TaskView) : ProcessTable :=
  match t.task? pid with
  | some v => t.setTask (f v)
  | none => t

/-- How many `children` vectors hold `pid`, with multiplicity. -/
def childCount (t : ProcessTable) (pid : Nat) : Nat := (t.tasks.map fun v => v.children.count pid).sum

/-- `Arc::strong_count`: the `children` entries, the ready queue, `PROCESSOR.current` and
`INITPROC`. -/
def strongCount (t : ProcessTable) (pid : Nat) : Nat :=
  t.childCount pid + t.readyQueue.count pid + (if t.current = some pid then 1 else 0) +
    (if t.initproc = pid then 1 else 0)

/-- Whether the block of `child` is a zombie. -/
def isZombie (t : ProcessTable) (child : Nat) : Bool := (t.task? child).any (·.taskStatus == .zombie)

/-- The exit code of the block of `pid`. -/
def exitCodeOf (t : ProcessTable) (pid : Nat) : Int := ((t.task? pid).map (·.exitCode)).getD 0

/-- `run_tasks` with the fetched task at position `pos` of the queue. -/
def runTask (t : ProcessTable) (pos : Nat) : ProcessTable :=
  let pid := t.readyQueue.getD pos 0
  let t := { t with readyQueue := t.readyQueue.eraseIdx pos }
  { t.modifyTask pid (fun v => { v with taskStatus := .running }) with current := some pid }

/-- `suspend_current_and_run_next` of the current task `pid`. -/
def suspend (t : ProcessTable) (pid : Nat) : ProcessTable :=
  let t := ({ t with current := none } : ProcessTable).modifyTask pid fun v => { v with taskStatus := .ready }
  { t with readyQueue := t.readyQueue ++ [pid] }

/-- The drop of the block of `pid`: it leaves the table and its pid is recycled. -/
def dropTask (t : ProcessTable) (pid : Nat) : ProcessTable :=
  { t with tasks := t.tasks.filter (·.pid != pid),
           pidAllocator := { t.pidAllocator with recycled := t.pidAllocator.recycled ++ [pid] } }

/-- The drop of one `Arc` of the block of `pid`. -/
def dropArc (t : ProcessTable) (pid : Nat) : ProcessTable :=
  if t.strongCount pid = 0 then t.dropTask pid else t

/-- One iteration of the loop of `exit_current_and_run_next` over the children. -/
def reparent (t : ProcessTable) (child : Nat) : ProcessTable :=
  (t.modifyTask child fun v => { v with parent := some t.initproc }).modifyTask t.initproc
    fun v => { v with children := v.children ++ [child] }

/-- `exit_current_and_run_next(code)` of the current task `pid`. -/
def exit (t : ProcessTable) (pid : Nat) (code : Int) : ProcessTable :=
  match t.task? pid with
  | none => t
  | some v =>
      let t := ({ t with current := none } : ProcessTable).setTask
        { v with taskStatus := .zombie, exitCode := code }
      let t := v.children.foldl reparent t
      let t := t.modifyTask pid fun v => { v with children := [] }
      t.dropArc pid

/-- `fork` or `spawn` by `parent`, with `add_task` of the child. -/
def addChild (t : ProcessTable) (parent : Nat) : ProcessTable :=
  let (pid, pidAllocator) := t.pidAllocator.alloc
  let child : TaskView := ⟨pid, .ready, some parent, [], 0⟩
  let t := { t with pidAllocator, tasks := t.tasks ++ [child] }
  let t := t.modifyTask parent fun v => { v with children := v.children ++ [pid] }
  { t with readyQueue := t.readyQueue ++ [pid] }

/-- The first child that `sys_waitpid(pid, _)` of `caller` reaps, with its position. -/
def waitTarget (t : ProcessTable) (children : List Nat) (pid : Int) : Option (Nat × Nat) :=
  children.zipIdx.find? fun (child, _) => t.isZombie child && waitMatches pid child

/-- `sys_waitpid(pid, _)` of the current task `caller`: the result and the table after it. -/
def wait (t : ProcessTable) (caller : Nat) (pid : Int) : Int × ProcessTable :=
  match t.task? caller with
  | none => (-1, t)
  | some v =>
      if !v.children.any (waitMatches pid) then (-1, t)
      else
        match t.waitTarget v.children pid with
        | none => (-2, t)
        | some (child, idx) => (child, (t.setTask { v with children := v.children.eraseIdx idx }).dropTask child)

/-- What `sys_waitpid` reports: the reaped child with the code stored for the waiter. -/
def waitReport (t : ProcessTable) (result : Int) : List Observation :=
  if 0 ≤ result then [.reaped result.toNat (t.exitCodeOf result.toNat)] else []

/-- The moves of the table, one for each way an event can end without a panic. -/
inductive Moves : ProcessTable → SysEvent → List Observation → ProcessTable → Prop
  | idle {t : ProcessTable} {now : Nat} : Moves t (.runTasks now) [] t
  | run {t : ProcessTable} {now pos : Nat} (idle : t.current = none) (inside : pos < t.readyQueue.length) :
      Moves t (.runTasks now) [] (t.runTask pos)
  | timer {t : ProcessTable} {pid : Nat} (current : t.current = some pid) : Moves t .timer [] (t.suspend pid)
  | yield {t : ProcessTable} {pid : Nat} (current : t.current = some pid) : Moves t .yield [] (t.suspend pid)
  | exit {t : ProcessTable} {pid code : Nat} (current : t.current = some pid) (notInit : pid ≠ t.initproc) :
      Moves t (.exit code) [.exited pid (asI32 code)] (t.exit pid (asI32 code))
  | fault {t : ProcessTable} {pid : Nat} (current : t.current = some pid) (notInit : pid ≠ t.initproc) :
      Moves t .fault [.exited pid (-2)] (t.exit pid (-2))
  | illegalInstruction {t : ProcessTable} {pid : Nat} (current : t.current = some pid)
      (notInit : pid ≠ t.initproc) :
      Moves t .illegalInstruction [.exited pid (-3)] (t.exit pid (-3))
  | fork {t : ProcessTable} {pid : Nat} (current : t.current = some pid) : Moves t .fork [] (t.addChild pid)
  | exec {t : ProcessTable} {path : Nat} : Moves t (.exec path) [] t
  | spawn {t : ProcessTable} {pid path : Nat} (current : t.current = some pid) :
      Moves t (.spawn path) [] (t.addChild pid)
  | spawnUnknown {t : ProcessTable} {path : Nat} : Moves t (.spawn path) [] t
  | waitpid {t : ProcessTable} {caller pid exitCodePtr : Nat} (current : t.current = some caller) :
      Moves t (.waitpid pid exitCodePtr) (t.waitReport (t.wait caller (asIsize pid)).1)
        (t.wait caller (asIsize pid)).2
  | keep {t : ProcessTable} {e : SysEvent} (keeps : e.KeepsTable) : Moves t e [] t
  | wait {t : ProcessTable} {e : SysEvent} {pid : Nat} (waits : e.WaitsForInput) (current : t.current = some pid) :
      Moves t e [] (t.suspend pid)

end ProcessTable

end RCore
