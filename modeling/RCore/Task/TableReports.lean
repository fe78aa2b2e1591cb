import RCore.Task.TableRefine

/-! # What `sys_waitpid` reports of an exit

`exit_current_and_run_next(exit_code)` stores the code in the block of the exiting task, and
`sys_waitpid` hands the code of the zombie child it reaps to the waiter. Pids are recycled, so
one pid may exit and be reaped many times along a run, by different parents.

The table keeps, for every zombie, the code of the last report about its pid, which is the
report of its exit (`RCore.ProcessTable.Reported`): a step makes a zombie only by reporting its
exit, and keeps one only when it reports nothing about its pid
(`RCore.ProcessTable.Moves.zombieCode_cases`). Along every run of the kernel from a table with no
zombie, the last report about a pid before each report of its reap is its exit, with the code the
reap reports (`RCore.Kernel.run_reaps_last_exit`): no pid is reaped twice without exiting in
between, and the waiter receives the code of the child's latest exit.
-/

namespace RCore

open Foundation

namespace ProcessTable

variable {t t' : ProcessTable} {p q : Nat} {c : Int} {v : TaskView}

/-- The exit code of the block of `q`, while it is a zombie. -/
def zombieCode (t : ProcessTable) (q : Nat) : Option Int :=
  (t.task? q).bind fun v => if v.taskStatus = .zombie then some v.exitCode else none

section ZombieCode

theorem zombieCode_of_task? (found : t.task? q = some v) :
    t.zombieCode q = if v.taskStatus = .zombie then some v.exitCode else none := by
  unfold zombieCode
  rw [found]
  rfl

theorem zombieCode_of_none (missing : t.task? q = none) : t.zombieCode q = none := by
  unfold zombieCode
  rw [missing]
  rfl

/-- A change of the blocks that keeps every status and exit code keeps the zombie codes. -/
theorem zombieCode_congr {f : TaskView → TaskView} (lookup : t'.task? q = (t.task? q).map f)
    (same : ∀ w, (f w).taskStatus = w.taskStatus ∧ (f w).exitCode = w.exitCode) :
    t'.zombieCode q = t.zombieCode q := by
  cases found : t.task? q with
  | none =>
      rw [found, Option.map_none] at lookup
      rw [zombieCode_of_none lookup, zombieCode_of_none found]
  | some w =>
      rw [found, Option.map_some] at lookup
      rw [zombieCode_of_task? lookup, zombieCode_of_task? found, (same w).1, (same w).2]

/-- A block set to a status other than zombie leaves no zombie code at its pid. -/
theorem zombieCode_of_restatus {s : TaskStatus}
    (lookup : t'.task? q = if p = q then some { v with taskStatus := s } else t.task? q) (alive : s ≠ .zombie)
    (zombie : t'.zombieCode q = some c) : t.zombieCode q = some c := by
  by_cases same : p = q
  · rw [if_pos same] at lookup
    rw [zombieCode_of_task? lookup, if_neg alive] at zombie
    cases zombie
  · rw [if_neg same] at lookup
    rwa [zombieCode, lookup] at zombie

theorem zombieCode_modifyTask {f : TaskView → TaskView} (nodup : t.pids.Nodup) (keeps : ∀ w, (f w).pid = w.pid)
    (same : ∀ w, (f w).taskStatus = w.taskStatus ∧ (f w).exitCode = w.exitCode) :
    (t.modifyTask p f).zombieCode q = t.zombieCode q := by
  have lookup := task?_modifyTask (p := p) (q := q) keeps nodup
  by_cases at_p : p = q
  · subst at_p
    rw [if_pos rfl] at lookup
    exact zombieCode_congr lookup same
  · rw [if_neg at_p] at lookup
    rw [zombieCode, lookup]
    rfl

theorem zombieCode_dropTask (nodup : t.pids.Nodup) : (t.dropTask p).zombieCode q = if p = q then none else t.zombieCode q := by
  unfold zombieCode
  rw [task?_dropTask nodup]
  split <;> rfl

end ZombieCode

section Steps

variable (inv : t.Inv)
include inv

theorem zombieCode_suspend (current : t.current = some p) (zombie : (t.suspend p).zombieCode q = some c) :
    t.zombieCode q = some c := by
  obtain ⟨v, found⟩ := exists_task?_of_mem (inv.current_live p current)
  exact zombieCode_of_restatus (task?_suspend inv.nodup found) (by decide) zombie

theorem zombieCode_runTask {pos : Nat} (inside : pos < t.readyQueue.length) (zombie : (t.runTask pos).zombieCode q = some c) :
    t.zombieCode q = some c := by
  obtain ⟨v, found⟩ := exists_task?_of_mem (inv.queued _ (List.getElem_mem inside))
  exact zombieCode_of_restatus (task?_runTask inv.nodup inside found) (by decide) zombie

/-- The child of `fork` or `spawn` is ready, and its parent keeps its status. -/
theorem zombieCode_addChild (current : t.current = some p) (zombie : (t.addChild p).zombieCode q = some c) :
    t.zombieCode q = some c := by
  obtain ⟨v, found⟩ := exists_task?_of_mem (inv.current_live p current)
  rcases allocated : t.pidAllocator.alloc with ⟨n, allocator⟩
  have fresh : n ∉ t.pids := by
    have := inv.pids.alloc_fresh
    rwa [allocated] at this
  have lookup := task?_addChild (q := q) inv.nodup allocated fresh found
  by_cases at_p : p = q
  · subst at_p
    rw [if_pos rfl] at lookup
    rwa [zombieCode_of_task? lookup, ← zombieCode_of_task? found] at zombie
  · rw [if_neg at_p] at lookup
    by_cases at_n : n = q
    · rw [if_pos at_n] at lookup
      rw [zombieCode_of_task? lookup, if_neg (by simp)] at zombie
      cases zombie
    · rw [if_neg at_n] at lookup
      rwa [zombieCode, lookup] at zombie

/-- The exit of the current task makes it a zombie with its code and changes no other status
or code. -/
theorem zombieCode_exit (current : t.current = some p) (notInit : p ≠ t.initproc) (code : Int) :
    (t.exit p code).zombieCode q = if q = p then some code else t.zombieCode q := by
  obtain ⟨v, found⟩ := exists_task?_of_mem (inv.current_live p current)
  obtain ⟨vi, initFound, -, -⟩ := inv.initproc
  obtain ⟨t', exited, -, -, -, -, -, -, lookup⟩ := exit_spec inv.nodup found notInit initFound
    (inv.initproc_not_child found) (inv.children_nodup found) (inv.childCount_of_task? found notInit) code
  rw [exited]
  by_cases at_p : q = p
  · subst at_p
    have found' := lookup q
    rw [found, Option.map_some] at found'
    rw [zombieCode_of_task? found']
    simp
  · rw [if_neg at_p]
    exact zombieCode_congr (lookup q) fun w => by simp [at_p]

/-- `sys_waitpid` of the current task leaves no zombie code it did not have before, and none at
the child it reaps. -/
theorem zombieCode_wait (current : t.current = some p) (pid : Int) (zombie : (t.wait p pid).2.zombieCode q = some c) :
    t.zombieCode q = some c ∧ (0 ≤ (t.wait p pid).1 → (t.wait p pid).1.toNat ≠ q) := by
  obtain ⟨v, found⟩ := exists_task?_of_mem (inv.current_live p current)
  revert zombie
  unfold ProcessTable.wait
  rw [found]
  dsimp only
  split
  · exact fun zombie => ⟨zombie, fun negative => absurd negative (by simp)⟩
  split
  · exact fun zombie => ⟨zombie, fun negative => absurd negative (by simp)⟩
  next child idx picked =>
    intro zombie
    have kept : (t.setTask { v with children := v.children.eraseIdx idx }).zombieCode q = t.zombieCode q := by
      rw [← modifyTask_of_task? (f := fun w => { w with children := w.children.eraseIdx idx }) found]
      exact zombieCode_modifyTask inv.nodup (fun _ => rfl) fun _ => ⟨rfl, rfl⟩
    have nodup₁ : (t.setTask { v with children := v.children.eraseIdx idx }).pids.Nodup := by
      rw [← modifyTask_of_task? (f := fun w => { w with children := w.children.eraseIdx idx }) found, pids_modifyTask]
      exact inv.nodup
    rw [zombieCode_dropTask nodup₁] at zombie
    split at zombie
    · cases zombie
    · next apart => exact ⟨kept ▸ zombie, fun _ => by rwa [Int.toNat_natCast]⟩

/-- The child that `sys_waitpid` reaps was a zombie with the code it reports. -/
theorem zombieCode_reaped_wait (current : t.current = some p) (pid : Int) (reaped : 0 ≤ (t.wait p pid).1) :
    t.zombieCode (t.wait p pid).1.toNat = some (t.exitCodeOf (t.wait p pid).1.toNat) := by
  obtain ⟨v, found⟩ := exists_task?_of_mem (inv.current_live p current)
  revert reaped
  unfold ProcessTable.wait
  rw [found]
  dsimp only
  split
  · exact fun negative => absurd negative (by simp)
  split
  · exact fun negative => absurd negative (by simp)
  next child idx picked =>
    intro _
    obtain ⟨-, -, isZombie⟩ := waitTarget_spec picked
    obtain ⟨u, childFound, zombieStatus⟩ := exists_of_isZombie isZombie
    rw [Int.toNat_natCast, zombieCode_of_task? childFound, if_pos zombieStatus]
    unfold exitCodeOf
    rw [childFound]
    rfl

end Steps

/-- Every step reports at most one thing. -/
theorem Moves.obs_cases {e : SysEvent} {obs : List Observation} (moved : Moves t e obs t') :
    obs = [] ∨ ∃ o, obs = [o] := by
  cases moved with
  | exit | fault | illegalInstruction => exact .inr ⟨_, rfl⟩
  | waitpid =>
      unfold waitReport
      split
      · exact .inr ⟨_, rfl⟩
      · exact .inl rfl
  | _ => exact .inl rfl

/-- A step leaves a pid with a zombie code only by reporting its exit with that code, or by
reporting nothing about it and leaving the code it had. -/
theorem Moves.zombieCode_cases {e : SysEvent} {obs : List Observation} (inv : t.Inv) (moved : Moves t e obs t')
    (zombie : t'.zombieCode q = some c) :
    lastOf Observation.pid obs q = some (.exited q c) ∨
      (lastOf Observation.pid obs q = none ∧ t.zombieCode q = some c) := by
  -- the three exits differ only in their code
  have exited : ∀ {pid : Nat} {code : Int}, t.current = some pid → pid ≠ t.initproc →
      (t.exit pid code).zombieCode q = some c →
      lastOf Observation.pid [.exited pid code] q = some (.exited q c) ∨
        (lastOf Observation.pid [.exited pid code] q = none ∧ t.zombieCode q = some c) := by
    intro pid code current notInit zombie
    rw [zombieCode_exit inv current notInit] at zombie
    by_cases at_pid : q = pid
    · subst at_pid
      rw [if_pos rfl] at zombie
      cases zombie
      exact .inl (by simp [lastOf, Observation.pid])
    · rw [if_neg at_pid] at zombie
      exact .inr ⟨by simp [lastOf, Observation.pid, Ne.symm at_pid], zombie⟩
  cases moved with
  | idle | exec | spawnUnknown | keep _ => exact .inr ⟨rfl, zombie⟩
  | run _ inside => exact .inr ⟨rfl, zombieCode_runTask inv inside zombie⟩
  | timer current | yield current | wait _ current => exact .inr ⟨rfl, zombieCode_suspend inv current zombie⟩
  | fork current | spawn current => exact .inr ⟨rfl, zombieCode_addChild inv current zombie⟩
  | exit current notInit | fault current notInit | illegalInstruction current notInit =>
      exact exited current notInit zombie
  | waitpid current =>
      obtain ⟨was, apart⟩ := zombieCode_wait inv current _ zombie
      refine .inr ⟨?_, was⟩
      unfold waitReport
      split
      · next nonneg => simp [lastOf, Observation.pid, apart nonneg]
      · rfl

/-- The only report of a reap is the one of `sys_waitpid`, for a zombie with the code reported. -/
theorem Moves.zombieCode_of_reaped {e : SysEvent} {obs : List Observation} (inv : t.Inv) (moved : Moves t e obs t')
    (member : Observation.reaped p c ∈ obs) : t.zombieCode p = some c := by
  cases moved with
  | waitpid current =>
      unfold waitReport at member
      split at member
      · next nonneg =>
          rw [List.mem_singleton, Observation.reaped.injEq] at member
          obtain ⟨rfl, rfl⟩ := member
          exact zombieCode_reaped_wait inv current _ nonneg
      · cases member
  | exit | fault | illegalInstruction => simp at member
  | _ => cases member

/-- Every zombie has as its code the one of the last report about its pid, which reports its
exit. -/
def Reported (t : ProcessTable) (history : List Observation) : Prop :=
  ∀ q c, t.zombieCode q = some c → lastOf Observation.pid history q = some (.exited q c)

theorem Reported.moves {e : SysEvent} {obs : List Observation} {history : List Observation} (inv : t.Inv)
    (moved : Moves t e obs t') (reported : t.Reported history) : t'.Reported (history ++ obs) := by
  intro q c zombie
  rw [lastOf_append]
  rcases moved.zombieCode_cases inv zombie with last | ⟨silent, was⟩
  · rw [last]
    rfl
  · rw [silent, Option.none_or]
    exact reported q c was

/-- Along every run from a table that satisfies the invariant and whose zombies are reported in
`history`, the last report about a pid before a report of its reap is its exit, with the same
code; by induction on the run, each step reporting at most one thing. -/
theorem Reported.trace {es : List SysEvent} {obs : List Observation} (run : Trace Moves t es obs t') :
    t.Inv → ∀ {history : List Observation}, t.Reported history →
      ∀ {before after : List Observation}, obs = before ++ Observation.reaped p c :: after →
        lastOf Observation.pid (history ++ before) p = some (.exited p c) := by
  induction run with
  | nil =>
      intro _ _ _ before after split
      exact absurd split.symm (by simp)
  | @cons t₀ t₁ t₂ e es o os first _ ih =>
      intro inv history reported before after split
      have inv₁ := inv.moves first
      have reported₁ := reported.moves inv first
      rcases first.obs_cases with rfl | ⟨x, rfl⟩
      · rw [List.append_nil] at reported₁
        exact ih inv₁ reported₁ split
      · cases before with
        | nil =>
            obtain ⟨rfl, -⟩ := List.cons.inj split
            rw [List.append_nil]
            exact reported p c (first.zombieCode_of_reaped inv (List.mem_singleton_self _))
        | cons b before =>
            obtain ⟨rfl, rest⟩ := List.cons.inj split
            have last := ih inv₁ reported₁ rest
            rwa [List.append_assoc, List.singleton_append] at last

end ProcessTable

/-- Along every run of the kernel from a state whose table satisfies the invariant and has no
zombie, the last report about a pid before each report of its reap is its exit, with the code
that the reap reports. -/
theorem Kernel.run_reaps_last_exit (img : KernelImage) {k k' : Kernel} {events : List SysEvent}
    {obs : List Observation} (inv : k.table.Inv)
    (noZombie : ∀ q v, k.table.task? q = some v → v.taskStatus ≠ .zombie)
    (ran : Kernel.run img events k = .ok (obs, k')) {before after : List Observation} {p : Nat} {c : Int}
    (split : obs = before ++ .reaped p c :: after) :
    lastOf Observation.pid before p = some (.exited p c) := by
  rw [Kernel.run_eq_runEvents] at ran
  obtain ⟨run, -⟩ := (Kernel.refines_moves img).trace events inv ran
  have start : k.table.Reported [] := by
    intro q c zombie
    cases found : k.table.task? q with
    | none => rw [ProcessTable.zombieCode_of_none found] at zombie; cases zombie
    | some v => rw [ProcessTable.zombieCode_of_task? found, if_neg (noZombie q v found)] at zombie; cases zombie
  have last := ProcessTable.Reported.trace run inv start split
  rwa [List.nil_append] at last

end RCore

namespace RCore

/-- `INITPROC` running with one ready child, both with their trap context in frame 1 and an
address space whose page table maps the page 0 to frame 5: a timer interrupt switches to the
child, which exits with code 7, and `INITPROC`'s `sys_waitpid(1, 0)` reaps it and reports 7,
after the report of the exit. -/
theorem Kernel.run_reaps_last_exit_of_child : ∃ (img : KernelImage) (k k' : Kernel) (obs : List Observation),
    k.table.Inv ∧ (∀ q v, k.table.task? q = some v → v.taskStatus ≠ .zombie) ∧
      Kernel.run img [.timer, .runTasks 0, .exit 7, .runTasks 0, .waitpid 1 0] k = .ok (obs, k') ∧
      obs = [.exited 1 7] ++ .reaped 1 7 :: [] ∧
      Foundation.lastOf Observation.pid [.exited 1 7] 1 = some (.exited 1 7) := by
  let img : KernelImage := ⟨[], 0, 0, 0, 0, ⟨2008, 8, 0⟩⟩
  let space : MemorySet := ⟨⟨⟨2⟩, []⟩, []⟩
  let initproc : TaskControlBlock := ⟨0, ⟨1⟩, 0, ⟨0, 0, []⟩, .running, space, none, [1], 0, 0, 16, [], none⟩
  let child : TaskControlBlock := ⟨1, ⟨1⟩, 0, ⟨0, 0, []⟩, .ready, space, some 0, [], 0, 0, 16, [], none⟩
  -- the three levels of the walk of page 0: frames 2, 3 and 4, each entry `ppn << 10 | flags`
  let mem : Nat → UInt8 := Foundation.storeLE (Foundation.storeLE (Foundation.storeLE (fun _ => 0)
    (2 * pageSize) 8 (3 * 2 ^ 10 + 1)) (3 * pageSize) 8 (4 * 2 ^ 10 + 1)) (4 * pageSize) 8 (5 * 2 ^ 10 + 15)
  let k : Kernel := ⟨⟨mem, ⟨0, 0, []⟩⟩, ⟨2, []⟩, ⟨⟨⟨0⟩, []⟩, []⟩, [initproc, child], ⟨[1]⟩, some 0, 0⟩
  have table : k.table = (ProcessTable.boot.runTask 0).addChild 0 := by decide
  have inv : k.table.Inv := table ▸ (ProcessTable.inv_boot.runTask rfl (by decide)).addChild rfl
  have noZombie : ∀ q v, k.table.task? q = some v → v.taskStatus ≠ .zombie := by
    intro q v found
    have member := Foundation.mem_of_lookup found
    simp only [k, Kernel.table, List.map_cons, List.map_nil, List.mem_cons, List.not_mem_nil, or_false] at member
    rcases member with rfl | rfl <;> decide
  have reports : (Kernel.run img [.timer, .runTasks 0, .exit 7, .runTasks 0, .waitpid 1 0] k).map Prod.fst =
      .ok [.exited 1 7, .reaped 1 7] := by decide +kernel
  obtain ⟨k', ran⟩ : ∃ k', Kernel.run img [.timer, .runTasks 0, .exit 7, .runTasks 0, .waitpid 1 0] k =
      .ok ([.exited 1 7, .reaped 1 7], k') := by
    cases ranAs : Kernel.run img [.timer, .runTasks 0, .exit 7, .runTasks 0, .waitpid 1 0] k with
    | error e =>
        rw [ranAs] at reports
        cases reports
    | ok r =>
        obtain ⟨obs, k'⟩ := r
        rw [ranAs] at reports
        cases reports
        exact ⟨k', rfl⟩
  exact ⟨img, k, k', _, inv, noZombie, ran, rfl, Kernel.run_reaps_last_exit img inv noZombie ran rfl⟩

end RCore
