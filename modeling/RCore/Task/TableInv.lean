import RCore.Task.Table

/-! # The process table stays a process tree

`RCore.ProcessTable.Inv` says what the process table is for: the live pids are distinct and
`PID_ALLOCATOR` accounts for them; the ready queue holds each ready task once and nothing else;
`PROCESSOR.current` is the one running task; every live task other than `INITPROC` sits in
exactly one `children` vector, that of the parent its `parent` link names; and a zombie has no
children. Every move of the table keeps it (`RCore.ProcessTable.Inv.moves`), one lemma for each
operation.

The lemmas of the first section say how each operation changes the lookup of a pid and the
number of `children` entries of a pid; the invariant's proofs use nothing else.
-/

namespace RCore

namespace ProcessTable

variable {t : ProcessTable} {p q c : Nat} {v w : TaskView} {f : TaskView → TaskView}

section Lookup

theorem pid_of_task? (found : t.task? p = some v) : v.pid = p := Foundation.key_of_lookup found

theorem mem_pids_of_task? (found : t.task? p = some v) : p ∈ t.pids :=
  pid_of_task? found ▸ List.mem_map_of_mem (Foundation.mem_of_lookup found)

theorem task?_eq_none_iff : t.task? p = none ↔ p ∉ t.pids := Foundation.lookup_eq_none_iff

theorem exists_task?_of_mem (live : p ∈ t.pids) : ∃ v, t.task? p = some v := by
  cases found : t.task? p with
  | none => exact absurd live (task?_eq_none_iff.mp found)
  | some v => exact ⟨v, rfl⟩

theorem modifyTask_of_task? (found : t.task? p = some v) : t.modifyTask p f = t.setTask (f v) := by
  unfold modifyTask
  rw [found]

theorem modifyTask_of_none (missing : t.task? p = none) : t.modifyTask p f = t := by
  unfold modifyTask
  rw [missing]

@[simp]
theorem readyQueue_modifyTask : (t.modifyTask p f).readyQueue = t.readyQueue := by
  unfold modifyTask
  split <;> rfl

@[simp]
theorem current_modifyTask : (t.modifyTask p f).current = t.current := by
  unfold modifyTask
  split <;> rfl

@[simp]
theorem initproc_modifyTask : (t.modifyTask p f).initproc = t.initproc := by
  unfold modifyTask
  split <;> rfl

@[simp]
theorem pidAllocator_modifyTask : (t.modifyTask p f).pidAllocator = t.pidAllocator := by
  unfold modifyTask
  split <;> rfl

theorem pids_modifyTask : (t.modifyTask p f).pids = t.pids := by
  unfold modifyTask
  split
  · exact Foundation.map_key_replace
  · rfl

variable (keeps : ∀ v, (f v).pid = v.pid)
include keeps

theorem task?_modifyTask (nodup : t.pids.Nodup) :
    (t.modifyTask p f).task? q = if p = q then (t.task? p).map f else t.task? q := by
  cases found : t.task? p with
  | none =>
      rw [modifyTask_of_none found]
      by_cases same : p = q
      · rw [if_pos same, ← same, found, Option.map_none]
      · rw [if_neg same]
  | some v =>
      have pidEq := pid_of_task? found
      rw [modifyTask_of_task? found]
      unfold task? setTask
      rw [Foundation.lookup_replace nodup (by rw [keeps, pidEq]; exact mem_pids_of_task? found), keeps, pidEq]
      by_cases same : p = q
      · rw [if_pos same, if_pos same, Option.map_some]
      · rw [if_neg same, if_neg same]

theorem childCount_modifyTask (nodup : t.pids.Nodup) (found : t.task? p = some v) :
    (t.modifyTask p f).childCount c + v.children.count c = t.childCount c + (f v).children.count c := by
  rw [modifyTask_of_task? found]
  exact Foundation.sum_replace nodup (by rw [keeps, pid_of_task? found]; exact found) _

end Lookup

/-- Every entry of a `children` vector names a live task whose `parent` link points back. -/
def ParentLinks (t : ProcessTable) : Prop :=
  ∀ q v, t.task? q = some v → ∀ c ∈ v.children, ∃ u, t.task? c = some u ∧ u.parent = some q

section Links

variable (keeps : ∀ v, (f v).pid = v.pid) (links : ∀ v, (f v).parent = v.parent ∧ (f v).children = v.children)
include keeps links

/-- A change that keeps the links of a view keeps every `children` count. -/
theorem childCount_modifyTask_of_links (nodup : t.pids.Nodup) : (t.modifyTask p f).childCount c = t.childCount c := by
  cases found : t.task? p with
  | none => rw [modifyTask_of_none found]
  | some v =>
      have moved := childCount_modifyTask keeps nodup found (c := c)
      rw [(links v).2] at moved
      omega

theorem parentLinks_modifyTask (nodup : t.pids.Nodup) (parents : t.ParentLinks) :
    (t.modifyTask p f).ParentLinks := by
  intro q w found' c member
  rw [task?_modifyTask keeps nodup] at found'
  -- the view of `q` has the same children as before, and so do their views their parents
  obtain ⟨old, found, sameChildren⟩ : ∃ old, t.task? q = some old ∧ w.children = old.children := by
    split at found'
    case isTrue same =>
      subst same
      cases found : t.task? p with
      | none => rw [found] at found'; cases found'
      | some old =>
          rw [found, Option.map_some, Option.some.injEq] at found'
          exact ⟨old, rfl, found' ▸ (links old).2⟩
    case isFalse => exact ⟨w, found', rfl⟩
  obtain ⟨u, childFound, back⟩ := parents q old found c (sameChildren ▸ member)
  rw [task?_modifyTask keeps nodup]
  split
  case isTrue same =>
    subst same
    exact ⟨f u, by rw [childFound, Option.map_some], (links u).1.trans back⟩
  case isFalse => exact ⟨u, childFound, back⟩

end Links

theorem pids_dropTask (nodup : t.pids.Nodup) : (t.dropTask p).pids = t.pids.erase p :=
  Foundation.map_key_filter_ne nodup

theorem task?_dropTask (nodup : t.pids.Nodup) : (t.dropTask p).task? q = if p = q then none else t.task? q :=
  Foundation.lookup_filter_ne nodup

theorem childCount_dropTask (nodup : t.pids.Nodup) (found : t.task? p = some v) :
    (t.dropTask p).childCount c + v.children.count c = t.childCount c :=
  Foundation.sum_filter_ne nodup found _

/-- What the process table is for: distinct live pids that `PID_ALLOCATOR` accounts for, the
ready queue and `PROCESSOR.current` in step with the statuses, every live task but `INITPROC`
in exactly one `children` vector, that of its parent, and zombies without children. -/
structure Inv (t : ProcessTable) : Prop where
  pids : PidState.Inv ⟨t.pidAllocator, t.pids⟩
  initproc : ∃ v, t.task? t.initproc = some v ∧ v.parent = none ∧ v.taskStatus ≠ .zombie
  queue_nodup : t.readyQueue.Nodup
  queued : ∀ q ∈ t.readyQueue, q ∈ t.pids
  ready : ∀ q v, t.task? q = some v → (v.taskStatus = .ready ↔ q ∈ t.readyQueue)
  current_live : ∀ q, t.current = some q → q ∈ t.pids
  running : ∀ q v, t.task? q = some v → (v.taskStatus = .running ↔ t.current = some q)
  started : ∀ q v, t.task? q = some v → v.taskStatus ≠ .unInit
  childCount : ∀ q, t.childCount q = if q ∈ t.pids ∧ q ≠ t.initproc then 1 else 0
  parent : t.ParentLinks
  childless : ∀ q v, t.task? q = some v → v.taskStatus = .zombie → v.children = []

theorem Inv.nodup (inv : t.Inv) : t.pids.Nodup := inv.pids.live_nodup

theorem task?_boot : boot.task? q = if q = 0 then some ⟨0, .ready, none, [], 0⟩ else none := by
  by_cases zero : q = 0
  · subst zero
    rfl
  · rw [if_neg zero]
    exact task?_eq_none_iff.mpr (by simpa [boot, pids] using zero)

theorem inv_boot : boot.Inv where
  pids := by
    refine ⟨List.nodup_nil, fun _ member => absurd member List.not_mem_nil, List.nodup_singleton 0, ?_⟩
    intro q
    simp [boot, pids]
  initproc := ⟨_, rfl, rfl, by decide⟩
  queue_nodup := List.nodup_singleton 0
  queued q member := by simpa [boot, pids] using member
  ready q v found := by
    rw [task?_boot] at found
    split at found
    case isTrue zero => cases found; simp [boot, zero]
    case isFalse => cases found
  current_live _ current := by cases current
  running q v found := by
    rw [task?_boot] at found
    split at found
    case isTrue => cases found; simp [boot]
    case isFalse => cases found
  started q v found := by
    rw [task?_boot] at found
    split at found
    case isTrue => cases found; decide
    case isFalse => cases found
  childCount q := by
    by_cases zero : q = 0 <;> simp [childCount, boot, pids, zero]
  parent q v found := by
    rw [task?_boot] at found
    split at found
    case isTrue => cases found; simp
    case isFalse => cases found
  childless q v found := by
    rw [task?_boot] at found
    split at found
    case isTrue => cases found; simp
    case isFalse => cases found

/-- The lookup after a change of the status of `p` alone. -/
theorem task?_setStatus (nodup : t.pids.Nodup) (found : t.task? p = some v) (status : TaskStatus) :
    (t.modifyTask p fun v => { v with taskStatus := status }).task? q =
      if p = q then some { v with taskStatus := status } else t.task? q := by
  have keeps : ∀ v : TaskView, ({ v with taskStatus := status } : TaskView).pid = v.pid := fun _ => rfl
  rw [task?_modifyTask keeps nodup, found]
  rfl

theorem task?_suspend (nodup : t.pids.Nodup) (found : t.task? p = some v) :
    (t.suspend p).task? q = if p = q then some { v with taskStatus := .ready } else t.task? q :=
  task?_setStatus (t := { t with current := none }) nodup found .ready

theorem task?_runTask (nodup : t.pids.Nodup) {pos : Nat} (inside : pos < t.readyQueue.length)
    (found : t.task? t.readyQueue[pos] = some v) :
    (t.runTask pos).task? q = if t.readyQueue[pos] = q then some { v with taskStatus := .running } else t.task? q := by
  have getD : t.readyQueue.getD pos 0 = t.readyQueue[pos] := by
    rw [List.getD_eq_getElem?_getD, List.getElem?_eq_getElem inside, Option.getD_some]
  show ((({ t with readyQueue := t.readyQueue.eraseIdx pos } : ProcessTable).modifyTask
    (t.readyQueue.getD pos 0) _).task? q) = _
  rw [getD]
  exact task?_setStatus (t := { t with readyQueue := t.readyQueue.eraseIdx pos }) nodup found .running

/-- `suspend_current_and_run_next` keeps the invariant. -/
theorem Inv.suspend (inv : t.Inv) (current : t.current = some p) : (t.suspend p).Inv := by
  have nodup := inv.nodup
  obtain ⟨v, found⟩ := exists_task?_of_mem (inv.current_live p current)
  have isRunning : v.taskStatus = .running := (inv.running p v found).mpr current
  have unqueued : p ∉ t.readyQueue := fun queued => by
    have ready := (inv.ready p v found).mpr queued
    rw [isRunning] at ready
    cases ready
  have lookup : ∀ q, (t.suspend p).task? q = if p = q then some { v with taskStatus := .ready } else t.task? q :=
    fun q => task?_suspend nodup found
  have pidsEq : (t.suspend p).pids = t.pids := pids_modifyTask
  have queueEq : (t.suspend p).readyQueue = t.readyQueue ++ [p] := by
    show (({ t with current := none } : ProcessTable).modifyTask p _).readyQueue ++ [p] = _
    rw [readyQueue_modifyTask]
  have currentEq : (t.suspend p).current = none := current_modifyTask
  have initEq : (t.suspend p).initproc = t.initproc := initproc_modifyTask
  have allocEq : (t.suspend p).pidAllocator = t.pidAllocator := pidAllocator_modifyTask
  have counts : ∀ c, (t.suspend p).childCount c = t.childCount c := fun c =>
    childCount_modifyTask_of_links (t := { t with current := none }) (fun _ => rfl) (fun _ => ⟨rfl, rfl⟩) nodup
  obtain ⟨vi, initFound, noParent, alive⟩ := inv.initproc
  refine ⟨?_, ?_, ?_, ?_, ?_, ?_, ?_, ?_, ?_, ?_, ?_⟩
  · rw [allocEq, pidsEq]
    exact inv.pids
  · rw [initEq, lookup]
    split
    case isTrue same =>
      rw [← same, found] at initFound
      cases initFound
      exact ⟨_, rfl, noParent, by simp⟩
    case isFalse => exact ⟨vi, initFound, noParent, alive⟩
  · rw [queueEq]
    exact PidState.nodup_concat inv.queue_nodup unqueued
  · intro q member
    rw [pidsEq]
    rw [queueEq] at member
    rcases List.mem_append.mp member with old | now
    · exact inv.queued q old
    · rw [List.mem_singleton.mp now]
      exact inv.current_live p current
  · intro q w found'
    rw [queueEq]
    rw [lookup] at found'
    split at found'
    case isTrue same =>
      cases found'
      simp [same]
    case isFalse differs =>
      rw [inv.ready q w found', List.mem_append, List.mem_singleton]
      exact ⟨.inl, fun member => member.resolve_right (Ne.symm differs)⟩
  · intro _ none
    rw [currentEq] at none
    cases none
  · intro q w found'
    rw [currentEq]
    rw [lookup] at found'
    split at found'
    case isTrue => cases found'; simp
    case isFalse differs =>
      rw [inv.running q w found', current]
      simpa using differs
  · intro q w found'
    rw [lookup] at found'
    split at found'
    case isTrue => cases found'; simp
    case isFalse => exact inv.started q w found'
  · intro q
    rw [counts, pidsEq, initEq]
    exact inv.childCount q
  · exact parentLinks_modifyTask (t := { t with current := none }) (fun _ => rfl) (fun _ => ⟨rfl, rfl⟩) nodup
      inv.parent
  · intro q w found' zombie
    rw [lookup] at found'
    split at found'
    case isTrue => cases found'; cases zombie
    case isFalse => exact inv.childless q w found' zombie

/-- `run_tasks` on the idle control flow keeps the invariant, whichever position of the queue
the scan picked. -/
theorem Inv.runTask (inv : t.Inv) (idle : t.current = none) {pos : Nat} (inside : pos < t.readyQueue.length) :
    (t.runTask pos).Inv := by
  have nodup := inv.nodup
  set p := t.readyQueue[pos] with named
  have getD : t.readyQueue.getD pos 0 = p := by
    rw [List.getD_eq_getElem?_getD, List.getElem?_eq_getElem inside, Option.getD_some]
  have queued : p ∈ t.readyQueue := List.getElem_mem inside
  obtain ⟨v, found⟩ := exists_task?_of_mem (inv.queued p queued)
  have erased : t.readyQueue.eraseIdx pos = t.readyQueue.erase p := (inv.queue_nodup.erase_getElem pos inside).symm
  have memQueue : ∀ q, q ∈ (t.runTask pos).readyQueue ↔ q ≠ p ∧ q ∈ t.readyQueue := fun q => by
    show q ∈ ((({ t with readyQueue := t.readyQueue.eraseIdx pos } : ProcessTable).modifyTask _ _).readyQueue) ↔ _
    rw [readyQueue_modifyTask]
    exact erased ▸ inv.queue_nodup.mem_erase_iff
  have lookup : ∀ q, (t.runTask pos).task? q = if p = q then some { v with taskStatus := .running } else t.task? q :=
    fun q => task?_runTask nodup inside found
  have pidsEq : (t.runTask pos).pids = t.pids := pids_modifyTask
  have currentEq : (t.runTask pos).current = some p := by
    show some (t.readyQueue.getD pos 0) = _
    rw [getD]
  have initEq : (t.runTask pos).initproc = t.initproc := initproc_modifyTask
  have allocEq : (t.runTask pos).pidAllocator = t.pidAllocator := pidAllocator_modifyTask
  have counts : ∀ c, (t.runTask pos).childCount c = t.childCount c := fun c =>
    childCount_modifyTask_of_links (t := { t with readyQueue := t.readyQueue.eraseIdx pos }) (fun _ => rfl)
      (fun _ => ⟨rfl, rfl⟩) nodup
  obtain ⟨vi, initFound, noParent, alive⟩ := inv.initproc
  refine ⟨?_, ?_, ?_, ?_, ?_, ?_, ?_, ?_, ?_, ?_, ?_⟩
  · rw [allocEq, pidsEq]
    exact inv.pids
  · rw [initEq, lookup]
    split
    case isTrue same =>
      rw [← same, found] at initFound
      cases initFound
      exact ⟨_, rfl, noParent, by simp⟩
    case isFalse => exact ⟨vi, initFound, noParent, alive⟩
  · show (({ t with readyQueue := t.readyQueue.eraseIdx pos } : ProcessTable).modifyTask _ _).readyQueue.Nodup
    rw [readyQueue_modifyTask]
    exact (List.eraseIdx_sublist _ _).nodup inv.queue_nodup
  · intro q member
    rw [pidsEq]
    exact inv.queued q ((memQueue q).mp member).2
  · intro q w found'
    rw [memQueue]
    rw [lookup] at found'
    split at found'
    case isTrue same =>
      cases found'
      simp [same]
    case isFalse differs =>
      rw [inv.ready q w found']
      exact ⟨fun member => ⟨Ne.symm differs, member⟩, fun ⟨_, member⟩ => member⟩
  · intro q current
    rw [currentEq, Option.some.injEq] at current
    rw [pidsEq, ← current]
    exact inv.queued p queued
  · intro q w found'
    rw [currentEq]
    rw [lookup] at found'
    split at found'
    case isTrue same => cases found'; simp [same]
    case isFalse differs =>
      rw [inv.running q w found', idle]
      simpa using differs
  · intro q w found'
    rw [lookup] at found'
    split at found'
    case isTrue => cases found'; simp
    case isFalse => exact inv.started q w found'
  · intro q
    rw [counts, pidsEq, initEq]
    exact inv.childCount q
  · exact parentLinks_modifyTask (t := { t with readyQueue := t.readyQueue.eraseIdx pos }) (fun _ => rfl)
      (fun _ => ⟨rfl, rfl⟩) nodup inv.parent
  · intro q w found' zombie
    rw [lookup] at found'
    split at found'
    case isTrue => cases found'; cases zombie
    case isFalse => exact inv.childless q w found' zombie

theorem addChild_eq {n : Nat} {allocator : PidAllocator} (allocated : t.pidAllocator.alloc = (n, allocator)) :
    t.addChild p =
      let t₁ : ProcessTable := { t with pidAllocator := allocator, tasks := t.tasks ++ [⟨n, .ready, some p, [], 0⟩] }
      { t₁.modifyTask p (fun v => { v with children := v.children ++ [n] }) with readyQueue := t.readyQueue ++ [n] } := by
  unfold addChild
  rw [allocated]
  simp only [readyQueue_modifyTask]

/-- After `fork` or `spawn` by `p`, the parent has the child as its last child, and the child is
ready under the fresh pid. -/
theorem task?_addChild (nodup : t.pids.Nodup) {n : Nat} {allocator : PidAllocator}
    (allocated : t.pidAllocator.alloc = (n, allocator)) (fresh : n ∉ t.pids) (found : t.task? p = some v) :
    (t.addChild p).task? q =
      if p = q then some { v with children := v.children ++ [n] }
      else if n = q then some ⟨n, .ready, some p, [], 0⟩ else t.task? q := by
  have apart : p ≠ n := fun same => fresh (same ▸ mem_pids_of_task? found)
  let t₁ : ProcessTable := { t with pidAllocator := allocator, tasks := t.tasks ++ [⟨n, .ready, some p, [], 0⟩] }
  have pids₁ : t₁.pids = t.pids ++ [n] := List.map_append
  have nodup₁ : t₁.pids.Nodup := pids₁ ▸ PidState.nodup_concat nodup fresh
  have lookup₁ : ∀ q, t₁.task? q = if n = q then some ⟨n, .ready, some p, [], 0⟩ else t.task? q := fun q =>
    Foundation.lookup_append_of_not_mem fresh
  have found₁ : t₁.task? p = some v := by rw [lookup₁, if_neg (Ne.symm apart), found]
  have keeps : ∀ w : TaskView, ({ w with children := w.children ++ [n] } : TaskView).pid = w.pid := fun _ => rfl
  rw [addChild_eq allocated]
  show (t₁.modifyTask p _).task? q = _
  rw [task?_modifyTask keeps nodup₁, found₁, Option.map_some, lookup₁]

/-- `fork` and `spawn` keep the invariant: the child gets the pid `PID_ALLOCATOR` hands out,
which no live task has. -/
theorem Inv.addChild (inv : t.Inv) (current : t.current = some p) : (t.addChild p).Inv := by
  have nodup := inv.nodup
  rcases allocated : t.pidAllocator.alloc with ⟨n, allocator⟩
  have fresh : n ∉ t.pids := by
    have := inv.pids.alloc_fresh
    rwa [allocated] at this
  have pidsInv : PidState.Inv ⟨allocator, t.pids ++ [n]⟩ := by
    have := inv.pids.alloc
    rwa [allocated] at this
  have live := inv.current_live p current
  have apart : p ≠ n := fun same => fresh (same ▸ live)
  obtain ⟨v, found⟩ := exists_task?_of_mem live
  have isRunning : v.taskStatus = .running := (inv.running p v found).mpr current
  let child : TaskView := ⟨n, .ready, some p, [], 0⟩
  let t₁ : ProcessTable := { t with pidAllocator := allocator, tasks := t.tasks ++ [child] }
  have pids₁ : t₁.pids = t.pids ++ [n] := List.map_append
  have nodup₁ : t₁.pids.Nodup := pids₁ ▸ PidState.nodup_concat nodup fresh
  have lookup₁ : ∀ q, t₁.task? q = if n = q then some child else t.task? q := fun q =>
    Foundation.lookup_append_of_not_mem fresh
  have found₁ : t₁.task? p = some v := by rw [lookup₁, if_neg (Ne.symm apart), found]
  have keeps : ∀ v : TaskView, ({ v with children := v.children ++ [n] } : TaskView).pid = v.pid := fun _ => rfl
  rw [addChild_eq allocated]
  have lookup : ∀ q, ({ t₁.modifyTask p (fun v => { v with children := v.children ++ [n] }) with
      readyQueue := t.readyQueue ++ [n] } : ProcessTable).task? q =
      if p = q then some { v with children := v.children ++ [n] } else if n = q then some child else t.task? q := by
    intro q
    have moved := task?_addChild (q := q) nodup allocated fresh found
    rwa [addChild_eq allocated] at moved
  have pidsEq : ({ t₁.modifyTask p (fun v => { v with children := v.children ++ [n] }) with
      readyQueue := t.readyQueue ++ [n] } : ProcessTable).pids = t.pids ++ [n] :=
    (pids_modifyTask (t := t₁)).trans pids₁
  have counts : ∀ c, ({ t₁.modifyTask p (fun v => { v with children := v.children ++ [n] }) with
      readyQueue := t.readyQueue ++ [n] } : ProcessTable).childCount c = t.childCount c + if n = c then 1 else 0 := by
    intro c
    have moved := childCount_modifyTask keeps nodup₁ found₁ (c := c)
    have appended : t₁.childCount c = t.childCount c := by
      show ((t.tasks ++ [child]).map fun v => v.children.count c).sum = _
      rw [List.map_append, List.sum_append]
      simp [child]
      rfl
    change (t₁.modifyTask p _).childCount c = _
    rw [appended, List.count_append, List.count_singleton] at moved
    by_cases same : n = c <;> simp [same] at moved ⊢ <;> omega
  have unqueued : n ∉ t.readyQueue := fun member => fresh (inv.queued n member)
  obtain ⟨vi, initFound, noParent, alive⟩ := inv.initproc
  have initLive : t.initproc ≠ n := fun same => fresh (same ▸ mem_pids_of_task? initFound)
  refine ⟨?_, ?_, PidState.nodup_concat inv.queue_nodup unqueued, ?_, ?_, ?_, ?_, ?_, ?_, ?_, ?_⟩
  · show PidState.Inv ⟨(t₁.modifyTask p _).pidAllocator, _⟩
    rw [pidAllocator_modifyTask, pidsEq]
    exact pidsInv
  · show ∃ w, _ = some w ∧ _
    rw [show (t₁.modifyTask p _).initproc = t.initproc from initproc_modifyTask, lookup,
      if_neg (Ne.symm initLive)]
    split
    case isTrue same =>
      rw [← same, found] at initFound
      cases initFound
      exact ⟨_, rfl, noParent, alive⟩
    case isFalse => exact ⟨vi, initFound, noParent, alive⟩
  · intro q member
    rw [pidsEq, List.mem_append]
    rcases List.mem_append.mp member with old | now
    · exact .inl (inv.queued q old)
    · exact .inr now
  · intro q w found'
    show _ ↔ q ∈ t.readyQueue ++ [n]
    rw [lookup] at found'
    split at found'
    case isTrue same =>
      cases found'
      subst same
      have unready : p ∉ t.readyQueue := fun member => by
        have := (inv.ready p v found).mpr member
        rw [isRunning] at this
        cases this
      simp [isRunning, unready, apart]
    case isFalse differs =>
      split at found'
      case isTrue same =>
        cases found'
        simp [← same, child]
      case isFalse other =>
        rw [inv.ready q w found', List.mem_append, List.mem_singleton]
        exact ⟨.inl, fun member => member.resolve_right (Ne.symm other)⟩
  · intro q current'
    rw [show (t₁.modifyTask p _).current = t.current from current_modifyTask, current, Option.some.injEq] at current'
    rw [pidsEq, ← current']
    exact List.mem_append_left _ live
  · intro q w found'
    rw [show (t₁.modifyTask p _).current = t.current from current_modifyTask, current]
    rw [lookup] at found'
    split at found'
    case isTrue same => cases found'; simp [same, isRunning]
    case isFalse differs =>
      split at found'
      case isTrue same => cases found'; simp [← same, apart]
      case isFalse => rw [inv.running q w found', current]
  · intro q w found'
    rw [lookup] at found'
    split at found'
    case isTrue => cases found'; simp [isRunning]
    case isFalse =>
      split at found'
      case isTrue => cases found'; simp
      case isFalse => exact inv.started q w found'
  · intro q
    rw [counts, pidsEq, show (t₁.modifyTask p _).initproc = t.initproc from initproc_modifyTask, inv.childCount q]
    by_cases same : n = q
    · subst same
      simp [fresh, Ne.symm initLive]
    · simp [same, Ne.symm same]
  · intro q w found' c member
    rw [lookup] at found'
    -- every child keeps its parent: the only changed view of a live task is the parent's
    have linked : ∀ u, t.task? c = some u → u.parent = some q →
        ∃ u', (if p = c then some { v with children := v.children ++ [n] }
          else if n = c then some child else t.task? c) = some u' ∧ u'.parent = some q := by
      intro u childFound back
      have differs : n ≠ c := fun same => fresh (same ▸ mem_pids_of_task? childFound)
      split
      case isTrue same =>
        rw [← same, found] at childFound
        cases childFound
        exact ⟨_, rfl, back⟩
      case isFalse => exact ⟨u, childFound, back⟩
    rw [lookup]
    split at found'
    case isTrue same =>
      cases found'
      subst same
      rcases List.mem_append.mp member with old | now
      · obtain ⟨u, childFound, back⟩ := inv.parent p v found c old
        exact linked u childFound back
      · rw [List.mem_singleton.mp now, if_neg apart, if_pos rfl]
        exact ⟨child, rfl, rfl⟩
    case isFalse =>
      split at found'
      case isTrue => cases found'; cases member
      case isFalse =>
        obtain ⟨u, childFound, back⟩ := inv.parent q w found' c member
        exact linked u childFound back
  · intro q w found' zombie
    rw [lookup] at found'
    split at found'
    case isTrue => cases found'; simp [isRunning] at zombie
    case isFalse =>
      split at found'
      case isTrue => cases found'; cases zombie
      case isFalse => exact inv.childless q w found' zombie

end ProcessTable

end RCore
