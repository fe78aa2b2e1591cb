import RCore.Task.TableInv

/-! # Exit, wait, and every move of the table

`exit_current_and_run_next` of a task other than `INITPROC` makes it a zombie, hands its
children to `INITPROC` one by one (`RCore.ProcessTable.reparent`) and clears its `children`;
its parent still holds it, so the block stays (`RCore.ProcessTable.exit_spec`). `sys_waitpid`
reaps the first matching zombie child: it leaves its parent's `children` and the table, and its
pid goes back to `PID_ALLOCATOR`. Both keep the invariant (`RCore.ProcessTable.Inv.exit`,
`RCore.ProcessTable.Inv.wait`), and with the lemmas of `RCore.Task.TableInv` so does every move
(`RCore.ProcessTable.Inv.moves`).
-/

namespace RCore

namespace ProcessTable

variable {t : ProcessTable} {p q c d : Nat} {v w : TaskView}

section Exit

@[simp] theorem pids_reparent : (t.reparent c).pids = t.pids := by
  unfold reparent
  rw [pids_modifyTask, pids_modifyTask]

@[simp] theorem readyQueue_reparent : (t.reparent c).readyQueue = t.readyQueue := by
  simp [reparent]

@[simp] theorem current_reparent : (t.reparent c).current = t.current := by
  simp [reparent]

@[simp] theorem initproc_reparent : (t.reparent c).initproc = t.initproc := by
  simp [reparent]

@[simp] theorem pidAllocator_reparent : (t.reparent c).pidAllocator = t.pidAllocator := by
  simp [reparent]

/-- One iteration of the loop: `c` points at `INITPROC`, which gains `c` as its last child. -/
theorem task?_reparent (nodup : t.pids.Nodup) (notInit : c ≠ t.initproc) :
    (t.reparent c).task? q =
      (t.task? q).map fun w =>
        { w with children := (if q = t.initproc then w.children ++ [c] else w.children),
                 parent := (if q = c then some t.initproc else w.parent) } := by
  have keepsParent : ∀ w : TaskView, ({ w with parent := some t.initproc } : TaskView).pid = w.pid :=
    fun _ => rfl
  have keepsChildren : ∀ w : TaskView, ({ w with children := w.children ++ [c] } : TaskView).pid = w.pid :=
    fun _ => rfl
  have nodup₁ : (t.modifyTask c fun w => { w with parent := some t.initproc }).pids.Nodup := by
    rw [pids_modifyTask]
    exact nodup
  unfold reparent
  rw [task?_modifyTask keepsChildren nodup₁, task?_modifyTask keepsParent nodup,
    task?_modifyTask keepsParent nodup]
  by_cases atInit : t.initproc = q
  · subst atInit
    rw [if_pos rfl, if_neg notInit]
    cases t.task? t.initproc <;> simp [Ne.symm notInit]
  · rw [if_neg atInit]
    by_cases atChild : c = q
    · subst atChild
      rw [if_pos rfl]
      cases t.task? c <;> simp [Ne.symm atInit]
    · rw [if_neg atChild]
      cases t.task? q <;> simp [Ne.symm atInit, Ne.symm atChild]

/-- A change that keeps the children of every view keeps every `children` count. -/
theorem childCount_modifyTask_of_children {f : TaskView → TaskView} (keeps : ∀ v, (f v).pid = v.pid)
    (same : ∀ v, (f v).children = v.children) (nodup : t.pids.Nodup) :
    (t.modifyTask p f).childCount d = t.childCount d := by
  cases found : t.task? p with
  | none => rw [modifyTask_of_none found]
  | some u =>
      have moved := childCount_modifyTask keeps nodup found (c := d)
      rw [same u] at moved
      omega

theorem childCount_reparent (nodup : t.pids.Nodup) (notInit : c ≠ t.initproc)
    (initFound : t.task? t.initproc = some w) : (t.reparent c).childCount d = t.childCount d + [c].count d := by
  have keepsParent : ∀ w : TaskView, ({ w with parent := some t.initproc } : TaskView).pid = w.pid :=
    fun _ => rfl
  have keepsChildren : ∀ w : TaskView, ({ w with children := w.children ++ [c] } : TaskView).pid = w.pid :=
    fun _ => rfl
  have nodup₁ : (t.modifyTask c fun w => { w with parent := some t.initproc }).pids.Nodup := by
    rw [pids_modifyTask]
    exact nodup
  have first : (t.modifyTask c fun w => { w with parent := some t.initproc }).childCount d = t.childCount d :=
    childCount_modifyTask_of_children keepsParent (fun _ => rfl) nodup
  have found₁ : (t.modifyTask c fun w => { w with parent := some t.initproc }).task? t.initproc = some w := by
    rw [task?_modifyTask keepsParent nodup, if_neg notInit, initFound]
  have second := childCount_modifyTask keepsChildren nodup₁ found₁ (c := d)
  rw [first, List.count_append] at second
  unfold reparent
  omega

/-- The loop over `children` keeps every field but the views. -/
theorem fields_foldl_reparent : ∀ (children : List Nat) (t : ProcessTable),
    (children.foldl reparent t).pids = t.pids ∧ (children.foldl reparent t).readyQueue = t.readyQueue ∧
      (children.foldl reparent t).current = t.current ∧ (children.foldl reparent t).initproc = t.initproc ∧
      (children.foldl reparent t).pidAllocator = t.pidAllocator
  | [], _ => ⟨rfl, rfl, rfl, rfl, rfl⟩
  | c :: children, t => by
      obtain ⟨pids, queue, current, init, alloc⟩ := fields_foldl_reparent children (t.reparent c)
      rw [List.foldl_cons]
      exact ⟨pids.trans pids_reparent, queue.trans readyQueue_reparent, current.trans current_reparent,
        init.trans initproc_reparent, alloc.trans pidAllocator_reparent⟩

/-- After the loop over `children`, each of them points at `INITPROC`, which has them as its last
children, in order. -/
theorem task?_foldl_reparent : ∀ (children : List Nat) (t : ProcessTable), t.pids.Nodup →
    t.initproc ∉ children → children.Nodup → ∀ q, (children.foldl reparent t).task? q =
      (t.task? q).map fun w =>
        { w with children := (if q = t.initproc then w.children ++ children else w.children),
                 parent := (if q ∈ children then some t.initproc else w.parent) }
  | [], t, _, _, _, q => by
      rw [List.foldl_nil]
      cases found : t.task? q <;> simp
  | c :: children, t, nodup, notInit, distinct, q => by
      have notInit' : t.initproc ∉ children := fun member => notInit (List.mem_cons_of_mem c member)
      have notInitC : c ≠ t.initproc := fun same => notInit (same ▸ List.mem_cons_self)
      obtain ⟨fresh, distinct'⟩ := List.nodup_cons.mp distinct
      have nodup₁ : (t.reparent c).pids.Nodup := by
        rw [pids_reparent]
        exact nodup
      rw [List.foldl_cons, task?_foldl_reparent children (t.reparent c) nodup₁ (by rwa [initproc_reparent])
        distinct' q, task?_reparent nodup notInitC, initproc_reparent, Option.map_map]
      congr 1
      funext w
      by_cases atInit : q = t.initproc
      · simp [atInit, Ne.symm notInitC]
      · by_cases atC : q = c
        · subst atC
          simp [atInit, fresh]
        · simp [atInit, atC]

theorem childCount_foldl_reparent : ∀ (children : List Nat) (t : ProcessTable), t.pids.Nodup →
    t.initproc ∉ children → (∃ w, t.task? t.initproc = some w) →
      ∀ d, (children.foldl reparent t).childCount d = t.childCount d + children.count d
  | [], t, _, _, _, d => rfl
  | c :: children, t, nodup, notInit, ⟨w, initFound⟩, d => by
      have notInitC : c ≠ t.initproc := fun same => notInit (same ▸ List.mem_cons_self)
      have nodup₁ : (t.reparent c).pids.Nodup := by
        rw [pids_reparent]
        exact nodup
      obtain ⟨w₁, initFound₁⟩ : ∃ w₁, (t.reparent c).task? (t.reparent c).initproc = some w₁ :=
        ⟨_, by rw [initproc_reparent, task?_reparent nodup notInitC, initFound, Option.map_some]⟩
      rw [List.foldl_cons, childCount_foldl_reparent children (t.reparent c) nodup₁
        (by rw [initproc_reparent]; exact fun member => notInit (List.mem_cons_of_mem c member)) ⟨_, initFound₁⟩ d,
        childCount_reparent nodup notInitC initFound]
      have split : (c :: children).count d = [c].count d + children.count d := by
        rw [← List.count_append]
        rfl
      omega

/-- A `children` vector counts no entry more often than the whole table. -/
theorem count_le_childCount (found : t.task? q = some w) : w.children.count d ≤ t.childCount d :=
  List.le_sum_of_mem (List.mem_map_of_mem (Foundation.mem_of_lookup found))

/-- Each entry of a `children` vector is counted once in the whole table, so a vector has no
entry twice. -/
theorem Inv.children_nodup (inv : t.Inv) (found : t.task? p = some v) : v.children.Nodup :=
  List.nodup_iff_count_le_one.mpr fun d => by
    have bound := count_le_childCount found (d := d)
    rw [inv.childCount d] at bound
    split at bound <;> omega

/-- `INITPROC` is no task's child. -/
theorem Inv.initproc_not_child (inv : t.Inv) (found : t.task? p = some v) : t.initproc ∉ v.children := fun member => by
  have bound := count_le_childCount found (d := t.initproc)
  rw [inv.childCount, if_neg fun live => live.2 rfl] at bound
  exact absurd (List.count_pos_iff.mpr member) (by omega)

/-- A live task other than `INITPROC` is held by exactly one `children` entry. -/
theorem Inv.childCount_of_task? (inv : t.Inv) (found : t.task? p = some v) (notInit : p ≠ t.initproc) :
    t.childCount p = 1 := by
  rw [inv.childCount p, if_pos ⟨mem_pids_of_task? found, notInit⟩]

section ExitOf

variable {vi : TaskView} (nodup : t.pids.Nodup) (found : t.task? p = some v) (notInit : p ≠ t.initproc)
  (initFound : t.task? t.initproc = some vi) (fresh : t.initproc ∉ v.children) (distinct : v.children.Nodup)
  (counted : t.childCount p = 1) (code : Int)

include found in
/-- `exit_current_and_run_next` leaves the table made of these steps, when the block stays. -/
theorem exit_eq : t.exit p code =
    ((v.children.foldl reparent (({ t with current := none } : ProcessTable).modifyTask p
      fun w => { w with taskStatus := .zombie, exitCode := code })).modifyTask p
        fun w => { w with children := [] }).dropArc p := by
  have found' : ({ t with current := none } : ProcessTable).task? p = some v := found
  unfold exit
  rw [found, modifyTask_of_task? found']

include nodup found notInit initFound fresh distinct counted in
/-- The table after the exit of a live task that is some task's child: the task is a zombie with
no children, its children point at `INITPROC`, which has them as its last children, and
nothing else changes; the block stays, held by its parent. -/
theorem exit_spec : ∃ t', t.exit p code = t' ∧ t'.pids = t.pids ∧ t'.readyQueue = t.readyQueue ∧
    t'.current = none ∧ t'.initproc = t.initproc ∧ t'.pidAllocator = t.pidAllocator ∧
    (∀ d, t'.childCount d = t.childCount d) ∧
    ∀ q, t'.task? q = (t.task? q).map fun w =>
      { w with taskStatus := (if q = p then .zombie else w.taskStatus),
               exitCode := (if q = p then code else w.exitCode),
               children := (if q = p then [] else if q = t.initproc then w.children ++ v.children else w.children),
               parent := (if q ∈ v.children then some t.initproc else w.parent) } := by
  have keepsZombie : ∀ w : TaskView, ({ w with taskStatus := .zombie, exitCode := code } : TaskView).pid = w.pid :=
    fun _ => rfl
  have keepsCleared : ∀ w : TaskView, ({ w with children := [] } : TaskView).pid = w.pid := fun _ => rfl
  -- the three steps before the drop: the status and code, the loop, and the cleared children
  set t₁ := ({ t with current := none } : ProcessTable).modifyTask p
    fun w => { w with taskStatus := .zombie, exitCode := code } with named₁
  set t₂ := v.children.foldl reparent t₁ with named₂
  set t₃ := t₂.modifyTask p fun w => { w with children := [] } with named₃
  have lookup₁ : ∀ q, t₁.task? q = if p = q then some { v with taskStatus := .zombie, exitCode := code }
      else t.task? q := fun q => by
    rw [named₁, task?_modifyTask keepsZombie (show ({ t with current := none } : ProcessTable).pids.Nodup from nodup)]
    exact congrArg (fun o => if p = q then Option.map _ o else t.task? q) found
  have pids₁ : t₁.pids = t.pids := pids_modifyTask
  have nodup₁ : t₁.pids.Nodup := pids₁ ▸ nodup
  have init₁ : t₁.initproc = t.initproc := initproc_modifyTask
  have initFound₁ : t₁.task? t₁.initproc = some vi := by rw [init₁, lookup₁, if_neg notInit, initFound]
  have counts₁ : ∀ d, t₁.childCount d = t.childCount d := fun d =>
    childCount_modifyTask_of_children (t := { t with current := none }) keepsZombie (fun _ => rfl) nodup
  obtain ⟨pids₂, queue₂, current₂, init₂, alloc₂⟩ := fields_foldl_reparent v.children t₁
  have lookup₂ := task?_foldl_reparent v.children t₁ nodup₁ (init₁ ▸ fresh) distinct
  have counts₂ := childCount_foldl_reparent v.children t₁ nodup₁ (init₁ ▸ fresh) ⟨vi, initFound₁⟩
  rw [init₁] at lookup₂
  have found₂ : t₂.task? p = some
      { v with taskStatus := .zombie, exitCode := code,
               parent := (if p ∈ v.children then some t.initproc else v.parent) } := by
    rw [named₂, lookup₂, lookup₁, if_pos rfl, Option.map_some, if_neg notInit]
  have lookup₃ : ∀ q, t₃.task? q = if p = q then (t₂.task? p).map (fun w => { w with children := [] })
      else t₂.task? q := fun q => task?_modifyTask keepsCleared (pids₂ ▸ nodup₁)
  have counts₃ : ∀ d, t₃.childCount d = t.childCount d := by
    intro d
    have cleared := childCount_modifyTask keepsCleared (pids₂ ▸ nodup₁) found₂ (c := d)
    rw [counts₂ d, counts₁ d] at cleared
    rw [← named₃] at cleared
    simp only [List.count_nil] at cleared
    omega
  -- the block stays: its parent still holds it
  have stays : t.exit p code = t₃ := by
    rw [exit_eq found code]
    unfold dropArc strongCount
    rw [if_neg (by rw [counts₃ p, counted]; omega)]
  refine ⟨t₃, stays, ?_, ?_, ?_, ?_, ?_, counts₃, fun q => ?_⟩
  · rw [named₃, pids_modifyTask, pids₂, pids₁]
  · rw [named₃, readyQueue_modifyTask, queue₂, named₁, readyQueue_modifyTask]
  · rw [named₃, current_modifyTask, current₂, named₁, current_modifyTask]
  · rw [named₃, initproc_modifyTask, init₂, init₁]
  · rw [named₃, pidAllocator_modifyTask, alloc₂, named₁, pidAllocator_modifyTask]
  · rw [lookup₃]
    by_cases same : p = q
    · subst same
      rw [if_pos rfl, found₂, found]
      simp
    · rw [if_neg same, named₂, lookup₂, lookup₁, if_neg same]
      cases t.task? q <;> simp [Ne.symm same]

end ExitOf

/-- `exit_current_and_run_next` of the current task, which is not `INITPROC`, keeps the
invariant: the children move to `INITPROC` and the zombie stays in its parent's `children`. -/
theorem Inv.exit (inv : t.Inv) (current : t.current = some p) (notInit : p ≠ t.initproc) (code : Int) :
    (t.exit p code).Inv := by
  have nodup := inv.nodup
  obtain ⟨v, found⟩ := exists_task?_of_mem (inv.current_live p current)
  have isRunning : v.taskStatus = .running := (inv.running p v found).mpr current
  have unqueued : p ∉ t.readyQueue := fun queued => by
    have ready := (inv.ready p v found).mpr queued
    rw [isRunning] at ready
    cases ready
  obtain ⟨vi, initFound, noParent, alive⟩ := inv.initproc
  have counted := inv.childCount_of_task? found notInit
  have distinct := inv.children_nodup found
  have fresh := inv.initproc_not_child found
  obtain ⟨t', exited, pids', queue', current', init', alloc', counts', lookup⟩ :=
    exit_spec nodup found notInit initFound fresh distinct counted code
  rw [exited]
  refine ⟨?_, ?_, ?_, ?_, ?_, ?_, ?_, ?_, ?_, ?_, ?_⟩
  · rw [alloc', pids']
    exact inv.pids
  · rw [init', lookup, initFound, Option.map_some]
    exact ⟨_, rfl, by simp [fresh, noParent], by simp [Ne.symm notInit, alive]⟩
  · rw [queue']
    exact inv.queue_nodup
  · intro q member
    rw [pids']
    exact inv.queued q (queue' ▸ member)
  · intro q w found'
    rw [lookup] at found'
    obtain ⟨w₀, found₀, rfl⟩ := Option.map_eq_some_iff.mp found'
    rw [queue']
    by_cases same : q = p
    · subst same
      simp [unqueued]
    · simpa [same] using inv.ready q w₀ found₀
  · intro q none
    rw [current'] at none
    cases none
  · intro q w found'
    rw [lookup] at found'
    obtain ⟨w₀, found₀, rfl⟩ := Option.map_eq_some_iff.mp found'
    rw [current']
    by_cases same : q = p
    · subst same
      simp
    · have idle := inv.running q w₀ found₀
      rw [current, Option.some.injEq] at idle
      simpa [same, Ne.symm same] using idle
  · intro q w found'
    rw [lookup] at found'
    obtain ⟨w₀, found₀, rfl⟩ := Option.map_eq_some_iff.mp found'
    by_cases same : q = p
    · simp [same]
    · simpa [same] using inv.started q w₀ found₀
  · intro q
    rw [counts', pids', init']
    exact inv.childCount q
  · intro q w found' c member
    rw [lookup] at found'
    obtain ⟨w₀, found₀, rfl⟩ := Option.map_eq_some_iff.mp found'
    -- the parent of `c` afterwards is `INITPROC` for a child of `p`, and what it was otherwise
    have linked : ∀ u₀, t.task? c = some u₀ →
        (if c ∈ v.children then some t.initproc else u₀.parent) = some q →
        ∃ u, (t'.task? c) = some u ∧ u.parent = some q := fun u₀ childFound back =>
      ⟨_, by rw [lookup, childFound, Option.map_some], back⟩
    by_cases atP : q = p
    · simp [atP] at member
    by_cases atInit : q = t.initproc
    · dsimp only at member
      rw [if_neg atP, if_pos atInit, List.mem_append] at member
      rcases member with old | moved
      · obtain ⟨u₀, childFound, back⟩ := inv.parent q w₀ found₀ c old
        exact linked u₀ childFound (by split <;> simp [atInit, back])
      · obtain ⟨u₀, childFound, -⟩ := inv.parent p v found c moved
        exact linked u₀ childFound (by rw [if_pos moved, atInit])
    · dsimp only at member
      rw [if_neg atP, if_neg atInit] at member
      obtain ⟨u₀, childFound, back⟩ := inv.parent q w₀ found₀ c member
      -- a child of another parent is no child of `p`
      have notMoved : c ∉ v.children := fun moved => by
        obtain ⟨u₁, childFound', back'⟩ := inv.parent p v found c moved
        rw [childFound] at childFound'
        cases childFound'
        rw [back] at back'
        exact atP (Option.some.inj back')
      exact linked u₀ childFound (by rw [if_neg notMoved, back])
  · intro q w found' zombie
    rw [lookup] at found'
    obtain ⟨w₀, found₀, rfl⟩ := Option.map_eq_some_iff.mp found'
    by_cases atP : q = p
    · simp [atP]
    · have wasZombie : w₀.taskStatus = .zombie := by simpa [atP] using zombie
      have atInit : q ≠ t.initproc := fun same => by
        rw [same, initFound] at found₀
        cases found₀
        exact alive wasZombie
      simp [atP, atInit, inv.childless q w₀ found₀ wasZombie]

end Exit

section Wait

/-- The child `sys_waitpid` picks: the first entry of `children` that is a zombie and matches. -/
theorem waitTarget_spec {children : List Nat} {pid : Int} {child idx : Nat}
    (picked : t.waitTarget children pid = some (child, idx)) :
    ∃ inside : idx < children.length, children[idx] = child ∧ t.isZombie child = true := by
  have member := List.mem_of_find?_eq_some picked
  have holds := List.find?_some picked
  obtain ⟨-, inside, named⟩ := List.mem_zipIdx member
  simp only [Nat.sub_zero, Nat.zero_add] at named inside
  simp only [Bool.and_eq_true] at holds
  exact ⟨inside, named.symm, holds.1⟩

theorem exists_of_isZombie (zombie : t.isZombie c = true) : ∃ u, t.task? c = some u ∧ u.taskStatus = .zombie := by
  unfold isZombie at zombie
  cases found : t.task? c with
  | none => rw [found] at zombie; cases zombie
  | some u =>
      rw [found] at zombie
      exact ⟨u, rfl, by simpa using zombie⟩

/-- A zombie is held by no place but the `children` entries: it is not `INITPROC`, not queued and
not current. -/
theorem Inv.zombie_unheld {u : TaskView} (inv : t.Inv) (found : t.task? c = some u)
    (zombie : u.taskStatus = .zombie) : c ≠ t.initproc ∧ c ∉ t.readyQueue ∧ t.current ≠ some c := by
  obtain ⟨vi, initFound, -, alive⟩ := inv.initproc
  refine ⟨fun same => ?_, fun queued => ?_, fun running => ?_⟩
  · rw [same, initFound] at found
    cases found
    exact alive zombie
  · have ready := (inv.ready c u found).mpr queued
    rw [zombie] at ready
    cases ready
  · have isRunning := (inv.running c u found).mpr running
    rw [zombie] at isRunning
    cases isRunning

/-- Taking the entry at `idx` out of the `children` of `p` takes one entry of `v.children[idx]`
out of the counts. -/
theorem childCount_eraseIdx (nodup : t.pids.Nodup) (found : t.task? p = some v) {idx : Nat}
    (inside : idx < v.children.length) :
    (t.setTask { v with children := v.children.eraseIdx idx }).childCount d +
      (if v.children[idx] = d then 1 else 0) = t.childCount d := by
  have moved := childCount_modifyTask (f := fun w => { w with children := w.children.eraseIdx idx })
    (fun _ => rfl) nodup found (c := d)
  have dropped := Foundation.count_eraseIdx inside (a := d)
  rw [modifyTask_of_task? found] at moved
  dsimp only at moved
  omega

/-- Once `sys_waitpid` has taken the child it reaps out of the caller's `children`, no place holds
the child: the `Arc` it removed is the only one, as its `assert_eq!` checks. -/
theorem Inv.strongCount_reap (inv : t.Inv) (found : t.task? p = some v) {pid : Int} {child idx : Nat}
    (picked : t.waitTarget v.children pid = some (child, idx)) :
    (t.setTask { v with children := v.children.eraseIdx idx }).strongCount child = 0 := by
  obtain ⟨inside, named, zombie⟩ := waitTarget_spec picked
  obtain ⟨u, childFound, isZombie⟩ := exists_of_isZombie zombie
  obtain ⟨notInit, unqueued, idle⟩ := inv.zombie_unheld childFound isZombie
  have counts := childCount_eraseIdx inv.nodup found inside (d := child)
  have held := inv.childCount child
  rw [if_pos ⟨mem_pids_of_task? childFound, notInit⟩] at held
  rw [named, if_pos rfl, held] at counts
  unfold strongCount
  show _ + t.readyQueue.count child + (if t.current = some child then 1 else 0) +
    (if t.initproc = child then 1 else 0) = 0
  rw [List.count_eq_zero.mpr unqueued, if_neg idle, if_neg (Ne.symm notInit)]
  omega

/-- `sys_waitpid` reaping the zombie child at position `idx` of the caller's `children` keeps the
invariant: the child has no children of its own and no place but that entry holds it. -/
theorem Inv.reap (inv : t.Inv) (current : t.current = some p) (found : t.task? p = some v) {pid : Int}
    {child idx : Nat} (picked : t.waitTarget v.children pid = some (child, idx)) :
    ((t.setTask { v with children := v.children.eraseIdx idx }).dropTask child).Inv := by
  have nodup := inv.nodup
  obtain ⟨inside, named, zombie⟩ := waitTarget_spec picked
  obtain ⟨u, childFound, isZombie⟩ := exists_of_isZombie zombie
  have isRunning : v.taskStatus = .running := (inv.running p v found).mpr current
  obtain ⟨vi, initFound, noParent, alive⟩ := inv.initproc
  have member : child ∈ v.children := named ▸ List.getElem_mem inside
  have live : child ∈ t.pids := mem_pids_of_task? childFound
  have apart : p ≠ child := fun same => by
    rw [same, childFound] at found
    cases found
    rw [isRunning] at isZombie
    cases isZombie
  obtain ⟨notInit, unqueued, idle⟩ := inv.zombie_unheld childFound isZombie
  have childless := inv.childless child u childFound isZombie
  have distinct := inv.children_nodup found
  have erased : v.children.eraseIdx idx = v.children.erase child := by
    rw [← named, distinct.erase_getElem idx inside]
  -- the caller's entry goes, then the block
  have keeps : ∀ w : TaskView, ({ w with children := w.children.eraseIdx idx } : TaskView).pid = w.pid :=
    fun _ => rfl
  set t₁ := t.setTask { v with children := v.children.eraseIdx idx } with named₁
  have modified : t₁ = t.modifyTask p fun w => { w with children := w.children.eraseIdx idx } := by
    rw [modifyTask_of_task? found]
  have pids₁ : t₁.pids = t.pids := modified ▸ pids_modifyTask
  have lookup₁ : ∀ q, t₁.task? q =
      (t.task? q).map fun w => { w with children := if q = p then w.children.erase child else w.children } :=
    fun q => by
      rw [modified, task?_modifyTask keeps nodup]
      by_cases same : p = q
      · subst same
        rw [if_pos rfl, found]
        simp [erased]
      · rw [if_neg same]
        cases t.task? q <;> simp [Ne.symm same]
  have counts₁ : ∀ d, t₁.childCount d + (if child = d then 1 else 0) = t.childCount d := fun d => by
    rw [← named]
    exact childCount_eraseIdx nodup found inside
  have nodup₁ : t₁.pids.Nodup := pids₁ ▸ nodup
  have childFound₁ : t₁.task? child = some { u with children := u.children } := by
    rw [lookup₁, childFound, Option.map_some, if_neg (Ne.symm apart)]
  have lookup : ∀ q, (t₁.dropTask child).task? q = if child = q then none else
      (t.task? q).map fun w => { w with children := if q = p then w.children.erase child else w.children } :=
    fun q => by rw [task?_dropTask nodup₁, lookup₁]
  have counts : ∀ d, (t₁.dropTask child).childCount d = t₁.childCount d := fun d => by
    have gone := childCount_dropTask nodup₁ childFound₁ (c := d)
    rw [childless, List.count_nil] at gone
    omega
  have pidsEq : (t₁.dropTask child).pids = t.pids.erase child := by
    rw [pids_dropTask nodup₁, pids₁]
  have initEq : (t₁.dropTask child).initproc = t.initproc := rfl
  refine ⟨?_, ?_, ?_, ?_, ?_, ?_, ?_, ?_, ?_, ?_, ?_⟩
  · have dropped := inv.pids.drop (List.getElem?_idxOf live)
    rw [List.eraseIdx_idxOf_eq_erase] at dropped
    rw [pidsEq]
    exact dropped
  · rw [initEq, lookup, if_neg notInit, initFound, Option.map_some]
    exact ⟨_, rfl, noParent, alive⟩
  · exact inv.queue_nodup
  · intro q member
    rw [pidsEq, nodup.mem_erase_iff]
    exact ⟨fun same => unqueued (same ▸ member), inv.queued q member⟩
  · intro q w found'
    rw [lookup] at found'
    split at found'
    case isTrue => cases found'
    case isFalse =>
      obtain ⟨w₀, found₀, rfl⟩ := Option.map_eq_some_iff.mp found'
      exact inv.ready q w₀ found₀
  · intro q running
    rw [pidsEq, nodup.mem_erase_iff]
    exact ⟨fun same => idle (same ▸ running), inv.current_live q running⟩
  · intro q w found'
    rw [lookup] at found'
    split at found'
    case isTrue => cases found'
    case isFalse =>
      obtain ⟨w₀, found₀, rfl⟩ := Option.map_eq_some_iff.mp found'
      exact inv.running q w₀ found₀
  · intro q w found'
    rw [lookup] at found'
    split at found'
    case isTrue => cases found'
    case isFalse =>
      obtain ⟨w₀, found₀, rfl⟩ := Option.map_eq_some_iff.mp found'
      exact inv.started q w₀ found₀
  · intro q
    have before := counts₁ q
    have whole := inv.childCount q
    rw [counts, initEq]
    simp only [pidsEq, nodup.mem_erase_iff]
    by_cases same : child = q
    · subst same
      rw [if_pos ⟨live, notInit⟩] at whole
      rw [if_pos rfl] at before
      simp only [ne_eq, not_true_eq_false, false_and, if_false]
      omega
    · rw [if_neg same] at before
      simp only [ne_eq, Ne.symm same, not_false_eq_true, true_and]
      rw [← whole]
      omega
  · intro q w found' c held
    rw [lookup] at found'
    split at found'
    case isTrue => cases found'
    case isFalse away =>
      obtain ⟨w₀, found₀, rfl⟩ := Option.map_eq_some_iff.mp found'
      have old : c ∈ w₀.children := by
        dsimp only at held
        split at held
        · exact List.mem_of_mem_erase held
        · exact held
      obtain ⟨u₀, childFound₀, back⟩ := inv.parent q w₀ found₀ c old
      -- the reaped child was linked to the caller only, and its entry there is gone
      have kept : child ≠ c := fun same => by
        subst same
        obtain ⟨u₁, childFound₁', back₁⟩ := inv.parent p v found child member
        rw [childFound₀] at childFound₁'
        cases childFound₁'
        rw [back] at back₁
        cases back₁
        rw [found] at found₀
        cases found₀
        simp [distinct.mem_erase_iff] at held
      rw [lookup, if_neg kept, childFound₀, Option.map_some]
      exact ⟨_, rfl, back⟩
  · intro q w found' zombie
    rw [lookup] at found'
    split at found'
    case isTrue => cases found'
    case isFalse =>
      obtain ⟨w₀, found₀, rfl⟩ := Option.map_eq_some_iff.mp found'
      have empty := inv.childless q w₀ found₀ zombie
      simp [empty]

/-- `sys_waitpid` of the current task keeps the invariant, whatever it returns. -/
theorem Inv.wait (inv : t.Inv) (current : t.current = some p) (pid : Int) : (t.wait p pid).2.Inv := by
  obtain ⟨v, found⟩ := exists_task?_of_mem (inv.current_live p current)
  unfold ProcessTable.wait
  rw [found]
  dsimp only
  split
  · exact inv
  · split
    · exact inv
    · next child idx picked => exact inv.reap current found picked

end Wait

/-- Every move of the table keeps the invariant. -/
theorem Inv.moves {t t' : ProcessTable} {e : SysEvent} {obs : List Observation} (inv : t.Inv)
    (moved : Moves t e obs t') : t'.Inv := by
  cases moved with
  | idle => exact inv
  | run idle inside => exact inv.runTask idle inside
  | timer current => exact inv.suspend current
  | yield current => exact inv.suspend current
  | exit current notInit => exact inv.exit current notInit _
  | fault current notInit => exact inv.exit current notInit _
  | illegalInstruction current notInit => exact inv.exit current notInit _
  | fork current => exact inv.addChild current
  | exec => exact inv
  | spawn current => exact inv.addChild current
  | spawnUnknown => exact inv
  | waitpid current => exact inv.wait current _
  | keep _ => exact inv
  | wait _ current => exact inv.suspend current

end ProcessTable

end RCore
