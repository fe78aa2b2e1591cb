import RCore.Mm.KernelSpace

/-! # Process identifiers and kernel stacks

`os5/src/task/pid.rs`. `PID_ALLOCATOR` hands out the most recently recycled pid, or the fresh
pid `current`; the drop of a `PidHandle` gives its pid back through `dealloc`, which asserts
that the pid was handed out and is not recycled already. The task with pid `p` keeps its kernel
stack at `kernel_stack_position(p)`: twenty pages whose top lies `p` stacks and guard pages
below `TRAMPOLINE`, which `KernelStack::new` inserts into `KERNEL_SPACE` as a framed area.

Along every run of allocations and drops (`RCore.PidState.run`) the pids of the live handles
and the recycled pids split `[0, current)` between them (`RCore.PidState.Inv`), so no drop
panics and `alloc` never returns a live pid. Below `RCore.kernelStackBound` the stacks of
distinct pids are disjoint and a guard page apart, above `MEMORY_END` and below `TRAMPOLINE`.
The table of `KERNEL_SPACE` reads only the low 27 bits of a page number, though: below
`RCore.stackIndexBound` no stack page shares its index with a page `KERNEL_SPACE` maps, and at
that pid the lowest stack page takes the index of a page of physical memory
(`RCore.kernelStack_aliases_physical_memory`).
-/

namespace RCore

/-- `PidAllocator`: the next fresh pid, and the recycled pids, a `Vec` whose last element `pop`
takes. -/
structure PidAllocator where
  current : Nat
  recycled : List Nat
deriving DecidableEq, Repr

namespace PidAllocator

/-- `PidAllocator::new`. -/
def new : PidAllocator := ⟨0, []⟩

/-- `PidAllocator::alloc`: the pid of the new `PidHandle`, and the allocator after it. -/
def alloc (allocator : PidAllocator) : Nat × PidAllocator :=
  match allocator.recycled.getLast? with
  | some pid => (pid, { allocator with recycled := allocator.recycled.dropLast })
  | none =>
      let current := allocator.current + 1
      (current - 1, { allocator with current })

/-- `PidAllocator::dealloc`: `assert!(pid < self.current)`, then "pid {} has been
deallocated!" when `recycled` holds it. -/
def dealloc (allocator : PidAllocator) (pid : Nat) : Except Panic PidAllocator :=
  if ¬ pid < allocator.current then .error (.pidNotAllocated pid)
  else if allocator.recycled.any (· == pid) then .error (.pidNotAllocated pid)
  else .ok { allocator with recycled := allocator.recycled ++ [pid] }

end PidAllocator

/-- What moves `PID_ALLOCATOR`: `pid_alloc()`, and the drop of the live `PidHandle` at position
`handle` among the live handles, oldest first. -/
inductive PidEvent where
  | alloc
  | drop (handle : Nat)
deriving DecidableEq, Repr

/-- `PID_ALLOCATOR` with the pids of the live handles, oldest first. -/
structure PidState where
  allocator : PidAllocator
  live : List Nat
deriving DecidableEq, Repr

namespace PidState

/-- The state at boot. -/
def init : PidState := ⟨.new, []⟩

/-- One event. A position past the live handles names no handle, and its drop is no event. -/
def step (s : PidState) : PidEvent → Except Panic PidState
  | .alloc =>
      let (pid, allocator) := s.allocator.alloc
      .ok ⟨allocator, s.live ++ [pid]⟩
  | .drop handle =>
      match s.live[handle]? with
      | none => .ok s
      | some pid => do
          let allocator ← s.allocator.dealloc pid
          return ⟨allocator, s.live.eraseIdx handle⟩

/-- A run of events. -/
def run (s : PidState) : List PidEvent → Except Panic PidState
  | [] => .ok s
  | event :: rest => do
      let s ← s.step event
      s.run rest

/-- The live pids and the recycled pids are distinct and together make up `[0, current)`. -/
structure Inv (s : PidState) : Prop where
  recycled_nodup : s.allocator.recycled.Nodup
  recycled_lt : ∀ pid ∈ s.allocator.recycled, pid < s.allocator.current
  live_nodup : s.live.Nodup
  mem_live : ∀ pid, pid ∈ s.live ↔ pid < s.allocator.current ∧ pid ∉ s.allocator.recycled

variable {s : PidState} {pid handle : Nat}

theorem inv_init : init.Inv where
  recycled_nodup := List.nodup_nil
  recycled_lt _ member := absurd member List.not_mem_nil
  live_nodup := List.nodup_nil
  mem_live _ := ⟨fun member => absurd member List.not_mem_nil, fun ⟨below, _⟩ => absurd below (Nat.not_lt_zero _)⟩

theorem nodup_concat {l : List Nat} (nodup : l.Nodup) (fresh : pid ∉ l) : (l ++ [pid]).Nodup :=
  nodup.append (List.nodup_singleton pid) fun _ member same => fresh (List.mem_singleton.mp same ▸ member)

/-- `alloc` hands out no live pid. -/
theorem Inv.alloc_fresh (inv : s.Inv) : s.allocator.alloc.1 ∉ s.live := by
  unfold PidAllocator.alloc
  cases last : s.allocator.recycled.getLast? with
  | some pid =>
      intro member
      exact ((inv.mem_live pid).mp member).2 (List.mem_of_getLast? last)
  | none =>
      intro member
      exact Nat.lt_irrefl _ ((inv.mem_live _).mp member).1

theorem Inv.alloc (inv : s.Inv) : Inv ⟨s.allocator.alloc.2, s.live ++ [s.allocator.alloc.1]⟩ := by
  have fresh := inv.alloc_fresh
  revert fresh
  unfold PidAllocator.alloc
  cases last : s.allocator.recycled.getLast? with
  | some pid =>
      -- the last recycled pid moves to the live handles
      obtain ⟨rest, split⟩ := List.getLast?_eq_some_iff.mp last
      have nodup := inv.recycled_nodup
      rw [split] at nodup
      have apart : pid ∉ rest := fun member => (List.nodup_append.mp nodup).2.2 pid member pid
        List.mem_cons_self rfl
      intro fresh
      refine ⟨?_, fun q member => ?_, nodup_concat inv.live_nodup fresh, fun q => ?_⟩
      · rw [split, List.dropLast_concat]
        exact (List.nodup_append.mp nodup).1
      · rw [split, List.dropLast_concat] at member
        exact inv.recycled_lt q (split ▸ List.mem_append_left _ member)
      · have below := inv.recycled_lt pid (List.mem_of_getLast? last)
        rw [split, List.dropLast_concat, List.mem_append, List.mem_singleton, inv.mem_live q, split]
        simp only [List.mem_append, List.mem_singleton, not_or]
        constructor
        · rintro (⟨small, outside, -⟩ | rfl)
          · exact ⟨small, outside⟩
          · exact ⟨below, apart⟩
        · rintro ⟨small, outside⟩
          by_cases same : q = pid
          · exact .inr same
          · exact .inl ⟨small, outside, same⟩
  | none =>
      -- a fresh pid: `current` moves up by one
      have empty := List.getLast?_eq_none_iff.mp last
      intro fresh
      refine ⟨inv.recycled_nodup, fun q member => absurd (empty ▸ member) List.not_mem_nil,
        nodup_concat inv.live_nodup fresh, fun q => ?_⟩
      rw [List.mem_append, List.mem_singleton, inv.mem_live q, empty]
      simp only [List.not_mem_nil, not_false_eq_true, and_true, Nat.add_sub_cancel]
      omega

/-- A live pid goes back to `recycled` without a panic. -/
theorem Inv.dealloc_of_mem (inv : s.Inv) (live : pid ∈ s.live) :
    s.allocator.dealloc pid = .ok { s.allocator with recycled := s.allocator.recycled ++ [pid] } := by
  obtain ⟨below, outside⟩ := (inv.mem_live pid).mp live
  unfold PidAllocator.dealloc
  rw [if_neg (not_not_intro below), if_neg]
  simpa only [List.any_eq_true, beq_iff_eq, exists_eq_right] using outside

theorem Inv.drop (inv : s.Inv) (found : s.live[handle]? = some pid) :
    Inv ⟨{ s.allocator with recycled := s.allocator.recycled ++ [pid] }, s.live.eraseIdx handle⟩ := by
  obtain ⟨inside, named⟩ := List.getElem?_eq_some_iff.mp found
  have live : pid ∈ s.live := named ▸ List.getElem_mem inside
  obtain ⟨below, outside⟩ := (inv.mem_live pid).mp live
  have erased : s.live.eraseIdx handle = s.live.erase pid := by
    rw [← named, inv.live_nodup.erase_getElem handle inside]
  refine ⟨nodup_concat inv.recycled_nodup outside, fun q member => ?_,
    (List.eraseIdx_sublist _ _).nodup inv.live_nodup, fun q => ?_⟩
  · rcases List.mem_append.mp member with old | now
    · exact inv.recycled_lt q old
    · exact List.mem_singleton.mp now ▸ below
  · rw [erased, inv.live_nodup.mem_erase_iff, inv.mem_live q]
    simp only [List.mem_append, List.mem_singleton, not_or]
    exact ⟨fun ⟨other, small, outside⟩ => ⟨small, outside, other⟩,
      fun ⟨small, outside, other⟩ => ⟨other, small, outside⟩⟩

/-- No event panics, and each keeps the invariant. -/
theorem Inv.step (inv : s.Inv) (event : PidEvent) : ∃ s', s.step event = .ok s' ∧ s'.Inv := by
  cases event with
  | alloc => exact ⟨_, rfl, inv.alloc⟩
  | drop handle =>
      cases found : s.live[handle]? with
      | none => exact ⟨s, by rw [PidState.step, found], inv⟩
      | some pid =>
          have live : pid ∈ s.live := List.mem_of_getElem? found
          refine ⟨_, ?_, inv.drop found⟩
          rw [PidState.step, found]
          show (s.allocator.dealloc pid >>= _) = _
          rw [inv.dealloc_of_mem live]
          rfl

theorem Inv.run (inv : s.Inv) (events : List PidEvent) : ∃ s', s.run events = .ok s' ∧ s'.Inv := by
  induction events generalizing s with
  | nil => exact ⟨s, rfl, inv⟩
  | cons event rest ih =>
      obtain ⟨next, stepped, inv'⟩ := inv.step event
      obtain ⟨s', ran, inv''⟩ := ih inv'
      refine ⟨s', ?_, inv''⟩
      rw [PidState.run, stepped]
      exact ran

end PidState

/-- The pids below which `kernel_stack_position` stays above `MEMORY_END`. -/
def kernelStackBound : Nat := (trampoline - memoryEnd) / (kernelStackSize + pageSize)

/-- `kernel_stack_position(app_id)`: `(bottom, top)`, in `usize` arithmetic. -/
def kernelStackPosition (appId : Nat) : Nat × Nat :=
  let top := wrappingSub trampoline (wrappingMul appId (kernelStackSize + pageSize))
  let bottom := wrappingSub top kernelStackSize
  (bottom, top)

/-- The area that `KernelStack::new` inserts for `pid`. -/
def kernelStackArea (pid : Nat) : Except Panic MapArea :=
  MapArea.new ⟨(kernelStackPosition pid).1⟩ ⟨(kernelStackPosition pid).2⟩ .framed
    (MapPermission.R ||| MapPermission.W)

/-- `KernelStack::new(pid_handle)` on `KERNEL_SPACE`. -/
def KernelStack.new (kernelSpace : MemorySet) (pid : Nat) : KernelM MemorySet :=
  let (bottom, top) := kernelStackPosition pid
  kernelSpace.insertFramedArea ⟨bottom⟩ ⟨top⟩ (MapPermission.R ||| MapPermission.W)

/-- The pids whose kernel stacks keep Sv39 indices above those of physical memory. The table
reads a page by the low 27 bits of its number, and the stacks, which go down from `TRAMPOLINE`
twenty-one pages a pid, reach the index of `MEMORY_END` after this many. -/
def stackIndexBound : Nat := (2 ^ 27 - memoryEnd / pageSize) / (kernelStackSize / pageSize + 1)

/-- The pages of the kernel stack of `pid`. -/
def kernelStackPages (pid : Nat) : List VirtPageNum :=
  areaPages (kernelStackPosition pid).1 (kernelStackPosition pid).2

/-- A page `KERNEL_SPACE` maps while the tasks `live` hold kernel stacks. Its table reads a page
by the low 27 bits of its number, so the mapped pages are those that share the index of the
trampoline, of a page of the identity areas of `new_kernel` (`RCore.MemorySet.newKernel_pages`),
or of a page of a live task's stack. -/
def KernelMapped (layout : KernelLayout) (live : List Nat) (vpn : VirtPageNum) : Prop :=
  ∃ u ∈ trampolineVpn :: (layout.pages ++ live.flatMap kernelStackPages), u.indexes = vpn.indexes

/-- `KernelStack::new` inserts the area `kernelStackArea`. -/
theorem KernelStack.new_eq (kernelSpace : MemorySet) (pid : Nat) :
    KernelStack.new kernelSpace pid =
      (StateT.lift (kernelStackArea pid) >>= fun area => kernelSpace.push area none) := rfl

section Position

variable {pid pid' : Nat}

theorem kernelStackBound_eq : kernelStackBound = 214457125086354 := by decide

theorem kernelStackPosition_of_lt (small : pid < kernelStackBound) :
    kernelStackPosition pid =
      (trampoline - pid * (kernelStackSize + pageSize) - kernelStackSize,
        trampoline - pid * (kernelStackSize + pageSize)) := by
  rw [kernelStackBound_eq] at small
  have product : wrappingMul pid (kernelStackSize + pageSize) = pid * (kernelStackSize + pageSize) := by
    unfold wrappingMul usizeModulus kernelStackSize pageSize
    omega
  have top : wrappingSub trampoline (pid * (kernelStackSize + pageSize)) =
      trampoline - pid * (kernelStackSize + pageSize) :=
    wrappingSub_of_le (by rw [trampoline_eq]; omega)
      (by rw [trampoline_eq]; unfold kernelStackSize pageSize; omega)
  unfold kernelStackPosition
  dsimp only
  rw [product, top, wrappingSub_of_le (by rw [trampoline_eq]; omega)
    (by rw [trampoline_eq]; unfold kernelStackSize pageSize; omega)]

/-- A stack below the bound holds `KERNEL_STACK_SIZE` bytes, starts a page above `MEMORY_END`
and ends at most at `TRAMPOLINE`. -/
theorem kernelStack_bounds (small : pid < kernelStackBound) :
    memoryEnd + pageSize ≤ (kernelStackPosition pid).1 ∧
      (kernelStackPosition pid).1 + kernelStackSize = (kernelStackPosition pid).2 ∧
      (kernelStackPosition pid).2 ≤ trampoline := by
  rw [kernelStackPosition_of_lt small]
  rw [kernelStackBound_eq] at small
  simp only [trampoline_eq, memoryEnd, kernelStackSize, pageSize]
  omega

/-- The stack of a larger pid ends a guard page below the stack of a smaller one. -/
theorem kernelStack_apart (small : pid' < kernelStackBound) (lower : pid < pid') :
    (kernelStackPosition pid').2 + pageSize ≤ (kernelStackPosition pid).1 := by
  rw [kernelStackPosition_of_lt small, kernelStackPosition_of_lt (Nat.lt_trans lower small)]
  rw [kernelStackBound_eq] at small
  have more : (pid + 1) * (kernelStackSize + pageSize) ≤ pid' * (kernelStackSize + pageSize) :=
    Nat.mul_le_mul_right _ lower
  simp only [trampoline_eq, kernelStackSize, pageSize] at more ⊢
  omega

theorem stackIndexBound_eq : stackIndexBound = 6364793 := by decide

theorem stackIndexBound_lt : stackIndexBound < kernelStackBound := by
  rw [stackIndexBound_eq, kernelStackBound_eq]
  decide

/-- The pages of the stack `MapArea::new` builds are `kernelStackPages`. -/
theorem kernelStackArea_of_lt (small : pid < kernelStackBound) :
    ∃ area, kernelStackArea pid = .ok area ∧ area.vpnRange.vpns = kernelStackPages pid := by
  obtain ⟨above, sized, below⟩ := kernelStack_bounds small
  have ordered : (VirtAddr.floor ⟨(kernelStackPosition pid).1⟩).val ≤ (VirtAddr.ceil ⟨(kernelStackPosition pid).2⟩).val := by
    rw [@VirtAddr.ceil_val ⟨(kernelStackPosition pid).2⟩ below]
    dsimp only [VirtAddr.floor]
    unfold pageSize at *
    omega
  have built : kernelStackArea pid = .ok ⟨⟨_, _, ordered⟩, [], .framed, MapPermission.R ||| MapPermission.W⟩ := by
    unfold kernelStackArea MapArea.new VPNRange.new
    rw [dif_pos ordered]
    rfl
  exact ⟨_, built, MapArea.vpns_new built⟩

/-- The Sv39 indices of the stack pages of a pid below `stackIndexBound`: twenty of them, just
below the index `2 ^ 27 - 21 * pid - 1` of the stack's top. -/
theorem index_of_mem_kernelStackPages (small : pid < stackIndexBound) {v : VirtPageNum}
    (member : v ∈ kernelStackPages pid) :
    v.val % 2 ^ 27 + 21 * pid + 2 ≤ 2 ^ 27 ∧ 2 ^ 27 ≤ v.val % 2 ^ 27 + 21 * pid + 21 := by
  have smaller := Nat.lt_trans small stackIndexBound_lt
  obtain ⟨-, -, below⟩ := kernelStack_bounds smaller
  have inside := mem_areaPages.mp member
  rw [@VirtAddr.ceil_val ⟨(kernelStackPosition pid).2⟩ below, kernelStackPosition_of_lt smaller] at inside
  rw [stackIndexBound_eq] at small
  simp only [trampoline_eq, kernelStackSize, pageSize] at inside
  omega

/-- The pages of the identity areas lie below `MEMORY_END`, so their index is their number. -/
theorem index_of_mem_pages {layout : KernelLayout} (bounded : layout.BelowEnd) {u : VirtPageNum}
    (member : u ∈ layout.pages) : u.val % 2 ^ 27 < memoryEnd / pageSize := by
  obtain ⟨bounds, listed, inArea⟩ := List.mem_flatMap.mp member
  have low : bounds.2.1 ≤ trampoline := by
    have := bounded bounds listed
    rw [trampoline_eq]
    unfold memoryEnd at this
    omega
  have high := lt_of_mem_areaPages low inArea
  have := bounded bounds listed
  unfold memoryEnd pageSize at *
  omega

theorem index_trampolineVpn : trampolineVpn.val % 2 ^ 27 = 2 ^ 27 - 1 := by
  rw [trampolineVpn, trampoline_eq]
  decide

section Mapped

variable {layout : KernelLayout} {live : List Nat}

/-- The page below the stack of a pid under `stackIndexBound` has an index no page of
`KERNEL_SPACE` has: it lies above the identity map and between two stacks. -/
theorem guard_not_kernelMapped (bounded : layout.BelowEnd) (under : ∀ q ∈ live, q < stackIndexBound)
    (small : pid < stackIndexBound) :
    ¬ KernelMapped layout live ⟨(kernelStackPosition pid).1 / pageSize - 1⟩ := by
  have smaller := Nat.lt_trans small stackIndexBound_lt
  have guard : ((kernelStackPosition pid).1 / pageSize - 1) % 2 ^ 27 + 21 * pid + 22 = 2 ^ 27 := by
    rw [kernelStackPosition_of_lt smaller]
    rw [stackIndexBound_eq] at small
    simp only [trampoline_eq, kernelStackSize, pageSize]
    omega
  rw [stackIndexBound_eq] at small
  rintro ⟨u, member, same⟩
  rw [VirtPageNum.indexes_eq_iff] at same
  dsimp only at same
  rcases List.mem_cons.mp member with rfl | member
  · rw [index_trampolineVpn] at same
    omega
  rcases List.mem_append.mp member with identity | stack
  · have := index_of_mem_pages bounded identity
    unfold memoryEnd pageSize at this
    omega
  · obtain ⟨q, liveQ, inStack⟩ := List.mem_flatMap.mp stack
    have smallQ := under q liveQ
    have := index_of_mem_kernelStackPages smallQ inStack
    omega

/-- A page of the stack of a pid under `stackIndexBound` that no live task holds has an index
no page of `KERNEL_SPACE` has. -/
theorem stack_page_not_kernelMapped (bounded : layout.BelowEnd) (under : ∀ q ∈ live, q < stackIndexBound)
    (small : pid < stackIndexBound) (fresh : pid ∉ live) {vpn : VirtPageNum}
    (member : vpn ∈ kernelStackPages pid) : ¬ KernelMapped layout live vpn := by
  have index := index_of_mem_kernelStackPages small member
  rw [stackIndexBound_eq] at small
  rintro ⟨u, member', same⟩
  rw [VirtPageNum.indexes_eq_iff] at same
  rcases List.mem_cons.mp member' with rfl | member'
  · rw [index_trampolineVpn] at same
    omega
  rcases List.mem_append.mp member' with identity | stack
  · have := index_of_mem_pages bounded identity
    unfold memoryEnd pageSize at this
    omega
  · obtain ⟨q, liveQ, inStack⟩ := List.mem_flatMap.mp stack
    have other : q ≠ pid := fun same => fresh (same ▸ liveQ)
    have := index_of_mem_kernelStackPages (under q liveQ) inStack
    omega

end Mapped

end Position

end RCore
