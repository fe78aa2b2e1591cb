import RCore.Mm.Address
import RCore.Foundation.StateExcept
import RCore.Foundation.LittleEndian

/-! # The physical frame allocator

`StackFrameAllocator` of `os5/src/mm/frame_allocator.rs` hands out the frames of
`[current, end)` in order and keeps the returned ones on a stack. A frame is
*allocated* when it lies below `current` and is not on the stack; `alloc` turns one free
frame into an allocated one (`StackFrameAllocator.allocated_alloc`), `dealloc` accepts
exactly the allocated frames (`StackFrameAllocator.dealloc_eq_ok_iff`) and turns the frame
back into a free one.

The kernel state the memory manager works on is `RCore.Machine`: physical memory, one byte
per physical address, and `FRAME_ALLOCATOR`. Code that may panic runs in `RCore.KernelM`.
`frame_alloc` zeroes the frame it returns, as `FrameTracker::new` does, and the drop of a
`FrameTracker` is `RCore.frameDealloc`.
-/

namespace RCore

/-- `StackFrameAllocator`. The `recycled` stack has its top first. -/
structure StackFrameAllocator where
  current : Nat
  endPpn : Nat
  recycled : List Nat
deriving DecidableEq, Repr

namespace StackFrameAllocator

/-- `StackFrameAllocator::new`. -/
def new : StackFrameAllocator := ⟨0, 0, []⟩

/-- `StackFrameAllocator::init`. -/
def init (allocator : StackFrameAllocator) (l r : PhysPageNum) : StackFrameAllocator :=
  { allocator with current := l.val, endPpn := r.val }

/-- `StackFrameAllocator::alloc`: pop the stack, else take `current` unless the range is
used up. -/
def alloc (allocator : StackFrameAllocator) : Option PhysPageNum × StackFrameAllocator :=
  match allocator.recycled with
  | ppn :: rest => (some ⟨ppn⟩, { allocator with recycled := rest })
  | [] =>
      if allocator.current = allocator.endPpn then (none, allocator)
      else (some ⟨allocator.current⟩, { allocator with current := allocator.current + 1 })

/-- `StackFrameAllocator::dealloc`, with its panic for a frame that was not handed out. -/
def dealloc (allocator : StackFrameAllocator) (ppn : PhysPageNum) :
    Except Panic StackFrameAllocator :=
  if ppn.val ≥ allocator.current ∨ ppn.val ∈ allocator.recycled then
    .error (.frameNotAllocated ppn.val)
  else .ok { allocator with recycled := ppn.val :: allocator.recycled }

/-- A frame handed out by `alloc` and not given back. -/
def Allocated (allocator : StackFrameAllocator) (ppn : PhysPageNum) : Prop :=
  ppn.val < allocator.current ∧ ppn.val ∉ allocator.recycled

instance (allocator : StackFrameAllocator) (ppn : PhysPageNum) :
    Decidable (allocator.Allocated ppn) :=
  inferInstanceAs (Decidable (_ ∧ _))

/-- How many more frames `alloc` can hand out. -/
def freeFrames (allocator : StackFrameAllocator) : Nat :=
  allocator.recycled.length + (allocator.endPpn - allocator.current)

/-- The shape every allocator reached from `init` keeps: `current` has not passed `end`, and
the stack holds distinct frames that were handed out before. -/
structure Inv (allocator : StackFrameAllocator) : Prop where
  current_le_end : allocator.current ≤ allocator.endPpn
  recycled_nodup : allocator.recycled.Nodup
  recycled_lt_current : ∀ ppn ∈ allocator.recycled, ppn < allocator.current

variable {allocator allocator' : StackFrameAllocator} {ppn : PhysPageNum}

theorem inv_init (l r : PhysPageNum) (le : l.val ≤ r.val) : (new.init l r).Inv :=
  ⟨le, List.nodup_nil, fun _ member => absurd member List.not_mem_nil⟩

/-- Everything a successful `alloc` does: the frame was free, it is now allocated, nothing
else changed state, and one free frame fewer is left. -/
theorem alloc_eq_some (inv : allocator.Inv) (allocated : allocator.alloc = (some ppn, allocator')) :
    ¬ allocator.Allocated ppn ∧ ppn.val < allocator.endPpn ∧ allocator'.Inv ∧
      (∀ other, allocator'.Allocated other ↔ allocator.Allocated other ∨ other = ppn) ∧
      allocator'.freeFrames + 1 = allocator.freeFrames ∧ allocator'.endPpn = allocator.endPpn := by
  unfold alloc at allocated
  split at allocated
  case h_1 top rest stack =>
    simp only [Prod.mk.injEq, Option.some.injEq] at allocated
    obtain ⟨rfl, rfl⟩ := allocated
    have below := inv.recycled_lt_current top (by simp [stack])
    have nodup := inv.recycled_nodup
    rw [stack, List.nodup_cons] at nodup
    have le := inv.current_le_end
    refine ⟨fun ⟨_, notStacked⟩ => notStacked (by simp [stack]), show top < _ by omega,
      ⟨le, nodup.2, ?_⟩, ?_, ?_, rfl⟩
    · intro other member
      exact inv.recycled_lt_current other (by simp [stack, member])
    · intro other
      simp only [Allocated, stack, List.mem_cons, not_or]
      constructor
      · rintro ⟨lt, notRest⟩
        by_cases same : other = ⟨top⟩
        · exact .inr same
        · exact .inl ⟨lt, fun eq => same (by cases other; simp_all), notRest⟩
      · rintro (⟨lt, -, notRest⟩ | rfl)
        · exact ⟨lt, notRest⟩
        · exact ⟨below, nodup.1⟩
    · simp [freeFrames, stack]
      omega
  case h_2 stack =>
    split at allocated
    case isTrue => cases allocated
    case isFalse notEnd =>
      simp only [Prod.mk.injEq, Option.some.injEq] at allocated
      obtain ⟨rfl, rfl⟩ := allocated
      have le := inv.current_le_end
      refine ⟨fun ⟨lt, _⟩ => Nat.lt_irrefl _ lt, show allocator.current < _ by omega,
        ⟨by dsimp only; omega, by simp [stack],
        by simp [stack]⟩, ?_, ?_, rfl⟩
      · intro other
        simp only [Allocated, stack, List.not_mem_nil, not_false_eq_true, and_true]
        constructor
        · intro lt
          by_cases same : other.val = allocator.current
          · exact .inr (by cases other; simp_all)
          · exact .inl (by omega)
        · rintro (lt | rfl)
          · omega
          · exact Nat.lt_succ_self _
      · simp only [freeFrames, stack, List.length_nil]
        omega

/-- `alloc` fails only when no frame is left, and then changes nothing. -/
theorem alloc_eq_none (allocated : allocator.alloc = (none, allocator')) :
    allocator' = allocator ∧ allocator.freeFrames = 0 := by
  unfold alloc at allocated
  split at allocated
  case h_1 => cases allocated
  case h_2 stack =>
    split at allocated
    case isTrue atEnd =>
      cases allocated
      simp [freeFrames, stack, atEnd]
    case isFalse => cases allocated

/-- With no frame left, `alloc` returns `None` and changes nothing. -/
theorem alloc_of_freeFrames_eq_zero (inv : allocator.Inv) (exhausted : allocator.freeFrames = 0) :
    allocator.alloc = (none, allocator) := by
  have le := inv.current_le_end
  have empty : allocator.recycled = [] := by
    unfold freeFrames at exhausted
    exact List.length_eq_zero_iff.mp (by omega)
  have atEnd : allocator.current = allocator.endPpn := by
    unfold freeFrames at exhausted
    omega
  unfold alloc
  rw [empty, if_pos atEnd]

theorem alloc_isSome (free : 0 < allocator.freeFrames) :
    allocator.alloc.1.isSome := by
  cases allocated : allocator.alloc with
  | mk result next =>
      cases result with
      | some => rfl
      | none => simp [(alloc_eq_none allocated).2] at free

/-- `dealloc` accepts exactly the allocated frames, and pushes the frame on the stack. -/
theorem dealloc_eq_ok_iff :
    allocator.dealloc ppn = .ok allocator' ↔
      allocator.Allocated ppn ∧ allocator' = { allocator with recycled := ppn.val :: allocator.recycled } := by
  unfold dealloc Allocated
  split
  case isTrue bad =>
    constructor
    · intro returned
      cases returned
    · rintro ⟨⟨lt, notStacked⟩, -⟩
      rcases bad with ge | stacked
      · omega
      · exact absurd stacked notStacked
  case isFalse good =>
    simp only [not_or, not_le] at good
    simp [good, eq_comm]

theorem dealloc_eq_error_iff {e : Panic} :
    allocator.dealloc ppn = .error e ↔ ¬ allocator.Allocated ppn ∧ e = .frameNotAllocated ppn.val := by
  unfold dealloc Allocated
  split
  case isTrue bad =>
    simp only [Except.error.injEq]
    constructor
    · rintro rfl
      refine ⟨?_, rfl⟩
      rintro ⟨lt, notStacked⟩
      rcases bad with ge | stacked
      · omega
      · exact absurd stacked notStacked
    · rintro ⟨-, rfl⟩
      rfl
  case isFalse good =>
    constructor
    · intro returned
      cases returned
    · rintro ⟨notAllocated, -⟩
      simp only [not_or, not_le] at good
      exact absurd good notAllocated

/-- After a successful `dealloc` the frame is free again and one more frame is left. -/
theorem dealloc_eq_ok (inv : allocator.Inv) (returned : allocator.dealloc ppn = .ok allocator') :
    allocator'.Inv ∧ (∀ other, allocator'.Allocated other ↔ allocator.Allocated other ∧ other ≠ ppn) ∧
      allocator'.freeFrames = allocator.freeFrames + 1 ∧ allocator'.endPpn = allocator.endPpn := by
  obtain ⟨⟨lt, notStacked⟩, rfl⟩ := dealloc_eq_ok_iff.mp returned
  refine ⟨⟨inv.current_le_end, List.nodup_cons.mpr ⟨notStacked, inv.recycled_nodup⟩, ?_⟩, ?_, ?_, rfl⟩
  · intro other member
    rcases List.mem_cons.mp member with rfl | stacked
    · exact lt
    · exact inv.recycled_lt_current other stacked
  · intro other
    simp only [Allocated, List.mem_cons, not_or]
    constructor
    · rintro ⟨below, notSame, notRest⟩
      exact ⟨⟨below, notRest⟩, fun same => notSame (by rw [same])⟩
    · rintro ⟨⟨below, notRest⟩, notSame⟩
      exact ⟨below, fun same => notSame (by cases other; simp_all), notRest⟩
  · simp only [freeFrames, List.length_cons]
    omega

end StackFrameAllocator

/-- The state the memory manager works on: physical memory, one byte per physical address,
and `FRAME_ALLOCATOR`. The kernel reaches physical memory through the identity maps of
`KERNEL_SPACE`, whose permissions are left out: every kernel store lands. That holds for the
frames of the allocator, which lie in the physical memory `new_kernel` maps `R | W`, but not for
the kernel's own `.text` and `.rodata`, where a store faults. -/
structure Machine where
  mem : Nat → UInt8
  frameAllocator : StackFrameAllocator

/-- Kernel code over the machine state, which may panic. -/
abbrev KernelM := StateT Machine (Except Panic)

/-- What `init_frame_allocator` sets up and every run keeps: the allocator's shape, and its
range below `MEMORY_END`, so that every frame it hands out fits a page-table entry. -/
structure Machine.Inv (m : Machine) : Prop where
  allocator : m.frameAllocator.Inv
  end_le : m.frameAllocator.endPpn ≤ memoryEnd / pageSize

/-- The machine after `init_frame_allocator`, with the frames from `ceil(ekernel)` to
`floor(MEMORY_END)` free and memory as the boot left it. -/
def bootMachine (mem : Nat → UInt8) (ekernel : Nat) : Machine :=
  ⟨mem, StackFrameAllocator.new.init (⟨ekernel⟩ : PhysAddr).ceil (⟨memoryEnd⟩ : PhysAddr).floor⟩

/-- A kernel image that ends below `MEMORY_END` leaves a machine with the invariant. -/
theorem bootMachine_inv (mem : Nat → UInt8) {ekernel : Nat} (below : ekernel ≤ memoryEnd) :
    (bootMachine mem ekernel).Inv := by
  have ceilEq : (⟨ekernel⟩ : PhysAddr).ceil.val = (ekernel + pageSize - 1) / pageSize :=
    PhysAddr.ceil_val (by simp only [trampoline_eq, memoryEnd] at *; omega)
  refine ⟨StackFrameAllocator.inv_init _ _ ?_, ?_⟩
  · simp only [ceilEq, PhysAddr.floor, memoryEnd, pageSize] at *
    omega
  · simp [bootMachine, StackFrameAllocator.init, PhysAddr.floor]

theorem bootMachine_freeFrames (mem : Nat → UInt8) {ekernel : Nat} (below : ekernel ≤ memoryEnd) :
    (bootMachine mem ekernel).frameAllocator.freeFrames =
      memoryEnd / pageSize - (ekernel + pageSize - 1) / pageSize := by
  have ceilEq : (⟨ekernel⟩ : PhysAddr).ceil.val = (ekernel + pageSize - 1) / pageSize :=
    PhysAddr.ceil_val (by simp only [trampoline_eq, memoryEnd] at *; omega)
  simp only [bootMachine, StackFrameAllocator.freeFrames, StackFrameAllocator.init,
    StackFrameAllocator.new, ceilEq, PhysAddr.floor, List.length_nil, Nat.zero_add]

/-- The invariant speaks of the allocator only. -/
theorem Machine.Inv.setMem {m : Machine} (inv : m.Inv) (mem : Nat → UInt8) :
    ({ m with mem } : Machine).Inv :=
  ⟨inv.allocator, inv.end_le⟩

/-- Every allocated frame lies below `MEMORY_END`. -/
theorem Machine.Inv.lt_of_allocated {m : Machine} (inv : m.Inv) {ppn : PhysPageNum}
    (allocated : m.frameAllocator.Allocated ppn) : ppn.val < memoryEnd / pageSize := by
  have := inv.allocator.current_le_end
  have := inv.end_le
  have := allocated.1
  omega

/-- Address `addr` lies in frame `ppn`, the bytes of `ppn.get_bytes_array()`. -/
def PhysPageNum.Covers (ppn : PhysPageNum) (addr : Nat) : Prop :=
  ppn.toPhysAddr.val ≤ addr ∧ addr < ppn.toPhysAddr.val + pageSize

instance (ppn : PhysPageNum) (addr : Nat) : Decidable (ppn.Covers addr) :=
  inferInstanceAs (Decidable (_ ∧ _))

/-- The bytes of frame `ppn` set to zero, as `FrameTracker::new` cleans the page. -/
def zeroFrame (mem : Nat → UInt8) (ppn : PhysPageNum) : Nat → UInt8 := fun addr =>
  if ppn.Covers addr then 0 else mem addr

/-- `frame_alloc`: a frame from `FRAME_ALLOCATOR`, zeroed. -/
def frameAlloc : KernelM (Option PhysPageNum) := fun m =>
  match m.frameAllocator.alloc with
  | (none, allocator) => .ok (none, { m with frameAllocator := allocator })
  | (some ppn, allocator) => .ok (some ppn, { mem := zeroFrame m.mem ppn, frameAllocator := allocator })

/-- `frame_alloc().unwrap()`, as the page table and `MapArea::map_one` call it. -/
def frameAllocUnwrap : KernelM PhysPageNum := do
  match ← frameAlloc with
  | some ppn => pure ppn
  | none => throw .frameExhausted

/-- `frame_dealloc`, run when a `FrameTracker` is dropped. -/
def frameDealloc (ppn : PhysPageNum) : KernelM Unit := fun m =>
  (m.frameAllocator.dealloc ppn).map fun allocator => (⟨⟩, { m with frameAllocator := allocator })

/-- The drop of a `Vec<FrameTracker>`: the frames go back front to back. -/
def dropFrames (frames : List PhysPageNum) : KernelM Unit :=
  frames.forM frameDealloc

variable {m m' : Machine} {ppn : PhysPageNum}

theorem PhysPageNum.toPhysAddr_val_of_lt_end {ppn : PhysPageNum}
    (below : ppn.val < memoryEnd / pageSize) : ppn.toPhysAddr.val = ppn.val * pageSize :=
  PhysPageNum.toPhysAddr_val (by simp only [memoryEnd, pageSize] at below; omega)

/-- Two distinct frames below `2 ^ 52` share no byte. -/
theorem PhysPageNum.not_covers_of_ne {ppn ppn' : PhysPageNum} (small : ppn.val < 2 ^ 52)
    (small' : ppn'.val < 2 ^ 52) (apart : ppn ≠ ppn') {addr : Nat} (covered : ppn.Covers addr) :
    ¬ ppn'.Covers addr := by
  have differ : ppn.val ≠ ppn'.val := fun same => apart (by cases ppn; cases ppn'; simp_all)
  unfold PhysPageNum.Covers at *
  rw [PhysPageNum.toPhysAddr_val small] at covered
  rw [PhysPageNum.toPhysAddr_val small']
  simp only [pageSize] at *
  omega

theorem zeroFrame_apply_of_not_covers {mem : Nat → UInt8} {addr : Nat} (outside : ¬ ppn.Covers addr) :
    zeroFrame mem ppn addr = mem addr := by
  unfold zeroFrame
  rw [if_neg outside]

theorem frameAllocUnwrap_eq_ok {result : PhysPageNum × Machine} :
    frameAllocUnwrap m = .ok result ↔
      m.frameAllocator.alloc = (some result.1, result.2.frameAllocator) ∧
        result.2.mem = zeroFrame m.mem result.1 := by
  obtain ⟨frame, next⟩ := result
  unfold frameAllocUnwrap frameAlloc
  rcases allocated : m.frameAllocator.alloc with ⟨_ | got, allocator⟩
  · simp [bind, StateT.bind, Except.bind, allocated, throw, throwThe, MonadExceptOf.throw,
      StateT.lift]
  · simp only [bind, StateT.bind, allocated]
    constructor
    · intro ran
      cases ran
      exact ⟨rfl, rfl⟩
    · rintro ⟨same, zeroed⟩
      simp only [Prod.mk.injEq, Option.some.injEq] at same
      obtain ⟨rfl, rfl⟩ := same
      cases next
      cases zeroed
      rfl

theorem frameAllocUnwrap_eq_error {e : Panic} (failed : frameAllocUnwrap m = .error e) :
    e = .frameExhausted ∧ m.frameAllocator.freeFrames = 0 := by
  unfold frameAllocUnwrap frameAlloc at failed
  rcases allocated : m.frameAllocator.alloc with ⟨_ | got, allocator⟩
  · simp only [bind, StateT.bind, allocated] at failed
    cases failed
    exact ⟨rfl, (StackFrameAllocator.alloc_eq_none allocated).2⟩
  · simp only [bind, StateT.bind, allocated] at failed
    cases failed

/-- `frame_alloc().unwrap()` panics on a machine with no free frame. -/
theorem frameAllocUnwrap_of_exhausted (inv : m.Inv) (exhausted : m.frameAllocator.freeFrames = 0) :
    frameAllocUnwrap m = .error .frameExhausted := by
  have none := StackFrameAllocator.alloc_of_freeFrames_eq_zero inv.allocator exhausted
  unfold frameAllocUnwrap frameAlloc
  simp only [bind, StateT.bind, none]
  rfl

/-- Everything a successful `frame_alloc().unwrap()` does to an invariant machine. -/
theorem frameAllocUnwrap_spec (inv : m.Inv) (ran : frameAllocUnwrap m = .ok (ppn, m')) :
    ¬ m.frameAllocator.Allocated ppn ∧ ppn.val < memoryEnd / pageSize ∧ m'.Inv ∧
      (∀ other, m'.frameAllocator.Allocated other ↔ m.frameAllocator.Allocated other ∨ other = ppn) ∧
      m'.frameAllocator.freeFrames + 1 = m.frameAllocator.freeFrames ∧
      m'.mem = zeroFrame m.mem ppn := by
  obtain ⟨allocated, zeroed⟩ := frameAllocUnwrap_eq_ok.mp ran
  obtain ⟨fresh, below, allocatorInv, allocatedIff, fewer, sameEnd⟩ :=
    StackFrameAllocator.alloc_eq_some inv.allocator allocated
  exact ⟨fresh, lt_of_lt_of_le below inv.end_le, ⟨allocatorInv, sameEnd ▸ inv.end_le⟩, allocatedIff,
    fewer, zeroed⟩

theorem frameAllocUnwrap_isOk (free : 0 < m.frameAllocator.freeFrames) :
    ∃ ppn m', frameAllocUnwrap m = .ok (ppn, m') := by
  rcases allocated : m.frameAllocator.alloc with ⟨_ | got, allocator⟩
  · have := StackFrameAllocator.alloc_isSome free
    simp [allocated] at this
  · exact ⟨got, { mem := zeroFrame m.mem got, frameAllocator := allocator },
      frameAllocUnwrap_eq_ok.mpr ⟨allocated, rfl⟩⟩

theorem frameDealloc_eq_ok_iff :
    frameDealloc ppn m = .ok (⟨⟩, m') ↔
      m.frameAllocator.dealloc ppn = .ok m'.frameAllocator ∧ m'.mem = m.mem := by
  unfold frameDealloc
  rcases returned : m.frameAllocator.dealloc ppn with e | allocator
  · simp [Except.map]
  · simp only [Except.map, Except.ok.injEq, Prod.mk.injEq, true_and]
    constructor
    · rintro rfl
      exact ⟨rfl, rfl⟩
    · rintro ⟨rfl, same⟩
      cases m'
      cases same
      rfl

/-- A `dealloc` of an allocated frame succeeds, frees that frame and leaves memory alone. -/
theorem frameDealloc_spec (inv : m.Inv) (allocated : m.frameAllocator.Allocated ppn) :
    ∃ m', frameDealloc ppn m = .ok (⟨⟩, m') ∧ m'.Inv ∧ m'.mem = m.mem ∧
      (∀ other, m'.frameAllocator.Allocated other ↔ m.frameAllocator.Allocated other ∧ other ≠ ppn) ∧
      m'.frameAllocator.freeFrames = m.frameAllocator.freeFrames + 1 := by
  have returned : m.frameAllocator.dealloc ppn =
      .ok { m.frameAllocator with recycled := ppn.val :: m.frameAllocator.recycled } :=
    StackFrameAllocator.dealloc_eq_ok_iff.mpr ⟨allocated, rfl⟩
  obtain ⟨allocatorInv, allocatedIff, more, sameEnd⟩ :=
    StackFrameAllocator.dealloc_eq_ok inv.allocator returned
  refine ⟨{ m with frameAllocator := _ }, frameDealloc_eq_ok_iff.mpr ⟨returned, rfl⟩,
    ⟨allocatorInv, sameEnd ▸ inv.end_le⟩, rfl, allocatedIff, more⟩

@[simp]
theorem dropFrames_nil : dropFrames [] = pure () := rfl

/-- Dropping distinct allocated frames succeeds and frees exactly them; by induction over the
vector, one `frame_dealloc` at a time. -/
theorem dropFrames_spec {frames : List PhysPageNum} (inv : m.Inv) (nodup : frames.Nodup)
    (allocated : ∀ ppn ∈ frames, m.frameAllocator.Allocated ppn) :
    ∃ m', dropFrames frames m = .ok (⟨⟩, m') ∧ m'.Inv ∧ m'.mem = m.mem ∧
      (∀ other, m'.frameAllocator.Allocated other ↔
        m.frameAllocator.Allocated other ∧ other ∉ frames) ∧
      m'.frameAllocator.freeFrames = m.frameAllocator.freeFrames + frames.length := by
  induction frames generalizing m with
  | nil =>
      exact ⟨m, rfl, inv, rfl, fun other => by simp, rfl⟩
  | cons first rest ih =>
      rw [List.nodup_cons] at nodup
      obtain ⟨middle, returned, middleInv, sameMem, middleIff, more⟩ :=
        frameDealloc_spec inv (allocated first List.mem_cons_self)
      have restAllocated : ∀ ppn ∈ rest, middle.frameAllocator.Allocated ppn := by
        intro ppn member
        refine (middleIff ppn).mpr ⟨allocated ppn (List.mem_cons_of_mem first member), ?_⟩
        rintro rfl
        exact nodup.1 member
      obtain ⟨final, ran, finalInv, finalMem, finalIff, finalMore⟩ :=
        ih middleInv nodup.2 restAllocated
      refine ⟨final, ?_, finalInv, finalMem.trans sameMem, ?_, ?_⟩
      · show (frameDealloc first >>= fun _ => dropFrames rest) m = _
        exact Foundation.bind_eq_ok.mpr ⟨⟨⟩, middle, returned, ran⟩
      · intro other
        rw [finalIff, middleIff, List.mem_cons, not_or]
        tauto
      · rw [finalMore, more, List.length_cons]
        omega

/-- How an operation on the frames `owned` of one owner may touch the rest of the machine: a
frame allocated outside `owned` stays allocated and keeps its bytes, and the owner ends with
frames `owned'` that it owned before or that were free. -/
structure Confined (owned : List PhysPageNum) (m : Machine) (owned' : List PhysPageNum) (m' : Machine) :
    Prop where
  allocated : ∀ ppn, m.frameAllocator.Allocated ppn → ppn ∉ owned → m'.frameAllocator.Allocated ppn
  mem_eq : ∀ ppn, m.frameAllocator.Allocated ppn → ppn ∉ owned →
    ∀ addr, ppn.Covers addr → m'.mem addr = m.mem addr
  fresh : ∀ ppn ∈ owned', ppn ∈ owned ∨ ¬ m.frameAllocator.Allocated ppn

namespace Confined

variable {owned owned' owned'' : List PhysPageNum} {m' m'' : Machine}

theorem refl (owned : List PhysPageNum) (m : Machine) : Confined owned m owned m :=
  ⟨fun _ held _ => held, fun _ _ _ _ _ => rfl, fun _ member => .inl member⟩

/-- An operation may always claim more frames than it ends with. -/
theorem mono (confined : Confined owned m owned' m') {more : List PhysPageNum}
    (sub : ∀ ppn ∈ more, ppn ∈ owned') : Confined owned m more m' :=
  ⟨confined.allocated, confined.mem_eq, fun ppn member => confined.fresh ppn (sub ppn member)⟩

theorem trans (first : Confined owned m owned' m') (second : Confined owned' m' owned'' m'') :
    Confined owned m owned'' m'' := by
  -- a frame allocated outside `owned` is outside `owned'` too: `owned'` only adds free frames
  have outside : ∀ ppn, m.frameAllocator.Allocated ppn → ppn ∉ owned → ppn ∉ owned' := by
    intro ppn held notOwned owned'
    rcases first.fresh ppn owned' with old | free
    · exact notOwned old
    · exact free held
  refine ⟨fun ppn held notOwned => ?_, fun ppn held notOwned addr covered => ?_, fun ppn member => ?_⟩
  · exact second.allocated ppn (first.allocated ppn held notOwned) (outside ppn held notOwned)
  · rw [second.mem_eq ppn (first.allocated ppn held notOwned) (outside ppn held notOwned) addr covered,
      first.mem_eq ppn held notOwned addr covered]
  · rcases second.fresh ppn member with early | free
    · exact first.fresh ppn early
    · by_cases notOwned : ppn ∈ owned
      · exact .inl notOwned
      · exact .inr fun held => free (first.allocated ppn held notOwned)

end Confined

/-- A frame below `MEMORY_END` is below `2 ^ 52`, where distinct frames share no byte. -/
theorem small_of_lt_end {ppn : PhysPageNum} (below : ppn.val < memoryEnd / pageSize) : ppn.val < 2 ^ 52 := by
  simp only [memoryEnd, pageSize] at below
  omega

/-- Writes into frames of the owner, with the allocator untouched, are confined to it. -/
theorem Confined.of_writes {owned targets : List PhysPageNum} (inv : m.Inv)
    (sub : ∀ ppn ∈ targets, ppn ∈ owned) (small : ∀ ppn ∈ targets, ppn.val < 2 ^ 52)
    (sameAllocator : m'.frameAllocator = m.frameAllocator)
    (writes : ∀ addr, (∀ ppn ∈ targets, ¬ ppn.Covers addr) → m'.mem addr = m.mem addr) :
    Confined owned m owned m' := by
  refine ⟨fun ppn held _ => sameAllocator ▸ held, ?_, fun ppn member => .inl member⟩
  intro ppn held notOwned addr covered
  apply writes addr
  intro target member coversTarget
  by_cases same : target = ppn
  · exact notOwned (same ▸ sub target member)
  · exact PhysPageNum.not_covers_of_ne (small target member)
      (small_of_lt_end (inv.lt_of_allocated held)) same coversTarget covered

/-- Taking a frame touches no allocated frame, and the taker owns the new frame. -/
theorem frameAllocUnwrap_confined (inv : m.Inv) (ran : frameAllocUnwrap m = .ok (ppn, m'))
    (owned : List PhysPageNum) : Confined owned m (owned ++ [ppn]) m' := by
  obtain ⟨notAllocated, below, -, allocatedIff, -, zeroed⟩ := frameAllocUnwrap_spec inv ran
  refine ⟨fun other held _ => (allocatedIff other).mpr (.inl held), ?_, ?_⟩
  · intro other held _ addr covered
    have apart : other ≠ ppn := fun same => notAllocated (same ▸ held)
    rw [zeroed]
    exact zeroFrame_apply_of_not_covers (PhysPageNum.not_covers_of_ne
      (small_of_lt_end (inv.lt_of_allocated held)) (small_of_lt_end below) apart covered)
  · intro other member
    rcases List.mem_append.mp member with old | new
    · exact .inl old
    · rw [List.mem_singleton.mp new]
      exact .inr notAllocated

/-- `copy_from_slice` of at most a page at the start of frame `ppn` writes only inside it. -/
theorem writeBytes_apply_of_not_covers {mem : Nat → UInt8} {bytes : List UInt8}
    (short : bytes.length ≤ pageSize) {addr : Nat} (outside : ¬ ppn.Covers addr) :
    Foundation.writeBytes mem ppn.toPhysAddr.val bytes addr = mem addr := by
  apply Foundation.writeBytes_apply_of_not_mem
  intro inside
  exact outside ⟨inside.1, by omega⟩

end RCore
