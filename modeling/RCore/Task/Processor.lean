import RCore.Mm.MemorySetInv

/-! # `mmap` and `munmap`

`Processor::task_mmap` and `Processor::task_munmap` of `os5/src/task/processor.rs`, on the
memory set of the current task. Both check their arguments and the page-table entries of the
range `[floor(start), ceil(start + len))` before changing anything: `task_mmap` refuses any
page with a valid entry, `task_munmap` any page without one.

On a memory set that keeps its invariant, for every `start`, `len` and `port`, `task_mmap`
returns `-1` and changes nothing exactly when an argument check fails or a page of the range is
mapped. Past the checks it may panic twice over: `start + len` and `ceil` wrap as `usize`
arithmetic does, and a range whose end page falls below its start page trips the assertion of
`VPNRange::new`; and the frames come from `frame_alloc().unwrap()`, so a shortage of frames is a
panic, never `-1`. Otherwise it maps every page of the range to a fresh zeroed frame with
`U | V | (port << 1)` and keeps the invariant (`RCore.taskMmap_spec`).
-/

namespace RCore

/-- `Processor::task_mmap` on the memory set of `self.current().unwrap()`, which the system
call path always finds; the memory set afterwards, with the return value. -/
def taskMmap (ms : MemorySet) (start len port : Nat) : KernelM (MemorySet × Int) := do
  let startVa : VirtAddr := ⟨start⟩
  let endVa : VirtAddr := ⟨wrappingAdd start len⟩
  if !startVa.aligned || port &&& (usizeMax ^^^ 7) != 0 || port &&& 7 == 0 then
    return (ms, -1)
  let startVpn := startVa.floor
  let endVpn := endVa.ceil
  let range ← StateT.lift (VPNRange.new startVpn endVpn)
  let m ← get
  if range.vpns.any fun vpn => (ms.translate m.mem vpn).any PageTableEntry.isValid then
    return (ms, -1)
  let mapPerm ← match MapPermission.fromBits (UInt8.ofNat port <<< 1) with
    | some perm => pure (perm ||| MapPermission.U)
    | none => throw (.invalidMapPermission (UInt8.ofNat port <<< 1).toNat)
  let ms ← ms.insertFramedArea startVa endVa mapPerm
  return (ms, 0)

/-- `Processor::task_munmap` on the memory set of the current task. -/
def taskMunmap (ms : MemorySet) (start len : Nat) : KernelM (MemorySet × Int) := do
  let startVa : VirtAddr := ⟨start⟩
  let endVa : VirtAddr := ⟨wrappingAdd start len⟩
  if !startVa.aligned then
    return (ms, -1)
  let startVpn := startVa.floor
  let endVpn := endVa.ceil
  let range ← StateT.lift (VPNRange.new startVpn endVpn)
  let m ← get
  if !range.vpns.all fun vpn => (ms.translate m.mem vpn).any PageTableEntry.isValid then
    return (ms, -1)
  let ms ← ms.unmap startVpn endVpn
  return (ms, 0)

/-- The pages `[floor(start), ceil(start + len))` that `task_mmap` walks, with `start + len` and
`ceil` in wrapping `usize` arithmetic. -/
def mmapPages (start len : Nat) : List VirtPageNum :=
  (List.range' (start / pageSize) ((⟨wrappingAdd start len⟩ : VirtAddr).ceil.val - start / pageSize)).map
    VirtPageNum.mk

/-- The ends of the range out of order, which the assertion of `VPNRange::new` refuses: a
`start + len` that wraps past `2 ^ 64`, or that ends in the last page, where `ceil` wraps to
page zero. -/
def MmapWraps (start len : Nat) : Prop :=
  (⟨wrappingAdd start len⟩ : VirtAddr).ceil.val < start / pageSize

instance (start len : Nat) : Decidable (MmapWraps start len) :=
  inferInstanceAs (Decidable (_ < _))

/-- The permission `task_mmap` gives: `port << 1` as `R W X` bits, and `U`. -/
def mmapPerm (port : Nat) : MapPermission := ⟨UInt8.ofNat port <<< 1⟩ ||| MapPermission.U

/-- What makes `task_mmap` return `-1`: a misaligned start, a port with bits other than
`R W X` or with none of them, or a mapped page in the range. -/
def MmapRejects (ms : MemorySet) (m : Machine) (start len port : Nat) : Prop :=
  start % pageSize ≠ 0 ∨ port &&& (usizeMax ^^^ 7) ≠ 0 ∨ port &&& 7 = 0 ∨
    ∃ v ∈ mmapPages start len, (ms.pageTable.mapping m.mem v).isSome

section Mmap

variable {strampoline : Nat} {ms ms' : MemorySet} {m m' : Machine} {start len port : Nat} {r : Int}
  {e : Panic}

theorem translate_any_isValid (ms : MemorySet) (mem : Nat → UInt8) (v : VirtPageNum) :
    (ms.translate mem v).any PageTableEntry.isValid = (ms.pageTable.mapping mem v).isSome := by
  unfold MemorySet.translate PageTable.mapping
  cases ms.pageTable.translate mem v with
  | none => rfl
  | some pte => cases valid : pte.isValid <;> simp [Option.filter, valid]

/-- `port << 1` always names permissions once `port` has no bit above the third. -/
theorem fromBits_port (high : port &&& (usizeMax ^^^ 7) = 0) :
    MapPermission.fromBits (UInt8.ofNat port <<< 1) = some ⟨UInt8.ofNat port <<< 1⟩ := by
  -- only the low three bits of `port` survive the check
  have split : port &&& (usizeMax ^^^ 7) = port % 2 ^ 64 ^^^ port % 8 := by
    rw [Nat.and_xor_distrib_left, show usizeMax = 2 ^ 64 - 1 from rfl, Nat.and_two_pow_sub_one_eq_mod,
      show (7 : Nat) = 2 ^ 3 - 1 from rfl, Nat.and_two_pow_sub_one_eq_mod]
  have same : port % 2 ^ 64 = port % 8 := by
    apply Nat.eq_of_testBit_eq
    intro i
    have bit := congrArg (fun n => n.testBit i) (split.symm.trans high)
    simpa [Nat.testBit_xor] using bit
  have byte : UInt8.ofNat port = UInt8.ofNat (port % 8) := by
    rw [← UInt8.toNat_inj, UInt8.toNat_ofNat', UInt8.toNat_ofNat']
    omega
  have bits : ∀ k < 8, MapPermission.fromBits (UInt8.ofNat k <<< 1) = some ⟨UInt8.ofNat k <<< 1⟩ := by
    decide
  rw [byte]
  exact bits _ (Nat.mod_lt _ (by decide))

/-- Below `TRAMPOLINE` the range runs from `floor(start)` to `ceil(start + len)` in order. -/
theorem floor_le_ceil (fits : start + len ≤ trampoline) :
    (⟨start⟩ : VirtAddr).floor.val ≤ (⟨wrappingAdd start len⟩ : VirtAddr).ceil.val := by
  rw [VirtAddr.ceil_val (by rw [wrappingAdd_of_fits fits]; exact fits), wrappingAdd_of_fits fits]
  simp only [VirtAddr.floor, pageSize]
  omega

/-- The pages of the range in order are `mmapPages`. -/
theorem vpns_eq_mmapPages
    (ordered : (⟨start⟩ : VirtAddr).floor.val ≤ (⟨wrappingAdd start len⟩ : VirtAddr).ceil.val) :
    (⟨(⟨start⟩ : VirtAddr).floor, (⟨wrappingAdd start len⟩ : VirtAddr).ceil, ordered⟩ : VPNRange).vpns =
      mmapPages start len := rfl

/-- Below `TRAMPOLINE` no addition wraps: the range is that of `ceil(start + len)`. -/
theorem mmapPages_of_fits (fits : start + len ≤ trampoline) :
    mmapPages start len =
      (List.range' (start / pageSize) ((start + len + pageSize - 1) / pageSize - start / pageSize)).map
        VirtPageNum.mk := by
  rw [mmapPages, VirtAddr.ceil_val (by rw [wrappingAdd_of_fits fits]; exact fits), wrappingAdd_of_fits fits]

theorem mmapArgs_eq_false_iff :
    (!(⟨start⟩ : VirtAddr).aligned || port &&& (usizeMax ^^^ 7) != 0 || port &&& 7 == 0) = false ↔
      start % pageSize = 0 ∧ port &&& (usizeMax ^^^ 7) = 0 ∧ port &&& 7 ≠ 0 := by
  rw [Bool.or_eq_false_iff, Bool.or_eq_false_iff, Bool.not_eq_false', VirtAddr.aligned_iff,
    bne_eq_false_iff_eq, beq_eq_false_iff_ne, and_assoc]

theorem taskMmap_of_bad_args
    (bad : ¬ (start % pageSize = 0 ∧ port &&& (usizeMax ^^^ 7) = 0 ∧ port &&& 7 ≠ 0)) :
    taskMmap ms start len port m = .ok ((ms, -1), m) := by
  have checked : (!(⟨start⟩ : VirtAddr).aligned || port &&& (usizeMax ^^^ 7) != 0 || port &&& 7 == 0) =
      true := by
    rw [← Bool.not_eq_false, mmapArgs_eq_false_iff]
    exact bad
  unfold taskMmap
  rw [if_pos checked]
  rfl

/-- Past the argument checks, the assertion of `VPNRange::new` panics on a range out of order. -/
theorem taskMmap_of_wraps (wraps : MmapWraps start len)
    (args : start % pageSize = 0 ∧ port &&& (usizeMax ^^^ 7) = 0 ∧ port &&& 7 ≠ 0) :
    taskMmap ms start len port m =
      .error (.rangeStartAfterEnd (start / pageSize) (⟨wrappingAdd start len⟩ : VirtAddr).ceil.val) := by
  have checked := mmapArgs_eq_false_iff.mpr args
  have refused : VPNRange.new (⟨start⟩ : VirtAddr).floor (⟨wrappingAdd start len⟩ : VirtAddr).ceil =
      .error (.rangeStartAfterEnd (start / pageSize) (⟨wrappingAdd start len⟩ : VirtAddr).ceil.val) := by
    have outOfOrder : ¬ (⟨start⟩ : VirtAddr).floor.val ≤ (⟨wrappingAdd start len⟩ : VirtAddr).ceil.val :=
      Nat.not_le_of_lt wraps
    rw [VPNRange.new, dif_neg outOfOrder]
    rfl
  unfold taskMmap
  rw [if_neg (by rw [checked]; decide), refused]
  rfl

/-- Past the argument checks, on a range in order, `task_mmap` looks for a mapped page of the
range. -/
theorem taskMmap_of_args
    (ordered : (⟨start⟩ : VirtAddr).floor.val ≤ (⟨wrappingAdd start len⟩ : VirtAddr).ceil.val)
    (args : start % pageSize = 0 ∧ port &&& (usizeMax ^^^ 7) = 0 ∧ port &&& 7 ≠ 0) :
    taskMmap ms start len port m =
      if (mmapPages start len).any (fun v => (ms.pageTable.mapping m.mem v).isSome) then .ok ((ms, -1), m)
      else (ms.insertFramedArea ⟨start⟩ ⟨wrappingAdd start len⟩ (mmapPerm port) >>= fun ms => pure (ms, 0)) m := by
  have checked := mmapArgs_eq_false_iff.mpr args
  have built : VPNRange.new (⟨start⟩ : VirtAddr).floor (⟨wrappingAdd start len⟩ : VirtAddr).ceil =
      .ok ⟨_, _, ordered⟩ := by
    rw [VPNRange.new, dif_pos ordered]
  have found : ((⟨_, _, ordered⟩ : VPNRange).vpns.any fun vpn =>
      (ms.translate m.mem vpn).any PageTableEntry.isValid) =
      (mmapPages start len).any fun v => (ms.pageTable.mapping m.mem v).isSome := by
    rw [vpns_eq_mmapPages ordered]
    simp only [translate_any_isValid]
  unfold taskMmap
  rw [if_neg (by rw [checked]; decide), built, Foundation.liftExcept_ok_bind, Foundation.get_bind, found]
  by_cases hit : ((mmapPages start len).any fun v => (ms.pageTable.mapping m.mem v).isSome) = true
  · rw [if_pos hit, if_pos hit]
    rfl
  · rw [if_neg hit, if_neg hit, fromBits_port args.2.1]
    rfl

/-- Arguments that fail a check make `task_mmap` refuse. -/
theorem mmapRejects_of_bad_args
    (bad : ¬ (start % pageSize = 0 ∧ port &&& (usizeMax ^^^ 7) = 0 ∧ port &&& 7 ≠ 0)) :
    MmapRejects ms m start len port := by
  unfold MmapRejects
  by_cases aligned : start % pageSize = 0
  · by_cases high : port &&& (usizeMax ^^^ 7) = 0
    · exact .inr (.inr (.inl (by simpa [aligned, high] using bad)))
    · exact .inr (.inl high)
  · exact .inl aligned

/-- A range out of order has no page, so good arguments are not refused on it. -/
theorem not_mmapRejects_of_wraps (wraps : MmapWraps start len)
    (args : start % pageSize = 0 ∧ port &&& (usizeMax ^^^ 7) = 0 ∧ port &&& 7 ≠ 0) :
    ¬ MmapRejects ms m start len port := by
  have empty : mmapPages start len = [] := by
    unfold MmapWraps at wraps
    rw [mmapPages, Nat.sub_eq_zero_of_le (Nat.le_of_lt wraps)]
    rfl
  rintro (misaligned | high | low | ⟨v, member, -⟩)
  · exact misaligned args.1
  · exact high args.2.1
  · exact args.2.2 low
  · rw [empty] at member
    cases member

theorem floor_le_ceil_add (fits : start + len ≤ trampoline) :
    (⟨start⟩ : VirtAddr).floor.val ≤ (⟨start + len⟩ : VirtAddr).ceil.val :=
  wrappingAdd_of_fits fits ▸ floor_le_ceil fits

/-- A range that avoids the trampoline's index is shorter than `2 ^ 27` pages, so its pages
have distinct indices. -/
theorem vpns_indexes_nodup_of_avoids {range : VPNRange}
    (avoids : ∀ v ∈ range.vpns, v.indexes ≠ trampolineVpn.indexes) :
    (range.vpns.map VirtPageNum.indexes).Nodup := by
  apply VPNRange.vpns_indexes_nodup
  by_contra long
  obtain ⟨v, member, same⟩ := VPNRange.exists_indexes_eq (Nat.le_of_lt (Nat.lt_of_not_le long)) trampolineVpn
  exact avoids v member same

theorem vpns_eq_mmapPages_add (fits : start + len ≤ trampoline) :
    (⟨(⟨start⟩ : VirtAddr).floor, (⟨start + len⟩ : VirtAddr).ceil, floor_le_ceil_add fits⟩ : VPNRange).vpns =
      mmapPages start len := by
  have same := vpns_eq_mmapPages (floor_le_ceil fits)
  simp only [wrappingAdd_of_fits fits] at same
  exact same

theorem vacant_of_not_any {pages : List VirtPageNum}
    (hit : ¬ (pages.any fun v => (ms.pageTable.mapping m.mem v).isSome) = true) :
    ∀ v ∈ pages, ms.pageTable.mapping m.mem v = none := by
  intro v member
  cases mapped : ms.pageTable.mapping m.mem v with
  | none => rfl
  | some pte => exact absurd (List.any_eq_true.mpr ⟨v, member, by rw [mapped]; rfl⟩) hit

/-- Pushing a framed area over unmapped pages fails only for want of frames: the pages avoid
the indices of the set, the trampoline's among them, so they have indices of their own. -/
theorem push_range_error (inv : ms.Inv strampoline m) {range : VPNRange} {perm : MapPermission}
    (vacant : ∀ v ∈ range.vpns, ms.pageTable.mapping m.mem v = none)
    (failed : ms.push ⟨range, [], .framed, perm⟩ none m = .error e) :
    e = .frameExhausted ∧ m.frameAllocator.freeFrames < 3 * range.vpns.length := by
  have apart : ∀ v ∈ range.vpns, ∀ u ∈ trampolineVpn :: ms.pages, u.indexes ≠ v.indexes :=
    fun v member => inv.apart_of_mapping_eq_none (vacant v member)
  have distinct := vpns_indexes_nodup_of_avoids fun v member same =>
    apart v member trampolineVpn List.mem_cons_self same.symm
  exact inv.push_error rfl rfl distinct apart failed

/-- Over unmapped pages below `TRAMPOLINE`, pushing the area of the range fails only for want of
frames. -/
theorem push_mmapArea_error (inv : ms.Inv strampoline m) (fits : start + len ≤ trampoline)
    {perm : MapPermission} (vacant : ∀ v ∈ mmapPages start len, ms.pageTable.mapping m.mem v = none)
    (failed : ms.push ⟨⟨_, _, floor_le_ceil_add fits⟩, [], .framed, perm⟩ none m = .error e) :
    e = .frameExhausted ∧ m.frameAllocator.freeFrames < 3 * (mmapPages start len).length := by
  have pagesEq := vpns_eq_mmapPages_add fits
  exact pagesEq ▸ push_range_error inv (pagesEq ▸ vacant) failed

/-- What `task_mmap` does on `ms` in machine `m`, for every `start`, `len` and `port`. It returns
`-1`, changing nothing, exactly when it refuses the arguments. Past the checks it panics in two
ways only: by the assertion of `VPNRange::new` when the range is out of order, and by
`frame_alloc().unwrap()` when frames run out, three per page being always enough. Otherwise it
returns `0`, keeps the invariant, backs every page of the range by a fresh zeroed frame of its
own mapped with `U | V | (port << 1)`, and leaves every page of another index as it was. -/
def MmapSpec (strampoline : Nat) (ms : MemorySet) (m : Machine) (start len port : Nat) : Prop :=
  (∀ e, taskMmap ms start len port m = .error e →
    ¬ MmapRejects ms m start len port ∧
      ((MmapWraps start len ∧
          e = .rangeStartAfterEnd (start / pageSize) (⟨wrappingAdd start len⟩ : VirtAddr).ceil.val) ∨
        (¬ MmapWraps start len ∧ e = .frameExhausted ∧
          m.frameAllocator.freeFrames < 3 * (mmapPages start len).length))) ∧
  ∀ ms' r m', taskMmap ms start len port m = .ok ((ms', r), m') →
    (r = -1 ∧ MmapRejects ms m start len port ∧ ms' = ms ∧ m' = m) ∨
    (r = 0 ∧ ¬ MmapRejects ms m start len port ∧ ¬ MmapWraps start len ∧ ms'.Inv strampoline m' ∧
      ∃ data : List PhysPageNum, data.Nodup ∧ data.length = (mmapPages start len).length ∧
        (∀ v ppn, (v, ppn) ∈ (mmapPages start len).zip data →
          ms'.pageTable.mapping m'.mem v =
            some (.new ppn (PTEFlags.fromBits (mmapPerm port).bits ||| PTEFlags.V)) ∧
          ¬ m.frameAllocator.Allocated ppn ∧ ∀ addr, ppn.Covers addr → m'.mem addr = 0) ∧
        ∀ v, (∀ u ∈ mmapPages start len, u.indexes ≠ v.indexes) →
          ms'.pageTable.mapping m'.mem v = ms.pageTable.mapping m.mem v)

/-- `task_mmap` meets `RCore.MmapSpec` on an address space that keeps its invariant, for every
`start`, `len` and `port`. -/
theorem taskMmap_spec (inv : ms.Inv strampoline m) : MmapSpec strampoline ms m start len port := by
  unfold MmapSpec
  by_cases args : start % pageSize = 0 ∧ port &&& (usizeMax ^^^ 7) = 0 ∧ port &&& 7 ≠ 0
  case neg =>
    rw [taskMmap_of_bad_args args]
    refine ⟨fun e failed => (by cases failed), fun ms' r m' ran => .inl ?_⟩
    cases ran
    exact ⟨rfl, mmapRejects_of_bad_args args, rfl, rfl⟩
  by_cases wraps : MmapWraps start len
  case pos =>
    -- the assertion of `VPNRange::new` fires before any page is looked at
    rw [taskMmap_of_wraps wraps args]
    refine ⟨fun e failed => ?_, fun ms' r m' ran => by cases ran⟩
    cases failed
    exact ⟨not_mmapRejects_of_wraps wraps args, .inl ⟨wraps, rfl⟩⟩
  have ordered := Nat.le_of_not_lt wraps
  rw [taskMmap_of_args ordered args]
  by_cases hit : ((mmapPages start len).any fun v => (ms.pageTable.mapping m.mem v).isSome) = true
  case pos =>
    rw [if_pos hit]
    refine ⟨fun e failed => (by cases failed), fun ms' r m' ran => .inl ?_⟩
    cases ran
    obtain ⟨v, member, mapped⟩ := List.any_eq_true.mp hit
    exact ⟨rfl, .inr (.inr (.inr ⟨v, member, mapped⟩)), rfl, rfl⟩
  rw [if_neg hit, MemorySet.insertFramedArea_eq (mmapPerm port) ordered]
  have accepts : ¬ MmapRejects ms m start len port := by
    rintro (misaligned | high | low | ⟨v, member, mapped⟩)
    · exact misaligned args.1
    · exact high args.2.1
    · exact args.2.2 low
    · exact hit (List.any_eq_true.mpr ⟨v, member, mapped⟩)
  have pagesEq := vpns_eq_mmapPages ordered
  have vacant := vacant_of_not_any hit
  constructor
  · intro e failed
    rcases Foundation.bind_eq_error.mp failed with bad | ⟨ms', m', -, done⟩
    · obtain ⟨exhausted, few⟩ := push_range_error inv (pagesEq ▸ vacant) bad
      exact ⟨accepts, .inr ⟨wraps, exhausted, pagesEq ▸ few⟩⟩
    · cases done
  · intro ms' r m' ran
    obtain ⟨pushedSet, final, pushed, done⟩ := Foundation.bind_eq_ok.mp ran
    cases done
    refine .inr ⟨rfl, accepts, wraps, inv.push rfl rfl pushed, ?_⟩
    obtain ⟨nodes, data, area', fresh, -⟩ := MemorySet.push_framed_spec inv.table rfl rfl pushed
    refine ⟨data, (List.nodup_append.mp fresh.extended.nodup).2.1, pagesEq ▸ fresh.length_eq, ?_, ?_⟩
    · intro v ppn member
      rw [← pagesEq] at member
      have owned := (List.of_mem_zip member).2
      exact ⟨fresh.mapped (v, ppn) member, fresh.extended.fresh ppn (List.mem_append_right _ owned),
        fresh.extended.data_zero ppn owned⟩
    · intro v avoids
      exact fresh.others v (pagesEq ▸ avoids)

/-- `task_mmap` of one page on the address space built right after boot. -/
theorem taskMmap_spec_after_boot :
    ∃ (ms : MemorySet) (m : Machine), ms.Inv 0x80201000 m ∧ MmapSpec 0x80201000 ms m 0 pageSize 3 := by
  have below : 0x80400000 ≤ memoryEnd := by decide
  obtain ⟨ms, m, inv, -, -⟩ := MemorySet.exists_inv (bootMachine_inv (fun _ => 0) below)
    (show 0x80201000 % pageSize = 0 by decide) (by rw [bootMachine_freeFrames _ below]; decide)
  exact ⟨ms, m, inv, taskMmap_spec inv⟩

/-- `task_mmap` panics both ways on a kernel image that leaves three frames and the address space
with the trampoline built in them: three fresh pages to map find too few frames, and the page
at `4096` with `len = 2 ^ 64 - 4096` makes `start + len` wrap to `0`, so `VPNRange::new(1, 0)`
asserts. -/
theorem taskMmap_panics_when_frames_run_out :
    ∃ (ms : MemorySet) (m : Machine), ms.Inv 0x80201000 m ∧
      taskMmap ms 0 (3 * pageSize) 3 m = .error .frameExhausted ∧
      taskMmap ms pageSize (2 ^ 64 - pageSize) 3 m = .error (.rangeStartAfterEnd 1 0) := by
  have below : memoryEnd - 3 * pageSize ≤ memoryEnd := by decide
  obtain ⟨ms, m, inv, noAreas, spent, -⟩ := MemorySet.exists_inv (bootMachine_inv (fun _ => 0) below)
    (show 0x80201000 % pageSize = 0 by decide) (by rw [bootMachine_freeFrames _ below]; decide)
  rw [bootMachine_freeFrames _ below] at spent
  have few : m.frameAllocator.freeFrames ≤ 2 := by
    simp only [memoryEnd, pageSize] at spent
    omega
  have fits : 0 + 3 * pageSize ≤ trampoline := by decide
  have pagesEq : mmapPages 0 (3 * pageSize) = [⟨0⟩, ⟨1⟩, ⟨2⟩] := by decide
  -- the three pages are unmapped: their indices are not the trampoline's
  have vacant : ∀ v ∈ mmapPages 0 (3 * pageSize), ms.pageTable.mapping m.mem v = none := by
    intro v member
    apply inv.mapping_eq_none_of_areas_nil noAreas
    rw [pagesEq] at member
    simp only [List.mem_cons, List.not_mem_nil, or_false] at member
    rcases member with rfl | rfl | rfl <;> decide
  have untouched : ((mmapPages 0 (3 * pageSize)).any fun v => (ms.pageTable.mapping m.mem v).isSome) = false := by
    rw [List.any_eq_false]
    intro v member
    rw [vacant v member]
    decide
  have wrapped : taskMmap ms pageSize (2 ^ 64 - pageSize) 3 m = .error (.rangeStartAfterEnd 1 0) :=
    taskMmap_of_wraps (by decide) (by decide)
  refine ⟨ms, m, inv, ?_, wrapped⟩
  rw [taskMmap_of_args (floor_le_ceil fits) (by decide), untouched, if_neg Bool.false_ne_true,
    wrappingAdd_of_fits fits, MemorySet.insertFramedArea_eq (mmapPerm 3) (floor_le_ceil_add fits)]
  have pagesEq' := vpns_eq_mmapPages_add fits
  cases pushed : ms.push ⟨⟨_, _, floor_le_ceil_add fits⟩, [], .framed, mmapPerm 3⟩ none m with
  | error e =>
      obtain ⟨rfl, -⟩ := push_mmapArea_error inv fits vacant pushed
      exact Foundation.bind_eq_error.mpr (.inl pushed)
  | ok result =>
      -- a success would have taken three data frames out of at most two
      obtain ⟨ms', m'⟩ := result
      obtain ⟨nodes, data, area', fresh, -⟩ := MemorySet.push_framed_spec inv.table rfl rfl pushed
      have used := fresh.extended.freeFrames_eq
      have three := fresh.length_eq
      rw [pagesEq', pagesEq] at three
      simp only [List.length_append, List.length_cons, List.length_nil] at used three
      omega

end Mmap

section Munmap

variable {strampoline : Nat} {ms : MemorySet} {m : Machine} {start len : Nat}

theorem taskMunmap_of_args (fits : start + len ≤ trampoline) (aligned : start % pageSize = 0) :
    taskMunmap ms start len m =
      if (mmapPages start len).all (fun v => (ms.pageTable.mapping m.mem v).isSome) then
        (ms.unmap (⟨start⟩ : VirtAddr).floor (⟨start + len⟩ : VirtAddr).ceil >>= fun ms => pure (ms, 0)) m
      else .ok ((ms, -1), m) := by
  have built : VPNRange.new (⟨start⟩ : VirtAddr).floor (⟨wrappingAdd start len⟩ : VirtAddr).ceil =
      .ok ⟨_, _, floor_le_ceil fits⟩ := by
    rw [VPNRange.new, dif_pos (floor_le_ceil fits)]
  have found : ((⟨_, _, floor_le_ceil fits⟩ : VPNRange).vpns.all fun vpn =>
      (ms.translate m.mem vpn).any PageTableEntry.isValid) =
      (mmapPages start len).all fun v => (ms.pageTable.mapping m.mem v).isSome := by
    rw [vpns_eq_mmapPages (floor_le_ceil fits)]
    simp only [translate_any_isValid]
  unfold taskMunmap
  rw [if_neg (by rw [(VirtAddr.aligned_iff _).mpr aligned]; decide), built, Foundation.liftExcept_ok_bind,
    Foundation.get_bind, found]
  by_cases all : ((mmapPages start len).all fun v => (ms.pageTable.mapping m.mem v).isSome) = true
  · rw [if_neg (by rw [all]; decide), if_pos all, wrappingAdd_of_fits fits]
  · have notAll : (!(mmapPages start len).all fun v => (ms.pageTable.mapping m.mem v).isSome) = true := by
      simpa using all
    rw [if_pos notAll, if_neg all]
    rfl

/-- The range of one aligned page below `TRAMPOLINE` is that page. -/
theorem mmapPages_page (fits : start + pageSize ≤ trampoline) (aligned : start % pageSize = 0) :
    mmapPages start pageSize = [⟨start / pageSize⟩] := by
  have count : (start + pageSize + pageSize - 1) / pageSize - start / pageSize = 1 := by
    simp only [pageSize] at aligned ⊢
    omega
  rw [mmapPages_of_fits fits, count]
  rfl

/-- A framed area over one unmapped page below `TRAMPOLINE` is pushed whenever three frames are
free; the set keeps its invariant and gains an area over the page with the given permission. -/
theorem push_page_isOk (inv : ms.Inv strampoline m) (fits : start + pageSize ≤ trampoline)
    (aligned : start % pageSize = 0) (vacant : ms.pageTable.mapping m.mem ⟨start / pageSize⟩ = none)
    (free : 3 ≤ m.frameAllocator.freeFrames) (perm : MapPermission) :
    ∃ ms' m', ms.push ⟨⟨_, _, floor_le_ceil_add fits⟩, [], .framed, perm⟩ none m = .ok (ms', m') ∧
      ms'.Inv strampoline m' ∧
      (∃ area ∈ ms'.areas, (⟨start / pageSize⟩ : VirtPageNum) ∈ area.vpnRange.vpns ∧ area.mapPerm = perm) ∧
      m.frameAllocator.freeFrames ≤ m'.frameAllocator.freeFrames + 3 := by
  have pages := mmapPages_page fits aligned
  have pagesEq := vpns_eq_mmapPages_add fits
  have allVacant : ∀ v ∈ mmapPages start pageSize, ms.pageTable.mapping m.mem v = none := by
    rw [pages]
    intro v member
    rw [List.mem_singleton.mp member]
    exact vacant
  cases pushed : ms.push ⟨⟨_, _, floor_le_ceil_add fits⟩, [], .framed, perm⟩ none m with
  | error e =>
      obtain ⟨-, few⟩ := push_mmapArea_error inv fits allVacant pushed
      rw [pages, List.length_singleton] at few
      omega
  | ok result =>
      obtain ⟨ms', m'⟩ := result
      obtain ⟨nodes, data, area', fresh, areasEq⟩ := MemorySet.push_framed_spec inv.table rfl rfl pushed
      refine ⟨ms', m', rfl, inv.push rfl rfl pushed,
        ⟨area', by rw [areasEq]; exact List.mem_append_right _ (List.mem_singleton_self _), ?_,
          by rw [fresh.area_eq]⟩, ?_⟩
      · rw [fresh.area_eq]
        show _ ∈ (⟨_, _, floor_le_ceil_add fits⟩ : VPNRange).vpns
        rw [pagesEq, pages]
        exact List.mem_singleton_self _
      · -- at most two new nodes and one data frame
        have spent := fresh.extended.freeFrames_eq
        have fewNodes := fresh.nodes_le
        have oneFrame := fresh.length_eq
        rw [pagesEq, pages, List.length_singleton] at fewNodes oneFrame
        rw [List.length_append] at spent
        omega

/-- `task_mmap` of one unmapped page below `TRAMPOLINE`, with three free frames, returns `0`:
it pushes an area that holds the page, and spends at most three frames. -/
theorem taskMmap_page (inv : ms.Inv strampoline m) (fits : start + pageSize ≤ trampoline)
    (aligned : start % pageSize = 0) (vacant : ms.pageTable.mapping m.mem ⟨start / pageSize⟩ = none)
    (free : 3 ≤ m.frameAllocator.freeFrames) :
    ∃ ms' m', taskMmap ms start pageSize 3 m = .ok ((ms', 0), m') ∧ ms'.Inv strampoline m' ∧
      (∃ area ∈ ms'.areas, (⟨start / pageSize⟩ : VirtPageNum) ∈ area.vpnRange.vpns) ∧
      m.frameAllocator.freeFrames ≤ m'.frameAllocator.freeFrames + 3 := by
  have hit : ¬ ((mmapPages start pageSize).any fun v => (ms.pageTable.mapping m.mem v).isSome) = true := by
    rw [mmapPages_page fits aligned]
    simp [vacant]
  rw [taskMmap_of_args (floor_le_ceil fits) ⟨aligned, by decide, by decide⟩, if_neg hit,
    wrappingAdd_of_fits fits, MemorySet.insertFramedArea_eq (mmapPerm 3) (floor_le_ceil_add fits)]
  obtain ⟨ms', m', pushed, inv', ⟨area, member, page, -⟩, spent⟩ :=
    push_page_isOk inv fits aligned vacant free (mmapPerm 3)
  exact ⟨ms', m', Foundation.bind_eq_ok.mpr ⟨ms', m', pushed, rfl⟩, inv', ⟨area, member, page⟩, spent⟩

/-- `task_munmap` of a mapped page below `TRAMPOLINE`, with two free frames, returns `0`: it
clears the page's entry and keeps every area. -/
theorem taskMunmap_page (valid : ms.pageTable.Valid m) (fits : start + pageSize ≤ trampoline)
    (aligned : start % pageSize = 0) (mapped : (ms.pageTable.mapping m.mem ⟨start / pageSize⟩).isSome)
    (free : 2 ≤ m.frameAllocator.freeFrames) :
    ∃ ms' m', taskMunmap ms start pageSize m = .ok ((ms', 0), m') ∧ ms'.areas = ms.areas ∧
      ms'.pageTable.mapping m'.mem ⟨start / pageSize⟩ = none ∧
      ∀ ppn, m.frameAllocator.Allocated ppn → m'.frameAllocator.Allocated ppn := by
  have pages := mmapPages_page fits aligned
  have all : ((mmapPages start pageSize).all fun v => (ms.pageTable.mapping m.mem v).isSome) = true := by
    rw [pages]
    simp [mapped]
  rw [taskMunmap_of_args fits aligned, if_pos all]
  have built : VPNRange.new (⟨start⟩ : VirtAddr).floor (⟨start + pageSize⟩ : VirtAddr).ceil =
      .ok ⟨_, _, floor_le_ceil_add fits⟩ := by
    rw [VPNRange.new, dif_pos (floor_le_ceil_add fits)]
  cases unmapped : ms.pageTable.unmap ⟨start / pageSize⟩ m with
  | error e =>
      rcases PageTable.unmap_eq_error_spec valid unmapped with ⟨-, few⟩ | ⟨-, cleared⟩
      · omega
      · rw [cleared] at mapped
        cases mapped
  | ok result =>
      obtain ⟨pt', m'⟩ := result
      obtain ⟨fresh, grown, -, -, -, mapping'⟩ := PageTable.unmap_spec valid unmapped
      refine ⟨{ ms with pageTable := pt' }, m', Foundation.bind_eq_ok.mpr ⟨{ ms with pageTable := pt' }, m', ?_, rfl⟩,
        rfl, by rw [mapping', if_pos rfl], fun ppn held => (grown.allocated_iff ppn).mpr (.inl held)⟩
      -- the unmap walks the one page of the range
      unfold MemorySet.unmap
      rw [built, Foundation.liftExcept_ok_bind]
      refine Foundation.bind_eq_ok.mpr ⟨pt', m', ?_, rfl⟩
      rw [vpns_eq_mmapPages_add fits, pages, List.foldlM_cons]
      simp only [List.foldlM_nil, bind_pure]
      exact unmapped

/-- `task_munmap` clears the entries of the pages but keeps their areas: after an mmap of an
unmapped page and a munmap of it, the page lies in an area of the set and is unmapped, so the
set no longer keeps the representation invariant. -/
theorem taskMunmap_leaves_area_unmapped (inv : ms.Inv strampoline m) (fits : start + pageSize ≤ trampoline)
    (aligned : start % pageSize = 0) (vacant : ms.pageTable.mapping m.mem ⟨start / pageSize⟩ = none)
    (free : 5 ≤ m.frameAllocator.freeFrames) :
    ∃ ms1 m1 ms2 m2, taskMmap ms start pageSize 3 m = .ok ((ms1, 0), m1) ∧
      taskMunmap ms1 start pageSize m1 = .ok ((ms2, 0), m2) ∧
      (∃ area ∈ ms2.areas, (⟨start / pageSize⟩ : VirtPageNum) ∈ area.vpnRange.vpns) ∧
      ms2.pageTable.mapping m2.mem ⟨start / pageSize⟩ = none ∧ ¬ ms2.Inv strampoline m2 := by
  obtain ⟨ms1, m1, mmapped, inv1, ⟨area, member, page⟩, spent⟩ :=
    taskMmap_page inv fits aligned vacant (by omega)
  have mapped : (ms1.pageTable.mapping m1.mem ⟨start / pageSize⟩).isSome :=
    (inv1.mapped_iff _).mpr ⟨_, List.mem_cons_of_mem _ (MemorySet.mem_pages.mpr ⟨area, member, page⟩), rfl⟩
  obtain ⟨ms2, m2, munmapped, sameAreas, unmapped, -⟩ := taskMunmap_page inv1.table fits aligned mapped (by omega)
  have kept : area ∈ ms2.areas := sameAreas ▸ member
  refine ⟨ms1, m1, ms2, m2, mmapped, munmapped, ⟨area, kept, page⟩, unmapped, fun inv2 => ?_⟩
  -- the invariant maps every page of an area
  have remapped := (inv2.mapped_iff _).mpr
    ⟨_, List.mem_cons_of_mem _ (MemorySet.mem_pages.mpr ⟨area, kept, page⟩), rfl⟩
  rw [unmapped] at remapped
  cases remapped

/-- The breakage on the address space built right after boot, at page zero. -/
theorem taskMunmap_leaves_area_unmapped_after_boot :
    ∃ (ms : MemorySet) (m : Machine), ms.Inv 0x80201000 m ∧ 0 + pageSize ≤ trampoline ∧
      0 % pageSize = 0 ∧ ms.pageTable.mapping m.mem ⟨0 / pageSize⟩ = none ∧ 5 ≤ m.frameAllocator.freeFrames ∧
      ∃ ms1 m1 ms2 m2, taskMmap ms 0 pageSize 3 m = .ok ((ms1, 0), m1) ∧
        taskMunmap ms1 0 pageSize m1 = .ok ((ms2, 0), m2) ∧
        (∃ area ∈ ms2.areas, (⟨0 / pageSize⟩ : VirtPageNum) ∈ area.vpnRange.vpns) ∧
        ms2.pageTable.mapping m2.mem ⟨0 / pageSize⟩ = none ∧ ¬ ms2.Inv 0x80201000 m2 := by
  have below : 0x80400000 ≤ memoryEnd := by decide
  obtain ⟨ms, m, inv, noAreas, -, taken⟩ := MemorySet.exists_inv (bootMachine_inv (fun _ => 0) below)
    (show 0x80201000 % pageSize = 0 by decide) (by rw [bootMachine_freeFrames _ below]; decide)
  rw [bootMachine_freeFrames _ below] at taken
  have fits : 0 + pageSize ≤ trampoline := by decide
  have aligned : 0 % pageSize = 0 := by decide
  have vacant : ms.pageTable.mapping m.mem ⟨0 / pageSize⟩ = none :=
    inv.mapping_eq_none_of_areas_nil noAreas (by decide)
  have free : 5 ≤ m.frameAllocator.freeFrames := by
    simp only [memoryEnd, pageSize] at taken
    omega
  exact ⟨ms, m, inv, fits, aligned, vacant, free, taskMunmap_leaves_area_unmapped inv fits aligned vacant free⟩

/-- The page of `TRAP_CONTEXT`. -/
def trapContextVpn : VirtPageNum := ⟨trapContext / pageSize⟩

/-- `task_munmap(TRAP_CONTEXT, PAGE_SIZE)` on a set that keeps the invariant and holds the
trap-context area `from_elf` pushes: the page is mapped without `U`, yet the call returns `0`
and clears its entry, and the area and every frame the set owned stay as they were. -/
theorem taskMunmap_unmaps_trapContext (inv : ms.Inv strampoline m)
    (trapArea : ∃ area ∈ ms.areas, trapContextVpn ∈ area.vpnRange.vpns ∧
      area.mapPerm = MapPermission.R ||| MapPermission.W)
    (free : 2 ≤ m.frameAllocator.freeFrames) :
    (∃ pte, ms.pageTable.mapping m.mem trapContextVpn = some pte ∧ pte.flags &&& PTEFlags.U = PTEFlags.empty) ∧
      ∃ ms' m', taskMunmap ms trapContext pageSize m = .ok ((ms', 0), m') ∧
        ms'.pageTable.mapping m'.mem trapContextVpn = none ∧ ms'.areas = ms.areas ∧
        ∀ ppn ∈ ms.frames, m'.frameAllocator.Allocated ppn := by
  obtain ⟨area, member, page, perm⟩ := trapArea
  -- the invariant backs the page by the area's frame, mapped with the area's permission
  obtain ⟨-, keys⟩ := inv.framed area member
  obtain ⟨entry, stored, first⟩ : ∃ entry ∈ area.dataFrames, entry.1 = trapContextVpn := by
    rw [← keys] at page
    exact List.mem_map.mp page
  have mapped := inv.entries area member entry stored
  rw [first] at mapped
  have fits : trapContext + pageSize ≤ trampoline := by
    rw [trapContext_eq, trampoline_eq]
    decide
  have aligned : trapContext % pageSize = 0 := by
    rw [trapContext_eq]
    decide
  obtain ⟨ms', m', munmapped, sameAreas, unmapped, kept⟩ :=
    taskMunmap_page inv.table fits aligned (by rw [trapContextVpn] at mapped; rw [mapped]; rfl) free
  refine ⟨⟨_, mapped, ?_⟩, ms', m', munmapped, unmapped, sameAreas,
    fun ppn owned => kept ppn (inv.frames_allocated ppn owned)⟩
  rw [MapArea.entry, PageTableEntry.flags_new, perm]
  decide

/-- The address space built right after boot with the trap-context area `from_elf` pushes,
and two frames left. -/
theorem exists_trapContext_after_boot :
    ∃ (ms : MemorySet) (m : Machine), ms.Inv 0x80201000 m ∧
      (∃ area ∈ ms.areas, trapContextVpn ∈ area.vpnRange.vpns ∧
        area.mapPerm = MapPermission.R ||| MapPermission.W) ∧
      2 ≤ m.frameAllocator.freeFrames := by
  have below : 0x80400000 ≤ memoryEnd := by decide
  obtain ⟨ms, m, inv, noAreas, -, taken⟩ := MemorySet.exists_inv (bootMachine_inv (fun _ => 0) below)
    (show 0x80201000 % pageSize = 0 by decide) (by rw [bootMachine_freeFrames _ below]; decide)
  rw [bootMachine_freeFrames _ below] at taken
  have fits : trapContext + pageSize ≤ trampoline := by
    rw [trapContext_eq, trampoline_eq]
    decide
  have aligned : trapContext % pageSize = 0 := by
    rw [trapContext_eq]
    decide
  have vacant : ms.pageTable.mapping m.mem ⟨trapContext / pageSize⟩ = none :=
    inv.mapping_eq_none_of_areas_nil noAreas (by rw [trapContext_eq]; decide)
  obtain ⟨ms1, m1, -, inv1, trapArea, spent⟩ :=
    push_page_isOk inv fits aligned vacant (by simp only [memoryEnd, pageSize] at taken; omega)
      (MapPermission.R ||| MapPermission.W)
  have free : 2 ≤ m1.frameAllocator.freeFrames := by
    simp only [memoryEnd, pageSize] at taken
    omega
  exact ⟨ms1, m1, inv1, trapArea, free⟩

/-- The trap-context area pushed onto the address space built right after boot. -/
theorem taskMunmap_unmaps_trapContext_after_boot :
    ∃ (ms : MemorySet) (m : Machine), ms.Inv 0x80201000 m ∧
      (∃ area ∈ ms.areas, trapContextVpn ∈ area.vpnRange.vpns ∧
        area.mapPerm = MapPermission.R ||| MapPermission.W) ∧
      2 ≤ m.frameAllocator.freeFrames ∧
      (∃ pte, ms.pageTable.mapping m.mem trapContextVpn = some pte ∧ pte.flags &&& PTEFlags.U = PTEFlags.empty) ∧
      ∃ ms' m', taskMunmap ms trapContext pageSize m = .ok ((ms', 0), m') ∧
        ms'.pageTable.mapping m'.mem trapContextVpn = none ∧ ms'.areas = ms.areas ∧
        ∀ ppn ∈ ms.frames, m'.frameAllocator.Allocated ppn := by
  obtain ⟨ms, m, inv, trapArea, free⟩ := exists_trapContext_after_boot
  exact ⟨ms, m, inv, trapArea, free, taskMunmap_unmaps_trapContext inv trapArea free⟩

end Munmap

end RCore
