import RCore.Task.Processor

/-! # Kernel access to user memory

The system calls reach user memory through the page table named by the caller's token.
`translated_byte_buffer` cuts a user range into slices of frames (`sys_write`, `sys_read`),
`translated_str` reads a zero-terminated string byte by byte (`sys_exec`, `sys_spawn`) and
`translated_refmut` gives the physical address of a user value (`sys_get_time`,
`sys_task_info`, `sys_waitpid`). All three walk the table with `find_pte`, which returns the
leaf entry without looking at its `V` or `U` bit. A pointer into a kernel-only page is then
translated like a user pointer: in every address space that keeps the representation
invariant, `translated_refmut` of `TRAMPOLINE` is the trampoline code itself
(`RCore.MemorySet.translatedRefmut_trampoline`), and `translated_refmut` of `TRAP_CONTEXT` is the
task's trap-context frame. A store into the trampoline would fault on the `R | X` mapping of
`.text` in `KERNEL_SPACE`, which the flat physical memory of `RCore.Machine` leaves out; the
trap-context frame comes from the frame allocator and lies in the physical memory that
`KERNEL_SPACE` maps `R | W`, so `sys_get_time` at `TRAP_CONTEXT` overwrites the saved registers
of the task and returns `0` (`RCore.MemorySet.sysGetTime_writes_trapContext`).
-/

namespace RCore

namespace PageTable

variable {pt pt' : PageTable} {mem : Nat → UInt8}

/-- The token names the root of the table: the `MODE` bits lie above the 44 bits kept. -/
theorem rootPpn_fromToken_token (small : pt.rootPpn.val < 2 ^ 44) : (fromToken pt.token).rootPpn = pt.rootPpn := by
  obtain ⟨⟨root⟩, frames⟩ := pt
  show (⟨(8 <<< 60 ||| root) &&& ((1 <<< 44) - 1)⟩ : PhysPageNum) = ⟨root⟩
  rw [show (1 <<< 44) - 1 = 2 ^ 44 - 1 by rfl, Nat.and_two_pow_sub_one_eq_mod, Nat.or_mod_two_pow,
    Nat.mod_eq_of_lt small, show 8 <<< 60 % 2 ^ 44 = 0 by decide, Nat.zero_or]

/-- A walk reads the root and the nodes below it, never the list of owned frames. -/
theorem translate_eq_of_rootPpn (same : pt.rootPpn = pt'.rootPpn) : pt.translate mem = pt'.translate mem := by
  obtain ⟨root, frames⟩ := pt
  obtain ⟨root', frames'⟩ := pt'
  cases same
  rfl

theorem translateVa_eq (va : VirtAddr) :
    pt.translateVa mem va = (pt.translate mem va.floor).map fun pte => ⟨pte.ppn.toPhysAddr.val + va.pageOffset⟩ := by
  unfold translateVa translate
  cases pt.findPte mem va.floor <;> rfl

end PageTable

/-- A slice `[lo, hi)` of the bytes of frame `ppn`: `&mut ppn.get_bytes_array()[lo..hi]`. -/
structure ByteSlice where
  ppn : PhysPageNum
  lo : Nat
  hi : Nat
deriving DecidableEq, Repr

/-- The loop of `translated_byte_buffer` from `start` up to `stop`, a slice per page. `fuel`
bounds the pages. -/
def translatedByteBufferLoop (pt : PageTable) (mem : Nat → UInt8) (stop : Nat) :
    (fuel start : Nat) → Except Panic (List ByteSlice)
  | 0, _ => .ok []
  | fuel + 1, start =>
      if start < stop then
        let startVa : VirtAddr := ⟨start⟩
        let vpn := startVa.floor
        match pt.translate mem vpn with
        | none => .error (.translationMissing vpn.val)
        | some pte =>
            -- `vpn.step()`, then `end_va = min(VirtAddr::from(vpn), VirtAddr::from(end))`
            let endVa : VirtAddr := ⟨min (VirtPageNum.toVirtAddr ⟨wrappingAdd vpn.val 1⟩).val stop⟩
            let slice : ByteSlice :=
              if endVa.pageOffset = 0 then ⟨pte.ppn, startVa.pageOffset, pageSize⟩
              else ⟨pte.ppn, startVa.pageOffset, endVa.pageOffset⟩
            (translatedByteBufferLoop pt mem stop fuel endVa.val).map (slice :: ·)
      else .ok []

/-- `translated_byte_buffer(token, ptr, len)`. Unless the range wraps past the end of the
address space, the loop runs at most once per page, `len / PAGE_SIZE + 2` times. -/
def translatedByteBuffer (token : Nat) (mem : Nat → UInt8) (ptr len : Nat) : Except Panic (List ByteSlice) :=
  translatedByteBufferLoop (PageTable.fromToken token) mem (wrappingAdd ptr len) (len / pageSize + 2) ptr

/-- `PhysAddr::get_mut`: `as_mut().unwrap()` of the address as a pointer, which fails on null. -/
def PhysAddr.getMut (pa : PhysAddr) : Except Panic PhysAddr :=
  if pa.val = 0 then .error .nullPointer else .ok pa

/-- `string.push(ch as char)`: the byte read as the code point `U+00XX` and stored in UTF-8,
as itself below `0x80` and as two bytes from `0x80` on. -/
def charBytes (ch : UInt8) : List UInt8 :=
  if ch < 0x80 then [ch] else [(0xC0 : UInt8) ||| ch >>> 6, (0x80 : UInt8) ||| ch &&& 0x3F]

theorem charBytes_of_lt {ch : UInt8} (ascii : ch < 0x80) : charBytes ch = [ch] := if_pos ascii

/-- The loop of `translated_str` from `va`: the UTF-8 bytes of the `String` it builds from the
bytes up to the first zero. The source loops until it finds one; `fuel` bounds the bytes read. -/
def translatedStrLoop (pt : PageTable) (mem : Nat → UInt8) : (fuel va : Nat) → Except Panic (List UInt8)
  | 0, _ => .ok []
  | fuel + 1, va =>
      match pt.translateVa mem ⟨va⟩ with
      | none => .error (.translationMissing va)
      | some pa => do
          let pa ← pa.getMut
          let ch := mem pa.val
          if ch = 0 then .ok [] else (translatedStrLoop pt mem fuel (wrappingAdd va 1)).map (charBytes ch ++ ·)

/-- `translated_str(token, ptr)`, reading at most `fuel` bytes. -/
def translatedStr (token : Nat) (mem : Nat → UInt8) (fuel ptr : Nat) : Except Panic (List UInt8) :=
  translatedStrLoop (PageTable.fromToken token) mem fuel ptr

/-- `translated_refmut(token, ptr)`: the physical address the kernel then reads or writes. -/
def translatedRefmut (token : Nat) (mem : Nat → UInt8) (ptr : Nat) : Except Panic PhysAddr :=
  match (PageTable.fromToken token).translateVa mem ⟨ptr⟩ with
  | none => .error (.translationMissing ptr)
  | some pa => pa.getMut

/-- `sys_get_time(ts, _)` at `us` microseconds: the two `usize` fields of `TimeVal` are
stored through `translated_refmut`. -/
def sysGetTime (token ts us : Nat) : KernelM Int := do
  let m ← get
  let pa ← StateT.lift (translatedRefmut token m.mem ts)
  let mem := Foundation.storeLE (Foundation.storeLE m.mem pa.val 8 (us / 1000000)) (pa.val + 8) 8 (us % 1000000)
  set { m with mem }
  return 0

/-- One byte of `translated_str`: the byte at the address `translated_refmut` gives for `va`
ends the string when it is zero and is pushed before the rest otherwise. -/
theorem translatedStr_succ {token fuel va : Nat} {mem : Nat → UInt8} {pa : PhysAddr}
    (translated : translatedRefmut token mem va = .ok pa) :
    translatedStr token mem (fuel + 1) va =
      if mem pa.val = 0 then .ok []
      else (translatedStr token mem fuel (wrappingAdd va 1)).map (charBytes (mem pa.val) ++ ·) := by
  unfold translatedRefmut at translated
  unfold translatedStr
  rw [translatedStrLoop.eq_2]
  split at translated
  case h_1 => cases translated
  case h_2 pa' _ =>
    show (pa'.getMut >>= _) = _
    rw [translated]
    rfl

/-- `sys_get_time` stores the two fields of the `TimeVal` at the address `translated_refmut`
gives and returns `0`, or fails as the translation does. -/
theorem sysGetTime_eq {token ts us : Nat} (m : Machine) :
    sysGetTime token ts us m = (translatedRefmut token m.mem ts).map fun pa =>
      (0, { m with
        mem := Foundation.storeLE (Foundation.storeLE m.mem pa.val 8 (us / 1000000)) (pa.val + 8) 8 (us % 1000000) }) := by
  unfold sysGetTime
  rw [Foundation.get_bind]
  cases translatedRefmut token m.mem ts <;> rfl

/-- The length of a slice. -/
def ByteSlice.length (s : ByteSlice) : Nat := s.hi - s.lo

/-- The bytes of a slice in physical memory. -/
def ByteSlice.bytes (mem : Nat → UInt8) (s : ByteSlice) : List UInt8 :=
  Foundation.readBytes mem (s.ppn.toPhysAddr.val + s.lo) (s.hi - s.lo)

/-- The byte the MMU reads at virtual address `va`, through the valid leaf entry of its page. -/
def PageTable.readVirt (pt : PageTable) (mem : Nat → UInt8) (va : Nat) : Option UInt8 :=
  (pt.mapping mem ⟨va / pageSize⟩).map fun pte => mem (pte.ppn.toPhysAddr.val + va % pageSize)

/-- The `count` bytes the MMU reads from virtual address `start` on. -/
def PageTable.readVirtRange (pt : PageTable) (mem : Nat → UInt8) (start count : Nat) : List (Option UInt8) :=
  (List.range count).map fun i => pt.readVirt mem (start + i)

/-- The number of pages that meet `[start, stop)`. -/
def pagesMeeting (start stop : Nat) : Nat :=
  if stop ≤ start then 0 else (stop - 1) / pageSize - start / pageSize + 1

section ByteBuffer

variable {pt : PageTable} {mem : Nat → UInt8}

theorem PageTable.readVirtRange_add (start a b : Nat) :
    pt.readVirtRange mem start (a + b) = pt.readVirtRange mem start a ++ pt.readVirtRange mem (start + a) b := by
  simp only [PageTable.readVirtRange, List.range_add, List.map_append, List.map_map]
  congr 1
  apply List.map_congr_left
  intro i _
  simp only [Function.comp_apply, Nat.add_assoc]

/-- Inside one mapped page the virtual bytes are the bytes of its frame. -/
theorem PageTable.readVirtRange_of_page {vpn : Nat} {pte : PageTableEntry} (mapped : pt.mapping mem ⟨vpn⟩ = some pte)
    {start count : Nat} (low : vpn * pageSize ≤ start) (high : start + count ≤ (vpn + 1) * pageSize) :
    (Foundation.readBytes mem (pte.ppn.toPhysAddr.val + start % pageSize) count).map some =
      pt.readVirtRange mem start count := by
  simp only [Foundation.readBytes, PageTable.readVirtRange, List.map_map]
  apply List.map_congr_left
  intro i member
  have below := List.mem_range.mp member
  have page : (start + i) / pageSize = vpn := by
    simp only [pageSize] at low high ⊢
    omega
  have offset : (start + i) % pageSize = start % pageSize + i := by
    simp only [pageSize] at low high ⊢
    omega
  rw [Function.comp_apply, PageTable.readVirt, page, mapped, Option.map_some, offset, Nat.add_assoc]

/-- The pages of `[start, stop)` are the page of `start` and then those of the rest. -/
theorem pagesMeeting_step {start next stop : Nat} (inside : start < stop)
    (next_eq : next = min ((start / pageSize + 1) * pageSize) stop) :
    pagesMeeting start stop = pagesMeeting next stop + 1 := by
  subst next_eq
  simp only [pagesMeeting]
  rw [if_neg (by omega)]
  by_cases last : stop ≤ min ((start / pageSize + 1) * pageSize) stop
  · rw [if_pos last]
    simp only [pageSize] at last ⊢
    omega
  · rw [if_neg last]
    simp only [pageSize] at last ⊢
    omega

/-- One pass of the loop below `TRAMPOLINE`: the slice of `start`'s frame up to `next`, the
next page boundary or `stop`, whichever comes first, and then the loop from `next`. -/
theorem translatedByteBufferLoop_cons {stop start next fuel : Nat} {pte : PageTableEntry}
    (low : stop ≤ trampoline) (inside : start < stop)
    (next_eq : next = min ((start / pageSize + 1) * pageSize) stop)
    (found : pt.mapping mem ⟨start / pageSize⟩ = some pte) :
    translatedByteBufferLoop pt mem stop (fuel + 1) start =
      (translatedByteBufferLoop pt mem stop fuel next).map
        (⟨pte.ppn, start % pageSize, next - start / pageSize * pageSize⟩ :: ·) := by
  have below : start / pageSize + 1 < 2 ^ 52 := by
    rw [trampoline_eq] at low
    simp only [pageSize] at low ⊢
    omega
  have boundary : (VirtPageNum.toVirtAddr ⟨wrappingAdd (⟨start⟩ : VirtAddr).floor.val 1⟩).val =
      (start / pageSize + 1) * pageSize := by
    have noWrap : wrappingAdd (⟨start⟩ : VirtAddr).floor.val 1 = start / pageSize + 1 :=
      wrappingAdd_of_lt (by show start / pageSize + 1 < 2 ^ 64; omega)
    rw [noWrap, VirtPageNum.toVirtAddr_val below]
  have after : start < next ∧ next ≤ (start / pageSize + 1) * pageSize := by
    simp only [next_eq, pageSize] at inside ⊢
    omega
  -- `end_va.page_offset() == 0` exactly when the slice runs to the end of the frame
  have sliceEnd : (if next % pageSize = 0 then pageSize else next % pageSize) =
      next - start / pageSize * pageSize := by
    by_cases aligned : next % pageSize = 0
    · rw [if_pos aligned]
      simp only [pageSize] at after aligned ⊢
      omega
    · rw [if_neg aligned]
      simp only [pageSize] at after aligned ⊢
      omega
  have slice_eq : (if (⟨next⟩ : VirtAddr).pageOffset = 0 then
        (⟨pte.ppn, (⟨start⟩ : VirtAddr).pageOffset, pageSize⟩ : ByteSlice)
      else ⟨pte.ppn, (⟨start⟩ : VirtAddr).pageOffset, (⟨next⟩ : VirtAddr).pageOffset⟩) =
      ⟨pte.ppn, start % pageSize, next - start / pageSize * pageSize⟩ := by
    simp only [VirtAddr.pageOffset_eq]
    by_cases aligned : next % pageSize = 0
    · rw [if_pos aligned, ← sliceEnd, if_pos aligned]
    · rw [if_neg aligned, ← sliceEnd, if_neg aligned]
  rw [translatedByteBufferLoop, if_pos inside]
  dsimp only
  rw [boundary, ← next_eq, show (⟨start⟩ : VirtAddr).floor = ⟨start / pageSize⟩ from rfl,
    PageTable.translate_of_mapping found]
  dsimp only
  rw [← slice_eq]

/-- The bytes of the slice of one pass are the virtual bytes from `start` up to `next`. -/
theorem ByteSlice.bytes_of_page {start next : Nat} {pte : PageTableEntry}
    (found : pt.mapping mem ⟨start / pageSize⟩ = some pte)
    (after : start < next ∧ next ≤ (start / pageSize + 1) * pageSize) :
    (ByteSlice.bytes mem ⟨pte.ppn, start % pageSize, next - start / pageSize * pageSize⟩).map some =
      pt.readVirtRange mem start (next - start) := by
  rw [ByteSlice.bytes, show next - start / pageSize * pageSize - start % pageSize = next - start by
    simp only [pageSize] at after ⊢; omega]
  exact PageTable.readVirtRange_of_page found (by simp only [pageSize]; omega) (by omega)

/-- The loop of `translated_byte_buffer` below `TRAMPOLINE`: from every start up to a mapped end,
with fuel for its pages, it cuts `[start, stop)` into one slice per page, each inside its frame,
whose bytes are the virtual bytes of the range; by induction on the fuel, one page per step. -/
theorem translatedByteBufferLoop_spec {stop : Nat} (low : stop ≤ trampoline) :
    ∀ {fuel start : Nat}, start ≤ stop → pagesMeeting start stop ≤ fuel →
      (∀ va, start ≤ va → va < stop → (pt.mapping mem ⟨va / pageSize⟩).isSome) →
      ∃ slices, translatedByteBufferLoop pt mem stop fuel start = .ok slices ∧
        (∀ s ∈ slices, s.lo ≤ s.hi ∧ s.hi ≤ pageSize) ∧
        (slices.map ByteSlice.length).sum = stop - start ∧
        (slices.flatMap (ByteSlice.bytes mem)).map some = pt.readVirtRange mem start (stop - start) ∧
        slices.length = pagesMeeting start stop
  | fuel, start, le, enough, mapped => by
      by_cases done : stop ≤ start
      · -- nothing is left: the loop stops, with or without fuel
        have same : stop - start = 0 := by omega
        have none : pagesMeeting start stop = 0 := by simp [pagesMeeting, done]
        have empty : translatedByteBufferLoop pt mem stop fuel start = .ok [] := by
          cases fuel with
          | zero => rfl
          | succ fuel => rw [translatedByteBufferLoop, if_neg (by omega)]
        refine ⟨[], empty, by simp, ?_, ?_, ?_⟩ <;> simp [same, none, PageTable.readVirtRange]
      · obtain ⟨fuel, rfl⟩ : ∃ rest, fuel = rest + 1 := ⟨fuel - 1, by
          have : pagesMeeting start stop ≠ 0 := by simp only [pagesMeeting, if_neg done]; omega
          omega⟩
        obtain ⟨pte, found⟩ := Option.isSome_iff_exists.mp (mapped start le_rfl (by omega))
        -- the page boundary after `start`, clipped to the end
        obtain ⟨next, next_eq⟩ : ∃ next, next = min ((start / pageSize + 1) * pageSize) stop := ⟨_, rfl⟩
        have after : start < next ∧ next ≤ stop ∧ next ≤ (start / pageSize + 1) * pageSize := by
          simp only [next_eq, pageSize] at done ⊢
          omega
        obtain ⟨rest, ran, inFrames, sum, bytes, count⟩ := translatedByteBufferLoop_spec low
          after.2.1 (show pagesMeeting next stop ≤ fuel by rw [pagesMeeting_step (by omega) next_eq] at enough; omega)
          (fun va low' high' => mapped va (by omega) high')
        have first := ByteSlice.bytes_of_page found ⟨after.1, after.2.2⟩
        refine ⟨_, by rw [translatedByteBufferLoop_cons low (by omega) next_eq found, ran]; rfl, ?_, ?_, ?_, ?_⟩
        · intro s member
          rcases List.mem_cons.mp member with rfl | later
          · dsimp only
            simp only [pageSize] at after ⊢
            omega
          · exact inFrames s later
        · rw [List.map_cons, List.sum_cons, sum]
          show next - start / pageSize * pageSize - start % pageSize + (stop - next) = stop - start
          simp only [pageSize] at after ⊢
          omega
        · rw [List.flatMap_cons, List.map_append, first, bytes,
            show stop - start = (next - start) + (stop - next) by omega, PageTable.readVirtRange_add,
            show start + (next - start) = next by omega]
        · rw [List.length_cons, count, pagesMeeting_step (by omega) next_eq]
termination_by fuel => fuel
decreasing_by all_goals omega

/-- `translated_byte_buffer(token, ptr, len)` below `TRAMPOLINE`: when every page of the range has
a valid leaf entry, it returns one slice per page of the range, each inside one frame, with
`len` bytes in all, which are the bytes at the virtual addresses `ptr`, …, `ptr + len - 1`. -/
theorem translatedByteBuffer_spec {token ptr len : Nat} (fits : ptr + len ≤ trampoline)
    (mapped : ∀ va, ptr ≤ va → va < ptr + len → ((PageTable.fromToken token).mapping mem ⟨va / pageSize⟩).isSome) :
    ∃ slices, translatedByteBuffer token mem ptr len = .ok slices ∧
      (∀ s ∈ slices, s.lo ≤ s.hi ∧ s.hi ≤ pageSize) ∧ (slices.map ByteSlice.length).sum = len ∧
      (slices.flatMap (ByteSlice.bytes mem)).map some = (PageTable.fromToken token).readVirtRange mem ptr len ∧
      slices.length = pagesMeeting ptr (ptr + len) := by
  have stop : wrappingAdd ptr len = ptr + len := wrappingAdd_of_fits fits
  have enough : pagesMeeting ptr (ptr + len) ≤ len / pageSize + 2 := by
    simp only [pagesMeeting, pageSize]
    split <;> omega
  obtain ⟨slices, ran, inFrames, sum, bytes, count⟩ :=
    translatedByteBufferLoop_spec fits (Nat.le_add_right ptr len)
      enough mapped
  rw [Nat.add_sub_cancel_left] at sum bytes
  exact ⟨slices, by rw [translatedByteBuffer, stop]; exact ran, inFrames, sum, bytes, count⟩

/-- In the last page of the address space `vpn.step()` is page `2 ^ 52`, whose address
`2 ^ 52 << 12` drops out of the word: `end_va` is `0`, so the slice runs to the end of the frame
and the loop goes on from address `0`. -/
theorem translatedByteBufferLoop_last_page {stop start fuel : Nat} {pte : PageTableEntry}
    (last : trampoline ≤ start) (inside : start < stop) (usize : stop < 2 ^ 64)
    (found : pt.mapping mem ⟨start / pageSize⟩ = some pte) :
    translatedByteBufferLoop pt mem stop (fuel + 1) start =
      (translatedByteBufferLoop pt mem stop fuel 0).map (⟨pte.ppn, start % pageSize, pageSize⟩ :: ·) := by
  have page : start / pageSize = 2 ^ 52 - 1 := by
    rw [trampoline_eq] at last
    simp only [pageSize]
    omega
  have wraps : (VirtPageNum.toVirtAddr ⟨wrappingAdd (⟨start⟩ : VirtAddr).floor.val 1⟩).val = 0 := by
    show (VirtPageNum.toVirtAddr ⟨wrappingAdd (start / pageSize) 1⟩).val = 0
    rw [page]
    decide
  rw [translatedByteBufferLoop, if_pos inside]
  dsimp only
  rw [wraps, Nat.zero_min, show (⟨start⟩ : VirtAddr).floor = ⟨start / pageSize⟩ from rfl,
    PageTable.translate_of_mapping found]
  dsimp only
  rw [show (⟨0⟩ : VirtAddr).pageOffset = 0 from rfl, if_pos rfl, VirtAddr.pageOffset_eq]

/-- `translated_byte_buffer(token, ptr, len)` of a nonempty range in the last page, which the
caller may name as long as `ptr + len` does not overflow: the first slice runs from `ptr` to the
end of its frame, more than `len` bytes, and the loop then starts again at address `0`. However
long the loop runs, it returns no list of slices with `len` bytes. -/
theorem translatedByteBuffer_runs_past_end {token ptr len : Nat} (last : trampoline ≤ ptr)
    (fits : ptr + len < 2 ^ 64) (nonempty : 0 < len)
    (mapped : ∀ va, ptr ≤ va → va < ptr + len → ((PageTable.fromToken token).mapping mem ⟨va / pageSize⟩).isSome) :
    ∃ pte : PageTableEntry,
      translatedByteBuffer token mem ptr len =
        (translatedByteBufferLoop (PageTable.fromToken token) mem (ptr + len) (len / pageSize + 1) 0).map
          (⟨pte.ppn, ptr % pageSize, pageSize⟩ :: ·) ∧
      len < pageSize - ptr % pageSize ∧
      ∀ fuel slices, translatedByteBufferLoop (PageTable.fromToken token) mem (ptr + len) fuel ptr = .ok slices →
        (slices.map ByteSlice.length).sum ≠ len := by
  obtain ⟨pte, found⟩ := Option.isSome_iff_exists.mp (mapped ptr le_rfl (by omega))
  have short : len < pageSize - ptr % pageSize := by
    rw [trampoline_eq] at last
    simp only [pageSize]
    omega
  refine ⟨pte, ?_, short, ?_⟩
  · rw [translatedByteBuffer, wrappingAdd_of_lt fits]
    exact translatedByteBufferLoop_last_page last (by omega) fits found
  · intro fuel slices ran
    cases fuel with
    | zero =>
        cases ran
        exact Nat.pos_iff_ne_zero.mp nonempty ∘ Eq.symm
    | succ fuel =>
        rw [translatedByteBufferLoop_last_page last (by omega) fits found] at ran
        cases rest : translatedByteBufferLoop (PageTable.fromToken token) mem (ptr + len) fuel 0 with
        | error e =>
            rw [rest] at ran
            cases ran
        | ok rest =>
            rw [rest] at ran
            cases ran
            -- the first slice alone is longer than the range
            rw [List.map_cons, List.sum_cons]
            show pageSize - ptr % pageSize + _ ≠ len
            omega

end ByteBuffer

namespace MemorySet

variable {strampoline : Nat} {ms : MemorySet} {m : Machine}

/-- The table the token names maps every page as the address space's own table does. -/
theorem Inv.mapping_token (inv : ms.Inv strampoline m) (v : VirtPageNum) :
    (PageTable.fromToken ms.token).mapping m.mem v = ms.pageTable.mapping m.mem v := by
  have wf := inv.table.wellFormed
  have sameRoot := PageTable.rootPpn_fromToken_token (wf.frames_lt _ wf.root_mem)
  unfold PageTable.mapping
  rw [token, PageTable.translate_eq_of_rootPpn sameRoot]

theorem Inv.mapping_token_trampoline (inv : ms.Inv strampoline m) :
    (PageTable.fromToken ms.token).mapping m.mem trampolineVpn = some (trampolineEntry strampoline) :=
  (inv.mapping_token trampolineVpn).trans inv.trampoline

/-- `translated_refmut(token, va)` of an address whose page the set maps to frame `ppn` is the
same offset in that frame, which `get_mut` refuses only at physical address zero; neither the
`V` nor the `U` bit of the entry is looked at. -/
theorem translatedRefmut_of_mapping (inv : ms.Inv strampoline m) {va : Nat} {ppn : PhysPageNum}
    {flags : PTEFlags} (below : ppn.val < memoryEnd / pageSize)
    (mapped : ms.pageTable.mapping m.mem ⟨va / pageSize⟩ = some (.new ppn flags)) :
    translatedRefmut ms.token m.mem va = (⟨ppn.val * pageSize + va % pageSize⟩ : PhysAddr).getMut := by
  have translated : (PageTable.fromToken ms.token).translate m.mem ⟨va / pageSize⟩ = some (.new ppn flags) :=
    PageTable.translate_of_mapping ((inv.mapping_token _).trans mapped)
  unfold translatedRefmut
  rw [PageTable.translateVa_eq, show (⟨va⟩ : VirtAddr).floor = ⟨va / pageSize⟩ from rfl, translated]
  simp only [Option.map_some, PageTableEntry.ppn_new (PageTable.frame_lt_of_alloc below),
    PhysPageNum.toPhysAddr_val_of_lt_end below, VirtAddr.pageOffset_eq]

theorem translatedRefmut_eq_of_mapping (inv : ms.Inv strampoline m) {va : Nat} {ppn : PhysPageNum}
    {flags : PTEFlags} (below : ppn.val < memoryEnd / pageSize)
    (mapped : ms.pageTable.mapping m.mem ⟨va / pageSize⟩ = some (.new ppn flags))
    (nonnull : ppn.val * pageSize + va % pageSize ≠ 0) :
    translatedRefmut ms.token m.mem va = .ok ⟨ppn.val * pageSize + va % pageSize⟩ := by
  rw [translatedRefmut_of_mapping inv below mapped, PhysAddr.getMut, if_neg nonnull]

/-- `translated_str(token, va)` of a string that lies, with its terminating zero, inside one page
the set maps to frame `ppn` is the bytes before the zero, read straight out of the frame, when
they are ASCII. The induction is on the string, one byte of `translated_str`'s loop per character. -/
theorem translatedStr_of_page (inv : ms.Inv strampoline m) {ppn : PhysPageNum} {flags : PTEFlags}
    (below : ppn.val < memoryEnd / pageSize) (name : List UInt8) :
    ∀ va fuel, ms.pageTable.mapping m.mem ⟨va / pageSize⟩ = some (.new ppn flags) →
      ppn.val * pageSize + va % pageSize ≠ 0 → va % pageSize + name.length < pageSize →
      va + name.length < 2 ^ 64 → (∀ b ∈ name, b ≠ 0 ∧ b < 0x80) →
      Foundation.readBytes m.mem (ppn.val * pageSize + va % pageSize) (name.length + 1) = name ++ [0] →
      name.length < fuel → translatedStr ms.token m.mem fuel va = .ok name := by
  induction name with
  | nil =>
      intro va fuel mapped nonnull _ _ _ stored enough
      obtain ⟨fuel, rfl⟩ : ∃ k, fuel = k + 1 := ⟨fuel - 1, by simp only [List.length_nil] at enough; omega⟩
      have zero : m.mem (ppn.val * pageSize + va % pageSize) = 0 := by
        simpa [Foundation.readBytes] using stored
      rw [translatedStr_succ (translatedRefmut_eq_of_mapping inv below mapped nonnull)]
      exact if_pos zero
  | cons b rest ih =>
      intro va fuel mapped nonnull fits usize noNul stored enough
      obtain ⟨fuel, rfl⟩ : ∃ k, fuel = k + 1 :=
        ⟨fuel - 1, by simp only [List.length_cons] at enough; omega⟩
      -- the first byte is `b`, and the rest of the string follows it in the frame
      rw [List.length_cons, Foundation.readBytes_succ, List.cons_append, List.cons.injEq] at stored
      obtain ⟨head, tail⟩ := stored
      rw [List.length_cons] at fits usize enough
      have samePage : (va + 1) / pageSize = va / pageSize := by
        unfold pageSize at fits ⊢
        omega
      have offset : (va + 1) % pageSize = va % pageSize + 1 := by
        unfold pageSize at fits ⊢
        omega
      have rest' : translatedStr ms.token m.mem fuel (va + 1) = .ok rest := by
        refine ih (va + 1) fuel (samePage ▸ mapped) (by rw [offset]; omega) (by omega) (by omega)
          (fun c member => noNul c (List.mem_cons_of_mem b member)) ?_ (by omega)
        rw [offset, ← Nat.add_assoc]
        exact tail
      rw [translatedStr_succ (translatedRefmut_eq_of_mapping inv below mapped nonnull), head,
        if_neg (noNul b List.mem_cons_self).1, wrappingAdd_of_lt (by omega), rest',
        charBytes_of_lt (noNul b List.mem_cons_self).2]
      rfl

/-- In an address space that keeps the invariant, `translated_refmut` of `TRAMPOLINE` is the
address of the trampoline code, whose page is mapped without `U`. -/
theorem translatedRefmut_trampoline (inv : ms.Inv strampoline m) (aligned : strampoline % pageSize = 0)
    (inside : 0 < strampoline ∧ strampoline < memoryEnd) :
    translatedRefmut ms.token m.mem trampoline = .ok ⟨strampoline⟩ := by
  have below : strampoline / pageSize < memoryEnd / pageSize := by
    simp only [memoryEnd, pageSize] at inside ⊢
    omega
  have addr : strampoline / pageSize * pageSize + trampoline % pageSize = strampoline := by
    rw [trampoline_eq]
    simp only [pageSize] at aligned ⊢
    omega
  have mapped : ms.pageTable.mapping m.mem ⟨trampoline / pageSize⟩ =
      some (.new ⟨strampoline / pageSize⟩ (PTEFlags.R ||| PTEFlags.X ||| PTEFlags.V)) :=
    inv.trampoline
  rw [translatedRefmut_of_mapping inv below mapped, addr, PhysAddr.getMut,
    if_neg (Nat.pos_iff_ne_zero.mp inside.1)]

/-- `sys_get_time` with its pointer at `TRAP_CONTEXT`, in an address space that keeps the
invariant and holds the trap-context area `from_elf` pushes. The page is mapped without `U` to a
frame the set owns below `MEMORY_END`, which `KERNEL_SPACE` maps `R | W` to itself; yet the call
stores the `TimeVal` over the first sixteen bytes of that frame, the first two registers of the
task's `TrapContext`, and returns `0`. Only a frame at physical page zero would make `get_mut`
panic. -/
theorem sysGetTime_writes_trapContext (inv : ms.Inv strampoline m)
    (trapArea : ∃ area ∈ ms.areas, trapContextVpn ∈ area.vpnRange.vpns ∧
      area.mapPerm = MapPermission.R ||| MapPermission.W) (us : Nat) :
    ∃ ppn ∈ ms.frames, ppn.val < memoryEnd / pageSize ∧
      (∃ pte, ms.pageTable.mapping m.mem trapContextVpn = some pte ∧ pte.ppn = ppn ∧
        pte.flags &&& PTEFlags.U = PTEFlags.empty) ∧
      sysGetTime ms.token trapContext us m =
        if ppn.val = 0 then .error .nullPointer
        else .ok (0, { m with
          mem := Foundation.storeLE (Foundation.storeLE m.mem (ppn.val * pageSize) 8 (us / 1000000))
            (ppn.val * pageSize + 8) 8 (us % 1000000) }) := by
  obtain ⟨area, member, page, perm⟩ := trapArea
  -- the invariant backs the page by the frame of the area's tracker, with the area's permission
  obtain ⟨-, keys⟩ := inv.framed area member
  obtain ⟨entry, stored, first⟩ : ∃ entry ∈ area.dataFrames, entry.1 = trapContextVpn := by
    rw [← keys] at page
    exact List.mem_map.mp page
  have mapped := inv.entries area member entry stored
  rw [first] at mapped
  have owned : entry.2 ∈ ms.frames :=
    List.mem_append_right _ (List.mem_flatMap.mpr ⟨area, member, List.mem_map_of_mem stored⟩)
  have below := inv.table.machine.lt_of_allocated (inv.frames_allocated _ owned)
  have offset : trapContext % pageSize = 0 := by
    rw [trapContext_eq]
    decide
  refine ⟨entry.2, owned, below,
    ⟨_, mapped, PageTableEntry.ppn_new (PageTable.frame_lt_of_alloc below) _, ?_⟩, ?_⟩
  · rw [MapArea.entry, PageTableEntry.flags_new, perm]
    decide
  · rw [sysGetTime_eq, translatedRefmut_of_mapping inv below mapped, offset, Nat.add_zero, PhysAddr.getMut]
    by_cases zero : entry.2.val = 0
    · rw [if_pos (by rw [zero, Nat.zero_mul]), if_pos zero]
      rfl
    · rw [if_neg (by simp only [pageSize]; omega), if_neg zero]
      rfl

/-- The store on the address space built right after boot, with its trap-context area, at one
second and one microsecond. -/
theorem sysGetTime_writes_trapContext_after_boot :
    ∃ (ms : MemorySet) (m : Machine), ms.Inv 0x80201000 m ∧
      (∃ area ∈ ms.areas, trapContextVpn ∈ area.vpnRange.vpns ∧
        area.mapPerm = MapPermission.R ||| MapPermission.W) ∧
      ∃ ppn ∈ ms.frames, ppn.val < memoryEnd / pageSize ∧
        (∃ pte, ms.pageTable.mapping m.mem trapContextVpn = some pte ∧ pte.ppn = ppn ∧
          pte.flags &&& PTEFlags.U = PTEFlags.empty) ∧
        sysGetTime ms.token trapContext 1000001 m =
          if ppn.val = 0 then .error .nullPointer
          else .ok (0, { m with
            mem := Foundation.storeLE (Foundation.storeLE m.mem (ppn.val * pageSize) 8 (1000001 / 1000000))
              (ppn.val * pageSize + 8) 8 (1000001 % 1000000) }) := by
  obtain ⟨ms, m, inv, trapArea, -⟩ := exists_trapContext_after_boot
  exact ⟨ms, m, inv, trapArea, sysGetTime_writes_trapContext inv trapArea 1000001⟩

/-- The one-byte buffer at `TRAMPOLINE` in the address space built right after boot. -/
theorem translatedByteBuffer_runs_past_end_after_boot :
    ∃ (ms : MemorySet) (m : Machine), trampoline ≤ trampoline ∧ trampoline + 1 < 2 ^ 64 ∧ 0 < 1 ∧
      (∀ va, trampoline ≤ va → va < trampoline + 1 →
        ((PageTable.fromToken ms.token).mapping m.mem ⟨va / pageSize⟩).isSome) ∧
      ∃ pte : PageTableEntry,
        translatedByteBuffer ms.token m.mem trampoline 1 =
          (translatedByteBufferLoop (PageTable.fromToken ms.token) m.mem (trampoline + 1) (1 / pageSize + 1) 0).map
            (⟨pte.ppn, trampoline % pageSize, pageSize⟩ :: ·) ∧
        1 < pageSize - trampoline % pageSize ∧
        ∀ fuel slices, translatedByteBufferLoop (PageTable.fromToken ms.token) m.mem (trampoline + 1) fuel trampoline =
          .ok slices → (slices.map ByteSlice.length).sum ≠ 1 := by
  have below : 0x80400000 ≤ memoryEnd := by decide
  obtain ⟨ms, m, inv, -, -⟩ := exists_inv (bootMachine_inv (fun _ => 0) below)
    (show 0x80201000 % pageSize = 0 by decide) (by rw [bootMachine_freeFrames _ below]; decide)
  have usize : trampoline + 1 < 2 ^ 64 := by
    rw [trampoline_eq]
    decide
  have mapped : ∀ va, trampoline ≤ va → va < trampoline + 1 →
      ((PageTable.fromToken ms.token).mapping m.mem ⟨va / pageSize⟩).isSome := by
    intro va low high
    obtain rfl : va = trampoline := by omega
    show ((PageTable.fromToken ms.token).mapping m.mem trampolineVpn).isSome
    rw [inv.mapping_token_trampoline]
    rfl
  exact ⟨ms, m, le_rfl, usize, Nat.one_pos, mapped,
    translatedByteBuffer_runs_past_end le_rfl usize Nat.one_pos mapped⟩

end MemorySet

end RCore
