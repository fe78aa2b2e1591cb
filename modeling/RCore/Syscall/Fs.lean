import RCore.Mm.UserBuffer

/-! # `sys_write` on the kernel console

`syscall/fs.rs`. `sys_write(FD_STDOUT, buf, len)` cuts the user buffer with
`translated_byte_buffer` and prints each slice with `print!("{}",
core::str::from_utf8(buffer).unwrap())`; the kernel's `Stdout::write_str` passes each
character to `console_putchar` as its code point. The console output is therefore the list of
code points printed, and a slice that is not UTF-8 by itself panics the kernel after the slices
before it were printed (`RCore.printBuffers_cons_of_not_valid`), even when the whole buffer is
UTF-8: the slices end at page boundaries, not at character boundaries
(`RCore.sysWrite_panics_on_split_char`).
-/

namespace RCore

open Foundation

/-- `FD_STDOUT`. -/
def fdStdout : Nat := 1

/-- The loop `for buffer in buffers` of `sys_write`: the code points printed, and how it ends. -/
def printBuffers : List (List UInt8) → List Nat × Except Panic Unit
  | [] => ([], .ok ())
  | buffer :: rest =>
      match Utf8.fromUtf8 buffer with
      | .error e => ([], .error (.utf8Error e))
      | .ok () => (Utf8.chars buffer ++ (printBuffers rest).1, (printBuffers rest).2)

/-- `sys_write(fd, buf, len)` with the caller's `token`: the code points it prints on the
console, and what it returns. -/
def sysWrite (token : Nat) (mem : Nat → UInt8) (fd buf len : Nat) : List Nat × Except Panic Int :=
  if fd = fdStdout then
    match translatedByteBuffer token mem buf len with
    | .error e => ([], .error e)
    | .ok buffers =>
        let printed := printBuffers (buffers.map (ByteSlice.bytes mem))
        (printed.1, printed.2.map fun _ => asIsize len)
  else ([], .error .unsupportedFdInSysWrite)

section Print

variable {buffer : List UInt8} {buffers : List (List UInt8)}

/-- Slices that are each UTF-8 print their code points in turn. -/
theorem printBuffers_of_valid : ∀ {buffers : List (List UInt8)}, (∀ b ∈ buffers, Utf8.Valid b) →
    printBuffers buffers = (buffers.flatMap Utf8.chars, .ok ())
  | [], _ => rfl
  | buffer :: rest, valid => by
      have head := (Utf8.fromUtf8_eq_ok_iff buffer).mpr (valid buffer List.mem_cons_self)
      have tail := printBuffers_of_valid fun b member => valid b (List.mem_cons_of_mem _ member)
      rw [printBuffers, head, tail, List.flatMap_cons]

/-- A slice that is not UTF-8 panics `from_utf8(..).unwrap()`: nothing of it is printed. -/
theorem printBuffers_cons_of_not_valid (invalid : ¬ Utf8.Valid buffer) :
    ∃ e, printBuffers (buffer :: buffers) = ([], .error (.utf8Error e)) := by
  cases checked : Utf8.fromUtf8 buffer with
  | error e => exact ⟨e, by rw [printBuffers, checked]⟩
  | ok u => exact absurd ((Utf8.fromUtf8_eq_ok_iff buffer).mp checked) invalid

end Print

section Write

variable {mem : Nat → UInt8} {token ptr len : Nat} {bytes : List UInt8}

/-- The virtual bytes of a prefix of a range are the prefix of its virtual bytes. -/
theorem PageTable.readVirtRange_take {pt : PageTable} {count : Nat}
    (read : pt.readVirtRange mem ptr len = bytes.map some) (short : count ≤ len) :
    pt.readVirtRange mem ptr count = (bytes.take count).map some := by
  have split : pt.readVirtRange mem ptr (count + (len - count)) =
      pt.readVirtRange mem ptr count ++ pt.readVirtRange mem (ptr + count) (len - count) :=
    PageTable.readVirtRange_add ptr count (len - count)
  rw [Nat.add_sub_cancel' short, read] at split
  have length : (pt.readVirtRange mem ptr count).length = count := by
    simp [PageTable.readVirtRange]
  rw [List.map_take, split, List.take_left' length]

/-- `sys_write(FD_STDOUT, ptr, len)` below `TRAMPOLINE`, on mapped pages whose virtual bytes
are `bytes`: when every slice `translated_byte_buffer` cuts is UTF-8, it prints the code points
of `bytes` and returns `len`. -/
theorem sysWrite_of_valid_slices (fits : ptr + len ≤ trampoline)
    (mapped : ∀ va, ptr ≤ va → va < ptr + len → ((PageTable.fromToken token).mapping mem ⟨va / pageSize⟩).isSome)
    (read : (PageTable.fromToken token).readVirtRange mem ptr len = bytes.map some)
    (valid : ∀ slices, translatedByteBuffer token mem ptr len = .ok slices → ∀ s ∈ slices, Utf8.Valid (s.bytes mem)) :
    sysWrite token mem fdStdout ptr len = (Utf8.chars bytes, .ok (asIsize len)) := by
  obtain ⟨slices, ran, -, -, contents, -⟩ := translatedByteBuffer_spec fits mapped
  have whole : slices.flatMap (ByteSlice.bytes mem) = bytes := by
    apply List.map_injective_iff.mpr fun _ _ same => Option.some.inj same
    rw [contents, read]
  have pieces : ∀ b ∈ slices.map (ByteSlice.bytes mem), Utf8.Valid b := by
    intro b member
    obtain ⟨s, inSlices, rfl⟩ := List.mem_map.mp member
    exact valid slices ran s inSlices
  rw [sysWrite, if_pos rfl, ran]
  dsimp only
  rw [printBuffers_of_valid pieces, ← (Utf8.valid_flatten pieces).2, ← List.flatMap_def, whole]
  rfl

/-- `sys_write(FD_STDOUT, ptr, len)` below `TRAMPOLINE`, on mapped pages whose virtual bytes
are `bytes`: when the part of `bytes` in the first page is not UTF-8 by itself, as when a
character of a UTF-8 buffer starts in that page and ends in the next, the kernel panics in
`from_utf8(..).unwrap()` before printing anything. -/
theorem sysWrite_panics_on_split_char (fits : ptr + len ≤ trampoline)
    (mapped : ∀ va, ptr ≤ va → va < ptr + len → ((PageTable.fromToken token).mapping mem ⟨va / pageSize⟩).isSome)
    (read : (PageTable.fromToken token).readVirtRange mem ptr len = bytes.map some)
    (split : ¬ Utf8.Valid (bytes.take (pageSize - ptr % pageSize))) :
    ∃ e, sysWrite token mem fdStdout ptr len = ([], .error (.utf8Error e)) := by
  have length : bytes.length = len := by
    simpa [PageTable.readVirtRange] using (congrArg List.length read).symm
  have nonempty : 0 < len := by
    refine Nat.pos_of_ne_zero fun empty => split ?_
    rw [List.length_eq_zero_iff.mp (length.trans empty), List.take_nil]
    exact Utf8.valid_nil
  obtain ⟨slices, ran, -, -, -, count⟩ := translatedByteBuffer_spec fits mapped
  obtain ⟨pte, found⟩ := Option.isSome_iff_exists.mp (mapped ptr le_rfl (by omega))
  obtain ⟨next, next_eq⟩ : ∃ next, next = min ((ptr / pageSize + 1) * pageSize) (ptr + len) := ⟨_, rfl⟩
  have after : ptr < next ∧ next ≤ (ptr / pageSize + 1) * pageSize := by
    simp only [next_eq, pageSize] at nonempty ⊢
    omega
  -- the first slice holds the first `next - ptr` bytes, all of the first page's part
  have cut : next - ptr = min (pageSize - ptr % pageSize) len := by
    simp only [next_eq, pageSize]
    omega
  have first : ByteSlice.bytes mem ⟨pte.ppn, ptr % pageSize, next - ptr / pageSize * pageSize⟩ =
      bytes.take (pageSize - ptr % pageSize) := by
    apply List.map_injective_iff.mpr fun _ _ same => Option.some.inj same
    rw [ByteSlice.bytes_of_page found after, PageTable.readVirtRange_take read (by omega), cut,
      ← List.take_take, List.take_of_length_le (by omega : bytes.length ≤ len)]
  have loop : translatedByteBuffer token mem ptr len =
      (translatedByteBufferLoop (PageTable.fromToken token) mem (ptr + len) (len / pageSize + 1) next).map
        (⟨pte.ppn, ptr % pageSize, next - ptr / pageSize * pageSize⟩ :: ·) := by
    rw [translatedByteBuffer, wrappingAdd_of_fits fits]
    exact translatedByteBufferLoop_cons fits (by omega) next_eq found
  rw [loop] at ran
  cases tail : translatedByteBufferLoop (PageTable.fromToken token) mem (ptr + len) (len / pageSize + 1) next with
  | error e =>
      rw [tail] at ran
      cases ran
  | ok rest =>
      obtain ⟨e, printed⟩ : ∃ e, printBuffers (ByteSlice.bytes mem ⟨pte.ppn, ptr % pageSize,
          next - ptr / pageSize * pageSize⟩ :: rest.map (ByteSlice.bytes mem)) = ([], .error (.utf8Error e)) :=
        printBuffers_cons_of_not_valid (first ▸ split)
      refine ⟨e, ?_⟩
      rw [sysWrite, if_pos rfl, loop, tail]
      simp only [Except.map, List.map_cons, printed]

/-- `é`, the bytes `0xC3 0xA9`, written at the end of user page `0` and the start of page `1`,
which frames `4` and `5` hold; the root is frame `1` and the nodes below it frames `2` and `3`. -/
theorem sysWrite_panics_on_split_char_at_page_end :
    ∃ (token : Nat) (mem : Nat → UInt8), 4095 + 2 ≤ trampoline ∧
      (∀ va, 4095 ≤ va → va < 4095 + 2 → ((PageTable.fromToken token).mapping mem ⟨va / pageSize⟩).isSome) ∧
      (PageTable.fromToken token).readVirtRange mem 4095 2 = [0xC3, 0xA9].map some ∧
      Utf8.Valid [0xC3, 0xA9] ∧ ¬ Utf8.Valid ([0xC3, 0xA9].take (pageSize - 4095 % pageSize)) ∧
      ∃ e, sysWrite token mem fdStdout 4095 2 = ([], .error (.utf8Error e)) := by
  let table := writePte (writePte (writePte (writePte (fun _ => 0)
      ⟨1⟩ 0 (PageTableEntry.new ⟨2⟩ PTEFlags.V)) ⟨2⟩ 0 (PageTableEntry.new ⟨3⟩ PTEFlags.V))
      ⟨3⟩ 0 (PageTableEntry.new ⟨4⟩ (PTEFlags.V ||| PTEFlags.R ||| PTEFlags.U)))
      ⟨3⟩ 1 (PageTableEntry.new ⟨5⟩ (PTEFlags.V ||| PTEFlags.R ||| PTEFlags.U))
  let mem : Nat → UInt8 := fun a =>
    if a = 4 * 4096 + 4095 then 0xC3 else if a = 5 * 4096 then 0xA9 else table a
  have fits : 4095 + 2 ≤ trampoline := by
    rw [trampoline_eq]
    decide
  have mapped : ∀ va, 4095 ≤ va → va < 4095 + 2 →
      ((PageTable.fromToken (8 <<< 60 ||| 1)).mapping mem ⟨va / pageSize⟩).isSome := by
    intro va low high
    obtain rfl | rfl : va = 4095 ∨ va = 4096 := by omega
    · decide
    · decide
  have read : (PageTable.fromToken (8 <<< 60 ||| 1)).readVirtRange mem 4095 2 = [0xC3, 0xA9].map some := by
    decide
  have split : ¬ Utf8.Valid ([0xC3, 0xA9].take (pageSize - 4095 % pageSize)) := by decide
  exact ⟨8 <<< 60 ||| 1, mem, fits, mapped, read, by decide, split,
    sysWrite_panics_on_split_char fits mapped read split⟩

end Write

end RCore
