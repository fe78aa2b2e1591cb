import RCore.Foundation.Scatter
import RCore.EasyFs.DiskInodeSize

/-! # An inode is an array of bytes

`DiskInode::read_at` and `DiskInode::write_at` of `easy-fs/src/layout.rs`, on an inode whose
blocks are laid out as `increase_size` leaves them (`RCore.EasyFs.DiskInode.Sound`). Byte `i`
of the file is byte `i % 512` of data block `i / 512`, the block `get_block_id` finds
(`RCore.EasyFs.DiskInode.blockIdOf`), and the file is its `size` bytes read that way
(`RCore.EasyFs.DiskInode.content`).

`read_at(offset, buf)` returns the contents from `offset`, as many bytes as `buf` holds and the
file has, and their count (`RCore.EasyFs.DiskInode.readAt_eq`). `write_at(offset, buf)` at an
offset inside the file writes as much of `buf` as fits before the end, changes no other byte of
the device and keeps the layout (`RCore.EasyFs.DiskInode.writeAt_spec`); reading the range back
gives the bytes written. Both loops go block by block, each step over a run of addresses that the
map of the file covers without a gap, so that `Foundation.readBytes_eq_gather` and
`Foundation.gather_writeBytes` do the work of a step.
-/

namespace RCore

namespace EasyFs

namespace DiskInode

/-- The block `get_block_id(j)` finds for data block `j` on the device `d`. -/
def blockIdOf (inode : DiskInode) (d : Disk) (j : Nat) : Nat :=
  if j < inodeDirectCount then inode.direct.getD j 0
  else if j < indirect1Bound then entryOf d inode.indirect1 (j - inodeDirectCount)
  else
    let last := j - indirect1Bound
    entryOf d (entryOf d inode.indirect2 (last / inodeIndirect1Count)) (last % inodeIndirect1Count)

/-- The device address of byte `i` of the file. -/
def byteAddrOf (inode : DiskInode) (d : Disk) (i : Nat) : Nat :=
  byteAddr (inode.blockIdOf d (i / blockSz)) (i % blockSz)

/-- The `size` bytes of the file. -/
def content (inode : DiskInode) (d : Disk) : List UInt8 :=
  Foundation.gather d.bytes (inode.byteAddrOf d) inode.size

/-- The address of byte `i` of a file whose ids, in slot order, are `seq`. -/
def dataAddr (seq : List Nat) (i : Nat) : Nat :=
  byteAddr (seq.getD (dataSlot (i / blockSz)) 0) (i % blockSz)

/-- An inode whose ids `seq` sit at their slots, are distinct `u32` blocks of the device and are
the `total_blocks(size)` its size asks for, with a size within `INDIRECT2_BOUND` blocks. -/
structure Sound (inode : DiskInode) (d : Disk) (seq : List Nat) : Prop where
  layout : Layout inode d seq
  nodup : seq.Nodup
  onDevice : ∀ id ∈ seq, id < d.blocks
  small : ∀ id ∈ seq, id < 2 ^ 32
  counted : seq.length = totalBlocks inode.size
  bounded : inode.size ≤ indirect2Bound * blockSz

variable {inode : DiskInode} {d d' : Disk} {seq : List Nat} {i j : Nat}

theorem readLE_eq_ok {blockId offset width value : Nat} (ran : readLE blockId offset width d = .ok (value, d')) :
    value = Foundation.loadLE d.bytes (byteAddr blockId offset) width ∧ d' = d := by
  by_cases inside : blockId < d.blocks
  · rw [readLE_of_lt inside] at ran
    cases ran
    exact ⟨rfl, rfl⟩
  · unfold readLE at ran
    rw [Foundation.bind_of_error (checkBlock_of_le (Nat.le_of_not_lt inside))] at ran
    cases ran

/-- What `get_block_id(j)` returns when it returns. -/
theorem getBlockId_eq_ok {id : Nat} (ran : inode.getBlockId j d = .ok (id, d')) :
    id = inode.blockIdOf d j ∧ d' = d := by
  unfold getBlockId at ran
  unfold blockIdOf
  by_cases inDirect : j < inodeDirectCount
  · rw [if_pos inDirect] at ran ⊢
    cases ran
    exact ⟨rfl, rfl⟩
  rw [if_neg inDirect] at ran ⊢
  by_cases inIndirect1 : j < indirect1Bound
  · rw [if_pos inIndirect1] at ran ⊢
    exact readLE_eq_ok ran
  rw [if_neg inIndirect1] at ran ⊢
  -- `indirect2` is loaded and the entry checked before the two reads
  obtain ⟨_, d₁, present, afterBlock⟩ := Foundation.bind_eq_ok.mp ran
  obtain ⟨-, rfl⟩ := checkBlock_eq_ok present
  obtain ⟨_, d₂, inside, afterIndex⟩ := Foundation.bind_eq_ok.mp afterBlock
  obtain ⟨-, rfl⟩ := checkIndex_eq_ok inside
  obtain ⟨indirect1, d₃, first, second⟩ := Foundation.bind_eq_ok.mp afterIndex
  obtain ⟨rfl, rfl⟩ := readLE_eq_ok first
  exact readLE_eq_ok second

theorem div_lt_dataBlocksOf {size : Nat} (inside : i < size) : i / blockSz < dataBlocksOf size := by
  unfold dataBlocksOf blockSz
  omega

theorem byteAddr_inj {b b' k k' : Nat} (small : k < blockSz) (small' : k' < blockSz)
    (same : byteAddr b k = byteAddr b' k') : b = b' ∧ k = k' := by
  unfold byteAddr blockSz at *
  omega

/-- A run inside one block is a run of addresses. -/
theorem dataAddr_add {start k : Nat} (within : start % blockSz + k < blockSz) :
    dataAddr seq (start + k) = dataAddr seq start + k := by
  have sameBlock : (start + k) / blockSz = start / blockSz := by
    unfold blockSz at *
    omega
  have offset : (start + k) % blockSz = start % blockSz + k := by
    unfold blockSz at *
    omega
  unfold dataAddr byteAddr
  rw [sameBlock, offset, Nat.add_assoc]

/-- The layout reads the device only through entries of blocks at slots that hold no data
block. -/
theorem Layout.of_entries (layout : Layout inode d seq)
    (same : ∀ s < seq.length, (∀ j, dataSlot j ≠ s) → ∀ index < inodeIndirect1Count,
      entryOf d' (seq.getD s 0) index = entryOf d (seq.getD s 0) index) : Layout inode d' seq where
  direct := layout.direct
  indirect1 := layout.indirect1
  entries1 j inside past := by
    rw [← layout.entries1 j inside past, layout.indirect1]
    exact same _ (by omega) (fun k => (dataSlot_ne_index k 0).1) j inside
  indirect2 := layout.indirect2
  entries2 a inside past := by
    rw [← layout.entries2 a inside past, layout.indirect2]
    exact same _ (Nat.lt_trans (indirect2Slot_lt a) past) (fun k => (dataSlot_ne_index k 0).2.1) a inside
  level2 a inside b inside' past := by
    rw [← layout.level2 a inside b inside' past]
    exact same _ (by omega) (fun k => (dataSlot_ne_index k a).2.2) b inside'

namespace Sound

theorem dataSlot_lt (sound : Sound inode d seq) (inside : j < inode.dataBlocks) : dataSlot j < seq.length := by
  rw [sound.counted, totalBlocks_eq]
  exact DiskInode.dataSlot_lt inside

theorem getBlockId (sound : Sound inode d seq) (inside : j < inode.dataBlocks) :
    inode.getBlockId j d = .ok (seq.getD (dataSlot j) 0, d) :=
  getBlockId_of_layout sound.layout sound.onDevice (sound.dataSlot_lt inside)
    (Nat.lt_of_lt_of_le inside (dataBlocksOf_le sound.bounded))

theorem blockIdOf_eq (sound : Sound inode d seq) (inside : j < inode.dataBlocks) :
    inode.blockIdOf d j = seq.getD (dataSlot j) 0 :=
  (getBlockId_eq_ok (sound.getBlockId inside)).1.symm

theorem byteAddrOf_eq (sound : Sound inode d seq) (inside : i < inode.size) :
    inode.byteAddrOf d i = dataAddr seq i := by
  rw [byteAddrOf, sound.blockIdOf_eq (div_lt_dataBlocksOf inside), dataAddr]

theorem content_eq (sound : Sound inode d seq) : inode.content d = Foundation.gather d.bytes (dataAddr seq) inode.size :=
  Foundation.gather_congr fun _ inside => by rw [sound.byteAddrOf_eq inside]

/-- Distinct bytes of the file lie at distinct addresses. -/
theorem dataAddr_injective (sound : Sound inode d seq) :
    ∀ i < inode.size, ∀ j < inode.size, dataAddr seq i = dataAddr seq j → i = j := by
  intro i inside j inside' same
  obtain ⟨blocks, offsets⟩ := byteAddr_inj (Nat.mod_lt _ (by decide)) (Nat.mod_lt _ (by decide)) same
  have counted : seq.length = usedSlots inode.dataBlocks := sound.counted.trans (totalBlocks_eq _)
  have sameBlock := dataId_injective sound.nodup counted (div_lt_dataBlocksOf inside)
    (div_lt_dataBlocksOf inside') blocks
  unfold blockSz at sameBlock offsets
  omega

/-- The layout reads only entries of index blocks, and no byte of the file lies in one: a device
that differs only in bytes of the file keeps it. -/
theorem of_frame (sound : Sound inode d seq) (sized : d'.blocks = d.blocks)
    (frame : ∀ a, (∀ i < inode.size, a ≠ dataAddr seq i) → d'.bytes a = d.bytes a) : Sound inode d' seq where
  layout := sound.layout.of_entries fun s inside notData index small => by
    unfold entryOf
    refine Foundation.loadLE_congr fun a low high => frame a fun i inside' hit => ?_
    -- the address lies in block `seq[s]` and in the block of byte `i`, which holds data
    have data := sound.dataSlot_lt (div_lt_dataBlocksOf inside')
    have sameBlock : seq.getD s 0 = seq.getD (dataSlot (i / blockSz)) 0 := by
      unfold dataAddr byteAddr inodeIndirect1Count blockSz at *
      omega
    exact getD_ne sound.nodup inside data (notData (i / blockSz)).symm sameBlock
  nodup := sound.nodup
  onDevice id member := sized ▸ sound.onDevice id member
  small := sound.small
  counted := sound.counted
  bounded := sound.bounded

end Sound

/-- The bytes from `start` to the end of its block, or to `stop` before that, lie at one run of
addresses. -/
theorem dataAddr_chunk {start stop k : Nat} (inside : k < min ((start / blockSz + 1) * blockSz) stop - start) :
    dataAddr seq (start + k) = byteAddr (seq.getD (dataSlot (start / blockSz)) 0) (start % blockSz) + k :=
  dataAddr_add (by unfold blockSz at *; omega)

theorem nextBlock_div (start : Nat) : (start / blockSz + 1) * blockSz / blockSz = start / blockSz + 1 :=
  Nat.mul_div_cancel _ (by decide)

section Loops

variable {stop : Nat}

/-- The loop of `read_at` from `start`, with fuel for the blocks up to `stop`, reads the contents
from `start` to `stop`; by induction on the fuel, one block a step. -/
theorem readAtLoop_eq (sound : Sound inode d seq) (within : stop ≤ inode.size) :
    ∀ fuel start readSize, start < stop → (stop - 1) / blockSz < start / blockSz + fuel →
      inode.readAtLoop stop fuel start (start / blockSz) readSize d =
        .ok ((((inode.content d).drop start).take (stop - start), readSize + (stop - start)), d)
  | 0, start, _, before, enough => absurd enough (Nat.not_lt.mpr (Nat.div_le_div_right (by omega)))
  | fuel + 1, start, readSize, before, enough => by
      have inside : start / blockSz < inode.dataBlocks := div_lt_dataBlocksOf (by omega)
      have bytes : Foundation.readBytes d.bytes (byteAddr (seq.getD (dataSlot (start / blockSz)) 0) (start % blockSz))
          (min ((start / blockSz + 1) * blockSz) stop - start) =
          ((inode.content d).drop start).take (min ((start / blockSz + 1) * blockSz) stop - start) := by
        rw [sound.content_eq]
        exact Foundation.readBytes_eq_gather (fun k short => dataAddr_chunk short) (by omega)
      unfold readAtLoop
      rw [Foundation.bind_of_ok (sound.getBlockId inside),
        Foundation.bind_of_ok (checkBlock_of_lt (sound.onDevice _ (getD_mem (sound.dataSlot_lt inside)))),
        Foundation.get_bind]
      dsimp only
      rw [bytes]
      split
      case isTrue last =>
        rw [last]
        rfl
      case isFalse more =>
        -- the rest of the range starts at the next block
        have next : min ((start / blockSz + 1) * blockSz) stop = (start / blockSz + 1) * blockSz := by omega
        have rest := readAtLoop_eq sound within fuel ((start / blockSz + 1) * blockSz)
          (readSize + ((start / blockSz + 1) * blockSz - start)) (by omega) (by rw [nextBlock_div]; omega)
        rw [nextBlock_div] at rest
        have count : readSize + ((start / blockSz + 1) * blockSz - start) + (stop - (start / blockSz + 1) * blockSz) =
            readSize + (stop - start) := by
          unfold blockSz at *
          omega
        rw [next, Foundation.bind_of_ok rest]
        dsimp only
        rw [Foundation.slice_append (by omega) (by omega), count]
        rfl

/-- `read_at(offset, buf)` for a buffer of `len` bytes reads the contents from `offset`, as many
bytes as the buffer holds and the file has. -/
theorem readAt_eq (sound : Sound inode d seq) (offset len : Nat) :
    inode.readAt offset len d =
      .ok ((((inode.content d).drop offset).take len, min (offset + len) inode.size - offset), d) := by
  have sized : (inode.content d).length = inode.size := Foundation.length_gather
  unfold readAt
  by_cases empty : offset ≥ min (offset + len) inode.size
  · -- nothing to read: an empty buffer, or an offset at or past the end
    have nothing : ((inode.content d).drop offset).take len = [] := by
      rw [List.take_eq_nil_iff]
      by_cases short : len = 0
      · exact .inl short
      · exact .inr (List.drop_eq_nil_of_le (by omega))
    rw [if_pos empty, nothing, show min (offset + len) inode.size - offset = 0 by omega]
    rfl
  · have ends : ((inode.content d).drop offset).take (min (offset + len) inode.size - offset) =
        ((inode.content d).drop offset).take len := by
      rw [List.take_eq_take_iff, List.length_drop, sized]
      omega
    rw [if_neg empty, readAtLoop_eq sound (Nat.min_le_right _ _) _ _ _ (by omega) (by unfold blockSz; omega), ends,
      Nat.zero_add]

/-- The loop of `write_at` from `start`, with fuel for the blocks up to `stop` and a buffer that
reaches `stop`, writes the buffer from `writeSize` on over the contents from `start` to `stop`,
changes no other byte and keeps the layout; by induction on the fuel, one block a step. -/
theorem writeAtLoop_spec (within : stop ≤ inode.size) (buf : List UInt8) :
    ∀ fuel start writeSize (d : Disk), Sound inode d seq → start ≤ stop → start < inode.size →
      writeSize + (stop - start) ≤ buf.length → (stop - 1) / blockSz < start / blockSz + fuel →
      ∃ d', inode.writeAtLoop buf stop fuel start (start / blockSz) writeSize d = .ok (writeSize + (stop - start), d') ∧
        Sound inode d' seq ∧
        Foundation.gather d'.bytes (dataAddr seq) inode.size =
          Foundation.patch (Foundation.gather d.bytes (dataAddr seq) inode.size) start
            ((buf.drop writeSize).take (stop - start)) ∧
        ∀ a, (∀ i, start ≤ i → i < stop → a ≠ dataAddr seq i) → d'.bytes a = d.bytes a := by
  intro fuel
  induction fuel with
  | zero =>
      intro start writeSize d sound before _ _ enough
      -- without fuel the range is empty
      have empty : stop - start = 0 := by
        unfold blockSz at enough
        omega
      refine ⟨d, by rw [empty]; rfl, sound, by rw [empty, List.take_zero, Foundation.patch_nil], fun _ _ => rfl⟩
  | succ fuel ih =>
      intro start writeSize d sound before inside fits enough
      have block : start / blockSz < inode.dataBlocks := div_lt_dataBlocksOf inside
      have run : ∀ k < min ((start / blockSz + 1) * blockSz) stop - start,
          dataAddr seq (start + k) = byteAddr (seq.getD (dataSlot (start / blockSz)) 0) (start % blockSz) + k :=
        fun _ short => dataAddr_chunk short
      have bound : start < (start / blockSz + 1) * blockSz := by
        unfold blockSz
        omega
      unfold writeAtLoop
      rw [Foundation.bind_of_ok (sound.getBlockId block),
        Foundation.bind_of_ok (checkBlock_of_lt (sound.onDevice _ (getD_mem (sound.dataSlot_lt block)))),
        Foundation.bind_of_ok (Foundation.modify_apply _ _)]
      generalize byteAddr (seq.getD (dataSlot (start / blockSz)) 0) (start % blockSz) = addr at run ⊢
      generalize hNext : min ((start / blockSz + 1) * blockSz) stop = next at run ⊢
      -- this step writes the part of the buffer up to `next`, at the run of addresses from `addr`
      have partLength : ((buf.drop writeSize).take (next - start)).length = next - start := by
        simp only [List.length_take, List.length_drop]
        omega
      have hits : ∀ a, addr ≤ a → a < addr + (next - start) → a = dataAddr seq (start + (a - addr)) :=
        fun a low high => ((run _ (by omega)).trans (by omega)).symm
      have written := Foundation.gather_writeBytes d.bytes sound.dataAddr_injective
        (fun k short => run k (partLength ▸ short)) (by rw [partLength]; omega)
      have sound₁ : Sound inode ⟨d.blocks, Foundation.writeBytes d.bytes addr
          ((buf.drop writeSize).take (next - start))⟩ seq :=
        sound.of_frame rfl fun a notData => Foundation.writeBytes_apply_of_not_mem fun inside =>
          notData _ (by omega) (hits a inside.1 (partLength ▸ inside.2))
      have frame₁ : ∀ a, (∀ i, start ≤ i → i < stop → a ≠ dataAddr seq i) →
          Foundation.writeBytes d.bytes addr ((buf.drop writeSize).take (next - start)) a = d.bytes a :=
        fun a outside => Foundation.writeBytes_apply_of_not_mem fun inside =>
          outside _ (by omega) (by omega) (hits a inside.1 (partLength ▸ inside.2))
      split
      case isTrue last =>
        rw [last] at written frame₁ sound₁ ⊢
        exact ⟨_, rfl, sound₁, written, frame₁⟩
      case isFalse more =>
        -- the rest of the range starts at the next block
        have nextDiv : next / blockSz = start / blockSz + 1 := by
          rw [show next = (start / blockSz + 1) * blockSz by omega, nextBlock_div]
        obtain ⟨d', ran, sound', content', frame'⟩ := ih next (writeSize + (next - start)) _ sound₁ (by omega) (by omega) (by omega) (by rw [nextDiv]; omega)
        rw [nextDiv] at ran
        have count : writeSize + (next - start) + (stop - next) = writeSize + (stop - start) := by
          omega
        have joined := Foundation.slice_append (l := buf) (Nat.le_add_right writeSize (next - start))
          (show _ ≤ writeSize + (stop - start) by omega)
        rw [Nat.add_sub_cancel_left, Nat.add_sub_cancel_left,
          show writeSize + (stop - start) - (writeSize + (next - start)) = stop - next by omega] at joined
        refine ⟨d', by rw [ran, count], sound', ?_, fun a outside =>
          (frame' a fun i low high => outside i (by omega) high).trans (frame₁ a outside)⟩
        rw [content', written, Foundation.patch_patch (by rw [Foundation.length_gather, partLength]; omega)
          (by rw [partLength]; omega), ← joined]

end Loops

/-- `write_at(offset, buf)` at an offset inside the file writes the first
`min(offset + len, size) - offset` bytes of `buf` over the contents from `offset`, returns that
count, changes no byte of the device but those it writes and keeps the layout. -/
theorem writeAt_spec (sound : Sound inode d seq) {offset : Nat} (inside : offset < inode.size) (buf : List UInt8) :
    ∃ d', inode.writeAt offset buf d = .ok (min (offset + buf.length) inode.size - offset, d') ∧
      Sound inode d' seq ∧
      inode.content d' = Foundation.patch (inode.content d) offset
        (buf.take (min (offset + buf.length) inode.size - offset)) ∧
      ∀ a, (∀ i, offset ≤ i → i < min (offset + buf.length) inode.size → a ≠ inode.byteAddrOf d i) →
        d'.bytes a = d.bytes a := by
  obtain ⟨d', ran, sound', content', frame⟩ := writeAtLoop_spec (Nat.min_le_right (offset + buf.length) inode.size) buf
    (buf.length / blockSz + 2) offset 0 d sound (Nat.le_min.mpr ⟨by omega, by omega⟩) inside (by omega)
    (by unfold blockSz; omega)
  refine ⟨d', ?_, sound', ?_, fun a outside => frame a fun i low high => ?_⟩
  · unfold writeAt
    rw [if_neg (not_not.mpr (Nat.le_min.mpr ⟨by omega, by omega⟩))]
    exact ran.trans (by rw [Nat.zero_add])
  · rw [sound'.content_eq, sound.content_eq, content', List.drop_zero]
  · rw [← sound.byteAddrOf_eq (by omega)]
    exact outside i low high

/-- Reading back the range `write_at(offset, buf)` wrote gives the bytes written. -/
theorem readAt_writeAt (sound : Sound inode d seq) {offset : Nat} (inside : offset < inode.size) (buf : List UInt8) :
    ∃ d', inode.writeAt offset buf d = .ok (min (offset + buf.length) inode.size - offset, d') ∧
      inode.readAt offset (min (offset + buf.length) inode.size - offset) d' =
        .ok ((buf.take (min (offset + buf.length) inode.size - offset),
          min (offset + buf.length) inode.size - offset), d') := by
  obtain ⟨d', ran, sound', content', -⟩ := writeAt_spec sound inside buf
  have written : (buf.take (min (offset + buf.length) inode.size - offset)).length =
      min (offset + buf.length) inode.size - offset := by
    rw [List.length_take]
    omega
  have sized : (inode.content d).length = inode.size := Foundation.length_gather
  have back : ((Foundation.patch (inode.content d) offset (buf.take (min (offset + buf.length) inode.size - offset))).drop
      offset).take (buf.take (min (offset + buf.length) inode.size - offset)).length =
      buf.take (min (offset + buf.length) inode.size - offset) :=
    Foundation.slice_patch (by omega)
  rw [written] at back
  refine ⟨d', ran, ?_⟩
  rw [readAt_eq sound', content', back,
    show min (offset + (min (offset + buf.length) inode.size - offset)) inode.size - offset =
      min (offset + buf.length) inode.size - offset by omega]

/-- A file of three bytes whose one data block is block `5`. -/
def threeByteFile : DiskInode := ⟨3, 5 :: List.replicate 27 0, 0, 0, .file, rfl⟩

/-- A file of three bytes in block 5 of an eight-block device is sound, whatever the device holds. -/
theorem sound_threeBytes (bytes : Nat → UInt8) : Sound threeByteFile ⟨8, bytes⟩ [5] where
  layout := {
    direct := by decide
    indirect1 := rfl
    entries1 := fun _ _ past => absurd past (by unfold inodeDirectCount; simp)
    indirect2 := rfl
    entries2 := fun a _ past => absurd past (by rw [level2Slot_eq]; simp)
    level2 := fun a _ _ _ past => absurd past (by rw [level2Slot_eq]; simp) }
  nodup := by decide
  onDevice _ member := by
    rw [List.mem_singleton.mp member]
    exact (by decide : 5 < 8)
  small := by decide
  counted := by decide
  bounded := by decide

theorem readAt_writeAt_three_bytes :
    Sound threeByteFile ⟨8, fun _ => 0⟩ [5] ∧ 1 < 3 ∧
      ∃ d', DiskInode.writeAt threeByteFile 1 [7, 8, 9] ⟨8, fun _ => 0⟩ =
          .ok (2, d') ∧
        DiskInode.readAt threeByteFile 1 2 d' = .ok (([7, 8], 2), d') :=
  ⟨sound_threeBytes _, by decide, readAt_writeAt (sound_threeBytes _) (by decide) [7, 8, 9]⟩

end DiskInode

end EasyFs

end RCore
