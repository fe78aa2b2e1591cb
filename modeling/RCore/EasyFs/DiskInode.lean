import RCore.EasyFs.Layout

/-! # Reading and writing the bytes of an inode

The methods of `DiskInode` in `easy-fs/src/layout.rs` that map the inner blocks of a file to
device blocks and copy bytes. `get_block_id(inner_id)` reads `direct[inner_id]` for the first
28 inner blocks, the entry `inner_id - 28` of the block `indirect1` for the next 128, and
goes through `indirect2` and a second-level block beyond. `read_at` and `write_at` cut the
range `[offset, min(offset + len, size))` at every block boundary and copy block by block.

`write_at` has no early return for an empty range: with `offset = size` it still asks
`get_block_id` for the inner block `size / 512`. When `size` ends the 28 direct blocks and no
`indirect1` block has been allocated (`indirect1 = 0`), that reads entry 0 of block 0, which
in a file system is the super block's magic number, and then loads that block, which lies far
past the end of the device (`RCore.EasyFs.DiskInode.writeAt_empty_at_direct_end`).
-/

namespace RCore

namespace EasyFs

/-- `INODE_INDIRECT2_COUNT`. -/
def inodeIndirect2Count : Nat := inodeIndirect1Count * inodeIndirect1Count

/-- `INDIRECT2_BOUND`. -/
def indirect2Bound : Nat := indirect1Bound + inodeIndirect2Count

/-- `DiskInode`, the fields its methods read and write; the indirect blocks it names are on
the device. -/
structure DiskInode where
  size : Nat
  direct : List Nat
  indirect1 : Nat
  indirect2 : Nat
  type_ : DiskInodeType
  direct_length : direct.length = inodeDirectCount
deriving DecidableEq

namespace DiskInode

/-- `DiskInode::_data_blocks(size)`: the data blocks a file of `size` bytes needs. -/
def dataBlocksOf (size : Nat) : Nat := (size + blockSz - 1) / blockSz

/-- `DiskInode::data_blocks`. -/
def dataBlocks (inode : DiskInode) : Nat := dataBlocksOf inode.size

/-- The bounds check of `indirect_block[index]` on an `IndirectBlock` of
`INODE_INDIRECT1_COUNT` entries. -/
def checkIndex (index : Nat) : FsM Unit :=
  if index < inodeIndirect1Count then pure () else throw (.indexOutOfBounds index)

/-- `DiskInode::get_block_id(inner_id)`. -/
def getBlockId (inode : DiskInode) (innerId : Nat) : FsM Nat :=
  if innerId < inodeDirectCount then
    return inode.direct.getD innerId 0
  else if innerId < indirect1Bound then
    readLE inode.indirect1 (4 * (innerId - inodeDirectCount)) 4
  else do
    let last := innerId - indirect1Bound
    -- `get_block_cache(indirect2)` loads the block before its closure indexes it
    checkBlock inode.indirect2
    checkIndex (last / inodeIndirect1Count)
    let indirect1 ← readLE inode.indirect2 (4 * (last / inodeIndirect1Count)) 4
    readLE indirect1 (4 * (last % inodeIndirect1Count)) 4

/-- The loop of `DiskInode::read_at` from `start`, in inner block `startBlock`, up to `stop`,
with `readSize` bytes read before: the bytes read and the final `read_size`. `fuel` bounds the
blocks. -/
def readAtLoop (inode : DiskInode) (stop : Nat) :
    (fuel start startBlock readSize : Nat) → FsM (List UInt8 × Nat)
  | 0, _, _, readSize => return ([], readSize)
  | fuel + 1, start, startBlock, readSize => do
      let endCurrentBlock := min ((start / blockSz + 1) * blockSz) stop
      let blockReadSize := endCurrentBlock - start
      let blockId ← inode.getBlockId startBlock
      checkBlock blockId
      let d ← get
      let bytes := Foundation.readBytes d.bytes (byteAddr blockId (start % blockSz)) blockReadSize
      let readSize := readSize + blockReadSize
      if endCurrentBlock = stop then
        return (bytes, readSize)
      let (rest, readSize) ← inode.readAtLoop stop fuel endCurrentBlock (startBlock + 1) readSize
      return (bytes ++ rest, readSize)

/-- `DiskInode::read_at(offset, buf)` for a buffer of `len` bytes: the bytes put at the start
of `buf`, and the count it returns. -/
def readAt (inode : DiskInode) (offset len : Nat) : FsM (List UInt8 × Nat) := do
  let stop := min (offset + len) inode.size
  if offset ≥ stop then
    return ([], 0)
  inode.readAtLoop stop (len / blockSz + 2) offset (offset / blockSz) 0

/-- The loop of `DiskInode::write_at(offset, buf)` from `start`, in inner block `startBlock`,
up to `stop`, with `writeSize` bytes of `buf` written before. `fuel` bounds the blocks. -/
def writeAtLoop (inode : DiskInode) (buf : List UInt8) (stop : Nat) :
    (fuel start startBlock writeSize : Nat) → FsM Nat
  | 0, _, _, writeSize => return writeSize
  | fuel + 1, start, startBlock, writeSize => do
      let endCurrentBlock := min ((start / blockSz + 1) * blockSz) stop
      let blockWriteSize := endCurrentBlock - start
      let blockId ← inode.getBlockId startBlock
      checkBlock blockId
      -- `dst.copy_from_slice(&buf[write_size..write_size + block_write_size])`
      let src := (buf.drop writeSize).take blockWriteSize
      modify fun d => { d with bytes := Foundation.writeBytes d.bytes (byteAddr blockId (start % blockSz)) src }
      let writeSize := writeSize + blockWriteSize
      if endCurrentBlock = stop then
        return writeSize
      inode.writeAtLoop buf stop fuel endCurrentBlock (startBlock + 1) writeSize

/-- `DiskInode::write_at(offset, buf)`: the count it returns. -/
def writeAt (inode : DiskInode) (offset : Nat) (buf : List UInt8) : FsM Nat := do
  let stop := min (offset + buf.length) inode.size
  if ¬ offset ≤ stop then
    throw .writeBeforeStart
  inode.writeAtLoop buf stop (buf.length / blockSz + 2) offset (offset / blockSz) 0

variable {inode : DiskInode} {d : Disk}

theorem checkIndex_of_lt {index : Nat} (inside : index < inodeIndirect1Count) : checkIndex index d = .ok (⟨⟩, d) := by
  unfold checkIndex
  rw [if_pos inside]
  rfl

theorem checkIndex_eq_ok {index : Nat} {d' : Disk} {u : Unit} (ran : checkIndex index d = .ok (u, d')) :
    index < inodeIndirect1Count ∧ d' = d := by
  unfold checkIndex at ran
  split at ran
  case isTrue inside =>
    cases ran
    exact ⟨inside, rfl⟩
  case isFalse => cases ran

/-- Inner block 28 is entry 0 of the block `indirect1`. -/
theorem getBlockId_direct_end (inside : inode.indirect1 < d.blocks) :
    inode.getBlockId inodeDirectCount d = .ok (Foundation.loadLE d.bytes (byteAddr inode.indirect1 0) 4, d) := by
  unfold getBlockId
  rw [if_neg (Nat.lt_irrefl _), if_pos (by decide), Nat.sub_self, Nat.mul_zero]
  exact readLE_of_lt inside

/-- An empty `write_at` at the end of a file of exactly 28 blocks whose `indirect1` is still
`0` looks the inner block 28 up in block 0 and loads the block whose id it finds there; when
that id lies past the device, the call panics. -/
theorem writeAt_empty_at_direct_end (sized : inode.size = inodeDirectCount * blockSz)
    (unallocated : inode.indirect1 = 0) (present : 0 < d.blocks)
    (past : d.blocks ≤ Foundation.loadLE d.bytes 0 4) :
    inode.writeAt inode.size [] d = .error (.blockOutOfRange (Foundation.loadLE d.bytes 0 4)) := by
  have lookup := getBlockId_direct_end (d := d) (unallocated ▸ present)
  rw [unallocated, byteAddr, Nat.zero_mul, Nat.add_zero] at lookup
  have startBlock : inode.size / blockSz = inodeDirectCount := by
    rw [sized, Nat.mul_div_cancel _ (by decide)]
  unfold writeAt
  rw [List.length_nil, Nat.add_zero, Nat.min_self, if_neg (by simp), Nat.zero_div, startBlock]
  show (inode.writeAtLoop [] inode.size (0 + 2) inode.size inodeDirectCount 0) d = _
  unfold writeAtLoop
  rw [Foundation.bind_of_ok lookup]
  exact Foundation.bind_eq_error.mpr (.inl (checkBlock_of_le past))

/-- The inode of a file of 28 blocks, the direct blocks 2 to 29 and no indirect block, on a
device of 30 blocks whose block 0 starts with the super block's magic number. -/
theorem writeAt_empty_at_direct_end_on_superblock :
    let inode : DiskInode := ⟨inodeDirectCount * blockSz, List.range' 2 inodeDirectCount, 0, 0, .file,
      List.length_range'⟩
    let d : Disk := ⟨30, Foundation.storeLE (fun _ => 0) 0 4 efsMagic⟩
    inode.direct.Nodup ∧ inode.size = inodeDirectCount * blockSz ∧ inode.indirect1 = 0 ∧ 0 < d.blocks ∧
      d.blocks ≤ Foundation.loadLE d.bytes 0 4 ∧
      inode.writeAt inode.size [] d = .error (.blockOutOfRange (Foundation.loadLE d.bytes 0 4)) := by
  intro inode d
  have magic : Foundation.loadLE d.bytes 0 4 = efsMagic := by
    show Foundation.loadLE (Foundation.storeLE _ 0 4 efsMagic) 0 4 = _
    rw [Foundation.loadLE_storeLE_self]
    decide
  have past : d.blocks ≤ Foundation.loadLE d.bytes 0 4 := by
    rw [magic]
    decide
  exact ⟨List.nodup_range', rfl, rfl, by decide, past,
    writeAt_empty_at_direct_end rfl rfl (by decide) past⟩

end DiskInode

end EasyFs

end RCore
