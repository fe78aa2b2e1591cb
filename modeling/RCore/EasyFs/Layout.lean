import RCore.EasyFs.BlockDevice

/-! # The on-disk layout of easy-fs

`easy-fs/src/layout.rs`. Block 0 holds the `SuperBlock`; inodes are `repr(C)` records of
128 bytes, four to a block: a `u32` size, 28 direct block ids, the ids of the indirect1 and
indirect2 blocks and a type byte, all little-endian. The model reads and writes these fields
where the struct puts them (`RCore.EasyFs.DiskInode.directOffset` and its neighbours), as the
closures passed to the block cache do.
-/

namespace RCore

namespace EasyFs

/-- `EFS_MAGIC`. -/
def efsMagic : Nat := 0x3b800001

/-- `INODE_DIRECT_COUNT`. -/
def inodeDirectCount : Nat := 28

/-- `INODE_INDIRECT1_COUNT`. -/
def inodeIndirect1Count : Nat := blockSz / 4

/-- `INDIRECT1_BOUND`. -/
def indirect1Bound : Nat := inodeDirectCount + inodeIndirect1Count

/-- `SuperBlock::initialize`: the six `u32` fields at the start of block 0. -/
def SuperBlock.init (totalBlocks inodeBitmapBlocks inodeAreaBlocks dataBitmapBlocks dataAreaBlocks : Nat) :
    FsM Unit := do
  writeLE 0 0 4 efsMagic
  writeLE 0 4 4 totalBlocks
  writeLE 0 8 4 inodeBitmapBlocks
  writeLE 0 12 4 inodeAreaBlocks
  writeLE 0 16 4 dataBitmapBlocks
  writeLE 0 20 4 dataAreaBlocks

/-- `DiskInodeType`, stored as its discriminant byte. -/
inductive DiskInodeType where
  | file
  | directory
deriving DecidableEq, Repr

/-- The discriminant of a `DiskInodeType`. -/
def DiskInodeType.toNat : DiskInodeType → Nat
  | .file => 0
  | .directory => 1

/-- `size_of::<DiskInode>()`: 125 bytes of fields, padded to the `u32` alignment. -/
def diskInodeSize : Nat := 128

namespace DiskInode

/-- The byte offset of `size` in a `DiskInode`. -/
def sizeOffset : Nat := 0

/-- The byte offset of `direct[i]`. -/
def directOffset (i : Nat) : Nat := 4 + 4 * i

/-- The byte offset of `indirect1`. -/
def indirect1Offset : Nat := 116

/-- The byte offset of `indirect2`. -/
def indirect2Offset : Nat := 120

/-- The byte offset of `type_`. -/
def typeOffset : Nat := 124

/-- `DiskInode::initialize` on the inode at byte `offset` of block `blockId`. -/
def init (blockId offset : Nat) (type_ : DiskInodeType) : FsM Unit := do
  writeLE blockId (offset + sizeOffset) 4 0
  (List.range inodeDirectCount).forM fun i => writeLE blockId (offset + directOffset i) 4 0
  writeLE blockId (offset + indirect1Offset) 4 0
  writeLE blockId (offset + indirect2Offset) 4 0
  writeLE blockId (offset + typeOffset) 1 type_.toNat

end DiskInode

/-- `SuperBlock::initialize` writes the first 24 bytes of block 0 and nothing else. -/
theorem SuperBlock.init_stays (totalBlocks inodeBitmapBlocks inodeAreaBlocks dataBitmapBlocks dataAreaBlocks : Nat) :
    StaysWithin 1 0 24
      (SuperBlock.init totalBlocks inodeBitmapBlocks inodeAreaBlocks dataBitmapBlocks dataAreaBlocks) := by
  have field : ∀ offset, offset + 4 ≤ 24 → ∀ value, StaysWithin 1 0 24 (writeLE 0 offset 4 value) :=
    fun offset fits _ => writeLE_stays (Nat.zero_le _) (by simpa [byteAddr] using fits)
  unfold SuperBlock.init
  exact (field 0 (by decide) _).seq <| (field 4 (by decide) _).seq <| (field 8 (by decide) _).seq <|
    (field 12 (by decide) _).seq <| (field 16 (by decide) _).seq (field 20 (by decide) _)

/-- `DiskInode::initialize` writes the 128 bytes of its own inode and nothing else. -/
theorem DiskInode.init_stays (blockId offset : Nat) (type_ : DiskInodeType) :
    StaysWithin (blockId + 1) (byteAddr blockId offset) (byteAddr blockId offset + diskInodeSize)
      (DiskInode.init blockId offset type_) := by
  have field : ∀ pos width, pos + width ≤ diskInodeSize → ∀ value,
      StaysWithin (blockId + 1) (byteAddr blockId offset) (byteAddr blockId offset + diskInodeSize)
        (writeLE blockId (offset + pos) width value) := fun pos width fits _ =>
    writeLE_stays (by simp only [byteAddr]; omega) (by simp only [byteAddr]; omega)
  have directs : ∀ i ∈ List.range inodeDirectCount, StaysWithin (blockId + 1) (byteAddr blockId offset)
      (byteAddr blockId offset + diskInodeSize) (writeLE blockId (offset + DiskInode.directOffset i) 4 0) :=
    fun i member => field _ _ (by
      have := List.mem_range.mp member
      simp only [DiskInode.directOffset, inodeDirectCount, diskInodeSize] at this ⊢
      omega) _
  unfold DiskInode.init
  exact (field _ _ (by decide) _).seq <| (StaysWithin.forM directs).seq <| (field _ _ (by decide) _).seq <|
    (field _ _ (by decide) _).seq (field _ _ (by decide) _)

end EasyFs

end RCore
