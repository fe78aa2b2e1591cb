import RCore.EasyFs.Bitmap
import RCore.EasyFs.DiskInodeRecord

/-! # The file system on a device

`easy-fs/src/efs.rs`. `EasyFileSystem::create` lays the device out as the super block
(block 0), the inode bitmap, the inode area, the data bitmap and the data area; it clears
every block, writes the super block and allocates inode 0 for the root directory.
`alloc_data` returns the bit the data bitmap hands out, offset by the start of the data area.

The data bitmap has `data_bitmap_blocks = (data_total_blocks + 4096) / 4097` blocks, hence
`4096 * data_bitmap_blocks` bits, for the `data_total_blocks - data_bitmap_blocks` blocks of
the data area: unless `data_total_blocks` is a multiple of 4097 there are more bits than
blocks. After `create` the calls of `alloc_data` hand out the data area in order and then go
on past it, the first call after the last data block returning `total_blocks`
(`RCore.EasyFs.EasyFileSystem.allocData_passes_dataArea`).

The `u32` arithmetic of `create` is modelled over `Nat`; where it could underflow, the
results assume a layout that fits the device (`RCore.EasyFs.EasyFileSystem.Fits`).
-/

namespace RCore

namespace EasyFs

/-- The block counts `EasyFileSystem::create` computes for the areas. -/
structure Areas where
  inodeAreaBlocks : Nat
  dataBitmapBlocks : Nat
  dataAreaBlocks : Nat
deriving DecidableEq, Repr

/-- `EasyFileSystem`, without its device. -/
structure EasyFileSystem where
  inodeBitmap : Bitmap
  dataBitmap : Bitmap
  inodeAreaStartBlock : Nat
  dataAreaStartBlock : Nat
deriving DecidableEq, Repr

namespace EasyFileSystem

/-- The area sizes of `EasyFileSystem::create(total_blocks, inode_bitmap_blocks)`. -/
def areas (totalBlocks inodeBitmapBlocks : Nat) : Areas :=
  let inodeNum := (Bitmap.mk 1 inodeBitmapBlocks).maximum
  let inodeAreaBlocks := (inodeNum * diskInodeSize + blockSz - 1) / blockSz
  let inodeTotalBlocks := inodeBitmapBlocks + inodeAreaBlocks
  let dataTotalBlocks := totalBlocks - 1 - inodeTotalBlocks
  let dataBitmapBlocks := (dataTotalBlocks + 4096) / 4097
  { inodeAreaBlocks, dataBitmapBlocks, dataAreaBlocks := dataTotalBlocks - dataBitmapBlocks }

/-- The `EasyFileSystem` value that `create` builds from the area sizes. -/
def ofAreas (inodeBitmapBlocks : Nat) (a : Areas) : EasyFileSystem where
  inodeBitmap := ⟨1, inodeBitmapBlocks⟩
  dataBitmap := ⟨1 + inodeBitmapBlocks + a.inodeAreaBlocks, a.dataBitmapBlocks⟩
  inodeAreaStartBlock := 1 + inodeBitmapBlocks
  dataAreaStartBlock := 1 + (inodeBitmapBlocks + a.inodeAreaBlocks) + a.dataBitmapBlocks

/-- `get_disk_inode_pos(inode_id)`: the block of the inode and its byte offset there. -/
def getDiskInodePos (efs : EasyFileSystem) (inodeId : Nat) : Nat × Nat :=
  let inodesPerBlock := blockSz / diskInodeSize
  (efs.inodeAreaStartBlock + inodeId / inodesPerBlock, inodeId % inodesPerBlock * diskInodeSize)

/-- `get_data_block_id`. -/
def getDataBlockId (efs : EasyFileSystem) (dataBlockId : Nat) : Nat := efs.dataAreaStartBlock + dataBlockId

/-- `alloc_inode`: `inode_bitmap.alloc(..).unwrap()`. -/
def allocInode (efs : EasyFileSystem) : FsM Nat := do
  match ← efs.inodeBitmap.alloc with
  | some inode => return inode
  | none => throw .bitmapFull

/-- `alloc_data`: `data_bitmap.alloc(..).unwrap() + data_area_start_block`. -/
def allocData (efs : EasyFileSystem) : FsM Nat := do
  match ← efs.dataBitmap.alloc with
  | some bit => return bit + efs.dataAreaStartBlock
  | none => throw .bitmapFull

/-- `dealloc_data`: clear the block, then free its bit. -/
def deallocData (efs : EasyFileSystem) (blockId : Nat) : FsM Unit := do
  zeroBlock blockId
  efs.dataBitmap.dealloc (blockId - efs.dataAreaStartBlock)

/-- The loop `for _ in 0..blocks_needed { v.push(fs.alloc_data()) }` of `Inode::increase_size`. -/
def allocDataLoop (efs : EasyFileSystem) : Nat → FsM (List Nat)
  | 0 => return []
  | n + 1 => do
      let blockId ← efs.allocData
      let rest ← efs.allocDataLoop n
      return blockId :: rest

/-- `EasyFileSystem::create`, with `block_cache_sync_all` left out: the device seen through
the cache is the cache's contents. -/
def create (totalBlocks inodeBitmapBlocks : Nat) : FsM EasyFileSystem := do
  let a := areas totalBlocks inodeBitmapBlocks
  let efs := ofAreas inodeBitmapBlocks a
  (List.range totalBlocks).forM zeroBlock
  SuperBlock.init totalBlocks inodeBitmapBlocks a.inodeAreaBlocks a.dataBitmapBlocks a.dataAreaBlocks
  let root ← efs.allocInode
  if root ≠ 0 then throw (.rootInodeNotZero root)
  let (rootInodeBlockId, rootInodeOffset) := efs.getDiskInodePos 0
  DiskInode.init rootInodeBlockId rootInodeOffset .directory
  return efs

/-- The layout of `create(total_blocks, inode_bitmap_blocks)` fits the device: there is an
inode bitmap, and the super block, the inode bitmap and the inode area leave room. -/
structure Fits (totalBlocks inodeBitmapBlocks : Nat) : Prop where
  someInodes : 0 < inodeBitmapBlocks
  room : 1 + inodeBitmapBlocks + (areas totalBlocks inodeBitmapBlocks).inodeAreaBlocks ≤ totalBlocks

/-- The device as `create` leaves it: the inode bitmap holds inode `0` alone, the data bitmap no
block, and the record of inode `0` is an empty directory. -/
structure Formatted (efs : EasyFileSystem) (totalBlocks : Nat) (d : Disk) : Prop where
  blocks_eq : d.blocks = totalBlocks
  inodes : efs.inodeBitmap.Prefix d 1
  data : efs.dataBitmap.Prefix d 0
  root : DiskInode.load d.bytes (byteAddr efs.inodeAreaStartBlock 0) = DiskInode.ofType .directory

variable {efs : EasyFileSystem} {d : Disk} {k : Nat}

theorem forM_zeroBlock_spec : ∀ (ids : List Nat) (d : Disk), (∀ b ∈ ids, b < d.blocks) →
    ∃ d', ids.forM zeroBlock d = .ok (⟨⟩, d') ∧ d'.blocks = d.blocks ∧
      ∀ a, (d.bytes a = 0 ∨ ∃ b ∈ ids, byteAddr b 0 ≤ a ∧ a < byteAddr b blockSz) → d'.bytes a = 0
  | [], d, _ => ⟨d, rfl, rfl, fun a zero => by simpa using zero⟩
  | b :: rest, d, inside => by
      obtain ⟨d', ran, sized, cleared⟩ := forM_zeroBlock_spec rest { d with bytes := zeroed d.bytes b }
        (fun b' member => inside b' (List.mem_cons_of_mem _ member))
      refine ⟨d', ?_, sized, fun a zero => cleared a ?_⟩
      · show (zeroBlock b >>= fun _ => rest.forM zeroBlock) d = _
        rw [Foundation.bind_of_ok (zeroBlock_of_lt (inside b List.mem_cons_self)), ran]
      · -- a byte of block `b` is cleared by the first step, any other is left as it was
        by_cases mine : byteAddr b 0 ≤ a ∧ a < byteAddr b blockSz
        · exact .inl (by simp only [zeroed, if_pos mine])
        · rcases zero with was | ⟨b', member, low, high⟩
          · exact .inl (by simp only [zeroed, if_neg mine, was])
          · rcases List.mem_cons.mp member with rfl | later
            · exact absurd ⟨low, high⟩ mine
            · exact .inr ⟨b', later, low, high⟩

/-- The clearing loop of `create` zeroes every byte of the device. -/
theorem clear_spec (d : Disk) :
    ∃ d', (List.range d.blocks).forM zeroBlock d = .ok (⟨⟩, d') ∧ d'.blocks = d.blocks ∧
      ∀ a < d.blocks * blockSz, d'.bytes a = 0 := by
  obtain ⟨d', ran, sized, cleared⟩ := forM_zeroBlock_spec (List.range d.blocks) d
    (fun b member => List.mem_range.mp member)
  refine ⟨d', ran, sized, fun a below => cleared a (.inr ⟨a / blockSz, ?_, ?_, ?_⟩)⟩
  -- omega needs the constant factor of a product on the left
  all_goals simp only [List.mem_range, byteAddr, blockSz, Nat.mul_comm _ 512] at below ⊢
  all_goals omega

theorem allocInode_of_filled (filled : efs.inodeBitmap.Prefix d k) (room : k < efs.inodeBitmap.maximum) :
    efs.allocInode d = .ok (k, efs.inodeBitmap.setBit d k) := by
  unfold allocInode
  rw [Foundation.bind_of_ok (Bitmap.alloc_of_filled filled room)]
  rfl

theorem allocData_of_filled (filled : efs.dataBitmap.Prefix d k) (room : k < efs.dataBitmap.maximum) :
    efs.allocData d = .ok (efs.dataAreaStartBlock + k, efs.dataBitmap.setBit d k) := by
  unfold allocData
  rw [Foundation.bind_of_ok (Bitmap.alloc_of_filled filled room), Nat.add_comm]
  rfl

/-- From a data bitmap with the set bits `0, …, k - 1`, `n` allocations return the blocks
`k, …, k + n - 1` of the data area, as long as the bitmap has that many bits. -/
theorem allocDataLoop_of_filled : ∀ n k (d : Disk), efs.dataBitmap.Prefix d k → k + n ≤ efs.dataBitmap.maximum →
    ∃ d', efs.allocDataLoop n d = .ok (List.range' (efs.dataAreaStartBlock + k) n, d') ∧
      efs.dataBitmap.Prefix d' (k + n) ∧ d'.blocks = d.blocks
  | 0, k, d, filled, _ => ⟨d, rfl, filled, rfl⟩
  | n + 1, k, d, filled, room => by
      obtain ⟨d', rest, filled', sized⟩ :=
        allocDataLoop_of_filled n (k + 1) _ (Bitmap.setBit_filled filled) (by omega)
      refine ⟨d', ?_, by rwa [Nat.add_right_comm] at filled', sized⟩
      unfold allocDataLoop
      rw [Foundation.bind_of_ok (allocData_of_filled filled (by omega)), Foundation.bind_of_ok rest,
        List.range'_succ, ← Nat.add_assoc]
      rfl

section Create

variable {totalBlocks inodeBitmapBlocks : Nat}

theorem inodeAreaBlocks_ge (totalBlocks inodeBitmapBlocks : Nat) :
    1024 * inodeBitmapBlocks ≤ (areas totalBlocks inodeBitmapBlocks).inodeAreaBlocks := by
  simp only [areas, Bitmap.maximum, blockBits, blockSz, diskInodeSize]
  omega

/-- The data area ends at the end of the device. -/
theorem dataArea_end (fits : Fits totalBlocks inodeBitmapBlocks) :
    (ofAreas inodeBitmapBlocks (areas totalBlocks inodeBitmapBlocks)).dataAreaStartBlock +
      (areas totalBlocks inodeBitmapBlocks).dataAreaBlocks = totalBlocks := by
  have room := fits.room
  simp only [ofAreas, areas] at room ⊢
  omega

/-- `create` on a device of `total_blocks` blocks succeeds and formats it. -/
theorem create_spec (sized : d.blocks = totalBlocks) (fits : Fits totalBlocks inodeBitmapBlocks) :
    ∃ d', create totalBlocks inodeBitmapBlocks d =
        .ok (ofAreas inodeBitmapBlocks (areas totalBlocks inodeBitmapBlocks), d') ∧
      Formatted (ofAreas inodeBitmapBlocks (areas totalBlocks inodeBitmapBlocks)) totalBlocks d' := by
  subst sized
  have someInodes := fits.someInodes
  have room := fits.room
  have inodeArea := inodeAreaBlocks_ge d.blocks inodeBitmapBlocks
  have dataEnd := dataArea_end fits
  generalize computed : areas d.blocks inodeBitmapBlocks = a at room inodeArea dataEnd ⊢
  let efs := ofAreas inodeBitmapBlocks a
  have dataStart : efs.dataBitmap.startBlockId = 1 + inodeBitmapBlocks + a.inodeAreaBlocks := rfl
  have dataInside : efs.dataBitmap.startBlockId + efs.dataBitmap.blocks ≤ d.blocks := by
    simp only [efs, ofAreas] at dataEnd ⊢
    omega
  -- the steps of `create`, each on the device the one before left
  obtain ⟨d₁, cleared, sized₁, zero⟩ := clear_spec d
  obtain ⟨d₂, written, within₂⟩ :=
    SuperBlock.init_stays d.blocks inodeBitmapBlocks a.inodeAreaBlocks a.dataBitmapBlocks a.dataAreaBlocks d₁
      (by omega)
  have inodeFilled : efs.inodeBitmap.Prefix d₂ 0 :=
    (Bitmap.Prefix.of_zero (by show 1 + inodeBitmapBlocks ≤ d₁.blocks; omega) fun b _ high => zero b (by
      simp only [efs, ofAreas, blockSz, Nat.mul_comm _ 512] at high ⊢
      omega)).of_writesWithin within₂ (.inl (by simp [efs, ofAreas, blockSz]))
  have inodeRoom : 0 < efs.inodeBitmap.maximum := by
    simp only [efs, ofAreas, Bitmap.maximum, blockBits, blockSz]
    omega
  let d₃ := efs.inodeBitmap.setBit d₂ 0
  have rootPresent : 1 + inodeBitmapBlocks + 0 < d₃.blocks := by
    show _ < d₂.blocks
    rw [within₂.blocks_eq]
    omega
  obtain ⟨d₄, rootWritten, within₄⟩ := DiskInode.init_stays (1 + inodeBitmapBlocks + 0) 0 .directory d₃ rootPresent
  have rootRecord : d₄ = ⟨d₃.blocks, Foundation.writeBytes d₃.bytes (byteAddr (1 + inodeBitmapBlocks + 0) 0)
      (DiskInode.ofType .directory).encode⟩ := by
    have byApply := rootWritten.symm.trans (DiskInode.init_apply .directory rootPresent d₃.bytes)
    cases byApply
    rfl
  refine ⟨d₄, ?_, ⟨by rw [within₄.blocks_eq, (show d₃.blocks = d₂.blocks from rfl), within₂.blocks_eq, sized₁], ?_, ?_, ?_⟩⟩
  · unfold create
    rw [computed, Foundation.bind_of_ok cleared, Foundation.bind_of_ok written,
      Foundation.bind_of_ok (allocInode_of_filled inodeFilled inodeRoom), if_neg (by decide)]
    show (DiskInode.init (1 + inodeBitmapBlocks + 0) 0 .directory >>= fun _ => pure efs) d₃ = _
    rw [Foundation.bind_of_ok rootWritten]
    rfl
  · -- the root record lies past the inode bitmap
    exact (Bitmap.setBit_filled inodeFilled).of_writesWithin within₄ (.inr (by simp [efs, ofAreas, byteAddr]))
  · -- the data bitmap lies past every block the steps wrote
    have dataZero : efs.dataBitmap.Prefix d₁ 0 :=
      Bitmap.Prefix.of_zero (by omega) fun b _ high => zero b (by
        simp only [blockSz, Nat.mul_comm _ 512] at high ⊢
        omega)
    have afterSuper := dataZero.of_writesWithin within₂
      (.inl (by rw [dataStart]; simp only [blockSz, Nat.mul_comm _ 512]; omega))
    have afterInode := afterSuper.of_writesWithin (Bitmap.setBit_within inodeRoom)
      (.inl (by rw [dataStart]; simp only [efs, ofAreas, blockSz, Nat.mul_comm _ 512]; omega))
    exact afterInode.of_writesWithin within₄ (.inl (by
      rw [dataStart]
      simp only [byteAddr, diskInodeSize, blockSz, Nat.mul_comm _ 512]
      omega))
  · rw [rootRecord]
    exact DiskInode.load_writeBytes_encode ⟨by decide, by decide, by decide, by decide⟩ _ _

/-- After `create(total_blocks, inode_bitmap_blocks)`, `data_area_blocks + 1` calls of
`alloc_data` return the blocks of the data area in order and then `total_blocks`, a block
past the end of the device, whenever the data bitmap has more bits than the area has blocks. -/
theorem allocData_passes_dataArea (sized : d.blocks = totalBlocks) (fits : Fits totalBlocks inodeBitmapBlocks)
    (slack : (areas totalBlocks inodeBitmapBlocks).dataAreaBlocks <
      (areas totalBlocks inodeBitmapBlocks).dataBitmapBlocks * blockBits) :
    ∃ efs d₁ d₂, create totalBlocks inodeBitmapBlocks d = .ok (efs, d₁) ∧
      efs.allocDataLoop ((areas totalBlocks inodeBitmapBlocks).dataAreaBlocks + 1) d₁ =
        .ok (List.range' efs.dataAreaStartBlock ((areas totalBlocks inodeBitmapBlocks).dataAreaBlocks + 1), d₂) ∧
      efs.dataAreaStartBlock + (areas totalBlocks inodeBitmapBlocks).dataAreaBlocks = totalBlocks := by
  obtain ⟨d₁, created, formatted⟩ := create_spec sized fits
  obtain ⟨d₂, allocated, -, -⟩ := allocDataLoop_of_filled ((areas totalBlocks inodeBitmapBlocks).dataAreaBlocks + 1) 0 d₁ formatted.data (by
    simp only [ofAreas, Bitmap.maximum]
    omega)
  exact ⟨_, d₁, d₂, created, allocated, dataArea_end fits⟩

/-- On a device of 1030 blocks with one inode bitmap block the data area is blocks 1027 to
1029, and the fourth `alloc_data` returns block 1030. -/
theorem allocData_passes_dataArea_on_1030_blocks :
    (⟨1030, fun _ => 0⟩ : Disk).blocks = 1030 ∧ Fits 1030 1 ∧
      (areas 1030 1).dataAreaBlocks < (areas 1030 1).dataBitmapBlocks * blockBits ∧
      ∃ efs d₁ d₂, create 1030 1 ⟨1030, fun _ => 0⟩ = .ok (efs, d₁) ∧
        efs.allocDataLoop ((areas 1030 1).dataAreaBlocks + 1) d₁ =
          .ok (List.range' efs.dataAreaStartBlock ((areas 1030 1).dataAreaBlocks + 1), d₂) ∧
        efs.dataAreaStartBlock + (areas 1030 1).dataAreaBlocks = 1030 := by
  have fits : Fits 1030 1 := ⟨by decide, by decide⟩
  have slack : (areas 1030 1).dataAreaBlocks < (areas 1030 1).dataBitmapBlocks * blockBits := by decide
  exact ⟨rfl, fits, slack, allocData_passes_dataArea rfl fits slack⟩

end Create

end EasyFileSystem

end EasyFs

end RCore
