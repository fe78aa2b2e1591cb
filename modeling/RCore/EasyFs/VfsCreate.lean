import RCore.EasyFs.Vfs

/-! # Creating a file in a new file system

`Inode::create(name)` on the root directory of a device that `EasyFileSystem::create` has just
formatted (`RCore.EasyFs.EasyFileSystem.Formatted`): the lookup finds nothing, the file takes
inode `1`, and the root directory grows over the first block of the data area to hold the one
`DirEntry` of the name (`RCore.EasyFs.Inode.create_on_formatted`). `ls()` and `find(name)` of a
directory of one entry read that entry's name (`RCore.EasyFs.Inode.ls_of_one_entry`,
`RCore.EasyFs.Inode.find_of_one_entry`) as `name()` reads it (`RCore.EasyFs.Inode.create_on_new_fs`),
so a file created under a name of at most `NAME_LENGTH_LIMIT` bytes is listed and found
(`RCore.EasyFs.Inode.create_then_find`).

`DirEntry::new` also takes a name of `NAME_LENGTH_LIMIT + 1 = 28` bytes, so `create` stores it,
but its entry keeps no 0 in the name array: from then on `ls()` and every `find` of the directory
panic in `DirEntry::name` (`RCore.EasyFs.Inode.create_full_name_breaks_root`).
-/

namespace RCore

namespace EasyFs

namespace EasyFileSystem

/-- The areas in the order `create` lays them out on a device of `total_blocks` blocks, a `u32`:
the inode bitmap, the inode area, the data bitmap and a data area of at least one block, with
room for a second inode and a first data block in the bitmaps. -/
structure Ordered (efs : EasyFileSystem) (totalBlocks : Nat) : Prop where
  inodeBitmap_end : efs.inodeBitmap.startBlockId + efs.inodeBitmap.blocks ≤ efs.inodeAreaStartBlock
  inodeArea_lt : efs.inodeAreaStartBlock < efs.dataBitmap.startBlockId
  dataBitmap_end : efs.dataBitmap.startBlockId + efs.dataBitmap.blocks ≤ efs.dataAreaStartBlock
  dataArea_lt : efs.dataAreaStartBlock < totalBlocks
  wide : totalBlocks < 2 ^ 32
  inodeRoom : 1 < efs.inodeBitmap.maximum
  dataRoom : 0 < efs.dataBitmap.maximum

/-- The layout of `create(total_blocks, inode_bitmap_blocks)` is ordered when it fits the device
and leaves a data block. -/
theorem ordered_ofAreas {totalBlocks inodeBitmapBlocks : Nat} (fits : Fits totalBlocks inodeBitmapBlocks)
    (data : 0 < (areas totalBlocks inodeBitmapBlocks).dataAreaBlocks) (wide : totalBlocks < 2 ^ 32) :
    Ordered (ofAreas inodeBitmapBlocks (areas totalBlocks inodeBitmapBlocks)) totalBlocks := by
  have someInodes := fits.someInodes
  have dataEnd := dataArea_end fits
  have inodeArea := inodeAreaBlocks_ge totalBlocks inodeBitmapBlocks
  -- the data bitmap has a block as soon as the data area has one
  have dataBitmap : 0 < (areas totalBlocks inodeBitmapBlocks).dataBitmapBlocks := by
    simp only [areas] at data ⊢
    omega
  refine ⟨?_, ?_, ?_, ?_, wide, ?_, ?_⟩
  all_goals simp only [ofAreas, Bitmap.maximum, blockBits, blockSz] at dataEnd ⊢
  all_goals omega

end EasyFileSystem

namespace Inode

variable {efs : EasyFileSystem} {ino : Inode} {d : Disk} {totalBlocks : Nat}

/-! ## Directories of one entry -/

section OneEntry

variable {seq : List Nat} {bytes : List UInt8}

/-- The one entry of a directory of `DIRENT_SZ` bytes reads whole. -/
theorem readAt_one_entry {inode : DiskInode} (sound : inode.Sound d seq) (holds : inode.content d = bytes)
    (whole : bytes.length = direntSz) : inode.readAt 0 direntSz d = .ok ((bytes, direntSz), d) := by
  have size : inode.size = direntSz := by rw [← whole, ← holds, DiskInode.length_content]
  rw [DiskInode.readAt_eq sound, holds, size, List.drop_zero, List.take_of_length_le whole.le, Nat.zero_add,
    Nat.min_self, Nat.sub_zero]

/-- A directory of `DIRENT_SZ` bytes has the one entry `0`. -/
theorem range_of_one_entry {inode : DiskInode} (holds : inode.content d = bytes) (whole : bytes.length = direntSz) :
    List.range (inode.size / direntSz) = [0] := by
  rw [← DiskInode.length_content, holds, whole, Nat.div_self (by decide), List.range_one]

/-- `ls()` of a directory that holds one entry returns the name `name()` reads from it, and
panics where `name()` panics. -/
theorem ls_of_one_entry (present : ino.blockId < d.blocks) (fits : ino.blockOffset + diskInodeSize ≤ blockSz)
    (sound : (DiskInode.load d.bytes ino.addr).Sound d seq)
    (holds : (DiskInode.load d.bytes ino.addr).content d = bytes) (whole : bytes.length = direntSz) :
    ino.ls d = (DirEntry.empty.fill bytes).name.map fun name => ([name], d) := by
  unfold ls
  rw [Foundation.bind_of_ok (readDiskInode_apply present fits), range_of_one_entry holds whole, lsLoop, Nat.zero_mul,
    Foundation.bind_of_ok (liftFs_of_ok (readAt_one_entry sound holds whole))]
  dsimp only
  rw [if_neg (not_not.mpr rfl)]
  cases named : (DirEntry.empty.fill bytes).name with
  | error err => rfl
  | ok name => rfl

/-- `find_inode_id(name)` of a directory that holds one entry finds that entry's inode when
`name()` reads `name` from it, and panics where `name()` panics. -/
theorem findInodeId_of_one_entry {inode : DiskInode} (dir : inode.type_ = .directory) (sound : inode.Sound d seq)
    (holds : inode.content d = bytes) (whole : bytes.length = direntSz) (name : List UInt8) :
    findInodeId inode name d = (DirEntry.empty.fill bytes).name.map fun found =>
      (if found = name then some (DirEntry.empty.fill bytes).inodeNumber.toNat else none, d) := by
  unfold findInodeId
  dsimp only
  rw [if_neg (not_not.mpr dir), range_of_one_entry holds whole, findInodeIdLoop, Nat.mul_zero,
    Foundation.bind_of_ok (liftFs_of_ok (readAt_one_entry sound holds whole))]
  dsimp only
  rw [if_neg (not_not.mpr rfl)]
  cases named : (DirEntry.empty.fill bytes).name with
  | error err => rfl
  | ok found =>
      -- the loop ends after the one entry, with `None` when its name is another
      rw [Foundation.liftExcept_ok_bind]
      by_cases same : found = name
      · rw [if_pos same]
        simp only [Except.map, if_pos same]
        rfl
      · rw [if_neg same]
        simp only [Except.map, if_neg same]
        rfl

/-- `find(name)` of a directory that holds one entry returns the inode of that entry when
`name()` reads `name` from it, and panics where `name()` panics. -/
theorem find_of_one_entry (efs : EasyFileSystem) (present : ino.blockId < d.blocks)
    (fits : ino.blockOffset + diskInodeSize ≤ blockSz) (dir : (DiskInode.load d.bytes ino.addr).type_ = .directory)
    (sound : (DiskInode.load d.bytes ino.addr).Sound d seq)
    (holds : (DiskInode.load d.bytes ino.addr).content d = bytes) (whole : bytes.length = direntSz) (name : List UInt8) :
    ino.find efs name d = (DirEntry.empty.fill bytes).name.map fun found =>
      (if found = name then some (efs.inodeOf (DirEntry.empty.fill bytes).inodeNumber.toNat) else none, d) := by
  have lookup := findInodeId_of_one_entry dir sound holds whole name
  unfold find
  rw [Foundation.bind_of_ok (readDiskInode_apply present fits)]
  cases named : (DirEntry.empty.fill bytes).name with
  | error err =>
      rw [named] at lookup
      exact Foundation.bind_of_error lookup
  | ok found =>
      rw [named] at lookup
      rw [Foundation.bind_of_ok lookup]
      simp only [Except.map]
      by_cases same : found = name
      · rw [if_pos same, if_pos same]
        rfl
      · rw [if_neg same, if_neg same]
        rfl

end OneEntry

/-! ## `create` on a formatted device -/

section Create

/-- The root record is record `0` of the first block of the inode area. -/
theorem rootInode_fits (efs : EasyFileSystem) : efs.rootInode.blockOffset + diskInodeSize ≤ blockSz := by
  show 0 + diskInodeSize ≤ blockSz
  decide

/-- The root record lies before the data area, so on every device that holds a data block. -/
theorem rootInode_lt (ordered : efs.Ordered totalBlocks) (holds : efs.dataAreaStartBlock < d.blocks) :
    efs.rootInode.blockId < d.blocks := by
  have inodeAreaLt := ordered.inodeArea_lt
  have dataBitmapEnd := ordered.dataBitmap_end
  show efs.inodeAreaStartBlock < d.blocks
  omega

/-- A `modify_disk_inode(f)` of a directory whose `f` returns the record it was given and leaves
the device leaves the device as it was. -/
theorem modifyDiskInode_of_keeps {α : Type} (present : ino.blockId < d.blocks)
    (fits : ino.blockOffset + diskInodeSize ≤ blockSz) {inode : DiskInode}
    (loaded : DiskInode.load d.bytes ino.addr = inode) (dir : inode.type_ = .directory)
    {f : DiskInode → VfsM (α × DiskInode)} {a : α} (ran : f inode d = .ok ((a, inode), d)) :
    ino.modifyDiskInode f d = .ok (a, d) := by
  rw [modifyDiskInode_apply present fits loaded ran, ← loaded,
    DiskInode.writeBytes_encode_load (DiskInode.typed_of_directory (loaded ▸ dir))]

/-- `Inode::increase_size(new_size)` of an empty inode takes the blocks `k, k + 1, …` of the data
area from a data bitmap whose set bits are `0, …, k - 1`, and grows over them. -/
theorem increaseSize_ofType (type_ : DiskInodeType) {newSize k : Nat} (filled : efs.dataBitmap.Prefix d k)
    (bounded : newSize ≤ indirect2Bound * blockSz)
    (room : k + DiskInode.totalBlocks newSize ≤ efs.dataBitmap.maximum)
    (onDevice : efs.dataAreaStartBlock + k + DiskInode.totalBlocks newSize ≤ d.blocks)
    (wide : efs.dataAreaStartBlock + k + DiskInode.totalBlocks newSize ≤ 2 ^ 32) :
    ∃ inode d', increaseSize efs newSize (DiskInode.ofType type_) d = .ok (inode, d') ∧ inode.size = newSize ∧
      inode.type_ = type_ ∧
      inode.Sound d' (List.range' (efs.dataAreaStartBlock + k) (DiskInode.totalBlocks newSize)) := by
  have empty : (DiskInode.ofType type_).size = 0 := rfl
  obtain ⟨d₁, allocated, -, sized⟩ := efs.allocDataLoop_of_filled (DiskInode.totalBlocks newSize) k d filled room
  have inside : ∀ id ∈ List.range' (efs.dataAreaStartBlock + k) (DiskInode.totalBlocks newSize),
      id < d₁.blocks ∧ id < 2 ^ 32 := by
    intro id member
    rw [List.mem_range'_1] at member
    rw [sized]
    omega
  obtain ⟨inode, d₂, grown, size, sound, -, -⟩ := (DiskInode.sound_ofType type_ d₁).increaseSize
    (List.nodup_range' ..) inside (Nat.zero_le _) bounded
    (by rw [List.length_range', empty, DiskInode.totalBlocks_zero, Nat.sub_zero])
  have typed := DiskInode.increaseSize_type grown
  refine ⟨inode, d₂, ?_, size, typed, sound⟩
  have needed : (DiskInode.ofType type_).blocksNumNeeded newSize = .ok (DiskInode.totalBlocks newSize) := by
    rw [DiskInode.blocksNumNeeded, if_neg (by rw [empty]; exact Nat.not_lt_zero _), empty, DiskInode.totalBlocks_zero,
      Nat.sub_zero]
  unfold increaseSize
  rw [if_neg (by rw [empty]; exact Nat.not_lt_zero _),
    Foundation.bind_of_ok (Foundation.liftExcept_eq_ok.mpr ⟨needed, rfl⟩), Foundation.bind_of_ok (liftFs_of_ok allocated),
    Foundation.bind_of_ok (liftFs_of_ok grown)]
  rfl

/-- `create(name)` in the root directory of a formatted device, for a name `DirEntry::new`
accepts: the new file is inode `1`, and the root directory then holds the one entry of `name`,
in the first block of the data area. -/
theorem create_on_formatted (ordered : efs.Ordered totalBlocks) (formatted : efs.Formatted totalBlocks d)
    {name : List UInt8} {e : DirEntry} (built : DirEntry.new name 1 = .ok e) :
    ∃ d', Inode.create efs efs.rootInode name d = .ok (some (efs.inodeOf 1), d') ∧
      (DiskInode.load d'.bytes efs.rootInode.addr).type_ = .directory ∧
      (DiskInode.load d'.bytes efs.rootInode.addr).Sound d' [efs.dataAreaStartBlock] ∧
      (DiskInode.load d'.bytes efs.rootInode.addr).content d' = e.asBytes := by
  have inodeBitmapEnd := ordered.inodeBitmap_end
  have inodeAreaLt := ordered.inodeArea_lt
  have dataBitmapEnd := ordered.dataBitmap_end
  have dataAreaLt := ordered.dataArea_lt
  have wide := ordered.wide
  have sized := formatted.blocks_eq
  -- the root record is record `0` of the first inode block, the new file's record `1`
  have rootBlock : efs.rootInode.blockId = efs.inodeAreaStartBlock := rfl
  have rootOffset : efs.rootInode.blockOffset = 0 := rfl
  have fileBlock : (efs.inodeOf 1).blockId = efs.inodeAreaStartBlock := rfl
  have fileOffset : (efs.inodeOf 1).blockOffset = diskInodeSize := rfl
  have fits := rootInode_fits efs
  have present : efs.inodeAreaStartBlock < d.blocks := by omega
  -- setting the bit of inode `1` and initializing its record keep the root record and the data bitmap
  let d₁ := efs.inodeBitmap.setBit d 1
  have setWithin : WritesWithin (efs.inodeBitmap.startBlockId * blockSz)
      ((efs.inodeBitmap.startBlockId + efs.inodeBitmap.blocks) * blockSz) d d₁ :=
    Bitmap.setBit_within ordered.inodeRoom
  obtain ⟨d₂, inited, initWithin⟩ := DiskInode.init_stays efs.inodeAreaStartBlock diskInodeSize .file d₁ present
  have sized₂ : d₂.blocks = totalBlocks := initWithin.blocks_eq.trans sized
  have root₂ : DiskInode.load d₂.bytes efs.rootInode.addr = DiskInode.ofType .directory := by
    rw [DiskInode.load_of_writesWithin initWithin (.inl (by simp [Inode.addr, rootBlock, rootOffset, byteAddr])),
      DiskInode.load_of_writesWithin setWithin (.inr (by
        simp only [Inode.addr, rootBlock, rootOffset, byteAddr, Nat.add_zero]
        exact Nat.mul_le_mul_right _ inodeBitmapEnd)), ← formatted.root]
    rfl
  have data₂ : efs.dataBitmap.Prefix d₂ 0 :=
    (formatted.data.of_writesWithin setWithin (.inl (by simp only [blockSz]; omega))).of_writesWithin initWithin
      (.inl (by simp only [byteAddr, diskInodeSize, blockSz]; omega))
  -- the directory grows over the first data block, and the entry is written there
  have one : DiskInode.totalBlocks direntSz = 1 := by decide
  obtain ⟨inode, d₃, grown, size, typed, sound₃⟩ := increaseSize_ofType .directory data₂
    (show direntSz ≤ indirect2Bound * blockSz by decide) (by rw [one]; exact ordered.dataRoom)
    (by rw [one, sized₂]; omega) (by rw [one]; omega)
  rw [one, List.range'_one, Nat.add_zero] at sound₃
  have entry : e.asBytes.length = direntSz := DirEntry.length_asBytes e
  obtain ⟨d₄, wrote, sound₄, content₄, -⟩ := DiskInode.writeAt_spec sound₃ (show 0 < inode.size by rw [size]; decide)
    e.asBytes
  rw [entry, size, Nat.zero_add, Nat.min_self, Nat.sub_zero, ← entry, List.take_length,
    Foundation.patch_zero_of_length (by rw [entry, DiskInode.length_content, size])] at content₄
  have apart : efs.rootInode.blockId ∉ [efs.dataAreaStartBlock] := by
    rw [List.mem_singleton, rootBlock]
    omega
  obtain ⟨back, sound₅, content₅⟩ := writeBack_of_not_mem fits apart sound₄.fieldsFit sound₄
  refine ⟨⟨d₄.blocks, Foundation.writeBytes d₄.bytes efs.rootInode.addr inode.encode⟩, ?run, by rw [back]; exact typed,
    by rw [back]; exact sound₅, by rw [back, content₅, content₄]⟩
  case run =>
    have present₁ : (efs.inodeOf 1).blockId < (efs.inodeBitmap.setBit d 1).blocks := present
    have present₂ : efs.rootInode.blockId < d₂.blocks := by rw [rootBlock, sized₂]; omega
    have built' : DirEntry.new name (UInt32.ofNat 1) = .ok e := built
    unfold Inode.create
    -- the lookup reads the empty root directory and finds nothing
    rw [Foundation.bind_of_ok (modifyDiskInode_of_keeps present fits formatted.root rfl ?lookup)]
    case lookup => rfl
    dsimp only
    rw [if_neg (by decide), Foundation.bind_of_ok (liftFs_of_ok (EasyFileSystem.allocInode_of_filled formatted.inodes
      ordered.inodeRoom)), show 1 % 2 ^ 32 = 1 from rfl, Foundation.bind_of_ok (liftFs_of_ok (checkBlock_of_lt present₁)),
      if_neg (by rw [fileOffset]; decide), fileBlock, fileOffset, Foundation.bind_of_ok (liftFs_of_ok inited),
      Foundation.bind_of_ok (modifyDiskInode_apply present₂ fits root₂ ?grow)]
    case grow =>
      -- the directory is empty: its entry goes to offset `0` and its new size is `DIRENT_SZ`
      have newSize : ((DiskInode.ofType .directory).size / direntSz + 1) * direntSz % 2 ^ 32 = direntSz := rfl
      have offset : (DiskInode.ofType .directory).size / direntSz * direntSz = 0 := rfl
      rw [newSize, offset, Foundation.bind_of_ok grown, Foundation.bind_of_ok (Foundation.liftExcept_eq_ok.mpr ⟨built', rfl⟩),
        Foundation.bind_of_ok (liftFs_of_ok wrote)]
      rfl
    rfl

/-- `create(name)` in the root directory of a new file system, for a name `DirEntry::new`
takes: the new file is inode `1`, the root directory holds the 32 bytes of the entry, and `ls()`
and every `find` read the entry back through `name()`. -/
theorem create_on_new_fs {d : Disk} {totalBlocks inodeBitmapBlocks : Nat} {name : List UInt8} {e : DirEntry}
    (sized : d.blocks = totalBlocks) (fits : EasyFileSystem.Fits totalBlocks inodeBitmapBlocks)
    (data : 0 < (EasyFileSystem.areas totalBlocks inodeBitmapBlocks).dataAreaBlocks) (wide : totalBlocks < 2 ^ 32)
    (built : DirEntry.new name 1 = .ok e) :
    ∃ efs d₁ d₂, EasyFileSystem.create totalBlocks inodeBitmapBlocks d = .ok (efs, d₁) ∧
      Inode.create efs efs.rootInode name d₁ = .ok (some (efs.inodeOf 1), d₂) ∧
      (DiskInode.load d₂.bytes efs.rootInode.addr).content d₂ = e.asBytes ∧
      efs.rootInode.ls d₂ = e.name.map (fun found => ([found], d₂)) ∧
      ∀ name', Inode.find efs efs.rootInode name' d₂ =
        e.name.map fun found => (if found = name' then some (efs.inodeOf e.inodeNumber.toNat) else none, d₂) := by
  have ordered := EasyFileSystem.ordered_ofAreas fits data wide
  obtain ⟨d₁, created, formatted⟩ := EasyFileSystem.create_spec sized fits
  obtain ⟨d₂, stored, dir, sound, holds⟩ := create_on_formatted ordered formatted built
  have present := rootInode_lt ordered (sound.onDevice _ (List.mem_singleton_self _))
  have whole := DirEntry.length_asBytes e
  refine ⟨_, d₁, d₂, created, stored, holds, ?_, fun name' => ?_⟩
  · rw [ls_of_one_entry present (rootInode_fits _) sound holds whole, DirEntry.fill_asBytes]
  · rw [find_of_one_entry _ present (rootInode_fits _) dir sound holds whole, DirEntry.fill_asBytes]

/-- After `create(name)` of a name of at most `NAME_LENGTH_LIMIT` bytes in the root directory of a
new file system, `ls()` lists the name and `find(name)` returns the new inode. -/
theorem create_then_find {d : Disk} {totalBlocks inodeBitmapBlocks : Nat} {name : List UInt8}
    (sized : d.blocks = totalBlocks) (fits : EasyFileSystem.Fits totalBlocks inodeBitmapBlocks)
    (data : 0 < (EasyFileSystem.areas totalBlocks inodeBitmapBlocks).dataAreaBlocks) (wide : totalBlocks < 2 ^ 32)
    (short : name.length ≤ nameLengthLimit) (noNul : (0 : UInt8) ∉ name) (valid : Foundation.Utf8.Valid name) :
    ∃ efs d₁ d₂, EasyFileSystem.create totalBlocks inodeBitmapBlocks d = .ok (efs, d₁) ∧
      Inode.create efs efs.rootInode name d₁ = .ok (some (efs.inodeOf 1), d₂) ∧
      efs.rootInode.ls d₂ = .ok ([name], d₂) ∧ Inode.find efs efs.rootInode name d₂ = .ok (some (efs.inodeOf 1), d₂) := by
  obtain ⟨e, built, named, numbered⟩ := DirEntry.name_new short noNul valid 1
  obtain ⟨efs, d₁, d₂, created, stored, -, listed, found⟩ := create_on_new_fs sized fits data wide built
  refine ⟨efs, d₁, d₂, created, stored, ?_, ?_⟩
  · rw [listed, named]
    rfl
  · rw [found, named, numbered]
    simp [Except.map]

/-- `DirEntry::new` accepts a name of `NAME_LENGTH_LIMIT + 1 = 28` bytes with no 0 in it, whose
entry `name()` then panics on. `create(name)` in the root directory of a new file system stores
that entry: the directory holds its 32 bytes, and from then on `ls()` and `find` of every name
panic. -/
theorem create_full_name_breaks_root {d : Disk} {totalBlocks inodeBitmapBlocks : Nat} {name : List UInt8}
    (sized : d.blocks = totalBlocks) (fits : EasyFileSystem.Fits totalBlocks inodeBitmapBlocks)
    (data : 0 < (EasyFileSystem.areas totalBlocks inodeBitmapBlocks).dataAreaBlocks) (wide : totalBlocks < 2 ^ 32)
    (full : name.length = nameLengthLimit + 1) (noNul : (0 : UInt8) ∉ name) :
    (∀ inodeNumber, ∃ e, DirEntry.new name inodeNumber = .ok e ∧ e.name = .error .nameNotTerminated) ∧
      ∃ efs d₁ d₂ e, EasyFileSystem.create totalBlocks inodeBitmapBlocks d = .ok (efs, d₁) ∧
        DirEntry.new name 1 = .ok e ∧ Inode.create efs efs.rootInode name d₁ = .ok (some (efs.inodeOf 1), d₂) ∧
        (DiskInode.load d₂.bytes efs.rootInode.addr).content d₂ = e.asBytes ∧
        efs.rootInode.ls d₂ = .error .nameNotTerminated ∧
        ∀ name', Inode.find efs efs.rootInode name' d₂ = .error .nameNotTerminated := by
  obtain ⟨e, built, broken⟩ := DirEntry.name_new_of_full full noNul 1
  obtain ⟨efs, d₁, d₂, created, stored, holds, listed, found⟩ := create_on_new_fs sized fits data wide built
  refine ⟨DirEntry.name_new_of_full full noNul, efs, d₁, d₂, e, created, built, stored, holds, ?_, fun name' => ?_⟩
  · rw [listed, broken]
    rfl
  · rw [found, broken]
    rfl

theorem create_full_name_breaks_root_on_1030_blocks :
    (⟨1030, fun _ => 0⟩ : Disk).blocks = 1030 ∧ EasyFileSystem.Fits 1030 1 ∧
      0 < (EasyFileSystem.areas 1030 1).dataAreaBlocks ∧ 1030 < 2 ^ 32 ∧
      (List.replicate 28 (97 : UInt8)).length = nameLengthLimit + 1 ∧ (0 : UInt8) ∉ List.replicate 28 97 ∧
      (∀ inodeNumber, ∃ e, DirEntry.new (List.replicate 28 97) inodeNumber = .ok e ∧
        e.name = .error .nameNotTerminated) ∧
      ∃ efs d₁ d₂ e, EasyFileSystem.create 1030 1 ⟨1030, fun _ => 0⟩ = .ok (efs, d₁) ∧
        DirEntry.new (List.replicate 28 97) 1 = .ok e ∧
        Inode.create efs efs.rootInode (List.replicate 28 97) d₁ = .ok (some (efs.inodeOf 1), d₂) ∧
        (DiskInode.load d₂.bytes efs.rootInode.addr).content d₂ = e.asBytes ∧
        efs.rootInode.ls d₂ = .error .nameNotTerminated ∧
        ∀ name', Inode.find efs efs.rootInode name' d₂ = .error .nameNotTerminated := by
  have fits : EasyFileSystem.Fits 1030 1 := ⟨by decide, by decide⟩
  exact ⟨rfl, fits, by decide, by decide, by decide, by decide,
    create_full_name_breaks_root rfl fits (by decide) (by decide) (by decide) (by decide)⟩

end Create

end Inode

end EasyFs

end RCore
