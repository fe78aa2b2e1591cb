import RCore.EasyFs.DirEntry
import RCore.EasyFs.DiskInodeRecord
import RCore.EasyFs.DiskInodeGrow
import RCore.EasyFs.Efs

/-! # The vfs layer

`easy-fs/src/vfs.rs`. An `Inode` names the record of a `DiskInode` by its block and byte
offset; its methods reach the record through the block cache (`read_disk_inode`,
`modify_disk_inode`), grow it through `Inode::increase_size`, which allocates the data blocks
`DiskInode::increase_size` consumes, and keep a directory as a file of `DirEntry`s. The
`EasyFileSystem` an `Inode` shares is passed to its methods: only the device changes under it.

The model keeps the block cache as the device (`RCore.EasyFs.BlockCacheManager.run_refines`)
and leaves out `block_cache_sync_all`, which writes the cache back to a device the model already
shows. A panic of the layers below is `VfsPanic.fs` of it (`RCore.EasyFs.liftFs`).
-/

namespace RCore

namespace EasyFs

/-- A computation of the vfs layer on a device. -/
abbrev VfsM := StateT Disk (Except VfsPanic)

/-- A computation of the layers below, with its panic seen from the vfs layer. -/
def liftFs {α : Type} (x : FsM α) : VfsM α := fun d => (x d).mapError .fs

/-- `DiskInode::blocks_num_needed(new_size)`. -/
def DiskInode.blocksNumNeeded (inode : DiskInode) (newSize : Nat) : Except VfsPanic Nat :=
  if newSize < inode.size then .error (.sizeShrinks inode.size newSize)
  else .ok (DiskInode.totalBlocks newSize - DiskInode.totalBlocks inode.size)

/-- `Inode`: the block and the byte offset of its `DiskInode`. -/
structure Inode where
  blockId : Nat
  blockOffset : Nat
deriving DecidableEq, Repr

/-- The `Inode` of inode `inodeId`: `Inode::new` at `fs.get_disk_inode_pos(inode_id)`. -/
def EasyFileSystem.inodeOf (efs : EasyFileSystem) (inodeId : Nat) : Inode :=
  ⟨(efs.getDiskInodePos inodeId).1, (efs.getDiskInodePos inodeId).2⟩

/-- `EasyFileSystem::root_inode`. -/
def EasyFileSystem.rootInode (efs : EasyFileSystem) : Inode := efs.inodeOf 0

namespace DiskInode.Sound

variable {inode : DiskInode} {d d' : Disk} {seq : List Nat}

/-- A sound inode stays sound over a change of bytes outside its blocks. -/
theorem of_blocks (sound : inode.Sound d seq) (sized : d'.blocks = d.blocks)
    (same : ∀ a, a / blockSz ∈ seq → d'.bytes a = d.bytes a) : inode.Sound d' seq where
  layout := sound.layout.of_entries fun s inside _ index small => by
    unfold entryOf
    refine Foundation.loadLE_congr fun a low high => same a ?_
    -- entry `index` of an index block lies inside that block
    have inBlock : a / blockSz = seq.getD s 0 := by
      unfold byteAddr inodeIndirect1Count blockSz at *
      omega
    rw [inBlock]
    exact DiskInode.getD_mem inside
  nodup := sound.nodup
  onDevice id member := sized ▸ sound.onDevice id member
  small := sound.small
  counted := sound.counted
  bounded := sound.bounded

/-- Its contents stay as they were. -/
theorem content_of_blocks (sound : inode.Sound d seq) (sized : d'.blocks = d.blocks)
    (same : ∀ a, a / blockSz ∈ seq → d'.bytes a = d.bytes a) : inode.content d' = inode.content d := by
  rw [(sound.of_blocks sized same).content_eq, sound.content_eq]
  refine Foundation.gather_congr fun i inside => same _ ?_
  rw [DiskInode.dataAddr_div]
  exact DiskInode.getD_mem (sound.dataSlot_lt (DiskInode.div_lt_dataBlocksOf inside))

/-- The fields of a sound inode are `u32`s. -/
theorem fieldsFit (sound : inode.Sound d seq) : inode.FieldsFit := by
  have slot : ∀ i, seq.getD i 0 < 2 ^ 32 := fun i => by
    by_cases inside : i < seq.length
    · exact sound.small _ (DiskInode.getD_mem inside)
    · rw [List.getD_eq_default _ _ (by omega)]
      decide
  refine ⟨?_, fun id member => ?_, sound.layout.indirect1 ▸ slot _, sound.layout.indirect2 ▸ slot _⟩
  · have bounded := sound.bounded
    rw [DiskInode.indirect2Bound_eq] at bounded
    unfold blockSz at bounded
    omega
  · obtain ⟨j, inside, rfl⟩ := List.getElem_of_mem member
    have getD : inode.direct.getD j 0 = inode.direct[j] := List.getD_eq_getElem _ _ _
    rw [← getD, sound.layout.direct j (inode.direct_length ▸ inside)]
    exact slot j

end DiskInode.Sound

theorem DiskInode.length_content (inode : DiskInode) (d : Disk) : (inode.content d).length = inode.size :=
  Foundation.length_gather

/-- The inode `initialize` leaves is sound, with no blocks. -/
theorem DiskInode.sound_ofType (type_ : DiskInodeType) (d : Disk) : (DiskInode.ofType type_).Sound d [] :=
  ⟨DiskInode.layout_ofType type_ d, List.nodup_nil, fun _ member => absurd member List.not_mem_nil,
    fun _ member => absurd member List.not_mem_nil, DiskInode.totalBlocks_zero.symm, Nat.zero_le _⟩

namespace Inode

/-- The device address of the record. -/
def addr (ino : Inode) : Nat := byteAddr ino.blockId ino.blockOffset

/-- `read_disk_inode(f)`: `get_block_cache(block_id)` loads the block, `get_ref` asserts that
the record fits in it, and `f` sees the record. -/
def readDiskInode (ino : Inode) : VfsM DiskInode := liftFs do
  checkBlock ino.blockId
  if ino.blockOffset + diskInodeSize ≤ blockSz then
    return DiskInode.load (← get).bytes ino.addr
  else throw (.typeOutOfBlock ino.blockOffset diskInodeSize)

/-- `modify_disk_inode(f)`: as `read_disk_inode`, and the record `f` leaves is the record in
the block afterwards. `f` runs under the lock of the record's block, so a run of `f` that
reached that block again would not return. -/
def modifyDiskInode {α : Type} (ino : Inode) (f : DiskInode → VfsM (α × DiskInode)) : VfsM α := do
  let inode ← ino.readDiskInode
  let (a, inode) ← f inode
  modify fun d => { d with bytes := Foundation.writeBytes d.bytes ino.addr inode.encode }
  return a

/-- The loop of `find_inode_id` over the entries `ids`, each read over `dirent`. -/
def findInodeIdLoop (inode : DiskInode) (name : List UInt8) : List Nat → DirEntry → VfsM (Option Nat)
  | [], _ => return none
  | i :: rest, dirent => do
      let (bytes, count) ← liftFs (inode.readAt (direntSz * i) direntSz)
      let dirent := dirent.fill bytes
      if count ≠ direntSz then throw (.shortDirent count)
      if (← StateT.lift dirent.name) = name then return some dirent.inodeNumber.toNat
      findInodeIdLoop inode name rest dirent

/-- `find_inode_id(name, disk_inode)`. -/
def findInodeId (inode : DiskInode) (name : List UInt8) : VfsM (Option Nat) := do
  if inode.type_ ≠ .directory then throw .notDirectory
  findInodeIdLoop inode name (List.range (inode.size / direntSz)) DirEntry.empty

/-- `find(name)`. -/
def find (efs : EasyFileSystem) (ino : Inode) (name : List UInt8) : VfsM (Option Inode) := do
  let inode ← ino.readDiskInode
  let found ← findInodeId inode name
  return found.map efs.inodeOf

/-- `Inode::increase_size(new_size, disk_inode, fs)`: `blocks_needed` calls of `alloc_data`
supply the blocks `DiskInode::increase_size` takes. -/
def increaseSize (efs : EasyFileSystem) (newSize : Nat) (inode : DiskInode) : VfsM DiskInode := do
  if newSize < inode.size then return inode
  let blocksNeeded ← StateT.lift (inode.blocksNumNeeded newSize)
  let v ← liftFs (efs.allocDataLoop blocksNeeded)
  let (inode, _) ← liftFs (inode.increaseSize newSize v)
  return inode

/-- `create(name)`, with `new_inode_id` the `u32` that `alloc_inode` returns. -/
def create (efs : EasyFileSystem) (ino : Inode) (name : List UInt8) : VfsM (Option Inode) := do
  let found ← ino.modifyDiskInode fun root => do
    if root.type_ ≠ .directory then throw .notDirectory
    return (← findInodeId root name, root)
  if found.isSome then return none
  let newInodeId := (← liftFs efs.allocInode) % 2 ^ 32
  let created := efs.inodeOf newInodeId
  -- `modify(new_inode_block_offset, ..)` loads the block and asserts that the record fits
  liftFs (checkBlock created.blockId)
  if blockSz < created.blockOffset + diskInodeSize then
    throw (.fs (.typeOutOfBlock created.blockOffset diskInodeSize))
  liftFs (DiskInode.init created.blockId created.blockOffset .file)
  ino.modifyDiskInode fun root => do
    let fileCount := root.size / direntSz
    let newSize := (fileCount + 1) * direntSz
    let root ← increaseSize efs (newSize % 2 ^ 32) root
    let dirent ← StateT.lift (DirEntry.new name (UInt32.ofNat newInodeId))
    let _ ← liftFs (root.writeAt (fileCount * direntSz) dirent.asBytes)
    return ((), root)
  return some created

/-- The loop of `ls` over the entries `ids`, each read over an empty entry. -/
def lsLoop (inode : DiskInode) : List Nat → VfsM (List (List UInt8))
  | [] => return []
  | i :: rest => do
      let (bytes, count) ← liftFs (inode.readAt (i * direntSz) direntSz)
      if count ≠ direntSz then throw (.shortDirent count)
      let name ← StateT.lift (DirEntry.empty.fill bytes).name
      let names ← lsLoop inode rest
      return name :: names

/-- `ls()`. -/
def ls (ino : Inode) : VfsM (List (List UInt8)) := do
  let inode ← ino.readDiskInode
  lsLoop inode (List.range (inode.size / direntSz))

/-- `read_at(offset, buf)` of `len` bytes: the bytes read into `buf` and their count. -/
def readAt (ino : Inode) (offset len : Nat) : VfsM (List UInt8 × Nat) := do
  let inode ← ino.readDiskInode
  liftFs (inode.readAt offset len)

/-- `write_at(offset, buf)`, with the new size `(offset + buf.len()) as u32`. -/
def writeAt (efs : EasyFileSystem) (ino : Inode) (offset : Nat) (buf : List UInt8) : VfsM Nat :=
  ino.modifyDiskInode fun inode => do
    let inode ← increaseSize efs ((offset + buf.length) % 2 ^ 32) inode
    let size ← liftFs (inode.writeAt offset buf)
    return (size, inode)

/-- `clear()`. -/
def clear (efs : EasyFileSystem) (ino : Inode) : VfsM Unit :=
  ino.modifyDiskInode fun inode => do
    let size := inode.size
    let (dataBlocksDealloc, inode) ← liftFs inode.clearSize
    if dataBlocksDealloc.length ≠ DiskInode.totalBlocks size then
      throw (.deallocCountMismatch dataBlocksDealloc.length)
    liftFs (dataBlocksDealloc.forM efs.deallocData)
    return ((), inode)

/-! ## Reading a file -/

section Read

variable {ino : Inode} {d : Disk}

@[simp] theorem liftFs_apply {α : Type} (x : FsM α) (d : Disk) : liftFs x d = (x d).mapError .fs := rfl

/-- The record of an inode whose block is on the device and holds it. -/
theorem readDiskInode_apply (present : ino.blockId < d.blocks) (fits : ino.blockOffset + diskInodeSize ≤ blockSz) :
    ino.readDiskInode d = .ok (DiskInode.load d.bytes ino.addr, d) := by
  unfold readDiskInode
  rw [liftFs_apply, Foundation.bind_of_ok (checkBlock_of_lt present), if_pos fits]
  rfl

/-- A device of eight blocks whose block `2` holds the record of `DiskInode.threeByteFile` at
offset `0`, every other byte zero. -/
def threeByteDisk : Disk :=
  ⟨8, Foundation.writeBytes (fun _ => 0) (byteAddr 2 0) DiskInode.threeByteFile.encode⟩

theorem load_threeByteDisk : DiskInode.load threeByteDisk.bytes (Inode.addr ⟨2, 0⟩) = DiskInode.threeByteFile :=
  DiskInode.load_writeBytes_encode ⟨by decide, by decide, by decide, by decide⟩ _ _

theorem sound_threeByteDisk : (DiskInode.load threeByteDisk.bytes (Inode.addr ⟨2, 0⟩)).Sound threeByteDisk [5] := by
  rw [load_threeByteDisk]
  exact DiskInode.sound_threeBytes _

end Read

/-! ## Writing inside a file -/

section Write

variable {ino : Inode} {d : Disk}

theorem liftFs_of_ok {α : Type} {x : FsM α} {r : α × Disk} (ran : x d = .ok r) : liftFs x d = .ok r := by
  rw [liftFs_apply, ran]
  rfl

/-- `Inode::increase_size` to a size below the current one returns at once. -/
theorem increaseSize_of_lt (efs : EasyFileSystem) {inode : DiskInode} {newSize : Nat} (short : newSize < inode.size) :
    increaseSize efs newSize inode d = .ok (inode, d) := by
  unfold increaseSize
  rw [if_pos short]
  rfl

/-- Writing a record back changes no byte of the blocks of a file that does not hold it. -/
theorem writeBytes_record_of_not_mem {seq : List Nat} (fits : ino.blockOffset + diskInodeSize ≤ blockSz)
    (apart : ino.blockId ∉ seq) (inode : DiskInode) (bytes : Nat → UInt8) :
    ∀ a, a / blockSz ∈ seq → Foundation.writeBytes bytes ino.addr inode.encode a = bytes a := by
  intro a member
  refine Foundation.writeBytes_apply_of_not_mem fun inside => apart ?_
  -- the record lies in the block `block_id`
  have inBlock : a / blockSz = ino.blockId := by
    rw [DiskInode.length_encode] at inside
    unfold addr byteAddr diskInodeSize blockSz at *
    omega
  exact inBlock ▸ member

/-- `modify_disk_inode(f)` runs `f` on the record in the block and writes back the record `f`
returns. -/
theorem modifyDiskInode_apply {α : Type} (present : ino.blockId < d.blocks)
    (fits : ino.blockOffset + diskInodeSize ≤ blockSz) {f : DiskInode → VfsM (α × DiskInode)}
    {inode inode' : DiskInode} {a : α} {d₁ : Disk} (loaded : DiskInode.load d.bytes ino.addr = inode)
    (ran : f inode d = .ok ((a, inode'), d₁)) :
    ino.modifyDiskInode f d = .ok (a, ⟨d₁.blocks, Foundation.writeBytes d₁.bytes ino.addr inode'.encode⟩) := by
  unfold modifyDiskInode
  rw [Foundation.bind_of_ok (readDiskInode_apply present fits), loaded, Foundation.bind_of_ok ran]
  rfl

/-- A record written back outside the blocks of its file reads back as itself, with its layout
and contents as they were. -/
theorem writeBack_of_not_mem {seq : List Nat} {inode : DiskInode} {d₁ : Disk}
    (fits : ino.blockOffset + diskInodeSize ≤ blockSz) (apart : ino.blockId ∉ seq)
    (fit : inode.FieldsFit) (sound : inode.Sound d₁ seq) :
    DiskInode.load (Foundation.writeBytes d₁.bytes ino.addr inode.encode) ino.addr = inode ∧
      inode.Sound ⟨d₁.blocks, Foundation.writeBytes d₁.bytes ino.addr inode.encode⟩ seq ∧
      inode.content ⟨d₁.blocks, Foundation.writeBytes d₁.bytes ino.addr inode.encode⟩ =
        inode.content d₁ := by
  have same := writeBytes_record_of_not_mem fits apart inode d₁.bytes
  exact ⟨DiskInode.load_writeBytes_encode fit _ _, sound.of_blocks rfl same,
    sound.content_of_blocks rfl same⟩

/-- `write_at(offset, buf)` inside a file writes `buf` over its contents from `offset` and
returns `buf.len()`, keeping the record and its layout, when the file's blocks do not hold the
record. -/
theorem writeAt_in_place (efs : EasyFileSystem) {seq : List Nat} (present : ino.blockId < d.blocks)
    (fits : ino.blockOffset + diskInodeSize ≤ blockSz) (sound : (DiskInode.load d.bytes ino.addr).Sound d seq)
    (apart : ino.blockId ∉ seq) {offset : Nat} {buf : List UInt8}
    (inside : offset + buf.length < (DiskInode.load d.bytes ino.addr).size) :
    ∃ d', ino.writeAt efs offset buf d = .ok (buf.length, d') ∧
      DiskInode.load d'.bytes ino.addr = DiskInode.load d.bytes ino.addr ∧
      (DiskInode.load d'.bytes ino.addr).Sound d' seq ∧
      (DiskInode.load d'.bytes ino.addr).content d' =
        Foundation.patch ((DiskInode.load d.bytes ino.addr).content d) offset buf := by
  generalize loaded : DiskInode.load d.bytes ino.addr = inode at sound inside ⊢
  have fit : inode.FieldsFit := loaded ▸ DiskInode.load_fieldsFit d.bytes ino.addr
  have small : (offset + buf.length) % 2 ^ 32 = offset + buf.length :=
    Nat.mod_eq_of_lt (Nat.lt_trans inside fit.size)
  have count : min (offset + buf.length) inode.size - offset = buf.length := by
    omega
  obtain ⟨d₁, wrote, sound₁, content₁, -⟩ := DiskInode.writeAt_spec sound (show offset < inode.size by omega) buf
  rw [count, List.take_length] at content₁
  rw [count] at wrote
  -- `increase_size` returns at once and `DiskInode::write_at` writes the whole buffer
  have ranF : (do
      let inode ← increaseSize efs ((offset + buf.length) % 2 ^ 32) inode
      let size ← liftFs (inode.writeAt offset buf)
      return (size, inode) : VfsM (Nat × DiskInode)) d = .ok ((buf.length, inode), d₁) := by
    rw [Foundation.bind_of_ok (increaseSize_of_lt efs (by rw [small]; exact inside)),
      Foundation.bind_of_ok (liftFs_of_ok wrote)]
    rfl
  -- the record goes back over its own bytes, outside the file's blocks
  obtain ⟨back, sound₂, content₂⟩ := writeBack_of_not_mem fits apart fit sound₁
  refine ⟨_, modifyDiskInode_apply present fits loaded ranF, ?_, ?_, ?_⟩
  · exact back
  · rw [back]
    exact sound₂
  · rw [back, content₂, content₁]

theorem writeAt_in_place_of_three_bytes :
    (⟨2, 0⟩ : Inode).blockId < threeByteDisk.blocks ∧ (⟨2, 0⟩ : Inode).blockOffset + diskInodeSize ≤ blockSz ∧
      (DiskInode.load threeByteDisk.bytes (Inode.addr ⟨2, 0⟩)).Sound threeByteDisk [5] ∧
      (⟨2, 0⟩ : Inode).blockId ∉ [5] ∧
      1 + [(7 : UInt8)].length < (DiskInode.load threeByteDisk.bytes (Inode.addr ⟨2, 0⟩)).size ∧
      ∃ d', Inode.writeAt (EasyFileSystem.ofAreas 1 (EasyFileSystem.areas 8 1)) ⟨2, 0⟩ 1 [7] threeByteDisk =
          .ok ([(7 : UInt8)].length, d') ∧
        DiskInode.load d'.bytes (Inode.addr ⟨2, 0⟩) = DiskInode.load threeByteDisk.bytes (Inode.addr ⟨2, 0⟩) ∧
        (DiskInode.load d'.bytes (Inode.addr ⟨2, 0⟩)).Sound d' [5] ∧
        (DiskInode.load d'.bytes (Inode.addr ⟨2, 0⟩)).content d' =
          Foundation.patch ((DiskInode.load threeByteDisk.bytes (Inode.addr ⟨2, 0⟩)).content threeByteDisk) 1 [7] := by
  have present : (⟨2, 0⟩ : Inode).blockId < threeByteDisk.blocks := (by decide : 2 < 8)
  have fits : (⟨2, 0⟩ : Inode).blockOffset + diskInodeSize ≤ blockSz := by decide
  have apart : (⟨2, 0⟩ : Inode).blockId ∉ [5] := by decide
  have inside : 1 + [(7 : UInt8)].length < (DiskInode.load threeByteDisk.bytes (Inode.addr ⟨2, 0⟩)).size := by
    rw [load_threeByteDisk]
    decide
  exact ⟨present, fits, sound_threeByteDisk, apart, inside,
    writeAt_in_place (EasyFileSystem.ofAreas 1 (EasyFileSystem.areas 8 1)) present fits sound_threeByteDisk apart inside⟩

end Write

end Inode

end EasyFs

end RCore
