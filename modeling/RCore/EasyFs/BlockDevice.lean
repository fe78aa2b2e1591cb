import RCore.Foundation.StateExcept
import RCore.Foundation.LittleEndian

/-! # The block device under easy-fs

`easy-fs/src/block_dev.rs`, with the block cache as the layers above it see it. A device
holds `blocks` blocks of `BLOCK_SZ` bytes; block `i` is bytes `[i * 512, i * 512 + 512)` of
`RCore.EasyFs.Disk.bytes`. The file system reaches a block through
`get_block_cache(block_id, dev)`, whose cache is transparent
(`RCore.EasyFs.BlockCacheManager.run_refines`): a `read` sees the latest `modify` of the
block, and the first use of a block loads it from the device, which fails past the device's
end: the host's `BlockFile::read_block` asserts "Not a complete block!" and the kernel's
virtio driver panics on the failed read. The layers above therefore read and write typed little-endian values of
a block (`RCore.EasyFs.readLE`, `RCore.EasyFs.writeLE`), each access checking the block id.
-/

namespace RCore

namespace EasyFs

/-- `BLOCK_SZ`. -/
def blockSz : Nat := 512

/-- The panics of easy-fs that the model reaches. -/
inductive Panic where
  /-- A block past the end of the device, loaded into the cache. -/
  | blockOutOfRange (blockId : Nat)
  /-- `Bitmap::alloc(..).unwrap()` on a bitmap with no clear bit. -/
  | bitmapFull
  /-- `Bitmap::dealloc`: `assert!(bitmap_block[bits64_pos] & (1u64 << inner_pos) > 0)`. -/
  | bitNotAllocated (bit : Nat)
  /-- `EasyFileSystem::create`: `assert_eq!(efs.alloc_inode(), 0)`. -/
  | rootInodeNotZero (inode : Nat)
  /-- `new_blocks.next().unwrap()` in `DiskInode::increase_size`. -/
  | newBlocksExhausted
  /-- `DiskInode::write_at`: `assert!(start <= end)`. -/
  | writeBeforeStart
  /-- `DiskInode::clear_size`: `assert!(data_blocks <= INODE_INDIRECT2_COUNT)`. -/
  | tooManyDataBlocks
  /-- An index of an `IndirectBlock` past its 128 entries. -/
  | indexOutOfBounds (index : Nat)
  /-- `BlockCacheManager::get_block_cache`: "Run out of BlockCache!". -/
  | runOutOfBlockCache
  /-- `BlockCache::get_ref` and `get_mut`: `assert!(offset + type_size <= BLOCK_SZ)`. -/
  | typeOutOfBlock (offset size : Nat)
  /-- A handle whose cache is not queued; no run of the cache reaches it
  (`RCore.EasyFs.BlockCacheManager.run_refines`). -/
  | noQueuedCache (blockId : Nat)
deriving DecidableEq, Repr

/-- A block device with its contents. -/
structure Disk where
  blocks : Nat
  bytes : Nat → UInt8

/-- A computation of the file system on a device. -/
abbrev FsM := StateT Disk (Except Panic)

/-- The address of byte `offset` of block `blockId`. -/
def byteAddr (blockId offset : Nat) : Nat := blockId * blockSz + offset

/-- `get_block_cache(block_id, dev)`: a block past the end of the device cannot be loaded. -/
def checkBlock (blockId : Nat) : FsM Unit := do
  if blockId < (← get).blocks then pure () else throw (.blockOutOfRange blockId)

/-- `get_block_cache(block_id).lock().read(offset, |v: &uN| *v)`, for a `width`-byte value. -/
def readLE (blockId offset width : Nat) : FsM Nat := do
  checkBlock blockId
  return Foundation.loadLE (← get).bytes (byteAddr blockId offset) width

/-- `get_block_cache(block_id).lock().modify(offset, |v: &mut uN| *v = value)`. -/
def writeLE (blockId offset width value : Nat) : FsM Unit := do
  checkBlock blockId
  modify fun d => { d with bytes := Foundation.storeLE d.bytes (byteAddr blockId offset) width value }

/-- The bytes with block `blockId` cleared. -/
def zeroed (bytes : Nat → UInt8) (blockId : Nat) : Nat → UInt8 := fun a =>
  if byteAddr blockId 0 ≤ a ∧ a < byteAddr blockId blockSz then 0 else bytes a

/-- `modify(0, |data_block: &mut DataBlock| for byte in data_block.iter_mut() { *byte = 0; })`. -/
def zeroBlock (blockId : Nat) : FsM Unit := do
  checkBlock blockId
  modify fun d => { d with bytes := zeroed d.bytes blockId }

variable {blockId offset width value : Nat} {d d' : Disk} {e : Panic}

theorem checkBlock_of_lt (inside : blockId < d.blocks) : checkBlock blockId d = .ok (⟨⟩, d) := by
  unfold checkBlock
  rw [Foundation.get_bind, if_pos inside]
  rfl

theorem checkBlock_of_le (past : d.blocks ≤ blockId) :
    checkBlock blockId d = .error (.blockOutOfRange blockId) := by
  unfold checkBlock
  rw [Foundation.get_bind, if_neg (Nat.not_lt.mpr past)]
  rfl

theorem checkBlock_eq_error (failed : checkBlock blockId d = .error e) :
    e = .blockOutOfRange blockId ∧ d.blocks ≤ blockId := by
  unfold checkBlock at failed
  rw [Foundation.get_bind] at failed
  split at failed
  case isTrue _ => cases failed
  case isFalse outside =>
    cases failed
    exact ⟨rfl, Nat.le_of_not_lt outside⟩

theorem checkBlock_eq_ok {u : Unit} (ran : checkBlock blockId d = .ok (u, d')) : blockId < d.blocks ∧ d' = d := by
  by_cases inside : blockId < d.blocks
  · rw [checkBlock_of_lt inside] at ran
    cases ran
    exact ⟨inside, rfl⟩
  · rw [checkBlock_of_le (Nat.le_of_not_lt inside)] at ran
    cases ran

theorem readLE_of_lt (inside : blockId < d.blocks) :
    readLE blockId offset width d = .ok (Foundation.loadLE d.bytes (byteAddr blockId offset) width, d) := by
  unfold readLE
  rw [Foundation.bind_eq_ok.mpr ⟨⟨⟩, d, checkBlock_of_lt inside, rfl⟩]

theorem writeLE_of_lt (inside : blockId < d.blocks) :
    writeLE blockId offset width value d =
      .ok (⟨⟩, { d with bytes := Foundation.storeLE d.bytes (byteAddr blockId offset) width value }) := by
  unfold writeLE
  rw [Foundation.bind_eq_ok.mpr ⟨⟨⟩, d, checkBlock_of_lt inside, rfl⟩]

theorem zeroBlock_of_lt (inside : blockId < d.blocks) :
    zeroBlock blockId d = .ok (⟨⟩, { d with bytes := zeroed d.bytes blockId }) := by
  unfold zeroBlock
  rw [Foundation.bind_eq_ok.mpr ⟨⟨⟩, d, checkBlock_of_lt inside, rfl⟩]

/-- A step from `d` to `d'` kept the device and wrote no byte outside `[lo, hi)`. -/
structure WritesWithin (lo hi : Nat) (d d' : Disk) : Prop where
  blocks_eq : d'.blocks = d.blocks
  bytes_eq : ∀ a, a < lo ∨ hi ≤ a → d'.bytes a = d.bytes a

namespace WritesWithin

variable {lo hi : Nat} {d'' : Disk}

theorem refl (lo hi : Nat) (d : Disk) : WritesWithin lo hi d d := ⟨rfl, fun _ _ => rfl⟩

theorem trans (first : WritesWithin lo hi d d') (second : WritesWithin lo hi d' d'') :
    WritesWithin lo hi d d'' :=
  ⟨second.blocks_eq.trans first.blocks_eq, fun a outside =>
    (second.bytes_eq a outside).trans (first.bytes_eq a outside)⟩

theorem mono {lo' hi' : Nat} (within : WritesWithin lo hi d d') (wider : lo' ≤ lo ∧ hi ≤ hi') :
    WritesWithin lo' hi' d d' :=
  ⟨within.blocks_eq, fun a outside => within.bytes_eq a (by omega)⟩

end WritesWithin

theorem writeLE_within (inside : blockId < d.blocks) :
    ∃ d', writeLE blockId offset width value d = .ok (⟨⟩, d') ∧
      WritesWithin (byteAddr blockId offset) (byteAddr blockId offset + width) d d' := by
  refine ⟨_, writeLE_of_lt inside, rfl, fun a outside => ?_⟩
  rcases outside with below | above
  · exact Foundation.storeLE_apply_of_lt below
  · exact Foundation.storeLE_apply_of_le above

/-- `x` succeeds on every device of at least `n` blocks and writes only inside `[lo, hi)`. -/
def StaysWithin (n lo hi : Nat) (x : FsM Unit) : Prop :=
  ∀ d : Disk, n ≤ d.blocks → ∃ d', x d = .ok (⟨⟩, d') ∧ WritesWithin lo hi d d'

namespace StaysWithin

variable {n lo hi : Nat} {x y : FsM Unit}

theorem seq (first : StaysWithin n lo hi x) (second : StaysWithin n lo hi y) :
    StaysWithin n lo hi (x >>= fun _ => y) := by
  intro d large
  obtain ⟨d₁, ran₁, within₁⟩ := first d large
  obtain ⟨d₂, ran₂, within₂⟩ := second d₁ (within₁.blocks_eq ▸ large)
  exact ⟨d₂, by rw [Foundation.bind_of_ok ran₁, ran₂], within₁.trans within₂⟩

theorem forM {α : Type} {xs : List α} {f : α → FsM Unit} (each : ∀ a ∈ xs, StaysWithin n lo hi (f a)) :
    StaysWithin n lo hi (xs.forM f) := by
  induction xs with
  | nil => exact fun d _ => ⟨d, rfl, .refl lo hi d⟩
  | cons a rest ih =>
      show StaysWithin n lo hi (f a >>= fun _ => rest.forM f)
      exact seq (each a List.mem_cons_self) (ih fun b member => each b (List.mem_cons_of_mem _ member))

theorem mono {lo' hi' : Nat} (stays : StaysWithin n lo hi x) (wider : lo' ≤ lo ∧ hi ≤ hi') :
    StaysWithin n lo' hi' x := fun d large =>
  let ⟨d', ran, within⟩ := stays d large
  ⟨d', ran, within.mono wider⟩

end StaysWithin

theorem writeLE_stays {lo hi : Nat} (low : lo ≤ byteAddr blockId offset)
    (high : byteAddr blockId offset + width ≤ hi) :
    StaysWithin (blockId + 1) lo hi (writeLE blockId offset width value) := fun _ large =>
  let ⟨d', ran, within⟩ := @writeLE_within blockId offset width value _ (Nat.lt_of_succ_le large)
  ⟨d', ran, within.mono ⟨low, high⟩⟩

end EasyFs

end RCore

