import RCore.EasyFs.BlockDevice

/-! # The block cache

`easy-fs/src/block_cache.rs`. The manager keeps a queue of at most `BLOCK_CACHE_SIZE` cached
blocks. `get_block_cache` returns the queued cache of a block, or loads the block, first
dropping the oldest queued cache that no handle outside the manager holds (its `Arc` strong
count is 1) when the queue is full; dropping a cache writes it back if it was modified, and
`block_cache_sync_all` writes every modified cache back.

A handle is named by its block: the run keeps the ids of the handles it holds, `held`, and the
queued cache of a block counts them in `handles`. The cache is transparent
(`RCore.EasyFs.BlockCacheManager.run_refines`): every run that holds at most
`BLOCK_CACHE_SIZE` handles at once, and touches only blocks of the device through handles it
holds, returns what the same operations return on the device without a cache, keeps at most
one queued cache per block and at most `BLOCK_CACHE_SIZE` of them, never drops a cache a held
handle refers to, and after `block_cache_sync_all` leaves the device with the bytes the plain
device would hold. The layers above therefore read and write the device directly
(`RCore.EasyFs.readLE`, `RCore.EasyFs.writeLE`).
-/

namespace RCore

namespace EasyFs

/-- `BLOCK_CACHE_SIZE`. -/
def blockCacheSize : Nat := 16

/-- `BlockCache`: the cached bytes of block `blockId` and whether they were modified. `handles`
counts the `Arc`s of the cache held outside the manager: while queued its strong count is
`handles + 1`. -/
structure BlockCache where
  cache : Nat → UInt8
  blockId : Nat
  modified : Bool
  handles : Nat

/-- The block cache manager and the device under it. -/
structure CacheState where
  queue : List (Nat × BlockCache)
  device : Disk

/-- A computation of the cache. -/
abbrev CacheM := StateT CacheState (Except Panic)

/-- The device with block `blockId` overwritten by `cache`: `write_block(block_id, &cache)`. -/
def writeBlock (device : Disk) (blockId : Nat) (cache : Nat → UInt8) : Disk :=
  { device with bytes := fun a =>
      if byteAddr blockId 0 ≤ a ∧ a < byteAddr blockId blockSz then cache (a - byteAddr blockId 0) else device.bytes a }

namespace BlockCache

/-- `BlockCache::new`: `read_block` fills the cache, and fails past the end of the device. -/
def new (blockId : Nat) (device : Disk) : Except Panic BlockCache :=
  if blockId < device.blocks then .ok ⟨fun o => device.bytes (byteAddr blockId o), blockId, false, 0⟩
  else .error (.blockOutOfRange blockId)

/-- `BlockCache::sync`, with the device it writes to. -/
def sync (bc : BlockCache) (device : Disk) : BlockCache × Disk :=
  if bc.modified then ({ bc with modified := false }, writeBlock device bc.blockId bc.cache) else (bc, device)

/-- `BlockCache::read(offset, ..)` of `len` bytes, with the assertion of `get_ref`. -/
def read (bc : BlockCache) (offset len : Nat) : Except Panic (List UInt8) :=
  if offset + len ≤ blockSz then .ok (Foundation.readBytes bc.cache offset len)
  else .error (.typeOutOfBlock offset len)

/-- `BlockCache::modify(offset, ..)` storing `bytes`, with the assertion of `get_mut`, which
also marks the cache modified. -/
def modify (bc : BlockCache) (offset : Nat) (bytes : List UInt8) : Except Panic BlockCache :=
  if offset + bytes.length ≤ blockSz then
    .ok { bc with cache := Foundation.writeBytes bc.cache offset bytes, modified := true }
  else .error (.typeOutOfBlock offset bytes.length)

end BlockCache

namespace BlockCacheManager

/-- The queued cache of block `blockId`: `queue.iter().find(|pair| pair.0 == block_id)`. -/
def findCache (queue : List (Nat × BlockCache)) (blockId : Nat) : Option BlockCache :=
  (queue.find? (·.1 == blockId)).map (·.2)

/-- The queue with the first cache of block `blockId` changed by `f`. -/
def setFirst (blockId : Nat) (f : BlockCache → BlockCache) : List (Nat × BlockCache) → List (Nat × BlockCache)
  | [] => []
  | pair :: rest => if pair.1 = blockId then (pair.1, f pair.2) :: rest else pair :: setFirst blockId f rest

/-- The scan for the first queued cache with strong count 1, and the queue without it:
`queue.iter().enumerate().find(..)` and `queue.drain(idx..=idx)`. -/
def takeUnheld : List (Nat × BlockCache) → Option (BlockCache × List (Nat × BlockCache))
  | [] => none
  | pair :: rest =>
      if pair.2.handles = 0 then some (pair.2, rest)
      else (takeUnheld rest).map fun (victim, rest') => (victim, pair :: rest')

/-- The substitution of `get_block_cache` on a full queue: the oldest cache with strong count 1
leaves the queue, and its `Drop` syncs it. -/
def makeRoom (s : CacheState) : Except Panic CacheState :=
  if s.queue.length = blockCacheSize then
    match takeUnheld s.queue with
    | some (victim, rest) => .ok { queue := rest, device := (victim.sync s.device).2 }
    | none => .error .runOutOfBlockCache
  else .ok s

/-- `get_block_cache(block_id)`; the handle it returns is counted in the cache's `handles`. -/
def getBlockCache (blockId : Nat) : CacheM Unit := do
  let s ← get
  if (findCache s.queue blockId).isSome then
    set { s with queue := setFirst blockId (fun bc => { bc with handles := bc.handles + 1 }) s.queue }
  else
    let s ← StateT.lift (makeRoom s)
    let bc ← StateT.lift (BlockCache.new blockId s.device)
    set { s with queue := s.queue ++ [(blockId, { bc with handles := 1 })] }

/-- The loop of `block_cache_sync_all` over the queue. -/
def syncAllLoop : List (Nat × BlockCache) → Disk → List (Nat × BlockCache) × Disk
  | [], device => ([], device)
  | (blockId, bc) :: rest, device =>
      let (bc, device) := bc.sync device
      let (rest, device) := syncAllLoop rest device
      ((blockId, bc) :: rest, device)

/-- `block_cache_sync_all`. -/
def blockCacheSyncAll : CacheM Unit :=
  modify fun s => let (queue, device) := syncAllLoop s.queue s.device; { queue, device }

/-- The queued cache a held handle of block `blockId` refers to. -/
def handleCache (blockId : Nat) : CacheM BlockCache := do
  match findCache (← get).queue blockId with
  | some bc => return bc
  | none => throw (.noQueuedCache blockId)

end BlockCacheManager

/-- What the file system does with the cache: take a handle of a block, read or modify the
block through a handle it holds, drop a handle, or sync the cache. -/
inductive CacheOp where
  | get (blockId : Nat)
  | read (blockId offset len : Nat)
  | modify (blockId offset : Nat) (bytes : List UInt8)
  | drop (blockId : Nat)
  | syncAll
deriving DecidableEq, Repr

namespace CacheOp

open BlockCacheManager

/-- One operation on the cache, with the bytes a read returns. -/
def run : CacheOp → CacheM (Option (List UInt8))
  | .get blockId => do
      getBlockCache blockId
      return none
  | .read blockId offset len => do
      let bc ← handleCache blockId
      let bytes ← StateT.lift (bc.read offset len)
      return some bytes
  | .modify blockId offset bytes => do
      let bc ← handleCache blockId
      let bc ← StateT.lift (bc.modify offset bytes)
      modifyThe CacheState fun s => { s with queue := setFirst blockId (fun _ => bc) s.queue }
      return none
  | .drop blockId => do
      let _ ← handleCache blockId
      modifyThe CacheState fun s =>
        { s with queue := setFirst blockId (fun bc => { bc with handles := bc.handles - 1 }) s.queue }
      return none
  | .syncAll => do
      blockCacheSyncAll
      return none

/-- The same operation on the device without a cache. -/
def onDevice : CacheOp → FsM (Option (List UInt8))
  | .get blockId => do
      checkBlock blockId
      return none
  | .read blockId offset len => do
      if offset + len ≤ blockSz then
        return some (Foundation.readBytes (← getThe Disk).bytes (byteAddr blockId offset) len)
      else throw (.typeOutOfBlock offset len)
  | .modify blockId offset bytes => do
      if offset + bytes.length ≤ blockSz then
        modifyThe Disk fun d => { d with bytes := Foundation.writeBytes d.bytes (byteAddr blockId offset) bytes }
        return none
      else throw (.typeOutOfBlock offset bytes.length)
  | .drop _ => return none
  | .syncAll => return none

/-- The handles a run holds after the operation. -/
def held : CacheOp → List Nat → List Nat
  | .get blockId, held => blockId :: held
  | .drop blockId, held => held.erase blockId
  | _, held => held

/-- What the run may do next with the handles `held`: take a handle while it holds fewer than
`BLOCK_CACHE_SIZE`, and read, modify or drop only through a handle it holds. -/
def Allowed (held : List Nat) : CacheOp → Prop
  | .get _ => held.length < blockCacheSize
  | .read blockId _ _ => blockId ∈ held
  | .modify blockId _ _ => blockId ∈ held
  | .drop blockId => blockId ∈ held
  | .syncAll => True

instance decAllowed (held : List Nat) : (op : CacheOp) → Decidable (op.Allowed held)
  | .get _ => inferInstanceAs (Decidable (held.length < blockCacheSize))
  | .read blockId _ _ => inferInstanceAs (Decidable (blockId ∈ held))
  | .modify blockId _ _ => inferInstanceAs (Decidable (blockId ∈ held))
  | .drop blockId => inferInstanceAs (Decidable (blockId ∈ held))
  | .syncAll => inferInstanceAs (Decidable True)

end CacheOp

/-- A run every operation of which is allowed, starting with the handles `held`. -/
def CacheOp.AllowedRun : List Nat → List CacheOp → Prop
  | _, [] => True
  | held, op :: rest => op.Allowed held ∧ AllowedRun (op.held held) rest

instance CacheOp.decAllowedRun : (held : List Nat) → (ops : List CacheOp) → Decidable (AllowedRun held ops)
  | _, [] => inferInstanceAs (Decidable True)
  | held, op :: rest =>
      have := decAllowedRun (op.held held) rest
      inferInstanceAs (Decidable (op.Allowed held ∧ AllowedRun (op.held held) rest))

/-- The handles held after a run. -/
def CacheOp.heldAfter : List Nat → List CacheOp → List Nat
  | held, [] => held
  | held, op :: rest => heldAfter (op.held held) rest

/-- What the cache shows of byte `o` of block `blockId`: the queued cache, or the device. -/
def CacheState.view (s : CacheState) (blockId o : Nat) : UInt8 :=
  match BlockCacheManager.findCache s.queue blockId with
  | some bc => bc.cache o
  | none => s.device.bytes (byteAddr blockId o)

namespace BlockCacheManager

open CacheOp

/-- The invariant of the manager, with the handles `held` a run holds. -/
structure Inv (s : CacheState) (held : List Nat) : Prop where
  nodup : (s.queue.map Prod.fst).Nodup
  bounded : s.queue.length ≤ blockCacheSize
  /-- A queued cache caches its block, of the device, counts the held handles of the block,
  and holds the device's bytes unless modified. -/
  entries : ∀ blockId bc, findCache s.queue blockId = some bc →
    bc.blockId = blockId ∧ blockId < s.device.blocks ∧ bc.handles = held.count blockId ∧
      (bc.modified = false → ∀ o < blockSz, bc.cache o = s.device.bytes (byteAddr blockId o))
  /-- Every held handle refers to a queued cache. -/
  held_cached : ∀ blockId ∈ held, (findCache s.queue blockId).isSome

/-- The cache state `s` shows the device `d`: byte by byte, in the blocks and past them. -/
structure Shows (s : CacheState) (d : Disk) : Prop where
  blocks_eq : d.blocks = s.device.blocks
  inside : ∀ blockId < s.device.blocks, ∀ o < blockSz, d.bytes (byteAddr blockId o) = s.view blockId o
  outside : ∀ a, s.device.blocks * blockSz ≤ a → d.bytes a = s.device.bytes a


section Queue

variable {queue rest : List (Nat × BlockCache)} {pair : Nat × BlockCache} {blockId k : Nat}
  {f : BlockCache → BlockCache} {bc victim : BlockCache}

theorem findCache_cons (pair : Nat × BlockCache) (rest : List (Nat × BlockCache)) (k : Nat) :
    findCache (pair :: rest) k = if pair.1 = k then some pair.2 else findCache rest k := by
  by_cases same : pair.1 = k <;> simp [findCache, same]

theorem findCache_isSome_iff : (findCache queue k).isSome ↔ k ∈ queue.map Prod.fst := by
  induction queue with
  | nil => simp [findCache]
  | cons pair rest ih =>
      rw [findCache_cons]
      by_cases same : pair.1 = k
      · simp [same]
      · simp [same, ih, Ne.symm same]

theorem findCache_of_mem (nodup : (queue.map Prod.fst).Nodup) (member : pair ∈ queue) :
    findCache queue pair.1 = some pair.2 := by
  induction queue with
  | nil => cases member
  | cons first rest ih =>
      rw [List.map_cons, List.nodup_cons] at nodup
      rw [findCache_cons]
      rcases List.mem_cons.mp member with rfl | later
      · simp
      · -- a later pair has a key the first does not
        have other : first.1 ≠ pair.1 := fun same => nodup.1 (same ▸ List.mem_map_of_mem later)
        rw [if_neg other]
        exact ih nodup.2 later

theorem keys_setFirst : (setFirst blockId f queue).map Prod.fst = queue.map Prod.fst := by
  induction queue with
  | nil => rfl
  | cons pair rest ih =>
      unfold setFirst
      split <;> simp [ih]

theorem length_setFirst : (setFirst blockId f queue).length = queue.length := by
  simpa using congrArg List.length (@keys_setFirst queue blockId f)

theorem findCache_setFirst :
    findCache (setFirst blockId f queue) k = if k = blockId then (findCache queue k).map f else findCache queue k := by
  induction queue with
  | nil => split <;> rfl
  | cons pair rest ih =>
      unfold setFirst
      by_cases first : pair.1 = blockId
      · rw [if_pos first, findCache_cons, findCache_cons]
        by_cases same : k = blockId
        · simp [same, first]
        · simp [same, show pair.1 ≠ k from fun h => same (h ▸ first)]
      · rw [if_neg first, findCache_cons, findCache_cons, ih]
        by_cases same : k = blockId
        · simp [same, first]
        · simp [same]

theorem findCache_append_of_none (absent : findCache queue blockId = none) :
    findCache (queue ++ [(blockId, bc)]) k = if k = blockId then some bc else findCache queue k := by
  induction queue with
  | nil =>
      rw [List.nil_append, findCache_cons]
      by_cases same : k = blockId
      · simp [same]
      · simp [same, Ne.symm same, findCache]
  | cons pair rest ih =>
      rw [findCache_cons] at absent
      have other : pair.1 ≠ blockId := fun same => by rw [if_pos same] at absent; cases absent
      rw [if_neg other] at absent
      rw [List.cons_append, findCache_cons, findCache_cons, ih absent]
      by_cases same : k = blockId
      · simp [same, other]
      · simp [same]

/-- The cache `takeUnheld` takes is the queued cache of its block, held by no handle; the rest
of the queue keeps every other block. -/
theorem takeUnheld_spec (nodup : (queue.map Prod.fst).Nodup) (taken : takeUnheld queue = some (victim, rest)) :
    ∃ kv, findCache queue kv = some victim ∧ victim.handles = 0 ∧ rest.length + 1 = queue.length ∧
      (rest.map Prod.fst).Nodup ∧ ∀ k, findCache rest k = if k = kv then none else findCache queue k := by
  induction queue generalizing rest with
  | nil => cases taken
  | cons pair tail ih =>
      rw [List.map_cons, List.nodup_cons] at nodup
      unfold takeUnheld at taken
      split at taken
      case isTrue unheld =>
        cases taken
        refine ⟨pair.1, by simp [findCache_cons], unheld, rfl, nodup.2, fun k => ?_⟩
        rw [findCache_cons]
        by_cases same : k = pair.1
        · -- the key of the first pair is in no later pair
          subst same
          simp only [if_true]
          cases found : findCache tail pair.1 with
          | none => rfl
          | some _ => exact absurd (findCache_isSome_iff.mp (by rw [found]; rfl)) nodup.1
        · simp [same, Ne.symm same]
      case isFalse held =>
        obtain ⟨⟨victim', rest'⟩, found, eq⟩ := Option.map_eq_some_iff.mp taken
        cases eq
        obtain ⟨kv, wasQueued, unheld, length, nodup', others⟩ := ih nodup.2 found
        have apart : pair.1 ≠ kv := fun same => by
          subst same
          exact nodup.1 (findCache_isSome_iff.mp (by rw [wasQueued]; rfl))
        refine ⟨kv, by rw [findCache_cons, if_neg apart, wasQueued], unheld, by simp [length], ?_, fun k => ?_⟩
        · rw [List.map_cons, List.nodup_cons]
          refine ⟨fun member => nodup.1 ?_, nodup'⟩
          have := findCache_isSome_iff.mpr member
          rw [others, if_neg apart] at this
          exact findCache_isSome_iff.mp this
        · rw [findCache_cons, findCache_cons, others]
          by_cases same : k = kv
          · simp [same, apart]
          · simp [same]

theorem takeUnheld_eq_none (none : takeUnheld queue = none) : ∀ pair ∈ queue, pair.2.handles ≠ 0 := by
  induction queue with
  | nil => intro _ member; cases member
  | cons first rest ih =>
      unfold takeUnheld at none
      split at none
      case isTrue => cases none
      case isFalse held =>
        intro pair member
        rcases List.mem_cons.mp member with rfl | later
        · exact held
        · exact ih (Option.map_eq_none_iff.mp none) pair later

theorem sync_fst (bc : BlockCache) (device : Disk) : (bc.sync device).1 = { bc with modified := false } := by
  unfold BlockCache.sync
  cases flag : bc.modified
  · rw [if_neg (by simp)]
    cases bc
    simp_all
  · rw [if_pos rfl]

end Queue

section Device

variable {device : Disk} {blockId k o a blocks : Nat} {cache : Nat → UInt8} {bc : BlockCache}

/-- Byte `o` of block `k` lies outside every other block. -/
theorem byteAddr_apart (other : k ≠ blockId) (inside : o < blockSz) :
    byteAddr k o < byteAddr blockId 0 ∨ byteAddr blockId blockSz ≤ byteAddr k o := by
  -- omega needs the constant factor of a product on the left
  simp only [byteAddr, blockSz, Nat.mul_comm _ 512] at inside ⊢
  omega

theorem byteAddr_end_le (present : blockId < blocks) : byteAddr blockId blockSz ≤ blocks * blockSz := by
  have := Nat.mul_le_mul_right blockSz present
  rwa [Nat.succ_mul] at this

theorem writeBlock_self (inside : o < blockSz) :
    (writeBlock device blockId cache).bytes (byteAddr blockId o) = cache o := by
  simp only [writeBlock]
  rw [if_pos (by unfold byteAddr; omega)]
  congr 1
  unfold byteAddr
  omega

theorem writeBlock_of_outside (outside : a < byteAddr blockId 0 ∨ byteAddr blockId blockSz ≤ a) :
    (writeBlock device blockId cache).bytes a = device.bytes a := by
  simp only [writeBlock]
  rw [if_neg (by omega)]

@[simp]
theorem sync_snd_blocks : (bc.sync device).2.blocks = device.blocks := by
  unfold BlockCache.sync
  split <;> rfl

theorem sync_snd_of_outside (own : bc.blockId = blockId)
    (outside : a < byteAddr blockId 0 ∨ byteAddr blockId blockSz ≤ a) :
    (bc.sync device).2.bytes a = device.bytes a := by
  unfold BlockCache.sync
  split
  · rw [own]
    exact writeBlock_of_outside outside
  · rfl

/-- After a sync the block of a cache holds the cache, given that an unmodified cache holds the
device's bytes. -/
theorem sync_snd_self (own : bc.blockId = blockId)
    (clean : bc.modified = false → ∀ o < blockSz, bc.cache o = device.bytes (byteAddr blockId o))
    (inside : o < blockSz) : (bc.sync device).2.bytes (byteAddr blockId o) = bc.cache o := by
  unfold BlockCache.sync
  split
  · rw [own]
    exact writeBlock_self inside
  case isFalse unmodified => exact (clean (by simpa using unmodified) o inside).symm

/-- `block_cache_sync_all` marks every queued cache clean and writes what the cache shows of
each queued block to the device; every other byte of the device stays. -/
theorem syncAllLoop_spec (queue : List (Nat × BlockCache)) (device : Disk) (nodup : (queue.map Prod.fst).Nodup)
    (entries : ∀ k bc, findCache queue k = some bc → bc.blockId = k ∧
      (bc.modified = false → ∀ o < blockSz, bc.cache o = device.bytes (byteAddr k o))) :
    (syncAllLoop queue device).1.map Prod.fst = queue.map Prod.fst ∧
      (∀ k, findCache (syncAllLoop queue device).1 k = (findCache queue k).map fun bc => { bc with modified := false }) ∧
      (syncAllLoop queue device).2.blocks = device.blocks ∧
      (∀ k o, o < blockSz → (syncAllLoop queue device).2.bytes (byteAddr k o) = CacheState.view ⟨queue, device⟩ k o) ∧
      ∀ a, (∀ k ∈ queue.map Prod.fst, a < byteAddr k 0 ∨ byteAddr k blockSz ≤ a) →
        (syncAllLoop queue device).2.bytes a = device.bytes a := by
  induction queue generalizing device with
  | nil => exact ⟨rfl, fun _ => rfl, rfl, fun _ _ _ => rfl, fun _ _ => rfl⟩
  | cons pair rest ih =>
      obtain ⟨k0, bc0⟩ := pair
      rw [List.map_cons, List.nodup_cons] at nodup
      obtain ⟨own, clean⟩ := entries k0 bc0 (by simp [findCache_cons])
      have fresh : findCache rest k0 = none := by
        cases found : findCache rest k0 with
        | none => rfl
        | some _ => exact absurd (findCache_isSome_iff.mp (by rw [found]; rfl)) nodup.1
      -- the rest of the queue is synced onto the device the head's sync left
      have restEntries : ∀ k bc, findCache rest k = some bc → bc.blockId = k ∧
          (bc.modified = false → ∀ o < blockSz, bc.cache o = (bc0.sync device).2.bytes (byteAddr k o)) := by
        intro k bc found
        have other : k0 ≠ k := fun same => by rw [← same, fresh] at found; cases found
        obtain ⟨own', clean'⟩ := entries k bc (by rw [findCache_cons, if_neg other]; exact found)
        refine ⟨own', fun flag o inside => ?_⟩
        rw [clean' flag o inside, sync_snd_of_outside own (byteAddr_apart (Ne.symm other) inside)]
      obtain ⟨keys, found, blocks, bytes, outside⟩ := ih (bc0.sync device).2 nodup.2 restEntries
      have step : syncAllLoop ((k0, bc0) :: rest) device =
          ((k0, (bc0.sync device).1) :: (syncAllLoop rest (bc0.sync device).2).1,
            (syncAllLoop rest (bc0.sync device).2).2) := rfl
      rw [step]
      refine ⟨by simp [keys], fun k => ?_, by rw [blocks, sync_snd_blocks], fun k o inside => ?_, fun a apart => ?_⟩
      · rw [findCache_cons, findCache_cons, found, sync_fst]
        split <;> rfl
      · rw [bytes k o inside]
        simp only [CacheState.view, findCache_cons]
        by_cases same : k0 = k
        · subst same
          rw [fresh, if_pos rfl]
          exact sync_snd_self own clean inside
        · rw [if_neg same]
          cases findCache rest k with
          | none => exact sync_snd_of_outside own (byteAddr_apart (Ne.symm same) inside)
          | some _ => rfl
      · rw [outside a (fun k member => apart k (List.mem_cons_of_mem _ member)),
          sync_snd_of_outside own (apart k0 List.mem_cons_self)]

end Device

section Steps

variable {s : CacheState} {d : Disk} {held : List Nat} {blockId kv : Nat} {bc victim : BlockCache}
  {rest : List (Nat × BlockCache)} {f : BlockCache → BlockCache}

/-- A block no queued cache caches has no held handle. -/
theorem Inv.count_eq_zero (inv : Inv s held) (absent : findCache s.queue blockId = none) :
    held.count blockId = 0 :=
  List.count_eq_zero.mpr fun member => by
    have := inv.held_cached blockId member
    rw [absent] at this
    cases this

theorem Inv.cached (inv : Inv s held) (holding : blockId ∈ held) : ∃ bc, findCache s.queue blockId = some bc :=
  Option.isSome_iff_exists.mp (inv.held_cached blockId holding)

/-- Changing the queued cache of one block keeps the invariant when the new cache still caches
the block, counts the block's new handles, and holds the device's bytes unless modified, and the
other blocks keep their handles. -/
theorem inv_setFirst (inv : Inv s held) {held' : List Nat}
    (changed : ∀ bc, findCache s.queue blockId = some bc → (f bc).blockId = blockId ∧
      (f bc).handles = held'.count blockId ∧
      ((f bc).modified = false → ∀ o < blockSz, (f bc).cache o = s.device.bytes (byteAddr blockId o)))
    (others : ∀ k, k ≠ blockId → held'.count k = held.count k)
    (cached : ∀ k ∈ held', (findCache s.queue k).isSome) :
    Inv { s with queue := setFirst blockId f s.queue } held' where
  nodup := by simpa only [keys_setFirst] using inv.nodup
  bounded := by simpa only [length_setFirst] using inv.bounded
  entries := by
    intro k bc found
    rw [findCache_setFirst] at found
    split at found
    case isTrue same =>
      subst same
      obtain ⟨bc0, found0, rfl⟩ := Option.map_eq_some_iff.mp found
      obtain ⟨-, present, -, -⟩ := inv.entries _ _ found0
      obtain ⟨own, counted, clean⟩ := changed bc0 found0
      exact ⟨own, present, counted, clean⟩
    case isFalse other =>
      obtain ⟨own, present, counted, clean⟩ := inv.entries k bc found
      exact ⟨own, present, by rw [others k other, counted], clean⟩
  held_cached := by
    intro k member
    rw [findCache_setFirst]
    split
    · simpa using cached k member
    · exact cached k member

/-- A change of one queued cache that keeps its bytes keeps what the cache shows. -/
theorem shows_setFirst (shows : Shows s d) (keeps : ∀ bc, (f bc).cache = bc.cache) :
    Shows { s with queue := setFirst blockId f s.queue } d where
  blocks_eq := shows.blocks_eq
  inside := by
    intro k present o inside
    rw [shows.inside k present o inside]
    simp only [CacheState.view, findCache_setFirst]
    by_cases same : k = blockId
    · rw [if_pos same]
      cases findCache s.queue k <;> simp [keeps]
    · rw [if_neg same]
  outside := shows.outside

/-- Evicting a queued cache no handle holds, synced onto the device by its `Drop`, keeps the
invariant and what the cache shows. -/
theorem evict_spec (inv : Inv s held) (shows : Shows s d) (queued : findCache s.queue kv = some victim)
    (unheld : victim.handles = 0) (nodup : (rest.map Prod.fst).Nodup)
    (others : ∀ k, findCache rest k = if k = kv then none else findCache s.queue k)
    (short : rest.length ≤ blockCacheSize) :
    Inv ⟨rest, (victim.sync s.device).2⟩ held ∧ Shows ⟨rest, (victim.sync s.device).2⟩ d := by
  obtain ⟨own, present, counted, clean⟩ := inv.entries kv victim queued
  have notHeld : kv ∉ held := fun member => by
    have := List.count_pos_iff.mpr member
    omega
  -- the sync writes block `kv` only
  have kept : ∀ k o, k ≠ kv → o < blockSz → (victim.sync s.device).2.bytes (byteAddr k o) = s.device.bytes (byteAddr k o) :=
    fun k o other inside => sync_snd_of_outside own (byteAddr_apart other inside)
  refine ⟨⟨nodup, short, fun k bc found => ?_, fun k member => ?_⟩, ⟨?_, fun k present' o inside => ?_, fun a past => ?_⟩⟩
  · rw [others] at found
    split at found
    case isTrue => cases found
    case isFalse other =>
      obtain ⟨own', present', counted', clean'⟩ := inv.entries k bc found
      refine ⟨own', by rwa [sync_snd_blocks], counted', fun flag o inside => ?_⟩
      rw [kept k o other inside]
      exact clean' flag o inside
  · have other : k ≠ kv := fun same => notHeld (same ▸ member)
    rw [others, if_neg other]
    exact inv.held_cached k member
  · rw [sync_snd_blocks]
    exact shows.blocks_eq
  · rw [sync_snd_blocks] at present'
    rw [shows.inside k present' o inside]
    simp only [CacheState.view, others]
    by_cases same : k = kv
    · subst same
      rw [if_pos rfl, queued]
      exact (sync_snd_self own clean inside).symm
    · rw [if_neg same]
      cases findCache s.queue k with
      | none => exact (kept k o same inside).symm
      | some _ => rfl
  · rw [sync_snd_blocks] at past
    rw [shows.outside a past, sync_snd_of_outside own (.inr (Nat.le_trans (byteAddr_end_le present) past))]

/-- With fewer than `BLOCK_CACHE_SIZE` handles held, a full queue has a cache no handle holds. -/
theorem takeUnheld_isSome (inv : Inv s held) (full : s.queue.length = blockCacheSize)
    (room : held.length < blockCacheSize) : (takeUnheld s.queue).isSome := by
  cases taken : takeUnheld s.queue with
  | some _ => rfl
  | none =>
      exfalso
      -- otherwise every queued block is held, and the queue's distinct blocks outnumber the handles
      have allHeld : s.queue.map Prod.fst ⊆ held := by
        intro k member
        obtain ⟨pair, queued, rfl⟩ := List.mem_map.mp member
        obtain ⟨-, -, counted, -⟩ := inv.entries _ _ (findCache_of_mem inv.nodup queued)
        have := takeUnheld_eq_none taken pair queued
        rw [counted] at this
        exact List.count_pos_iff.mp (Nat.pos_of_ne_zero this)
      have := inv.nodup.length_le_of_subset allHeld
      rw [List.length_map] at this
      omega

theorem makeRoom_spec (inv : Inv s held) (shows : Shows s d) (absent : findCache s.queue blockId = none)
    (room : held.length < blockCacheSize) :
    ∃ s', makeRoom s = .ok s' ∧ Inv s' held ∧ Shows s' d ∧ s'.queue.length < blockCacheSize ∧
      findCache s'.queue blockId = none ∧ s'.device.blocks = s.device.blocks := by
  unfold makeRoom
  split
  case isFalse notFull => exact ⟨s, rfl, inv, shows, by have := inv.bounded; omega, absent, rfl⟩
  case isTrue full =>
    obtain ⟨⟨victim, rest⟩, taken⟩ := Option.isSome_iff_exists.mp (takeUnheld_isSome inv full room)
    obtain ⟨kv, queued, unheld, length, nodup, others⟩ := takeUnheld_spec inv.nodup taken
    obtain ⟨inv', shows'⟩ := evict_spec inv shows queued unheld nodup others (by omega)
    rw [taken]
    refine ⟨_, rfl, inv', shows', by simp only; omega, ?_, sync_snd_blocks⟩
    show findCache rest blockId = none
    rw [others]
    split
    · rfl
    · exact absent

/-- Loading a block no queued cache caches into a queue with room keeps the invariant, with the
new handle, and what the cache shows. -/
theorem push_spec (inv : Inv s held) (shows : Shows s d) (absent : findCache s.queue blockId = none)
    (short : s.queue.length < blockCacheSize) (present : blockId < s.device.blocks) :
    Inv { s with queue := s.queue ++ [(blockId, ⟨fun o => s.device.bytes (byteAddr blockId o), blockId, false, 1⟩)] }
        (blockId :: held) ∧
      Shows { s with queue := s.queue ++ [(blockId, ⟨fun o => s.device.bytes (byteAddr blockId o), blockId, false, 1⟩)] } d := by
  have notHeld := inv.count_eq_zero absent
  refine ⟨⟨?_, by simp only [List.length_append, List.length_singleton]; omega, fun k bc found => ?_, fun k member => ?_⟩,
    ⟨shows.blocks_eq, fun k present' o inside => ?_, shows.outside⟩⟩
  · rw [List.map_append, List.map_singleton, List.nodup_append]
    refine ⟨inv.nodup, by simp, fun k member _ fresh same => ?_⟩
    rw [List.mem_singleton.mp fresh] at same
    rw [same, ← findCache_isSome_iff, absent] at member
    cases member
  · rw [findCache_append_of_none absent] at found
    split at found
    case isTrue same =>
      cases found
      subst same
      exact ⟨rfl, present, by rw [List.count_cons_self, notHeld], fun _ _ _ => rfl⟩
    case isFalse other =>
      obtain ⟨own, present', counted, clean⟩ := inv.entries k bc found
      exact ⟨own, present', by rw [List.count_cons_of_ne (Ne.symm other), counted], clean⟩
  · rw [findCache_append_of_none absent]
    split
    · rfl
    case isFalse other => exact inv.held_cached k ((List.mem_cons.mp member).resolve_left other)
  · rw [shows.inside k present' o inside]
    simp only [CacheState.view, findCache_append_of_none absent]
    by_cases same : k = blockId
    · subst same
      rw [absent, if_pos rfl]
    · rw [if_neg same]

theorem getBlockCache_of_lt (inv : Inv s held) (shows : Shows s d) (present : blockId < s.device.blocks)
    (room : held.length < blockCacheSize) :
    ∃ s', getBlockCache blockId s = .ok (⟨⟩, s') ∧ Inv s' (blockId :: held) ∧ Shows s' d := by
  unfold getBlockCache
  rw [Foundation.get_bind]
  split
  case isTrue cached =>
    -- the queued cache gains the handle
    refine ⟨_, rfl, inv_setFirst inv (fun bc found => ?_) (fun k other => List.count_cons_of_ne (Ne.symm other))
      (fun k member => ?_), shows_setFirst shows fun _ => rfl⟩
    · obtain ⟨own, -, counted, clean⟩ := inv.entries _ bc found
      exact ⟨own, by rw [List.count_cons_self, counted], clean⟩
    · rcases List.mem_cons.mp member with rfl | member
      · exact cached
      · exact inv.held_cached k member
  case isFalse absent =>
    have absent : findCache s.queue blockId = none := Option.not_isSome_iff_eq_none.mp absent
    obtain ⟨s1, made, inv1, shows1, short, absent1, blocks1⟩ := makeRoom_spec inv shows absent room
    have loaded : BlockCache.new blockId s1.device =
        .ok ⟨fun o => s1.device.bytes (byteAddr blockId o), blockId, false, 0⟩ :=
      if_pos (blocks1 ▸ present)
    rw [Foundation.bind_of_ok (Foundation.liftExcept_eq_ok.mpr ⟨made, rfl⟩),
      Foundation.bind_of_ok (Foundation.liftExcept_eq_ok.mpr ⟨loaded, rfl⟩)]
    obtain ⟨inv', shows'⟩ := push_spec inv1 shows1 absent1 short (blocks1 ▸ present)
    exact ⟨_, rfl, inv', shows'⟩

/-- A block past the device cannot be loaded, through the cache as on the device. -/
theorem getBlockCache_of_le (inv : Inv s held) (shows : Shows s d) (past : s.device.blocks ≤ blockId)
    (room : held.length < blockCacheSize) : getBlockCache blockId s = .error (.blockOutOfRange blockId) := by
  unfold getBlockCache
  rw [Foundation.get_bind]
  split
  case isTrue cached =>
    obtain ⟨bc, found⟩ := Option.isSome_iff_exists.mp cached
    have := (inv.entries _ bc found).2.1
    omega
  case isFalse absent =>
    obtain ⟨s1, made, -, -, -, -, blocks1⟩ :=
      makeRoom_spec inv shows (Option.not_isSome_iff_eq_none.mp absent) room
    have failed : BlockCache.new blockId s1.device = .error (.blockOutOfRange blockId) :=
      if_neg (by omega)
    rw [Foundation.bind_of_ok (Foundation.liftExcept_eq_ok.mpr ⟨made, rfl⟩)]
    exact Foundation.bind_eq_error.mpr (.inl (by rw [failed]; rfl))

theorem view_of_found (found : findCache s.queue blockId = some bc) (o : Nat) : s.view blockId o = bc.cache o := by
  simp only [CacheState.view, found]

theorem handleCache_of_found (found : findCache s.queue blockId = some bc) :
    handleCache blockId s = .ok (bc, s) := by
  simp only [handleCache, Foundation.get_bind, found]
  rfl

/-- The bytes of a queued cache are the bytes of its block on the device the cache shows. -/
theorem readBytes_of_found (inv : Inv s held) (shows : Shows s d) (found : findCache s.queue blockId = some bc)
    {offset len : Nat} (fits : offset + len ≤ blockSz) :
    Foundation.readBytes bc.cache offset len = Foundation.readBytes d.bytes (byteAddr blockId offset) len := by
  obtain ⟨-, present, -, -⟩ := inv.entries blockId bc found
  refine List.map_congr_left fun i member => ?_
  have inside : offset + i < blockSz := by
    have := List.mem_range.mp member
    omega
  rw [show byteAddr blockId offset + i = byteAddr blockId (offset + i) from Nat.add_assoc _ _ _,
    shows.inside blockId present _ inside, view_of_found found]

/-- A modify through a held handle changes the queued cache as the device without a cache
changes the block, and keeps the invariant. -/
theorem modify_spec (inv : Inv s held) (shows : Shows s d) (found : findCache s.queue blockId = some bc)
    {offset : Nat} {bytes : List UInt8} {bc' : BlockCache} (modified : bc.modify offset bytes = .ok bc') :
    Inv { s with queue := setFirst blockId (fun _ => bc') s.queue } held ∧
      Shows { s with queue := setFirst blockId (fun _ => bc') s.queue }
        { d with bytes := Foundation.writeBytes d.bytes (byteAddr blockId offset) bytes } := by
  unfold BlockCache.modify at modified
  split at modified
  case isFalse => cases modified
  case isTrue fits =>
  cases modified
  obtain ⟨own, present, counted, -⟩ := inv.entries blockId bc found
  refine ⟨inv_setFirst inv (fun bc' found' => ?_) (fun _ _ => rfl) inv.held_cached, ⟨shows.blocks_eq,
    fun k present' o inside => ?_, fun a past => ?_⟩⟩
  · rw [found] at found'
    cases found'
    exact ⟨own, counted, fun modified => by cases modified⟩
  · simp only [CacheState.view, findCache_setFirst]
    by_cases same : k = blockId
    · subst same
      rw [if_pos rfl, found]
      -- the write lands in the same window of the block and of its cache
      have window : (byteAddr k offset ≤ byteAddr k o ∧ byteAddr k o < byteAddr k offset + bytes.length) ↔
          (offset ≤ o ∧ o < offset + bytes.length) := by
        unfold byteAddr
        omega
      simp only [Option.map_some, Foundation.writeBytes]
      by_cases written : offset ≤ o ∧ o < offset + bytes.length
      · rw [if_pos (window.mpr written), if_pos written]
        congr 1
        unfold byteAddr
        omega
      · rw [if_neg (mt window.mp written), if_neg written, shows.inside k present' o inside, view_of_found found]
    · rw [if_neg same]
      have apart := byteAddr_apart same inside
      rw [Foundation.writeBytes_apply_of_not_mem (by unfold byteAddr at apart ⊢; omega)]
      exact shows.inside k present' o inside
  · have ends := byteAddr_end_le present
    change s.device.blocks * blockSz ≤ a at past
    show Foundation.writeBytes d.bytes (byteAddr blockId offset) bytes a = s.device.bytes a
    rw [Foundation.writeBytes_apply_of_not_mem (by unfold byteAddr at ends ⊢; omega)]
    exact shows.outside a past

/-- `block_cache_sync_all` keeps the invariant and what the cache shows, and leaves on the device
every byte the cache shows. -/
theorem syncAll_spec (inv : Inv s held) (shows : Shows s d) :
    ∃ s', CacheOp.syncAll.run s = .ok (none, s') ∧ Inv s' held ∧ Shows s' d ∧ ∀ a, s'.device.bytes a = d.bytes a := by
  obtain ⟨keys, found, blocks, bytes, outside⟩ := syncAllLoop_spec s.queue s.device inv.nodup
    fun k bc found => ⟨(inv.entries k bc found).1, (inv.entries k bc found).2.2.2⟩
  -- past the device no queued block lies
  have beyond : ∀ a, s.device.blocks * blockSz ≤ a → (syncAllLoop s.queue s.device).2.bytes a = d.bytes a := by
    intro a past
    rw [outside a fun k member => .inr (Nat.le_trans (byteAddr_end_le
      (inv.entries k _ (Option.get_mem (findCache_isSome_iff.mpr member))).2.1) past), shows.outside a past]
  refine ⟨⟨(syncAllLoop s.queue s.device).1, (syncAllLoop s.queue s.device).2⟩, rfl,
    ⟨by rw [keys]; exact inv.nodup, ?_, fun k bc found' => ?_, fun k member => ?_⟩,
    ⟨by rw [blocks]; exact shows.blocks_eq, fun k present o inside => ?_,
      fun a past => (beyond a (by rwa [blocks] at past)).symm⟩, fun a => ?_⟩
  · have length := congrArg List.length keys
    simp only [List.length_map] at length
    show (syncAllLoop s.queue s.device).1.length ≤ blockCacheSize
    rw [length]
    exact inv.bounded
  · rw [found] at found'
    obtain ⟨bc0, found0, rfl⟩ := Option.map_eq_some_iff.mp found'
    obtain ⟨own, present, counted, -⟩ := inv.entries k bc0 found0
    refine ⟨own, by rw [blocks]; exact present, counted, fun _ o inside => ?_⟩
    rw [bytes k o inside, view_of_found found0]
  · simpa [found] using inv.held_cached k member
  · rw [blocks] at present
    simp only [CacheState.view, found]
    rw [shows.inside k present o inside]
    cases found0 : findCache s.queue k with
    | none => rw [Option.map_none, bytes k o inside]
    | some bc0 => rw [Option.map_some, view_of_found found0]
  · by_cases inDevice : a < s.device.blocks * blockSz
    · -- a byte of the device is a byte of the block `a / 512`
      have split : byteAddr (a / blockSz) (a % blockSz) = a := Nat.div_add_mod' a blockSz
      have present : a / blockSz < s.device.blocks := Nat.div_lt_of_lt_mul (by rwa [Nat.mul_comm])
      rw [← split, bytes _ _ (Nat.mod_lt a (by decide)), shows.inside _ present _ (Nat.mod_lt a (by decide))]
    · exact beyond a (Nat.le_of_not_lt inDevice)

end Steps

section Run

variable {s : CacheState} {d : Disk} {held : List Nat}

/-- One allowed operation through the cache fails with the panic it raises on the device without
a cache, or returns on both the same value, from states that keep the invariant and show the
device. -/
theorem run_step (inv : Inv s held) (shows : Shows s d) (op : CacheOp) (allowed : op.Allowed held) :
    (∃ e, op.onDevice d = .error e ∧ op.run s = .error e) ∨
      ∃ out s' d', op.onDevice d = .ok (out, d') ∧ op.run s = .ok (out, s') ∧ Inv s' (op.held held) ∧
        Shows s' d' := by
  cases op with
  | get blockId =>
      simp only [CacheOp.onDevice, CacheOp.run]
      by_cases present : blockId < s.device.blocks
      · obtain ⟨s', got, inv', shows'⟩ := getBlockCache_of_lt inv shows present allowed
        rw [Foundation.bind_of_ok (checkBlock_of_lt (shows.blocks_eq ▸ present)), Foundation.bind_of_ok got]
        exact .inr ⟨none, s', d, rfl, rfl, inv', shows'⟩
      · have past := Nat.le_of_not_lt present
        exact .inl ⟨.blockOutOfRange blockId, Foundation.bind_eq_error.mpr (.inl (checkBlock_of_le (shows.blocks_eq ▸ past))),
          Foundation.bind_eq_error.mpr (.inl (getBlockCache_of_le inv shows past allowed))⟩
  | read blockId offset len =>
      obtain ⟨bc, found⟩ := inv.cached allowed
      simp only [CacheOp.onDevice, CacheOp.run]
      rw [Foundation.bind_of_ok (handleCache_of_found found)]
      by_cases fits : offset + len ≤ blockSz
      · have read : bc.read offset len = .ok (Foundation.readBytes bc.cache offset len) := if_pos fits
        rw [if_pos fits, Foundation.bind_of_ok (Foundation.liftExcept_eq_ok.mpr ⟨read, rfl⟩),
          readBytes_of_found inv shows found fits]
        exact .inr ⟨_, s, d, rfl, rfl, inv, shows⟩
      · have failed : bc.read offset len = .error (.typeOutOfBlock offset len) := if_neg fits
        rw [if_neg fits]
        exact .inl ⟨_, rfl, Foundation.bind_eq_error.mpr (.inl (by rw [failed]; rfl))⟩
  | modify blockId offset bytes =>
      obtain ⟨bc, found⟩ := inv.cached allowed
      simp only [CacheOp.onDevice, CacheOp.run]
      rw [Foundation.bind_of_ok (handleCache_of_found found)]
      by_cases fits : offset + bytes.length ≤ blockSz
      · have modified : bc.modify offset bytes =
            .ok { bc with cache := Foundation.writeBytes bc.cache offset bytes, modified := true } := if_pos fits
        obtain ⟨inv', shows'⟩ := modify_spec inv shows found modified
        rw [if_pos fits, Foundation.bind_of_ok (Foundation.liftExcept_eq_ok.mpr ⟨modified, rfl⟩)]
        exact .inr ⟨none, _, _, rfl, rfl, inv', shows'⟩
      · have failed : bc.modify offset bytes = .error (.typeOutOfBlock offset bytes.length) := if_neg fits
        rw [if_neg fits]
        exact .inl ⟨_, rfl, Foundation.bind_eq_error.mpr (.inl (by rw [failed]; rfl))⟩
  | drop blockId =>
      obtain ⟨bc, found⟩ := inv.cached allowed
      simp only [CacheOp.onDevice, CacheOp.run]
      rw [Foundation.bind_of_ok (handleCache_of_found found)]
      -- the queued cache loses the handle
      refine .inr ⟨none, _, d, rfl, rfl, inv_setFirst inv (fun bc' found' => ?_)
        (fun k other => List.count_erase_of_ne other) (fun k member => inv.held_cached k (List.mem_of_mem_erase member)),
        shows_setFirst shows fun _ => rfl⟩
      obtain ⟨own, -, counted, clean⟩ := inv.entries _ bc' found'
      refine ⟨own, ?_, clean⟩
      show bc'.handles - 1 = (held.erase blockId).count blockId
      rw [List.count_erase_self, counted]
  | syncAll =>
      obtain ⟨s', synced, inv', shows', -⟩ := syncAll_spec inv shows
      exact .inr ⟨none, s', d, rfl, synced, inv', shows'⟩

/-- An allowed run through the cache fails with the panic of the run on the device without a
cache, or returns the same values from a state that keeps the invariant and shows the device. -/
theorem mapM_run (ops : List CacheOp) (inv : Inv s held) (shows : Shows s d)
    (allowed : CacheOp.AllowedRun held ops) :
    (∃ e, ops.mapM CacheOp.onDevice d = .error e ∧ ops.mapM CacheOp.run s = .error e) ∨
      ∃ outs s' d', ops.mapM CacheOp.onDevice d = .ok (outs, d') ∧ ops.mapM CacheOp.run s = .ok (outs, s') ∧
        Inv s' (CacheOp.heldAfter held ops) ∧ Shows s' d' := by
  induction ops generalizing s d held with
  | nil => exact .inr ⟨[], s, d, rfl, rfl, inv, shows⟩
  | cons op rest ih =>
      simp only [List.mapM_cons]
      rcases run_step inv shows op allowed.1 with ⟨e, failed, failed'⟩ | ⟨out, s1, d1, dev, cached, inv1, shows1⟩
      · exact .inl ⟨e, Foundation.bind_eq_error.mpr (.inl failed), Foundation.bind_eq_error.mpr (.inl failed')⟩
      · rw [Foundation.bind_of_ok dev, Foundation.bind_of_ok cached]
        rcases ih inv1 shows1 allowed.2 with ⟨e, failed, failed'⟩ | ⟨outs, s', d', dev', cached', inv', shows'⟩
        · exact .inl ⟨e, Foundation.bind_eq_error.mpr (.inl failed), Foundation.bind_eq_error.mpr (.inl failed')⟩
        · rw [Foundation.bind_of_ok dev', Foundation.bind_of_ok cached']
          exact .inr ⟨out :: outs, s', d', rfl, rfl, inv', shows'⟩

/-- The block cache is transparent. A run from an empty queue that holds at most
`BLOCK_CACHE_SIZE` handles at once and reads, modifies and drops only through handles it holds
returns what the same operations return on the device without a cache, panic for panic. Its
final queue keeps the invariant: one cache per block, at most `BLOCK_CACHE_SIZE` of them, a
queued cache for every held handle, each counting its handles. And after
`block_cache_sync_all` the device holds every byte of the device without a cache. -/
theorem run_refines (d : Disk) (ops : List CacheOp) (allowed : CacheOp.AllowedRun [] ops) :
    (ops.mapM CacheOp.run ⟨[], d⟩).map Prod.fst = (ops.mapM CacheOp.onDevice d).map Prod.fst ∧
      ∀ outs s, ops.mapM CacheOp.run ⟨[], d⟩ = .ok (outs, s) →
        ∃ d', ops.mapM CacheOp.onDevice d = .ok (outs, d') ∧ Inv s (CacheOp.heldAfter [] ops) ∧
          ∃ s', CacheOp.syncAll.run s = .ok (none, s') ∧ ∀ a, s'.device.bytes a = d'.bytes a := by
  have inv : Inv ⟨[], d⟩ [] :=
    ⟨List.nodup_nil, Nat.zero_le _, fun _ _ found => (by simp [findCache] at found), fun _ member => (by cases member)⟩
  have shows : Shows ⟨[], d⟩ d := ⟨rfl, fun _ _ _ _ => rfl, fun _ _ => rfl⟩
  rcases mapM_run ops inv shows allowed with ⟨e, failed, failed'⟩ | ⟨outs, s, d', dev, cached, inv', shows'⟩
  · rw [failed, failed']
    refine ⟨rfl, fun outs s ran => ?_⟩
    cases ran
  · rw [dev, cached]
    refine ⟨rfl, fun outs' s'' ran => ?_⟩
    cases ran
    obtain ⟨s', synced, -, -, same⟩ := syncAll_spec inv' shows'
    exact ⟨d', rfl, inv', s', synced, same⟩

/-- A run that loads block 1, modifies its first byte through the handle, reads it back, drops
the handle and syncs. -/
theorem run_refines_on_two_blocks :
    CacheOp.AllowedRun [] [.get 1, .modify 1 0 [7], .read 1 0 1, .drop 1, .syncAll] ∧
      ((([.get 1, .modify 1 0 [7], .read 1 0 1, .drop 1, .syncAll] : List CacheOp).mapM CacheOp.run
          ⟨[], ⟨2, fun _ => 0⟩⟩).map Prod.fst =
        (([.get 1, .modify 1 0 [7], .read 1 0 1, .drop 1, .syncAll] : List CacheOp).mapM CacheOp.onDevice
          ⟨2, fun _ => 0⟩).map Prod.fst ∧
      ∀ outs s, ([.get 1, .modify 1 0 [7], .read 1 0 1, .drop 1, .syncAll] : List CacheOp).mapM CacheOp.run
          ⟨[], ⟨2, fun _ => 0⟩⟩ = .ok (outs, s) →
        ∃ d', ([.get 1, .modify 1 0 [7], .read 1 0 1, .drop 1, .syncAll] : List CacheOp).mapM CacheOp.onDevice
            ⟨2, fun _ => 0⟩ = .ok (outs, d') ∧
          Inv s (CacheOp.heldAfter [] [.get 1, .modify 1 0 [7], .read 1 0 1, .drop 1, .syncAll]) ∧
          ∃ s', CacheOp.syncAll.run s = .ok (none, s') ∧ ∀ a, s'.device.bytes a = d'.bytes a) :=
  ⟨by decide, run_refines _ _ (by decide)⟩

end Run

end BlockCacheManager

end EasyFs

end RCore
