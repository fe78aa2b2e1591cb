import Mathlib
import RCore.EasyFs.DiskInode

/-! # Growing and clearing an inode

`DiskInode::increase_size` and `DiskInode::clear_size` of `easy-fs/src/layout.rs`.
`increase_size(new_size, new_blocks)` takes the ids of `new_blocks` in one fixed order: the
direct blocks, the `indirect1` block, its entries, the `indirect2` block, and then for each entry
of `indirect2` the second-level block it names followed by that block's entries. The place of an
id in that order is its slot (`RCore.EasyFs.DiskInode.dataSlot` for the data blocks); the
invariant `RCore.EasyFs.DiskInode.Layout` says that every id taken so far sits where its slot
puts it and that the places past them are empty. Each `next()` of the iterator then extends the
layout by one id, `get_block_id` reads the data block of a slot back, and `clear_size` collects
the ids in slot order, which is the order they were supplied in.
-/

namespace RCore

namespace EasyFs

/-- `new_blocks.next().unwrap()`: the next id of the iterator. -/
def nextBlock : List Nat → Except Panic (Nat × List Nat)
  | [] => .error .newBlocksExhausted
  | id :: rest => .ok (id, rest)

/-- Entry `index` of the `IndirectBlock` in block `blockId`. -/
def entryOf (d : Disk) (blockId index : Nat) : Nat :=
  Foundation.loadLE d.bytes (byteAddr blockId (4 * index)) 4

/-- The device with entry `index` of the `IndirectBlock` in block `blockId` set to `value`. -/
def withEntry (d : Disk) (blockId index value : Nat) : Disk :=
  { d with bytes := Foundation.storeLE d.bytes (byteAddr blockId (4 * index)) 4 value }

/-- `indirect[index] = value`, in a `modify` of block `blockId`. -/
def setEntry (blockId index value : Nat) : FsM Unit :=
  modify fun d => withEntry d blockId index value

namespace DiskInode

/-- `DiskInode::total_blocks(size)`: the data blocks and index blocks of a file of `size` bytes. -/
def totalBlocks (size : Nat) : Nat :=
  let dataBlocks := dataBlocksOf size
  let total := if inodeDirectCount < dataBlocks then dataBlocks + 1 else dataBlocks
  if indirect1Bound < dataBlocks then
    total + 1 + (dataBlocks - indirect1Bound + inodeIndirect1Count - 1) / inodeIndirect1Count
  else total

/-- The inode `DiskInode::initialize(type_)` leaves. -/
def ofType (type_ : DiskInodeType) : DiskInode :=
  ⟨0, List.replicate inodeDirectCount 0, 0, 0, type_, List.length_replicate⟩

/-- `self.direct[j] = id`. -/
def setDirect (inode : DiskInode) (j id : Nat) : DiskInode :=
  { inode with direct := inode.direct.set j id, direct_length := (List.length_set ..).trans inode.direct_length }

theorem getD_setDirect (inode : DiskInode) {k : Nat} (inside : k < inodeDirectCount) (id j : Nat) :
    (inode.setDirect k id).direct.getD j 0 = if j = k then id else inode.direct.getD j 0 := by
  simp only [setDirect, List.getD_eq_getElem?_getD, List.getElem?_set, inode.direct_length]
  by_cases same : j = k
  · subst same
    simp [inside]
  · simp [same, Ne.symm same]

/-- The loop `while current_blocks < total_blocks.min(INODE_DIRECT_COUNT)` of `increase_size`, for
the values `current_blocks` takes. -/
def fillDirect (inode : DiskInode) (ids : List Nat) : List Nat → Except Panic (DiskInode × List Nat)
  | [] => .ok (inode, ids)
  | current :: rest => do
      let (id, ids) ← nextBlock ids
      (inode.setDirect current id).fillDirect ids rest

/-- The loop of `increase_size` over the entries of the `indirect1` block. -/
def fillIndirect1 (indirect1 : Nat) (ids : List Nat) : List Nat → FsM (List Nat)
  | [] => return ids
  | current :: rest => do
      let (id, ids) ← StateT.lift (nextBlock ids)
      setEntry indirect1 current id
      fillIndirect1 indirect1 ids rest

/-- The loop of `increase_size` from `(a0, b0)` to `(a1, b1)` over the `indirect2` block, for the
positions `a0 * 128 + b0` it visits. -/
def fillIndirect2 (indirect2 : Nat) (ids : List Nat) : List Nat → FsM (List Nat)
  | [] => return ids
  | position :: rest => do
      let a0 := position / inodeIndirect1Count
      let b0 := position % inodeIndirect1Count
      -- each second-level block is taken before its first entry; in `indirect2[a0] = ..` the
      -- iterator steps before the index is checked
      let ids ← if b0 = 0 then do
          let (id, ids) ← StateT.lift (nextBlock ids)
          checkIndex a0
          setEntry indirect2 a0 id
          pure ids
        else pure ids
      checkIndex a0
      let indirect1 := entryOf (← get) indirect2 a0
      checkBlock indirect1
      let (id, ids) ← StateT.lift (nextBlock ids)
      setEntry indirect1 b0 id
      fillIndirect2 indirect2 ids rest

/-- `// alloc indirect1`: `if current_blocks == INODE_DIRECT_COUNT { self.indirect1 = .. }`. -/
def allocIndirect1 (inode : DiskInode) (current : Nat) (ids : List Nat) : Except Panic (DiskInode × List Nat) :=
  if current = inodeDirectCount then do
    let (id, ids) ← nextBlock ids
    return ({ inode with indirect1 := id }, ids)
  else return (inode, ids)

/-- `// alloc indirect2`: `if current_blocks == INODE_INDIRECT1_COUNT { self.indirect2 = .. }`. -/
def allocIndirect2 (inode : DiskInode) (current : Nat) (ids : List Nat) : Except Panic (DiskInode × List Nat) :=
  if current = inodeIndirect1Count then do
    let (id, ids) ← nextBlock ids
    return ({ inode with indirect2 := id }, ids)
  else return (inode, ids)

/-- The part of `increase_size` past the `indirect1` block, with `current_blocks` and
`total_blocks` counted past the direct blocks. -/
def growIndirect2 (inode : DiskInode) (current total : Nat) (ids : List Nat) : FsM (DiskInode × List Nat) := do
  if total ≤ inodeIndirect1Count then return (inode, ids)
  let (inode, ids) ← StateT.lift (inode.allocIndirect2 current ids)
  let current := current - inodeIndirect1Count
  let total := total - inodeIndirect1Count
  -- `// fill indirect2 from (a0, b0) -> (a1, b1)`
  checkBlock inode.indirect2
  let ids ← fillIndirect2 inode.indirect2 ids (List.range' current (total - current))
  return (inode, ids)

/-- The part of `increase_size` past the direct blocks. -/
def growIndirect1 (inode : DiskInode) (current total : Nat) (ids : List Nat) : FsM (DiskInode × List Nat) := do
  if total ≤ inodeDirectCount then return (inode, ids)
  let (inode, ids) ← StateT.lift (inode.allocIndirect1 current ids)
  let current := current - inodeDirectCount
  let total := total - inodeDirectCount
  -- `// fill indirect1`
  checkBlock inode.indirect1
  let ids ← fillIndirect1 inode.indirect1 ids (List.range' current (min total inodeIndirect1Count - current))
  -- the loop leaves `current_blocks` at its bound unless it started past it
  inode.growIndirect2 (max current (min total inodeIndirect1Count)) total ids

/-- `DiskInode::increase_size(new_size, new_blocks)`, with what is left of the iterator of
`new_blocks` when it returns. -/
def increaseSize (inode : DiskInode) (newSize : Nat) (newBlocks : List Nat) :
    FsM (DiskInode × List Nat) := do
  let current := inode.dataBlocks
  let inode := { inode with size := newSize }
  let total := inode.dataBlocks
  -- `// fill direct`
  let (inode, ids) ← StateT.lift
    (inode.fillDirect newBlocks (List.range' current (min total inodeDirectCount - current)))
  inode.growIndirect1 (max current (min total inodeDirectCount)) total ids

/-- The inode with its first `count` direct entries zeroed. -/
def clearDirect (inode : DiskInode) (count : Nat) : DiskInode :=
  { inode with direct := inode.direct.mapIdx (fun j id => if j < count then 0 else id),
               direct_length := (List.length_mapIdx ..).trans inode.direct_length }

/-- The second-level block in entry `index` of the `indirect2` block, and its first `count`
entries, as `clear_size` collects them. -/
def collectLevel2 (indirect2 index count : Nat) : FsM (List Nat) := do
  let block := entryOf (← get) indirect2 index
  checkBlock block
  return block :: (List.range count).map (entryOf (← get) block)

/-- `DiskInode::clear_size`: the block ids to deallocate, and the cleared inode. -/
def clearSize (inode : DiskInode) : FsM (List Nat × DiskInode) := do
  let dataBlocks := inode.dataBlocks
  -- the loop over the direct blocks pushes each one and zeroes it
  let v := inode.direct.take (min dataBlocks inodeDirectCount)
  let inode := { inode.clearDirect (min dataBlocks inodeDirectCount) with size := 0 }
  if dataBlocks ≤ inodeDirectCount then return (v, inode)
  let v := v ++ [inode.indirect1]
  let dataBlocks := dataBlocks - inodeDirectCount
  checkBlock inode.indirect1
  let v := v ++ (List.range (min dataBlocks inodeIndirect1Count)).map (entryOf (← get) inode.indirect1)
  let inode := { inode with indirect1 := 0 }
  if dataBlocks ≤ inodeIndirect1Count then return (v, inode)
  let v := v ++ [inode.indirect2]
  let dataBlocks := dataBlocks - inodeIndirect1Count
  if inodeIndirect2Count < dataBlocks then throw .tooManyDataBlocks
  let a1 := dataBlocks / inodeIndirect1Count
  let b1 := dataBlocks % inodeIndirect1Count
  checkBlock inode.indirect2
  let full ← (List.range a1).mapM fun i => collectLevel2 inode.indirect2 i inodeIndirect1Count
  let last ← if 0 < b1 then collectLevel2 inode.indirect2 a1 b1 else pure []
  return (v ++ full.flatten ++ last, { inode with indirect2 := 0 })

/-- `increase_size(s_i, v_i)` for the steps `(s_i, v_i)` in turn. -/
def increaseSizes (inode : DiskInode) : List (Nat × List Nat) → FsM DiskInode
  | [] => return inode
  | (newSize, ids) :: rest => do
      let (inode, _) ← inode.increaseSize newSize ids
      increaseSizes inode rest

end DiskInode

section Entries

variable {d : Disk} {blockId blockId' index index' value : Nat}

theorem entryOf_withEntry_self (small : value < 2 ^ 32) : entryOf (withEntry d blockId index value) blockId index = value := by
  unfold entryOf withEntry
  rw [Foundation.loadLE_storeLE_self]
  exact Nat.mod_eq_of_lt (lt_of_lt_of_eq small (by decide))

/-- Two entries of index blocks are apart unless they are the same entry of the same block. -/
theorem entryOf_withEntry_of_ne (inside : index < inodeIndirect1Count) (inside' : index' < inodeIndirect1Count)
    (apart : blockId' ≠ blockId ∨ index' ≠ index) :
    entryOf (withEntry d blockId index value) blockId' index' = entryOf d blockId' index' := by
  unfold entryOf withEntry
  apply Foundation.loadLE_storeLE_of_disjoint
  -- omega needs the constant factor of a product on the left
  simp only [byteAddr, blockSz, inodeIndirect1Count, Nat.mul_comm _ 512] at inside inside' ⊢
  omega

@[simp]
theorem withEntry_blocks : (withEntry d blockId index value).blocks = d.blocks := rfl

theorem setEntry_apply : setEntry blockId index value d = .ok (⟨⟩, withEntry d blockId index value) := rfl

end Entries

namespace DiskInode

section Slots

theorem inodeDirectCount_eq : inodeDirectCount = 28 := rfl

theorem inodeIndirect1Count_eq : inodeIndirect1Count = 128 := rfl

theorem indirect1Bound_eq : indirect1Bound = 156 := rfl

theorem inodeIndirect2Count_eq : inodeIndirect2Count = 16384 := rfl

theorem indirect2Bound_eq : indirect2Bound = 16540 := rfl

/-- The slot of the `indirect2` block, after the `indirect1` block and its entries. -/
def indirect2Slot : Nat := indirect1Bound + 1

/-- The slot of the second-level block in entry `a` of `indirect2`; each is followed by its
entries. -/
def level2Slot (a : Nat) : Nat := indirect1Bound + 2 + (inodeIndirect1Count + 1) * a

/-- The slot of data block `j`. -/
def dataSlot (j : Nat) : Nat :=
  if j < inodeDirectCount then j
  else if j < indirect1Bound then j + 1
  else level2Slot ((j - indirect1Bound) / inodeIndirect1Count) + 1 + (j - indirect1Bound) % inodeIndirect1Count

/-- The slot `increase_size` fills next at position `p` of its loop over `indirect2`: the
second-level block at the start of each, an entry otherwise. -/
def streamSlot (p : Nat) : Nat :=
  if p % inodeIndirect1Count = 0 then level2Slot (p / inodeIndirect1Count)
  else level2Slot (p / inodeIndirect1Count) + 1 + p % inodeIndirect1Count

/-- The slots a file of `m` data blocks fills. -/
def usedSlots (m : Nat) : Nat :=
  if m ≤ inodeDirectCount then m
  else if m ≤ indirect1Bound then m + 1
  else streamSlot (m - indirect1Bound)

-- The arithmetic of slots: each `if` is split before the constants are read as numerals, so that
-- the split conditions match the goal.
theorem usedSlots_of_le_direct {m : Nat} (low : m ≤ inodeDirectCount) : usedSlots m = m := by
  rw [usedSlots, if_pos low]

theorem usedSlots_of_indirect1 {m : Nat} (past : inodeDirectCount < m) (low : m ≤ indirect1Bound) :
    usedSlots m = m + 1 := by
  rw [usedSlots, if_neg (Nat.not_le.mpr past), if_pos low]

theorem usedSlots_of_indirect2 {m : Nat} (past : indirect1Bound < m) :
    usedSlots m = streamSlot (m - indirect1Bound) := by
  rw [usedSlots, if_neg (by unfold indirect1Bound at *; omega), if_neg (Nat.not_le.mpr past)]

theorem streamSlot_zero : streamSlot 0 = indirect2Slot + 1 := rfl

theorem totalBlocks_eq (size : Nat) : totalBlocks size = usedSlots (dataBlocksOf size) := by
  unfold totalBlocks usedSlots streamSlot level2Slot
  dsimp only
  split_ifs <;> simp only [inodeIndirect1Count_eq, indirect1Bound_eq, inodeDirectCount_eq] at * <;> omega

theorem totalBlocks_zero : totalBlocks 0 = 0 := by decide

theorem streamSlot_succ (p : Nat) :
    streamSlot (p + 1) = level2Slot (p / inodeIndirect1Count) + 1 + p % inodeIndirect1Count + 1 := by
  unfold streamSlot level2Slot
  split_ifs <;> simp only [inodeIndirect1Count_eq, indirect1Bound_eq] at * <;> omega

theorem streamSlot_mono {p q : Nat} (le : p ≤ q) : streamSlot p ≤ streamSlot q := by
  unfold streamSlot level2Slot
  split_ifs <;> simp only [inodeIndirect1Count_eq, indirect1Bound_eq] at * <;> omega

theorem usedSlots_mono {m m' : Nat} (le : m ≤ m') : usedSlots m ≤ usedSlots m' := by
  unfold usedSlots streamSlot level2Slot
  split_ifs <;> simp only [inodeIndirect1Count_eq, indirect1Bound_eq, inodeDirectCount_eq] at * <;> omega

/-- Data block `j` of a file of `m` data blocks has a slot the file fills. -/
theorem dataSlot_lt {j m : Nat} (inside : j < m) : dataSlot j < usedSlots m := by
  unfold dataSlot usedSlots streamSlot level2Slot
  split_ifs <;> simp only [inodeIndirect1Count_eq, indirect1Bound_eq, inodeDirectCount_eq] at * <;> omega

theorem dataSlot_injective {i j : Nat} (same : dataSlot i = dataSlot j) : i = j := by
  unfold dataSlot level2Slot at same
  split_ifs at same <;> simp only [inodeIndirect1Count_eq, indirect1Bound_eq, inodeDirectCount_eq] at * <;> omega

/-- No data block has the slot of an index block. -/
theorem dataSlot_ne_index (j a : Nat) :
    dataSlot j ≠ inodeDirectCount ∧ dataSlot j ≠ indirect2Slot ∧ dataSlot j ≠ level2Slot a := by
  unfold dataSlot indirect2Slot level2Slot
  split_ifs <;> simp only [inodeIndirect1Count_eq, indirect1Bound_eq, inodeDirectCount_eq] at * <;> omega

/-- The slots of the index blocks and entries in order: `indirect1` after the direct blocks,
its entries before `indirect2`, and each second-level block and its entries before the next. -/
theorem entry1Slot_lt {j : Nat} (inside : j < inodeIndirect1Count) : inodeDirectCount + 1 + j < indirect2Slot := by
  unfold indirect2Slot
  simp only [inodeIndirect1Count_eq, indirect1Bound_eq, inodeDirectCount_eq] at *
  omega

theorem indirect2Slot_lt (a : Nat) : indirect2Slot < level2Slot a := by
  unfold indirect2Slot level2Slot
  omega

theorem level2Entry_lt {a a' b : Nat} (before : a < a') (inside : b < inodeIndirect1Count) :
    level2Slot a + 1 + b < level2Slot a' := by
  unfold level2Slot
  simp only [inodeIndirect1Count_eq] at *
  omega

/-- An entry slot of one second-level block names that block and entry only. -/
theorem level2Entry_inj {a a' b b' : Nat} (inside : b < inodeIndirect1Count) (inside' : b' < inodeIndirect1Count)
    (same : level2Slot a + 1 + b = level2Slot a' + 1 + b') : a = a' ∧ b = b' := by
  unfold level2Slot at same
  simp only [inodeIndirect1Count_eq] at *
  omega

theorem level2Slot_ne_entry {a a' b : Nat} (inside : b < inodeIndirect1Count) :
    level2Slot a ≠ level2Slot a' + 1 + b := by
  unfold level2Slot
  simp only [inodeIndirect1Count_eq] at *
  omega

/-- The number of second-level blocks of a file of `m` data blocks, as `total_blocks` counts them. -/
def level2Blocks (m : Nat) : Nat := (m - indirect1Bound + inodeIndirect1Count - 1) / inodeIndirect1Count

theorem level2Slot_eq (a : Nat) : level2Slot a = 158 + 129 * a := rfl

theorem streamSlot_eq (p : Nat) :
    streamSlot p = if p % 128 = 0 then 158 + 129 * (p / 128) else 159 + 129 * (p / 128) + p % 128 := by
  unfold streamSlot
  rw [inodeIndirect1Count_eq, level2Slot_eq]
  split_ifs <;> omega

theorem dataSlot_of_lt_direct {j : Nat} (low : j < inodeDirectCount) : dataSlot j = j := by
  rw [dataSlot, if_pos low]

theorem dataSlot_of_indirect1 {j : Nat} (past : inodeDirectCount ≤ j) (low : j < indirect1Bound) :
    dataSlot j = j + 1 := by
  rw [dataSlot, if_neg (Nat.not_lt.mpr past), if_pos low]

theorem dataSlot_of_indirect2 {j : Nat} (past : indirect1Bound ≤ j) :
    dataSlot j = level2Slot ((j - indirect1Bound) / inodeIndirect1Count) + 1 + (j - indirect1Bound) % inodeIndirect1Count := by
  rw [dataSlot, if_neg (by unfold indirect1Bound at past; omega), if_neg (Nat.not_lt.mpr past)]

/-- Every slot a file fills is the slot of a data block or of an index block it uses. -/
theorem slot_cases {m i : Nat} (inside : i < usedSlots m) :
    (∃ j < m, dataSlot j = i) ∨ (i = inodeDirectCount ∧ inodeDirectCount < m) ∨
      (i = indirect2Slot ∧ indirect1Bound < m) ∨ (indirect1Bound < m ∧ ∃ a < level2Blocks m, level2Slot a = i) := by
  have direct := inodeDirectCount_eq
  have entries := inodeIndirect1Count_eq
  have bound := indirect1Bound_eq
  have two : indirect2Slot = 157 := rfl
  -- how far the file reaches
  have reach : (m ≤ inodeDirectCount ∧ i < m) ∨ (inodeDirectCount < m ∧ m ≤ indirect1Bound ∧ i < m + 1) ∨
      (indirect1Bound < m ∧ i < streamSlot (m - indirect1Bound)) := by
    by_cases fewer : m ≤ inodeDirectCount
    · exact .inl ⟨fewer, usedSlots_of_le_direct fewer ▸ inside⟩
    by_cases within : m ≤ indirect1Bound
    · exact .inr (.inl ⟨by omega, within, usedSlots_of_indirect1 (by omega) within ▸ inside⟩)
    · rw [usedSlots_of_indirect2 (Nat.lt_of_not_le within)] at inside
      exact .inr (.inr ⟨Nat.lt_of_not_le within, inside⟩)
  rw [streamSlot_eq] at reach
  have blocks : level2Blocks m = (m - 156 + 127) / 128 := by
    unfold level2Blocks
    rw [bound, entries]
    omega
  -- the slots in order: the direct blocks, `indirect1`, its entries, `indirect2`, then runs of a
  -- second-level block and its 128 entries
  by_cases low : i < 28
  · exact .inl ⟨i, by split_ifs at reach <;> omega, dataSlot_of_lt_direct (by omega)⟩
  by_cases first : i = 28
  · exact .inr (.inl ⟨by omega, by split_ifs at reach <;> omega⟩)
  by_cases middle : i ≤ 156
  · exact .inl ⟨i - 1, by split_ifs at reach <;> omega, by rw [dataSlot_of_indirect1 (by omega) (by omega)]; omega⟩
  by_cases second : i = 157
  · exact .inr (.inr (.inl ⟨by omega, by split_ifs at reach <;> omega⟩))
  have past : 156 < m := by split_ifs at reach <;> omega
  by_cases block : (i - 158) % 129 = 0
  · refine .inr (.inr (.inr ⟨by omega, (i - 158) / 129, ?_, by rw [level2Slot_eq]; omega⟩))
    rw [blocks]
    split_ifs at reach <;> omega
  · refine .inl ⟨156 + 128 * ((i - 158) / 129) + ((i - 158) % 129 - 1), by split_ifs at reach <;> omega, ?_⟩
    rw [dataSlot_of_indirect2 (by omega), level2Slot_eq, entries, bound]
    omega

theorem direct_lt_usedSlots {m : Nat} (past : inodeDirectCount < m) : inodeDirectCount < usedSlots m := by
  have grows := usedSlots_mono (show inodeDirectCount + 1 ≤ m from past)
  rw [usedSlots_of_indirect1 (Nat.lt_add_one _) (by rw [inodeDirectCount_eq, indirect1Bound_eq]; omega)] at grows
  omega

theorem indirect2Slot_lt_usedSlots {m : Nat} (past : indirect1Bound < m) : indirect2Slot < usedSlots m := by
  have grows := usedSlots_mono (show indirect1Bound + 1 ≤ m from past)
  rw [usedSlots_of_indirect2 (Nat.lt_add_one _), Nat.add_sub_cancel_left] at grows
  exact Nat.lt_of_lt_of_le (Nat.lt_of_lt_of_le (indirect2Slot_lt 0) (streamSlot_mono (Nat.zero_le 1))) grows

theorem level2Slot_lt_usedSlots {m a : Nat} (past : indirect1Bound < m) (inside : a < level2Blocks m) :
    level2Slot a < usedSlots m := by
  rw [usedSlots_of_indirect2 past, streamSlot_eq, level2Slot_eq]
  unfold level2Blocks at inside
  rw [indirect1Bound_eq, inodeIndirect1Count_eq] at *
  split_ifs <;> omega

theorem level2Blocks_le {m : Nat} (bounded : m ≤ indirect2Bound) : level2Blocks m ≤ inodeIndirect1Count := by
  have bound := indirect2Bound_eq
  unfold level2Blocks
  rw [indirect1Bound_eq, inodeIndirect1Count_eq] at *
  omega

theorem dataBlocksOf_le {size : Nat} (bounded : size ≤ indirect2Bound * blockSz) :
    dataBlocksOf size ≤ indirect2Bound := by
  unfold dataBlocksOf
  unfold blockSz at bounded ⊢
  omega

end Slots

section Layout

variable {seq : List Nat} {id i j : Nat}

theorem getD_concat (seq : List Nat) (id i : Nat) :
    (seq ++ [id]).getD i 0 = if i = seq.length then id else seq.getD i 0 := by
  simp only [List.getD_eq_getElem?_getD]
  rcases Nat.lt_trichotomy i seq.length with before | last | after
  · rw [List.getElem?_append_left before, if_neg (Nat.ne_of_lt before)]
  · subst last
    simp
  · rw [List.getElem?_eq_none (by simp; omega), List.getElem?_eq_none (by omega), if_neg (Nat.ne_of_gt after)]

theorem getD_mem (inside : i < seq.length) : seq.getD i 0 ∈ seq := by
  rw [List.getD_eq_getElem?_getD, List.getElem?_eq_getElem inside]
  exact List.getElem_mem inside

theorem mem_iff_getD {id : Nat} : id ∈ seq ↔ ∃ i < seq.length, seq.getD i 0 = id := by
  rw [List.mem_iff_getElem]
  refine exists_congr fun i => ⟨fun ⟨inside, same⟩ => ⟨inside, ?_⟩, fun ⟨inside, same⟩ => ⟨inside, ?_⟩⟩
  · rw [List.getD_eq_getElem?_getD, List.getElem?_eq_getElem inside, Option.getD_some, same]
  · rw [← same, List.getD_eq_getElem?_getD, List.getElem?_eq_getElem inside, Option.getD_some]

/-- Distinct slots of distinct ids hold distinct ids. -/
theorem getD_ne (nodup : seq.Nodup) (inside : i < seq.length) (inside' : j < seq.length) (apart : i ≠ j) :
    seq.getD i 0 ≠ seq.getD j 0 := by
  rw [List.getD_eq_getElem?_getD, List.getD_eq_getElem?_getD, List.getElem?_eq_getElem inside,
    List.getElem?_eq_getElem inside']
  exact fun same => apart ((nodup.getElem_inj_iff).mp same)

/-- The ids `seq`, in the order `increase_size` takes them, lie at their slots: in the direct
entries, the two index fields, the entries of `indirect1` and `indirect2`, and the entries of the
second-level blocks. A field whose slot is past `seq` is empty, which `List.getD` reads as `0`. -/
structure Layout (inode : DiskInode) (d : Disk) (seq : List Nat) : Prop where
  direct : ∀ j < inodeDirectCount, inode.direct.getD j 0 = seq.getD j 0
  indirect1 : inode.indirect1 = seq.getD inodeDirectCount 0
  entries1 : ∀ j < inodeIndirect1Count, inodeDirectCount + 1 + j < seq.length →
    entryOf d inode.indirect1 j = seq.getD (inodeDirectCount + 1 + j) 0
  indirect2 : inode.indirect2 = seq.getD indirect2Slot 0
  entries2 : ∀ a < inodeIndirect1Count, level2Slot a < seq.length →
    entryOf d inode.indirect2 a = seq.getD (level2Slot a) 0
  level2 : ∀ a < inodeIndirect1Count, ∀ b < inodeIndirect1Count, level2Slot a + 1 + b < seq.length →
    entryOf d (seq.getD (level2Slot a) 0) b = seq.getD (level2Slot a + 1 + b) 0

theorem layout_ofType (type_ : DiskInodeType) (d : Disk) : Layout (ofType type_) d [] where
  direct j inside := by simp [ofType, List.getD_eq_getElem?_getD, inside]
  indirect1 := rfl
  entries1 _ _ past := absurd past (Nat.not_lt_zero _)
  indirect2 := rfl
  entries2 _ _ past := absurd past (Nat.not_lt_zero _)
  level2 _ _ _ _ past := absurd past (Nat.not_lt_zero _)

namespace Layout

variable {inode : DiskInode} {d : Disk} {seq : List Nat} {id : Nat}

/-- The layout does not read the size. -/
theorem setSize (layout : Layout inode d seq) (size : Nat) : Layout { inode with size } d seq :=
  ⟨layout.direct, layout.indirect1, layout.entries1, layout.indirect2, layout.entries2, layout.level2⟩

/-- A slot before the next one keeps its id. -/
theorem getD_concat_of_lt {i : Nat} (before : i < seq.length) : (seq ++ [id]).getD i 0 = seq.getD i 0 := by
  rw [getD_concat, if_neg (Nat.ne_of_lt before)]

theorem getD_concat_of_ne {i : Nat} (other : i ≠ seq.length) : (seq ++ [id]).getD i 0 = seq.getD i 0 := by
  rw [getD_concat, if_neg other]

/-- The id of a direct block in the next slot. -/
theorem push_direct (id : Nat) (layout : Layout inode d seq) (slot : seq.length < inodeDirectCount) :
    Layout (inode.setDirect seq.length id) d (seq ++ [id]) where
  direct j inside := by rw [getD_setDirect inode slot, getD_concat, layout.direct j inside]
  indirect1 := by rw [getD_concat_of_ne (Nat.ne_of_gt slot)]; exact layout.indirect1
  entries1 _ _ past := absurd past (by simp only [List.length_append, List.length_singleton]; omega)
  indirect2 := by
    rw [getD_concat_of_ne (by unfold indirect2Slot indirect1Bound at *; omega)]
    exact layout.indirect2
  entries2 _ _ past := absurd past (by
    simp only [List.length_append, List.length_singleton, level2Slot, indirect1Bound] at *; omega)
  level2 _ _ _ _ past := absurd past (by
    simp only [List.length_append, List.length_singleton, level2Slot, indirect1Bound] at *; omega)

/-- The `indirect1` block in the next slot. -/
theorem push_indirect1 (id : Nat) (layout : Layout inode d seq) (slot : seq.length = inodeDirectCount) :
    Layout { inode with indirect1 := id } d (seq ++ [id]) where
  direct j inside := by
    rw [getD_concat_of_ne (by omega)]
    exact layout.direct j inside
  indirect1 := by rw [getD_concat, if_pos slot.symm]
  entries1 _ _ past := absurd past (by rw [List.length_append, List.length_singleton]; omega)
  indirect2 := by
    rw [getD_concat_of_ne (by have := entry1Slot_lt (Nat.zero_lt_succ 127); omega)]
    exact layout.indirect2
  entries2 a _ past := absurd past (by
    have := entry1Slot_lt (Nat.zero_lt_succ 127)
    have := indirect2Slot_lt a
    rw [List.length_append, List.length_singleton]
    omega)
  level2 a _ _ _ past := absurd past (by
    have := entry1Slot_lt (Nat.zero_lt_succ 127)
    have := indirect2Slot_lt a
    rw [List.length_append, List.length_singleton]
    omega)

/-- Entry `k` of the `indirect1` block in the next slot. -/
theorem push_entry1 {k : Nat} (id : Nat) (layout : Layout inode d seq) (slot : seq.length = inodeDirectCount + 1 + k)
    (inside : k < inodeIndirect1Count) (small : id < 2 ^ 32) :
    Layout inode (withEntry d inode.indirect1 k id) (seq ++ [id]) where
  direct j inside' := by
    rw [getD_concat_of_ne (by omega)]
    exact layout.direct j inside'
  indirect1 := by
    rw [getD_concat_of_ne (by omega)]
    exact layout.indirect1
  entries1 j inside' past := by
    rw [List.length_append, List.length_singleton] at past
    by_cases same : j = k
    · subst same
      rw [entryOf_withEntry_self small, getD_concat, if_pos slot.symm]
    · rw [entryOf_withEntry_of_ne inside inside' (.inr same), getD_concat_of_ne (by omega)]
      exact layout.entries1 j inside' (by omega)
  indirect2 := by
    rw [getD_concat_of_ne (by have := entry1Slot_lt inside; omega)]
    exact layout.indirect2
  entries2 a _ past := absurd past (by
    have := entry1Slot_lt inside
    have := indirect2Slot_lt a
    rw [List.length_append, List.length_singleton]
    omega)
  level2 a _ _ _ past := absurd past (by
    have := entry1Slot_lt inside
    have := indirect2Slot_lt a
    rw [List.length_append, List.length_singleton]
    omega)

/-- The `indirect2` block in the next slot. -/
theorem push_indirect2 (id : Nat) (layout : Layout inode d seq) (slot : seq.length = indirect2Slot) :
    Layout { inode with indirect2 := id } d (seq ++ [id]) where
  direct j inside := by
    rw [getD_concat_of_ne (by have := entry1Slot_lt (Nat.zero_lt_succ 127); omega)]
    exact layout.direct j inside
  indirect1 := by
    rw [getD_concat_of_ne (by have := entry1Slot_lt (Nat.zero_lt_succ 127); omega)]
    exact layout.indirect1
  entries1 j inside _ := by
    have := entry1Slot_lt inside
    rw [getD_concat_of_lt (by omega)]
    exact layout.entries1 j inside (by omega)
  indirect2 := by rw [getD_concat, if_pos slot.symm]
  entries2 a _ past := absurd past (by have := indirect2Slot_lt a; rw [List.length_append, List.length_singleton]; omega)
  level2 a _ _ _ past := absurd past (by have := indirect2Slot_lt a; rw [List.length_append, List.length_singleton]; omega)

/-- Entry `a0` of the `indirect2` block, a second-level block, in the next slot. -/
theorem push_entry2 {a0 : Nat} (id : Nat) (layout : Layout inode d seq) (slot : seq.length = level2Slot a0)
    (inside : a0 < inodeIndirect1Count) (nodup : (seq ++ [id]).Nodup) (small : id < 2 ^ 32) :
    Layout inode (withEntry d inode.indirect2 a0 id) (seq ++ [id]) where
  direct j inside' := by
    rw [getD_concat_of_ne (by have := indirect2Slot_lt a0; have := entry1Slot_lt (Nat.zero_lt_succ 127); omega)]
    exact layout.direct j inside'
  indirect1 := by
    rw [getD_concat_of_ne (by have := indirect2Slot_lt a0; have := entry1Slot_lt (Nat.zero_lt_succ 127); omega)]
    exact layout.indirect1
  entries1 j inside' _ := by
    have before := entry1Slot_lt inside'
    have ordered := indirect2Slot_lt a0
    -- `indirect1` and `indirect2` are distinct ids of `seq`
    have apart : inode.indirect1 ≠ inode.indirect2 := by
      rw [layout.indirect1, layout.indirect2]
      exact getD_ne (List.nodup_append.mp nodup).1 (by omega) (by omega) (by omega)
    rw [entryOf_withEntry_of_ne inside inside' (.inl apart), getD_concat_of_lt (by omega)]
    exact layout.entries1 j inside' (by omega)
  indirect2 := by
    rw [getD_concat_of_ne (by have := indirect2Slot_lt a0; omega)]
    exact layout.indirect2
  entries2 a inside' past := by
    rw [List.length_append, List.length_singleton] at past
    by_cases same : a = a0
    · subst same
      rw [entryOf_withEntry_self small, getD_concat, if_pos slot.symm]
    · have other : level2Slot a ≠ seq.length := by
        rw [slot]
        unfold level2Slot
        simp only [inodeIndirect1Count_eq]
        omega
      rw [entryOf_withEntry_of_ne inside inside' (.inr same), getD_concat_of_ne other]
      exact layout.entries2 a inside' (by omega)
  level2 a inside' b inside'' past := by
    rw [List.length_append, List.length_singleton] at past
    -- a second-level block before the new entry, which is not `indirect2`
    have before : a < a0 := by
      by_contra after
      have := level2Entry_lt (b := b) (Nat.lt_of_le_of_ne (Nat.le_of_not_lt after) (Ne.symm ?_)) inside''
      · omega
      · intro same
        subst same
        omega
    have earlier := level2Entry_lt before inside''
    have apart : seq.getD (level2Slot a) 0 ≠ inode.indirect2 := by
      rw [layout.indirect2]
      exact getD_ne (List.nodup_append.mp nodup).1 (by omega) (by have := indirect2Slot_lt a; omega)
        (Nat.ne_of_gt (indirect2Slot_lt a))
    rw [getD_concat_of_lt (by omega), entryOf_withEntry_of_ne inside inside'' (.inl apart),
      getD_concat_of_lt (by omega)]
    exact layout.level2 a inside' b inside'' (by omega)

/-- Entry `b0` of the second-level block in entry `a0` of `indirect2` in the next slot. -/
theorem push_level2 {a0 b0 : Nat} (id : Nat) (layout : Layout inode d seq) (slot : seq.length = level2Slot a0 + 1 + b0)
    (inside : a0 < inodeIndirect1Count) (inside' : b0 < inodeIndirect1Count) (nodup : (seq ++ [id]).Nodup)
    (small : id < 2 ^ 32) :
    Layout inode (withEntry d (seq.getD (level2Slot a0) 0) b0 id) (seq ++ [id]) where
  direct j inside'' := by
    rw [getD_concat_of_ne (by have := indirect2Slot_lt a0; have := entry1Slot_lt (Nat.zero_lt_succ 127); omega)]
    exact layout.direct j inside''
  indirect1 := by
    rw [getD_concat_of_ne (by have := indirect2Slot_lt a0; have := entry1Slot_lt (Nat.zero_lt_succ 127); omega)]
    exact layout.indirect1
  entries1 j inside'' _ := by
    have before := entry1Slot_lt inside''
    have ordered := indirect2Slot_lt a0
    have apart : inode.indirect1 ≠ seq.getD (level2Slot a0) 0 := by
      rw [layout.indirect1]
      exact getD_ne (List.nodup_append.mp nodup).1 (by omega) (by omega) (by omega)
    rw [entryOf_withEntry_of_ne inside' inside'' (.inl apart), getD_concat_of_lt (by omega)]
    exact layout.entries1 j inside'' (by omega)
  indirect2 := by
    rw [getD_concat_of_ne (by have := indirect2Slot_lt a0; omega)]
    exact layout.indirect2
  entries2 a inside'' past := by
    rw [List.length_append, List.length_singleton] at past
    have other : level2Slot a ≠ seq.length := slot ▸ level2Slot_ne_entry inside'
    have ordered := indirect2Slot_lt a0
    have apart : inode.indirect2 ≠ seq.getD (level2Slot a0) 0 := by
      rw [layout.indirect2]
      exact getD_ne (List.nodup_append.mp nodup).1 (by omega) (by omega) (by omega)
    rw [entryOf_withEntry_of_ne inside' inside'' (.inl apart), getD_concat_of_ne other]
    exact layout.entries2 a inside'' (by omega)
  level2 a inside'' b inside''' past := by
    rw [List.length_append, List.length_singleton] at past
    have blockBefore : level2Slot a < seq.length := by omega
    rw [getD_concat_of_lt blockBefore]
    by_cases same : a = a0 ∧ b = b0
    · obtain ⟨rfl, rfl⟩ := same
      rw [entryOf_withEntry_self small, getD_concat, if_pos slot.symm]
    · have other : level2Slot a + 1 + b ≠ seq.length := fun hit =>
        same (level2Entry_inj inside''' inside' (hit.trans slot))
      rw [getD_concat_of_ne other]
      -- another entry of the same block, or an entry of another block
      have apart : seq.getD (level2Slot a) 0 ≠ seq.getD (level2Slot a0) 0 ∨ b ≠ b0 := by
        by_cases sameBlock : a = a0
        · exact .inr fun sameEntry => same ⟨sameBlock, sameEntry⟩
        · refine .inl (getD_ne (List.nodup_append.mp nodup).1 blockBefore (by omega) ?_)
          unfold level2Slot
          simp only [inodeIndirect1Count_eq]
          omega
      rw [entryOf_withEntry_of_ne inside' inside''' apart]
      exact layout.level2 a inside'' b inside''' (by omega)

end Layout

end Layout

section Stream

/-! The iterator of `increase_size` is what is left of all the ids supplied so far, `whole`,
past the `k` ids the inode already holds. -/

variable {whole : List Nat} {k : Nat}

theorem nextBlock_drop (inside : k < whole.length) :
    nextBlock (whole.drop k) = .ok (whole.getD k 0, whole.drop (k + 1)) := by
  rw [List.drop_eq_getElem_cons inside, List.getD_eq_getElem?_getD, List.getElem?_eq_getElem inside]
  rfl

theorem take_succ_getD (inside : k < whole.length) : whole.take (k + 1) = whole.take k ++ [whole.getD k 0] := by
  rw [List.take_add_one, List.getD_eq_getElem?_getD, List.getElem?_eq_getElem inside]
  rfl

theorem length_take_of_le (inside : k ≤ whole.length) : (whole.take k).length = k := by
  rw [List.length_take, Nat.min_eq_left inside]

theorem getD_take {i : Nat} (before : i < k) : (whole.take k).getD i 0 = whole.getD i 0 := by
  simp only [List.getD_eq_getElem?_getD, List.getElem?_take, if_pos before]

theorem nodup_take (nodup : whole.Nodup) (k : Nat) : (whole.take k).Nodup :=
  nodup.sublist (List.take_sublist k whole)

end Stream

section Loops

variable {whole : List Nat} {d : Disk} {inode : DiskInode}

/-- The direct loop takes the next `count` ids into the direct entries. -/
theorem fillDirect_spec : ∀ (count : Nat) (inode : DiskInode) (k : Nat), Layout inode d (whole.take k) →
    k + count ≤ inodeDirectCount → k + count ≤ whole.length →
    ∃ inode', inode.fillDirect (whole.drop k) (List.range' k count) = .ok (inode', whole.drop (k + count)) ∧
      Layout inode' d (whole.take (k + count)) ∧ inode'.size = inode.size ∧
      inode'.indirect1 = inode.indirect1 ∧ inode'.indirect2 = inode.indirect2
  | 0, inode, k, layout, _, _ => ⟨inode, rfl, layout, rfl, rfl, rfl⟩
  | count + 1, inode, k, layout, fits, enough => by
      have pushed := layout.push_direct (whole.getD k 0) (by rw [length_take_of_le (by omega)]; omega)
      rw [length_take_of_le (by omega), ← take_succ_getD (by omega)] at pushed
      obtain ⟨inode', ran, layout', size, indirect1, indirect2⟩ :=
        fillDirect_spec count (inode.setDirect k (whole.getD k 0)) (k + 1) pushed (by omega) (by omega)
      rw [List.range'_succ, fillDirect, nextBlock_drop (by omega), ← Nat.add_assoc, Nat.add_right_comm k count 1]
      exact ⟨inode', ran, layout', size, indirect1, indirect2⟩

/-- The loop over `indirect1` takes the next `count` ids into its entries from entry `j` on. -/
theorem fillIndirect1_spec (small : ∀ id ∈ whole, id < 2 ^ 32) : ∀ (count : Nat) (d : Disk) (j k : Nat),
    Layout inode d (whole.take k) → k = inodeDirectCount + 1 + j → j + count ≤ inodeIndirect1Count →
    k + count ≤ whole.length →
    ∃ d', fillIndirect1 inode.indirect1 (whole.drop k) (List.range' j count) d = .ok (whole.drop (k + count), d') ∧
      Layout inode d' (whole.take (k + count)) ∧ d'.blocks = d.blocks
  | 0, d, _, _, layout, _, _, _ => ⟨d, rfl, layout, rfl⟩
  | count + 1, d, j, k, layout, slot, fits, enough => by
      have pushed := layout.push_entry1 (whole.getD k 0) ((length_take_of_le (by omega)).trans slot)
        (by omega) (small _ (getD_mem (by omega)))
      rw [← take_succ_getD (by omega)] at pushed
      obtain ⟨d', ran, layout', blocks⟩ :=
        fillIndirect1_spec small count _ (j + 1) (k + 1) pushed (by omega) (by omega) (by omega)
      rw [List.range'_succ, fillIndirect1,
        Foundation.bind_of_ok (Foundation.liftExcept_eq_ok.mpr ⟨nextBlock_drop (by omega), rfl⟩)]
      dsimp only
      rw [Foundation.bind_of_ok setEntry_apply, ← Nat.add_assoc, Nat.add_right_comm k count 1]
      exact ⟨d', ran, layout', blocks⟩

/-- The part of a position of the loop over `indirect2` that takes the next id into entry `b0`
of the second-level block in entry `a0` of `indirect2`. -/
theorem level2Entry_run {a0 b0 k : Nat} (nodup : whole.Nodup) (onDevice : ∀ id ∈ whole, id < d.blocks ∧ id < 2 ^ 32)
    (layout : Layout inode d (whole.take k)) (slot : k = level2Slot a0 + 1 + b0)
    (inside : a0 < inodeIndirect1Count) (inside' : b0 < inodeIndirect1Count) (enough : k < whole.length)
    (rest : List Nat) :
    ∃ d', (do
        checkIndex a0
        let indirect1 := entryOf (← get) inode.indirect2 a0
        checkBlock indirect1
        let (id, ids) ← StateT.lift (nextBlock (whole.drop k))
        setEntry indirect1 b0 id
        fillIndirect2 inode.indirect2 ids rest) d = fillIndirect2 inode.indirect2 (whole.drop (k + 1)) rest d' ∧
      Layout inode d' (whole.take (k + 1)) ∧ d'.blocks = d.blocks := by
  have blockSlot : level2Slot a0 < k := by omega
  -- the second-level block is the id of its slot
  have block : entryOf d inode.indirect2 a0 = whole.getD (level2Slot a0) 0 := by
    rw [layout.entries2 a0 inside (by rw [length_take_of_le (by omega)]; exact blockSlot), getD_take blockSlot]
  have present := (onDevice _ (getD_mem (show level2Slot a0 < whole.length by omega))).1
  have pushed := layout.push_level2 (whole.getD k 0) ((length_take_of_le (by omega)).trans slot) inside
    inside' (by rw [← take_succ_getD enough]; exact nodup_take nodup _) (onDevice _ (getD_mem enough)).2
  rw [getD_take blockSlot, ← take_succ_getD enough] at pushed
  rw [Foundation.bind_of_ok (checkIndex_of_lt inside), Foundation.get_bind]
  dsimp only
  rw [block, Foundation.bind_of_ok (checkBlock_of_lt present),
    Foundation.bind_of_ok (Foundation.liftExcept_eq_ok.mpr ⟨nextBlock_drop enough, rfl⟩)]
  dsimp only
  rw [Foundation.bind_of_ok setEntry_apply]
  exact ⟨_, rfl, pushed, rfl⟩

/-- One position `p` of the loop over `indirect2` takes the ids of its slots. -/
theorem fillIndirect2_step {p : Nat} (nodup : whole.Nodup) (onDevice : ∀ id ∈ whole, id < d.blocks ∧ id < 2 ^ 32)
    (layout : Layout inode d (whole.take (streamSlot p))) (inside : p < inodeIndirect2Count)
    (enough : streamSlot (p + 1) ≤ whole.length) (rest : List Nat) :
    ∃ d', fillIndirect2 inode.indirect2 (whole.drop (streamSlot p)) (p :: rest) d =
        fillIndirect2 inode.indirect2 (whole.drop (streamSlot (p + 1))) rest d' ∧
      Layout inode d' (whole.take (streamSlot (p + 1))) ∧ d'.blocks = d.blocks := by
  have row : p / inodeIndirect1Count < inodeIndirect1Count := by
    simp only [inodeIndirect2Count, inodeIndirect1Count_eq] at *
    omega
  have column : p % inodeIndirect1Count < inodeIndirect1Count := Nat.mod_lt _ (by decide)
  have next := streamSlot_succ p
  rw [fillIndirect2]
  dsimp only
  by_cases first : p % inodeIndirect1Count = 0
  · -- a new second-level block, then its entry 0
    have slot : streamSlot p = level2Slot (p / inodeIndirect1Count) := by
      unfold streamSlot
      rw [if_pos first]
    have pushed := layout.push_entry2 (whole.getD (streamSlot p) 0) (length_take_of_le (by omega) |>.trans slot)
      row (by rw [← take_succ_getD (by omega)]; exact nodup_take nodup _) (onDevice _ (getD_mem (by omega))).2
    rw [← take_succ_getD (by omega)] at pushed
    rw [if_pos first, Foundation.bind_of_ok (Foundation.liftExcept_eq_ok.mpr ⟨nextBlock_drop (by omega), rfl⟩)]
    dsimp only
    rw [Foundation.bind_of_ok (checkIndex_of_lt row), Foundation.bind_of_ok setEntry_apply, pure_bind, first]
    rw [first] at next
    obtain ⟨d', ran, layout', blocks⟩ := level2Entry_run nodup (fun id member => by
        rw [withEntry_blocks]; exact onDevice id member) pushed (by rw [slot]) row (Nat.zero_lt_succ 127)
        (by omega) rest
    rw [next, ← slot]
    exact ⟨d', ran, layout', blocks⟩
  · have slot : streamSlot p = level2Slot (p / inodeIndirect1Count) + 1 + p % inodeIndirect1Count := by
      unfold streamSlot
      rw [if_neg first]
    rw [if_neg first, pure_bind, next, ← slot]
    exact level2Entry_run nodup onDevice layout slot row column (by omega) rest

/-- The loop over `indirect2` from position `p` takes the ids of the slots of `count` positions. -/
theorem fillIndirect2_spec (nodup : whole.Nodup) : ∀ (count : Nat) (d : Disk) (p : Nat),
    (∀ id ∈ whole, id < d.blocks ∧ id < 2 ^ 32) → Layout inode d (whole.take (streamSlot p)) →
    p + count ≤ inodeIndirect2Count → streamSlot (p + count) ≤ whole.length →
    ∃ d', fillIndirect2 inode.indirect2 (whole.drop (streamSlot p)) (List.range' p count) d =
        .ok (whole.drop (streamSlot (p + count)), d') ∧
      Layout inode d' (whole.take (streamSlot (p + count))) ∧ d'.blocks = d.blocks
  | 0, d, _, _, layout, _, _ => ⟨d, rfl, layout, rfl⟩
  | count + 1, d, p, onDevice, layout, fits, enough => by
      obtain ⟨d1, ran, layout1, blocks1⟩ := fillIndirect2_step nodup onDevice layout (by omega)
        (Nat.le_trans (streamSlot_mono (by omega)) enough) (List.range' (p + 1) count)
      obtain ⟨d', ran', layout', blocks'⟩ := fillIndirect2_spec nodup count d1 (p + 1)
        (fun id member => by rw [blocks1]; exact onDevice id member) layout1 (by omega)
        (by rwa [Nat.add_right_comm])
      rw [List.range'_succ, ran, ← Nat.add_assoc, Nat.add_right_comm p count 1]
      exact ⟨d', ran', layout', blocks'.trans blocks1⟩

/-- `// fill direct` takes the ids of the direct blocks from `n` up to `n'`, if any. -/
theorem fillDirect_phase {n n' : Nat} (layout : Layout inode d (whole.take (usedSlots n))) (grows : n ≤ n')
    (enough : usedSlots (max n (min n' inodeDirectCount)) ≤ whole.length) :
    ∃ inode', inode.fillDirect (whole.drop (usedSlots n)) (List.range' n (min n' inodeDirectCount - n)) =
        .ok (inode', whole.drop (usedSlots (max n (min n' inodeDirectCount)))) ∧
      Layout inode' d (whole.take (usedSlots (max n (min n' inodeDirectCount)))) ∧ inode'.size = inode.size := by
  by_cases low : n ≤ inodeDirectCount
  · have start := usedSlots_of_le_direct low
    have stop : usedSlots (max n (min n' inodeDirectCount)) = n + (min n' inodeDirectCount - n) := by
      rw [usedSlots_of_le_direct (by omega)]
      omega
    rw [start] at layout ⊢
    rw [stop] at enough ⊢
    obtain ⟨inode', ran, layout', size, -, -⟩ := fillDirect_spec _ inode n layout (by omega) enough
    exact ⟨inode', ran, layout', size⟩
  · -- past the direct blocks the loop does not run
    rw [show min n' inodeDirectCount - n = 0 by omega, show max n (min n' inodeDirectCount) = n by omega]
    exact ⟨inode, rfl, layout, rfl⟩

/-- Past `indirect1`, `increase_size` takes the `indirect2` block when it is first needed and
fills it up to `total`. -/
theorem growIndirect2_spec (nodup : whole.Nodup) (onDevice : ∀ id ∈ whole, id < d.blocks ∧ id < 2 ^ 32)
    (current total : Nat) (layout : Layout inode d (whole.take (usedSlots (inodeDirectCount + current))))
    (reached : min total inodeIndirect1Count ≤ current) (behind : current ≤ total)
    (bounded : total ≤ inodeIndirect1Count + inodeIndirect2Count)
    (enough : usedSlots (inodeDirectCount + total) ≤ whole.length) :
    ∃ inode' d', inode.growIndirect2 current total (whole.drop (usedSlots (inodeDirectCount + current))) d =
        .ok ((inode', whole.drop (usedSlots (inodeDirectCount + total))), d') ∧
      Layout inode' d' (whole.take (usedSlots (inodeDirectCount + total))) ∧ inode'.size = inode.size ∧
      d'.blocks = d.blocks := by
  unfold growIndirect2
  by_cases short : total ≤ inodeIndirect1Count
  · obtain rfl : current = total := by omega
    rw [if_pos short]
    exact ⟨inode, d, rfl, layout, rfl, rfl⟩
  rw [if_neg short]
  have beyond : inodeIndirect1Count ≤ current := by omega
  have past : indirect1Bound < inodeDirectCount + total := by unfold indirect1Bound; omega
  -- `// alloc indirect2` leaves the stream at the first position of the loop
  have allocated : ∃ inode2, inode.allocIndirect2 current (whole.drop (usedSlots (inodeDirectCount + current))) =
      .ok (inode2, whole.drop (streamSlot (current - inodeIndirect1Count))) ∧
      Layout inode2 d (whole.take (streamSlot (current - inodeIndirect1Count))) ∧ inode2.size = inode.size := by
    unfold allocIndirect2
    by_cases first : current = inodeIndirect1Count
    · subst first
      have slot : usedSlots (inodeDirectCount + inodeIndirect1Count) = indirect2Slot := rfl
      have fits : indirect2Slot < whole.length :=
        Nat.lt_of_lt_of_le (indirect2Slot_lt 0) (Nat.le_trans (streamSlot_mono (Nat.zero_le _))
          ((usedSlots_of_indirect2 past) ▸ enough))
      rw [slot] at layout ⊢
      have pushed := layout.push_indirect2 (whole.getD indirect2Slot 0) (length_take_of_le (Nat.le_of_lt fits))
      rw [← take_succ_getD fits] at pushed
      rw [if_pos rfl, nextBlock_drop fits, Nat.sub_self, streamSlot_zero]
      exact ⟨_, rfl, pushed, rfl⟩
    · have same : usedSlots (inodeDirectCount + current) = streamSlot (current - inodeIndirect1Count) := by
        rw [usedSlots_of_indirect2 (by unfold indirect1Bound; omega),
          show inodeDirectCount + current - indirect1Bound = current - inodeIndirect1Count by
            unfold indirect1Bound; omega]
      rw [if_neg first, same]
      rw [same] at layout
      exact ⟨inode, rfl, layout, rfl⟩
  obtain ⟨inode2, alloc, layout2, size2⟩ := allocated
  have stop : streamSlot (current - inodeIndirect1Count + (total - inodeIndirect1Count - (current - inodeIndirect1Count))) =
      usedSlots (inodeDirectCount + total) := by
    rw [usedSlots_of_indirect2 past, show current - inodeIndirect1Count +
      (total - inodeIndirect1Count - (current - inodeIndirect1Count)) = inodeDirectCount + total - indirect1Bound by
        unfold indirect1Bound; omega]
  have ran := fillIndirect2_spec nodup _ d _ onDevice layout2 (by unfold inodeIndirect2Count at *; omega)
    (stop ▸ enough)
  obtain ⟨d', ran, layout', blocks'⟩ := ran
  rw [stop] at ran layout'
  -- the `indirect2` block is the id of its slot
  have present : inode2.indirect2 < d.blocks := by
    have inside : indirect2Slot < streamSlot (current - inodeIndirect1Count) :=
      Nat.lt_of_lt_of_le (indirect2Slot_lt 0) (streamSlot_mono (Nat.zero_le _))
    rw [layout2.indirect2, getD_take inside]
    exact (onDevice _ (getD_mem (Nat.lt_of_lt_of_le inside (Nat.le_trans
      (streamSlot_mono (by omega)) (stop ▸ enough))))).1
  rw [Foundation.bind_of_ok (Foundation.liftExcept_eq_ok.mpr ⟨alloc, rfl⟩)]
  dsimp only
  rw [Foundation.bind_of_ok (checkBlock_of_lt present), Foundation.bind_of_ok ran]
  exact ⟨inode2, d', rfl, layout', size2, blocks'⟩

/-- Past the direct blocks, `increase_size` takes the `indirect1` block when it is first needed,
fills it, and goes on past it up to `total`. -/
theorem growIndirect1_spec (nodup : whole.Nodup) (onDevice : ∀ id ∈ whole, id < d.blocks ∧ id < 2 ^ 32)
    (current total : Nat) (layout : Layout inode d (whole.take (usedSlots current)))
    (reached : min total inodeDirectCount ≤ current) (behind : current ≤ total) (bounded : total ≤ indirect2Bound)
    (enough : usedSlots total ≤ whole.length) :
    ∃ inode' d', inode.growIndirect1 current total (whole.drop (usedSlots current)) d =
        .ok ((inode', whole.drop (usedSlots total)), d') ∧
      Layout inode' d' (whole.take (usedSlots total)) ∧ inode'.size = inode.size ∧ d'.blocks = d.blocks := by
  have direct := inodeDirectCount_eq
  have entries := inodeIndirect1Count_eq
  have bound := indirect1Bound_eq
  have entries2 := inodeIndirect2Count_eq
  have bound2 := indirect2Bound_eq
  unfold growIndirect1
  by_cases short : total ≤ inodeDirectCount
  · obtain rfl : current = total := by omega
    rw [if_pos short]
    exact ⟨inode, d, rfl, layout, rfl, rfl⟩
  rw [if_neg short]
  have fits : usedSlots current ≤ whole.length := Nat.le_trans (usedSlots_mono behind) enough
  -- the first entry of `indirect1` is in the stream
  have second : inodeDirectCount + 1 < whole.length := by
    have := usedSlots_mono (show inodeDirectCount + 1 ≤ total by omega)
    rw [usedSlots_of_indirect1 (by omega) (by omega)] at this
    omega
  -- where `// fill indirect1` starts: the slot of entry `current - 28`, or past the entries
  have allocated : ∃ inode2 k, inode.allocIndirect1 current (whole.drop (usedSlots current)) =
      .ok (inode2, whole.drop k) ∧ Layout inode2 d (whole.take k) ∧ inode2.size = inode.size ∧
      inodeDirectCount < k ∧ k ≤ whole.length ∧
      (current ≤ indirect1Bound → k = inodeDirectCount + 1 + (current - inodeDirectCount)) ∧
      (indirect1Bound < current → k = usedSlots current) := by
    unfold allocIndirect1
    by_cases first : current = inodeDirectCount
    · subst first
      have present : inodeDirectCount < whole.length := by omega
      rw [usedSlots_of_le_direct (Nat.le_refl _)] at layout ⊢
      have pushed := layout.push_indirect1 (whole.getD inodeDirectCount 0)
        (length_take_of_le (Nat.le_of_lt present))
      rw [← take_succ_getD present] at pushed
      rw [if_pos rfl, nextBlock_drop present]
      exact ⟨_, _, rfl, pushed, rfl, by omega, by omega, fun _ => by omega, fun past => absurd past (by omega)⟩
    · rw [if_neg first]
      refine ⟨inode, usedSlots current, rfl, layout, rfl, ?_, fits, fun low => ?_, fun _ => rfl⟩
      · have := usedSlots_mono (show inodeDirectCount + 1 ≤ current by omega)
        rw [usedSlots_of_indirect1 (by omega) (by omega)] at this
        omega
      · rw [usedSlots_of_indirect1 (by omega) low]
        omega
  obtain ⟨inode2, k, alloc, layout2, size2, past, inside, low, high⟩ := allocated
  have present : inode2.indirect1 < d.blocks := by
    rw [layout2.indirect1, getD_take past]
    exact (onDevice _ (getD_mem (by omega))).1
  rw [Foundation.bind_of_ok (Foundation.liftExcept_eq_ok.mpr ⟨alloc, rfl⟩)]
  dsimp only
  rw [Foundation.bind_of_ok (checkBlock_of_lt present)]
  -- the rest counts past the direct blocks, from where `// fill indirect1` stops
  have stop : usedSlots (inodeDirectCount + (total - inodeDirectCount)) = usedSlots total := by
    rw [Nat.add_sub_cancel' (by omega)]
  by_cases filling : current ≤ indirect1Bound
  · have next : k + (min (total - inodeDirectCount) inodeIndirect1Count - (current - inodeDirectCount)) =
        usedSlots (inodeDirectCount +
          max (current - inodeDirectCount) (min (total - inodeDirectCount) inodeIndirect1Count)) := by
      rw [low filling, usedSlots_of_indirect1 (by omega) (by omega)]
      omega
    obtain ⟨d1, filled, layout1, blocks1⟩ := fillIndirect1_spec (fun id member => (onDevice id member).2)
      (min (total - inodeDirectCount) inodeIndirect1Count - (current - inodeDirectCount)) d
      (current - inodeDirectCount) k layout2 (low filling) (by omega)
      (by rw [next]; exact Nat.le_trans (usedSlots_mono (by omega)) enough)
    rw [next] at filled layout1
    rw [Foundation.bind_of_ok filled]
    obtain ⟨inode', d', ran, layout', size', blocks'⟩ := growIndirect2_spec nodup
      (fun id member => by rw [blocks1]; exact onDevice id member) _ (total - inodeDirectCount) layout1
      (by omega) (by omega)
      (by omega) (by rw [stop]; exact enough)
    rw [stop] at ran layout'
    exact ⟨inode', d', ran, layout', size'.trans size2, blocks'.trans blocks1⟩
  · -- past the entries of `indirect1` its loop does not run
    have none : min (total - inodeDirectCount) inodeIndirect1Count - (current - inodeDirectCount) = 0 := by
      omega
    have same : usedSlots (inodeDirectCount +
        max (current - inodeDirectCount) (min (total - inodeDirectCount) inodeIndirect1Count)) = k := by
      rw [high (Nat.lt_of_not_le filling)]
      congr 1
      omega
    have empty : fillIndirect1 inode2.indirect1 (whole.drop k) [] d = .ok (whole.drop k, d) := rfl
    rw [none, List.range'_zero, Foundation.bind_of_ok empty, ← same]
    rw [← same] at layout2
    obtain ⟨inode', d', ran, layout', size', blocks'⟩ := growIndirect2_spec nodup onDevice _
      (total - inodeDirectCount) layout2 (by omega) (by omega) (by omega)
      (by rw [stop]; exact enough)
    rw [stop] at ran layout'
    exact ⟨inode', d', ran, layout', size'.trans size2, blocks'⟩

/-- `increase_size(new_size, ids)` from an inode holding the first `total_blocks(size)` ids of
`whole`, handed the rest of `whole`, takes the ids up to `total_blocks(new_size)` and lays them
out. -/
theorem increaseSize_spec {newSize : Nat} (nodup : whole.Nodup) (onDevice : ∀ id ∈ whole, id < d.blocks ∧ id < 2 ^ 32)
    (layout : Layout inode d (whole.take (totalBlocks inode.size))) (grows : inode.size ≤ newSize)
    (bounded : newSize ≤ indirect2Bound * blockSz) (enough : totalBlocks newSize ≤ whole.length) :
    ∃ inode' d', inode.increaseSize newSize (whole.drop (totalBlocks inode.size)) d =
        .ok ((inode', whole.drop (totalBlocks newSize)), d') ∧
      Layout inode' d' (whole.take (totalBlocks newSize)) ∧ inode'.size = newSize ∧ d'.blocks = d.blocks := by
  have more : dataBlocksOf inode.size ≤ dataBlocksOf newSize := Nat.div_le_div_right (by omega)
  have within := dataBlocksOf_le bounded
  rw [totalBlocks_eq] at layout enough ⊢
  rw [totalBlocks_eq]
  obtain ⟨inode1, filled, layout1, size1⟩ := fillDirect_phase (layout.setSize newSize) more
    (Nat.le_trans (usedSlots_mono (by omega)) enough)
  obtain ⟨inode', d', ran, layout', size', blocks'⟩ :=
    growIndirect1_spec nodup onDevice _ _ layout1 (by omega) (by omega) within enough
  unfold increaseSize
  simp only [dataBlocks]
  rw [Foundation.bind_of_ok (Foundation.liftExcept_eq_ok.mpr ⟨filled, rfl⟩)]
  exact ⟨inode', d', ran, layout', size'.trans size1, blocks'⟩

/-- `get_block_id(j)` reads data block `j` from its slot. -/
theorem getBlockId_of_layout {seq : List Nat} (layout : Layout inode d seq) (onDevice : ∀ id ∈ seq, id < d.blocks)
    {j : Nat} (inside : dataSlot j < seq.length) (bound : j < indirect2Bound) :
    inode.getBlockId j d = .ok (seq.getD (dataSlot j) 0, d) := by
  have direct := inodeDirectCount_eq
  have entries := inodeIndirect1Count_eq
  have bound1 := indirect1Bound_eq
  have bound2 := indirect2Bound_eq
  unfold getBlockId
  by_cases inDirect : j < inodeDirectCount
  · rw [if_pos inDirect, layout.direct j inDirect]
    unfold dataSlot
    rw [if_pos inDirect]
    rfl
  rw [if_neg inDirect]
  by_cases inIndirect1 : j < indirect1Bound
  · have slot : dataSlot j = inodeDirectCount + 1 + (j - inodeDirectCount) := by
      unfold dataSlot
      rw [if_neg inDirect, if_pos inIndirect1]
      omega
    rw [slot] at inside ⊢
    have present : inode.indirect1 < d.blocks := by
      rw [layout.indirect1]
      exact onDevice _ (getD_mem (by omega))
    rw [if_pos inIndirect1, readLE_of_lt present]
    exact congrArg (fun id => Except.ok (id, d)) (layout.entries1 _ (by omega) inside)
  rw [if_neg inIndirect1]
  -- past `indirect1`: entry `a` of `indirect2` names the second-level block holding entry `b`
  have row : (j - indirect1Bound) / inodeIndirect1Count < inodeIndirect1Count := by
    rw [entries, bound1]
    omega
  have column : (j - indirect1Bound) % inodeIndirect1Count < inodeIndirect1Count := Nat.mod_lt _ (by omega)
  have slot : dataSlot j = level2Slot ((j - indirect1Bound) / inodeIndirect1Count) + 1 +
      (j - indirect1Bound) % inodeIndirect1Count := by
    unfold dataSlot
    rw [if_neg inDirect, if_neg inIndirect1]
  rw [slot] at inside ⊢
  have blockSlot : level2Slot ((j - indirect1Bound) / inodeIndirect1Count) < seq.length := by omega
  have present2 : inode.indirect2 < d.blocks := by
    rw [layout.indirect2]
    exact onDevice _ (getD_mem (Nat.lt_trans (indirect2Slot_lt _) blockSlot))
  have present : seq.getD (level2Slot ((j - indirect1Bound) / inodeIndirect1Count)) 0 < d.blocks :=
    onDevice _ (getD_mem blockSlot)
  rw [Foundation.bind_of_ok (checkBlock_of_lt present2), Foundation.bind_of_ok (checkIndex_of_lt row),
    Foundation.bind_of_ok (readLE_of_lt present2)]
  have block := layout.entries2 _ row blockSlot
  unfold entryOf at block
  rw [block, readLE_of_lt present]
  exact congrArg (fun id => Except.ok (id, d)) (layout.level2 _ row _ column inside)

end Loops

section History

/-- The calls `increase_size(s_i, v_i)` of `steps`, from an inode of `size` bytes holding the
ids `used`: sizes that never decrease and stay within `INDIRECT2_BOUND * BLOCK_SZ`, each call
handed the `blocks_num_needed(s_i)` ids it asks for, every id distinct from all the others and a
block of a device of `blocks` blocks that a `u32` holds. -/
def Growth (blocks : Nat) : Nat → List Nat → List (Nat × List Nat) → Prop
  | _, _, [] => True
  | size, used, (newSize, ids) :: rest =>
      size ≤ newSize ∧ newSize ≤ indirect2Bound * blockSz ∧ ids.length = totalBlocks newSize - totalBlocks size ∧
        (used ++ ids).Nodup ∧ (∀ id ∈ ids, id < blocks ∧ id < 2 ^ 32) ∧ Growth blocks newSize (used ++ ids) rest

instance decGrowth (blocks : Nat) :
    (size : Nat) → (used : List Nat) → (steps : List (Nat × List Nat)) → Decidable (Growth blocks size used steps)
  | _, _, [] => inferInstanceAs (Decidable True)
  | size, used, (newSize, ids) :: rest =>
      have := decGrowth blocks newSize (used ++ ids) rest
      inferInstanceAs (Decidable (size ≤ newSize ∧ newSize ≤ indirect2Bound * blockSz ∧
        ids.length = totalBlocks newSize - totalBlocks size ∧ (used ++ ids).Nodup ∧
        (∀ id ∈ ids, id < blocks ∧ id < 2 ^ 32) ∧ Growth blocks newSize (used ++ ids) rest))

/-- The size the steps leave: the last one, or `size` with no step. -/
def finalSize (size : Nat) (steps : List (Nat × List Nat)) : Nat := (steps.map Prod.fst).getLastD size

theorem finalSize_cons (size newSize : Nat) (ids : List Nat) (steps : List (Nat × List Nat)) :
    finalSize size ((newSize, ids) :: steps) = finalSize newSize steps := by
  simp only [finalSize, List.map_cons, List.getLastD_cons]

theorem growth_append {blocks : Nat} {rest : List (Nat × List Nat)} :
    ∀ {size : Nat} {used : List Nat} {steps : List (Nat × List Nat)},
      Growth blocks size used (steps ++ rest) →
      Growth blocks size used steps ∧ Growth blocks (finalSize size steps) (used ++ steps.flatMap Prod.snd) rest
  | _, used, [], grows => ⟨trivial, by simpa [finalSize] using grows⟩
  | size, used, (newSize, ids) :: steps, ⟨le, bounded, counted, nodup, onDevice, grows⟩ => by
      obtain ⟨first, later⟩ := growth_append grows
      refine ⟨⟨le, bounded, counted, nodup, onDevice, first⟩, ?_⟩
      rw [finalSize_cons, List.flatMap_cons, ← List.append_assoc]
      exact later

theorem totalBlocks_mono {size size' : Nat} (le : size ≤ size') : totalBlocks size ≤ totalBlocks size' := by
  rw [totalBlocks_eq, totalBlocks_eq]
  exact usedSlots_mono (Nat.div_le_div_right (by omega))

/-- A run of `increase_size` calls lays out every id it is handed, in order. -/
theorem increaseSizes_spec : ∀ (steps : List (Nat × List Nat)) (inode : DiskInode) (d : Disk) (used : List Nat),
    Layout inode d used → used.length = totalBlocks inode.size → used.Nodup →
    (∀ id ∈ used, id < d.blocks ∧ id < 2 ^ 32) → Growth d.blocks inode.size used steps →
    ∃ inode' d', inode.increaseSizes steps d = .ok (inode', d') ∧
      Layout inode' d' (used ++ steps.flatMap Prod.snd) ∧ inode'.size = finalSize inode.size steps ∧
      (used ++ steps.flatMap Prod.snd).length = totalBlocks inode'.size ∧ d'.blocks = d.blocks
  | [], inode, d, used, layout, counted, _, _, _ => ⟨inode, d, rfl, by simpa using layout, rfl, by simpa using counted, rfl⟩
  | (newSize, ids) :: rest, inode, d, used, layout, counted, _, onDevice, ⟨le, bounded, needed, nodup, fresh, grows⟩ => by
      -- the ids held and the ids handed to this call, as one stream
      have total : (used ++ ids).length = totalBlocks newSize := by
        have := totalBlocks_mono le
        rw [List.length_append]
        omega
      have onDevice' : ∀ id ∈ used ++ ids, id < d.blocks ∧ id < 2 ^ 32 := by
        intro id member
        rcases List.mem_append.mp member with old | new
        · exact onDevice id old
        · exact fresh id new
      have held : (used ++ ids).take (totalBlocks inode.size) = used := List.take_left' counted
      have handed : (used ++ ids).drop (totalBlocks inode.size) = ids := List.drop_left' counted
      obtain ⟨inode1, d1, ran, layout1, size1, blocks1⟩ :=
        increaseSize_spec nodup onDevice' (by rw [held]; exact layout) le bounded (Nat.le_of_eq total.symm)
      rw [← total, List.take_length] at layout1
      rw [← size1, ← blocks1] at grows
      obtain ⟨inode', d', ran', layout', size', counted', blocks'⟩ := increaseSizes_spec rest inode1 d1 (used ++ ids)
        layout1 (by rw [total, size1]) nodup (fun id member => blocks1 ▸ onDevice' id member) grows
      refine ⟨inode', d', ?_, by simpa [List.flatMap_cons, List.append_assoc] using layout',
        by rw [size', size1, finalSize_cons], by simpa [List.flatMap_cons, List.append_assoc] using counted',
        blocks'.trans blocks1⟩
      unfold increaseSizes
      rw [← handed, Foundation.bind_of_ok ran]
      exact ran'

theorem growth_onDevice {blocks : Nat} : ∀ {size : Nat} {used : List Nat} {steps : List (Nat × List Nat)},
    Growth blocks size used steps → ∀ id ∈ steps.flatMap Prod.snd, id < blocks ∧ id < 2 ^ 32
  | _, _, [], _, _, member => by cases member
  | _, _, (_, ids) :: _, ⟨_, _, _, _, fresh, grows⟩, id, member => by
      rw [List.flatMap_cons] at member
      rcases List.mem_append.mp member with now | later
      · exact fresh id now
      · exact growth_onDevice grows id later

theorem growth_bounded {blocks : Nat} : ∀ {size : Nat} {used : List Nat} {steps : List (Nat × List Nat)},
    Growth blocks size used steps → size ≤ indirect2Bound * blockSz → finalSize size steps ≤ indirect2Bound * blockSz
  | _, _, [], _, small => small
  | _, _, (_, _) :: _, ⟨_, bounded, _, _, _, grows⟩, _ => by
      rw [finalSize_cons]
      exact growth_bounded grows bounded

end History

section BlockMap

/-- The index blocks an inode uses for its `data_blocks()` data blocks: `indirect1`, then
`indirect2` and the second-level blocks named by its entries. -/
def indexBlocks (inode : DiskInode) (d : Disk) : List Nat :=
  (if inodeDirectCount < inode.dataBlocks then [inode.indirect1] else []) ++
    if indirect1Bound < inode.dataBlocks then
      inode.indirect2 :: (List.range (level2Blocks inode.dataBlocks)).map (entryOf d inode.indirect2)
    else []

/-- The id of data block `j` after the steps: the id in its slot. -/
def blockIdAt (steps : List (Nat × List Nat)) (j : Nat) : Nat := (steps.flatMap Prod.snd).getD (dataSlot j) 0

variable {inode : DiskInode} {d : Disk} {seq : List Nat}

/-- The index blocks are the ids in the index slots the file fills. -/
theorem Layout.mem_indexBlocks (layout : Layout inode d seq) (counted : seq.length = usedSlots inode.dataBlocks)
    (bounded : inode.dataBlocks ≤ indirect2Bound) {id : Nat} : id ∈ indexBlocks inode d ↔
      (inodeDirectCount < inode.dataBlocks ∧ id = seq.getD inodeDirectCount 0) ∨
      (indirect1Bound < inode.dataBlocks ∧ (id = seq.getD indirect2Slot 0 ∨
        ∃ a < level2Blocks inode.dataBlocks, id = seq.getD (level2Slot a) 0)) := by
  -- the second-level blocks are named in their slots
  have named : ∀ a < level2Blocks inode.dataBlocks, indirect1Bound < inode.dataBlocks →
      entryOf d inode.indirect2 a = seq.getD (level2Slot a) 0 := fun a inside past =>
    layout.entries2 a (Nat.lt_of_lt_of_le inside (level2Blocks_le bounded))
      (counted ▸ level2Slot_lt_usedSlots past inside)
  unfold indexBlocks
  rw [← layout.indirect1, ← layout.indirect2]
  by_cases first : inodeDirectCount < inode.dataBlocks <;> by_cases second : indirect1Bound < inode.dataBlocks
  all_goals simp only [first, second, if_true, if_false, List.mem_append, List.mem_cons, List.mem_map,
    List.mem_range, List.not_mem_nil, true_and, false_and, or_false, false_or]
  · exact or_congr_right (or_congr_right (exists_congr fun a => and_congr_right fun inside => by
      rw [named a inside second, eq_comm]))
  · exact absurd (Nat.lt_trans (by rw [inodeDirectCount_eq, indirect1Bound_eq]; decide) second) first

/-- Distinct data blocks of a file have distinct ids. -/
theorem dataId_injective {m : Nat} (nodup : seq.Nodup) (counted : seq.length = usedSlots m) {j k : Nat}
    (inside : j < m) (inside' : k < m) (same : seq.getD (dataSlot j) 0 = seq.getD (dataSlot k) 0) : j = k := by
  by_contra apart
  exact getD_ne nodup (counted ▸ dataSlot_lt inside) (counted ▸ dataSlot_lt inside')
    (fun slot => apart (dataSlot_injective slot)) same

/-- No data block of a file is one of its index blocks. -/
theorem Layout.dataId_not_mem_indexBlocks (layout : Layout inode d seq) (nodup : seq.Nodup)
    (counted : seq.length = usedSlots inode.dataBlocks) (bounded : inode.dataBlocks ≤ indirect2Bound) {j : Nat}
    (inside : j < inode.dataBlocks) : seq.getD (dataSlot j) 0 ∉ indexBlocks inode d := by
  have data : dataSlot j < seq.length := counted ▸ dataSlot_lt inside
  rw [layout.mem_indexBlocks counted bounded]
  rintro (⟨past, same⟩ | ⟨past, same | ⟨a, inside', same⟩⟩)
  · exact getD_ne nodup data (counted ▸ direct_lt_usedSlots past) (dataSlot_ne_index j 0).1 same
  · exact getD_ne nodup data (counted ▸ indirect2Slot_lt_usedSlots past) (dataSlot_ne_index j 0).2.1 same
  · exact getD_ne nodup data (counted ▸ level2Slot_lt_usedSlots past inside') (dataSlot_ne_index j a).2.2 same

/-- The ids a file holds are its data blocks and its index blocks. -/
theorem Layout.mem_iff (layout : Layout inode d seq) (counted : seq.length = usedSlots inode.dataBlocks)
    (bounded : inode.dataBlocks ≤ indirect2Bound) {id : Nat} :
    id ∈ seq ↔ (∃ j < inode.dataBlocks, seq.getD (dataSlot j) 0 = id) ∨ id ∈ indexBlocks inode d := by
  rw [layout.mem_indexBlocks counted bounded]
  constructor
  · intro member
    obtain ⟨i, inside, rfl⟩ := mem_iff_getD.mp member
    rcases slot_cases (counted ▸ inside) with ⟨j, data, rfl⟩ | ⟨rfl, past⟩ | ⟨rfl, past⟩ | ⟨past, a, inside', rfl⟩
    · exact .inl ⟨j, data, rfl⟩
    · exact .inr (.inl ⟨past, rfl⟩)
    · exact .inr (.inr ⟨past, .inl rfl⟩)
    · exact .inr (.inr ⟨past, .inr ⟨a, inside', rfl⟩⟩)
  · rintro (⟨j, data, rfl⟩ | ⟨past, rfl⟩ | ⟨past, rfl | ⟨a, inside', rfl⟩⟩)
    · exact getD_mem (counted ▸ dataSlot_lt data)
    · exact getD_mem (counted ▸ direct_lt_usedSlots past)
    · exact getD_mem (counted ▸ indirect2Slot_lt_usedSlots past)
    · exact getD_mem (counted ▸ level2Slot_lt_usedSlots past inside')

theorem increaseSize_block_map (type_ : DiskInodeType) (d : Disk) (steps : List (Nat × List Nat))
    (newSize : Nat) (ids : List Nat) (history : Growth d.blocks 0 [] (steps ++ [(newSize, ids)])) :
    ∃ inode d₁ inode' d₂, (ofType type_).increaseSizes steps d = .ok (inode, d₁) ∧
      inode.increaseSize newSize ids d₁ = .ok ((inode', []), d₂) ∧ inode'.size = newSize ∧
      (∀ j < inode.dataBlocks, inode.getBlockId j d₁ = .ok (blockIdAt steps j, d₁) ∧
        inode'.getBlockId j d₂ = .ok (blockIdAt steps j, d₂)) ∧
      (∀ j < inode'.dataBlocks, inode'.getBlockId j d₂ = .ok (blockIdAt (steps ++ [(newSize, ids)]) j, d₂) ∧
        blockIdAt (steps ++ [(newSize, ids)]) j ∉ indexBlocks inode' d₂) ∧
      (∀ j < inode'.dataBlocks, ∀ k < inode'.dataBlocks,
        blockIdAt (steps ++ [(newSize, ids)]) j = blockIdAt (steps ++ [(newSize, ids)]) k → j = k) ∧
      (∀ id, id ∈ (steps ++ [(newSize, ids)]).flatMap Prod.snd ↔
        (∃ j < inode'.dataBlocks, blockIdAt (steps ++ [(newSize, ids)]) j = id) ∨ id ∈ indexBlocks inode' d₂) ∧
      ((steps ++ [(newSize, ids)]).flatMap Prod.snd).length = totalBlocks newSize := by
  obtain ⟨early, grows, bounded, needed, nodup, fresh, -⟩ := growth_append history
  rw [List.nil_append] at nodup
  obtain ⟨inode, d₁, ran₁, layout₁, size₁, counted₁, blocks₁⟩ :=
    increaseSizes_spec steps (ofType type_) d [] (layout_ofType type_ d) totalBlocks_zero.symm List.nodup_nil
      (fun _ member => absurd member List.not_mem_nil) early
  rw [List.nil_append] at layout₁ counted₁
  change inode.size = finalSize 0 steps at size₁
  -- the ids of the earlier steps, then those of this call, as one stream
  have onDevice : ∀ id ∈ steps.flatMap Prod.snd ++ ids, id < d₁.blocks ∧ id < 2 ^ 32 := by
    intro id member
    rw [blocks₁]
    rcases List.mem_append.mp member with before | now
    · exact growth_onDevice early id before
    · exact fresh id now
  have total : (steps.flatMap Prod.snd ++ ids).length = totalBlocks newSize := by
    have := totalBlocks_mono grows
    rw [List.length_append, counted₁, size₁]
    omega
  have start : (steps.flatMap Prod.snd ++ ids).take (totalBlocks inode.size) = steps.flatMap Prod.snd :=
    List.take_left' counted₁
  obtain ⟨inode', d₂, ran₂, layout₂, size₂, blocks₂⟩ :=
    increaseSize_spec nodup onDevice (start ▸ layout₁) (size₁ ▸ grows) bounded (Nat.le_of_eq total.symm)
  rw [List.drop_left' counted₁, ← total, List.drop_length] at ran₂
  rw [← total, List.take_length] at layout₂
  have all : (steps ++ [(newSize, ids)]).flatMap Prod.snd = steps.flatMap Prod.snd ++ ids := by
    rw [List.flatMap_append, List.flatMap_cons, List.flatMap_nil, List.append_nil]
  have slots₁ : (steps.flatMap Prod.snd).length = usedSlots inode.dataBlocks := counted₁.trans (totalBlocks_eq _)
  have slots₂ : (steps.flatMap Prod.snd ++ ids).length = usedSlots inode'.dataBlocks := by
    rw [total, totalBlocks_eq, ← size₂]
    rfl
  have within₂ : inode'.dataBlocks ≤ indirect2Bound := dataBlocksOf_le (size₂ ▸ bounded)
  have within₁ : inode.dataBlocks ≤ inode'.dataBlocks :=
    Nat.div_le_div_right (Nat.add_le_add_right (size₂ ▸ size₁ ▸ grows) _)
  have onDevice₁ : ∀ id ∈ steps.flatMap Prod.snd, id < d₁.blocks := fun id member =>
    (onDevice id (List.mem_append_left ids member)).1
  have onDevice₂ : ∀ id ∈ steps.flatMap Prod.snd ++ ids, id < d₂.blocks := fun id member =>
    blocks₂ ▸ (onDevice id member).1
  unfold blockIdAt
  rw [all]
  refine ⟨inode, d₁, inode', d₂, ran₁, ran₂, size₂, fun j inside => ⟨?_, ?_⟩, fun j inside => ⟨?_, ?_⟩,
    fun j inside k inside' => dataId_injective nodup slots₂ inside inside', fun id => layout₂.mem_iff slots₂ within₂,
    total⟩
  case refine_1 =>
    exact getBlockId_of_layout layout₁ onDevice₁ (slots₁ ▸ dataSlot_lt inside) (by omega)
  case refine_2 =>
    have before : dataSlot j < (steps.flatMap Prod.snd).length := slots₁ ▸ dataSlot_lt inside
    have kept : (steps.flatMap Prod.snd ++ ids).getD (dataSlot j) 0 = (steps.flatMap Prod.snd).getD (dataSlot j) 0 := by
      rw [← getD_take before, List.take_left' rfl]
    rw [getBlockId_of_layout layout₂ onDevice₂ (by rw [List.length_append]; omega) (by omega), kept]
  case refine_3 =>
    exact getBlockId_of_layout layout₂ onDevice₂ (slots₂ ▸ dataSlot_lt inside) (by omega)
  case refine_4 =>
    exact layout₂.dataId_not_mem_indexBlocks nodup slots₂ within₂ inside

/-- A file of one block grown to 29: its last data block is entry 0 of the new `indirect1`. -/
theorem increaseSize_block_map_past_direct :
    let d : Disk := ⟨40, fun _ => 0⟩
    let steps := [(blockSz, [5])]
    let newSize := 29 * blockSz
    let ids := List.range' 6 29
    Growth d.blocks 0 [] (steps ++ [(newSize, ids)]) ∧
    ∃ inode d₁ inode' d₂, (ofType .file).increaseSizes steps d = .ok (inode, d₁) ∧
      inode.increaseSize newSize ids d₁ = .ok ((inode', []), d₂) ∧ inode'.size = newSize ∧
      (∀ j < inode.dataBlocks, inode.getBlockId j d₁ = .ok (blockIdAt steps j, d₁) ∧
        inode'.getBlockId j d₂ = .ok (blockIdAt steps j, d₂)) ∧
      (∀ j < inode'.dataBlocks, inode'.getBlockId j d₂ = .ok (blockIdAt (steps ++ [(newSize, ids)]) j, d₂) ∧
        blockIdAt (steps ++ [(newSize, ids)]) j ∉ indexBlocks inode' d₂) ∧
      (∀ j < inode'.dataBlocks, ∀ k < inode'.dataBlocks,
        blockIdAt (steps ++ [(newSize, ids)]) j = blockIdAt (steps ++ [(newSize, ids)]) k → j = k) ∧
      (∀ id, id ∈ (steps ++ [(newSize, ids)]).flatMap Prod.snd ↔
        (∃ j < inode'.dataBlocks, blockIdAt (steps ++ [(newSize, ids)]) j = id) ∨ id ∈ indexBlocks inode' d₂) ∧
      ((steps ++ [(newSize, ids)]).flatMap Prod.snd).length = totalBlocks newSize := by
  intro d steps newSize ids
  have history : Growth d.blocks 0 [] (steps ++ [(newSize, ids)]) := by decide
  exact ⟨history, increaseSize_block_map .file d steps newSize ids history⟩

end BlockMap

section Clear

/-- The `count` ids of `seq` from slot `start`. -/
def slice (seq : List Nat) (start count : Nat) : List Nat := (List.range count).map fun j => seq.getD (start + j) 0

variable {inode : DiskInode} {d : Disk} {seq : List Nat}

theorem slice_succ (seq : List Nat) (start count : Nat) :
    slice seq start (count + 1) = seq.getD start 0 :: slice seq (start + 1) count := by
  unfold slice
  rw [List.range_succ_eq_map, List.map_cons, List.map_map, Nat.add_zero]
  congr 2
  funext j
  rw [Function.comp_apply, Nat.add_right_comm, Nat.add_assoc]

theorem take_append_slice {start : Nat} : ∀ {count : Nat}, start + count ≤ seq.length →
    seq.take start ++ slice seq start count = seq.take (start + count)
  | 0, _ => by rw [slice, List.range_zero, List.map_nil, List.append_nil, Nat.add_zero]
  | count + 1, inside => by
      rw [slice, List.range_succ, List.map_append, ← slice, ← List.append_assoc, take_append_slice (by omega),
        List.map_singleton, ← Nat.add_assoc, take_succ_getD (by omega)]

/-- The slices of `count` consecutive chunks of `size` ids, one after the other. -/
theorem take_append_chunks {start size : Nat} : ∀ {count : Nat}, start + size * count ≤ seq.length →
    seq.take start ++ ((List.range count).map fun i => slice seq (start + size * i) size).flatten =
      seq.take (start + size * count)
  | 0, _ => by rw [List.range_zero, List.map_nil, List.flatten_nil, List.append_nil, Nat.mul_zero, Nat.add_zero]
  | count + 1, inside => by
      rw [Nat.mul_succ] at inside ⊢
      rw [List.range_succ, List.map_append, List.flatten_append, ← List.append_assoc, take_append_chunks (by omega),
        List.map_singleton, List.flatten_singleton, take_append_slice (by omega), Nat.add_assoc]

theorem take_append_level2 {count : Nat} (within : level2Slot count ≤ seq.length) :
    seq.take (level2Slot 0) ++
        ((List.range count).map fun i => slice seq (level2Slot i) (inodeIndirect1Count + 1)).flatten =
      seq.take (level2Slot count) :=
  take_append_chunks within

theorem Layout.take_direct (layout : Layout inode d seq) {k : Nat} (direct : k ≤ inodeDirectCount)
    (inside : k ≤ seq.length) : inode.direct.take k = seq.take k := by
  apply List.ext_getElem
  · rw [List.length_take, List.length_take, inode.direct_length, Nat.min_eq_left direct, Nat.min_eq_left inside]
  · intro j before before'
    rw [List.length_take] at before
    have same := layout.direct j (by omega)
    rw [List.getElem_take, List.getElem_take, ← List.getD_eq_getElem _ 0, ← List.getD_eq_getElem _ 0, same]

theorem Layout.direct_getD_of_le (layout : Layout inode d seq) {j : Nat} (direct : j < inodeDirectCount)
    (past : seq.length ≤ j) : inode.direct.getD j 0 = 0 :=
  (layout.direct j direct).trans (List.getD_eq_default _ _ past)

theorem clearDirect_direct {count : Nat} (zero : ∀ j < inodeDirectCount, count ≤ j → inode.direct.getD j 0 = 0) :
    (inode.clearDirect count).direct = List.replicate inodeDirectCount 0 := by
  apply List.ext_getElem
  · rw [(inode.clearDirect count).direct_length, List.length_replicate]
  · intro j inside _
    have direct : j < inodeDirectCount := (inode.clearDirect count).direct_length ▸ inside
    simp only [clearDirect, List.getElem_mapIdx, List.getElem_replicate]
    split_ifs with before
    · rfl
    · rw [← List.getD_eq_getElem _ 0 (inode.direct_length ▸ direct)]
      exact zero j direct (Nat.le_of_not_lt before)

theorem Layout.entries1_slice (layout : Layout inode d seq) {count : Nat} (entries : count ≤ inodeIndirect1Count)
    (within : inodeDirectCount + 1 + count ≤ seq.length) :
    (List.range count).map (entryOf d inode.indirect1) = slice seq (inodeDirectCount + 1) count :=
  List.map_congr_left fun j member => layout.entries1 j (by rw [List.mem_range] at member; omega)
    (by rw [List.mem_range] at member; omega)

theorem Layout.collectLevel2_ok (layout : Layout inode d seq) (onDevice : ∀ id ∈ seq, id < d.blocks) {a count : Nat}
    (inside : a < inodeIndirect1Count) (entries : count ≤ inodeIndirect1Count)
    (within : level2Slot a + count < seq.length) :
    collectLevel2 inode.indirect2 a count d = .ok (slice seq (level2Slot a) (count + 1), d) := by
  have named := layout.entries2 a inside (by omega)
  have present := onDevice _ (getD_mem (show level2Slot a < seq.length by omega))
  unfold collectLevel2
  rw [Foundation.get_bind, named, Foundation.bind_of_ok (checkBlock_of_lt present), Foundation.get_bind, Foundation.pure_apply, slice_succ]
  congr 3
  exact List.map_congr_left fun b member => layout.level2 a inside b (by rw [List.mem_range] at member; omega)
    (by rw [List.mem_range] at member; omega)

@[simp]
theorem clearDirect_indirect1 (count : Nat) : (inode.clearDirect count).indirect1 = inode.indirect1 := rfl

@[simp]
theorem clearDirect_indirect2 (count : Nat) : (inode.clearDirect count).indirect2 = inode.indirect2 := rfl

/-- The ids `clear_size` collects from the direct entries, `indirect1` and its entries. -/
theorem Layout.clear_indirect1_ids (layout : Layout inode d seq) (counted : seq.length = usedSlots inode.dataBlocks)
    (past : inodeDirectCount < inode.dataBlocks) :
    inode.direct.take (min inode.dataBlocks inodeDirectCount) ++ [inode.indirect1] ++
        (List.range (min (inode.dataBlocks - inodeDirectCount) inodeIndirect1Count)).map (entryOf d inode.indirect1) =
      seq.take (inodeDirectCount + 1 + min (inode.dataBlocks - inodeDirectCount) inodeIndirect1Count) := by
  have within : inodeDirectCount + 1 + min (inode.dataBlocks - inodeDirectCount) inodeIndirect1Count ≤ seq.length := by
    have grows := usedSlots_mono (Nat.min_le_left inode.dataBlocks indirect1Bound)
    rw [usedSlots_of_indirect1 (lt_min past (by decide)) (Nat.min_le_right _ _), ← counted] at grows
    have direct := inodeDirectCount_eq
    have entries := inodeIndirect1Count_eq
    have bound := indirect1Bound_eq
    omega
  have step : seq.take (inodeDirectCount + 1) = seq.take inodeDirectCount ++ [seq.getD inodeDirectCount 0] :=
    take_succ_getD (by omega)
  rw [Nat.min_eq_right (Nat.le_of_lt past), layout.take_direct le_rfl (by omega),
    layout.entries1_slice (Nat.min_le_right _ _) within, layout.indirect1, ← step, take_append_slice within]

theorem clearSize_spec (layout : Layout inode d seq) (counted : seq.length = usedSlots inode.dataBlocks)
    (bounded : inode.dataBlocks ≤ indirect2Bound) (onDevice : ∀ id ∈ seq, id < d.blocks) :
    ∃ inode', inode.clearSize d = .ok ((seq, inode'), d) ∧ inode'.size = 0 ∧
      inode'.direct = List.replicate inodeDirectCount 0 ∧ inode'.indirect1 = 0 ∧ inode'.indirect2 = 0 := by
  unfold clearSize
  dsimp only [clearDirect_indirect1, clearDirect_indirect2]
  by_cases small : inode.dataBlocks ≤ inodeDirectCount
  case pos =>
    -- a file of direct blocks only: no index block was allocated
    have length : seq.length = inode.dataBlocks := counted.trans (usedSlots_of_le_direct small)
    rw [if_pos small, Nat.min_eq_left small, layout.take_direct small (Nat.le_of_eq length.symm), List.take_of_length_le (Nat.le_of_eq length)]
    refine ⟨_, rfl, rfl, clearDirect_direct fun j direct past => layout.direct_getD_of_le direct (length ▸ past), ?_, ?_⟩
    · exact layout.indirect1.trans (List.getD_eq_default _ _ (length ▸ small))
    · exact layout.indirect2.trans (List.getD_eq_default _ _ (by unfold indirect2Slot indirect1Bound; omega))
  case neg =>
    have past := Nat.lt_of_not_le small
    have present₁ := onDevice _ (layout.indirect1 ▸ getD_mem (counted ▸ direct_lt_usedSlots past))
    rw [if_neg small, Foundation.bind_of_ok (checkBlock_of_lt present₁), Foundation.get_bind]
    rw [layout.clear_indirect1_ids counted past]
    -- every direct entry is in use, and all are cleared
    have cleared : (inode.clearDirect (min inode.dataBlocks inodeDirectCount)).direct =
        List.replicate inodeDirectCount 0 :=
      clearDirect_direct fun j direct filled =>
        absurd (Nat.min_eq_right (Nat.le_of_lt past) ▸ filled) (Nat.not_le.mpr direct)
    by_cases middle : inode.dataBlocks - inodeDirectCount ≤ inodeIndirect1Count
    case pos =>
      -- `indirect1` holds the last entries; `indirect2` was never allocated
      have length : seq.length = inodeDirectCount + 1 + min (inode.dataBlocks - inodeDirectCount) inodeIndirect1Count := by
        rw [counted, usedSlots_of_indirect1 past (by unfold indirect1Bound; omega)]
        omega
      rw [if_pos middle, List.take_of_length_le (Nat.le_of_eq length)]
      exact ⟨_, rfl, rfl, cleared, rfl,
        layout.indirect2.trans (List.getD_eq_default _ _ (by unfold indirect2Slot indirect1Bound; omega))⟩
    case neg =>
      -- `indirect2` and its second-level blocks: `a1` full ones, then `b1` entries of the next
      have far : indirect1Bound < inode.dataBlocks := by unfold indirect1Bound; omega
      have length : seq.length = streamSlot (inode.dataBlocks - indirect1Bound) :=
        counted.trans (usedSlots_of_indirect2 far)
      have rest : inode.dataBlocks - inodeDirectCount - inodeIndirect1Count = inode.dataBlocks - indirect1Bound := by
        unfold indirect1Bound
        omega
      have fits : ¬ inodeIndirect2Count < inode.dataBlocks - indirect1Bound := by
        unfold indirect2Bound at bounded
        omega
      have present₂ := onDevice _ (layout.indirect2 ▸ getD_mem (counted ▸ indirect2Slot_lt_usedSlots far))
      have level2 := indirect1Bound_eq
      have entries := inodeIndirect1Count_eq
      have top := inodeIndirect2Count_eq
      rw [streamSlot_eq] at length
      rw [if_neg middle, rest, if_neg fits, Foundation.bind_of_ok (checkBlock_of_lt present₂),
        Foundation.bind_of_ok (Foundation.mapM_of_ok fun i member => layout.collectLevel2_ok onDevice
          (by rw [List.mem_range, entries] at member; omega) le_rfl
          (by rw [List.mem_range, entries] at member; rw [level2Slot_eq]; split_ifs at length <;> omega)),
        Nat.min_eq_right (Nat.le_of_lt (Nat.lt_of_not_le middle))]
      have start : seq.take (inodeDirectCount + 1 + inodeIndirect1Count) ++ [inode.indirect2] =
          seq.take (level2Slot 0) := by
        rw [layout.indirect2]
        exact (take_succ_getD (by rw [length]; split_ifs <;> omega)).symm
      rw [start, take_append_level2 (by rw [length, level2Slot_eq, ← entries]; split_ifs <;> omega)]
      by_cases unfinished : 0 < (inode.dataBlocks - indirect1Bound) % inodeIndirect1Count
      case pos =>
        have filled : 0 < (inode.dataBlocks - indirect1Bound) % 128 := by
          rw [← entries]
          exact unfinished
        rw [if_pos unfinished, Foundation.bind_of_ok (layout.collectLevel2_ok onDevice
            (by rw [entries]; omega) (Nat.le_of_lt (Nat.mod_lt _ (by decide)))
            (by rw [level2Slot_eq, entries, length, if_neg (Nat.ne_of_gt filled)]; omega)),
          take_append_slice (by rw [level2Slot_eq, entries, length, if_neg (Nat.ne_of_gt filled)]; omega),
          List.take_of_length_le (by rw [level2Slot_eq, entries, length, if_neg (Nat.ne_of_gt filled)]; omega)]
        exact ⟨_, rfl, rfl, cleared, rfl, rfl⟩
      case neg =>
        have empty : (inode.dataBlocks - indirect1Bound) % 128 = 0 := by
          rw [← entries]
          omega
        rw [if_neg unfinished, pure_bind, List.append_nil,
          List.take_of_length_le (by rw [level2Slot_eq, entries, length, if_pos empty])]
        exact ⟨_, rfl, rfl, cleared, rfl, rfl⟩

theorem clearSize_returns_supplied (type_ : DiskInodeType) (d : Disk) (steps : List (Nat × List Nat))
    (history : Growth d.blocks 0 [] steps) :
    ∃ inode d₁ inode', (ofType type_).increaseSizes steps d = .ok (inode, d₁) ∧
      inode.clearSize d₁ = .ok ((steps.flatMap Prod.snd, inode'), d₁) ∧
      inode.size = finalSize 0 steps ∧ (steps.flatMap Prod.snd).length = totalBlocks inode.size ∧
      inode'.size = 0 ∧ inode'.direct = List.replicate inodeDirectCount 0 ∧ inode'.indirect1 = 0 ∧
      inode'.indirect2 = 0 := by
  obtain ⟨inode, d₁, ran, layout, size, counted, blocks⟩ :=
    increaseSizes_spec steps (ofType type_) d [] (layout_ofType type_ d) totalBlocks_zero.symm List.nodup_nil
      (fun _ member => absurd member List.not_mem_nil) history
  rw [List.nil_append] at layout counted
  have onDevice : ∀ id ∈ steps.flatMap Prod.snd, id < d₁.blocks := fun id member =>
    blocks ▸ (growth_onDevice history id member).1
  have bounded : inode.dataBlocks ≤ indirect2Bound :=
    dataBlocksOf_le (size ▸ growth_bounded history (Nat.zero_le _))
  obtain ⟨inode', cleared, rest⟩ := clearSize_spec layout (counted.trans (totalBlocks_eq _)) bounded onDevice
  exact ⟨inode, d₁, inode', ran, cleared, size, counted, rest⟩

/-- A file grown in two steps to 29 blocks gives back the ids of both steps, in order. -/
theorem clearSize_returns_supplied_of_two_steps :
    let d : Disk := ⟨40, fun _ => 0⟩
    let steps := [(blockSz, [5]), (29 * blockSz, List.range' 6 29)]
    Growth d.blocks 0 [] steps ∧
    ∃ inode d₁ inode', (ofType .file).increaseSizes steps d = .ok (inode, d₁) ∧
      inode.clearSize d₁ = .ok ((steps.flatMap Prod.snd, inode'), d₁) ∧
      inode.size = finalSize 0 steps ∧ (steps.flatMap Prod.snd).length = totalBlocks inode.size ∧
      inode'.size = 0 ∧ inode'.direct = List.replicate inodeDirectCount 0 ∧ inode'.indirect1 = 0 ∧
      inode'.indirect2 = 0 := by
  intro d steps
  have history : Growth d.blocks 0 [] steps := by decide
  exact ⟨history, clearSize_returns_supplied .file d steps history⟩

end Clear

end DiskInode

end EasyFs

end RCore
