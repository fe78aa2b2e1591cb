import RCore.EasyFs.BlockDevice
import RCore.Foundation.KeyedList

/-! # Allocation bitmaps

`easy-fs/src/bitmap.rs`. A bitmap occupies `blocks` blocks from `start_block_id`, each block
64 little-endian `u64` words, so bit `k` is bit `k % 64` of word `k / 64`; word `j` of the
bitmap lies at byte `8 * j` past the bitmap's first block (`RCore.EasyFs.Bitmap.wordAddr_eq`).
`Bitmap::alloc` scans the blocks in order, takes the first word that is not all ones and sets
its lowest clear bit.

A bitmap whose set bits are exactly `0, …, k - 1` (`RCore.EasyFs.Bitmap.Prefix`) hands out
bit `k` and then has the set bits `0, …, k` (`RCore.EasyFs.Bitmap.alloc_of_filled`): from a
cleared bitmap, allocation returns `0, 1, 2, …` up to `maximum() - 1`.
-/

namespace RCore

namespace EasyFs

/-- `BLOCK_BITS`: the bits of one block. -/
def blockBits : Nat := blockSz * 8

/-- `u64::MAX`. -/
def u64Max : Nat := 2 ^ 64 - 1

/-- `u64::trailing_ones`: the ones below the lowest clear bit, at most 64. -/
def trailingOnes (w : Nat) : Nat := go 64 w
where
  go : Nat → Nat → Nat
    | 0, _ => 0
    | n + 1, w => if w % 2 = 1 then go n (w / 2) + 1 else 0

/-- `Bitmap`. -/
structure Bitmap where
  startBlockId : Nat
  blocks : Nat
deriving DecidableEq, Repr

namespace Bitmap

/-- The closure of `Bitmap::alloc` on the bitmap block `blockId`: the first word that is not
all ones, and its lowest clear bit, which it sets. -/
def allocInBlock (blockId : Nat) : FsM (Option (Nat × Nat)) := do
  checkBlock blockId
  let d ← get
  let word := fun j => Foundation.loadLE d.bytes (byteAddr blockId (8 * j)) 8
  match (List.range 64).find? (fun j => word j != u64Max) with
  | none => return none
  | some bits64Pos =>
      let innerPos := trailingOnes (word bits64Pos)
      let bytes :=
        Foundation.storeLE d.bytes (byteAddr blockId (8 * bits64Pos)) 8 (word bits64Pos ||| 1 <<< innerPos)
      set { d with bytes }
      return some (bits64Pos, innerPos)

/-- The loop of `Bitmap::alloc` over the blocks `ids`, with its early return. -/
def allocIn (bm : Bitmap) : List Nat → FsM (Option Nat)
  | [] => return none
  | blockId :: rest => do
      match ← allocInBlock (blockId + bm.startBlockId) with
      | some (bits64Pos, innerPos) => return some (blockId * blockBits + bits64Pos * 64 + innerPos)
      | none => bm.allocIn rest

/-- `Bitmap::alloc`. -/
def alloc (bm : Bitmap) : FsM (Option Nat) := bm.allocIn (List.range bm.blocks)

/-- `decomposition(bit)`: the block, the word in it and the bit in the word. -/
def decomposition (bit : Nat) : Nat × Nat × Nat :=
  (bit / blockBits, bit % blockBits / 64, bit % blockBits % 64)

/-- `Bitmap::dealloc`. -/
def dealloc (bm : Bitmap) (bit : Nat) : FsM Unit := do
  let (blockPos, bits64Pos, innerPos) := decomposition bit
  let blockId := blockPos + bm.startBlockId
  checkBlock blockId
  let d ← get
  let word := Foundation.loadLE d.bytes (byteAddr blockId (8 * bits64Pos)) 8
  if ¬ word &&& 1 <<< innerPos > 0 then
    throw (.bitNotAllocated bit)
  let bytes := Foundation.storeLE d.bytes (byteAddr blockId (8 * bits64Pos)) 8 (word - 1 <<< innerPos)
  set { d with bytes }

/-- `Bitmap::maximum`. -/
def maximum (bm : Bitmap) : Nat := bm.blocks * blockBits

/-- Word `j` of the bitmap. -/
def word (bm : Bitmap) (bytes : Nat → UInt8) (j : Nat) : Nat :=
  Foundation.loadLE bytes (byteAddr (bm.startBlockId + j / 64) (8 * (j % 64))) 8

/-- The word `j` of a bitmap whose set bits are `0, …, k - 1`. -/
def prefixWord (k j : Nat) : Nat := 2 ^ min 64 (k - 64 * j) - 1

/-- The set bits of the bitmap are `0, …, k - 1`, and its blocks lie on the device. -/
structure Prefix (bm : Bitmap) (d : Disk) (k : Nat) : Prop where
  inside : bm.startBlockId + bm.blocks ≤ d.blocks
  words : ∀ j < bm.blocks * 64, bm.word d.bytes j = prefixWord k j

theorem trailingOnes_go : ∀ n i, i ≤ n → trailingOnes.go n (2 ^ i - 1) = i
  | 0, i, le => by
      obtain rfl : i = 0 := by omega
      rfl
  | n + 1, 0, _ => by simp [trailingOnes.go]
  | n + 1, i + 1, le => by
      have pos := Nat.one_le_two_pow (n := i)
      have odd : (2 ^ (i + 1) - 1) % 2 = 1 := by rw [Nat.pow_succ]; omega
      have half : (2 ^ (i + 1) - 1) / 2 = 2 ^ i - 1 := by rw [Nat.pow_succ]; omega
      rw [trailingOnes.go, if_pos odd, half, trailingOnes_go n i (by omega)]

theorem trailingOnes_two_pow_sub_one {i : Nat} (le : i ≤ 64) : trailingOnes (2 ^ i - 1) = i :=
  trailingOnes_go 64 i le

/-- Word `j` lies at byte `8 * j` past the start of the bitmap. -/
theorem wordAddr_eq (s j : Nat) : byteAddr (s + j / 64) (8 * (j % 64)) = s * blockSz + 8 * j := by
  simp only [byteAddr, blockSz]
  omega

theorem prefixWord_lt_max {k j : Nat} (short : k < 64 * j + 64) : prefixWord k j ≠ u64Max := by
  have smaller : 2 ^ min 64 (k - 64 * j) < 2 ^ 64 := Nat.pow_lt_pow_right (by decide) (by omega)
  have pos := Nat.one_le_two_pow (n := min 64 (k - 64 * j))
  unfold prefixWord u64Max
  omega

theorem prefixWord_of_full {k j : Nat} (full : 64 * j + 64 ≤ k) : prefixWord k j = u64Max := by
  unfold prefixWord u64Max
  rw [Nat.min_eq_left (by omega)]

/-- Setting bit `k` of a bitmap with the set bits `0, …, k - 1`. -/
theorem prefixWord_or (k : Nat) : prefixWord k (k / 64) ||| 1 <<< (k % 64) = prefixWord (k + 1) (k / 64) := by
  have low : min 64 (k - 64 * (k / 64)) = k % 64 := by omega
  have high : min 64 (k + 1 - 64 * (k / 64)) = k % 64 + 1 := by omega
  unfold prefixWord
  rw [low, high, Nat.shiftLeft_eq, Nat.one_mul]
  apply Nat.eq_of_testBit_eq
  intro t
  simp only [Nat.testBit_or, Nat.testBit_two_pow_sub_one, Nat.testBit_two_pow]
  by_cases below : t < k % 64
  · simp [below, show t < k % 64 + 1 by omega]
  · by_cases same : t = k % 64
    · simp [same]
    · simp [below, show ¬ t < k % 64 + 1 by omega, Ne.symm same]

theorem prefixWord_succ_of_ne {k j : Nat} (other : j ≠ k / 64) : prefixWord (k + 1) j = prefixWord k j := by
  unfold prefixWord
  rcases Nat.lt_or_gt_of_ne other with before | after
  · rw [Nat.min_eq_left (by omega), Nat.min_eq_left (by omega)]
  · rw [show k + 1 - 64 * j = 0 by omega, show k - 64 * j = 0 by omega]

theorem range_split {n b : Nat} (below : b < n) : ∃ rest, List.range n = List.range b ++ b :: rest := by
  obtain ⟨m, rfl⟩ : ∃ m, n = b + (m + 1) := ⟨n - b - 1, by omega⟩
  rw [List.range_add, List.range_succ_eq_map]
  exact ⟨_, rfl⟩

variable {bm : Bitmap} {d : Disk} {k : Nat}

theorem word_of_lt {bytes : Nat → UInt8} {b j : Nat} (inside : j < 64) :
    Foundation.loadLE bytes (byteAddr (b + bm.startBlockId) (8 * j)) 8 = bm.word bytes (64 * b + j) := by
  have block : (64 * b + j) / 64 = b := by omega
  have offset : (64 * b + j) % 64 = j := by omega
  rw [word, block, offset, Nat.add_comm]

/-- A full bitmap block gives nothing and changes nothing. -/
theorem allocInBlock_of_full {b : Nat} (inside : b + bm.startBlockId < d.blocks)
    (full : ∀ j < 64, bm.word d.bytes (64 * b + j) = u64Max) :
    allocInBlock (b + bm.startBlockId) d = .ok (none, d) := by
  have none : ((List.range 64).find? fun j =>
      Foundation.loadLE d.bytes (byteAddr (b + bm.startBlockId) (8 * j)) 8 != u64Max) = none := by
    apply List.find?_eq_none.mpr
    intro j member
    rw [word_of_lt (List.mem_range.mp member), full j (List.mem_range.mp member)]
    decide
  unfold allocInBlock
  rw [Foundation.bind_of_ok (checkBlock_of_lt inside), Foundation.get_bind]
  dsimp only
  rw [none]
  rfl

theorem prefixWord_lt (k j : Nat) : prefixWord k j < 256 ^ 8 := by
  have bounded : 2 ^ min 64 (k - 64 * j) ≤ 2 ^ 64 := Nat.pow_le_pow_right (by decide) (Nat.min_le_left _ _)
  unfold prefixWord
  rw [show (256 : Nat) ^ 8 = 2 ^ 64 by decide]
  omega

/-- The disk after setting bit `k`: word `k / 64` of the bitmap holds the bits `0, …, k`. -/
def setBit (bm : Bitmap) (d : Disk) (k : Nat) : Disk :=
  { d with bytes := Foundation.storeLE d.bytes (bm.startBlockId * blockSz + 8 * (k / 64)) 8 (prefixWord (k + 1) (k / 64)) }

/-- Allocation in the block that holds bit `k` of a bitmap with the set bits `0, …, k - 1`. -/
theorem allocInBlock_of_filled (filled : bm.Prefix d k) (room : k < bm.maximum) :
    allocInBlock (k / blockBits + bm.startBlockId) d = .ok (some (k % blockBits / 64, k % 64), bm.setBit d k) := by
  have bits : blockBits = 4096 := rfl
  have inside := filled.inside
  unfold maximum at room
  rw [bits] at room
  have present : k / blockBits + bm.startBlockId < d.blocks := by
    rw [bits]
    omega
  -- word `j` of the block is word `64 * (k / 4096) + j` of the bitmap
  have inBlock : ∀ j < 64, Foundation.loadLE d.bytes (byteAddr (k / blockBits + bm.startBlockId) (8 * j)) 8 =
      prefixWord k (64 * (k / blockBits) + j) := fun j lt => by
    rw [word_of_lt lt, filled.words _ (by rw [bits]; omega)]
  have target : 64 * (k / blockBits) + k % blockBits / 64 = k / 64 := by
    rw [bits]
    omega
  have found : ((List.range 64).find? fun j =>
      Foundation.loadLE d.bytes (byteAddr (k / blockBits + bm.startBlockId) (8 * j)) 8 != u64Max) =
      some (k % blockBits / 64) := by
    apply Foundation.find?_range_eq_some (by rw [bits]; omega)
    · intro j before
      rw [bits] at before
      rw [inBlock j (by omega), prefixWord_of_full (by rw [bits]; omega)]
      exact bne_self_eq_false _
    · rw [inBlock _ (by rw [bits]; omega), target]
      exact bne_iff_ne.mpr (prefixWord_lt_max (by omega : k < 64 * (k / 64) + 64))
  have ones : trailingOnes (prefixWord k (k / 64)) = k % 64 := by
    unfold prefixWord
    rw [show min 64 (k - 64 * (k / 64)) = k % 64 by omega]
    exact trailingOnes_two_pow_sub_one (by omega)
  have addr : byteAddr (k / blockBits + bm.startBlockId) (8 * (k % blockBits / 64)) =
      bm.startBlockId * blockSz + 8 * (k / 64) := by
    simp only [byteAddr, blockSz, bits]
    omega
  unfold allocInBlock
  rw [Foundation.bind_of_ok (checkBlock_of_lt present), Foundation.get_bind]
  dsimp only
  rw [found]
  dsimp only
  rw [inBlock _ (by rw [bits]; omega), target, ones, prefixWord_or, addr]
  rfl

/-- The scan passes over full blocks. -/
theorem allocIn_of_full {ids rest : List Nat}
    (full : ∀ b ∈ ids, b + bm.startBlockId < d.blocks ∧ ∀ j < 64, bm.word d.bytes (64 * b + j) = u64Max) :
    bm.allocIn (ids ++ rest) d = bm.allocIn rest d := by
  induction ids with
  | nil => rfl
  | cons b ids ih =>
      obtain ⟨inside, allFull⟩ := full b List.mem_cons_self
      rw [List.cons_append, allocIn, Foundation.bind_of_ok (allocInBlock_of_full inside allFull)]
      exact ih fun b' member => full b' (List.mem_cons_of_mem _ member)

theorem setBit_filled (filled : bm.Prefix d k) : bm.Prefix (bm.setBit d k) (k + 1) := by
  refine ⟨filled.inside, fun j lt => ?_⟩
  unfold word setBit
  dsimp only
  rw [wordAddr_eq]
  by_cases same : j = k / 64
  · subst same
    rw [Foundation.loadLE_storeLE_self, Nat.mod_eq_of_lt (prefixWord_lt _ _)]
  · -- another word lies in other bytes
    rw [Foundation.loadLE_storeLE_of_disjoint _ (by omega), prefixWord_succ_of_ne same, ← filled.words j lt,
      word, wordAddr_eq]

/-- A word of the bitmap depends only on the bytes of the bitmap's blocks. -/
theorem word_congr {bytes bytes' : Nat → UInt8} {j : Nat} (inside : j < bm.blocks * 64)
    (same : ∀ a, bm.startBlockId * blockSz ≤ a → a < (bm.startBlockId + bm.blocks) * blockSz →
      bytes a = bytes' a) :
    bm.word bytes j = bm.word bytes' j := by
  unfold word
  rw [wordAddr_eq]
  apply Foundation.loadLE_congr
  intro a low high
  -- omega needs the constant factor of a product on the left
  exact same a (by omega) (by simp only [blockSz, Nat.mul_comm _ 512] at high ⊢; omega)

/-- A cleared bitmap has no set bit. -/
theorem Prefix.of_zero (inside : bm.startBlockId + bm.blocks ≤ d.blocks)
    (zero : ∀ a, bm.startBlockId * blockSz ≤ a → a < (bm.startBlockId + bm.blocks) * blockSz → d.bytes a = 0) :
    bm.Prefix d 0 := by
  refine ⟨inside, fun j lt => ?_⟩
  unfold word
  rw [wordAddr_eq, Foundation.loadLE_of_zero fun a low high => zero a (by omega)
    (by simp only [blockSz, Nat.mul_comm _ 512] at high ⊢; omega)]
  simp [prefixWord]

/-- Writes outside the bitmap's blocks keep its set bits. -/
theorem Prefix.of_writesWithin {lo hi : Nat} {d' : Disk} (filled : bm.Prefix d k) (within : WritesWithin lo hi d d')
    (apart : hi ≤ bm.startBlockId * blockSz ∨ (bm.startBlockId + bm.blocks) * blockSz ≤ lo) : bm.Prefix d' k := by
  refine ⟨within.blocks_eq ▸ filled.inside, fun j lt => ?_⟩
  rw [word_congr lt fun a low high => within.bytes_eq a (by omega), filled.words j lt]

/-- Setting a bit writes inside the bitmap's blocks. -/
theorem setBit_within (room : k < bm.maximum) :
    WritesWithin (bm.startBlockId * blockSz) ((bm.startBlockId + bm.blocks) * blockSz) d (bm.setBit d k) := by
  have bits : blockBits = 4096 := rfl
  unfold maximum at room
  rw [bits] at room
  refine ⟨rfl, fun a outside => ?_⟩
  unfold setBit
  rcases outside with below | above
  · exact Foundation.storeLE_apply_of_lt (by omega)
  · exact Foundation.storeLE_apply_of_le (by simp only [blockSz, Nat.mul_comm _ 512] at above ⊢; omega)

/-- `Bitmap::alloc` on a bitmap with the set bits `0, …, k - 1` returns bit `k` and sets it. -/
theorem alloc_of_filled (filled : bm.Prefix d k) (room : k < bm.maximum) :
    bm.alloc d = .ok (some k, bm.setBit d k) := by
  have bits : blockBits = 4096 := rfl
  have inside := filled.inside
  have below : k / blockBits < bm.blocks := by
    unfold maximum at room
    rw [bits] at room ⊢
    omega
  -- the blocks before the one of bit `k` are full
  obtain ⟨rest, split⟩ := range_split below
  have full : ∀ b ∈ List.range (k / blockBits), b + bm.startBlockId < d.blocks ∧
      ∀ j < 64, bm.word d.bytes (64 * b + j) = u64Max := by
    intro b member
    have early := List.mem_range.mp member
    refine ⟨by omega, fun j lt => ?_⟩
    rw [filled.words _ (by omega), prefixWord_of_full (by rw [bits] at early; omega)]
  unfold alloc
  rw [split, allocIn_of_full full, allocIn, Foundation.bind_of_ok (allocInBlock_of_filled filled room)]
  have position : k / blockBits * blockBits + k % blockBits / 64 * 64 + k % 64 = k := by
    rw [bits]
    omega
  show Except.ok (some (k / blockBits * blockBits + k % blockBits / 64 * 64 + k % 64), bm.setBit d k) = _
  rw [position]

end Bitmap

end EasyFs

end RCore

