import Mathlib
import RCore.EasyFs.Bitmap

/-! # What `Bitmap::alloc` and `Bitmap::dealloc` do on any content

Bit `k` of a bitmap is bit `k % 64` of its word `k / 64` (`RCore.EasyFs.Bitmap.bit`). On a
bitmap whose blocks lie on the device, `alloc` is first fit: it returns the smallest clear bit
below `maximum()` (`RCore.EasyFs.Bitmap.firstClear`) and sets exactly that bit, or returns
`None` and changes nothing when every bit is set. `dealloc` of a set bit clears exactly that
bit, and of a clear bit panics at its assertion; after an allocation it restores the device
byte for byte.

The scan of `alloc` has three levels, and so has the argument for an allocation of bit `i`:
the blocks before `i / 4096` are full, the words before `i / 64` in its block are all ones, and
`trailing_ones` counts the set bits of word `i / 64` below bit `i % 64`.
-/

namespace RCore

namespace EasyFs

/-- Adding the power of two of a clear bit sets exactly that bit; by induction on the bit. -/
theorem testBit_add_two_pow : ∀ (p y : Nat), y.testBit p = false → ∀ q,
    (y + 2 ^ p).testBit q = (y.testBit q || decide (p = q))
  | 0, y, clear, q => by
      have even : y % 2 = 0 := by simpa [Nat.testBit_zero] using clear
      cases q with
      | zero => simp [Nat.testBit_zero, even]; omega
      | succ q =>
          rw [Nat.testBit_add_one, Nat.testBit_add_one, show (y + 2 ^ 0) / 2 = y / 2 by omega]
          simp
  | p + 1, y, clear, q => by
      have half : (y + 2 ^ (p + 1)) / 2 = y / 2 + 2 ^ p := by rw [Nat.pow_succ]; omega
      cases q with
      | zero =>
          simp only [Nat.testBit_zero, Nat.pow_succ]
          simp
      | succ q =>
          rw [Nat.testBit_add_one, Nat.testBit_add_one, half,
            testBit_add_two_pow p (y / 2) (by rw [Nat.testBit_div_two]; exact clear) q]
          simp

/-- Subtracting the power of two of a set bit clears exactly that bit. -/
theorem testBit_sub_two_pow {w p : Nat} (set : w.testBit p = true) (q : Nat) :
    (w - 2 ^ p).testBit q = (w.testBit q && decide (p ≠ q)) := by
  have back : 2 ^ p + (w - 2 ^ p) = w := by have := Nat.ge_two_pow_of_testBit set; omega
  have clear : (w - 2 ^ p).testBit p = false := by
    have top := Nat.testBit_two_pow_add_eq (w - 2 ^ p) p
    rw [back, set] at top
    simpa using top.symm
  have bits := testBit_add_two_pow p (w - 2 ^ p) clear q
  rw [Nat.add_comm, back] at bits
  rw [bits]
  by_cases same : p = q
  · subst same
    simp [clear]
  · simp [same]

/-- A 64-bit word is `u64::MAX` exactly when its 64 bits are set. -/
theorem eq_u64Max_iff {w : Nat} (small : w < 2 ^ 64) : w = u64Max ↔ ∀ t < 64, w.testBit t = true := by
  constructor
  · rintro rfl t inside
    rw [u64Max, Nat.testBit_two_pow_sub_one, decide_eq_true inside]
  · intro ones
    apply Nat.eq_of_testBit_eq
    intro t
    rw [u64Max, Nat.testBit_two_pow_sub_one]
    by_cases inside : t < 64
    · rw [ones t inside, decide_eq_true inside]
    · rw [decide_eq_false inside]
      exact Nat.testBit_lt_two_pow (Nat.lt_of_lt_of_le small (Nat.pow_le_pow_right (by decide) (by omega)))

/-- `trailing_ones` is the position of the lowest clear bit; by induction on that position. -/
theorem trailingOnes_go_eq : ∀ {t n w : Nat}, t < n → (∀ s < t, w.testBit s = true) → w.testBit t = false →
    trailingOnes.go n w = t
  | 0, n + 1, w, _, _, zero => by
      have even : w % 2 ≠ 1 := by simpa [Nat.testBit_zero] using zero
      rw [trailingOnes.go, if_neg even]
  | t + 1, n + 1, w, below, ones, zero => by
      have odd : w % 2 = 1 := by simpa [Nat.testBit_zero] using ones 0 (by omega)
      have rest : trailingOnes.go n (w / 2) = t := by
        apply trailingOnes_go_eq (by omega)
        · intro s lower
          rw [Nat.testBit_div_two]
          exact ones (s + 1) (by omega)
        · rw [Nat.testBit_div_two]
          exact zero
      rw [trailingOnes.go, if_pos odd, rest]

theorem trailingOnes_eq {t w : Nat} (inside : t < 64) (ones : ∀ s < t, w.testBit s = true)
    (zero : w.testBit t = false) : trailingOnes w = t :=
  trailingOnes_go_eq inside ones zero

namespace Bitmap

/-- Bit `k` of the bitmap, as `alloc` and `dealloc` read it: bit `k % 64` of word `k / 64`. -/
def bit (bm : Bitmap) (bytes : Nat → UInt8) (k : Nat) : Bool := (bm.word bytes (k / 64)).testBit (k % 64)

/-- The smallest clear bit below `maximum()`, where a first-fit allocation lands. -/
def firstClear (bm : Bitmap) (bytes : Nat → UInt8) : Option Nat :=
  (List.range bm.maximum).find? fun k => !bm.bit bytes k

/-- The device after `bitmap_block[bits64_pos] |= 1u64 << inner_pos` for bit `k`. -/
def markAllocated (bm : Bitmap) (d : Disk) (k : Nat) : Disk :=
  let word := bm.word d.bytes (k / 64) ||| 1 <<< (k % 64)
  { d with bytes := Foundation.storeLE d.bytes (bm.startBlockId * blockSz + 8 * (k / 64)) 8 word }

/-- The device after `bitmap_block[bits64_pos] -= 1u64 << inner_pos` for bit `k`. -/
def markFree (bm : Bitmap) (d : Disk) (k : Nat) : Disk :=
  let word := bm.word d.bytes (k / 64) - 1 <<< (k % 64)
  { d with bytes := Foundation.storeLE d.bytes (bm.startBlockId * blockSz + 8 * (k / 64)) 8 word }

variable {bm : Bitmap} {d : Disk}

theorem word_lt (bytes : Nat → UInt8) (j : Nat) : bm.word bytes j < 2 ^ 64 :=
  Foundation.loadLE_lt _ _ _

/-- A store to word `i` of the bitmap changes word `i` alone. -/
theorem word_storeLE (bytes : Nat → UInt8) (i j w : Nat) :
    bm.word (Foundation.storeLE bytes (bm.startBlockId * blockSz + 8 * i) 8 w) j =
      if j = i then w % 2 ^ 64 else bm.word bytes j := by
  unfold word
  rw [wordAddr_eq]
  split
  case isTrue same =>
    subst same
    simp only [Foundation.loadLE_storeLE_self, show (256 : Nat) ^ 8 = 2 ^ 64 by decide]
  case isFalse differs =>
    rw [Foundation.loadLE_storeLE_of_disjoint _ (by omega)]

/-- The bits after a store of word `k / 64`. -/
theorem bit_storeLE (bytes : Nat → UInt8) (i k w : Nat) :
    bm.bit (Foundation.storeLE bytes (bm.startBlockId * blockSz + 8 * i) 8 w) k =
      if k / 64 = i then w.testBit (k % 64) else bm.bit bytes k := by
  unfold bit
  rw [word_storeLE]
  split
  case isTrue => rw [Nat.testBit_mod_two_pow, decide_eq_true (by omega), Bool.true_and]
  case isFalse => rfl

/-- `|=` sets exactly bit `i`. -/
theorem bit_markAllocated (i k : Nat) :
    bm.bit (bm.markAllocated d i).bytes k = (bm.bit d.bytes k || decide (k = i)) := by
  unfold markAllocated
  rw [bit_storeLE, Nat.one_shiftLeft]
  split
  case isTrue same =>
    rw [Nat.testBit_or, Nat.testBit_two_pow]
    unfold bit
    rw [same]
    congr 1
    exact decide_eq_decide.mpr ⟨fun low => by omega, fun equal => by rw [equal]⟩
  case isFalse differs =>
    have apart : k ≠ i := fun equal => differs (by rw [equal])
    simp [apart]

/-- `-=` of a set bit clears exactly bit `i`. -/
theorem bit_markFree {i : Nat} (set : bm.bit d.bytes i = true) (k : Nat) :
    bm.bit (bm.markFree d i).bytes k = (bm.bit d.bytes k && decide (k ≠ i)) := by
  unfold markFree
  rw [bit_storeLE, Nat.one_shiftLeft]
  split
  case isTrue same =>
    rw [testBit_sub_two_pow set]
    unfold bit
    rw [same]
    congr 1
    exact decide_eq_decide.mpr ⟨fun apart equal => apart (by rw [equal]), fun apart low => apart (by omega)⟩
  case isFalse differs =>
    have apart : k ≠ i := fun equal => differs (by rw [equal])
    simp [apart]

/-- The bitmap's stores stay inside its blocks. -/
theorem storeLE_within {i : Nat} (inside : i < bm.maximum) (w : Nat) :
    WritesWithin (bm.startBlockId * blockSz) ((bm.startBlockId + bm.blocks) * blockSz) d
      { d with bytes := Foundation.storeLE d.bytes (bm.startBlockId * blockSz + 8 * (i / 64)) 8 w } := by
  have bits : blockBits = 4096 := rfl
  unfold maximum at inside
  rw [bits] at inside
  refine ⟨rfl, fun a outside => ?_⟩
  rcases outside with below | above
  · exact Foundation.storeLE_apply_of_lt (by omega)
  · exact Foundation.storeLE_apply_of_le (by simp only [blockSz, Nat.mul_comm _ 512] at above ⊢; omega)

/-- Undoing `|=` of a clear bit with `-=` restores the device. -/
theorem markFree_markAllocated {i : Nat} (clear : bm.bit d.bytes i = false) :
    bm.markFree (bm.markAllocated d i) i = d := by
  have small : bm.word d.bytes (i / 64) < 2 ^ 64 := word_lt d.bytes (i / 64)
  have wordClear : (bm.word d.bytes (i / 64)).testBit (i % 64) = false := clear
  -- the clear bit makes `|=` an addition, which `-=` takes back
  have added : bm.word d.bytes (i / 64) ||| 2 ^ (i % 64) = bm.word d.bytes (i / 64) + 2 ^ (i % 64) := by
    apply Nat.eq_of_testBit_eq
    intro q
    rw [Nat.testBit_or, Nat.testBit_two_pow, testBit_add_two_pow _ _ wordClear]
  have fits : bm.word d.bytes (i / 64) + 2 ^ (i % 64) < 2 ^ 64 := by
    rw [← added]
    exact Nat.or_lt_two_pow small (Nat.pow_lt_pow_right (by decide) (by omega))
  unfold markFree markAllocated
  dsimp only
  rw [word_storeLE, if_pos rfl, Foundation.storeLE_storeLE_self, Nat.one_shiftLeft, added,
    Nat.mod_eq_of_lt fits, Nat.add_sub_cancel]
  unfold word
  rw [wordAddr_eq, Foundation.storeLE_loadLE_self]

/-- The index `alloc` computes from a block, a word and a bit, as `decomposition` splits it. -/
theorem decomposition_index {b w p : Nat} (word : w < 64) (inner : p < 64) :
    decomposition (b * blockBits + w * 64 + p) = (b, w, p) := by
  have bits : blockBits = 4096 := rfl
  simp only [decomposition, bits, Prod.mk.injEq]
  omega

theorem firstClear_eq_some_iff {i : Nat} :
    bm.firstClear d.bytes = some i ↔
      i < bm.maximum ∧ bm.bit d.bytes i = false ∧ ∀ k < i, bm.bit d.bytes k = true := by
  constructor
  · intro found
    obtain ⟨clear, j, below, atJ, before⟩ := List.find?_eq_some_iff_getElem.mp found
    rw [List.getElem_range] at atJ
    subst atJ
    refine ⟨by simpa using below, by simpa using clear, fun k lower => ?_⟩
    simpa using before k lower
  · rintro ⟨inside, clear, before⟩
    exact Foundation.find?_range_eq_some inside (fun k lower => by rw [before k lower]; rfl) (by rw [clear]; rfl)


/-- Bit `64 * g + t` is bit `t` of word `g`. -/
theorem bit_word (bytes : Nat → UInt8) {g t : Nat} (inside : t < 64) :
    bm.bit bytes (64 * g + t) = (bm.word bytes g).testBit t := by
  unfold bit
  rw [show (64 * g + t) / 64 = g by omega, show (64 * g + t) % 64 = t by omega]

/-- A word whose 64 bits are set is all ones. -/
theorem word_eq_u64Max {bytes : Nat → UInt8} {g : Nat} (ones : ∀ t < 64, bm.bit bytes (64 * g + t) = true) :
    bm.word bytes g = u64Max :=
  (eq_u64Max_iff (word_lt bytes g)).mpr fun t inside => by rw [← bit_word bytes inside]; exact ones t inside

variable {i : Nat}

/-- The block of the first clear bit `i`: its earlier words are all ones, word `i / 64` is not,
and `trailing_ones` of that word is `i % 64`; so the block's closure sets bit `i`. -/
theorem allocInBlock_of_firstClear (present : bm.startBlockId + bm.blocks ≤ d.blocks)
    (found : bm.firstClear d.bytes = some i) :
    allocInBlock (i / blockBits + bm.startBlockId) d =
      .ok (some (i % blockBits / 64, i % 64), bm.markAllocated d i) := by
  have bits : blockBits = 4096 := rfl
  obtain ⟨inside, clear, before⟩ := firstClear_eq_some_iff.mp found
  have block : i / blockBits < bm.blocks := by
    unfold maximum at inside
    rw [bits] at inside ⊢
    omega
  -- word `j` of the block is word `64 * (i / 4096) + j` of the bitmap, and word `i / 64` is one
  have global : 64 * (i / blockBits) + i % blockBits / 64 = i / 64 := by rw [bits]; omega
  have full : ∀ j < i % blockBits / 64, bm.word d.bytes (64 * (i / blockBits) + j) = u64Max := fun j lower =>
    word_eq_u64Max fun t inner => before _ (by rw [bits] at lower ⊢; omega)
  have target : (bm.word d.bytes (i / 64)).testBit (i % 64) = false := clear
  have notFull : bm.word d.bytes (i / 64) ≠ u64Max := fun allOnes => by
    rw [(eq_u64Max_iff (word_lt _ _)).mp allOnes (i % 64) (by omega)] at target
    cases target
  have found : ((List.range 64).find? fun j =>
      Foundation.loadLE d.bytes (byteAddr (i / blockBits + bm.startBlockId) (8 * j)) 8 != u64Max) =
      some (i % blockBits / 64) := by
    apply Foundation.find?_range_eq_some (by rw [bits]; omega)
    · intro j lower
      rw [word_of_lt (by rw [bits] at lower; omega), full j lower]
      exact bne_self_eq_false _
    · rw [word_of_lt (by rw [bits]; omega), global]
      exact bne_iff_ne.mpr notFull
  have ones : trailingOnes (bm.word d.bytes (i / 64)) = i % 64 := by
    apply trailingOnes_eq (by omega) _ target
    intro s lower
    rw [← bit_word d.bytes (by omega)]
    exact before _ (by omega)
  have addr : byteAddr (i / blockBits + bm.startBlockId) (8 * (i % blockBits / 64)) =
      bm.startBlockId * blockSz + 8 * (i / 64) := by
    simp only [byteAddr, blockSz, bits]
    omega
  unfold allocInBlock
  rw [Foundation.bind_of_ok (checkBlock_of_lt (by omega)), Foundation.get_bind]
  dsimp only
  rw [found]
  dsimp only
  rw [word_of_lt (by rw [bits]; omega), global, ones, addr]
  rfl

/-- `Bitmap::alloc` returns the first clear bit and sets it. -/
theorem alloc_of_firstClear (present : bm.startBlockId + bm.blocks ≤ d.blocks)
    (found : bm.firstClear d.bytes = some i) : bm.alloc d = .ok (some i, bm.markAllocated d i) := by
  have bits : blockBits = 4096 := rfl
  obtain ⟨inside, -, before⟩ := firstClear_eq_some_iff.mp found
  have block : i / blockBits < bm.blocks := by
    unfold maximum at inside
    rw [bits] at inside ⊢
    omega
  -- the blocks before the one of bit `i` are full
  obtain ⟨rest, split⟩ := range_split block
  have full : ∀ b ∈ List.range (i / blockBits), b + bm.startBlockId < d.blocks ∧
      ∀ j < 64, bm.word d.bytes (64 * b + j) = u64Max := by
    intro b member
    have early := List.mem_range.mp member
    refine ⟨by omega, fun j lower => word_eq_u64Max fun t inner => before _ ?_⟩
    rw [bits] at early
    omega
  unfold alloc
  rw [split, allocIn_of_full full, allocIn, Foundation.bind_of_ok (allocInBlock_of_firstClear present found)]
  have position : i / blockBits * blockBits + i % blockBits / 64 * 64 + i % 64 = i := by
    rw [bits]
    omega
  show Except.ok (some (i / blockBits * blockBits + i % blockBits / 64 * 64 + i % 64), bm.markAllocated d i) = _
  rw [position]

theorem firstClear_eq_none_iff : bm.firstClear d.bytes = none ↔ ∀ k < bm.maximum, bm.bit d.bytes k = true := by
  unfold firstClear
  rw [List.find?_eq_none]
  simp

/-- `Bitmap::alloc` on a bitmap with every bit set returns `None` and changes nothing. -/
theorem alloc_of_full (present : bm.startBlockId + bm.blocks ≤ d.blocks)
    (full : bm.firstClear d.bytes = none) : bm.alloc d = .ok (none, d) := by
  have bits : blockBits = 4096 := rfl
  have ones := firstClear_eq_none_iff.mp full
  have allFull : ∀ b ∈ List.range bm.blocks, b + bm.startBlockId < d.blocks ∧
      ∀ j < 64, bm.word d.bytes (64 * b + j) = u64Max := by
    intro b member
    have early := List.mem_range.mp member
    refine ⟨by omega, fun j lower => word_eq_u64Max fun t inner => ones _ ?_⟩
    unfold maximum
    rw [bits]
    omega
  unfold alloc
  rw [← List.append_nil (List.range bm.blocks), allocIn_of_full allFull]
  rfl

/-- Where `dealloc` finds bit `i`: word `i / 64` of the bitmap, at bit `i % 64`. -/
theorem dealloc_word (bytes : Nat → UInt8) (i : Nat) :
    Foundation.loadLE bytes (byteAddr (i / blockBits + bm.startBlockId) (8 * (i % blockBits / 64))) 8 =
      bm.word bytes (i / 64) ∧
    byteAddr (i / blockBits + bm.startBlockId) (8 * (i % blockBits / 64)) =
      bm.startBlockId * blockSz + 8 * (i / 64) ∧ i % blockBits % 64 = i % 64 := by
  have bits : blockBits = 4096 := rfl
  refine ⟨?_, ?_, ?_⟩
  · rw [word_of_lt (by rw [bits]; omega), bits]
    congr 1
    omega
  · simp only [byteAddr, blockSz, bits]
    omega
  · rw [bits]
    omega

/-- `Bitmap::dealloc` of a set bit clears it. -/
theorem dealloc_of_set (present : bm.startBlockId + bm.blocks ≤ d.blocks) (inside : i < bm.maximum)
    (set : bm.bit d.bytes i = true) : bm.dealloc i d = .ok (⟨⟩, bm.markFree d i) := by
  have bits : blockBits = 4096 := rfl
  obtain ⟨wordEq, addrEq, innerEq⟩ := @dealloc_word bm d.bytes i
  have block : i / blockBits + bm.startBlockId < d.blocks := by
    unfold maximum at inside
    rw [bits] at inside ⊢
    omega
  have held : bm.word d.bytes (i / 64) &&& 1 <<< (i % 64) > 0 := by
    rw [Nat.one_shiftLeft, Nat.and_two_pow]
    have target : (bm.word d.bytes (i / 64)).testBit (i % 64) = true := set
    rw [target]
    simp
  unfold dealloc
  rw [show decomposition i = (i / blockBits, i % blockBits / 64, i % blockBits % 64) from rfl]
  dsimp only
  rw [Foundation.bind_of_ok (checkBlock_of_lt block), Foundation.get_bind]
  rw [wordEq, innerEq, if_neg (not_not.mpr held), addrEq]
  rfl

/-- `Bitmap::dealloc` of a clear bit fails its assertion. -/
theorem dealloc_of_clear (present : bm.startBlockId + bm.blocks ≤ d.blocks) (inside : i < bm.maximum)
    (clear : bm.bit d.bytes i = false) : bm.dealloc i d = .error (.bitNotAllocated i) := by
  have bits : blockBits = 4096 := rfl
  obtain ⟨wordEq, -, innerEq⟩ := @dealloc_word bm d.bytes i
  have block : i / blockBits + bm.startBlockId < d.blocks := by
    unfold maximum at inside
    rw [bits] at inside ⊢
    omega
  have free : ¬ bm.word d.bytes (i / 64) &&& 1 <<< (i % 64) > 0 := by
    rw [Nat.one_shiftLeft, Nat.and_two_pow]
    have target : (bm.word d.bytes (i / 64)).testBit (i % 64) = false := clear
    rw [target]
    simp
  unfold dealloc
  rw [show decomposition i = (i / blockBits, i % blockBits / 64, i % blockBits % 64) from rfl]
  dsimp only
  rw [Foundation.bind_of_ok (checkBlock_of_lt block), Foundation.get_bind]
  rw [wordEq, innerEq, if_pos free]
  rfl


/-- `Bitmap::alloc` is first fit and `Bitmap::dealloc` inverts it, on any content of a bitmap
whose blocks lie on the device: the first clear bit below `maximum()` is allocated and only it
is set, inside the bitmap's blocks, and `dealloc` of it restores the device; with every bit set
`alloc` returns `None` and changes nothing; `dealloc` of any set bit clears exactly that bit; and
`decomposition` splits the index `alloc` computes back into its block, word and bit. -/
theorem alloc_first_fit (present : bm.startBlockId + bm.blocks ≤ d.blocks) :
    (∀ i, bm.firstClear d.bytes = some i →
      (i < bm.maximum ∧ bm.bit d.bytes i = false ∧ ∀ k < i, bm.bit d.bytes k = true) ∧
      bm.alloc d = .ok (some i, bm.markAllocated d i) ∧
      (∀ k, bm.bit (bm.markAllocated d i).bytes k = (bm.bit d.bytes k || decide (k = i))) ∧
      WritesWithin (bm.startBlockId * blockSz) ((bm.startBlockId + bm.blocks) * blockSz) d
        (bm.markAllocated d i) ∧
      bm.dealloc i (bm.markAllocated d i) = .ok (⟨⟩, d)) ∧
    (bm.firstClear d.bytes = none → (∀ k < bm.maximum, bm.bit d.bytes k = true) ∧ bm.alloc d = .ok (none, d)) ∧
    (∀ i < bm.maximum, bm.bit d.bytes i = true →
      bm.dealloc i d = .ok (⟨⟩, bm.markFree d i) ∧
        ∀ k, bm.bit (bm.markFree d i).bytes k = (bm.bit d.bytes k && decide (k ≠ i))) ∧
    ∀ b w p, w < 64 → p < 64 → decomposition (b * blockBits + w * 64 + p) = (b, w, p) := by
  refine ⟨fun i found => ?_, fun full => ⟨firstClear_eq_none_iff.mp full, alloc_of_full present full⟩,
    fun i inside set => ⟨dealloc_of_set present inside set, bit_markFree set⟩,
    fun b w p word inner => decomposition_index word inner⟩
  obtain ⟨inside, clear, before⟩ := firstClear_eq_some_iff.mp found
  have setAfter : bm.bit (bm.markAllocated d i).bytes i = true := by
    rw [bit_markAllocated, decide_eq_true rfl, Bool.or_true]
  have undone := dealloc_of_set (d := bm.markAllocated d i) present inside setAfter
  rw [markFree_markAllocated clear] at undone
  exact ⟨⟨inside, clear, before⟩, alloc_of_firstClear present found, bit_markAllocated i,
    storeLE_within inside _, undone⟩

/-- The bitmap of one block at block 1 of a cleared two-block device. -/
theorem alloc_first_fit_on_cleared_block :
    ∃ (bm : Bitmap) (d : Disk), bm.startBlockId + bm.blocks ≤ d.blocks ∧
      (∀ i, bm.firstClear d.bytes = some i →
        (i < bm.maximum ∧ bm.bit d.bytes i = false ∧ ∀ k < i, bm.bit d.bytes k = true) ∧
        bm.alloc d = .ok (some i, bm.markAllocated d i) ∧
        (∀ k, bm.bit (bm.markAllocated d i).bytes k = (bm.bit d.bytes k || decide (k = i))) ∧
        WritesWithin (bm.startBlockId * blockSz) ((bm.startBlockId + bm.blocks) * blockSz) d
          (bm.markAllocated d i) ∧
        bm.dealloc i (bm.markAllocated d i) = .ok (⟨⟩, d)) ∧
      (bm.firstClear d.bytes = none → (∀ k < bm.maximum, bm.bit d.bytes k = true) ∧ bm.alloc d = .ok (none, d)) ∧
      (∀ i < bm.maximum, bm.bit d.bytes i = true →
        bm.dealloc i d = .ok (⟨⟩, bm.markFree d i) ∧
          ∀ k, bm.bit (bm.markFree d i).bytes k = (bm.bit d.bytes k && decide (k ≠ i))) ∧
      ∀ b w p, w < 64 → p < 64 → decomposition (b * blockBits + w * 64 + p) = (b, w, p) :=
  ⟨⟨1, 1⟩, ⟨2, fun _ => 0⟩, by decide, @alloc_first_fit ⟨1, 1⟩ ⟨2, fun _ => 0⟩ (by decide)⟩

end Bitmap

end EasyFs

end RCore
