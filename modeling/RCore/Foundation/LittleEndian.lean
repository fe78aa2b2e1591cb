import Mathlib

/-! # Little-endian words in a byte-addressed memory

A byte-addressed memory is a function from addresses to bytes. A machine word of
`width` bytes is read least significant byte first (`Foundation.loadLE`) and written
by splitting the value into its base-256 digits (`Foundation.storeLE`). A store is
read back modulo `256 ^ width` (`Foundation.loadLE_storeLE_self`), leaves every word
it does not overlap unchanged (`Foundation.loadLE_storeLE_of_disjoint`), and a word
read from zeroed bytes is zero (`Foundation.loadLE_of_zero`). A second store to a window
hides the first, and storing the word already there changes nothing
(`Foundation.storeLE_storeLE_self`, `Foundation.storeLE_loadLE_self`). Bytes laid out
little-endian (`Foundation.leBytes`) read back as the word they encode
(`Foundation.loadLE_of_readBytes`), and a block of bytes written into memory reads back
(`Foundation.readBytes_writeBytes`).
-/

namespace Foundation

/-- The little-endian value of the `width` bytes of `mem` starting at `addr`. -/
def loadLE (mem : Nat → UInt8) (addr : Nat) : (width : Nat) → Nat
  | 0 => 0
  | width + 1 => (mem addr).toNat + 256 * loadLE mem (addr + 1) width

/-- Write `value` as `width` little-endian bytes starting at `addr`. -/
def storeLE (mem : Nat → UInt8) (addr width value : Nat) : Nat → UInt8 := fun a =>
  if addr ≤ a ∧ a < addr + width then UInt8.ofNat (value / 256 ^ (a - addr)) else mem a

/-- A loaded word depends only on the bytes it covers. -/
theorem loadLE_congr {mem mem' : Nat → UInt8} {addr width : Nat}
    (same : ∀ a, addr ≤ a → a < addr + width → mem a = mem' a) :
    loadLE mem addr width = loadLE mem' addr width := by
  induction width generalizing addr with
  | zero => rfl
  | succ width ih =>
      have head : mem addr = mem' addr := same addr le_rfl (by omega)
      have tail : loadLE mem (addr + 1) width = loadLE mem' (addr + 1) width :=
        ih fun a low high => same a (by omega) (by omega)
      simp only [loadLE, head, tail]

/-- A loaded word is below `256 ^ width`. -/
theorem loadLE_lt (mem : Nat → UInt8) (addr width : Nat) : loadLE mem addr width < 256 ^ width := by
  induction width generalizing addr with
  | zero => simp [loadLE]
  | succ width ih =>
      have byte := (mem addr).toNat_lt
      have rest := ih (addr + 1)
      simp only [loadLE, Nat.pow_succ]
      omega

/-- Reading back a store returns the stored value modulo `256 ^ width`. -/
theorem loadLE_storeLE_self (mem : Nat → UInt8) (addr width value : Nat) :
    loadLE (storeLE mem addr width value) addr width = value % 256 ^ width := by
  induction width generalizing addr value with
  | zero => simp [loadLE, Nat.mod_one]
  | succ width ih =>
      -- the upper bytes of the store are the store of `value / 256` one byte further on
      have upper : loadLE (storeLE mem addr (width + 1) value) (addr + 1) width =
          loadLE (storeLE mem (addr + 1) width (value / 256)) (addr + 1) width := by
        apply loadLE_congr
        intro a low high
        have shift : a - addr = (a - (addr + 1)) + 1 := by omega
        simp only [storeLE, shift, Nat.pow_succ, Nat.div_div_eq_div_mul, Nat.mul_comm]
        simp only [show addr ≤ a by omega, show a < addr + (width + 1) by omega, and_self,
          ↓reduceIte, low, high]
      have low : (storeLE mem addr (width + 1) value addr).toNat = value % 256 := by
        simp [storeLE]
      rw [loadLE, upper, ih, low, Nat.pow_succ, Nat.mul_comm (256 ^ width) 256, Nat.mod_mul]

/-- A store leaves every word it does not overlap unchanged. -/
theorem loadLE_storeLE_of_disjoint (mem : Nat → UInt8) {addr width value addr' width' : Nat}
    (apart : addr + width ≤ addr' ∨ addr' + width' ≤ addr) :
    loadLE (storeLE mem addr width value) addr' width' = loadLE mem addr' width' := by
  apply loadLE_congr
  intro a low high
  have outside : ¬(addr ≤ a ∧ a < addr + width) := by omega
  simp only [storeLE, outside, ↓reduceIte]

/-- A word read from zero bytes is zero. -/
theorem loadLE_of_zero {mem : Nat → UInt8} {addr width : Nat}
    (zero : ∀ a, addr ≤ a → a < addr + width → mem a = 0) : loadLE mem addr width = 0 := by
  induction width generalizing addr with
  | zero => rfl
  | succ width ih =>
      have head : mem addr = 0 := zero addr le_rfl (by omega)
      have tail : loadLE mem (addr + 1) width = 0 := ih fun a low high => zero a (by omega) (by omega)
      simp [loadLE, head, tail]

/-- A byte outside the stored window keeps its value. -/
@[simp]
theorem storeLE_apply_of_lt {mem : Nat → UInt8} {addr width value a : Nat} (below : a < addr) :
    storeLE mem addr width value a = mem a := by
  simp [storeLE, show ¬addr ≤ a by omega]

/-- A byte past the stored window keeps its value. -/
@[simp]
theorem storeLE_apply_of_le {mem : Nat → UInt8} {addr width value a : Nat}
    (above : addr + width ≤ a) : storeLE mem addr width value a = mem a := by
  simp [storeLE, show ¬a < addr + width by omega]

/-- A second store to the same window hides the first. -/
theorem storeLE_storeLE_self (mem : Nat → UInt8) (addr width value value' : Nat) :
    storeLE (storeLE mem addr width value) addr width value' = storeLE mem addr width value' := by
  funext a
  by_cases inside : addr ≤ a ∧ a < addr + width <;> simp [storeLE, inside]

/-- Byte `i` of a loaded word is the byte at `addr + i`. -/
theorem loadLE_div_pow_mod (mem : Nat → UInt8) :
    ∀ {addr width i : Nat}, i < width → loadLE mem addr width / 256 ^ i % 256 = (mem (addr + i)).toNat
  | addr, width + 1, 0, _ => by
      have byte := (mem addr).toNat_lt
      simp only [loadLE, Nat.pow_zero, Nat.div_one, Nat.add_zero]
      omega
  | addr, width + 1, i + 1, inside => by
      have byte := (mem addr).toNat_lt
      have shifted : loadLE mem addr (width + 1) / 256 ^ (i + 1) = loadLE mem (addr + 1) width / 256 ^ i := by
        rw [loadLE, Nat.pow_succ, Nat.mul_comm _ 256, ← Nat.div_div_eq_div_mul]
        congr 1
        omega
      rw [shifted, loadLE_div_pow_mod mem (by omega), show addr + 1 + i = addr + (i + 1) by omega]

/-- Storing the word already there changes nothing. -/
theorem storeLE_loadLE_self (mem : Nat → UInt8) (addr width : Nat) :
    storeLE mem addr width (loadLE mem addr width) = mem := by
  funext a
  by_cases inside : addr ≤ a ∧ a < addr + width
  · rw [storeLE, if_pos inside]
    apply UInt8.toNat_inj.mp
    rw [UInt8.toNat_ofNat', show 2 ^ 8 = 256 by rfl, loadLE_div_pow_mod mem (by omega : a - addr < width),
      show addr + (a - addr) = a by omega]
  · rw [storeLE, if_neg inside]

/-- The `count` bytes of `mem` from `addr`. -/
def readBytes (mem : Nat → UInt8) (addr count : Nat) : List UInt8 :=
  (List.range count).map fun i => mem (addr + i)

/-- `copy_from_slice`: the bytes of `bytes` written from `addr` on. -/
def writeBytes (mem : Nat → UInt8) (addr : Nat) (bytes : List UInt8) : Nat → UInt8 := fun a =>
  if addr ≤ a ∧ a < addr + bytes.length then bytes.getD (a - addr) 0 else mem a

/-- A byte outside the written window keeps its value. -/
theorem writeBytes_apply_of_not_mem {mem : Nat → UInt8} {addr : Nat} {bytes : List UInt8} {a : Nat}
    (outside : ¬(addr ≤ a ∧ a < addr + bytes.length)) : writeBytes mem addr bytes a = mem a := by
  rw [writeBytes, if_neg outside]

/-- The `width` little-endian bytes of `value`. -/
def leBytes (width value : Nat) : List UInt8 := (List.range width).map fun i => UInt8.ofNat (value / 256 ^ i)

@[simp] theorem length_leBytes (width value : Nat) : (leBytes width value).length = width := by
  simp [leBytes]

@[simp] theorem length_readBytes (mem : Nat → UInt8) (addr count : Nat) : (readBytes mem addr count).length = count := by
  simp [readBytes]

/-- A word is read back from its little-endian bytes, modulo `256 ^ width`. -/
theorem loadLE_of_readBytes {mem : Nat → UInt8} {addr width value : Nat}
    (bytes : readBytes mem addr width = leBytes width value) : loadLE mem addr width = value % 256 ^ width := by
  have each : ∀ a, addr ≤ a → a < addr + width → mem a = storeLE mem addr width value a := by
    intro a low high
    have same := congrArg (fun l => l[a - addr]?) bytes
    simp only [readBytes, leBytes, List.getElem?_map, List.getElem?_range (by omega : a - addr < width),
      Option.map_some, Option.some.injEq, show addr + (a - addr) = a by omega] at same
    rw [storeLE, if_pos ⟨low, high⟩, same]
  rw [loadLE_congr each, loadLE_storeLE_self]

/-- The bytes of a written block read back, from any offset inside it. -/
theorem readBytes_writeBytes (mem : Nat → UInt8) (addr : Nat) {bytes : List UInt8} {offset count : Nat}
    (inside : offset + count ≤ bytes.length) :
    readBytes (writeBytes mem addr bytes) (addr + offset) count = (bytes.drop offset).take count := by
  apply List.ext_getElem
  · simp only [length_readBytes, List.length_take, List.length_drop]
    omega
  · intro i short _
    rw [length_readBytes] at short
    simp only [readBytes, List.getElem_map, List.getElem_range, List.getElem_take, List.getElem_drop]
    rw [writeBytes, if_pos (by omega), show addr + offset + i - addr = offset + i by omega,
      List.getD_eq_getElem _ _ (by omega)]

/-- The bytes of one part of a written block read back, from any offset inside the part. -/
theorem readBytes_writeBytes_of_eq (mem : Nat → UInt8) (addr : Nat) {data pre part post : List UInt8}
    (split : data = pre ++ part ++ post) {offset count : Nat} (inside : offset + count ≤ part.length) :
    readBytes (writeBytes mem addr data) (addr + pre.length + offset) count = (part.drop offset).take count := by
  rw [Nat.add_assoc, readBytes_writeBytes _ _ (by rw [split]; simp; omega), split, List.append_assoc,
    List.drop_length_add_append, List.drop_append_of_le_length (by omega),
    List.take_append_of_le_length (by simp; omega)]

theorem readBytes_succ (mem : Nat → UInt8) (addr count : Nat) :
    readBytes mem addr (count + 1) = mem addr :: readBytes mem (addr + 1) count := by
  simp only [readBytes, List.range_succ_eq_map, List.map_cons, List.map_map, Nat.add_zero]
  congr 1
  apply List.map_congr_left
  intro i _
  simp only [Function.comp_apply]
  congr 1
  omega

/-- A run of bytes is its first part, then the rest. -/
theorem readBytes_add (mem : Nat → UInt8) (addr first second : Nat) :
    readBytes mem addr (first + second) = readBytes mem addr first ++ readBytes mem (addr + first) second := by
  simp only [readBytes, List.range_add, List.map_append, List.map_map]
  congr 1
  apply List.map_congr_left
  intro i _
  simp only [Function.comp_apply, Nat.add_assoc]

/-- Entry `i` of a table of entries of `width` bytes each. -/
theorem take_drop_flatMap {α β : Type} {f : α → List β} {width : Nat} (sized : ∀ a, (f a).length = width) :
    ∀ {l : List α} {i : Nat} {a : α}, l[i]? = some a → ((l.flatMap f).drop (width * i)).take width = f a
  | [], _, _, found => by cases found
  | b :: l, 0, a, found => by
      cases found
      rw [List.flatMap_cons, Nat.mul_zero, List.drop_zero, List.take_append_of_le_length (by rw [sized]),
        List.take_of_length_le (by rw [sized])]
  | b :: l, i + 1, a, found => by
      rw [List.getElem?_cons_succ] at found
      rw [List.flatMap_cons, show width * (i + 1) = (f b).length + width * i by rw [sized]; ring,
        List.drop_length_add_append]
      exact take_drop_flatMap sized found

end Foundation
