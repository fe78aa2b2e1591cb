import RCore.Foundation.LittleEndian

/-! # Arrays scattered over a memory

An array need not lie in memory in one piece: element `i` may sit at any address `addrOf i`,
as the bytes of a file sit in the blocks its index names. `Foundation.gather mem addrOf n`
reads the first `n` elements back. A write that misses the addresses of the array leaves it as
it was (`Foundation.gather_congr`). Where the map runs through memory without a gap, a
contiguous read is a slice of the array (`Foundation.readBytes_eq_gather`) and a contiguous
write patches it (`Foundation.gather_writeBytes`), `Foundation.patch l offset part` being `l`
with `part` written from `offset` on.
-/

namespace Foundation

section Patch

variable {α : Type} {l part part' : List α} {offset : Nat}

/-- `l` with the elements from `offset` on replaced by those of `part`. -/
def patch (l : List α) (offset : Nat) (part : List α) : List α :=
  l.take offset ++ part ++ l.drop (offset + part.length)

theorem length_patch (fits : offset + part.length ≤ l.length) : (patch l offset part).length = l.length := by
  simp only [patch, List.length_append, List.length_take, List.length_drop]
  omega

theorem getElem?_patch (fits : offset + part.length ≤ l.length) (i : Nat) :
    (patch l offset part)[i]? = if offset ≤ i ∧ i < offset + part.length then part[i - offset]? else l[i]? := by
  unfold patch
  by_cases before : i < offset
  · rw [if_neg (by omega), List.append_assoc, List.getElem?_append_left (by simp; omega),
      List.getElem?_take_of_lt before]
  by_cases inside : i < offset + part.length
  · rw [if_pos ⟨by omega, inside⟩, List.getElem?_append_left (by simp; omega),
      List.getElem?_append_right (by simp; omega), List.length_take_of_le (by omega)]
  · rw [if_neg (by omega), List.getElem?_append_right (by simp; omega), List.getElem?_drop]
    simp only [List.length_append, List.length_take_of_le (by omega : offset ≤ l.length)]
    congr 1
    omega

/-- A part as long as the list replaces all of it. -/
theorem patch_zero_of_length (whole : part.length = l.length) : patch l 0 part = part := by
  rw [patch, List.take_zero, List.nil_append, Nat.zero_add, List.drop_eq_nil_of_le (Nat.le_of_eq whole.symm),
    List.append_nil]

@[simp] theorem patch_nil (l : List α) (offset : Nat) : patch l offset [] = l := by
  simp [patch]

/-- Two patches side by side are one. -/
theorem patch_patch {offset' : Nat} (fits : offset + part.length ≤ l.length) (adjacent : offset' = offset + part.length) :
    patch (patch l offset part) offset' part' = patch l offset (part ++ part') := by
  subst adjacent
  have kept : (patch l offset part).take (offset + part.length) = l.take offset ++ part := by
    rw [patch, List.take_left' (by simp; omega)]
  have rest : (patch l offset part).drop (offset + part.length + part'.length) =
      l.drop (offset + (part ++ part').length) := by
    rw [patch, List.drop_append, List.drop_eq_nil_of_le (by simp; omega), List.nil_append, List.drop_drop,
      List.length_append, List.length_append, List.length_take_of_le (by omega)]
    congr 1
    omega
  rw [patch, kept, rest, patch, List.append_assoc (l.take offset)]

/-- The patched window reads back as the patch. -/
theorem slice_patch (fits : offset ≤ l.length) : ((patch l offset part).drop offset).take part.length = part := by
  rw [patch, List.append_assoc, List.drop_left' (List.length_take_of_le fits), List.take_left' rfl]

/-- Two adjacent slices are one. -/
theorem slice_append {a b c : Nat} (first : a ≤ b) (second : b ≤ c) :
    (l.drop a).take (b - a) ++ (l.drop b).take (c - b) = (l.drop a).take (c - a) := by
  rw [show c - a = (b - a) + (c - b) by omega, List.take_add, List.drop_drop, Nat.add_sub_cancel' first]

end Patch

section Gather

variable {α : Type} {mem mem' : Nat → α} {addrOf addrOf' : Nat → Nat} {n : Nat}

/-- The `n` elements of the array whose element `i` sits at `addrOf i`. -/
def gather (mem : Nat → α) (addrOf : Nat → Nat) (n : Nat) : List α :=
  (List.range n).map fun i => mem (addrOf i)

@[simp] theorem length_gather : (gather mem addrOf n).length = n := by
  simp [gather]

theorem getElem?_gather (i : Nat) : (gather mem addrOf n)[i]? = if i < n then some (mem (addrOf i)) else none := by
  by_cases inside : i < n <;> simp [gather, inside]

/-- The array depends only on its elements. -/
theorem gather_congr (same : ∀ i < n, mem (addrOf i) = mem' (addrOf' i)) :
    gather mem addrOf n = gather mem' addrOf' n :=
  List.map_congr_left fun i member => same i (List.mem_range.mp member)

/-- An array is its first `m` elements, then the next `k`. -/
theorem gather_add (m k : Nat) :
    gather mem addrOf (m + k) = gather mem addrOf m ++ gather mem (fun i => addrOf (m + i)) k := by
  simp only [gather, List.range_add, List.map_append, List.map_map]
  rfl

/-- A run of `count` addresses from `addr` that the map covers from element `start` on reads as
that slice of the array. -/
theorem readBytes_eq_gather {mem : Nat → UInt8} {addr start count : Nat}
    (run : ∀ k < count, addrOf (start + k) = addr + k) (fits : start + count ≤ n) :
    readBytes mem addr count = ((gather mem addrOf n).drop start).take count := by
  apply List.ext_getElem?
  intro k
  rw [List.getElem?_take, List.getElem?_drop, getElem?_gather]
  by_cases inside : k < count
  · simp [readBytes, inside, run k inside, show start + k < n by omega]
  · simp [readBytes, inside]

/-- A contiguous write over the addresses of a slice patches the array, when the map is
injective. -/
theorem gather_writeBytes (mem : Nat → UInt8) {addr start : Nat} {bytes : List UInt8}
    (injective : ∀ i < n, ∀ j < n, addrOf i = addrOf j → i = j)
    (run : ∀ k < bytes.length, addrOf (start + k) = addr + k) (fits : start + bytes.length ≤ n) :
    gather (writeBytes mem addr bytes) addrOf n = patch (gather mem addrOf n) start bytes := by
  apply List.ext_getElem?
  intro i
  rw [getElem?_patch (by simpa using fits), getElem?_gather, getElem?_gather]
  by_cases outside : n ≤ i
  · rw [if_neg (by omega), if_neg (by omega), if_neg (by omega)]
  rw [if_pos (by omega)]
  by_cases inside : start ≤ i ∧ i < start + bytes.length
  · have at_i : addrOf i = addr + (i - start) := by
      rw [← run (i - start) (by omega), Nat.add_sub_cancel' inside.1]
    rw [if_pos inside, writeBytes, if_pos (by omega), at_i, Nat.add_sub_cancel_left,
      List.getElem?_eq_getElem (by omega), List.getD_eq_getElem _ _ (by omega)]
  · -- an element outside the slice has an address outside the run
    have missed : ¬(addr ≤ addrOf i ∧ addrOf i < addr + bytes.length) := by
      rintro ⟨low, high⟩
      have same := injective _ (by omega) i (by omega) ((run (addrOf i - addr) (by omega)).trans
        (Nat.add_sub_cancel' low))
      exact inside ⟨by omega, by omega⟩
    rw [if_neg inside, writeBytes_apply_of_not_mem missed, if_pos (by omega)]

end Gather

section Records

variable {mem : Nat → UInt8} {addr width value : Nat}

/-- The bytes of a loaded word are the bytes it was loaded from. -/
theorem leBytes_loadLE (mem : Nat → UInt8) (addr width : Nat) :
    leBytes width (loadLE mem addr width) = readBytes mem addr width := by
  apply List.ext_getElem
  · simp
  · intro i inside _
    rw [length_leBytes] at inside
    simp only [leBytes, readBytes, List.getElem_map, List.getElem_range]
    apply UInt8.toNat_inj.mp
    rw [UInt8.toNat_ofNat', show 2 ^ 8 = 256 by rfl, loadLE_div_pow_mod mem inside]

/-- Writing back the bytes already there changes nothing. -/
theorem writeBytes_readBytes (mem : Nat → UInt8) (addr count : Nat) :
    writeBytes mem addr (readBytes mem addr count) = mem := by
  funext a
  by_cases inside : addr ≤ a ∧ a < addr + count
  · rw [writeBytes, if_pos (by simpa using inside), List.getD_eq_getElem _ _ (by simp; omega)]
    simp only [readBytes, List.getElem_map, List.getElem_range]
    congr 1
    omega
  · rw [writeBytes_apply_of_not_mem (by simpa using inside)]

/-- A word of a written record reads back from where the record holds it. -/
theorem loadLE_writeBytes_of_eq {data pre post : List UInt8}
    (split : data = pre ++ leBytes width value ++ post) :
    loadLE (writeBytes mem addr data) (addr + pre.length) width = value % 256 ^ width := by
  apply loadLE_of_readBytes
  have part : readBytes (writeBytes mem addr data) (addr + pre.length + 0) width =
      ((leBytes width value).drop 0).take width :=
    readBytes_writeBytes_of_eq mem addr split (by simp)
  rwa [Nat.add_zero, List.drop_zero, List.take_of_length_le (by simp)] at part

@[simp] theorem writeBytes_nil (mem : Nat → UInt8) (addr : Nat) : writeBytes mem addr [] = mem := by
  funext a
  exact writeBytes_apply_of_not_mem (by simp)

/-- A store of a word writes its little-endian bytes. -/
theorem storeLE_eq_writeBytes (mem : Nat → UInt8) (addr width value : Nat) :
    storeLE mem addr width value = writeBytes mem addr (leBytes width value) := by
  funext a
  by_cases inside : addr ≤ a ∧ a < addr + width
  · rw [storeLE, if_pos inside, writeBytes, if_pos (by simpa using inside),
      List.getD_eq_getElem _ _ (by simp; omega)]
    simp [leBytes]
  · rw [storeLE, if_neg inside, writeBytes_apply_of_not_mem (by simpa using inside)]

/-- Two writes side by side are one. -/
theorem writeBytes_append (mem : Nat → UInt8) (addr : Nat) (xs ys : List UInt8) :
    writeBytes (writeBytes mem addr xs) (addr + xs.length) ys = writeBytes mem addr (xs ++ ys) := by
  funext a
  by_cases second : addr + xs.length ≤ a ∧ a < addr + xs.length + ys.length
  · rw [writeBytes, if_pos second, writeBytes, if_pos (by simp; omega), List.getD_append_right _ _ _ _ (by omega),
      show a - addr - xs.length = a - (addr + xs.length) by omega]
  · rw [writeBytes_apply_of_not_mem second]
    by_cases first : addr ≤ a ∧ a < addr + xs.length
    · rw [writeBytes, if_pos first, writeBytes, if_pos (by simp; omega), List.getD_append _ _ _ _ (by omega)]
    · rw [writeBytes_apply_of_not_mem first, writeBytes_apply_of_not_mem (by simp; omega)]

/-- A run of `n` words of `width` bytes is their bytes in turn. -/
theorem readBytes_mul (mem : Nat → UInt8) (addr width n : Nat) :
    readBytes mem addr (width * n) = (List.range n).flatMap fun i => readBytes mem (addr + width * i) width := by
  induction n with
  | zero => simp [readBytes]
  | succ n ih => rw [Nat.mul_succ, readBytes_add, ih, List.range_succ, List.flatMap_append, List.flatMap_singleton]

end Records

end Foundation
