import Mathlib

/-! # The first position of a minimum

A left-to-right scan over positions `1, ..., n - 1` that moves from the current position
to a later one only when the later key is strictly smaller (`Foundation.firstMinPos`)
ends at the first position holding a minimal key: its key is at most every key
(`Foundation.firstMinPos_le`) and strictly below every key before it
(`Foundation.lt_of_lt_firstMinPos`). The invariant of the scan after `m` positions is
`Foundation.scanMin_spec`.
-/

namespace Foundation

variable {β : Type*} [LinearOrder β] [Inhabited β]

/-- One step of the scan: move from `pos` to `idx` when the key at `pos` is greater. -/
def firstMinStep (keys : List β) (pos idx : Nat) : Nat :=
  if keys.getD pos default > keys.getD idx default then idx else pos

/-- The scan over positions `1, ..., m`, starting at position `0`. -/
def scanMin (keys : List β) (m : Nat) : Nat :=
  (List.range' 1 m).foldl (firstMinStep keys) 0

/-- The scan over every position of the list. -/
def firstMinPos (keys : List β) : Nat := scanMin keys (keys.length - 1)

theorem scanMin_succ (keys : List β) (m : Nat) :
    scanMin keys (m + 1) = firstMinStep keys (scanMin keys m) (m + 1) := by
  simp only [scanMin, List.range'_concat, List.foldl_append, List.foldl_cons, List.foldl_nil]
  rw [Nat.one_mul, Nat.add_comm 1 m]

/-- After positions `1, ..., m` the scan sits at or before `m`, on a key no larger than any
key up to `m` and strictly smaller than every key before it. -/
theorem scanMin_spec (keys : List β) (m : Nat) :
    scanMin keys m ≤ m ∧
      (∀ j ≤ m, keys.getD (scanMin keys m) default ≤ keys.getD j default) ∧
      ∀ j < scanMin keys m, keys.getD (scanMin keys m) default < keys.getD j default := by
  induction m with
  | zero =>
      have start : scanMin keys 0 = 0 := rfl
      rw [start]
      refine ⟨Nat.le_refl 0, ?_, ?_⟩
      · intro j below
        rw [Nat.le_zero.mp below]
      · intro j below
        exact absurd below (Nat.not_lt_zero j)
  | succ m ih =>
      obtain ⟨bounded, least, strict⟩ := ih
      rw [scanMin_succ]
      unfold firstMinStep
      split
      case isTrue smaller =>
        -- the new key is strictly below everything scanned so far
        refine ⟨Nat.le_refl _, ?_, ?_⟩
        · intro j below
          rcases Nat.lt_or_ge j (m + 1) with earlier | same
          · exact le_of_lt (lt_of_lt_of_le smaller (least j (by omega)))
          · rw [Nat.le_antisymm below same]
        · intro j below
          exact lt_of_lt_of_le smaller (least j (by omega))
      case isFalse notSmaller =>
        refine ⟨by omega, ?_, strict⟩
        intro j below
        rcases Nat.lt_or_ge j (m + 1) with earlier | same
        · exact least j (by omega)
        · rw [Nat.le_antisymm below same]
          exact le_of_not_gt notSmaller

theorem firstMinPos_lt_length {keys : List β} (nonempty : keys ≠ []) :
    firstMinPos keys < keys.length := by
  have positive : 0 < keys.length := List.length_pos_iff.mpr nonempty
  have bounded := (scanMin_spec keys (keys.length - 1)).1
  unfold firstMinPos
  omega

/-- The key at the chosen position is a minimum. -/
theorem firstMinPos_le (keys : List β) {j : Nat} (inside : j < keys.length) :
    keys.getD (firstMinPos keys) default ≤ keys.getD j default :=
  (scanMin_spec keys (keys.length - 1)).2.1 j (by omega)

/-- Every key before the chosen position is strictly larger: the position is the first
minimum. -/
theorem lt_of_lt_firstMinPos (keys : List β) {j : Nat} (before : j < firstMinPos keys) :
    keys.getD (firstMinPos keys) default < keys.getD j default :=
  (scanMin_spec keys (keys.length - 1)).2.2 j before

/-- On keys in increasing order the scan stays at the front, ties included. -/
theorem firstMinPos_eq_zero_of_pairwise {keys : List β} (sorted : keys.Pairwise (· ≤ ·)) :
    firstMinPos keys = 0 := by
  by_contra moved
  have nonempty : keys ≠ [] := by
    rintro rfl
    exact moved rfl
  have inside := firstMinPos_lt_length nonempty
  have strict := lt_of_lt_firstMinPos keys (Nat.pos_of_ne_zero moved)
  have front : keys[0] ≤ keys[firstMinPos keys] :=
    List.pairwise_iff_getElem.mp sorted 0 (firstMinPos keys) (by omega) inside (Nat.pos_of_ne_zero moved)
  rw [List.getD_eq_getElem _ _ inside, List.getD_eq_getElem _ _ (by omega)] at strict
  exact absurd front (not_le.mpr strict)

@[simp]
theorem firstMinPos_pair (first second : β) :
    firstMinPos [first, second] = if first > second then 1 else 0 := rfl

end Foundation
