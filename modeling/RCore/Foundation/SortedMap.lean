import Mathlib

/-! # Ordered maps as sorted lists of entries

An ordered map in the style of a B-tree map is kept as its list of entries in increasing key
order. `Foundation.insertEntry` puts an entry at its place and returns the value it displaced;
`Foundation.removeEntry` takes the entry of a key out and returns its value. Dropping the map
visits the entries in this order.

An insertion above every key appends (`Foundation.insertEntry_of_lt`), so a map filled in
increasing key order is the list of insertions in that order.
-/

namespace Foundation

variable {κ ν : Type} [LinearOrder κ]

/-- Insert `(k, v)` at its place; the second component is the value displaced from `k`. -/
def insertEntry (k : κ) (v : ν) : List (κ × ν) → List (κ × ν) × Option ν
  | [] => ([(k, v)], none)
  | (k', v') :: rest =>
      if k < k' then ((k, v) :: (k', v') :: rest, none)
      else if k = k' then ((k, v) :: rest, some v')
      else ((k', v') :: (insertEntry k v rest).1, (insertEntry k v rest).2)

/-- Remove the entry of `k`; the second component is its value. -/
def removeEntry (k : κ) : List (κ × ν) → List (κ × ν) × Option ν
  | [] => ([], none)
  | (k', v') :: rest =>
      if k = k' then (rest, some v')
      else ((k', v') :: (removeEntry k rest).1, (removeEntry k rest).2)

/-- An insertion above every key appends and displaces nothing. -/
theorem insertEntry_of_lt {k : κ} (v : ν) {entries : List (κ × ν)}
    (above : ∀ entry ∈ entries, entry.1 < k) : insertEntry k v entries = (entries ++ [(k, v)], none) := by
  induction entries with
  | nil => rfl
  | cons entry rest ih =>
      obtain ⟨k', v'⟩ := entry
      have lower : k' < k := above (k', v') List.mem_cons_self
      have restAbove : ∀ entry ∈ rest, entry.1 < k := fun entry member =>
        above entry (List.mem_cons_of_mem _ member)
      rw [insertEntry, if_neg (not_lt.mpr lower.le), if_neg (ne_of_gt lower), ih restAbove]
      rfl

end Foundation
