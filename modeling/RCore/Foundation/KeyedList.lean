import Mathlib

/-! # Tables of records that carry their key

A table whose records carry their own key, such as blocks named by their pid, is a list.
`Foundation.lookup key l k` is the first record of key `k`, and `Foundation.replace key l r`
puts `r` in place of every record of the key of `r`. With distinct keys a record is in the
table exactly when it is the lookup of its key (`Foundation.lookup_eq_some_iff`), and a sum
over the table changes by the difference of the record replaced, added or removed
(`Foundation.sum_replace`, `Foundation.sum_filter_ne`).

Read as a log of writes, the list has a last record of each key, `Foundation.lastOf key l k`:
writing the records' values in order leaves at each key the value of its last record
(`Foundation.foldl_update_apply`).
-/

namespace Foundation

variable {α β : Type} [DecidableEq β] (key : α → β)

/-- The first record of key `k`. -/
def lookup (l : List α) (k : β) : Option α := l.find? fun r => key r == k

/-- Every record of the key of `r` replaced by `r`. -/
def replace (l : List α) (r : α) : List α := l.map fun v => if key v = key r then r else v

variable {key} {l : List α} {k : β} {r old : α}

theorem lookup_eq_some_iff (nodup : (l.map key).Nodup) : lookup key l k = some r ↔ r ∈ l ∧ key r = k := by
  induction l with
  | nil => simp [lookup]
  | cons head rest ih =>
      rw [List.map_cons, List.nodup_cons] at nodup
      unfold lookup at ih ⊢
      rw [List.find?_cons]
      by_cases here : key head = k
      · have hit : (key head == k) = true := beq_iff_eq.mpr here
        rw [hit]
        constructor
        · rintro ⟨⟩
          exact ⟨List.mem_cons_self, here⟩
        · rintro ⟨member, same⟩
          rcases List.mem_cons.mp member with rfl | later
          · rfl
          · exact absurd (List.mem_map_of_mem later) (same.trans here.symm ▸ nodup.1)
      · have differs : (key head == k) = false := beq_eq_false_iff_ne.mpr here
        rw [differs, ih nodup.2]
        constructor
        · rintro ⟨member, same⟩
          exact ⟨List.mem_cons_of_mem _ member, same⟩
        · rintro ⟨member, same⟩
          rcases List.mem_cons.mp member with rfl | later
          · exact absurd same here
          · exact ⟨later, same⟩

theorem lookup_eq_none_iff : lookup key l k = none ↔ k ∉ l.map key := by
  unfold lookup
  rw [List.find?_eq_none]
  simp

theorem key_of_lookup (found : lookup key l k = some r) : key r = k := by
  have := List.find?_some found
  simpa using this

theorem mem_of_lookup (found : lookup key l k = some r) : r ∈ l :=
  List.mem_of_find?_eq_some found

theorem map_key_replace : (replace key l r).map key = l.map key := by
  unfold replace
  rw [List.map_map]
  apply List.map_congr_left
  intro v _
  by_cases same : key v = key r
  · rw [Function.comp_apply, if_pos same, same]
  · rw [Function.comp_apply, if_neg same]

theorem lookup_replace (nodup : (l.map key).Nodup) (present : key r ∈ l.map key) :
    lookup key (replace key l r) k = if key r = k then some r else lookup key l k := by
  have nodup' : ((replace key l r).map key).Nodup := by
    rw [map_key_replace]
    exact nodup
  split
  case isTrue same =>
    obtain ⟨v, member, keyed⟩ := List.mem_map.mp present
    refine (lookup_eq_some_iff nodup').mpr ⟨?_, same⟩
    exact List.mem_map.mpr ⟨v, member, by rw [if_pos keyed]⟩
  case isFalse differs =>
    cases found : lookup key l k with
    | none =>
        rw [lookup_eq_none_iff, map_key_replace]
        exact lookup_eq_none_iff.mp found
    | some v =>
        obtain ⟨member, keyed⟩ := (lookup_eq_some_iff nodup).mp found
        refine (lookup_eq_some_iff nodup').mpr ⟨List.mem_map.mpr ⟨v, member, ?_⟩, keyed⟩
        rw [if_neg fun same => differs (same.symm.trans keyed)]

/-- Writing back the record its key finds leaves the table as it was. -/
theorem replace_of_lookup (nodup : (l.map key).Nodup) (found : lookup key l (key r) = some r) :
    replace key l r = l := by
  unfold replace
  conv_rhs => rw [← List.map_id l]
  apply List.map_congr_left
  intro v member
  by_cases same : key v = key r
  · have own : lookup key l (key r) = some v := (lookup_eq_some_iff nodup).mpr ⟨member, same⟩
    rw [found] at own
    rw [if_pos same, Option.some.inj own, id]
  · rw [if_neg same, id]

/-- A map that keeps the keys carries a replacement over to the mapped table. -/
theorem map_replace {γ : Type} {key' : γ → β} (f : α → γ) (keyed : ∀ a, key' (f a) = key a) :
    (replace key l r).map f = replace key' (l.map f) (f r) := by
  unfold replace
  rw [List.map_map, List.map_map]
  apply List.map_congr_left
  intro v _
  by_cases same : key v = key r
  · rw [Function.comp_apply, Function.comp_apply, if_pos same, if_pos (by rw [keyed, keyed, same])]
  · rw [Function.comp_apply, Function.comp_apply, if_neg same, if_neg (by rw [keyed, keyed]; exact same)]

theorem lookup_append_of_not_mem (fresh : key r ∉ l.map key) :
    lookup key (l ++ [r]) k = if key r = k then some r else lookup key l k := by
  unfold lookup
  rw [List.find?_append]
  cases found : l.find? fun v => key v == k with
  | some v =>
      have keyed : key v = k := by simpa using List.find?_some found
      have present : key v ∈ l.map key := List.mem_map_of_mem (List.mem_of_find?_eq_some found)
      have differs : key r ≠ k := fun same => fresh (same.trans keyed.symm ▸ present)
      simp [differs]
  | none =>
      by_cases same : key r = k <;> simp [same]

/-- A replacement changes a sum over the table by the difference of the two records. -/
theorem sum_replace (nodup : (l.map key).Nodup) (found : lookup key l (key r) = some old) (g : α → Nat) :
    ((replace key l r).map g).sum + g old = (l.map g).sum + g r := by
  induction l with
  | nil => simp [lookup] at found
  | cons head rest ih =>
      have whole := nodup
      rw [List.map_cons, List.nodup_cons] at nodup
      unfold replace at ih ⊢
      simp only [List.map_cons, List.sum_cons]
      by_cases here : key head = key r
      · -- the record of the key is the head, and no later record has it
        rw [if_pos here]
        have headFound : lookup key (head :: rest) (key r) = some head :=
          (lookup_eq_some_iff whole).mpr ⟨List.mem_cons_self, here⟩
        rw [found] at headFound
        cases headFound
        have untouched : (rest.map fun v => if key v = key r then r else v) = rest := by
          conv_rhs => rw [← List.map_id rest]
          apply List.map_congr_left
          intro v member
          rw [if_neg fun (same : key v = key r) =>
            nodup.1 (by rw [here, ← same]; exact List.mem_map_of_mem member)]
          rfl
        rw [untouched]
        omega
      · rw [if_neg here]
        have later : lookup key rest (key r) = some old := by
          unfold lookup at found ⊢
          rwa [List.find?_cons, beq_eq_false_iff_ne.mpr here] at found
        have := ih nodup.2 later
        omega

/-- Removing the record of a key takes its part out of a sum over the table. -/
theorem sum_filter_ne (nodup : (l.map key).Nodup) (found : lookup key l k = some old) (g : α → Nat) :
    ((l.filter fun v => key v != k).map g).sum + g old = (l.map g).sum := by
  induction l with
  | nil => simp [lookup] at found
  | cons head rest ih =>
      have whole := nodup
      rw [List.map_cons, List.nodup_cons] at nodup
      by_cases here : key head = k
      · have headFound : lookup key (head :: rest) k = some head :=
          (lookup_eq_some_iff whole).mpr ⟨List.mem_cons_self, here⟩
        rw [found] at headFound
        cases headFound
        -- no later record has the key, so the filter keeps all of them
        have kept : (rest.filter fun v => key v != k) = rest := by
          apply List.filter_eq_self.mpr
          intro v member
          simp only [bne_iff_ne, ne_eq]
          intro same
          exact nodup.1 (by rw [here, ← same]; exact List.mem_map_of_mem member)
        simp [here, kept]
        omega
      · have later : lookup key rest k = some old := by
          unfold lookup at found ⊢
          rwa [List.find?_cons, beq_eq_false_iff_ne.mpr here] at found
        have := ih nodup.2 later
        simp [here]
        omega

/-- Removing the record of a key removes the key. -/
theorem map_key_filter_ne (nodup : (l.map key).Nodup) :
    (l.filter fun v => key v != k).map key = (l.map key).erase k := by
  rw [nodup.erase_eq_filter, List.filter_map]
  rfl

theorem lookup_filter_ne (nodup : (l.map key).Nodup) {k' : β} :
    lookup key (l.filter fun v => key v != k) k' = if k = k' then none else lookup key l k' := by
  have nodup' : ((l.filter fun v => key v != k).map key).Nodup := by
    rw [map_key_filter_ne nodup]
    exact nodup.erase k
  split
  case isTrue same =>
    rw [lookup_eq_none_iff, map_key_filter_ne nodup, ← same]
    exact nodup.not_mem_erase
  case isFalse differs =>
    cases found : lookup key l k' with
    | none =>
        rw [lookup_eq_none_iff, map_key_filter_ne nodup]
        exact fun member => lookup_eq_none_iff.mp found (List.mem_of_mem_erase member)
    | some v =>
        obtain ⟨member, keyed⟩ := (lookup_eq_some_iff nodup).mp found
        refine (lookup_eq_some_iff nodup').mpr ⟨List.mem_filter.mpr ⟨member, ?_⟩, keyed⟩
        simpa [keyed] using Ne.symm differs

/-- Erasing the entry at a position takes one occurrence of its value out of a count. -/
theorem count_eraseIdx [DecidableEq α] {i : Nat} {a : α} (inside : i < l.length) :
    (l.eraseIdx i).count a + (if l[i] = a then 1 else 0) = l.count a := by
  conv_rhs => rw [← List.take_append_drop i l, ← List.getElem_cons_drop inside]
  rw [List.eraseIdx_eq_take_drop_succ, List.count_append, List.count_append, List.count_cons]
  by_cases same : l[i] = a
  · simp only [same, if_true, beq_self_eq_true]
    omega
  · simp [same]

section LastWrite

/-- The last record of key `k`. -/
def lastOf (key : α → β) (l : List α) (k : β) : Option α := (l.filter fun r => key r == k).getLast?

theorem mem_of_lastOf (found : lastOf key l k = some r) : r ∈ l ∧ key r = k := by
  have member := List.mem_of_getLast? found
  rw [List.mem_filter, beq_iff_eq] at member
  exact member

theorem lastOf_append_singleton : lastOf key (l ++ [r]) k = if key r = k then some r else lastOf key l k := by
  unfold lastOf
  rw [List.filter_append, List.filter_singleton]
  by_cases here : key r = k
  · simp [here]
  · rw [beq_false_of_ne here, if_neg here, cond_false, List.append_nil]

/-- The last record of key `k` in a concatenation is the one of the second part, if it has one. -/
theorem lastOf_append {l₁ l₂ : List α} : lastOf key (l₁ ++ l₂) k = (lastOf key l₂ k).or (lastOf key l₁ k) := by
  unfold lastOf
  rw [List.filter_append, List.getLast?_append]

/-- Writing the value of each record at its key, in order, leaves at `k` the value of the last
record of key `k`, or the value before when there is none. -/
theorem foldl_update_apply {γ : Type} (value : α → γ) (f : β → γ) (l : List α) (k : β) :
    (l.foldl (fun g r => Function.update g (key r) (value r)) f) k = ((lastOf key l k).map value).getD (f k) := by
  induction l using List.reverseRecOn with
  | nil => rfl
  | append_singleton l r ih =>
      rw [List.foldl_append, List.foldl_cons, List.foldl_nil, Function.update_apply, lastOf_append_singleton]
      by_cases here : key r = k
      · rw [if_pos here.symm, if_pos here]
        rfl
      · rw [if_neg (Ne.symm here), if_neg here, ih]

end LastWrite

section Range

/-- The first position below `n` that satisfies `p`. -/
theorem find?_range_eq_some {p : Nat → Bool} {n i : Nat} (lt : i < n) (before : ∀ j < i, p j = false)
    (found : p i = true) : (List.range n).find? p = some i := by
  induction n with
  | zero => omega
  | succ n ih =>
      rw [List.range_succ, List.find?_append]
      by_cases last : i = n
      · subst last
        rw [List.find?_eq_none.mpr fun j member => by
          rw [before j (List.mem_range.mp member)]
          decide]
        simp [found]
      · rw [ih (by omega)]
        rfl

/-- No position below `n` satisfies `p`. -/
theorem find?_range_eq_none {p : Nat → Bool} {n : Nat} (never : ∀ j < n, p j = false) :
    (List.range n).find? p = none :=
  List.find?_eq_none.mpr fun j member => by rw [never j (List.mem_range.mp member)]; decide

end Range

section Pairs

/-- A key of an association list has an entry. -/
theorem isSome_lookup_of_mem {α β : Type} [BEq α] [LawfulBEq α] :
    ∀ {l : List (α × β)} {a : α}, a ∈ l.map Prod.fst → (l.lookup a).isSome
  | [], _, member => absurd member List.not_mem_nil
  | (b, v) :: l, a, member => by
      by_cases same : a = b
      · rw [same, List.lookup_cons_self]
        rfl
      · rw [List.lookup_cons, beq_false_of_ne same]
        exact isSome_lookup_of_mem ((List.mem_cons.mp member).resolve_left same)

end Pairs

end Foundation
