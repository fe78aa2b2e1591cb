import RCore.EasyFs.DiskInodeBytes

/-! # Growing a file keeps its bytes

`DiskInode::increase_size` writes nothing but entries of index blocks: of `indirect1`, of
`indirect2`, and of the second-level blocks that `indirect2` names, each of them the id of a slot
that holds no data block (`RCore.EasyFs.DiskInode.IndexBlock`, `RCore.EasyFs.DiskInode.increaseSize_frame`).
The block a second-level entry goes to is read from `indirect2` when it is written; that it is
the id of its slot is the part of the layout the loop over `indirect2` keeps
(`RCore.EasyFs.DiskInode.Entries2`). No byte of a data block changes, so an inode grown from a
sound one with fresh ids is sound, and its contents are the old ones followed by the bytes its new
data blocks already held (`RCore.EasyFs.DiskInode.Sound.increaseSize`). Growing never changes the
type of the inode (`RCore.EasyFs.DiskInode.increaseSize_type`).
-/

namespace RCore

namespace EasyFs

/-- The devices agree outside the blocks `touched`: they have as many blocks, and every byte of
another block is the same. -/
structure SameOutside (touched : Nat → Prop) (d d' : Disk) : Prop where
  blocks_eq : d'.blocks = d.blocks
  bytes_eq : ∀ a, ¬ touched (a / blockSz) → d'.bytes a = d.bytes a

namespace SameOutside

variable {touched touched' : Nat → Prop} {d d' d'' : Disk}

theorem refl (touched : Nat → Prop) (d : Disk) : SameOutside touched d d := ⟨rfl, fun _ _ => rfl⟩

theorem trans (first : SameOutside touched d d') (second : SameOutside touched d' d'') :
    SameOutside touched d d'' :=
  ⟨second.blocks_eq.trans first.blocks_eq, fun a other => (second.bytes_eq a other).trans (first.bytes_eq a other)⟩

theorem mono (same : SameOutside touched d d') (wider : ∀ b, touched b → touched' b) : SameOutside touched' d d' :=
  ⟨same.blocks_eq, fun a other => same.bytes_eq a fun hit => other (wider _ hit)⟩

end SameOutside

/-- Setting an entry of block `b` changes block `b` alone. -/
theorem sameOutside_withEntry {b index value : Nat} (small : index < inodeIndirect1Count) (d : Disk) :
    SameOutside (· = b) d (withEntry d b index value) := by
  refine ⟨rfl, fun a other => ?_⟩
  show Foundation.storeLE d.bytes (byteAddr b (4 * index)) 4 value a = d.bytes a
  unfold Foundation.storeLE
  rw [if_neg]
  rintro ⟨low, high⟩
  apply other
  unfold byteAddr inodeIndirect1Count blockSz at *
  omega

namespace DiskInode

/-- Block `b` is the id at a slot below `n` that holds no data block: an index block of the first
`n` slots of `whole`. -/
def IndexBlock (whole : List Nat) (n b : Nat) : Prop :=
  ∃ s < n, (∀ j, dataSlot j ≠ s) ∧ whole.getD s 0 = b

theorem IndexBlock.mono {whole : List Nat} {n n' b : Nat} (index : IndexBlock whole n b) (le : n ≤ n') :
    IndexBlock whole n' b :=
  let ⟨s, inside, notData, at_s⟩ := index
  ⟨s, Nat.lt_of_lt_of_le inside le, notData, at_s⟩

/-- A data block of the ids is no index block of them. -/
theorem not_indexBlock_of_data {whole : List Nat} (nodup : whole.Nodup) {n j : Nat} (inside : n ≤ whole.length)
    (data : dataSlot j < whole.length) : ¬ IndexBlock whole n (whole.getD (dataSlot j) 0) := by
  rintro ⟨s, below, notData, same⟩
  exact getD_ne nodup (by omega) data (notData j).symm same

/-- The loop over `indirect1` writes entries of that block alone. -/
theorem fillIndirect1_frame {b : Nat} : ∀ {positions ids rest : List Nat} {d d' : Disk},
    (∀ p ∈ positions, p < inodeIndirect1Count) → fillIndirect1 b ids positions d = .ok (rest, d') →
    SameOutside (· = b) d d'
  | [], _, _, d, _, _, ran => by
      cases ran
      exact .refl _ d
  | current :: positions, ids, rest, d, d', small, ran => by
      cases ids with
      | nil => cases ran
      | cons id ids =>
          have next : nextBlock (id :: ids) = .ok (id, ids) := rfl
          rw [fillIndirect1, Foundation.bind_of_ok (Foundation.liftExcept_eq_ok.mpr ⟨next, rfl⟩)] at ran
          dsimp only at ran
          rw [Foundation.bind_of_ok setEntry_apply] at ran
          exact (sameOutside_withEntry (small current List.mem_cons_self) d).trans
            (fillIndirect1_frame (fun p member => small p (List.mem_cons_of_mem _ member)) ran)

/-- The entries of `indirect2` for the second-level blocks at slots below `n` name the ids of
those slots. -/
def Entries2 (whole : List Nat) (indirect2 : Nat) (d : Disk) (n : Nat) : Prop :=
  ∀ a < inodeIndirect1Count, level2Slot a < n → entryOf d indirect2 a = whole.getD (level2Slot a) 0

section Indirect2

variable {whole : List Nat} {indirect2 : Nat} {d : Disk}

/-- One position `p` of the loop over `indirect2`: the device it leaves differs only in
`indirect2` and in the second-level block of `p`, and keeps the entries of `indirect2`. -/
theorem fillIndirect2_frame_step {p : Nat} (nodup : whole.Nodup) (onDevice : ∀ id ∈ whole, id < d.blocks ∧ id < 2 ^ 32)
    (at2 : indirect2 = whole.getD indirect2Slot 0) (entries : Entries2 whole indirect2 d (streamSlot p))
    (inside : p < inodeIndirect2Count) (enough : streamSlot (p + 1) ≤ whole.length) (rest : List Nat) :
    ∃ d₁, fillIndirect2 indirect2 (whole.drop (streamSlot p)) (p :: rest) d =
        fillIndirect2 indirect2 (whole.drop (streamSlot (p + 1))) rest d₁ ∧
      Entries2 whole indirect2 d₁ (streamSlot (p + 1)) ∧ SameOutside (IndexBlock whole (streamSlot (p + 1))) d d₁ := by
  have row : p / inodeIndirect1Count < inodeIndirect1Count := by
    simp only [inodeIndirect2Count, inodeIndirect1Count_eq] at *
    omega
  have column : p % inodeIndirect1Count < inodeIndirect1Count := Nat.mod_lt _ (by decide)
  have next := streamSlot_succ p
  have blockSlot : level2Slot (p / inodeIndirect1Count) < whole.length := by
    rw [level2Slot_eq] at *
    omega
  -- the second-level block of `p` is no `indirect2` block, and both are index blocks
  have apart : whole.getD (level2Slot (p / inodeIndirect1Count)) 0 ≠ indirect2 := by
    rw [at2]
    exact getD_ne nodup blockSlot (Nat.lt_trans (indirect2Slot_lt _) blockSlot) (Nat.ne_of_gt (indirect2Slot_lt _))
  have index2 : IndexBlock whole (streamSlot (p + 1)) indirect2 :=
    ⟨indirect2Slot, by rw [next]; have := indirect2Slot_lt (p / inodeIndirect1Count); omega,
      fun j => (dataSlot_ne_index j 0).2.1, at2.symm⟩
  have indexBlock : IndexBlock whole (streamSlot (p + 1)) (whole.getD (level2Slot (p / inodeIndirect1Count)) 0) :=
    ⟨_, by rw [next]; omega, fun j => (dataSlot_ne_index j _).2.2, rfl⟩
  have present := (onDevice _ (getD_mem blockSlot)).1
  rw [fillIndirect2]
  dsimp only
  by_cases first : p % inodeIndirect1Count = 0
  · -- a new second-level block: entry `a0` of `indirect2` is set to it, then its entry 0
    have slot : streamSlot p = level2Slot (p / inodeIndirect1Count) := by
      unfold streamSlot
      rw [if_pos first]
    rw [if_pos first, Foundation.bind_of_ok (Foundation.liftExcept_eq_ok.mpr ⟨nextBlock_drop (by omega), rfl⟩)]
    dsimp only
    rw [Foundation.bind_of_ok (checkIndex_of_lt row), Foundation.bind_of_ok setEntry_apply, pure_bind,
      Foundation.bind_of_ok (checkIndex_of_lt row), Foundation.get_bind]
    have present₁ : whole.getD (level2Slot (p / inodeIndirect1Count)) 0 <
        (withEntry d indirect2 (p / inodeIndirect1Count) (whole.getD (level2Slot (p / inodeIndirect1Count)) 0)).blocks :=
      present
    rw [slot, entryOf_withEntry_self (onDevice _ (getD_mem blockSlot)).2,
      Foundation.bind_of_ok (checkBlock_of_lt present₁),
      Foundation.bind_of_ok (Foundation.liftExcept_eq_ok.mpr ⟨nextBlock_drop (by omega), rfl⟩)]
    dsimp only
    rw [Foundation.bind_of_ok setEntry_apply]
    refine ⟨_, by rw [next, first, ← slot], fun a small below => ?_,
      ((sameOutside_withEntry row d).mono fun b hit => hit ▸ index2).trans
        ((sameOutside_withEntry column _).mono fun b hit => hit ▸ indexBlock)⟩
    rw [entryOf_withEntry_of_ne column small (.inl apart.symm)]
    by_cases same : a = p / inodeIndirect1Count
    · subst same
      rw [slot]
      exact entryOf_withEntry_self (onDevice _ (getD_mem blockSlot)).2
    · rw [entryOf_withEntry_of_ne row small (.inr same)]
      refine entries a small ?_
      rw [slot]
      rw [next, first, level2Slot_eq, level2Slot_eq] at below
      rw [level2Slot_eq, level2Slot_eq]
      omega
  · -- an entry of the second-level block that an earlier position put in `indirect2`
    have slot : streamSlot p = level2Slot (p / inodeIndirect1Count) + 1 + p % inodeIndirect1Count := by
      unfold streamSlot
      rw [if_neg first]
    have block : entryOf d indirect2 (p / inodeIndirect1Count) = whole.getD (level2Slot (p / inodeIndirect1Count)) 0 :=
      entries _ row (by omega)
    rw [if_neg first, pure_bind, Foundation.bind_of_ok (checkIndex_of_lt row), Foundation.get_bind]
    rw [block, Foundation.bind_of_ok (checkBlock_of_lt present),
      Foundation.bind_of_ok (Foundation.liftExcept_eq_ok.mpr ⟨nextBlock_drop (by omega), rfl⟩)]
    dsimp only
    rw [Foundation.bind_of_ok setEntry_apply]
    refine ⟨_, by rw [next, ← slot], fun a small below => ?_,
      (sameOutside_withEntry column d).mono fun b hit => hit ▸ indexBlock⟩
    rw [entryOf_withEntry_of_ne column small (.inl apart.symm)]
    -- the slot of `p` is an entry's, so every second-level slot below `p + 1` is below `p`
    refine entries a small ?_
    have at_a := level2Slot_eq a
    have at_p := level2Slot_eq (p / inodeIndirect1Count)
    rw [slot]
    rw [next] at below
    rw [inodeIndirect1Count_eq] at first at_p below ⊢
    omega

/-- The loop over `indirect2` from position `p` changes only `indirect2` and the second-level
blocks of its positions; by induction on the positions. -/
theorem fillIndirect2_frame (nodup : whole.Nodup) (at2 : indirect2 = whole.getD indirect2Slot 0) :
    ∀ (count : Nat) (d : Disk) (p : Nat), (∀ id ∈ whole, id < d.blocks ∧ id < 2 ^ 32) →
      Entries2 whole indirect2 d (streamSlot p) → p + count ≤ inodeIndirect2Count →
      streamSlot (p + count) ≤ whole.length → ∀ {rest : List Nat} {d' : Disk},
      fillIndirect2 indirect2 (whole.drop (streamSlot p)) (List.range' p count) d = .ok (rest, d') →
      SameOutside (IndexBlock whole (streamSlot (p + count))) d d'
  | 0, d, _, _, _, _, _, _, _, ran => by
      cases ran
      exact .refl _ d
  | count + 1, d, p, onDevice, entries, fits, enough, rest, d', ran => by
      obtain ⟨d₁, step, entries₁, same₁⟩ := fillIndirect2_frame_step nodup onDevice at2 entries (by omega)
        (Nat.le_trans (streamSlot_mono (by omega)) enough) (List.range' (p + 1) count)
      rw [List.range'_succ, step] at ran
      have later := fillIndirect2_frame nodup at2 count d₁ (p + 1)
        (fun id member => same₁.blocks_eq ▸ onDevice id member) entries₁ (by omega)
        (by rwa [Nat.add_right_comm]) ran
      rw [Nat.add_right_comm] at later
      exact (same₁.mono fun _ index => index.mono (streamSlot_mono (by omega))).trans later

end Indirect2

section Grow

variable {whole : List Nat} {d d' : Disk} {inode inode' : DiskInode} {rest : List Nat}

/-- Past the `indirect1` block, `increase_size` writes only the `indirect2` block and the
second-level blocks of the slots it fills. -/
theorem growIndirect2_frame (nodup : whole.Nodup) (onDevice : ∀ id ∈ whole, id < d.blocks ∧ id < 2 ^ 32)
    {current total : Nat} (layout : Layout inode d (whole.take (usedSlots (inodeDirectCount + current))))
    (reached : min total inodeIndirect1Count ≤ current) (behind : current ≤ total)
    (bounded : total ≤ inodeIndirect1Count + inodeIndirect2Count)
    (enough : usedSlots (inodeDirectCount + total) ≤ whole.length)
    (ran : inode.growIndirect2 current total (whole.drop (usedSlots (inodeDirectCount + current))) d =
      .ok ((inode', rest), d')) :
    SameOutside (IndexBlock whole (usedSlots (inodeDirectCount + total))) d d' := by
  unfold growIndirect2 at ran
  by_cases short : total ≤ inodeIndirect1Count
  · rw [if_pos short] at ran
    cases ran
    exact .refl _ d
  rw [if_neg short] at ran
  have past : indirect1Bound < inodeDirectCount + total := by unfold indirect1Bound; omega
  have stop : streamSlot (current - inodeIndirect1Count +
      (total - inodeIndirect1Count - (current - inodeIndirect1Count))) = usedSlots (inodeDirectCount + total) := by
    rw [usedSlots_of_indirect2 past, show current - inodeIndirect1Count +
      (total - inodeIndirect1Count - (current - inodeIndirect1Count)) = inodeDirectCount + total - indirect1Bound by
        unfold indirect1Bound; omega]
  have slot2 : indirect2Slot < streamSlot (current - inodeIndirect1Count) :=
    Nat.lt_of_lt_of_le (indirect2Slot_lt 0) (streamSlot_mono (Nat.zero_le _))
  have within : streamSlot (current - inodeIndirect1Count) ≤ whole.length :=
    Nat.le_trans (streamSlot_mono (by omega)) (stop ▸ enough)
  -- after `// alloc indirect2` the stream stands at the first position of the loop
  have allocated : ∃ inode2, inode.allocIndirect2 current (whole.drop (usedSlots (inodeDirectCount + current))) =
      .ok (inode2, whole.drop (streamSlot (current - inodeIndirect1Count))) ∧
      inode2.indirect2 = whole.getD indirect2Slot 0 ∧
      Entries2 whole inode2.indirect2 d (streamSlot (current - inodeIndirect1Count)) := by
    unfold allocIndirect2
    by_cases first : current = inodeIndirect1Count
    · subst first
      have slot : usedSlots (inodeDirectCount + inodeIndirect1Count) = indirect2Slot := rfl
      rw [if_pos rfl, slot, nextBlock_drop (by omega), Nat.sub_self, streamSlot_zero]
      refine ⟨_, rfl, rfl, fun a _ below => absurd below ?_⟩
      rw [level2Slot_eq, indirect2Slot, indirect1Bound_eq]
      omega
    · have same : usedSlots (inodeDirectCount + current) = streamSlot (current - inodeIndirect1Count) := by
        rw [usedSlots_of_indirect2 (by unfold indirect1Bound; omega),
          show inodeDirectCount + current - indirect1Bound = current - inodeIndirect1Count by
            unfold indirect1Bound; omega]
      rw [same] at layout
      rw [if_neg first, same]
      refine ⟨inode, rfl, by rw [layout.indirect2, getD_take slot2], fun a small below => ?_⟩
      rw [layout.entries2 a small (by rw [length_take_of_le within]; exact below), getD_take below]
  obtain ⟨inode2, alloc, at2, entries⟩ := allocated
  have present : inode2.indirect2 < d.blocks := by
    rw [at2]
    exact (onDevice _ (getD_mem (by omega))).1
  rw [Foundation.bind_of_ok (Foundation.liftExcept_eq_ok.mpr ⟨alloc, rfl⟩)] at ran
  dsimp only at ran
  rw [Foundation.bind_of_ok (checkBlock_of_lt present)] at ran
  obtain ⟨ids, d₁, filled, back⟩ := Foundation.bind_eq_ok.mp ran
  cases back
  have same := fillIndirect2_frame nodup at2 _ d _ onDevice entries (by unfold inodeIndirect2Count at *; omega)
    (stop ▸ enough) filled
  rwa [stop] at same

/-- `// alloc indirect1`: the inode takes the `indirect1` block when it is first needed, and the
loop over its entries starts at the slot of entry `current - 28`, or past the entries. -/
theorem allocIndirect1_spec {current total : Nat} (layout : Layout inode d (whole.take (usedSlots current)))
    (reached : min total inodeDirectCount ≤ current) (behind : current ≤ total) (long : inodeDirectCount < total)
    (enough : usedSlots total ≤ whole.length) :
    ∃ inode2 k, inode.allocIndirect1 current (whole.drop (usedSlots current)) = .ok (inode2, whole.drop k) ∧
      Layout inode2 d (whole.take k) ∧ inodeDirectCount < k ∧ k ≤ whole.length ∧
      (current ≤ indirect1Bound → k = inodeDirectCount + 1 + (current - inodeDirectCount)) ∧
      (indirect1Bound < current → k = usedSlots current) := by
  have direct := inodeDirectCount_eq
  have bound := indirect1Bound_eq
  have fits : usedSlots current ≤ whole.length := Nat.le_trans (usedSlots_mono behind) enough
  have second : inodeDirectCount + 1 < whole.length := by
    have := usedSlots_mono (show inodeDirectCount + 1 ≤ total by omega)
    rw [usedSlots_of_indirect1 (by omega) (by omega)] at this
    omega
  unfold allocIndirect1
  by_cases first : current = inodeDirectCount
  · subst first
    have present : inodeDirectCount < whole.length := by omega
    rw [usedSlots_of_le_direct (Nat.le_refl _)] at layout ⊢
    have pushed := layout.push_indirect1 (whole.getD inodeDirectCount 0) (length_take_of_le (Nat.le_of_lt present))
    rw [← take_succ_getD present] at pushed
    rw [if_pos rfl, nextBlock_drop present]
    exact ⟨_, _, rfl, pushed, by omega, by omega, fun _ => by omega, fun past => absurd past (by omega)⟩
  · rw [if_neg first]
    refine ⟨inode, usedSlots current, rfl, layout, ?_, fits, fun low => ?_, fun _ => rfl⟩
    · have := usedSlots_mono (show inodeDirectCount + 1 ≤ current by omega)
      rw [usedSlots_of_indirect1 (by omega) (by omega)] at this
      omega
    · rw [usedSlots_of_indirect1 (by omega) low]
      omega

/-- Past the direct blocks, `increase_size` writes only the `indirect1` block, the `indirect2`
block and the second-level blocks of the slots it fills. -/
theorem growIndirect1_frame (nodup : whole.Nodup) (onDevice : ∀ id ∈ whole, id < d.blocks ∧ id < 2 ^ 32)
    {current total : Nat} (layout : Layout inode d (whole.take (usedSlots current)))
    (reached : min total inodeDirectCount ≤ current) (behind : current ≤ total) (bounded : total ≤ indirect2Bound)
    (enough : usedSlots total ≤ whole.length)
    (ran : inode.growIndirect1 current total (whole.drop (usedSlots current)) d = .ok ((inode', rest), d')) :
    SameOutside (IndexBlock whole (usedSlots total)) d d' := by
  have direct := inodeDirectCount_eq
  have entries := inodeIndirect1Count_eq
  have bound := indirect1Bound_eq
  have entries2 := inodeIndirect2Count_eq
  have bound2 := indirect2Bound_eq
  unfold growIndirect1 at ran
  by_cases short : total ≤ inodeDirectCount
  · rw [if_pos short] at ran
    cases ran
    exact .refl _ d
  rw [if_neg short] at ran
  obtain ⟨inode2, k, alloc, layout2, past, inside, low, high⟩ :=
    allocIndirect1_spec layout reached behind (by omega) enough
  have at1 : inode2.indirect1 = whole.getD inodeDirectCount 0 := by
    rw [layout2.indirect1, getD_take past]
  have present : inode2.indirect1 < d.blocks := at1 ▸ (onDevice _ (getD_mem (by omega))).1
  -- the `indirect1` block is the id of its slot, an index slot the file fills
  have index1 : IndexBlock whole (usedSlots total) inode2.indirect1 := by
    refine ⟨inodeDirectCount, ?_, fun j => (dataSlot_ne_index j 0).1, at1.symm⟩
    have := usedSlots_mono (show inodeDirectCount + 1 ≤ total by omega)
    rw [usedSlots_of_indirect1 (by omega) (by omega)] at this
    omega
  have stop : usedSlots (inodeDirectCount + (total - inodeDirectCount)) = usedSlots total := by
    rw [Nat.add_sub_cancel' (by omega)]
  rw [Foundation.bind_of_ok (Foundation.liftExcept_eq_ok.mpr ⟨alloc, rfl⟩)] at ran
  dsimp only at ran
  rw [Foundation.bind_of_ok (checkBlock_of_lt present)] at ran
  obtain ⟨ids, d₁, filled, ran⟩ := Foundation.bind_eq_ok.mp ran
  have same₁ := fillIndirect1_frame (fun p member => by
    have := List.mem_range'_1.mp member
    omega) filled
  -- the loop over `indirect1` leaves the stream where the rest of `increase_size` starts
  have rest : ∃ d₂, ids = whole.drop (usedSlots (inodeDirectCount +
      max (current - inodeDirectCount) (min (total - inodeDirectCount) inodeIndirect1Count))) ∧ d₁ = d₂ ∧
      Layout inode2 d₂ (whole.take (usedSlots (inodeDirectCount +
        max (current - inodeDirectCount) (min (total - inodeDirectCount) inodeIndirect1Count)))) ∧ d₂.blocks = d.blocks := by
    by_cases filling : current ≤ indirect1Bound
    · have next : k + (min (total - inodeDirectCount) inodeIndirect1Count - (current - inodeDirectCount)) =
          usedSlots (inodeDirectCount +
            max (current - inodeDirectCount) (min (total - inodeDirectCount) inodeIndirect1Count)) := by
        rw [low filling, usedSlots_of_indirect1 (by omega) (by omega)]
        omega
      obtain ⟨d₂, filled', layout1, blocks1⟩ := fillIndirect1_spec (fun id member => (onDevice id member).2)
        (min (total - inodeDirectCount) inodeIndirect1Count - (current - inodeDirectCount)) d
        (current - inodeDirectCount) k layout2 (low filling) (by omega)
        (by rw [next]; exact Nat.le_trans (usedSlots_mono (by omega)) enough)
      rw [next] at filled' layout1
      rw [filled'] at filled
      cases filled
      exact ⟨_, rfl, rfl, layout1, blocks1⟩
    · -- past the entries of `indirect1` its loop does not run
      have same : usedSlots (inodeDirectCount +
          max (current - inodeDirectCount) (min (total - inodeDirectCount) inodeIndirect1Count)) = k := by
        rw [high (Nat.lt_of_not_le filling)]
        congr 1
        omega
      rw [show min (total - inodeDirectCount) inodeIndirect1Count - (current - inodeDirectCount) = 0 by omega,
        List.range'_zero] at filled
      cases filled
      exact ⟨d, by rw [same], rfl, same ▸ layout2, rfl⟩
  obtain ⟨d₂, rfl, rfl, layout1, blocks1⟩ := rest
  have same₂ := growIndirect2_frame nodup (fun id member => blocks1 ▸ onDevice id member) layout1
    (by omega) (by omega) (by omega) (by rw [stop]; exact enough) ran
  rw [stop] at same₂
  exact (same₁.mono fun _ hit => hit ▸ index1).trans same₂

/-- `increase_size(new_size, ids)` writes only index blocks among the first
`total_blocks(new_size)` ids. -/
theorem increaseSize_frame {newSize : Nat} (nodup : whole.Nodup) (onDevice : ∀ id ∈ whole, id < d.blocks ∧ id < 2 ^ 32)
    (layout : Layout inode d (whole.take (totalBlocks inode.size))) (grows : inode.size ≤ newSize)
    (bounded : newSize ≤ indirect2Bound * blockSz) (enough : totalBlocks newSize ≤ whole.length)
    (ran : inode.increaseSize newSize (whole.drop (totalBlocks inode.size)) d = .ok ((inode', rest), d')) :
    SameOutside (IndexBlock whole (totalBlocks newSize)) d d' := by
  have more : dataBlocksOf inode.size ≤ dataBlocksOf newSize := Nat.div_le_div_right (by omega)
  have within := dataBlocksOf_le bounded
  rw [totalBlocks_eq] at layout enough ran ⊢
  obtain ⟨inode1, filled, layout1, -⟩ := fillDirect_phase (layout.setSize newSize) more
    (Nat.le_trans (usedSlots_mono (by omega)) enough)
  unfold increaseSize at ran
  simp only [dataBlocks] at ran
  rw [Foundation.bind_of_ok (Foundation.liftExcept_eq_ok.mpr ⟨filled, rfl⟩)] at ran
  exact growIndirect1_frame nodup onDevice layout1 (by omega) (by omega) within enough ran

/-! ### The type of a grown inode -/

theorem fillDirect_type {positions : List Nat} :
    ∀ {inode inode' : DiskInode} {ids rest : List Nat},
      inode.fillDirect ids positions = .ok (inode', rest) → inode'.type_ = inode.type_ := by
  induction positions with
  | nil =>
      intro inode inode' ids rest ran
      cases ran
      rfl
  | cons current positions ih =>
      intro inode inode' ids rest ran
      cases taken : nextBlock ids with
      | error err =>
          rw [fillDirect, taken] at ran
          cases ran
      | ok next =>
          obtain ⟨id, ids'⟩ := next
          rw [fillDirect, taken] at ran
          -- the expected type would fix the inode of `ih` before `ran` names it
          have kept := ih ran
          exact kept

theorem allocIndirect1_type {current : Nat} {ids : List Nat}
    (ran : inode.allocIndirect1 current ids = .ok (inode', rest)) : inode'.type_ = inode.type_ := by
  unfold allocIndirect1 at ran
  split at ran
  case isFalse => cases ran; rfl
  case isTrue =>
    cases taken : nextBlock ids with
    | error err => rw [taken] at ran; cases ran
    | ok next => rw [taken] at ran; cases ran; rfl

theorem allocIndirect2_type {current : Nat} {ids : List Nat}
    (ran : inode.allocIndirect2 current ids = .ok (inode', rest)) : inode'.type_ = inode.type_ := by
  unfold allocIndirect2 at ran
  split at ran
  case isFalse => cases ran; rfl
  case isTrue =>
    cases taken : nextBlock ids with
    | error err => rw [taken] at ran; cases ran
    | ok next => rw [taken] at ran; cases ran; rfl

theorem growIndirect2_type {current total : Nat} {ids : List Nat}
    (ran : inode.growIndirect2 current total ids d = .ok ((inode', rest), d')) : inode'.type_ = inode.type_ := by
  unfold growIndirect2 at ran
  split at ran
  case isTrue => cases ran; rfl
  case isFalse =>
    obtain ⟨⟨inode1, ids1⟩, d1, alloc, ran⟩ := Foundation.bind_eq_ok.mp ran
    obtain ⟨alloc, -⟩ := Foundation.liftExcept_eq_ok.mp alloc
    obtain ⟨u, d2, -, ran⟩ := Foundation.bind_eq_ok.mp ran
    obtain ⟨ids2, d3, -, done⟩ := Foundation.bind_eq_ok.mp ran
    cases done
    exact allocIndirect2_type alloc

theorem growIndirect1_type {current total : Nat} {ids : List Nat}
    (ran : inode.growIndirect1 current total ids d = .ok ((inode', rest), d')) : inode'.type_ = inode.type_ := by
  unfold growIndirect1 at ran
  split at ran
  case isTrue => cases ran; rfl
  case isFalse =>
    obtain ⟨⟨inode1, ids1⟩, d1, alloc, ran⟩ := Foundation.bind_eq_ok.mp ran
    obtain ⟨alloc, -⟩ := Foundation.liftExcept_eq_ok.mp alloc
    obtain ⟨u, d2, -, ran⟩ := Foundation.bind_eq_ok.mp ran
    obtain ⟨ids2, d3, -, ran⟩ := Foundation.bind_eq_ok.mp ran
    exact (growIndirect2_type ran).trans (allocIndirect1_type alloc)

/-- `increase_size` keeps the type of the inode. -/
theorem increaseSize_type {newSize : Nat} {ids : List Nat}
    (ran : inode.increaseSize newSize ids d = .ok ((inode', rest), d')) : inode'.type_ = inode.type_ := by
  unfold increaseSize at ran
  obtain ⟨⟨inode1, ids1⟩, d1, filled, ran⟩ := Foundation.bind_eq_ok.mp ran
  obtain ⟨filled, -⟩ := Foundation.liftExcept_eq_ok.mp filled
  have direct := fillDirect_type filled
  exact (growIndirect1_type ran).trans direct

end Grow

/-- The block of byte `i` of a file is the id at the slot of its data block. -/
theorem dataAddr_div {seq : List Nat} (i : Nat) : dataAddr seq i / blockSz = seq.getD (dataSlot (i / blockSz)) 0 := by
  have offset := Nat.mod_lt i (show 0 < blockSz by decide)
  unfold dataAddr byteAddr
  unfold blockSz at *
  omega

/-- Appending ids keeps the bytes of a file whose ids are the first ones. -/
theorem dataAddr_append {seq ids : List Nat} {size i : Nat} (counted : seq.length = totalBlocks size)
    (inside : i < size) : dataAddr (seq ++ ids) i = dataAddr seq i := by
  have slot : dataSlot (i / blockSz) < seq.length := by
    rw [counted, totalBlocks_eq]
    exact dataSlot_lt (div_lt_dataBlocksOf inside)
  unfold dataAddr
  rw [List.getD_append _ _ _ _ slot]

/-- Growing a sound inode with fresh ids: `increase_size(new_size, ids)` takes every id, leaves a
sound inode of `new_size` bytes, writes only its index blocks, and the contents are the old ones
followed by the bytes the new data blocks held. -/
theorem Sound.increaseSize {seq ids : List Nat} {newSize : Nat} (sound : Sound inode d seq) (fresh : (seq ++ ids).Nodup)
    (onDevice : ∀ id ∈ ids, id < d.blocks ∧ id < 2 ^ 32) (grows : inode.size ≤ newSize)
    (bounded : newSize ≤ indirect2Bound * blockSz) (needed : ids.length = totalBlocks newSize - totalBlocks inode.size) :
    ∃ inode' d', inode.increaseSize newSize ids d = .ok ((inode', []), d') ∧ inode'.size = newSize ∧
      Sound inode' d' (seq ++ ids) ∧
      inode'.content d' = inode.content d ++
        Foundation.gather d.bytes (fun k => dataAddr (seq ++ ids) (inode.size + k)) (newSize - inode.size) ∧
      SameOutside (IndexBlock (seq ++ ids) (totalBlocks newSize)) d d' := by
  have more := totalBlocks_mono grows
  have total : (seq ++ ids).length = totalBlocks newSize := by
    rw [List.length_append, sound.counted, needed]
    omega
  have onDevice' : ∀ id ∈ seq ++ ids, id < d.blocks ∧ id < 2 ^ 32 := by
    intro id member
    rcases List.mem_append.mp member with old | new
    · exact ⟨sound.onDevice id old, sound.small id old⟩
    · exact onDevice id new
  have held : (seq ++ ids).take (totalBlocks inode.size) = seq := List.take_left' sound.counted
  have handed : (seq ++ ids).drop (totalBlocks inode.size) = ids := List.drop_left' sound.counted
  obtain ⟨inode', d', ran, layout', size', blocks'⟩ :=
    increaseSize_spec fresh onDevice' (by rw [held]; exact sound.layout) grows bounded (Nat.le_of_eq total.symm)
  have frame := increaseSize_frame fresh onDevice' (by rw [held]; exact sound.layout) grows bounded
    (Nat.le_of_eq total.symm) ran
  rw [handed, ← total, List.drop_length] at ran
  rw [← total, List.take_length] at layout'
  have sound' : Sound inode' d' (seq ++ ids) :=
    ⟨layout', fresh, fun id member => blocks' ▸ (onDevice' id member).1, fun id member => (onDevice' id member).2,
      by rw [total, size'], size' ▸ bounded⟩
  -- no byte of a data block changes, so the new contents are read from the old device
  have kept : ∀ i < newSize, d'.bytes (dataAddr (seq ++ ids) i) = d.bytes (dataAddr (seq ++ ids) i) := by
    intro i inside
    refine frame.bytes_eq _ ?_
    rw [dataAddr_div]
    refine not_indexBlock_of_data fresh (Nat.le_of_eq total.symm) ?_
    rw [total, totalBlocks_eq]
    exact DiskInode.dataSlot_lt (div_lt_dataBlocksOf inside)
  refine ⟨inode', d', ran, size', sound', ?_, frame⟩
  have before : Foundation.gather d.bytes (dataAddr (seq ++ ids)) inode.size =
      Foundation.gather d.bytes (dataAddr seq) inode.size :=
    Foundation.gather_congr fun i inside => by rw [dataAddr_append sound.counted inside]
  rw [sound'.content_eq, sound.content_eq, size', Foundation.gather_congr kept,
    ← Nat.add_sub_cancel' grows, Foundation.gather_add, Nat.add_sub_cancel_left, before]

end DiskInode

end EasyFs

end RCore
