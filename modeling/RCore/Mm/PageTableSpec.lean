import RCore.Mm.PageTableMap

/-! # What the page-table operations do

The operations of `PageTable` on a table the kernel owns (`RCore.PageTable.Valid`: a machine
that keeps its invariant, a well-formed table, and every frame of the table allocated). Every
operation may take fresh frames for new nodes and writes only inside the table's frames
(`RCore.PageTable.Grows`, reflexive and transitive). Beyond that:

* `find_pte_create` changes no mapping and returns the leaf entry of the page number
  (`RCore.PageTable.findPteCreate_spec`);
* `map` succeeds exactly on an unmapped page number and maps every page number with its
  index (`RCore.PageTable.map_spec`); it fails only on frame exhaustion or on a mapped page
  (`RCore.PageTable.map_eq_error_spec`);
* `unmap` is the converse (`RCore.PageTable.unmap_spec`);
* `new` gives a table with no mapping (`RCore.PageTable.new_spec`).
-/

namespace RCore

namespace PageTable

/-- A table the kernel owns in machine `m`. -/
structure Valid (pt : PageTable) (m : Machine) : Prop where
  machine : m.Inv
  wellFormed : pt.WellFormed m.mem
  allocated : ∀ ppn ∈ pt.frames, m.frameAllocator.Allocated ppn

/-- How a page-table operation may change the machine besides its own effect: it takes the
fresh frames `fresh` from the allocator as new nodes, and writes only inside the frames of
the table. -/
structure Grows (pt : PageTable) (m : Machine) (fresh : List PhysPageNum) (pt' : PageTable)
    (m' : Machine) : Prop where
  root_eq : pt'.rootPpn = pt.rootPpn
  frames_eq : pt'.frames = pt.frames ++ fresh
  fresh_not_allocated : ∀ ppn ∈ fresh, ¬ m.frameAllocator.Allocated ppn
  allocated_iff : ∀ ppn, m'.frameAllocator.Allocated ppn ↔ m.frameAllocator.Allocated ppn ∨ ppn ∈ fresh
  freeFrames_eq : m'.frameAllocator.freeFrames + fresh.length = m.frameAllocator.freeFrames
  mem_eq : ∀ addr, (∀ ppn ∈ pt'.frames, ¬ ppn.Covers addr) → m'.mem addr = m.mem addr

variable {pt pt' pt'' : PageTable} {m m' m'' : Machine} {fresh fresh' : List PhysPageNum}

theorem Grows.refl (pt : PageTable) (m : Machine) : pt.Grows m [] pt m :=
  ⟨rfl, (List.append_nil _).symm, fun _ absent => absurd absent List.not_mem_nil,
    fun _ => by simp, rfl, fun _ _ => rfl⟩

theorem Grows.trans (first : pt.Grows m fresh pt' m') (second : pt'.Grows m' fresh' pt'' m'') :
    pt.Grows m (fresh ++ fresh') pt'' m'' := by
  refine ⟨second.root_eq.trans first.root_eq, by rw [second.frames_eq, first.frames_eq,
    List.append_assoc], ?_, ?_, ?_, ?_⟩
  · intro ppn member
    rcases List.mem_append.mp member with early | late
    · exact first.fresh_not_allocated ppn early
    · exact fun allocated => second.fresh_not_allocated ppn late
        ((first.allocated_iff ppn).mpr (.inl allocated))
  · intro ppn
    rw [second.allocated_iff, first.allocated_iff, List.mem_append, or_assoc]
  · have later := second.freeFrames_eq
    have earlier := first.freeFrames_eq
    rw [List.length_append]
    omega
  · intro addr outside
    rw [second.mem_eq addr outside]
    apply first.mem_eq addr
    intro ppn owned
    exact outside ppn (by rw [second.frames_eq]; exact List.mem_append_left _ owned)

/-- A table that grew in a well-kept machine is still owned by it. -/
theorem Grows.valid (grown : pt.Grows m fresh pt' m') (valid : pt.Valid m) (inv : m'.Inv)
    (wf : pt'.WellFormed m'.mem) : pt'.Valid m' := by
  refine ⟨inv, wf, fun ppn owned => (grown.allocated_iff ppn).mpr ?_⟩
  rw [grown.frames_eq] at owned
  rcases List.mem_append.mp owned with old | new
  · exact .inl (valid.allocated ppn old)
  · exact .inr new

/-- A write into one entry of a table's node grows nothing. -/
theorem Grows.writePte (valid : pt.Valid m) {node : PhysPageNum} (owned : node ∈ pt.frames) {idx : Nat}
    (inside : idx < 512) (pte : PageTableEntry) :
    pt.Grows m [] pt { m with mem := RCore.writePte m.mem node idx pte } :=
  ⟨rfl, (List.append_nil _).symm, fun _ absent => absurd absent List.not_mem_nil, fun _ => by simp,
    rfl, fun _ outside => writePte_apply_of_not_covers _
      (valid.wellFormed.frames_lt node owned) inside pte (outside node owned)⟩

/-- A frame handed out by the allocator of a valid machine is not one of the table's. -/
theorem Valid.not_mem_of_alloc (valid : pt.Valid m) {frame : PhysPageNum}
    (fresh : ¬ m.frameAllocator.Allocated frame) : frame ∉ pt.frames :=
  fun owned => fresh (valid.allocated frame owned)

theorem frame_lt_of_alloc {frame : PhysPageNum} (below : frame.val < memoryEnd / pageSize) :
    frame.val < 2 ^ 44 := by
  simp only [memoryEnd, pageSize] at below
  omega

theorem installNode_apply_of_not_covers {mem : Nat → UInt8} {ppn : PhysPageNum} (small : ppn.val < 2 ^ 44)
    {idx : Nat} (inside : idx < 512) {frame : PhysPageNum} {addr : Nat} (notNode : ¬ ppn.Covers addr)
    (notFrame : ¬ frame.Covers addr) : installNode mem ppn idx frame addr = mem addr := by
  rw [installNode, writePte_apply_of_not_covers _ small inside _ notNode,
    zeroFrame_apply_of_not_covers notFrame]

/-- The machine after a step of `find_pte_create` installed `frame` behind entry `idx` of
`node`: the table grew by that frame. -/
theorem Grows.install (valid : pt.Valid m) {node : PhysPageNum} (owned : node ∈ pt.frames)
    {idx : Nat} (inside : idx < 512) {frame : PhysPageNum} {mid : Machine}
    (allocated : frameAllocUnwrap m = .ok (frame, mid)) :
    pt.Grows m [frame] { pt with frames := pt.frames ++ [frame] }
      { mid with mem := RCore.writePte mid.mem node idx (.new frame PTEFlags.V) } ∧
      mid.Inv ∧ frame ∉ pt.frames ∧ frame.val < 2 ^ 44 ∧
      RCore.writePte mid.mem node idx (.new frame PTEFlags.V) = installNode m.mem node idx frame := by
  obtain ⟨notAllocated, below, inv, allocatedIff, fewer, zeroed⟩ :=
    frameAllocUnwrap_spec valid.machine allocated
  have small := frame_lt_of_alloc below
  have memEq : RCore.writePte mid.mem node idx (.new frame PTEFlags.V) = installNode m.mem node idx frame := by
    rw [zeroed]
    rfl
  refine ⟨⟨rfl, rfl, ?_, ?_, fewer, ?_⟩, inv, valid.not_mem_of_alloc notAllocated, small, memEq⟩
  · intro ppn single
    rw [List.mem_singleton.mp single]
    exact notAllocated
  · intro ppn
    rw [allocatedIff, List.mem_singleton]
  · intro addr outside
    show RCore.writePte mid.mem node idx _ addr = m.mem addr
    rw [memEq]
    exact installNode_apply_of_not_covers (valid.wellFormed.frames_lt node owned) inside
      (outside node (List.mem_append_left _ owned))
      (outside frame (List.mem_append_right _ (List.mem_singleton_self _)))

variable {vpn : VirtPageNum} {ppn next node : PhysPageNum} {flags : PTEFlags} {e : Panic}

/-- The root-level step of `find_pte_create`: the level-1 node behind `idx0`, created if
missing; no translation changes. -/
theorem descendCreate_root_spec (valid : pt.Valid m) {idx0 : Nat} (inside : idx0 < 512)
    (ran : pt.descendCreate pt.rootPpn idx0 m = .ok ((next, pt'), m')) :
    ∃ fresh, pt.Grows m fresh pt' m' ∧ fresh.length ≤ 1 ∧ pt'.Valid m' ∧
      pt'.node1 m'.mem idx0 = some next ∧ ∀ vpn, pt'.translate m'.mem vpn = pt.translate m.mem vpn := by
  rcases descendCreate_eq_ok ran with ⟨found, rfl, rfl⟩ | ⟨vacant, frame, mid, allocated, rfl, rfl, rfl⟩
  · exact ⟨[], Grows.refl _ _, by simp, valid, found, fun _ => rfl⟩
  · obtain ⟨grown, inv, notMem, small, memEq⟩ :=
      Grows.install valid valid.wellFormed.root_mem inside allocated
    have wf := wellFormed_installRoot valid.wellFormed notMem small inside vacant
    refine ⟨[frame], grown, by simp, grown.valid valid (inv.setMem _) (by dsimp only; rw [memEq]; exact wf), ?_, ?_⟩
    · dsimp only
      rw [node1_withFrames, memEq, node1_installRoot valid.wellFormed notMem small inside inside,
        if_pos rfl, PageTableEntry.ppn_new small]
    · intro vpn
      dsimp only
      rw [translate_withFrames, memEq]
      exact translate_installRoot valid.wellFormed notMem small inside vacant vpn

/-- The level-1 step of `find_pte_create`: the leaf node behind `(idx0, idx1)`, created if
missing; no mapping changes. -/
theorem descendCreate_node1_spec (valid : pt.Valid m) {idx0 idx1 : Nat} (inside0 : idx0 < 512)
    (inside1 : idx1 < 512) {upper : PhysPageNum} (above : pt.node1 m.mem idx0 = some upper)
    (ran : pt.descendCreate upper idx1 m = .ok ((next, pt'), m')) :
    ∃ fresh, pt.Grows m fresh pt' m' ∧ fresh.length ≤ 1 ∧ pt'.Valid m' ∧
      pt'.node2 m'.mem idx0 idx1 = some next ∧ ∀ vpn, pt'.mapping m'.mem vpn = pt.mapping m.mem vpn := by
  have ownedUpper := (valid.wellFormed.node1_mem inside0 above).1
  rcases descendCreate_eq_ok ran with ⟨found, rfl, rfl⟩ | ⟨vacant, frame, mid, allocated, rfl, rfl, rfl⟩
  · refine ⟨[], Grows.refl _ _, by simp, valid, ?_, fun _ => rfl⟩
    rw [node2, above, Option.bind_some, found]
  · obtain ⟨grown, inv, notMem, small, memEq⟩ := Grows.install valid ownedUpper inside1 allocated
    have vacant2 : pt.node2 m.mem idx0 idx1 = none := by rw [node2, above, Option.bind_some, vacant]
    have wf := wellFormed_installNode1 valid.wellFormed notMem small inside0 inside1 above
    refine ⟨[frame], grown, by simp, grown.valid valid (inv.setMem _) (by dsimp only; rw [memEq]; exact wf), ?_, ?_⟩
    · dsimp only
      rw [node2_withFrames, memEq, node2_installNode1 valid.wellFormed notMem small inside0 inside1
        above inside0 inside1, if_pos ⟨rfl, rfl⟩, PageTableEntry.ppn_new small]
    · intro vpn
      dsimp only
      rw [mapping_withFrames, memEq]
      exact mapping_installNode1 valid.wellFormed notMem small inside0 inside1 above vacant2 vpn

/-- `find_pte_create` reaches the leaf entry of `vpn`, creating at most two nodes, and changes
no mapping. -/
theorem findPteCreate_spec (valid : pt.Valid m) {idx : Nat}
    (ran : pt.findPteCreate vpn m = .ok (((node, idx), pt'), m')) :
    ∃ fresh, pt.Grows m fresh pt' m' ∧ fresh.length ≤ 2 ∧ pt'.Valid m' ∧
      pt'.node2 m'.mem vpn.indexes.1 vpn.indexes.2.1 = some node ∧ idx = vpn.indexes.2.2 ∧
      ∀ v, pt'.mapping m'.mem v = pt.mapping m.mem v := by
  obtain ⟨inside0, inside1, -⟩ := VirtPageNum.indexes_lt vpn
  obtain ⟨node1, midTable, mid, first, second, rfl⟩ := findPteCreate_eq_ok ran
  obtain ⟨fresh1, grown1, few1, valid1, reached1, translated⟩ :=
    descendCreate_root_spec valid inside0 first
  obtain ⟨fresh2, grown2, few2, valid2, reached2, mapped⟩ :=
    descendCreate_node1_spec valid1 inside0 inside1 reached1 second
  refine ⟨fresh1 ++ fresh2, grown1.trans grown2, by rw [List.length_append]; omega, valid2, reached2,
    rfl, fun v => ?_⟩
  rw [mapped, mapping, mapping, translated]

/-- The leaf entry `find_pte_create` returns is valid exactly when the page number was mapped. -/
theorem isValid_of_findPteCreate (valid : pt.Valid m) {idx : Nat}
    (ran : pt.findPteCreate vpn m = .ok (((node, idx), pt'), m')) :
    (readPte m'.mem node idx).isValid = (pt.mapping m.mem vpn).isSome := by
  obtain ⟨fresh, -, -, -, reached, rfl, mapped⟩ := findPteCreate_spec valid ran
  rw [← mapped, mapping, translate_eq, reached, Option.map_some, Option.filter_some]
  cases (readPte m'.mem node vpn.indexes.2.2).isValid <;> rfl

/-- `map` succeeds only on an unmapped page number, and then maps every page number with the
same index to the new entry. -/
theorem map_spec (valid : pt.Valid m) (ran : pt.map vpn ppn flags m = .ok (pt', m')) :
    ∃ fresh, pt.Grows m fresh pt' m' ∧ fresh.length ≤ 2 ∧ pt'.Valid m' ∧ pt.mapping m.mem vpn = none ∧
      ∀ v, pt'.mapping m'.mem v =
        if v.indexes = vpn.indexes then some (.new ppn (flags ||| PTEFlags.V)) else pt.mapping m.mem v := by
  obtain ⟨node, idx, mid, found, invalid, rfl⟩ := map_eq_ok ran
  have wasMapped := isValid_of_findPteCreate valid found
  obtain ⟨fresh, grown, few, valid1, reached, rfl, mapped⟩ := findPteCreate_spec valid found
  obtain ⟨inside0, inside1, inside2⟩ := VirtPageNum.indexes_lt vpn
  have owned := (valid1.wellFormed.node2_mem inside0 inside1 reached).1
  have grownWrite := Grows.writePte valid1 owned inside2 (.new ppn (flags ||| PTEFlags.V))
  have wf := wellFormed_writeLeaf valid1.wellFormed inside0 inside1 inside2 reached
    (.new ppn (flags ||| PTEFlags.V))
  refine ⟨fresh ++ [], grown.trans grownWrite, by simpa using few,
    grownWrite.valid valid1 (valid1.machine.setMem _) wf, ?_, fun v => ?_⟩
  · rw [invalid] at wasMapped
    exact Option.not_isSome_iff_eq_none.mp (by rw [← wasMapped]; decide)
  · have eta : (vpn.indexes.1, vpn.indexes.2.1, vpn.indexes.2.2) = vpn.indexes := rfl
    rw [mapping, translate_writeLeaf valid1.wellFormed inside0 inside1 inside2 reached _
      (PageTableEntry.new_bits_lt _ _) v, eta]
    split
    case isTrue => rw [Option.filter_some, PageTableEntry.isValid_new_or_V, if_pos rfl]
    case isFalse => rw [← mapped v, mapping]

/-- `map` panics only when a frame for a node is missing, or when the page number is mapped. -/
theorem map_eq_error_spec (valid : pt.Valid m) (failed : pt.map vpn ppn flags m = .error e) :
    (e = .frameExhausted ∧ m.frameAllocator.freeFrames < 2) ∨
      (e = .mappedBeforeMapping vpn.val ∧ (pt.mapping m.mem vpn).isSome) := by
  rcases map_eq_error failed with bad | ⟨node, idx, table, mid, found, isValid, rfl⟩
  · rcases findPteCreate_eq_error bad with first | ⟨node1, midTable, mid, first, second⟩
    · have := frameAllocUnwrap_eq_error (descendCreate_eq_error first).2
      exact .inl ⟨this.1, by omega⟩
    · have exhausted := frameAllocUnwrap_eq_error (descendCreate_eq_error second).2
      obtain ⟨inside0, -, -⟩ := VirtPageNum.indexes_lt vpn
      obtain ⟨fresh1, grown1, few1, -⟩ := descendCreate_root_spec valid inside0 first
      have spent := grown1.freeFrames_eq
      exact .inl ⟨exhausted.1, by omega⟩
  · exact .inr ⟨rfl, by rw [← isValid_of_findPteCreate valid found, isValid]⟩

/-- `unmap` succeeds only on a mapped page number, and then unmaps every page number with the
same index. -/
theorem unmap_spec (valid : pt.Valid m) (ran : pt.unmap vpn m = .ok (pt', m')) :
    ∃ fresh, pt.Grows m fresh pt' m' ∧ fresh.length ≤ 2 ∧ pt'.Valid m' ∧ (pt.mapping m.mem vpn).isSome ∧
      ∀ v, pt'.mapping m'.mem v = if v.indexes = vpn.indexes then none else pt.mapping m.mem v := by
  obtain ⟨node, idx, mid, found, isValid, rfl⟩ := unmap_eq_ok ran
  have wasMapped := isValid_of_findPteCreate valid found
  obtain ⟨fresh, grown, few, valid1, reached, rfl, mapped⟩ := findPteCreate_spec valid found
  obtain ⟨inside0, inside1, inside2⟩ := VirtPageNum.indexes_lt vpn
  have owned := (valid1.wellFormed.node2_mem inside0 inside1 reached).1
  have grownWrite := Grows.writePte valid1 owned inside2 .empty
  have wf := wellFormed_writeLeaf valid1.wellFormed inside0 inside1 inside2 reached .empty
  refine ⟨fresh ++ [], grown.trans grownWrite, by simpa using few,
    grownWrite.valid valid1 (valid1.machine.setMem _) wf, by rw [← wasMapped, isValid], fun v => ?_⟩
  have eta : (vpn.indexes.1, vpn.indexes.2.1, vpn.indexes.2.2) = vpn.indexes := rfl
  rw [mapping, translate_writeLeaf valid1.wellFormed inside0 inside1 inside2 reached _
    (by decide) v, eta]
  split
  case isTrue => rw [Option.filter_some, PageTableEntry.isValid_empty]; rfl
  case isFalse => rw [← mapped v, mapping]

/-- `unmap` panics only when a frame for a node is missing, or when the page number is
unmapped. -/
theorem unmap_eq_error_spec (valid : pt.Valid m) (failed : pt.unmap vpn m = .error e) :
    (e = .frameExhausted ∧ m.frameAllocator.freeFrames < 2) ∨
      (e = .invalidBeforeUnmapping vpn.val ∧ pt.mapping m.mem vpn = none) := by
  rcases unmap_eq_error failed with bad | ⟨node, idx, table, mid, found, invalid, rfl⟩
  · rcases findPteCreate_eq_error bad with first | ⟨node1, midTable, mid, first, second⟩
    · have := frameAllocUnwrap_eq_error (descendCreate_eq_error first).2
      exact .inl ⟨this.1, by omega⟩
    · have exhausted := frameAllocUnwrap_eq_error (descendCreate_eq_error second).2
      obtain ⟨inside0, -, -⟩ := VirtPageNum.indexes_lt vpn
      obtain ⟨fresh1, grown1, few1, -⟩ := descendCreate_root_spec valid inside0 first
      have spent := grown1.freeFrames_eq
      exact .inl ⟨exhausted.1, by omega⟩
  · have wasMapped := isValid_of_findPteCreate valid found
    rw [invalid] at wasMapped
    exact .inr ⟨rfl, Option.not_isSome_iff_eq_none.mp (by rw [← wasMapped]; decide)⟩

/-- `PageTable::new` takes one zeroed frame as the root of a table that maps nothing. -/
theorem new_spec (inv : m.Inv) (ran : PageTable.new m = .ok (pt, m')) :
    pt.Valid m' ∧ pt.frames = [pt.rootPpn] ∧ ¬ m.frameAllocator.Allocated pt.rootPpn ∧
      (∀ q, m'.frameAllocator.Allocated q ↔ m.frameAllocator.Allocated q ∨ q = pt.rootPpn) ∧
      m'.frameAllocator.freeFrames + 1 = m.frameAllocator.freeFrames ∧
      m'.mem = zeroFrame m.mem pt.rootPpn ∧ ∀ vpn, pt.mapping m'.mem vpn = none := by
  obtain ⟨allocated, single⟩ := new_eq_ok ran
  obtain ⟨fresh, below, inv', allocatedIff, fewer, zeroed⟩ := frameAllocUnwrap_spec inv allocated
  have small := frame_lt_of_alloc below
  -- every entry of the zeroed root is invalid, so the walk stops at once
  have empty : ∀ idx < 512, pt.node1 m'.mem idx = none := fun idx inside => by
    rw [node1, zeroed]
    exact nextNode_zeroFrame_self m.mem small inside
  have empty2 : ∀ idx0 < 512, ∀ idx1, pt.node2 m'.mem idx0 idx1 = none := fun idx0 inside idx1 => by
    rw [node2, empty idx0 inside, Option.bind_none]
  have wf : pt.WellFormed m'.mem := by
    refine ⟨by simp [single], by simp [single], fun q owned => ?_, ?_, ?_, ?_, ?_⟩
    · rw [single, List.mem_singleton.mp owned] at *
      exact small
    · intro idx0 node inside reached
      simp [empty idx0 inside] at reached
    · intro idx0 idx1 node inside0 _ reached
      simp [empty2 idx0 inside0] at reached
    · intro idx0 idx0' node inside _ reached
      simp [empty idx0 inside] at reached
    · intro idx0 idx1 idx0' idx1' node inside0 _ _ _ reached
      simp [empty2 idx0 inside0] at reached
  refine ⟨⟨inv', wf, ?_⟩, single, fresh, allocatedIff, fewer, zeroed, fun vpn => ?_⟩
  · intro q owned
    rw [single, List.mem_singleton] at owned
    exact (allocatedIff q).mpr (.inr owned)
  · obtain ⟨inside0, -, -⟩ := VirtPageNum.indexes_lt vpn
    rw [mapping, translate_eq, empty2 _ inside0, Option.map_none]
    rfl

end PageTable

end RCore
