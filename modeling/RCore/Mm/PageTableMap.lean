import RCore.Mm.PageTable

/-! # A well-formed page table is a finite map

A `PageTable` in physical memory denotes a partial map from virtual page numbers to valid
leaf entries (`RCore.PageTable.mapping`). Sv39 reads only the low 27 bits of a page number,
so two page numbers that agree there always have the same mapping
(`RCore.PageTable.mapping_eq_of_indexes_eq`).

The walk from the root reaches the level-1 nodes `node1 idx0` and the leaf nodes
`node2 idx0 idx1`. The table is well formed (`RCore.PageTable.WellFormed`) when every node
it reaches is one of its own frames, the root and the nodes of the two lower levels are
pairwise distinct frames, and distinct paths reach distinct nodes. Then

* memory outside the table's frames is irrelevant to it (`RCore.PageTable.wellFormed_congr`,
  `RCore.PageTable.translate_congr`);
* writing a leaf entry changes the mapping at exactly the page numbers of that entry's index
  (`RCore.PageTable.mapping_writeLeaf`);
* giving an invalid upper entry a fresh zeroed node keeps the table well formed and changes no
  mapping (`RCore.PageTable.install_root`, `RCore.PageTable.install_node1`).
-/

namespace RCore

namespace PageTable

variable {pt : PageTable} {mem mem' : Nat → UInt8}

/-- The level-1 node behind entry `idx0` of the root. -/
def node1 (pt : PageTable) (mem : Nat → UInt8) (idx0 : Nat) : Option PhysPageNum :=
  nextNode mem pt.rootPpn idx0

/-- The leaf node behind entry `idx1` of the level-1 node `node1 idx0`. -/
def node2 (pt : PageTable) (mem : Nat → UInt8) (idx0 idx1 : Nat) : Option PhysPageNum :=
  (pt.node1 mem idx0).bind fun node => nextNode mem node idx1

/-- The valid leaf entry of `vpn`, the translation the MMU would use. -/
def mapping (pt : PageTable) (mem : Nat → UInt8) (vpn : VirtPageNum) : Option PageTableEntry :=
  (pt.translate mem vpn).filter PageTableEntry.isValid

theorem translate_of_mapping {vpn : VirtPageNum} {pte : PageTableEntry} (mapped : pt.mapping mem vpn = some pte) :
    pt.translate mem vpn = some pte := by
  unfold mapping at mapped
  cases found : pt.translate mem vpn with
  | none => simp [found] at mapped
  | some entry =>
      rw [found, Option.filter_some] at mapped
      split at mapped
      · exact mapped
      · cases mapped

theorem findPte_eq (vpn : VirtPageNum) :
    pt.findPte mem vpn = (pt.node2 mem vpn.indexes.1 vpn.indexes.2.1).map (·, vpn.indexes.2.2) := by
  unfold findPte node2 node1
  generalize vpn.indexes = idx
  obtain ⟨idx0, idx1, idx2⟩ := idx
  dsimp only
  cases nextNode mem pt.rootPpn idx0 <;> rfl

theorem translate_eq (vpn : VirtPageNum) :
    pt.translate mem vpn =
      (pt.node2 mem vpn.indexes.1 vpn.indexes.2.1).map (readPte mem · vpn.indexes.2.2) := by
  simp only [translate, findPte_eq, Option.map_map]
  rfl

/-- Only the 27-bit index of a page number matters. -/
theorem translate_eq_of_indexes_eq {vpn vpn' : VirtPageNum} (same : vpn.indexes = vpn'.indexes) :
    pt.translate mem vpn = pt.translate mem vpn' := by
  rw [translate_eq, translate_eq, same]

theorem mapping_eq_of_indexes_eq {vpn vpn' : VirtPageNum} (same : vpn.indexes = vpn'.indexes) :
    pt.mapping mem vpn = pt.mapping mem vpn' := by
  rw [mapping, mapping, translate_eq_of_indexes_eq same]

theorem VirtPageNum.indexes_lt (vpn : VirtPageNum) :
    vpn.indexes.1 < 512 ∧ vpn.indexes.2.1 < 512 ∧ vpn.indexes.2.2 < 512 := by
  rw [VirtPageNum.indexes_eq]
  exact ⟨Nat.mod_lt _ (by decide), Nat.mod_lt _ (by decide), Nat.mod_lt _ (by decide)⟩

/-- The shape of a table built by `new` and `find_pte_create`: its nodes are its own frames,
no frame serves two nodes, and distinct paths reach distinct nodes. -/
structure WellFormed (pt : PageTable) (mem : Nat → UInt8) : Prop where
  root_mem : pt.rootPpn ∈ pt.frames
  frames_nodup : pt.frames.Nodup
  frames_lt : ∀ ppn ∈ pt.frames, ppn.val < 2 ^ 44
  node1_mem : ∀ {idx0 node}, idx0 < 512 → pt.node1 mem idx0 = some node →
    node ∈ pt.frames ∧ node ≠ pt.rootPpn
  node2_mem : ∀ {idx0 idx1 node}, idx0 < 512 → idx1 < 512 → pt.node2 mem idx0 idx1 = some node →
    node ∈ pt.frames ∧ node ≠ pt.rootPpn ∧ ∀ idx < 512, pt.node1 mem idx ≠ some node
  node1_inj : ∀ {idx0 idx0' node}, idx0 < 512 → idx0' < 512 → pt.node1 mem idx0 = some node →
    pt.node1 mem idx0' = some node → idx0 = idx0'
  node2_inj : ∀ {idx0 idx1 idx0' idx1' node}, idx0 < 512 → idx1 < 512 → idx0' < 512 →
    idx1' < 512 → pt.node2 mem idx0 idx1 = some node → pt.node2 mem idx0' idx1' = some node →
    idx0 = idx0' ∧ idx1 = idx1'

theorem nextNode_writePte_of_ne (mem : Nat → UInt8) {ppn ppn' : PhysPageNum} {idx idx' : Nat}
    (pte : PageTableEntry) (small : ppn.val < 2 ^ 44) (small' : ppn'.val < 2 ^ 44)
    (inside : idx < 512) (inside' : idx' < 512) (apart : ppn ≠ ppn' ∨ idx ≠ idx') :
    nextNode (writePte mem ppn idx pte) ppn' idx' = nextNode mem ppn' idx' := by
  rw [nextNode, nextNode, readPte_writePte_of_ne mem pte small small' inside inside' apart]

/-- An entry set to `PageTableEntry::new(frame, PTEFlags::V)` leads to `frame`. -/
theorem nextNode_writePte_new (mem : Nat → UInt8) (ppn : PhysPageNum) (idx : Nat)
    {frame : PhysPageNum} (small : frame.val < 2 ^ 44) :
    nextNode (writePte mem ppn idx (.new frame PTEFlags.V)) ppn idx = some frame := by
  have valid : (PageTableEntry.new frame PTEFlags.V).isValid = true := by
    rw [PageTableEntry.isValid_new]
    decide
  rw [nextNode, readPte_writePte_self _ _ _ (PageTableEntry.new_bits_lt _ _), if_pos valid,
    PageTableEntry.ppn_new small]

/-- A zeroed node leads nowhere. -/
theorem nextNode_zeroFrame_self (mem : Nat → UInt8) {ppn : PhysPageNum} (small : ppn.val < 2 ^ 44)
    {idx : Nat} (inside : idx < 512) : nextNode (zeroFrame mem ppn) ppn idx = none := by
  rw [nextNode, readPte_zeroFrame_self mem small inside, PageTableEntry.isValid_empty]
  rfl

/-- A well-formed table stays well formed in a memory that reaches the same nodes. -/
theorem WellFormed.of_nodes (wf : pt.WellFormed mem)
    (same1 : ∀ {idx0}, idx0 < 512 → pt.node1 mem' idx0 = pt.node1 mem idx0)
    (same2 : ∀ {idx0 idx1}, idx0 < 512 → idx1 < 512 → pt.node2 mem' idx0 idx1 = pt.node2 mem idx0 idx1) :
    pt.WellFormed mem' := by
  refine ⟨wf.root_mem, wf.frames_nodup, wf.frames_lt, ?_, ?_, ?_, ?_⟩
  · intro idx0 node inside reached
    exact wf.node1_mem inside (same1 inside ▸ reached)
  · intro idx0 idx1 node inside0 inside1 reached
    obtain ⟨owned, notRoot, notNode1⟩ := wf.node2_mem inside0 inside1 (same2 inside0 inside1 ▸ reached)
    exact ⟨owned, notRoot, fun idx below => same1 below ▸ notNode1 idx below⟩
  · intro idx0 idx0' node inside inside' reached reached'
    exact wf.node1_inj inside inside' (same1 inside ▸ reached) (same1 inside' ▸ reached')
  · intro idx0 idx1 idx0' idx1' node inside0 inside1 inside0' inside1' reached reached'
    exact wf.node2_inj inside0 inside1 inside0' inside1' (same2 inside0 inside1 ▸ reached)
      (same2 inside0' inside1' ▸ reached')

/-- `mem'` holds the bytes of `mem` in every frame of `frames`. -/
def SameOn (frames : List PhysPageNum) (mem mem' : Nat → UInt8) : Prop :=
  ∀ ppn ∈ frames, ∀ addr, ppn.Covers addr → mem' addr = mem addr

section Congr

variable (wf : pt.WellFormed mem) (same : SameOn pt.frames mem mem')
include wf same

theorem nextNode_congr {ppn : PhysPageNum} (owned : ppn ∈ pt.frames) {idx : Nat} (inside : idx < 512) :
    nextNode mem' ppn idx = nextNode mem ppn idx := by
  have read : readPte mem' ppn idx = readPte mem ppn idx :=
    readPte_congr (wf.frames_lt ppn owned) inside fun addr covered => same ppn owned addr covered
  rw [nextNode, nextNode, read]

theorem node1_congr {idx0 : Nat} (inside : idx0 < 512) : pt.node1 mem' idx0 = pt.node1 mem idx0 :=
  nextNode_congr wf same wf.root_mem inside

theorem node2_congr {idx0 idx1 : Nat} (inside0 : idx0 < 512) (inside1 : idx1 < 512) :
    pt.node2 mem' idx0 idx1 = pt.node2 mem idx0 idx1 := by
  unfold node2
  rw [node1_congr wf same inside0]
  cases reached : pt.node1 mem idx0 with
  | none => rfl
  | some node => exact nextNode_congr wf same (wf.node1_mem inside0 reached).1 inside1

/-- A well-formed table stays well formed under any change of memory outside its frames. -/
theorem wellFormed_congr : pt.WellFormed mem' :=
  wf.of_nodes (node1_congr wf same) (node2_congr wf same)

theorem translate_congr (vpn : VirtPageNum) : pt.translate mem' vpn = pt.translate mem vpn := by
  obtain ⟨inside0, inside1, inside2⟩ := VirtPageNum.indexes_lt vpn
  rw [translate_eq, translate_eq, node2_congr wf same inside0 inside1]
  cases reached : pt.node2 mem vpn.indexes.1 vpn.indexes.2.1 with
  | none => rfl
  | some node =>
      have owned := (wf.node2_mem inside0 inside1 reached).1
      simp only [Option.map_some, Option.some.injEq]
      exact readPte_congr (wf.frames_lt node owned) inside2 fun addr covered =>
        same node owned addr covered

theorem mapping_congr (vpn : VirtPageNum) : pt.mapping mem' vpn = pt.mapping mem vpn := by
  rw [mapping, mapping, translate_congr wf same]

end Congr

section WriteLeaf

variable (wf : pt.WellFormed mem) {idx0 idx1 idx2 : Nat} {node : PhysPageNum}
  (inside0 : idx0 < 512) (inside1 : idx1 < 512) (inside2 : idx2 < 512)
  (reached : pt.node2 mem idx0 idx1 = some node) (pte : PageTableEntry)
include wf inside0 inside1 inside2 reached

theorem node1_writeLeaf {idx : Nat} (inside : idx < 512) :
    pt.node1 (writePte mem node idx2 pte) idx = pt.node1 mem idx := by
  obtain ⟨owned, notRoot, -⟩ := wf.node2_mem inside0 inside1 reached
  exact nextNode_writePte_of_ne mem pte (wf.frames_lt node owned) (wf.frames_lt _ wf.root_mem)
    inside2 inside (.inl notRoot)

theorem node2_writeLeaf {idx idx' : Nat} (inside : idx < 512) (inside' : idx' < 512) :
    pt.node2 (writePte mem node idx2 pte) idx idx' = pt.node2 mem idx idx' := by
  obtain ⟨owned, -, notNode1⟩ := wf.node2_mem inside0 inside1 reached
  unfold node2
  rw [node1_writeLeaf wf inside0 inside1 inside2 reached pte inside]
  cases above : pt.node1 mem idx with
  | none => simp only [Option.bind_none]
  | some upper =>
      -- the leaf node is not a level-1 node, so the write misses `upper`
      have apart : node ≠ upper := fun same => notNode1 idx inside (same ▸ above)
      simp only [Option.bind_some]
      exact nextNode_writePte_of_ne mem pte (wf.frames_lt node owned)
        (wf.frames_lt upper (wf.node1_mem inside above).1) inside2 inside' (.inl apart)

theorem wellFormed_writeLeaf : pt.WellFormed (writePte mem node idx2 pte) :=
  wf.of_nodes (node1_writeLeaf wf inside0 inside1 inside2 reached pte)
    (node2_writeLeaf wf inside0 inside1 inside2 reached pte)

/-- Writing the leaf entry at `(idx0, idx1, idx2)` changes the translation of exactly the page
numbers with those indices. -/
theorem translate_writeLeaf (word : pte.bits < 2 ^ 64) (vpn : VirtPageNum) :
    pt.translate (writePte mem node idx2 pte) vpn =
      if vpn.indexes = (idx0, idx1, idx2) then some pte else pt.translate mem vpn := by
  obtain ⟨inside0', inside1', inside2'⟩ := VirtPageNum.indexes_lt vpn
  obtain ⟨owned, -, -⟩ := wf.node2_mem inside0 inside1 reached
  rw [translate_eq, translate_eq, node2_writeLeaf wf inside0 inside1 inside2 reached pte inside0' inside1']
  split
  case isTrue same =>
    rw [same]
    simp only [reached, Option.map_some, readPte_writePte_self _ _ _ word]
  case isFalse differ =>
    cases reached' : pt.node2 mem vpn.indexes.1 vpn.indexes.2.1 with
    | none => simp only [Option.map_none]
    | some node' =>
        have owned' := (wf.node2_mem inside0' inside1' reached').1
        simp only [Option.map_some, Option.some.injEq]
        apply readPte_writePte_of_ne mem pte (wf.frames_lt node owned) (wf.frames_lt node' owned')
          inside2 inside2'
        -- the same leaf entry would mean the same path, by injectivity of the walk
        by_cases sameNode : node = node'
        · subst sameNode
          obtain ⟨same0, same1⟩ := wf.node2_inj inside0 inside1 inside0' inside1' reached reached'
          refine .inr fun same2 => differ ?_
          rw [same0, same1, same2]
        · exact .inl sameNode

end WriteLeaf

/-- Memory after `find_pte_create` gives entry `idx` of node `ppn` a new node: the fresh frame
zeroed by `frame_alloc`, then the entry pointed at it. -/
def installNode (mem : Nat → UInt8) (ppn : PhysPageNum) (idx : Nat) (frame : PhysPageNum) :
    Nat → UInt8 :=
  writePte (zeroFrame mem frame) ppn idx (.new frame PTEFlags.V)

@[simp] theorem node1_withFrames (frames : List PhysPageNum) :
    ({ pt with frames } : PageTable).node1 = pt.node1 := rfl

@[simp] theorem node2_withFrames (frames : List PhysPageNum) :
    ({ pt with frames } : PageTable).node2 = pt.node2 := rfl

@[simp] theorem translate_withFrames (frames : List PhysPageNum) :
    ({ pt with frames } : PageTable).translate = pt.translate := rfl

@[simp] theorem mapping_withFrames (frames : List PhysPageNum) :
    ({ pt with frames } : PageTable).mapping = pt.mapping := rfl

theorem ne_of_mem_frames {frame : PhysPageNum} (fresh : frame ∉ pt.frames) {ppn : PhysPageNum}
    (owned : ppn ∈ pt.frames) : ppn ≠ frame :=
  fun same => fresh (same ▸ owned)

theorem WellFormed.frames_nodup_install (wf : pt.WellFormed mem) {frame : PhysPageNum}
    (fresh : frame ∉ pt.frames) : (pt.frames ++ [frame]).Nodup :=
  List.nodup_append.mpr ⟨wf.frames_nodup, List.nodup_singleton frame,
    fun _ owned _ single same => fresh (List.mem_singleton.mp single ▸ same ▸ owned)⟩

theorem WellFormed.frames_lt_install (wf : pt.WellFormed mem) {frame : PhysPageNum}
    (small : frame.val < 2 ^ 44) : ∀ ppn ∈ pt.frames ++ [frame], ppn.val < 2 ^ 44 := by
  intro ppn member
  rcases List.mem_append.mp member with owned | single
  · exact wf.frames_lt ppn owned
  · rw [List.mem_singleton.mp single]
    exact small

section Install

variable (wf : pt.WellFormed mem) {frame : PhysPageNum} (fresh : frame ∉ pt.frames)
  (small : frame.val < 2 ^ 44)
include wf fresh small

/-- Installing a node changes no entry of the table's nodes but the installed one. -/
theorem readPte_installNode_of_ne {ppn node : PhysPageNum} (ownedPpn : ppn ∈ pt.frames)
    (owned : node ∈ pt.frames) {idx idx' : Nat} (inside : idx < 512) (inside' : idx' < 512)
    (apart : ppn ≠ node ∨ idx ≠ idx') :
    readPte (installNode mem ppn idx frame) node idx' = readPte mem node idx' := by
  rw [installNode, readPte_writePte_of_ne _ _ (wf.frames_lt ppn ownedPpn) (wf.frames_lt node owned)
    inside inside' apart, readPte_zeroFrame_of_ne mem small (wf.frames_lt node owned)
    (ne_of_mem_frames fresh owned).symm inside']

/-- The installed node is empty. -/
theorem readPte_installNode_fresh {ppn : PhysPageNum} (ownedPpn : ppn ∈ pt.frames) {idx idx' : Nat}
    (inside : idx < 512) (inside' : idx' < 512) :
    readPte (installNode mem ppn idx frame) frame idx' = .empty := by
  rw [installNode, readPte_writePte_of_ne _ _ (wf.frames_lt ppn ownedPpn) small inside inside'
    (.inl (ne_of_mem_frames fresh ownedPpn)), readPte_zeroFrame_self mem small inside']

theorem nextNode_installNode_of_ne {ppn node : PhysPageNum} (ownedPpn : ppn ∈ pt.frames)
    (owned : node ∈ pt.frames) {idx idx' : Nat} (inside : idx < 512) (inside' : idx' < 512)
    (apart : ppn ≠ node ∨ idx ≠ idx') :
    nextNode (installNode mem ppn idx frame) node idx' = nextNode mem node idx' := by
  rw [nextNode, nextNode, readPte_installNode_of_ne wf fresh small ownedPpn owned inside inside' apart]

theorem nextNode_installNode_fresh {ppn : PhysPageNum} (ownedPpn : ppn ∈ pt.frames) {idx idx' : Nat}
    (inside : idx < 512) (inside' : idx' < 512) :
    nextNode (installNode mem ppn idx frame) frame idx' = none := by
  rw [nextNode, readPte_installNode_fresh wf fresh small ownedPpn inside inside',
    PageTableEntry.isValid_empty]
  rfl

section InstallRoot

variable {idx0 : Nat} (inside0 : idx0 < 512) (vacant : pt.node1 mem idx0 = none)
include inside0

theorem node1_installRoot {idx : Nat} (inside : idx < 512) :
    pt.node1 (installNode mem pt.rootPpn idx0 frame) idx =
      if idx = idx0 then some frame else pt.node1 mem idx := by
  split
  case isTrue same =>
    subst same
    exact nextNode_writePte_new _ _ _ small
  case isFalse differ =>
    exact nextNode_installNode_of_ne wf fresh small wf.root_mem wf.root_mem inside0 inside
      (.inr (Ne.symm differ))

include vacant

/-- The new level-1 node is empty, so the leaf nodes stay those of before. -/
theorem node2_installRoot {idx idx' : Nat} (inside : idx < 512) (inside' : idx' < 512) :
    pt.node2 (installNode mem pt.rootPpn idx0 frame) idx idx' = pt.node2 mem idx idx' := by
  unfold node2
  rw [node1_installRoot wf fresh small inside0 inside]
  split
  case isTrue same =>
    subst same
    rw [vacant, Option.bind_some, Option.bind_none]
    exact nextNode_installNode_fresh wf fresh small wf.root_mem inside0 inside'
  case isFalse differ =>
    cases above : pt.node1 mem idx with
    | none => simp only [Option.bind_none]
    | some upper =>
        obtain ⟨owned, notRoot⟩ := wf.node1_mem inside above
        simp only [Option.bind_some]
        exact nextNode_installNode_of_ne wf fresh small wf.root_mem owned inside0 inside'
          (.inl (Ne.symm notRoot))

theorem translate_installRoot (vpn : VirtPageNum) :
    pt.translate (installNode mem pt.rootPpn idx0 frame) vpn = pt.translate mem vpn := by
  obtain ⟨inside0', inside1', inside2'⟩ := VirtPageNum.indexes_lt vpn
  rw [translate_eq, translate_eq, node2_installRoot wf fresh small inside0 vacant inside0' inside1']
  cases reached : pt.node2 mem vpn.indexes.1 vpn.indexes.2.1 with
  | none => simp only [Option.map_none]
  | some node =>
      obtain ⟨owned, notRoot, -⟩ := wf.node2_mem inside0' inside1' reached
      simp only [Option.map_some, Option.some.injEq]
      exact readPte_installNode_of_ne wf fresh small wf.root_mem owned inside0 inside2'
        (.inl (Ne.symm notRoot))

theorem wellFormed_installRoot :
    ({ pt with frames := pt.frames ++ [frame] } : PageTable).WellFormed
      (installNode mem pt.rootPpn idx0 frame) := by
  have same1 := fun {idx : Nat} (inside : idx < 512) => node1_installRoot wf fresh small inside0 inside
  have same2 := fun {idx idx' : Nat} (inside : idx < 512) (inside' : idx' < 512) =>
    node2_installRoot wf fresh small inside0 vacant inside inside'
  have rootFresh := ne_of_mem_frames fresh wf.root_mem
  refine ⟨List.mem_append_left _ wf.root_mem, wf.frames_nodup_install fresh,
    wf.frames_lt_install small, ?_, ?_, ?_, ?_⟩
  · intro idx node inside reached
    simp only [node1_withFrames, same1 inside] at reached ⊢
    split at reached
    case isTrue =>
      cases reached
      exact ⟨List.mem_append_right _ (List.mem_singleton_self _), Ne.symm rootFresh⟩
    case isFalse =>
      obtain ⟨owned, notRoot⟩ := wf.node1_mem inside reached
      exact ⟨List.mem_append_left _ owned, notRoot⟩
  · intro idx idx' node inside inside' reached
    simp only [node2_withFrames, node1_withFrames, same2 inside inside'] at reached ⊢
    obtain ⟨owned, notRoot, notNode1⟩ := wf.node2_mem inside inside' reached
    refine ⟨List.mem_append_left _ owned, notRoot, fun idx'' below => ?_⟩
    rw [same1 below]
    split
    case isTrue => exact fun same => ne_of_mem_frames fresh owned (Option.some.inj same).symm
    case isFalse => exact notNode1 idx'' below
  · intro idx idx' node inside inside' reached reached'
    simp only [node1_withFrames, same1 inside, same1 inside'] at reached reached'
    -- the new node sits behind `idx0` only, and no old node is the fresh frame
    split at reached <;> split at reached'
    case isTrue.isTrue first second => rw [first, second]
    case isTrue.isFalse first _ =>
      cases reached
      exact absurd (wf.node1_mem inside' reached').1 fresh
    case isFalse.isTrue _ second =>
      cases reached'
      exact absurd (wf.node1_mem inside reached).1 fresh
    case isFalse.isFalse => exact wf.node1_inj inside inside' reached reached'
  · intro idx idx' idx'' idx''' node inside inside' inside'' inside''' reached reached'
    simp only [node2_withFrames, same2 inside inside', same2 inside'' inside'''] at reached reached'
    exact wf.node2_inj inside inside' inside'' inside''' reached reached'

end InstallRoot

section InstallNode1

variable {idx0 idx1 : Nat} (inside0 : idx0 < 512) (inside1 : idx1 < 512) {upper : PhysPageNum}
  (above : pt.node1 mem idx0 = some upper) (vacant : pt.node2 mem idx0 idx1 = none)
include inside0 inside1 above

theorem node1_installNode1 {idx : Nat} (inside : idx < 512) :
    pt.node1 (installNode mem upper idx1 frame) idx = pt.node1 mem idx := by
  obtain ⟨owned, notRoot⟩ := wf.node1_mem inside0 above
  exact nextNode_installNode_of_ne wf fresh small owned wf.root_mem inside1 inside (.inl notRoot)

theorem node2_installNode1 {idx idx' : Nat} (inside : idx < 512) (inside' : idx' < 512) :
    pt.node2 (installNode mem upper idx1 frame) idx idx' =
      if idx = idx0 ∧ idx' = idx1 then some frame else pt.node2 mem idx idx' := by
  have ownedUpper := (wf.node1_mem inside0 above).1
  unfold node2
  rw [node1_installNode1 wf fresh small inside0 inside1 above inside]
  split
  case isTrue same =>
    obtain ⟨rfl, rfl⟩ := same
    rw [above, Option.bind_some]
    exact nextNode_writePte_new _ _ _ small
  case isFalse differ =>
    cases reached : pt.node1 mem idx with
    | none => simp only [Option.bind_none]
    | some node =>
        have owned := (wf.node1_mem inside reached).1
        simp only [Option.bind_some]
        -- the same level-1 node means the same root entry, so the entry index differs
        have apart : upper ≠ node ∨ idx1 ≠ idx' := by
          by_cases sameNode : upper = node
          · subst sameNode
            have := wf.node1_inj inside0 inside above reached
            exact .inr fun same => differ ⟨this.symm, same.symm⟩
          · exact .inl sameNode
        exact nextNode_installNode_of_ne wf fresh small ownedUpper owned inside1 inside' apart

/-- The new leaf node holds only empty entries, so no page number gains a valid entry. -/
theorem translate_installNode1 (vpn : VirtPageNum) :
    pt.translate (installNode mem upper idx1 frame) vpn =
      if vpn.indexes.1 = idx0 ∧ vpn.indexes.2.1 = idx1 then some .empty else pt.translate mem vpn := by
  have ownedUpper := (wf.node1_mem inside0 above).1
  obtain ⟨inside0', inside1', inside2'⟩ := VirtPageNum.indexes_lt vpn
  rw [translate_eq, translate_eq, node2_installNode1 wf fresh small inside0 inside1 above inside0' inside1']
  split
  case isTrue => exact congrArg some (readPte_installNode_fresh wf fresh small ownedUpper inside1 inside2')
  case isFalse =>
    cases reached : pt.node2 mem vpn.indexes.1 vpn.indexes.2.1 with
    | none => simp only [Option.map_none]
    | some node =>
        obtain ⟨owned, -, notNode1⟩ := wf.node2_mem inside0' inside1' reached
        have apart : upper ≠ node := fun same => notNode1 idx0 inside0 (same ▸ above)
        simp only [Option.map_some, Option.some.injEq]
        exact readPte_installNode_of_ne wf fresh small ownedUpper owned inside1 inside2' (.inl apart)

theorem wellFormed_installNode1 :
    ({ pt with frames := pt.frames ++ [frame] } : PageTable).WellFormed
      (installNode mem upper idx1 frame) := by
  have same1 := fun {idx : Nat} (inside : idx < 512) =>
    node1_installNode1 wf fresh small inside0 inside1 above inside
  have same2 := fun {idx idx' : Nat} (inside : idx < 512) (inside' : idx' < 512) =>
    node2_installNode1 wf fresh small inside0 inside1 above inside inside'
  have notNode1 : ∀ idx < 512, pt.node1 mem idx ≠ some frame := fun idx inside reached =>
    fresh (wf.node1_mem inside reached).1
  refine ⟨List.mem_append_left _ wf.root_mem, wf.frames_nodup_install fresh,
    wf.frames_lt_install small, ?_, ?_, ?_, ?_⟩
  · intro idx node inside reached
    simp only [node1_withFrames, same1 inside] at reached ⊢
    obtain ⟨owned, notRoot⟩ := wf.node1_mem inside reached
    exact ⟨List.mem_append_left _ owned, notRoot⟩
  · intro idx idx' node inside inside' reached
    simp only [node2_withFrames, node1_withFrames, same2 inside inside'] at reached ⊢
    split at reached
    case isTrue =>
      cases reached
      exact ⟨List.mem_append_right _ (List.mem_singleton_self _),
        Ne.symm (ne_of_mem_frames fresh wf.root_mem), fun idx'' below => by rw [same1 below]; exact notNode1 idx'' below⟩
    case isFalse =>
      obtain ⟨owned, notRoot, notNode1'⟩ := wf.node2_mem inside inside' reached
      exact ⟨List.mem_append_left _ owned, notRoot, fun idx'' below => by
        rw [same1 below]; exact notNode1' idx'' below⟩
  · intro idx idx' node inside inside' reached reached'
    simp only [node1_withFrames, same1 inside, same1 inside'] at reached reached'
    exact wf.node1_inj inside inside' reached reached'
  · intro idx idx' idx'' idx''' node inside inside' inside'' inside''' reached reached'
    simp only [node2_withFrames, same2 inside inside', same2 inside'' inside'''] at reached reached'
    -- the new leaf node sits behind `(idx0, idx1)` only, and no old node is the fresh frame
    split at reached <;> split at reached'
    case isTrue.isTrue first second => exact ⟨first.1.trans second.1.symm, first.2.trans second.2.symm⟩
    case isTrue.isFalse =>
      cases reached
      exact absurd (wf.node2_mem inside'' inside''' reached').1 fresh
    case isFalse.isTrue =>
      cases reached'
      exact absurd (wf.node2_mem inside inside' reached).1 fresh
    case isFalse.isFalse => exact wf.node2_inj inside inside' inside'' inside''' reached reached'

include vacant

theorem mapping_installNode1 (vpn : VirtPageNum) :
    pt.mapping (installNode mem upper idx1 frame) vpn = pt.mapping mem vpn := by
  rw [mapping, mapping, translate_installNode1 wf fresh small inside0 inside1 above]
  split
  case isTrue same =>
    have before : pt.translate mem vpn = none := by
      rw [translate_eq, same.1, same.2, vacant, Option.map_none]
    rw [before]
    rfl
  case isFalse => rfl

end InstallNode1

end Install

end PageTable

end RCore
