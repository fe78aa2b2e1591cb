import RCore.Mm.MemorySet
import RCore.Mm.PageTableSpec

/-! # What mapping an area does

Mapping a framed area takes one fresh zeroed frame per page and maps the page to it with the
area's permission (`RCore.MapArea.map_framed_spec`). The change to the machine is summed up
by `RCore.MapArea.Extends`: the table grows by fresh nodes, the area gains fresh data frames
that end zeroed, and no other allocated frame is written. Mapping fails only on frame
exhaustion, and only when fewer than three free frames per page were left
(`RCore.MapArea.map_framed_error`).
-/

namespace RCore

namespace MapArea

/-- The leaf entry `map_one` writes for a page of the area backed by frame `ppn`. -/
def entry (area : MapArea) (ppn : PhysPageNum) : PageTableEntry :=
  .new ppn (PTEFlags.fromBits area.mapPerm.bits ||| PTEFlags.V)

/-- How mapping pages changes the machine: the table takes the fresh frames `nodes` as new
nodes and the area the fresh frames `data`; no other allocated frame is written, and the data
frames end zeroed. -/
structure Extends (pt : PageTable) (m : Machine) (nodes data : List PhysPageNum) (pt' : PageTable)
    (m' : Machine) : Prop where
  root_eq : pt'.rootPpn = pt.rootPpn
  frames_eq : pt'.frames = pt.frames ++ nodes
  fresh : ∀ ppn ∈ nodes ++ data, ¬ m.frameAllocator.Allocated ppn
  nodup : (nodes ++ data).Nodup
  allocated_iff : ∀ ppn, m'.frameAllocator.Allocated ppn ↔
    m.frameAllocator.Allocated ppn ∨ ppn ∈ nodes ++ data
  freeFrames_eq : m'.frameAllocator.freeFrames + (nodes ++ data).length = m.frameAllocator.freeFrames
  others_eq : ∀ ppn, m.frameAllocator.Allocated ppn → ppn ∉ pt.frames →
    ∀ addr, ppn.Covers addr → m'.mem addr = m.mem addr
  data_zero : ∀ ppn ∈ data, ∀ addr, ppn.Covers addr → m'.mem addr = 0

variable {pt pt' pt'' : PageTable} {m m' m'' : Machine} {nodes nodes' data data' : List PhysPageNum}

theorem Extends.refl (pt : PageTable) (m : Machine) : Extends pt m [] [] pt m :=
  ⟨rfl, (List.append_nil _).symm, fun _ absent => absurd absent List.not_mem_nil, List.nodup_nil,
    fun _ => by simp, rfl, fun _ _ _ _ _ => rfl, fun _ absent => absurd absent List.not_mem_nil⟩

/-- Frames of a valid machine and of a valid table do not share bytes unless equal. -/
theorem eq_of_covers {ppn ppn' : PhysPageNum} (small : ppn.val < 2 ^ 52) (small' : ppn'.val < 2 ^ 52)
    {addr : Nat} (covered : ppn.Covers addr) (covered' : ppn'.Covers addr) : ppn = ppn' := by
  by_contra apart
  exact PhysPageNum.not_covers_of_ne small small' apart covered covered'

theorem Extends.trans (valid : pt.Valid m) (first : Extends pt m nodes data pt' m')
    (second : Extends pt' m' nodes' data' pt'' m'') :
    Extends pt m (nodes ++ nodes') (data ++ data') pt'' m'' := by
  have laterFresh : ∀ ppn ∈ nodes' ++ data', ¬ m.frameAllocator.Allocated ppn := fun ppn member held =>
    second.fresh ppn member ((first.allocated_iff ppn).mpr (.inl held))
  have apart : ∀ ppn ∈ nodes ++ data, ppn ∉ nodes' ++ data' := fun ppn early late =>
    second.fresh ppn late ((first.allocated_iff ppn).mpr (.inr early))
  have perm : (nodes ++ nodes' ++ (data ++ data')).Perm (nodes ++ data ++ (nodes' ++ data')) := by
    simp only [List.append_assoc]
    exact (List.perm_append_comm_assoc nodes' data data').append_left nodes
  refine ⟨second.root_eq.trans first.root_eq, by rw [second.frames_eq, first.frames_eq, List.append_assoc],
    ?_, ?_, ?_, ?_, ?_, ?_⟩
  · intro ppn member
    rcases (perm.mem_iff.mp member |> List.mem_append.mp) with early | late
    · exact first.fresh ppn early
    · exact laterFresh ppn late
  · exact perm.nodup_iff.mpr (List.nodup_append.mpr ⟨first.nodup, second.nodup,
      fun ppn early other late same => apart ppn early (same ▸ late)⟩)
  · intro ppn
    rw [second.allocated_iff, first.allocated_iff, perm.mem_iff]
    simp only [List.mem_append, or_assoc]
  · have later := second.freeFrames_eq
    have earlier := first.freeFrames_eq
    simp only [List.length_append] at later earlier ⊢
    omega
  · intro ppn held notOwned addr covered
    have notNode : ppn ∉ nodes := fun node => first.fresh ppn (List.mem_append_left _ node) held
    have notOwned' : ppn ∉ pt'.frames := by
      rw [first.frames_eq, List.mem_append, not_or]
      exact ⟨notOwned, notNode⟩
    rw [second.others_eq ppn ((first.allocated_iff ppn).mpr (.inl held)) notOwned' addr covered,
      first.others_eq ppn held notOwned addr covered]
  · intro ppn member addr covered
    rcases List.mem_append.mp member with early | late
    · have notOwned : ppn ∉ pt'.frames := by
        rw [first.frames_eq, List.mem_append, not_or]
        refine ⟨valid.not_mem_of_alloc (first.fresh ppn (List.mem_append_right _ early)), ?_⟩
        intro node
        exact List.disjoint_of_nodup_append first.nodup node early
      rw [second.others_eq ppn ((first.allocated_iff ppn).mpr (.inr (List.mem_append_right _ early)))
        notOwned addr covered]
      exact first.data_zero ppn early addr covered
    · exact second.data_zero ppn late addr covered

/-- An allocated frame lies below `2 ^ 52`, where distinct frames share no byte. -/
theorem small_of_allocated {ppn : PhysPageNum} (inv : m.Inv) (held : m.frameAllocator.Allocated ppn) :
    ppn.val < 2 ^ 52 := by
  have := PageTable.frame_lt_of_alloc (inv.lt_of_allocated held)
  omega

/-- A page-table operation extends the machine by its new nodes and no data frame. -/
theorem Extends.ofGrows {fresh : List PhysPageNum} (grown : pt.Grows m fresh pt' m') (valid : pt.Valid m)
    (valid' : pt'.Valid m') : Extends pt m fresh [] pt' m' := by
  have nodup : fresh.Nodup := by
    have whole := valid'.wellFormed.frames_nodup
    rw [grown.frames_eq] at whole
    exact (List.nodup_append.mp whole).2.1
  refine ⟨grown.root_eq, grown.frames_eq, by simpa using grown.fresh_not_allocated, by simpa using nodup,
    by simpa using grown.allocated_iff, by simpa using grown.freeFrames_eq, ?_,
    fun _ absent => absurd absent List.not_mem_nil⟩
  intro ppn held notOwned addr covered
  apply grown.mem_eq addr
  intro other owned coversOther
  -- a table frame covering the byte would be the allocated frame itself
  have small : other.val < 2 ^ 52 := by
    have := valid'.wellFormed.frames_lt other owned
    omega
  obtain rfl := eq_of_covers small (small_of_allocated valid.machine held) coversOther covered
  rw [grown.frames_eq] at owned
  rcases List.mem_append.mp owned with old | new
  · exact notOwned old
  · exact grown.fresh_not_allocated other new held

/-- An extension confines the operation to the frames it owned, the table's among them, and
the fresh ones. -/
theorem Extends.confined (ext : Extends pt m nodes data pt' m') {owned owned' : List PhysPageNum}
    (table : ∀ ppn ∈ pt.frames, ppn ∈ owned) (grown : ∀ ppn ∈ owned', ppn ∈ owned ∨ ppn ∈ nodes ++ data) :
    Confined owned m owned' m' where
  allocated ppn held _ := (ext.allocated_iff ppn).mpr (.inl held)
  mem_eq ppn held notOwned := ext.others_eq ppn held fun owned => notOwned (table ppn owned)
  fresh ppn member := (grown ppn member).imp id (ext.fresh ppn)

/-- Taking a data frame extends the machine by that frame and leaves the table, with every
mapping, as it was. -/
theorem alloc_spec (valid : pt.Valid m) {frame : PhysPageNum}
    (allocated : frameAllocUnwrap m = .ok (frame, m')) :
    Extends pt m [] [frame] pt m' ∧ pt.Valid m' ∧ ∀ v, pt.mapping m'.mem v = pt.mapping m.mem v := by
  obtain ⟨notAllocated, below, inv, allocatedIff, fewer, zeroed⟩ :=
    frameAllocUnwrap_spec valid.machine allocated
  have smallFrame : frame.val < 2 ^ 52 := by
    have := PageTable.frame_lt_of_alloc below
    omega
  -- the zeroing touches no allocated frame but the new one
  have untouched : ∀ ppn, m.frameAllocator.Allocated ppn → ∀ addr, ppn.Covers addr →
      m'.mem addr = m.mem addr := by
    intro ppn held addr covered
    have apart : ppn ≠ frame := fun same => notAllocated (same ▸ held)
    rw [zeroed]
    exact zeroFrame_apply_of_not_covers
      (PhysPageNum.not_covers_of_ne (small_of_allocated valid.machine held) smallFrame apart covered)
  have same : PageTable.SameOn pt.frames m.mem m'.mem := fun ppn owned =>
    untouched ppn (valid.allocated ppn owned)
  refine ⟨⟨rfl, (List.append_nil _).symm, ?_, List.nodup_singleton frame, ?_, by simpa using fewer,
    fun ppn held _ => untouched ppn held, ?_⟩, ⟨inv, PageTable.wellFormed_congr valid.wellFormed same,
    fun ppn owned => (allocatedIff ppn).mpr (.inl (valid.allocated ppn owned))⟩,
    PageTable.mapping_congr valid.wellFormed same⟩
  · intro ppn single
    rw [List.nil_append, List.mem_singleton] at single
    rw [single]
    exact notAllocated
  · intro ppn
    rw [allocatedIff, List.nil_append, List.mem_singleton]
  · intro ppn single addr covered
    rw [List.mem_singleton] at single
    subst single
    rw [zeroed, zeroFrame, if_pos covered]

variable {area area' : MapArea} {vpn : VirtPageNum} {e : Panic}

/-- `map_one` on a framed page above every page of the area: a frame is taken, appended to
`data_frames`, and the page is mapped to it. -/
theorem mapOne_framed_eq_ok (framed : area.mapType = .framed)
    (above : ∀ entry ∈ area.dataFrames, entry.1 < vpn)
    (ran : area.mapOne pt vpn m = .ok ((area', pt'), m')) :
    ∃ frame mid, frameAllocUnwrap m = .ok (frame, mid) ∧
      pt.map vpn frame (PTEFlags.fromBits area.mapPerm.bits) mid = .ok (pt', m') ∧
      area' = { area with dataFrames := area.dataFrames ++ [(vpn, frame)] } := by
  unfold mapOne at ran
  simp only [framed] at ran
  obtain ⟨frame, mid, allocated, rest⟩ := Foundation.bind_eq_ok.mp ran
  -- nothing is displaced, so nothing is dropped
  rw [Foundation.insertEntry_of_lt frame above] at rest
  simp only [Option.toList, dropFrames_nil, pure_bind] at rest
  obtain ⟨table, final, mapped, done⟩ := Foundation.bind_eq_ok.mp rest
  simp only [Foundation.pure_apply, Except.ok.injEq, Prod.mk.injEq] at done
  obtain ⟨⟨rfl, rfl⟩, rfl⟩ := done
  exact ⟨frame, mid, allocated, mapped, by rw [framed]⟩

theorem mapOne_framed_eq_error (framed : area.mapType = .framed)
    (above : ∀ entry ∈ area.dataFrames, entry.1 < vpn) (failed : area.mapOne pt vpn m = .error e) :
    frameAllocUnwrap m = .error e ∨ ∃ frame mid, frameAllocUnwrap m = .ok (frame, mid) ∧
      pt.map vpn frame (PTEFlags.fromBits area.mapPerm.bits) mid = .error e := by
  unfold mapOne at failed
  simp only [framed] at failed
  rcases Foundation.bind_eq_error.mp failed with bad | ⟨frame, mid, allocated, rest⟩
  · exact .inl bad
  · rw [Foundation.insertEntry_of_lt frame above] at rest
    simp only [Option.toList, dropFrames_nil, pure_bind] at rest
    rcases Foundation.bind_eq_error.mp rest with bad | ⟨table, final, -, done⟩
    · exact .inr ⟨frame, mid, allocated, bad⟩
    · simp at done

/-- `map_one` on a framed page succeeds only on an unmapped page; a fresh frame then backs
the page, and every page with another index keeps its mapping. -/
theorem mapOne_framed_spec (valid : pt.Valid m) (framed : area.mapType = .framed)
    (above : ∀ entry ∈ area.dataFrames, entry.1 < vpn)
    (ran : area.mapOne pt vpn m = .ok ((area', pt'), m')) :
    ∃ frame nodes, Extends pt m nodes [frame] pt' m' ∧ nodes.length ≤ 2 ∧ pt'.Valid m' ∧
      pt.mapping m.mem vpn = none ∧ area' = { area with dataFrames := area.dataFrames ++ [(vpn, frame)] } ∧
      ∀ v, pt'.mapping m'.mem v =
        if v.indexes = vpn.indexes then some (area.entry frame) else pt.mapping m.mem v := by
  obtain ⟨frame, mid, allocated, mapped, rfl⟩ := mapOne_framed_eq_ok framed above ran
  obtain ⟨extAlloc, validMid, sameMapping⟩ := alloc_spec valid allocated
  obtain ⟨fresh, grown, few, valid', vacant, mapping'⟩ := PageTable.map_spec validMid mapped
  have extended := extAlloc.trans valid (Extends.ofGrows grown validMid valid')
  rw [List.nil_append, List.append_nil] at extended
  refine ⟨frame, fresh, extended, few, valid', by rw [← sameMapping, vacant], rfl, fun v => ?_⟩
  rw [mapping' v, sameMapping v]
  rfl

/-- `map_one` on an unmapped framed page fails only when fewer than three frames are free. -/
theorem mapOne_framed_error (valid : pt.Valid m) (framed : area.mapType = .framed)
    (above : ∀ entry ∈ area.dataFrames, entry.1 < vpn) (vacant : pt.mapping m.mem vpn = none)
    (failed : area.mapOne pt vpn m = .error e) :
    e = .frameExhausted ∧ m.frameAllocator.freeFrames < 3 := by
  rcases mapOne_framed_eq_error framed above failed with bad | ⟨frame, mid, allocated, mapFailed⟩
  · have exhausted := frameAllocUnwrap_eq_error bad
    exact ⟨exhausted.1, by omega⟩
  · obtain ⟨extAlloc, validMid, sameMapping⟩ := alloc_spec valid allocated
    have spent := extAlloc.freeFrames_eq
    rcases PageTable.map_eq_error_spec validMid mapFailed with ⟨rfl, few⟩ | ⟨-, mapped⟩
    · simp only [List.nil_append, List.length_singleton] at spent
      exact ⟨rfl, by omega⟩
    · rw [sameMapping, vacant] at mapped
      cases mapped

/-- The loop of `MapArea::map` over increasing pages, from a framed area whose pages lie
below them: by induction over the pages, one `map_one` at a time, each page gets a fresh
frame of its own. The loop succeeds only on pages that were unmapped and of distinct indices. -/
theorem foldlM_mapOne_spec {vpns : List VirtPageNum} (valid : pt.Valid m) (framed : area.mapType = .framed)
    (sorted : vpns.Pairwise (· < ·)) (above : ∀ entry ∈ area.dataFrames, ∀ v ∈ vpns, entry.1 < v)
    (ran : (vpns.foldlM (fun (area, pt) vpn => area.mapOne pt vpn) (area, pt) : KernelM (MapArea × PageTable)) m =
      .ok ((area', pt'), m')) :
    ∃ nodes data, Extends pt m nodes data pt' m' ∧ pt'.Valid m' ∧ nodes.length ≤ 2 * vpns.length ∧
      data.length = vpns.length ∧ (∀ v ∈ vpns, pt.mapping m.mem v = none) ∧
      (vpns.map VirtPageNum.indexes).Nodup ∧
      area' = { area with dataFrames := area.dataFrames ++ vpns.zip data } ∧
      (∀ entry ∈ vpns.zip data, pt'.mapping m'.mem entry.1 = some (area.entry entry.2)) ∧
      ∀ v, (∀ u ∈ vpns, u.indexes ≠ v.indexes) → pt'.mapping m'.mem v = pt.mapping m.mem v := by
  induction vpns generalizing area pt m with
  | nil =>
      simp only [List.foldlM_nil, Foundation.pure_apply, Except.ok.injEq, Prod.mk.injEq] at ran
      obtain ⟨⟨rfl, rfl⟩, rfl⟩ := ran
      exact ⟨[], [], Extends.refl pt m, valid, by simp, rfl, by simp, by simp, by simp, by simp,
        fun _ _ => rfl⟩
  | cons vpn rest ih =>
      rw [List.foldlM_cons] at ran
      obtain ⟨⟨area1, pt1⟩, m1, step, loop⟩ := Foundation.bind_eq_ok.mp ran
      rw [List.pairwise_cons] at sorted
      obtain ⟨frame, nodes1, ext1, few1, valid1, vacant1, rfl, mapping1⟩ :=
        mapOne_framed_spec valid framed (fun entry member => above entry member vpn List.mem_cons_self) step
      have restAbove : ∀ entry ∈ area.dataFrames ++ [(vpn, frame)], ∀ v ∈ rest, entry.1 < v := by
        intro entry member v later
        rcases List.mem_append.mp member with old | new
        · exact above entry old v (List.mem_cons_of_mem _ later)
        · rw [List.mem_singleton.mp new]
          exact sorted.1 v later
      have framed1 : ({ area with dataFrames := area.dataFrames ++ [(vpn, frame)] } : MapArea).mapType =
          .framed := framed
      obtain ⟨nodes2, data2, ext2, valid2, few2, length2, vacant2, distinct2, rfl, mapped2, others2⟩ :=
        ih valid1 framed1 sorted.2 restAbove loop
      -- a later page of the same index would have found the entry of `vpn` valid
      have restApart : ∀ u ∈ rest, u.indexes ≠ vpn.indexes := by
        intro u member same
        have vacantU := vacant2 u member
        rw [mapping1 u, if_pos same] at vacantU
        cases vacantU
      refine ⟨nodes1 ++ nodes2, frame :: data2, ext1.trans valid ext2, valid2, ?_, by simp [length2],
        ?_, ?_, by simp, ?_, ?_⟩
      · simp only [List.length_append, List.length_cons]
        omega
      · intro v member
        rcases List.mem_cons.mp member with rfl | later
        · exact vacant1
        · rw [← vacant2 v later, mapping1 v, if_neg (restApart v later)]
      · rw [List.map_cons, List.nodup_cons]
        refine ⟨fun member => ?_, distinct2⟩
        obtain ⟨u, later, same⟩ := List.mem_map.mp member
        exact restApart u later same
      · intro entry member
        rw [List.zip_cons_cons, List.mem_cons] at member
        rcases member with rfl | later
        · rw [others2 _ restApart, mapping1, if_pos rfl]
        · exact mapped2 entry later
      · intro v apart
        rw [others2 v fun u member => apart u (List.mem_cons_of_mem _ member), mapping1 v,
          if_neg (Ne.symm (apart vpn List.mem_cons_self))]

/-- The loop of `MapArea::map` over unmapped pages of distinct indices fails only on frame
exhaustion, when fewer than three frames per page were free. -/
theorem foldlM_mapOne_error {vpns : List VirtPageNum} (valid : pt.Valid m) (framed : area.mapType = .framed)
    (sorted : vpns.Pairwise (· < ·)) (above : ∀ entry ∈ area.dataFrames, ∀ v ∈ vpns, entry.1 < v)
    (distinct : (vpns.map VirtPageNum.indexes).Nodup) (vacant : ∀ v ∈ vpns, pt.mapping m.mem v = none)
    (failed : (vpns.foldlM (fun (area, pt) vpn => area.mapOne pt vpn) (area, pt) :
      KernelM (MapArea × PageTable)) m = .error e) :
    e = .frameExhausted ∧ m.frameAllocator.freeFrames < 3 * vpns.length := by
  induction vpns generalizing area pt m with
  | nil =>
      simp only [List.foldlM_nil, Foundation.pure_apply] at failed
      cases failed
  | cons vpn rest ih =>
      rw [List.foldlM_cons] at failed
      rw [List.pairwise_cons] at sorted
      rw [List.map_cons, List.nodup_cons] at distinct
      have aboveVpn : ∀ entry ∈ area.dataFrames, entry.1 < vpn := fun entry member =>
        above entry member vpn List.mem_cons_self
      rcases Foundation.bind_eq_error.mp failed with bad | ⟨⟨area1, pt1⟩, m1, step, loop⟩
      · have exhausted := mapOne_framed_error valid framed aboveVpn (vacant vpn List.mem_cons_self) bad
        simp only [List.length_cons]
        exact ⟨exhausted.1, by omega⟩
      · obtain ⟨frame, nodes1, ext1, few1, valid1, -, rfl, mapping1⟩ :=
          mapOne_framed_spec valid framed aboveVpn step
        have restAbove : ∀ entry ∈ area.dataFrames ++ [(vpn, frame)], ∀ v ∈ rest, entry.1 < v := by
          intro entry member v later
          rcases List.mem_append.mp member with old | new
          · exact above entry old v (List.mem_cons_of_mem _ later)
          · rw [List.mem_singleton.mp new]
            exact sorted.1 v later
        have restVacant : ∀ u ∈ rest, pt1.mapping m1.mem u = none := by
          intro u member
          rw [mapping1 u, if_neg fun same => distinct.1 (List.mem_map.mpr ⟨u, member, same⟩)]
          exact vacant u (List.mem_cons_of_mem _ member)
        have framed1 : ({ area with dataFrames := area.dataFrames ++ [(vpn, frame)] } : MapArea).mapType =
            .framed := framed
        obtain ⟨exhausted, few⟩ := ih valid1 framed1 sorted.2 restAbove distinct.2 restVacant loop
        have spent := ext1.freeFrames_eq
        simp only [List.length_append, List.length_cons, List.length_nil] at spent ⊢
        exact ⟨exhausted, by omega⟩

/-- What `MapArea::map` does to a framed area with no frame yet: the table grows by `nodes`;
every page of the range, unmapped before and of an index of its own, is backed by its frame of
`data`, which the area then records; every page of another index keeps its mapping. -/
structure MapsFresh (pt : PageTable) (m : Machine) (area : MapArea) (nodes data : List PhysPageNum)
    (pt' : PageTable) (m' : Machine) (area' : MapArea) : Prop where
  extended : Extends pt m nodes data pt' m'
  valid : pt'.Valid m'
  nodes_le : nodes.length ≤ 2 * area.vpnRange.vpns.length
  length_eq : data.length = area.vpnRange.vpns.length
  vacant : ∀ v ∈ area.vpnRange.vpns, pt.mapping m.mem v = none
  distinct : (area.vpnRange.vpns.map VirtPageNum.indexes).Nodup
  area_eq : area' = { area with dataFrames := area.vpnRange.vpns.zip data }
  mapped : ∀ entry ∈ area.vpnRange.vpns.zip data, pt'.mapping m'.mem entry.1 = some (area.entry entry.2)
  others : ∀ v, (∀ u ∈ area.vpnRange.vpns, u.indexes ≠ v.indexes) → pt'.mapping m'.mem v = pt.mapping m.mem v

theorem map_framed_spec (valid : pt.Valid m) (framed : area.mapType = .framed)
    (empty : area.dataFrames = []) (ran : area.map pt m = .ok ((area', pt'), m')) :
    ∃ nodes data, MapsFresh pt m area nodes data pt' m' area' := by
  have below : ∀ entry ∈ area.dataFrames, ∀ v ∈ area.vpnRange.vpns, entry.1 < v := by
    rw [empty]
    exact fun _ absent => absurd absent List.not_mem_nil
  obtain ⟨nodes, data, extended, valid', few, length, vacant, distinct, rfl, mapped, others⟩ :=
    foldlM_mapOne_spec valid framed (VPNRange.vpns_sorted _) below ran
  refine ⟨nodes, data, extended, valid', few, length, vacant, distinct, ?_, mapped, others⟩
  rw [empty, List.nil_append]

/-- `MapArea::map` of a framed area with no frame yet, over unmapped pages of distinct
indices, fails only on frame exhaustion, with fewer than three free frames per page. -/
theorem map_framed_error (valid : pt.Valid m) (framed : area.mapType = .framed)
    (empty : area.dataFrames = []) (distinct : (area.vpnRange.vpns.map VirtPageNum.indexes).Nodup)
    (vacant : ∀ v ∈ area.vpnRange.vpns, pt.mapping m.mem v = none) (failed : area.map pt m = .error e) :
    e = .frameExhausted ∧ m.frameAllocator.freeFrames < 3 * area.vpnRange.vpns.length := by
  have below : ∀ entry ∈ area.dataFrames, ∀ v ∈ area.vpnRange.vpns, entry.1 < v := by
    rw [empty]
    exact fun _ absent => absurd absent List.not_mem_nil
  exact foldlM_mapOne_error valid framed (VPNRange.vpns_sorted _) below distinct vacant failed

end MapArea

namespace MemorySet

open MapArea

variable {ms ms' : MemorySet} {m m' : Machine} {area : MapArea} {e : Panic}

/-- `push` of a framed area with no frame and no data: the area is mapped and kept last. -/
theorem push_framed_spec (valid : ms.pageTable.Valid m) (framed : area.mapType = .framed)
    (empty : area.dataFrames = []) (ran : ms.push area none m = .ok (ms', m')) :
    ∃ nodes data area', MapsFresh ms.pageTable m area nodes data ms'.pageTable m' area' ∧
      ms'.areas = ms.areas ++ [area'] := by
  obtain ⟨⟨area', pt'⟩, mid, mapped, rest⟩ := Foundation.bind_eq_ok.mp ran
  simp only [Foundation.pure_apply, Except.ok.injEq, Prod.mk.injEq] at rest
  obtain ⟨rfl, rfl⟩ := rest
  obtain ⟨nodes, data, fresh⟩ := map_framed_spec valid framed empty mapped
  exact ⟨nodes, data, area', fresh, rfl⟩

/-- After a push the set owns its frames before, the new nodes and the new data frames. -/
theorem frames_push {nodes data : List PhysPageNum} {area' : MapArea}
    (fresh : MapsFresh ms.pageTable m area nodes data ms'.pageTable m' area')
    (areasEq : ms'.areas = ms.areas ++ [area']) : ms'.frames.Perm (ms.frames ++ (nodes ++ data)) := by
  have dataEq : area'.frames = data := by
    rw [fresh.area_eq]
    exact List.map_snd_zip (Nat.le_of_eq fresh.length_eq)
  simp only [frames, areasEq, List.flatMap_append, List.flatMap_singleton, dataEq,
    fresh.extended.frames_eq, List.append_assoc]
  exact List.Perm.append_left _ (List.perm_append_comm_assoc _ _ _)

/-- Mapping an area onto fresh frames touches no frame the set did not own or take fresh. -/
theorem confined_of_mapsFresh {nodes data : List PhysPageNum} {area' : MapArea}
    (fresh : MapsFresh ms.pageTable m area nodes data ms'.pageTable m' area')
    (areasEq : ms'.areas = ms.areas ++ [area']) : Confined ms.frames m ms'.frames m' :=
  fresh.extended.confined (fun _ owned => List.mem_append_left _ owned)
    fun _ member => List.mem_append.mp ((frames_push fresh areasEq).mem_iff.mp member)

theorem push_confined (valid : ms.pageTable.Valid m) (framed : area.mapType = .framed)
    (empty : area.dataFrames = []) (ran : ms.push area none m = .ok (ms', m')) :
    Confined ms.frames m ms'.frames m' := by
  obtain ⟨nodes, data, area', fresh, areasEq⟩ := push_framed_spec valid framed empty ran
  exact confined_of_mapsFresh fresh areasEq

theorem push_framed_error (valid : ms.pageTable.Valid m) (framed : area.mapType = .framed)
    (empty : area.dataFrames = []) (distinct : (area.vpnRange.vpns.map VirtPageNum.indexes).Nodup)
    (vacant : ∀ v ∈ area.vpnRange.vpns, ms.pageTable.mapping m.mem v = none)
    (failed : ms.push area none m = .error e) :
    e = .frameExhausted ∧ m.frameAllocator.freeFrames < 3 * area.vpnRange.vpns.length := by
  rcases Foundation.bind_eq_error.mp failed with bad | ⟨⟨area', pt'⟩, mid, -, rest⟩
  · exact map_framed_error valid framed empty distinct vacant bad
  · simp at rest

/-- `insert_framed_area` over a range whose ends are in order pushes the framed area of the
range. -/
theorem insertFramedArea_eq {startVa endVa : VirtAddr} (perm : MapPermission)
    (le : startVa.floor.val ≤ endVa.ceil.val) :
    ms.insertFramedArea startVa endVa perm = ms.push ⟨⟨startVa.floor, endVa.ceil, le⟩, [], .framed, perm⟩ none := by
  have made : MapArea.new startVa endVa .framed perm = .ok ⟨⟨startVa.floor, endVa.ceil, le⟩, [], .framed, perm⟩ := by
    rw [MapArea.new, VPNRange.new, dif_pos le]
    rfl
  funext m
  rw [insertFramedArea, made, Foundation.liftExcept_ok_bind]

end MemorySet

end RCore
