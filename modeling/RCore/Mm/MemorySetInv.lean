import RCore.Mm.MemorySetSpec

/-! # The representation invariant of a user address space

A user `MemorySet` maps the trampoline page and the pages of its areas, and nothing else;
every area is framed and backs each of its pages by the frame stored under it in
`data_frames`, mapped with the area's permission. The page table sees a page number only
through its Sv39 indices, the low 27 bits (`RCore.VirtPageNum.indexes`), so the invariant
speaks of indices: the page numbers `2 ^ 52 - 1` of `TRAMPOLINE` and `2 ^ 27 - 1` share one
entry, and so would any user page above `2 ^ 27` with one below.

`RCore.MemorySet.Inv` holds after the trampoline is mapped into a fresh table
(`RCore.MemorySet.inv_mapTrampoline`), and pushing a framed area keeps it
(`RCore.MemorySet.Inv.push`): `push` succeeds only when the new pages are unmapped, and the
invariant turns that into disjointness from every page already there. A push onto a set
that keeps the invariant fails only by frame exhaustion (`RCore.MemorySet.Inv.push_error`).
-/

namespace RCore

/-- The page of `TRAMPOLINE`. -/
def trampolineVpn : VirtPageNum := ⟨trampoline / pageSize⟩

namespace MemorySet

/-- The pages of the areas, area after area. -/
def pages (ms : MemorySet) : List VirtPageNum := ms.areas.flatMap fun area => area.vpnRange.vpns

/-- The leaf entry of the trampoline page: `strampoline` with `R | X`, made valid by `map`. -/
def trampolineEntry (strampoline : Nat) : PageTableEntry :=
  .new ⟨strampoline / pageSize⟩ (PTEFlags.R ||| PTEFlags.X ||| PTEFlags.V)

/-- The representation invariant of a user address space in machine `m`. -/
structure Inv (strampoline : Nat) (ms : MemorySet) (m : Machine) : Prop where
  table : ms.pageTable.Valid m
  /-- The trampoline and the pages of the areas have pairwise distinct indices. -/
  distinct : ((trampolineVpn :: ms.pages).map VirtPageNum.indexes).Nodup
  /-- A page is mapped exactly when its index is that of the trampoline or of an area page. -/
  mapped_iff : ∀ v, (ms.pageTable.mapping m.mem v).isSome ↔
    ∃ u ∈ trampolineVpn :: ms.pages, u.indexes = v.indexes
  trampoline : ms.pageTable.mapping m.mem trampolineVpn = some (trampolineEntry strampoline)
  framed : ∀ area ∈ ms.areas, area.mapType = .framed ∧ area.dataFrames.map Prod.fst = area.vpnRange.vpns
  entries : ∀ area ∈ ms.areas, ∀ entry ∈ area.dataFrames,
    ms.pageTable.mapping m.mem entry.1 = some (area.entry entry.2)
  frames_nodup : ms.frames.Nodup
  frames_allocated : ∀ ppn ∈ ms.frames, m.frameAllocator.Allocated ppn

theorem mem_pages {ms : MemorySet} {v : VirtPageNum} :
    v ∈ ms.pages ↔ ∃ area ∈ ms.areas, v ∈ area.vpnRange.vpns := by
  simp [pages]

variable {strampoline : Nat} {ms ms' : MemorySet} {m m' : Machine} {area : MapArea} {e : Panic}

theorem trampoline_toVirtPageNum : VirtAddr.toVirtPageNum ⟨trampoline⟩ = .ok trampolineVpn := by
  rw [VirtAddr.toVirtPageNum, if_pos (by rw [VirtAddr.pageOffset_eq]; simp [trampoline_eq, pageSize])]
  rfl

theorem toPhysPageNum_of_aligned {strampoline : Nat} (aligned : strampoline % pageSize = 0) :
    PhysAddr.toPhysPageNum ⟨strampoline⟩ = .ok ⟨strampoline / pageSize⟩ := by
  have mask : strampoline &&& (pageSize - 1) = strampoline % pageSize :=
    Nat.and_two_pow_sub_one_eq_mod strampoline 12
  rw [PhysAddr.toPhysPageNum, if_pos (mask.trans aligned)]

theorem newBare_eq_ok (built : newBare m = .ok (ms, m')) :
    PageTable.new m = .ok (ms.pageTable, m') ∧ ms.areas = [] := by
  obtain ⟨pt, mid, made, rest⟩ := Foundation.bind_eq_ok.mp built
  cases rest
  exact ⟨made, rfl⟩

theorem mapTrampoline_eq_ok (aligned : strampoline % pageSize = 0)
    (ran : ms.mapTrampoline strampoline m = .ok (ms', m')) :
    ms.pageTable.map trampolineVpn ⟨strampoline / pageSize⟩ (PTEFlags.R ||| PTEFlags.X) m =
      .ok (ms'.pageTable, m') ∧ ms'.areas = ms.areas := by
  unfold mapTrampoline at ran
  simp only [Foundation.bind_eq_ok, Foundation.liftExcept_apply, trampoline_toVirtPageNum,
    toPhysPageNum_of_aligned aligned, Except.map, Except.ok.injEq, Prod.mk.injEq] at ran
  obtain ⟨_, _, ⟨rfl, rfl⟩, _, _, ⟨rfl, rfl⟩, pt, mid, mapped, done⟩ := ran
  cases done
  exact ⟨mapped, rfl⟩

/-- A fresh table with the trampoline mapped keeps the invariant, with no area. -/
theorem inv_mapTrampoline (inv : m.Inv) (aligned : strampoline % pageSize = 0) {bare : MemorySet}
    {mid : Machine} (built : newBare m = .ok (bare, mid))
    (ran : bare.mapTrampoline strampoline mid = .ok (ms', m')) :
    ms'.Inv strampoline m' ∧ ms'.areas = [] := by
  obtain ⟨made, noAreas⟩ := newBare_eq_ok built
  obtain ⟨valid, -, -, -, -, -, unmapped⟩ := PageTable.new_spec inv made
  obtain ⟨mapped, sameAreas⟩ := mapTrampoline_eq_ok aligned ran
  obtain ⟨fresh, -, -, valid', -, mapping'⟩ := PageTable.map_spec valid mapped
  have noAreas' : ms'.areas = [] := sameAreas.trans noAreas
  have noPages : ms'.pages = [] := by simp [pages, noAreas']
  refine ⟨⟨valid', by simp [noPages], fun v => ?_, ?_, by simp [noAreas'], by simp [noAreas'], ?_, ?_⟩,
    noAreas'⟩
  · rw [mapping' v, noPages]
    split
    case isTrue same => simpa using same.symm
    case isFalse apart =>
      rw [unmapped v]
      simpa [eq_comm] using apart
  · rw [mapping' trampolineVpn, if_pos rfl]
    rfl
  · simpa [frames, noAreas'] using valid'.wellFormed.frames_nodup
  · intro ppn owned
    exact valid'.allocated ppn (by simpa [frames, noAreas'] using owned)

/-- Building the bare set with the trampoline takes only fresh frames. -/
theorem confined_mapTrampoline (inv : m.Inv) (aligned : strampoline % pageSize = 0) {bare : MemorySet}
    {mid : Machine} (built : newBare m = .ok (bare, mid))
    (ran : bare.mapTrampoline strampoline mid = .ok (ms', m')) : Confined [] m ms'.frames m' := by
  obtain ⟨made, noAreas⟩ := newBare_eq_ok built
  obtain ⟨allocated, single⟩ := PageTable.new_eq_ok made
  obtain ⟨valid, -⟩ := PageTable.new_spec inv made
  obtain ⟨mapped, sameAreas⟩ := mapTrampoline_eq_ok aligned ran
  obtain ⟨fresh, grown, -, valid', -, -⟩ := PageTable.map_spec valid mapped
  have first : Confined [] m bare.pageTable.frames mid := by
    rw [single]
    exact frameAllocUnwrap_confined inv allocated []
  have second : Confined bare.pageTable.frames mid ms'.pageTable.frames m' :=
    (MapArea.Extends.ofGrows grown valid valid').confined (fun _ owned => owned)
      fun ppn member => by
        rw [grown.frames_eq] at member
        simpa using member
  refine (first.trans second).mono fun ppn member => ?_
  simpa [frames, sameAreas, noAreas] using member

theorem newBare_isOk (free : 0 < m.frameAllocator.freeFrames) : ∃ ms m', newBare m = .ok (ms, m') := by
  obtain ⟨root, mid, allocated⟩ := frameAllocUnwrap_isOk free
  exact ⟨⟨⟨root, [root]⟩, []⟩, mid,
    Foundation.bind_eq_ok.mpr ⟨⟨root, [root]⟩, mid, Foundation.bind_eq_ok.mpr ⟨root, mid, allocated, rfl⟩, rfl⟩⟩

/-- With no frame left, `MemorySet::new_bare` panics in `PageTable::new`. -/
theorem newBare_of_exhausted (inv : m.Inv) (exhausted : m.frameAllocator.freeFrames = 0) :
    newBare m = .error .frameExhausted :=
  Foundation.bind_of_error (Foundation.bind_of_error (frameAllocUnwrap_of_exhausted inv exhausted))

/-- With two free frames, the trampoline maps into a table that maps nothing. -/
theorem mapTrampoline_isOk (aligned : strampoline % pageSize = 0) (valid : ms.pageTable.Valid m)
    (free : 2 ≤ m.frameAllocator.freeFrames) (unmapped : ms.pageTable.mapping m.mem trampolineVpn = none) :
    ∃ ms' m', ms.mapTrampoline strampoline m = .ok (ms', m') ∧
      m'.frameAllocator.freeFrames ≤ m.frameAllocator.freeFrames ∧
      m.frameAllocator.freeFrames ≤ m'.frameAllocator.freeFrames + 2 := by
  cases mapped : ms.pageTable.map trampolineVpn ⟨strampoline / pageSize⟩ (PTEFlags.R ||| PTEFlags.X) m with
  | error e =>
      rcases PageTable.map_eq_error_spec valid mapped with ⟨-, few⟩ | ⟨-, isMapped⟩
      · omega
      · rw [unmapped] at isMapped
        cases isMapped
  | ok result =>
      obtain ⟨pt, m'⟩ := result
      refine ⟨{ ms with pageTable := pt }, m', ?_, ?_, ?_⟩
      · unfold mapTrampoline
        rw [trampoline_toVirtPageNum, Foundation.liftExcept_ok_bind, toPhysPageNum_of_aligned aligned,
          Foundation.liftExcept_ok_bind]
        exact Foundation.bind_eq_ok.mpr ⟨pt, m', mapped, rfl⟩
      all_goals
        obtain ⟨fresh, grown, few, -, -, -⟩ := PageTable.map_spec valid mapped
        have spent := grown.freeFrames_eq
        omega

/-- The address space that `new_bare` and `map_trampoline` build, with what building it
changed of the machine. -/
theorem exists_inv_confined (inv : m.Inv) (aligned : strampoline % pageSize = 0)
    (free : 3 ≤ m.frameAllocator.freeFrames) :
    ∃ (ms : MemorySet) (m' : Machine), ms.Inv strampoline m' ∧ ms.areas = [] ∧
      m'.frameAllocator.freeFrames + 1 ≤ m.frameAllocator.freeFrames ∧
      m.frameAllocator.freeFrames ≤ m'.frameAllocator.freeFrames + 3 ∧ Confined [] m ms.frames m' := by
  have positive : 0 < m.frameAllocator.freeFrames := by omega
  obtain ⟨bare, mid, built⟩ := newBare_isOk positive
  obtain ⟨made, noAreas⟩ := newBare_eq_ok built
  obtain ⟨valid, -, -, -, fewer, -, unmapped⟩ := PageTable.new_spec inv made
  obtain ⟨ms, m', ran, spent, bounded⟩ := mapTrampoline_isOk aligned valid (by omega) (unmapped trampolineVpn)
  obtain ⟨invariant, noAreas'⟩ := inv_mapTrampoline inv aligned built ran
  exact ⟨ms, m', invariant, noAreas', by omega, by omega, confined_mapTrampoline inv aligned built ran⟩

/-- On a machine with three free frames a fresh address space with the trampoline can be
built; it takes one to three of them. -/
theorem exists_inv (inv : m.Inv) (aligned : strampoline % pageSize = 0)
    (free : 3 ≤ m.frameAllocator.freeFrames) :
    ∃ (ms : MemorySet) (m' : Machine), ms.Inv strampoline m' ∧ ms.areas = [] ∧
      m'.frameAllocator.freeFrames + 1 ≤ m.frameAllocator.freeFrames ∧
      m.frameAllocator.freeFrames ≤ m'.frameAllocator.freeFrames + 3 := by
  obtain ⟨ms, m', invariant, noAreas, spent, bounded, -⟩ := exists_inv_confined inv aligned free
  exact ⟨ms, m', invariant, noAreas, spent, bounded⟩

/-- A page whose index is neither the trampoline's nor an area page's is unmapped. -/
theorem Inv.mapping_eq_none (inv : ms.Inv strampoline m) {v : VirtPageNum}
    (apart : ∀ u ∈ trampolineVpn :: ms.pages, u.indexes ≠ v.indexes) :
    ms.pageTable.mapping m.mem v = none := by
  by_contra mapped
  obtain ⟨u, member, same⟩ := (inv.mapped_iff v).mp (Option.ne_none_iff_isSome.mp mapped)
  exact apart u member same

/-- With no area, only the trampoline's index is mapped. -/
theorem Inv.mapping_eq_none_of_areas_nil (inv : ms.Inv strampoline m) (noAreas : ms.areas = [])
    {v : VirtPageNum} (apart : v.indexes ≠ trampolineVpn.indexes) : ms.pageTable.mapping m.mem v = none := by
  apply inv.mapping_eq_none
  have noPages : ms.pages = [] := by simp [pages, noAreas]
  rw [noPages]
  intro u trampolineOnly same
  rw [List.mem_singleton.mp trampolineOnly] at same
  exact apart same.symm

/-- An unmapped page shares its index with no page of the set. -/
theorem Inv.apart_of_mapping_eq_none (inv : ms.Inv strampoline m) {v : VirtPageNum}
    (vacant : ms.pageTable.mapping m.mem v = none) :
    ∀ u ∈ trampolineVpn :: ms.pages, u.indexes ≠ v.indexes := by
  intro u member same
  have mapped := (inv.mapped_iff v).mpr ⟨u, member, same⟩
  rw [vacant] at mapped
  cases mapped

/-- The invariant depends only on the bytes of the table and on the set's frames staying
allocated. -/
theorem Inv.of_rely (inv : ms.Inv strampoline m) (machine : m'.Inv)
    (allocated : ∀ ppn ∈ ms.frames, m'.frameAllocator.Allocated ppn)
    (same : PageTable.SameOn ms.pageTable.frames m.mem m'.mem) : ms.Inv strampoline m' := by
  have wf := inv.table.wellFormed
  have mappingEq := PageTable.mapping_congr wf same
  refine ⟨⟨machine, PageTable.wellFormed_congr wf same,
      fun ppn owned => allocated ppn (List.mem_append_left _ owned)⟩,
    inv.distinct, fun v => ?_, ?_, inv.framed, fun area member entry owned => ?_, inv.frames_nodup,
    allocated⟩
  · rw [mappingEq]
    exact inv.mapped_iff v
  · rw [mappingEq]
    exact inv.trampoline
  · rw [mappingEq]
    exact inv.entries area member entry owned

/-- Every page of a list as long as the frames has a frame beside it in their zip. -/
theorem exists_mem_zip {vpns : List VirtPageNum} {data : List PhysPageNum}
    (length : data.length = vpns.length) {v : VirtPageNum} (member : v ∈ vpns) :
    ∃ ppn, (v, ppn) ∈ vpns.zip data := by
  rw [← List.map_fst_zip (Nat.le_of_eq length.symm)] at member
  obtain ⟨⟨u, ppn⟩, found, rfl⟩ := List.mem_map.mp member
  exact ⟨ppn, found⟩

/-- A set whose table mapped a framed area onto fresh frames, kept last, keeps the invariant. -/
theorem Inv.of_mapsFresh (inv : ms.Inv strampoline m) (framed : area.mapType = .framed)
    {nodes data : List PhysPageNum} {area' : MapArea}
    (fresh : MapArea.MapsFresh ms.pageTable m area nodes data ms'.pageTable m' area')
    (areasEq : ms'.areas = ms.areas ++ [area']) : ms'.Inv strampoline m' := by
  have areaEq := fresh.area_eq
  subst areaEq
  have pagesEq : ms'.pages = ms.pages ++ area.vpnRange.vpns := by
    simp [pages, areasEq]
  -- the new pages were unmapped, so their indices are new
  have newApart : ∀ v ∈ area.vpnRange.vpns, ∀ u ∈ trampolineVpn :: ms.pages, u.indexes ≠ v.indexes :=
    fun v member => inv.apart_of_mapping_eq_none (fresh.vacant v member)
  have framesEq := frames_push fresh areasEq
  refine ⟨fresh.valid, ?_, ?_, ?_, ?_, ?_, ?_, ?_⟩
  · rw [pagesEq, ← List.cons_append, List.map_append]
    refine List.nodup_append.mpr ⟨inv.distinct, fresh.distinct, ?_⟩
    intro a early b late same
    obtain ⟨u, old, rfl⟩ := List.mem_map.mp early
    obtain ⟨v, new, rfl⟩ := List.mem_map.mp late
    exact newApart v new u old same
  · intro v
    rw [pagesEq, ← List.cons_append]
    by_cases hit : ∃ u ∈ area.vpnRange.vpns, u.indexes = v.indexes
    · obtain ⟨u, member, same⟩ := hit
      obtain ⟨ppn, found⟩ := exists_mem_zip fresh.length_eq member
      rw [← PageTable.mapping_eq_of_indexes_eq same, fresh.mapped (u, ppn) found]
      simp only [Option.isSome_some, true_iff]
      exact ⟨u, List.mem_append_right _ member, same⟩
    · have apart : ∀ u ∈ area.vpnRange.vpns, u.indexes ≠ v.indexes := fun u member same =>
        hit ⟨u, member, same⟩
      rw [fresh.others v apart, inv.mapped_iff v]
      constructor
      · rintro ⟨u, member, same⟩
        exact ⟨u, List.mem_append_left _ member, same⟩
      · rintro ⟨u, member, same⟩
        rcases List.mem_append.mp member with old | new
        · exact ⟨u, old, same⟩
        · exact absurd same (apart u new)
  · rw [fresh.others trampolineVpn fun v member same => newApart v member _ List.mem_cons_self same.symm]
    exact inv.trampoline
  · intro other member
    rw [areasEq] at member
    rcases List.mem_append.mp member with old | new
    · exact inv.framed other old
    · rw [List.mem_singleton.mp new]
      exact ⟨framed, List.map_fst_zip (Nat.le_of_eq fresh.length_eq.symm)⟩
  · intro other member entry owned
    rw [areasEq] at member
    rcases List.mem_append.mp member with old | new
    · -- an old page keeps its entry: its index is not one of the new pages'
      have page : entry.1 ∈ other.vpnRange.vpns := by
        rw [← (inv.framed other old).2]
        exact List.mem_map_of_mem owned
      have apart : ∀ u ∈ area.vpnRange.vpns, u.indexes ≠ entry.1.indexes := fun u new same =>
        newApart u new entry.1 (List.mem_cons_of_mem _ (mem_pages.mpr ⟨other, old, page⟩)) same.symm
      rw [fresh.others _ apart]
      exact inv.entries other old entry owned
    · obtain rfl := List.mem_singleton.mp new
      exact fresh.mapped entry owned
  · refine framesEq.nodup_iff.mpr (List.nodup_append.mpr ⟨inv.frames_nodup, fresh.extended.nodup, ?_⟩)
    intro a old b new same
    subst same
    exact fresh.extended.fresh a new (inv.frames_allocated a old)
  · intro ppn member
    rcases List.mem_append.mp (framesEq.mem_iff.mp member) with old | new
    · exact (fresh.extended.allocated_iff ppn).mpr (.inl (inv.frames_allocated ppn old))
    · exact (fresh.extended.allocated_iff ppn).mpr (.inr new)

/-- `push` of a framed area with no frame keeps the invariant. -/
theorem Inv.push (inv : ms.Inv strampoline m) (framed : area.mapType = .framed)
    (empty : area.dataFrames = []) (ran : ms.push area none m = .ok (ms', m')) :
    ms'.Inv strampoline m' := by
  obtain ⟨nodes, data, area', fresh, areasEq⟩ := push_framed_spec inv.table framed empty ran
  exact inv.of_mapsFresh framed fresh areasEq

/-- A push of a framed area with no frame, whose pages have indices of their own, fails only by
frame exhaustion. -/
theorem Inv.push_error (inv : ms.Inv strampoline m) (framed : area.mapType = .framed)
    (empty : area.dataFrames = []) (distinct : (area.vpnRange.vpns.map VirtPageNum.indexes).Nodup)
    (apart : ∀ v ∈ area.vpnRange.vpns, ∀ u ∈ trampolineVpn :: ms.pages, u.indexes ≠ v.indexes)
    (failed : ms.push area none m = .error e) :
    e = .frameExhausted ∧ m.frameAllocator.freeFrames < 3 * area.vpnRange.vpns.length :=
  push_framed_error inv.table framed empty distinct
    (fun v member => inv.mapping_eq_none (apart v member)) failed

end MemorySet

end RCore
