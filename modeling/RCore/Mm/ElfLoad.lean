import RCore.Mm.MemorySetInv

/-! # Loading an ELF image

`MemorySet::from_elf` builds an address space from the trampoline, one framed area for each
loadable segment with the segment's file bytes copied in, a user stack and the trap context.
When every loadable segment lies below `TRAMPOLINE` and holds no more file bytes than memory
bytes (`RCore.ElfFile.Loadable`), the result keeps the representation invariant and owns only
frames the load took fresh (`RCore.MemorySet.fromElf_spec`).

`copy_data` walks the pages of an area from its first and copies a page of bytes into each
page's frame (`RCore.MapArea.copyDataLoop_spec`). In an area just mapped onto fresh frames,
with no more bytes than the area holds, these are the area's own frames, so the bytes of the
page table stay as they were and the invariant survives the copy.
-/

namespace RCore

/-- A program header the loader can place: a loadable segment lies below `TRAMPOLINE` and has
no more bytes in the file than in memory. -/
def ProgramHeader.Loadable (ph : ProgramHeader) : Prop :=
  ph.isLoad = true → ph.fileSize ≤ ph.memSize ∧ ph.virtualAddr + ph.memSize ≤ trampoline

instance : DecidablePred ProgramHeader.Loadable := fun ph =>
  inferInstanceAs (Decidable (ph.isLoad = true → _ ∧ _))

/-- An ELF file whose every program header the loader can place. -/
def ElfFile.Loadable (elf : ElfFile) : Prop := ∀ ph ∈ elf.programHeaders, ph.Loadable

instance : DecidablePred ElfFile.Loadable := fun elf =>
  inferInstanceAs (Decidable (∀ ph ∈ elf.programHeaders, ph.Loadable))

/-- The pages from `floor(a)` to `ceil(a + len)` hold `len` bytes. -/
theorem VirtAddr.length_le_span {a len : Nat} (fits : a + len ≤ trampoline) :
    len ≤ ((⟨a + len⟩ : VirtAddr).ceil.val - (⟨a⟩ : VirtAddr).floor.val) * pageSize := by
  rw [VirtAddr.ceil_val fits]
  simp only [VirtAddr.floor, pageSize]
  omega

theorem sliceBytes_length {input data : List UInt8} {start stop : Nat}
    (sliced : sliceBytes input start stop = .ok data) : data.length ≤ stop - start := by
  unfold sliceBytes at sliced
  split at sliced
  case isTrue _ =>
    cases sliced
    simp only [List.length_take]
    exact Nat.min_le_left _ _
  case isFalse _ => cases sliced

/-- Writes outside the frames `targets`, none of them a node of the table, keep the table's
bytes. -/
theorem PageTable.sameOn_of_writes {pt : PageTable} {mem mem' : Nat → UInt8} {targets : List PhysPageNum}
    (wf : pt.WellFormed mem) (apart : ∀ ppn ∈ targets, ppn ∉ pt.frames)
    (small : ∀ ppn ∈ targets, ppn.val < 2 ^ 52)
    (writes : ∀ addr, (∀ ppn ∈ targets, ¬ ppn.Covers addr) → mem' addr = mem addr) :
    PageTable.SameOn pt.frames mem mem' := by
  intro node owned addr covered
  apply writes addr
  intro ppn target coversTarget
  have smallNode : node.val < 2 ^ 52 := by
    have := wf.frames_lt node owned
    omega
  obtain rfl := MapArea.eq_of_covers (small ppn target) smallNode coversTarget covered
  exact apart ppn target owned

namespace MapArea

variable {pt pt' : PageTable} {data : List UInt8} {m m' m'' : Machine} {area area' : MapArea}

theorem new_eq_ok {startVa endVa : VirtAddr} {mapType : MapType} {mapPerm : MapPermission}
    (made : MapArea.new startVa endVa mapType mapPerm = .ok area) :
    area.vpnRange.l = startVa.floor ∧ area.vpnRange.r = endVa.ceil ∧ area.dataFrames = [] ∧
      area.mapType = mapType ∧ area.mapPerm = mapPerm := by
  unfold MapArea.new at made
  cases built : VPNRange.new startVa.floor endVa.ceil with
  | error e =>
      rw [built] at made
      cases made
  | ok range =>
      rw [built] at made
      cases made
      obtain ⟨start, stop⟩ := VPNRange.new_eq_ok built
      exact ⟨start, stop, rfl, rfl, rfl⟩

theorem copyDataLoop_succ_eq_ok {fuel start : Nat} {vpn : VirtPageNum}
    (ran : copyDataLoop pt data (fuel + 1) start vpn m = .ok (⟨⟩, m')) :
    ∃ pte, pt.translate m.mem vpn = some pte ∧
      let src := (data.drop start).take pageSize
      let m1 : Machine := { m with mem := Foundation.writeBytes m.mem pte.ppn.toPhysAddr.val src }
      (data.length ≤ start + pageSize ∧ m' = m1) ∨
        (start + pageSize < data.length ∧
          copyDataLoop pt data fuel (start + pageSize) ⟨vpn.val + 1⟩ m1 = .ok (⟨⟩, m')) := by
  unfold copyDataLoop at ran
  obtain ⟨m0, m1, got, rest⟩ := Foundation.bind_eq_ok.mp ran
  simp only [Foundation.get_apply, Except.ok.injEq, Prod.mk.injEq] at got
  obtain ⟨rfl, rfl⟩ := got
  cases found : pt.translate m.mem vpn with
  | none =>
      rw [found] at rest
      cases rest
  | some pte =>
      rw [found] at rest
      obtain ⟨⟨⟩, m2, written, after⟩ := Foundation.bind_eq_ok.mp rest
      simp only [Foundation.set_apply, Except.ok.injEq, Prod.mk.injEq] at written
      obtain ⟨-, rfl⟩ := written
      refine ⟨pte, rfl, ?_⟩
      dsimp only at after ⊢
      -- the loop stops once the slice reached the end of the data
      split at after
      case isTrue stop =>
        cases after
        exact .inl ⟨stop, rfl⟩
      case isFalse go =>
        exact .inr ⟨by omega, after⟩

variable {targets : List PhysPageNum}

/-- The copy loop from byte `start` and page `vpn` writes only into the frames `targets` that
back the pages it fills, and so keeps the bytes of the table; by induction over the pages, one
slice at a time. -/
theorem copyDataLoop_spec (apart : ∀ ppn ∈ targets, ppn ∉ pt.frames)
    (small : ∀ ppn ∈ targets, ppn.val < 2 ^ 52) :
    ∀ (fuel start : Nat) (vpn : VirtPageNum) (m m' : Machine), pt.WellFormed m.mem →
      (∀ k, start + k * pageSize < data.length →
        ∃ pte, pt.translate m.mem ⟨vpn.val + k⟩ = some pte ∧ pte.ppn ∈ targets) →
      copyDataLoop pt data fuel start vpn m = .ok (⟨⟩, m') →
      m'.frameAllocator = m.frameAllocator ∧
        ∀ addr, (∀ ppn ∈ targets, ¬ ppn.Covers addr) → m'.mem addr = m.mem addr := by
  intro fuel
  induction fuel with
  | zero =>
      intro start vpn m m' _ _ ran
      cases ran
      exact ⟨rfl, fun _ _ => rfl⟩
  | succ fuel ih =>
      intro start vpn m m' wf backed ran
      obtain ⟨pte, found, step⟩ := copyDataLoop_succ_eq_ok ran
      -- the slice lands in the frame of `vpn`, one of the targets unless it is empty
      have written : ∀ addr, (∀ ppn ∈ targets, ¬ ppn.Covers addr) →
          Foundation.writeBytes m.mem pte.ppn.toPhysAddr.val ((data.drop start).take pageSize) addr =
            m.mem addr := by
        intro addr outside
        by_cases filled : start < data.length
        · obtain ⟨pte', found', target⟩ := backed 0 (by omega)
          rw [Nat.add_zero] at found'
          rw [found, Option.some.injEq] at found'
          subst found'
          exact writeBytes_apply_of_not_covers (by simp only [List.length_take]; exact Nat.min_le_left _ _)
            (outside pte.ppn target)
        · apply Foundation.writeBytes_apply_of_not_mem
          simp only [List.drop_eq_nil_of_le (Nat.le_of_not_lt filled), List.take_nil, List.length_nil]
          omega
      have same := PageTable.sameOn_of_writes wf apart small written
      dsimp only at step
      rcases step with ⟨-, rfl⟩ | ⟨-, rest⟩
      · exact ⟨rfl, written⟩
      · have wf' := PageTable.wellFormed_congr wf same
        -- the table is unchanged, so the later pages are still backed by targets
        have backed' : ∀ k, start + pageSize + k * pageSize < data.length →
            ∃ entry, pt.translate (Foundation.writeBytes m.mem pte.ppn.toPhysAddr.val
              ((data.drop start).take pageSize)) ⟨vpn.val + 1 + k⟩ = some entry ∧ entry.ppn ∈ targets := by
          intro k inside
          rw [PageTable.translate_congr wf same, show vpn.val + 1 + k = vpn.val + (k + 1) by omega]
          exact backed (k + 1) (by rw [Nat.add_mul, Nat.one_mul]; omega)
        obtain ⟨sameAllocator, sameMem⟩ := ih (start + pageSize) ⟨vpn.val + 1⟩
          { m with mem := Foundation.writeBytes m.mem pte.ppn.toPhysAddr.val ((data.drop start).take pageSize) }
          m' wf' backed' rest
        exact ⟨sameAllocator, fun addr outside => (sameMem addr outside).trans (written addr outside)⟩

theorem copyData_of_framed (framed : area.mapType = .framed) :
    area.copyData pt data = copyDataLoop pt data (data.length / pageSize + 1) 0 area.vpnRange.l := by
  funext m
  simp only [copyData, framed, ne_eq, not_true_eq_false, if_false]

variable {nodes frames : List PhysPageNum}

theorem MapsFresh.data_lt_end (fresh : MapsFresh pt m area nodes frames pt' m' area') :
    ∀ ppn ∈ frames, ppn.val < memoryEnd / pageSize := fun ppn member =>
  fresh.valid.machine.lt_of_allocated
    ((fresh.extended.allocated_iff ppn).mpr (.inr (List.mem_append_right _ member)))

/-- A data frame was free before the map, so it is no node of the old table, nor a new node. -/
theorem MapsFresh.data_not_mem_frames (valid : pt.Valid m) (fresh : MapsFresh pt m area nodes frames pt' m' area') :
    ∀ ppn ∈ frames, ppn ∉ pt'.frames := by
  intro ppn member owned
  rw [fresh.extended.frames_eq] at owned
  rcases List.mem_append.mp owned with old | new
  · exact fresh.extended.fresh ppn (List.mem_append_right _ member) (valid.allocated ppn old)
  · exact List.disjoint_of_nodup_append fresh.extended.nodup new member

/-- `copy_data` of no more bytes than the pages of an area just mapped onto the fresh frames
`frames` writes only into those frames. -/
theorem copyData_spec (valid : pt.Valid m) (fresh : MapsFresh pt m area nodes frames pt' m' area')
    (framed : area.mapType = .framed) (fits : data.length ≤ area.vpnRange.vpns.length * pageSize)
    (ran : area'.copyData pt' data m' = .ok (⟨⟩, m'')) :
    m''.frameAllocator = m'.frameAllocator ∧
      ∀ addr, (∀ ppn ∈ frames, ¬ ppn.Covers addr) → m''.mem addr = m'.mem addr := by
  have below := fresh.data_lt_end
  have apart := fresh.data_not_mem_frames valid
  have areaEq := fresh.area_eq
  subst areaEq
  have framed' : ({ area with dataFrames := area.vpnRange.vpns.zip frames } : MapArea).mapType = .framed :=
    framed
  rw [copyData_of_framed framed'] at ran
  -- page `k` of the area is backed by its data frame, as long as the data reaches it
  have backed : ∀ k, 0 + k * pageSize < data.length →
      ∃ pte, pt'.translate m'.mem ⟨area.vpnRange.l.val + k⟩ = some pte ∧ pte.ppn ∈ frames := by
    intro k inside
    have short : k < area.vpnRange.vpns.length :=
      Nat.lt_of_mul_lt_mul_right (Nat.lt_of_lt_of_le (by omega) fits)
    rw [VPNRange.length_vpns] at short
    have page : (⟨area.vpnRange.l.val + k⟩ : VirtPageNum) ∈ area.vpnRange.vpns :=
      VPNRange.mem_vpns.mpr ⟨Nat.le_add_right _ _, by simp only; omega⟩
    obtain ⟨ppn, found⟩ := MemorySet.exists_mem_zip fresh.length_eq page
    have owned := (List.of_mem_zip found).2
    have mapped := fresh.mapped (⟨area.vpnRange.l.val + k⟩, ppn) found
    dsimp only at mapped
    refine ⟨area.entry ppn, PageTable.translate_of_mapping mapped, ?_⟩
    rw [entry, PageTableEntry.ppn_new (PageTable.frame_lt_of_alloc (below ppn owned))]
    exact owned
  exact copyDataLoop_spec apart (fun ppn member => small_of_lt_end (below ppn member)) _ 0
    area.vpnRange.l m' m'' fresh.valid.wellFormed backed ran

end MapArea

namespace MemorySet

variable {strampoline : Nat} {ms ms' : MemorySet} {m m' : Machine} {area : MapArea} {data : List UInt8}

theorem push_some_eq_ok (ran : ms.push area (some data) m = .ok (ms', m')) :
    ∃ area' pt' mid, area.map ms.pageTable m = .ok ((area', pt'), mid) ∧
      area'.copyData pt' data mid = .ok (⟨⟩, m') ∧ ms' = ⟨pt', ms.areas ++ [area']⟩ := by
  obtain ⟨⟨area', pt'⟩, mid, mapped, rest⟩ := Foundation.bind_eq_ok.mp ran
  obtain ⟨⟨⟩, m1, copied, done⟩ := Foundation.bind_eq_ok.mp rest
  simp only [Foundation.pure_apply, Except.ok.injEq, Prod.mk.injEq] at done
  obtain ⟨rfl, rfl⟩ := done
  exact ⟨area', pt', mid, mapped, copied, rfl⟩

/-- `push` of a framed area with no frame yet and no more initial data than its pages hold
keeps the invariant, and touches only the set's frames and those it takes fresh. -/
theorem Inv.push_some (inv : ms.Inv strampoline m) (framed : area.mapType = .framed)
    (empty : area.dataFrames = []) (fits : data.length ≤ area.vpnRange.vpns.length * pageSize)
    (ran : ms.push area (some data) m = .ok (ms', m')) :
    ms'.Inv strampoline m' ∧ Confined ms.frames m ms'.frames m' := by
  obtain ⟨area', pt', mid, mapped, copied, rfl⟩ := push_some_eq_ok ran
  obtain ⟨nodes, frames, fresh⟩ := MapArea.map_framed_spec inv.table framed empty mapped
  have mapInv : (⟨pt', ms.areas ++ [area']⟩ : MemorySet).Inv strampoline mid :=
    inv.of_mapsFresh framed fresh rfl
  have held : ∀ ppn ∈ frames, ppn ∈ (⟨pt', ms.areas ++ [area']⟩ : MemorySet).frames := fun ppn member =>
    (frames_push fresh rfl).mem_iff.mpr (List.mem_append_right _ (List.mem_append_right _ member))
  have small : ∀ ppn ∈ frames, ppn.val < 2 ^ 52 := fun ppn member =>
    small_of_lt_end (fresh.data_lt_end ppn member)
  obtain ⟨sameAllocator, writes⟩ := MapArea.copyData_spec inv.table fresh framed fits copied
  have machine : m'.Inv := by
    obtain ⟨allocator, endLe⟩ := mapInv.table.machine
    exact ⟨sameAllocator ▸ allocator, sameAllocator ▸ endLe⟩
  -- the copy writes only into the data frames, none of them a node of the table
  have same := PageTable.sameOn_of_writes mapInv.table.wellFormed (fresh.data_not_mem_frames inv.table)
    small writes
  refine ⟨mapInv.of_rely machine (fun ppn owned => sameAllocator ▸ mapInv.frames_allocated ppn owned) same, ?_⟩
  exact (confined_of_mapsFresh fresh rfl).trans
    (Confined.of_writes mapInv.table.machine held small sameAllocator writes)

variable {input : List UInt8} {acc acc' : MemorySet × VirtPageNum} {ph : ProgramHeader}

theorem loadSegment_eq_ok (ran : loadSegment input acc ph m = .ok (acc', m')) :
    (ph.isLoad = false ∧ acc' = acc ∧ m' = m) ∨
      (ph.isLoad = true ∧ ∃ area data,
        MapArea.new ⟨ph.virtualAddr⟩ ⟨wrappingAdd ph.virtualAddr ph.memSize⟩ .framed ph.mapPerm = .ok area ∧
        sliceBytes input ph.offset (wrappingAdd ph.offset ph.fileSize) = .ok data ∧
        acc.1.push area (some data) m = .ok (acc'.1, m')) := by
  unfold loadSegment at ran
  cases isLoad : ph.isLoad
  case false =>
    rw [isLoad, if_pos (by decide)] at ran
    simp only [Foundation.pure_apply, Except.ok.injEq, Prod.mk.injEq] at ran
    obtain ⟨rfl, rfl⟩ := ran
    exact .inl ⟨rfl, rfl, rfl⟩
  case true =>
    rw [isLoad, if_neg (by decide)] at ran
    dsimp only at ran
    obtain ⟨area, m1, lifted, afterArea⟩ := Foundation.bind_eq_ok.mp ran
    obtain ⟨made, rfl⟩ := Foundation.liftExcept_eq_ok.mp lifted
    obtain ⟨data, m2, cut, afterData⟩ := Foundation.bind_eq_ok.mp afterArea
    obtain ⟨sliced, rfl⟩ := Foundation.liftExcept_eq_ok.mp cut
    obtain ⟨ms, m3, pushed, done⟩ := Foundation.bind_eq_ok.mp afterData
    simp only [Foundation.pure_apply, Except.ok.injEq, Prod.mk.injEq] at done
    obtain ⟨rfl, rfl⟩ := done
    exact .inr ⟨rfl, area, data, made, sliced, pushed⟩

/-- One program header of a loadable image keeps the invariant and takes only fresh frames. -/
theorem loadSegment_spec (inv : acc.1.Inv strampoline m) (loadable : ph.Loadable)
    (ran : loadSegment input acc ph m = .ok (acc', m')) :
    acc'.1.Inv strampoline m' ∧ Confined acc.1.frames m acc'.1.frames m' := by
  rcases loadSegment_eq_ok ran with ⟨-, rfl, rfl⟩ | ⟨isLoad, area, data, made, sliced, pushed⟩
  · exact ⟨inv, .refl _ _⟩
  · obtain ⟨fileLe, fits⟩ := loadable isLoad
    obtain ⟨start, stop, empty, framed, -⟩ := MapArea.new_eq_ok made
    -- the file bytes fit in the memory bytes, and those in the pages of the area
    have fitsData : data.length ≤ area.vpnRange.vpns.length * pageSize := by
      rw [VPNRange.length_vpns, start, stop, wrappingAdd_of_fits fits]
      have wrapped : wrappingAdd ph.offset ph.fileSize ≤ ph.offset + ph.fileSize := Nat.mod_le _ _
      calc data.length ≤ wrappingAdd ph.offset ph.fileSize - ph.offset := sliceBytes_length sliced
        _ ≤ ph.fileSize := by omega
        _ ≤ ph.memSize := fileLe
        _ ≤ _ := VirtAddr.length_le_span fits
    exact inv.push_some framed empty fitsData pushed

/-- The loop over the program headers keeps the invariant; by induction over the headers. -/
theorem foldlM_loadSegment_spec {phs : List ProgramHeader} (loadable : ∀ ph ∈ phs, ph.Loadable) :
    ∀ {acc acc' : MemorySet × VirtPageNum} {m m' : Machine}, acc.1.Inv strampoline m →
      (phs.foldlM (loadSegment input) acc : KernelM (MemorySet × VirtPageNum)) m = .ok (acc', m') →
      acc'.1.Inv strampoline m' ∧ Confined acc.1.frames m acc'.1.frames m' := by
  induction phs with
  | nil =>
      intro acc acc' m m' inv ran
      simp only [List.foldlM_nil, Foundation.pure_apply, Except.ok.injEq, Prod.mk.injEq] at ran
      obtain ⟨rfl, rfl⟩ := ran
      exact ⟨inv, .refl _ _⟩
  | cons ph phs ih =>
      intro acc acc' m m' inv ran
      rw [List.foldlM_cons] at ran
      obtain ⟨mid, m1, loaded, rest⟩ := Foundation.bind_eq_ok.mp ran
      obtain ⟨inv1, first⟩ := loadSegment_spec inv (loadable ph List.mem_cons_self) loaded
      obtain ⟨inv2, second⟩ := ih (fun ph member => loadable ph (List.mem_cons_of_mem _ member)) inv1 rest
      exact ⟨inv2, first.trans second⟩

variable {elf : ElfFile} {userStackTop entryPoint : Nat}

/-- With no frame left, `MemorySet::from_elf` panics before it reads the file. -/
theorem fromElf_of_exhausted (inv : m.Inv) (exhausted : m.frameAllocator.freeFrames = 0) :
    fromElf strampoline elf m = .error .frameExhausted :=
  Foundation.bind_of_error (newBare_of_exhausted inv exhausted)

theorem fromElf_spec (inv : m.Inv) (aligned : strampoline % pageSize = 0) (loadable : elf.Loadable)
    (ran : fromElf strampoline elf m = .ok ((ms, userStackTop, entryPoint), m')) :
    ms.Inv strampoline m' ∧ Confined [] m ms.frames m' := by
  unfold fromElf at ran
  obtain ⟨bare, m1, built, afterBare⟩ := Foundation.bind_eq_ok.mp ran
  obtain ⟨base, m2, mapped, afterBase⟩ := Foundation.bind_eq_ok.mp afterBare
  obtain ⟨baseInv, -⟩ := inv_mapTrampoline inv aligned built mapped
  have baseConfined := confined_mapTrampoline inv aligned built mapped
  split at afterBase
  case isTrue _ =>
    obtain ⟨_, _, thrown, -⟩ := Foundation.bind_eq_ok.mp afterBase
    simp at thrown
  case isFalse _ =>
    dsimp only at afterBase
    obtain ⟨⟨loaded, maxEndVpn⟩, m3, folded, afterLoad⟩ := Foundation.bind_eq_ok.mp afterBase
    obtain ⟨loadedInv, loadConfined⟩ := foldlM_loadSegment_spec loadable baseInv folded
    dsimp only at afterLoad
    -- the user stack and the trap context are framed areas pushed with no data
    obtain ⟨stack, m4, liftedStack, afterStack⟩ := Foundation.bind_eq_ok.mp afterLoad
    obtain ⟨madeStack, rfl⟩ := Foundation.liftExcept_eq_ok.mp liftedStack
    obtain ⟨withStack, m5, pushedStack, afterPush⟩ := Foundation.bind_eq_ok.mp afterStack
    obtain ⟨trapArea, m6, liftedTrap, afterTrap⟩ := Foundation.bind_eq_ok.mp afterPush
    obtain ⟨madeTrap, rfl⟩ := Foundation.liftExcept_eq_ok.mp liftedTrap
    obtain ⟨final, m7, pushedTrap, done⟩ := Foundation.bind_eq_ok.mp afterTrap
    simp only [Foundation.pure_apply, Except.ok.injEq, Prod.mk.injEq] at done
    obtain ⟨⟨rfl, -, -⟩, rfl⟩ := done
    obtain ⟨-, -, stackEmpty, stackFramed, -⟩ := MapArea.new_eq_ok madeStack
    obtain ⟨-, -, trapEmpty, trapFramed, -⟩ := MapArea.new_eq_ok madeTrap
    have stackInv := loadedInv.push stackFramed stackEmpty pushedStack
    have stackConfined := push_confined loadedInv.table stackFramed stackEmpty pushedStack
    have trapConfined := push_confined stackInv.table trapFramed trapEmpty pushedTrap
    exact ⟨stackInv.push trapFramed trapEmpty pushedTrap,
      baseConfined.trans (loadConfined.trans (stackConfined.trans trapConfined))⟩

end MemorySet

end RCore
