import RCore.Mm.MemorySetInv

/-! # The kernel address space

`MemorySet::new_kernel` of `os5/src/mm/memory_set.rs`, the set `KERNEL_SPACE` holds: the
trampoline, then the sections of the kernel image and the physical memory up to `MEMORY_END`,
each mapped to itself. The areas it builds hold exactly the pages of those sections
(`RCore.MemorySet.newKernel_pages`). The Sv39 table reads a page by the low 27 bits of its
number, so the table of `KERNEL_SPACE` maps every page whose index is that of one of these
pages as it maps that page (`RCore.PageTable.mapping_eq_of_indexes_eq`).
-/

namespace RCore

/-- The linker symbols `MemorySet::new_kernel` reads (`os5/src/linker.ld`). -/
structure KernelLayout where
  stext : Nat
  etext : Nat
  srodata : Nat
  erodata : Nat
  sdata : Nat
  edata : Nat
  sbssWithStack : Nat
  ebss : Nat
  ekernel : Nat
  strampoline : Nat
deriving DecidableEq, Repr

namespace KernelLayout

/-- The identity areas `new_kernel` pushes after the trampoline, in order, with their
permissions: `.text`, `.rodata`, `.data`, `.bss` with the boot stack, and physical memory. -/
def sections (layout : KernelLayout) : List (Nat × Nat × MapPermission) :=
  [(layout.stext, layout.etext, MapPermission.R ||| MapPermission.X),
    (layout.srodata, layout.erodata, MapPermission.R),
    (layout.sdata, layout.edata, MapPermission.R ||| MapPermission.W),
    (layout.sbssWithStack, layout.ebss, MapPermission.R ||| MapPermission.W),
    (layout.ekernel, memoryEnd, MapPermission.R ||| MapPermission.W)]

/-- Every section ends at most at `MEMORY_END`, as `linker.ld` places the image from
`BASE_ADDRESS = 0x80200000`. -/
def BelowEnd (layout : KernelLayout) : Prop := ∀ bounds ∈ layout.sections, bounds.2.1 ≤ memoryEnd

instance (layout : KernelLayout) : Decidable layout.BelowEnd :=
  inferInstanceAs (Decidable (∀ bounds ∈ layout.sections, bounds.2.1 ≤ memoryEnd))

end KernelLayout

/-- The pages `[floor(start), ceil(stop))` of the area `MapArea::new(start, stop)` builds. -/
def areaPages (start stop : Nat) : List VirtPageNum :=
  (List.range' (start / pageSize) ((⟨stop⟩ : VirtAddr).ceil.val - start / pageSize)).map VirtPageNum.mk

/-- The pages of the identity areas of `new_kernel`. -/
def KernelLayout.pages (layout : KernelLayout) : List VirtPageNum :=
  layout.sections.flatMap fun bounds => areaPages bounds.1 bounds.2.1

namespace MemorySet

/-- One push of `new_kernel`: the area of `[start, stop)`, mapped to itself. -/
def pushIdentical (ms : MemorySet) (bounds : Nat × Nat × MapPermission) : KernelM MemorySet := do
  let area ← StateT.lift (MapArea.new ⟨bounds.1⟩ ⟨bounds.2.1⟩ .identical bounds.2.2)
  ms.push area none

/-- `MemorySet::new_kernel`, with its `info!` lines left out. -/
def newKernel (layout : KernelLayout) : KernelM MemorySet := do
  let ms ← newBare
  let ms ← ms.mapTrampoline layout.strampoline
  layout.sections.foldlM pushIdentical ms

end MemorySet

theorem mem_areaPages {start stop : Nat} {v : VirtPageNum} :
    v ∈ areaPages start stop ↔ start / pageSize ≤ v.val ∧ v.val < (⟨stop⟩ : VirtAddr).ceil.val := by
  unfold areaPages
  constructor
  · intro member
    obtain ⟨n, inside, rfl⟩ := List.mem_map.mp member
    rw [List.mem_range'_1] at inside
    dsimp only
    omega
  · rintro ⟨low, high⟩
    exact List.mem_map.mpr ⟨v.val, List.mem_range'_1.mpr ⟨low, by omega⟩, rfl⟩

/-- A page of an area that ends below `TRAMPOLINE` lies below the page of its end, rounded up. -/
theorem lt_of_mem_areaPages {start stop : Nat} {v : VirtPageNum} (low : stop ≤ trampoline)
    (member : v ∈ areaPages start stop) : v.val < (stop + pageSize - 1) / pageSize := by
  have inside := (mem_areaPages.mp member).2
  rwa [VirtAddr.ceil_val low] at inside

namespace MapArea

variable {area area' : MapArea} {pt pt' : PageTable} {m m' : Machine} {vpn : VirtPageNum}

theorem vpns_new {start stop : Nat} {kind : MapType} {perm : MapPermission}
    (made : MapArea.new ⟨start⟩ ⟨stop⟩ kind perm = .ok area) : area.vpnRange.vpns = areaPages start stop := by
  unfold MapArea.new VPNRange.new at made
  split at made
  case isTrue => cases made; rfl
  case isFalse => cases made

/-- `map_one` gives the area new frames, never new pages. -/
theorem mapOne_vpnRange (ran : area.mapOne pt vpn m = .ok ((area', pt'), m')) :
    area'.vpnRange = area.vpnRange := by
  unfold mapOne at ran
  cases kind : area.mapType with
  | identical =>
      simp only [kind, pure_bind] at ran
      obtain ⟨table, final, -, done⟩ := Foundation.bind_eq_ok.mp ran
      simp only [Foundation.pure_apply, Except.ok.injEq, Prod.mk.injEq] at done
      rw [← done.1.1]
  | framed =>
      simp only [kind] at ran
      obtain ⟨frame, mid, -, rest⟩ := Foundation.bind_eq_ok.mp ran
      cases inserted : Foundation.insertEntry vpn frame area.dataFrames with
      | mk dataFrames displaced =>
          simp only [inserted] at rest
          obtain ⟨u, mid', -, rest'⟩ := Foundation.bind_eq_ok.mp rest
          simp only [pure_bind] at rest'
          obtain ⟨table, final, -, done⟩ := Foundation.bind_eq_ok.mp rest'
          simp only [Foundation.pure_apply, Except.ok.injEq, Prod.mk.injEq] at done
          rw [← done.1.1]

/-- The loop of `MapArea::map`, one `map_one` a page, keeps the pages of the area. -/
theorem foldlM_mapOne_vpnRange (vpns : List VirtPageNum) :
    ∀ {area area' : MapArea} {pt pt' : PageTable} {m m' : Machine},
      (vpns.foldlM (fun (area, pt) vpn => area.mapOne pt vpn) (area, pt) : KernelM (MapArea × PageTable)) m =
        .ok ((area', pt'), m') → area'.vpnRange = area.vpnRange := by
  induction vpns with
  | nil =>
      intro area area' pt pt' m m' ran
      simp only [List.foldlM_nil, Foundation.pure_apply, Except.ok.injEq, Prod.mk.injEq] at ran
      obtain ⟨⟨rfl, -⟩, -⟩ := ran
      rfl
  | cons vpn rest ih =>
      intro area area' pt pt' m m' ran
      rw [List.foldlM_cons] at ran
      obtain ⟨⟨area1, pt1⟩, m1, step, loop⟩ := Foundation.bind_eq_ok.mp ran
      exact (ih loop).trans (mapOne_vpnRange step)

end MapArea

namespace MemorySet

variable {ms ms' ks : MemorySet} {m m' : Machine} {area : MapArea} {layout : KernelLayout}

/-- `push` keeps the area it was given last, with its pages, once `map` has filled in its
frames. -/
theorem push_areas {data : Option (List UInt8)} (ran : ms.push area data m = .ok (ms', m')) :
    ∃ area', ms'.areas = ms.areas ++ [area'] ∧ area'.vpnRange = area.vpnRange := by
  obtain ⟨⟨area', pt'⟩, mid, mapped, rest⟩ := Foundation.bind_eq_ok.mp ran
  refine ⟨area', ?_, MapArea.foldlM_mapOne_vpnRange _ mapped⟩
  -- the copy of the initial data, if any, leaves the set as `map` built it
  cases data with
  | none =>
      simp only [Foundation.pure_apply, Except.ok.injEq, Prod.mk.injEq] at rest
      rw [← rest.1]
  | some data =>
      obtain ⟨u, final, -, done⟩ := Foundation.bind_eq_ok.mp rest
      simp only [Foundation.pure_apply, Except.ok.injEq, Prod.mk.injEq] at done
      rw [← done.1]

theorem mapTrampoline_areas {strampoline : Nat} (ran : ms.mapTrampoline strampoline m = .ok (ms', m')) :
    ms'.areas = ms.areas := by
  obtain ⟨vpn, m1, -, rest⟩ := Foundation.bind_eq_ok.mp ran
  obtain ⟨ppn, m2, -, rest⟩ := Foundation.bind_eq_ok.mp rest
  obtain ⟨pt, m3, -, done⟩ := Foundation.bind_eq_ok.mp rest
  simp only [Foundation.pure_apply, Except.ok.injEq, Prod.mk.injEq] at done
  rw [← done.1]

/-- The pushes of `new_kernel` add the pages of the sections, section after section. -/
theorem foldlM_pushIdentical_pages (sections : List (Nat × Nat × MapPermission)) :
    ∀ {ms ks : MemorySet} {m m' : Machine}, sections.foldlM pushIdentical ms m = .ok (ks, m') →
      ks.pages = ms.pages ++ sections.flatMap fun bounds => areaPages bounds.1 bounds.2.1 := by
  induction sections with
  | nil =>
      intro ms ks m m' ran
      simp only [List.foldlM_nil, Foundation.pure_apply, Except.ok.injEq, Prod.mk.injEq] at ran
      rw [← ran.1, List.flatMap_nil, List.append_nil]
  | cons bounds rest ih =>
      intro ms ks m m' ran
      rw [List.foldlM_cons] at ran
      obtain ⟨ms1, m1, step, loop⟩ := Foundation.bind_eq_ok.mp ran
      obtain ⟨area, mid, made, pushed⟩ := Foundation.bind_eq_ok.mp step
      obtain ⟨made, -⟩ := Foundation.liftExcept_eq_ok.mp made
      obtain ⟨area', areasEq, sameRange⟩ := push_areas pushed
      rw [ih loop, List.flatMap_cons, ← List.append_assoc]
      congr 1
      rw [pages, areasEq, List.flatMap_append, List.flatMap_singleton, sameRange, MapArea.vpns_new made]
      rfl

/-- The areas `new_kernel` builds hold exactly the pages of the sections of the image. -/
theorem newKernel_pages (built : newKernel layout m = .ok (ks, m')) : ks.pages = layout.pages := by
  obtain ⟨bare, m1, made, rest⟩ := Foundation.bind_eq_ok.mp built
  obtain ⟨ms, m2, mapped, loop⟩ := Foundation.bind_eq_ok.mp rest
  have noAreas : ms.areas = [] := (mapTrampoline_areas mapped).trans (newBare_eq_ok made).2
  rw [foldlM_pushIdentical_pages _ loop, pages, noAreas, List.flatMap_nil, List.nil_append]
  rfl

end MemorySet

end RCore
