import RCore.Mm.PageTable
import RCore.Foundation.SortedMap

/-! # Address spaces

`MapArea` and `MemorySet` of `os5/src/mm/memory_set.rs`. An area is a range of virtual pages
with a map type and a permission; a framed area owns one `FrameTracker` per mapped page in
`data_frames`, a `BTreeMap` kept here as its entries in key order. A memory set is a page table
with the areas mapped in it, plus the trampoline page, which no area covers.

The ELF parsing of `from_elf` is done by the `xmas_elf` crate, which is not part of the
repository: `from_elf` receives what the crate returns (`RCore.ElfFile`) and the model
follows the kernel's use of it. The linker symbol `strampoline` is a parameter.
-/

namespace RCore

/-- `MapType`. -/
inductive MapType where
  | identical
  | framed
deriving DecidableEq, Repr

/-- `MapPermission`, a `u8` bit set of `R W X U`. -/
structure MapPermission where
  bits : UInt8
deriving DecidableEq, Repr

namespace MapPermission

/-- `MapPermission::R`. -/
def R : MapPermission := ⟨(1 : UInt8) <<< 1⟩

/-- `MapPermission::W`. -/
def W : MapPermission := ⟨(1 : UInt8) <<< 2⟩

/-- `MapPermission::X`. -/
def X : MapPermission := ⟨(1 : UInt8) <<< 3⟩

/-- `MapPermission::U`. -/
def U : MapPermission := ⟨(1 : UInt8) <<< 4⟩

/-- `MapPermission::empty()`. -/
def empty : MapPermission := ⟨0⟩

instance : OrOp MapPermission := ⟨fun a b => ⟨a.bits ||| b.bits⟩⟩

/-- `MapPermission::all()`. -/
def all : MapPermission := R ||| W ||| X ||| U

/-- `MapPermission::from_bits`: `None` when a bit names no permission. -/
def fromBits (bits : UInt8) : Option MapPermission :=
  if bits &&& ~~~all.bits = 0 then some ⟨bits⟩ else none

@[simp] theorem or_bits (a b : MapPermission) : (a ||| b).bits = a.bits ||| b.bits := rfl

end MapPermission

/-- `MapArea`. -/
structure MapArea where
  vpnRange : VPNRange
  dataFrames : List (VirtPageNum × PhysPageNum)
  mapType : MapType
  mapPerm : MapPermission

namespace MapArea

/-- `MapArea::new`: the pages from `floor(start_va)` to `ceil(end_va)`. -/
def new (startVa endVa : VirtAddr) (mapType : MapType) (mapPerm : MapPermission) :
    Except Panic MapArea := do
  let vpnRange ← VPNRange.new startVa.floor endVa.ceil
  return ⟨vpnRange, [], mapType, mapPerm⟩

/-- `MapArea::from_another`: the same pages, type and permission, with no frame. -/
def fromAnother (another : MapArea) : Except Panic MapArea := do
  let vpnRange ← VPNRange.new another.vpnRange.l another.vpnRange.r
  return ⟨vpnRange, [], another.mapType, another.mapPerm⟩

/-- The `FrameTracker`s of the area in the order a drop visits them. -/
def frames (area : MapArea) : List PhysPageNum := area.dataFrames.map (·.2)

/-- `MapArea::map_one`. A framed page gets a fresh frame, inserted in `data_frames`; a tracker
that the insertion displaces is dropped. -/
def mapOne (area : MapArea) (pt : PageTable) (vpn : VirtPageNum) : KernelM (MapArea × PageTable) := do
  let (ppn, area) ← match area.mapType with
    | .identical => pure ((⟨vpn.val⟩ : PhysPageNum), area)
    | .framed => do
        let frame ← frameAllocUnwrap
        let (dataFrames, displaced) := Foundation.insertEntry vpn frame area.dataFrames
        dropFrames displaced.toList
        pure (frame, { area with dataFrames })
  let pt ← pt.map vpn ppn (PTEFlags.fromBits area.mapPerm.bits)
  return (area, pt)

/-- `MapArea::unmap_one`: a framed page's tracker is removed from `data_frames` and dropped. -/
def unmapOne (area : MapArea) (pt : PageTable) (vpn : VirtPageNum) :
    KernelM (MapArea × PageTable) := do
  let area ← match area.mapType with
    | .framed => do
        let (dataFrames, removed) := Foundation.removeEntry vpn area.dataFrames
        dropFrames removed.toList
        pure { area with dataFrames }
    | .identical => pure area
  let pt ← pt.unmap vpn
  return (area, pt)

/-- `MapArea::map`: `map_one` on every page of the range, in order. -/
def map (area : MapArea) (pt : PageTable) : KernelM (MapArea × PageTable) :=
  area.vpnRange.vpns.foldlM (fun (area, pt) vpn => area.mapOne pt vpn) (area, pt)

/-- `MapArea::unmap`: `unmap_one` on every page of the range, in order. -/
def unmap (area : MapArea) (pt : PageTable) : KernelM (MapArea × PageTable) :=
  area.vpnRange.vpns.foldlM (fun (area, pt) vpn => area.unmapOne pt vpn) (area, pt)

/-- The loop of `MapArea::copy_data` from byte `start` of `data` and page `vpn`: copy the
slice `data[start..min(len, start + PAGE_SIZE)]` to the start of the page's frame, then stop
once `start + PAGE_SIZE >= len`. `fuel` bounds the iterations. -/
def copyDataLoop (pt : PageTable) (data : List UInt8) : (fuel start : Nat) → VirtPageNum → KernelM Unit
  | 0, _, _ => pure ()
  | fuel + 1, start, vpn => do
      let src := (data.drop start).take pageSize
      let m ← get
      match pt.translate m.mem vpn with
      | none => throw (.translationMissing vpn.val)
      | some pte => set { m with mem := Foundation.writeBytes m.mem pte.ppn.toPhysAddr.val src }
      if start + pageSize ≥ data.length then
        return ()
      copyDataLoop pt data fuel (start + pageSize) ⟨vpn.val + 1⟩

/-- `MapArea::copy_data`. The loop runs at most `len / PAGE_SIZE + 1` times, the fuel given. -/
def copyData (area : MapArea) (pt : PageTable) (data : List UInt8) : KernelM Unit := do
  if area.mapType ≠ .framed then
    throw .mapTypeNotFramed
  copyDataLoop pt data (data.length / pageSize + 1) 0 area.vpnRange.l

end MapArea

/-- `MemorySet`. -/
structure MemorySet where
  pageTable : PageTable
  areas : List MapArea

/-- A program header, as `xmas_elf` returns it. -/
structure ProgramHeader where
  isLoad : Bool
  virtualAddr : Nat
  memSize : Nat
  offset : Nat
  fileSize : Nat
  isRead : Bool
  isWrite : Bool
  isExecute : Bool

/-- What `MemorySet::from_elf` reads of a parsed ELF file. -/
structure ElfFile where
  magic : List UInt8
  programHeaders : List ProgramHeader
  entryPoint : Nat
  input : List UInt8

/-- The permission of a loaded segment: `U`, and `R`, `W`, `X` as its flags say. -/
def ProgramHeader.mapPerm (ph : ProgramHeader) : MapPermission :=
  let mapPerm := MapPermission.U
  let mapPerm := if ph.isRead then mapPerm ||| .R else mapPerm
  let mapPerm := if ph.isWrite then mapPerm ||| .W else mapPerm
  if ph.isExecute then mapPerm ||| .X else mapPerm

/-- `&input[start..stop]`, with the bounds check of slicing. -/
def sliceBytes (input : List UInt8) (start stop : Nat) : Except Panic (List UInt8) :=
  if start ≤ stop ∧ stop ≤ input.length then .ok ((input.drop start).take (stop - start))
  else .error (.sliceOutOfRange start stop)

namespace MemorySet

/-- `MemorySet::new_bare`. -/
def newBare : KernelM MemorySet := do
  let pageTable ← PageTable.new
  return ⟨pageTable, []⟩

/-- `MemorySet::token`. -/
def token (ms : MemorySet) : Nat := ms.pageTable.token

/-- `MemorySet::translate`. -/
def translate (ms : MemorySet) (mem : Nat → UInt8) (vpn : VirtPageNum) : Option PageTableEntry :=
  ms.pageTable.translate mem vpn

/-- `MemorySet::push`: map the area, copy its initial data, and keep it. -/
def push (ms : MemorySet) (area : MapArea) (data : Option (List UInt8)) : KernelM MemorySet := do
  let (area, pageTable) ← area.map ms.pageTable
  if let some data := data then
    area.copyData pageTable data
  return ⟨pageTable, ms.areas ++ [area]⟩

/-- `MemorySet::insert_framed_area`. -/
def insertFramedArea (ms : MemorySet) (startVa endVa : VirtAddr) (permission : MapPermission) :
    KernelM MemorySet := do
  let area ← StateT.lift (MapArea.new startVa endVa .framed permission)
  ms.push area none

/-- `MemorySet::map_trampoline`, with the address of `strampoline`. -/
def mapTrampoline (ms : MemorySet) (strampoline : Nat) : KernelM MemorySet := do
  let vpn ← StateT.lift (VirtAddr.toVirtPageNum ⟨trampoline⟩)
  let ppn ← StateT.lift (PhysAddr.toPhysPageNum ⟨strampoline⟩)
  let pageTable ← ms.pageTable.map vpn ppn (PTEFlags.R ||| PTEFlags.X)
  return { ms with pageTable }

/-- One iteration of the program-header loop of `from_elf`. -/
def loadSegment (input : List UInt8) (acc : MemorySet × VirtPageNum) (ph : ProgramHeader) :
    KernelM (MemorySet × VirtPageNum) := do
  if !ph.isLoad then
    return acc
  let startVa : VirtAddr := ⟨ph.virtualAddr⟩
  let endVa : VirtAddr := ⟨wrappingAdd ph.virtualAddr ph.memSize⟩
  let mapArea ← StateT.lift (MapArea.new startVa endVa .framed ph.mapPerm)
  let maxEndVpn := mapArea.vpnRange.r
  let data ← StateT.lift (sliceBytes input ph.offset (wrappingAdd ph.offset ph.fileSize))
  let ms ← acc.1.push mapArea (some data)
  return (ms, maxEndVpn)

/-- `MemorySet::from_elf`: the trampoline, the loaded segments, a guard page, the user stack and
the trap context; with the user stack top and the entry point. -/
def fromElf (strampoline : Nat) (elf : ElfFile) : KernelM (MemorySet × Nat × Nat) := do
  let ms ← newBare
  let ms ← ms.mapTrampoline strampoline
  if elf.magic ≠ [0x7f, 0x45, 0x4c, 0x46] then
    throw .invalidElf
  let (ms, maxEndVpn) ← elf.programHeaders.foldlM (loadSegment elf.input) (ms, ⟨0⟩)
  let maxEndVa := maxEndVpn.toVirtAddr
  let userStackBottom := wrappingAdd maxEndVa.val pageSize
  let userStackTop := wrappingAdd userStackBottom userStackSize
  let stack ← StateT.lift (MapArea.new ⟨userStackBottom⟩ ⟨userStackTop⟩ .framed
    (MapPermission.R ||| MapPermission.W ||| MapPermission.U))
  let ms ← ms.push stack none
  let trapArea ← StateT.lift (MapArea.new ⟨trapContext⟩ ⟨trampoline⟩ .framed
    (MapPermission.R ||| MapPermission.W))
  let ms ← ms.push trapArea none
  return (ms, userStackTop, elf.entryPoint)

/-- The copy of one page in `from_existed_user`: the parent's frame into the child's. -/
def copyPage (userSpace ms : MemorySet) (vpn : VirtPageNum) : KernelM Unit := do
  let m ← get
  let srcPpn ← match userSpace.translate m.mem vpn with
    | some pte => pure pte.ppn
    | none => throw (.translationMissing vpn.val)
  let dstPpn ← match ms.translate m.mem vpn with
    | some pte => pure pte.ppn
    | none => throw (.translationMissing vpn.val)
  let bytes := Foundation.readBytes m.mem srcPpn.toPhysAddr.val pageSize
  set { m with mem := Foundation.writeBytes m.mem dstPpn.toPhysAddr.val bytes }

/-- One iteration of the area loop of `from_existed_user`. -/
def copyArea (userSpace ms : MemorySet) (area : MapArea) : KernelM MemorySet := do
  let newArea ← StateT.lift (MapArea.fromAnother area)
  let ms ← ms.push newArea none
  area.vpnRange.vpns.forM (userSpace.copyPage ms)
  return ms

/-- `MemorySet::from_existed_user`. -/
def fromExistedUser (strampoline : Nat) (userSpace : MemorySet) : KernelM MemorySet := do
  let ms ← newBare
  let ms ← ms.mapTrampoline strampoline
  userSpace.areas.foldlM (userSpace.copyArea) ms

/-- `MemorySet::recycle_data_pages`: the areas are cleared, which drops their trackers. -/
def recycleDataPages (ms : MemorySet) : KernelM MemorySet := do
  dropFrames (ms.areas.flatMap MapArea.frames)
  return { ms with areas := [] }

/-- `MemorySet::unmap`: unmap every page of the range in the page table alone. -/
def unmap (ms : MemorySet) (startVpn endVpn : VirtPageNum) : KernelM MemorySet := do
  let range ← StateT.lift (VPNRange.new startVpn endVpn)
  let pageTable ← range.vpns.foldlM (fun pt vpn => pt.unmap vpn) ms.pageTable
  return { ms with pageTable }

/-- `MemorySet::remove_area_with_start_vpn`: unmap the first area starting at `start_vpn` and
drop it. -/
def removeAreaWithStartVpn (ms : MemorySet) (startVpn : VirtPageNum) : KernelM MemorySet := do
  match ms.areas.zipIdx.find? (fun (area, _) => area.vpnRange.l = startVpn) with
  | none => return ms
  | some (area, idx) =>
      let (area, pageTable) ← area.unmap ms.pageTable
      dropFrames area.frames
      return ⟨pageTable, ms.areas.eraseIdx idx⟩

/-- The frames a memory set owns, in the order its drop returns them: the page table's, then
each area's. -/
def frames (ms : MemorySet) : List PhysPageNum := ms.pageTable.frames ++ ms.areas.flatMap MapArea.frames

/-- The drop of a `MemorySet`. -/
def drop (ms : MemorySet) : KernelM Unit := dropFrames ms.frames

end MemorySet

end RCore
