import RCore.Mm.UserBuffer
import RCore.Foundation.Raises

/-! # The memory code raises no assertion of process management

`PidAllocator::dealloc` asserts that a pid was handed out and not given back, and `sys_waitpid`
that the child it reaps is held by nothing else (`RCore.Panic.processAssertion`). The code of
`mm/` fails in its own ways only: a missing frame, a page mapped twice or not at all, a
translation that finds no entry, a misaligned address, a bad slice or ELF file
(`RCore.MemorySet.fromElf_raises` and the lemmas before it). The kernel's process calls use
these to show that from a sound process table the two assertions never fire.
-/

namespace RCore

open Foundation

namespace Panic

/-- The assertions of process management: the two of `PidAllocator::dealloc`, and
`assert_eq!(Arc::strong_count(&child), 1)` in `sys_waitpid`. -/
def processAssertion : Panic → Bool
  | pidNotAllocated _ => true
  | strongCountNotOne _ => true
  | _ => false

end Panic

/-- The failures of `x` are no assertion of process management. -/
abbrev NoAssertion {σ α : Type} (x : StateT σ (Except Panic) α) : Prop :=
  RaisesOnly (fun e : Panic => e.processAssertion = false) x

section Except


theorem VPNRange.new_raises {start stop : VirtPageNum} {e : Panic} (failed : VPNRange.new start stop = .error e) :
    e.processAssertion = false := by
  unfold VPNRange.new at failed
  split at failed <;> cases failed
  rfl

theorem MapArea.new_raises {startVa endVa : VirtAddr} {mapType : MapType} {mapPerm : MapPermission} {e : Panic}
    (failed : MapArea.new startVa endVa mapType mapPerm = .error e) : e.processAssertion = false := by
  unfold MapArea.new at failed
  cases ranged : VPNRange.new startVa.floor endVa.ceil with
  | error e' =>
      rw [ranged] at failed
      cases failed
      exact VPNRange.new_raises ranged
  | ok range =>
      rw [ranged] at failed
      cases failed

theorem MapArea.fromAnother_raises {area : MapArea} {e : Panic} (failed : area.fromAnother = .error e) :
    e.processAssertion = false := by
  unfold MapArea.fromAnother at failed
  cases ranged : VPNRange.new area.vpnRange.l area.vpnRange.r with
  | error e' =>
      rw [ranged] at failed
      cases failed
      exact VPNRange.new_raises ranged
  | ok range =>
      rw [ranged] at failed
      cases failed

theorem VirtAddr.toVirtPageNum_raises {va : VirtAddr} {e : Panic} (failed : va.toVirtPageNum = .error e) :
    e.processAssertion = false := by
  unfold VirtAddr.toVirtPageNum at failed
  split at failed <;> cases failed
  rfl

theorem PhysAddr.toPhysPageNum_raises {pa : PhysAddr} {e : Panic} (failed : pa.toPhysPageNum = .error e) :
    e.processAssertion = false := by
  unfold PhysAddr.toPhysPageNum at failed
  split at failed <;> cases failed
  rfl

theorem PhysAddr.getMut_raises {pa : PhysAddr} {e : Panic} (failed : pa.getMut = .error e) :
    e.processAssertion = false := by
  unfold PhysAddr.getMut at failed
  split at failed <;> cases failed
  rfl

theorem sliceBytes_raises {input : List UInt8} {start stop : Nat} {e : Panic}
    (failed : sliceBytes input start stop = .error e) : e.processAssertion = false := by
  unfold sliceBytes at failed
  split at failed <;> cases failed
  rfl

theorem translatedRefmut_raises {token ptr : Nat} {mem : Nat → UInt8} {e : Panic}
    (failed : translatedRefmut token mem ptr = .error e) : e.processAssertion = false := by
  unfold translatedRefmut at failed
  split at failed
  · cases failed
    rfl
  · exact PhysAddr.getMut_raises failed

/-- The loop of `translated_str`; by induction on the fuel. -/
theorem translatedStrLoop_raises {pt : PageTable} {mem : Nat → UInt8} :
    ∀ {fuel va : Nat} {e : Panic}, translatedStrLoop pt mem fuel va = .error e → e.processAssertion = false
  | 0, _, _, failed => by cases failed
  | fuel + 1, va, e, failed => by
      unfold translatedStrLoop at failed
      split at failed
      · cases failed
        rfl
      · next pa _ =>
          cases read : pa.getMut with
          | error e' =>
              rw [read] at failed
              cases failed
              exact PhysAddr.getMut_raises read
          | ok pa' =>
              rw [read] at failed
              dsimp only [bind, Except.bind] at failed
              split at failed
              · cases failed
              · cases rest : translatedStrLoop pt mem fuel (wrappingAdd va 1) with
                | error e' =>
                    rw [rest] at failed
                    cases failed
                    exact translatedStrLoop_raises rest
                | ok bytes =>
                    rw [rest] at failed
                    cases failed

/-- The loop of `translated_byte_buffer`; by induction on the fuel. -/
theorem translatedByteBufferLoop_raises {pt : PageTable} {mem : Nat → UInt8} {stop : Nat} (fuel : Nat) :
    ∀ {start : Nat} {e : Panic}, translatedByteBufferLoop pt mem stop fuel start = .error e →
      e.processAssertion = false := by
  induction fuel with
  | zero =>
      intro start e failed
      cases failed
  | succ fuel ih =>
      intro start e failed
      unfold translatedByteBufferLoop at failed
      split at failed
      · dsimp only at failed
        split at failed
        · cases failed
          rfl
        · cases rest : translatedByteBufferLoop pt mem stop fuel _ with
          | error e' =>
              rw [rest] at failed
              cases failed
              exact ih rest
          | ok slices =>
              rw [rest] at failed
              cases failed
      · cases failed

theorem translatedByteBuffer_raises {token ptr len : Nat} {mem : Nat → UInt8} {e : Panic}
    (failed : translatedByteBuffer token mem ptr len = .error e) : e.processAssertion = false :=
  translatedByteBufferLoop_raises _ failed

theorem translatedStr_raises {token fuel ptr : Nat} {mem : Nat → UInt8} {e : Panic}
    (failed : translatedStr token mem fuel ptr = .error e) : e.processAssertion = false :=
  translatedStrLoop_raises failed

end Except

section Machine

variable {pt : PageTable} {vpn : VirtPageNum} {area : MapArea} {ms : MemorySet}

theorem frameAllocUnwrap_raises : NoAssertion frameAllocUnwrap := by
  unfold frameAllocUnwrap
  refine RaisesOnly.bind ?_ fun picked => ?_
  · intro m e failed
    unfold frameAlloc at failed
    split at failed <;> cases failed
  · split
    · exact RaisesOnly.pure _
    · exact RaisesOnly.throw (by rfl)

theorem frameDealloc_raises (ppn : PhysPageNum) : NoAssertion (frameDealloc ppn) := by
  intro m e failed
  unfold frameDealloc StackFrameAllocator.dealloc at failed
  split at failed <;> cases failed
  rfl

theorem dropFrames_raises (frames : List PhysPageNum) : NoAssertion (dropFrames frames) :=
  RaisesOnly.forM frameDealloc_raises frames

theorem PageTable.new_raises : NoAssertion PageTable.new :=
  frameAllocUnwrap_raises.bind fun _ => RaisesOnly.pure _

theorem PageTable.descendCreate_raises (ppn : PhysPageNum) (idx : Nat) : NoAssertion (pt.descendCreate ppn idx) := by
  unfold PageTable.descendCreate
  refine RaisesOnly.get.bind fun m => ?_
  refine RaisesOnly.ite (RaisesOnly.pure _) ?_
  exact frameAllocUnwrap_raises.bind fun _ => (RaisesOnly.modify _).bind fun _ => RaisesOnly.pure _

theorem PageTable.findPteCreate_raises : NoAssertion (pt.findPteCreate vpn) := by
  unfold PageTable.findPteCreate
  exact (PageTable.descendCreate_raises _ _).bind fun (_, pt₁) =>
    (PageTable.descendCreate_raises _ _).bind fun _ => RaisesOnly.pure _

theorem PageTable.map_raises (ppn : PhysPageNum) (flags : PTEFlags) : NoAssertion (pt.map vpn ppn flags) := by
  unfold PageTable.map
  dsimp only
  refine PageTable.findPteCreate_raises.bind fun _ => RaisesOnly.get.bind fun _ => ?_
  exact RaisesOnly.ite (RaisesOnly.throw_bind (by rfl)) ((RaisesOnly.modify _).bind fun _ => RaisesOnly.pure _)

theorem PageTable.unmap_raises : NoAssertion (pt.unmap vpn) := by
  unfold PageTable.unmap
  dsimp only
  refine PageTable.findPteCreate_raises.bind fun _ => RaisesOnly.get.bind fun _ => ?_
  exact RaisesOnly.ite (RaisesOnly.throw_bind (by rfl)) ((RaisesOnly.modify _).bind fun _ => RaisesOnly.pure _)

theorem MapArea.mapOne_raises : NoAssertion (area.mapOne pt vpn) := by
  unfold MapArea.mapOne
  dsimp only
  split
  · exact (RaisesOnly.pure _).bind fun _ => (PageTable.map_raises _ _).bind fun _ => RaisesOnly.pure _
  · exact frameAllocUnwrap_raises.bind fun _ => (dropFrames_raises _).bind fun _ => (RaisesOnly.pure _).bind
      fun _ => (PageTable.map_raises _ _).bind fun _ => RaisesOnly.pure _

theorem MapArea.unmapOne_raises : NoAssertion (area.unmapOne pt vpn) := by
  unfold MapArea.unmapOne
  dsimp only
  split
  · exact (dropFrames_raises _).bind fun _ => (RaisesOnly.pure _).bind fun _ =>
      PageTable.unmap_raises.bind fun _ => RaisesOnly.pure _
  · exact (RaisesOnly.pure _).bind fun _ => PageTable.unmap_raises.bind fun _ => RaisesOnly.pure _

theorem MapArea.map_raises : NoAssertion (area.map pt) :=
  RaisesOnly.foldlM (fun _ _ => MapArea.mapOne_raises) _ _

theorem MapArea.unmap_raises : NoAssertion (area.unmap pt) :=
  RaisesOnly.foldlM (fun _ _ => MapArea.unmapOne_raises) _ _

/-- The loop of `copy_data`; by induction on the fuel. -/
theorem MapArea.copyDataLoop_raises (data : List UInt8) :
    ∀ (fuel start : Nat) (vpn : VirtPageNum), NoAssertion (MapArea.copyDataLoop pt data fuel start vpn)
  | 0, _, _ => RaisesOnly.pure _
  | fuel + 1, start, vpn => by
      unfold MapArea.copyDataLoop
      dsimp only
      refine RaisesOnly.get.bind fun m => ?_
      split
      · exact RaisesOnly.throw_bind (by rfl)
      · exact (RaisesOnly.set _).bind fun _ =>
          RaisesOnly.ite (RaisesOnly.pure _) (MapArea.copyDataLoop_raises data fuel _ _)

theorem MapArea.copyData_raises (data : List UInt8) : NoAssertion (area.copyData pt data) := by
  unfold MapArea.copyData
  dsimp only
  exact RaisesOnly.ite (RaisesOnly.throw_bind (by rfl)) (MapArea.copyDataLoop_raises data _ _ _)

theorem MemorySet.newBare_raises : NoAssertion MemorySet.newBare :=
  PageTable.new_raises.bind fun _ => RaisesOnly.pure _

theorem MemorySet.push_raises (data : Option (List UInt8)) : NoAssertion (ms.push area data) := by
  unfold MemorySet.push
  dsimp only
  refine MapArea.map_raises.bind fun _ => ?_
  split
  · exact (MapArea.copyData_raises _).bind fun _ => RaisesOnly.pure _
  · exact RaisesOnly.pure _

theorem MemorySet.mapTrampoline_raises (strampoline : Nat) : NoAssertion (ms.mapTrampoline strampoline) :=
  (RaisesOnly.lift fun _ failed => VirtAddr.toVirtPageNum_raises failed).bind fun _ =>
    (RaisesOnly.lift fun _ failed => PhysAddr.toPhysPageNum_raises failed).bind fun _ =>
      (PageTable.map_raises _ _).bind fun _ => RaisesOnly.pure _

theorem MemorySet.loadSegment_raises (input : List UInt8) (acc : MemorySet × VirtPageNum) (ph : ProgramHeader) :
    NoAssertion (MemorySet.loadSegment input acc ph) := by
  unfold MemorySet.loadSegment
  refine RaisesOnly.ite (RaisesOnly.pure _) ?_
  exact (RaisesOnly.lift fun _ failed => MapArea.new_raises failed).bind fun _ =>
    (RaisesOnly.lift fun _ failed => sliceBytes_raises failed).bind fun _ =>
      (MemorySet.push_raises _).bind fun _ => RaisesOnly.pure _

theorem MemorySet.fromElf_raises (strampoline : Nat) (elf : ElfFile) : NoAssertion (MemorySet.fromElf strampoline elf) := by
  unfold MemorySet.fromElf
  dsimp only
  refine MemorySet.newBare_raises.bind fun _ => (MemorySet.mapTrampoline_raises _).bind fun _ => ?_
  refine RaisesOnly.ite (RaisesOnly.throw_bind (by rfl)) ?_
  exact (RaisesOnly.foldlM (MemorySet.loadSegment_raises _) _ _).bind fun _ =>
    (RaisesOnly.lift fun _ failed => MapArea.new_raises failed).bind fun _ =>
      (MemorySet.push_raises _).bind fun _ =>
        (RaisesOnly.lift fun _ failed => MapArea.new_raises failed).bind fun _ =>
          (MemorySet.push_raises _).bind fun _ => RaisesOnly.pure _

theorem MemorySet.copyPage_raises (userSpace : MemorySet) (vpn : VirtPageNum) :
    NoAssertion (userSpace.copyPage ms vpn) := by
  unfold MemorySet.copyPage
  dsimp only
  refine RaisesOnly.get.bind fun m => ?_
  split
  · refine (RaisesOnly.pure _).bind fun _ => ?_
    split
    · exact (RaisesOnly.pure _).bind fun _ => RaisesOnly.set _
    · exact RaisesOnly.throw_bind (by rfl)
  · exact RaisesOnly.throw_bind (by rfl)

theorem MemorySet.copyArea_raises (userSpace : MemorySet) : NoAssertion (userSpace.copyArea ms area) :=
  (RaisesOnly.lift fun _ failed => MapArea.fromAnother_raises failed).bind fun _ =>
    (MemorySet.push_raises _).bind fun _ =>
      (RaisesOnly.forM (MemorySet.copyPage_raises userSpace) _).bind fun _ => RaisesOnly.pure _

theorem MemorySet.fromExistedUser_raises (strampoline : Nat) (userSpace : MemorySet) :
    NoAssertion (MemorySet.fromExistedUser strampoline userSpace) :=
  MemorySet.newBare_raises.bind fun _ => (MemorySet.mapTrampoline_raises _).bind fun _ =>
    RaisesOnly.foldlM (fun _ _ => MemorySet.copyArea_raises userSpace) _ _

theorem MemorySet.recycleDataPages_raises : NoAssertion ms.recycleDataPages :=
  (dropFrames_raises _).bind fun _ => RaisesOnly.pure _

theorem MemorySet.removeAreaWithStartVpn_raises (startVpn : VirtPageNum) :
    NoAssertion (ms.removeAreaWithStartVpn startVpn) := by
  unfold MemorySet.removeAreaWithStartVpn
  split
  · exact RaisesOnly.pure _
  · exact MapArea.unmap_raises.bind fun _ => (dropFrames_raises _).bind fun _ => RaisesOnly.pure _

theorem MemorySet.drop_raises : NoAssertion ms.drop := dropFrames_raises _

theorem MemorySet.insertFramedArea_raises (startVa endVa : VirtAddr) (permission : MapPermission) :
    NoAssertion (ms.insertFramedArea startVa endVa permission) :=
  (RaisesOnly.lift fun _ failed => MapArea.new_raises failed).bind fun _ => MemorySet.push_raises _

theorem MemorySet.unmap_raises (startVpn endVpn : VirtPageNum) : NoAssertion (ms.unmap startVpn endVpn) :=
  (RaisesOnly.lift fun _ failed => VPNRange.new_raises failed).bind fun _ =>
    (RaisesOnly.foldlM (fun _ _ => PageTable.unmap_raises) _ _).bind fun _ => RaisesOnly.pure _

theorem taskMmap_raises (start len port : Nat) : NoAssertion (taskMmap ms start len port) := by
  unfold taskMmap
  refine RaisesOnly.ite (RaisesOnly.pure _) ?_
  refine (RaisesOnly.lift fun _ failed => VPNRange.new_raises failed).bind fun _ => RaisesOnly.get.bind fun _ => ?_
  refine RaisesOnly.ite (RaisesOnly.pure _) ?_
  dsimp only
  split
  · exact (RaisesOnly.pure _).bind fun _ => (MemorySet.insertFramedArea_raises _ _ _).bind fun _ => RaisesOnly.pure _
  · exact RaisesOnly.throw_bind (by rfl)

theorem taskMunmap_raises (start len : Nat) : NoAssertion (taskMunmap ms start len) := by
  unfold taskMunmap
  refine RaisesOnly.ite (RaisesOnly.pure _) ?_
  refine (RaisesOnly.lift fun _ failed => VPNRange.new_raises failed).bind fun _ => RaisesOnly.get.bind fun _ => ?_
  exact RaisesOnly.ite (RaisesOnly.pure _) ((MemorySet.unmap_raises _ _).bind fun _ => RaisesOnly.pure _)

end Machine

end RCore
