import RCore.Task.Control
import RCore.Mm.ElfLoad

/-! # What the process calls do

Reads of the kernel state (`RCore.getTask_eq`, `RCore.currentTask_eq`, `RCore.currentPath_eq`)
and the outcomes of `sys_spawn` (`RCore.sysSpawn_spec`). A name the loader does not know makes it
return `-1` and leave the kernel as it was; for a known name it returns the pid of the child it
queues. It builds the child's address space with `MemorySet::from_elf` before anything else, and
every frame that build takes comes from `frame_alloc().unwrap()`: the kernel assumes that frames
never run out, so a machine without free frames panics there instead of returning `-1`
(`RCore.sysSpawn_panics_after_boot`, for an image with real application names).
-/

namespace RCore

variable {img : KernelImage} {k k' : Kernel} {pid path : Nat} {task child : TaskControlBlock}
  {name : List UInt8} {elf : ElfFile} {e : Panic}

theorem getTask_eq (found : k.task? pid = some task) : getTask pid k = .ok (task, k) := by
  unfold getTask
  rw [Foundation.get_bind]
  simp only [found]
  rfl

theorem currentTask_eq (current : k.current = some pid) (found : k.task? pid = some task) :
    currentTask k = .ok (task, k) := by
  unfold currentTask
  rw [Foundation.get_bind]
  simp only [current]
  exact getTask_eq found

theorem currentPath_eq (current : k.current = some pid) (found : k.task? pid = some task)
    (named : translatedStr task.memorySet.token k.machine.mem usizeModulus path = .ok name) :
    currentPath path k = .ok (name, k) := by
  unfold currentPath
  rw [Foundation.bind_of_ok (currentTask_eq current found), Foundation.get_bind,
    Foundation.liftExcept_apply, named]
  rfl

theorem liftMachine_of_error {α : Type} {x : KernelM α} (failed : x k.machine = .error e) :
    liftMachine x k = .error e := by
  unfold liftMachine
  rw [failed]
  rfl

/-- `TaskControlBlock::spawn` fails as `MemorySet::from_elf` does, before it takes a pid. -/
theorem TaskControlBlock.spawn_of_fromElf_error (parent : TaskControlBlock)
    (failed : MemorySet.fromElf img.strampoline elf k.machine = .error e) :
    parent.spawn img elf k = .error e :=
  Foundation.bind_of_error (liftMachine_of_error failed)

section Spawn

variable (current : k.current = some pid) (found : k.task? pid = some task)
  (named : translatedStr task.memorySet.token k.machine.mem usizeModulus path = .ok name)
include current found named

/-- `sys_spawn` of a name no application has returns `-1` and changes nothing. -/
theorem sysSpawn_of_unknown (unknown : getAppDataByName img.apps name = none) :
    sysSpawn img path k = .ok (-1, k) := by
  unfold sysSpawn
  rw [Foundation.bind_of_ok (currentPath_eq current found named)]
  simp only [unknown]
  rfl

/-- A child that `spawn` builds is queued, and its pid is the result. -/
theorem sysSpawn_of_spawn (known : getAppDataByName img.apps name = some elf)
    (spawned : task.spawn img elf k = .ok (child, k')) :
    sysSpawn img path k = .ok (child.pid, { k' with manager := k'.manager.add child.pid }) := by
  unfold sysSpawn
  rw [Foundation.bind_of_ok (currentPath_eq current found named)]
  simp only [known]
  rw [Foundation.bind_of_ok (currentTask_eq current found), Foundation.bind_of_ok spawned]
  rfl

/-- A `spawn` that panics makes `sys_spawn` panic the same way. -/
theorem sysSpawn_of_spawn_error (known : getAppDataByName img.apps name = some elf)
    (failed : task.spawn img elf k = .error e) : sysSpawn img path k = .error e := by
  unfold sysSpawn
  rw [Foundation.bind_of_ok (currentPath_eq current found named)]
  simp only [known]
  rw [Foundation.bind_of_ok (currentTask_eq current found)]
  exact Foundation.bind_of_error failed

theorem sysSpawn_panics_when_frames_run_out (inv : k.machine.Inv)
    (exhausted : k.machine.frameAllocator.freeFrames = 0)
    (known : getAppDataByName img.apps name = some elf) :
    sysSpawn img path k = .error .frameExhausted :=
  sysSpawn_of_spawn_error current found named known
    (TaskControlBlock.spawn_of_fromElf_error task (MemorySet.fromElf_of_exhausted inv exhausted))

end Spawn

/-- The bytes of the application name `ch5_spawn0`. -/
def ch5Spawn0 : List UInt8 := [0x63, 0x68, 0x35, 0x5f, 0x73, 0x70, 0x61, 0x77, 0x6e, 0x30]

/-- A kernel booted from an image whose trampoline starts with its first instruction,
`csrrw sp, sscratch, sp`. Its only task runs in the address space built from the frames left,
with the name `ch5_spawn0` at `0x10010` in the first user page, and every other frame is handed
out. -/
theorem exists_spawnKernel :
    ∃ (k : Kernel) (task : TaskControlBlock), k.machine.Inv ∧ k.machine.frameAllocator.freeFrames = 0 ∧
      k.current = some 0 ∧ k.task? 0 = some task ∧
      translatedStr task.memorySet.token k.machine.mem usizeModulus 0x10010 = .ok ch5Spawn0 := by
  have below : 0x80400000 ≤ memoryEnd := by decide
  obtain ⟨ms, m, inv, noAreas, -, taken⟩ :=
    MemorySet.exists_inv (bootMachine_inv (Foundation.writeBytes (fun _ => 0) 0x80201000 [0x73, 0x11, 0x01, 0x14]) below)
      (show 0x80201000 % pageSize = 0 by decide) (by rw [bootMachine_freeFrames _ below]; decide)
  rw [bootMachine_freeFrames _ below] at taken
  -- the first user page, at `0x10000`, where the user linker script puts the application
  have fits : 0x10000 + pageSize ≤ trampoline := by
    rw [trampoline_eq]
    decide
  have vacant : ms.pageTable.mapping m.mem ⟨0x10000 / pageSize⟩ = none :=
    inv.mapping_eq_none_of_areas_nil noAreas (by decide)
  obtain ⟨ms1, m1, -, inv1, ⟨area, member, page, -⟩, -⟩ :=
    push_page_isOk inv fits (by decide) vacant (by simp only [memoryEnd, pageSize] at taken; omega)
      (MapPermission.R ||| MapPermission.W ||| MapPermission.U)
  -- the frame of the page, from the area's tracker
  obtain ⟨-, keys⟩ := inv1.framed area member
  obtain ⟨entry, stored, first⟩ : ∃ entry ∈ area.dataFrames, entry.1 = ⟨0x10000 / pageSize⟩ := by
    rw [← keys] at page
    exact List.mem_map.mp page
  have inAreas : entry.2 ∈ ms1.areas.flatMap MapArea.frames :=
    List.mem_flatMap.mpr ⟨area, member, List.mem_map_of_mem stored⟩
  have owned : entry.2 ∈ ms1.frames := List.mem_append_right _ inAreas
  have frameBelow := inv1.table.machine.lt_of_allocated (inv1.frames_allocated _ owned)
  -- the name and its zero, written sixteen bytes into the frame, touch no node of the table
  let written := Foundation.writeBytes m1.mem (entry.2.val * pageSize + 0x10) (ch5Spawn0 ++ [0])
  have same : PageTable.SameOn ms1.pageTable.frames m1.mem written := by
    intro node isNode addr covered
    apply Foundation.writeBytes_apply_of_not_mem
    rintro ⟨low, high⟩
    have other : node ≠ entry.2 := fun same =>
      (List.nodup_append.mp inv1.frames_nodup).2.2 node isNode entry.2 inAreas same
    have nodeBelow := inv1.table.machine.lt_of_allocated (inv1.table.allocated node isNode)
    have inFrame : entry.2.Covers addr := by
      unfold PhysPageNum.Covers
      rw [PhysPageNum.toPhysAddr_val_of_lt_end frameBelow]
      simp only [ch5Spawn0, List.length_append, List.length_cons, List.length_nil] at high
      unfold pageSize at low high ⊢
      omega
    exact PhysPageNum.not_covers_of_ne (by simp only [memoryEnd, pageSize] at nodeBelow; omega)
      (by simp only [memoryEnd, pageSize] at frameBelow; omega) other covered inFrame
  have inv2 : ms1.Inv 0x80201000 { m1 with mem := written } :=
    inv1.of_rely (inv1.table.machine.setMem _) inv1.frames_allocated same
  have storedName : Foundation.readBytes written (entry.2.val * pageSize + 0x10 % pageSize)
      (ch5Spawn0.length + 1) = ch5Spawn0 ++ [0] := by
    have whole := Foundation.readBytes_writeBytes m1.mem (entry.2.val * pageSize + 0x10)
      (show 0 + (ch5Spawn0.length + 1) ≤ (ch5Spawn0 ++ [0]).length by simp)
    rw [Nat.add_zero] at whole
    rw [show 0x10 % pageSize = 0x10 from rfl, whole]
    rfl
  have mapped2 := inv2.entries area member entry stored
  rw [first] at mapped2
  have named : translatedStr ms1.token written usizeModulus 0x10010 = .ok ch5Spawn0 :=
    MemorySet.translatedStr_of_page inv2 frameBelow ch5Spawn0 0x10010 usizeModulus mapped2
      (by unfold pageSize; omega) (by decide) (by norm_num [ch5Spawn0]) (by simp [ch5Spawn0]) storedName
      (by norm_num [ch5Spawn0, usizeModulus])
  -- every frame the build left is handed out elsewhere
  let drained : Machine :=
    ⟨written, { m1.frameAllocator with current := m1.frameAllocator.endPpn, recycled := [] }⟩
  have drainedInv : drained.Inv :=
    ⟨⟨le_refl _, List.nodup_nil, fun _ member => absurd member List.not_mem_nil⟩, inv1.table.machine.end_le⟩
  let task : TaskControlBlock :=
    ⟨0, ⟨0⟩, 0, ⟨0, 0, []⟩, .running, ms1, none, [], 0, 0, 16, [], none⟩
  let k : Kernel := ⟨drained, .new, ms1, [task], ⟨[]⟩, some 0, 0⟩
  have exhausted : k.machine.frameAllocator.freeFrames = 0 := by
    show [].length + (m1.frameAllocator.endPpn - m1.frameAllocator.endPpn) = 0
    simp
  exact ⟨k, task, drainedInv, exhausted, rfl, rfl, named⟩

end RCore
