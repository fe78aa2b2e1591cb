import Mathlib
import RCore.Foundation.Utf8

/-! # Kernel constants, `usize` arithmetic and panics

The constants of `os5/src/config.rs`; the release build's `usize` addition and
subtraction, which wrap modulo `2 ^ 64` instead of trapping (values of type `usize`
are natural numbers below `usizeModulus`); and the places where the kernel and
easy-fs panic, one constructor of `RCore.Panic` for each kind of assertion or
`unwrap` that the modelled code can reach.
-/

namespace RCore

/-- Number of distinct `usize` values on the 64-bit target. -/
def usizeModulus : Nat := 2 ^ 64

/-- `usize::MAX`. -/
def usizeMax : Nat := usizeModulus - 1

/-- `isize::MAX`, the largest priority `sys_set_priority` can receive. -/
def isizeMax : Nat := 2 ^ 63 - 1

/-- `USER_STACK_SIZE`. -/
def userStackSize : Nat := 4096 * 2

/-- `KERNEL_STACK_SIZE`. -/
def kernelStackSize : Nat := 4096 * 20

/-- `MEMORY_END`. -/
def memoryEnd : Nat := 0x88000000

/-- `PAGE_SIZE`. -/
def pageSize : Nat := 0x1000

/-- `PAGE_SIZE_BITS`. -/
def pageSizeBits : Nat := 0xc

/-- `MAX_SYSCALL_NUM`. -/
def maxSyscallNum : Nat := 500

/-- `BIG_STRIDE`, the pass quantum divided among priorities. -/
def bigStride : Nat := usizeMax / 1048576

/-- `TRAMPOLINE`, the highest page of the address space. -/
def trampoline : Nat := usizeMax - pageSize + 1

/-- `TRAP_CONTEXT`, the page just below the trampoline. -/
def trapContext : Nat := trampoline - pageSize

/-- `a + b` on `usize` in the release build. -/
def wrappingAdd (a b : Nat) : Nat := (a + b) % usizeModulus

/-- `a - b` on `usize` in the release build, for `b` a `usize`. -/
def wrappingSub (a b : Nat) : Nat := (a + usizeModulus - b) % usizeModulus

/-- `a * b` on `usize` in the release build. -/
def wrappingMul (a b : Nat) : Nat := a * b % usizeModulus

/-- `x as isize` for a `usize` value. -/
def asIsize (x : Nat) : Int :=
  let low : Nat := x % usizeModulus
  if low < 2 ^ 63 then (low : Int) else (low : Int) - usizeModulus

/-- `x as i32` for a `usize` value: the low 32 bits, signed. -/
def asI32 (x : Nat) : Int :=
  let low : Nat := x % 2 ^ 32
  if low < 2 ^ 31 then (low : Int) else (low : Int) - 2 ^ 32

/-- `x as usize` for a signed value: two's complement modulo `2 ^ 64`. -/
def asUsize (x : Int) : Nat := (x % usizeModulus).toNat

theorem bigStride_eq : bigStride = 2 ^ 44 - 1 := by decide

theorem trampoline_eq : trampoline = 2 ^ 64 - 4096 := by decide

theorem trapContext_eq : trapContext = 2 ^ 64 - 8192 := by decide

/-- An addition that stays below `2 ^ 64` does not wrap. -/
theorem wrappingAdd_of_lt {a b : Nat} (small : a + b < 2 ^ 64) : wrappingAdd a b = a + b :=
  Nat.mod_eq_of_lt small

/-- A wrapped sum is a `usize`. -/
theorem wrappingAdd_lt (a b : Nat) : wrappingAdd a b < 2 ^ 64 := Nat.mod_lt _ (by decide)

/-- A subtraction that does not go below zero does not wrap. -/
theorem wrappingSub_of_le {a b : Nat} (small : a < 2 ^ 64) (le : b ≤ a) :
    wrappingSub a b = a - b := by
  unfold wrappingSub usizeModulus
  rw [show a + 2 ^ 64 - b = (a - b) + 2 ^ 64 by omega, Nat.add_mod_right]
  exact Nat.mod_eq_of_lt (by omega)

/-- Why a modelled computation panicked. Fallible code returns `Except Panic`. -/
inductive Panic where
  /-- `SimpleRange::new`: "start {:?} > end {:?}!". -/
  | rangeStartAfterEnd (start stop : Nat)
  /-- `From<VirtAddr> for VirtPageNum`: `assert_eq!(v.page_offset(), 0)`. -/
  | pageOffsetNonzero (va : Nat)
  /-- `frame_alloc().unwrap()` when no frame is left. -/
  | frameExhausted
  /-- `StackFrameAllocator::dealloc`: "Frame ppn={:#x} has not been allocated!". -/
  | frameNotAllocated (ppn : Nat)
  /-- `PageTable::map`: "vpn {:?} is mapped before mapping". -/
  | mappedBeforeMapping (vpn : Nat)
  /-- `PageTable::unmap`: "vpn {:?} is invalid before unmapping". -/
  | invalidBeforeUnmapping (vpn : Nat)
  /-- `translate(vpn).unwrap()` or `translate_va(va).unwrap()` on a walk that stopped
  at an invalid upper entry. -/
  | translationMissing (addr : Nat)
  /-- `MapArea::copy_data`: `assert_eq!(self.map_type, MapType::Framed)`. -/
  | mapTypeNotFramed
  /-- `MemorySet::from_elf`: "invalid elf!". -/
  | invalidElf
  /-- A slice `&data[start..stop]` out of the bounds of `data`. -/
  | sliceOutOfRange (start stop : Nat)
  /-- `MapPermission::from_bits(bits).unwrap()` on bits that name no permission. -/
  | invalidMapPermission (bits : Nat)
  /-- `as_mut().unwrap()` on a null physical address. -/
  | nullPointer
  /-- `RefCell::borrow_mut` inside `UPSafeCell::exclusive_access` while already borrowed. -/
  | alreadyBorrowed
  /-- `current_task().unwrap()` with no task on the processor. -/
  | noCurrentTask
  /-- `PidAllocator::dealloc`: `assert!(pid < self.current)` or "pid {} has been
  deallocated!". -/
  | pidNotAllocated (pid : Nat)
  /-- `sys_waitpid`: `assert_eq!(Arc::strong_count(&child), 1)`. -/
  | strongCountNotOne (count : Nat)
  /-- An assertion of easy-fs, named by the function that makes it. -/
  | easyFsAssertion (site : String)
  /-- The block device could not transfer a whole block ("Not a complete block!"). -/
  | incompleteBlock (blockId : Nat)
  /-- `BlockCacheManager::get_block_cache`: "Run out of BlockCache!". -/
  | runOutOfBlockCache
  /-- `core::str::from_utf8(..).unwrap()`, in `sys_write` and in the loader's `APP_NAMES`, on
  bytes that are not UTF-8. -/
  | utf8Error (error : Foundation.Utf8.Utf8Error)
  /-- `sys_write`: "Unsupported fd in sys_write!". -/
  | unsupportedFdInSysWrite
  /-- `sys_read`: "Unsupported fd in sys_read!". -/
  | unsupportedFdInSysRead
  /-- `sys_read`: `assert_eq!(len, 1, "Only support len = 1 in sys_read!")`. -/
  | readLenNotOne (len : Nat)
  /-- `buffers[0]` in `sys_read` when `translated_byte_buffer` cut no slice. -/
  | noBuffer
  /-- `start_time.unwrap()` in `current_run_time` for a task that has not run. -/
  | noStartTime
  /-- `get_app_data`: `assert!(app_id < num_app)`. -/
  | appIdOutOfRange (appId : Nat)
deriving DecidableEq, Repr

end RCore
