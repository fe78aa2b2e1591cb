import RCore.Mm.FrameAllocator

/-! # Sv39 page tables

`os5/src/mm/page_table.rs`. A page-table entry is a `usize` word holding a frame number
above bit 10 and the eight `PTEFlags` below it. A page table is a tree of three levels of
512-entry nodes, each node one frame of physical memory; `PageTable` holds the root frame
and the frames of every node it created. Entries are 8-byte little-endian words of physical
memory at `ppn * 4096 + 8 * idx` (`RCore.pteAddr`).

The walks of `find_pte` and `find_pte_create` are unrolled over the three levels. Each step
reads one entry and follows it when it is valid (`RCore.nextNode`); `find_pte_create` puts a
fresh zeroed frame behind an invalid entry of the two upper levels. `map` and `unmap` write
the leaf entry after asserting that it was invalid, respectively valid. The entry-level
facts are here: an entry built by `PageTableEntry::new` reads back its frame and flags
(`RCore.PageTableEntry.ppn_new`, `RCore.PageTableEntry.flags_new`), and a write to one entry
leaves every other entry alone (`RCore.readPte_writePte_of_ne`).
-/

namespace RCore

/-- `PTEFlags`, a `u8` bit set whose eight bits are all flags. -/
structure PTEFlags where
  bits : UInt8
deriving DecidableEq, Repr

namespace PTEFlags

/-- `PTEFlags::V`. -/
def V : PTEFlags := ⟨(1 : UInt8) <<< 0⟩

/-- `PTEFlags::R`. -/
def R : PTEFlags := ⟨(1 : UInt8) <<< 1⟩

/-- `PTEFlags::W`. -/
def W : PTEFlags := ⟨(1 : UInt8) <<< 2⟩

/-- `PTEFlags::X`. -/
def X : PTEFlags := ⟨(1 : UInt8) <<< 3⟩

/-- `PTEFlags::U`. -/
def U : PTEFlags := ⟨(1 : UInt8) <<< 4⟩

/-- `PTEFlags::empty()`. -/
def empty : PTEFlags := ⟨0⟩

instance : OrOp PTEFlags := ⟨fun a b => ⟨a.bits ||| b.bits⟩⟩

instance : AndOp PTEFlags := ⟨fun a b => ⟨a.bits &&& b.bits⟩⟩

/-- `PTEFlags::from_bits(bits).unwrap()`: every bit of a `u8` names a flag, so `from_bits`
always succeeds and the `unwrap` never panics. -/
def fromBits (bits : UInt8) : PTEFlags := ⟨bits⟩

@[simp] theorem or_bits (a b : PTEFlags) : (a ||| b).bits = a.bits ||| b.bits := rfl

@[simp] theorem and_bits (a b : PTEFlags) : (a &&& b).bits = a.bits &&& b.bits := rfl

end PTEFlags

/-- `PageTableEntry`, the `usize` word of one entry. -/
structure PageTableEntry where
  bits : Nat
deriving DecidableEq, Repr

namespace PageTableEntry

/-- `PageTableEntry::new`: `ppn.0 << 10 | flags.bits as usize`, the shift dropping the bits
pushed past the word. -/
def new (ppn : PhysPageNum) (flags : PTEFlags) : PageTableEntry :=
  ⟨(ppn.val <<< 10) % usizeModulus ||| flags.bits.toNat⟩

/-- `PageTableEntry::empty`. -/
def empty : PageTableEntry := ⟨0⟩

/-- `PageTableEntry::ppn`: the 44 bits above the flags. -/
def ppn (pte : PageTableEntry) : PhysPageNum := ⟨pte.bits >>> 10 &&& ((1 <<< 44) - 1)⟩

/-- `PageTableEntry::flags`: `PTEFlags::from_bits(self.bits as u8).unwrap()`, which cannot
fail. -/
def flags (pte : PageTableEntry) : PTEFlags := ⟨UInt8.ofNat pte.bits⟩

/-- `PageTableEntry::is_valid`. -/
def isValid (pte : PageTableEntry) : Bool := pte.flags &&& PTEFlags.V != PTEFlags.empty

/-- The word `new` builds, as arithmetic: the frame number, cut to the 54 bits that survive
the shift, above ten bits of flags. -/
theorem new_bits (ppn : PhysPageNum) (flags : PTEFlags) :
    (new ppn flags).bits = ppn.val % 2 ^ 54 * 1024 + flags.bits.toNat := by
  have shift : (ppn.val <<< 10) % 2 ^ 64 = (ppn.val % 2 ^ 54) <<< 10 := by
    rw [Nat.shiftLeft_eq, Nat.shiftLeft_eq, show 2 ^ 64 = 2 ^ 54 * 2 ^ 10 from rfl,
      Nat.mul_mod_mul_right]
  have small : flags.bits.toNat < 2 ^ 10 := by have := flags.bits.toNat_lt; omega
  rw [new, usizeModulus, shift, ← Nat.shiftLeft_add_eq_or_of_lt small, Nat.shiftLeft_eq]

theorem new_bits_lt (ppn : PhysPageNum) (flags : PTEFlags) : (new ppn flags).bits < 2 ^ 64 := by
  have := flags.bits.toNat_lt
  rw [new_bits]
  omega

/-- An entry reads back the frame it was built with, when the frame number has 44 bits. -/
@[simp]
theorem ppn_new {ppn : PhysPageNum} (small : ppn.val < 2 ^ 44) (flags : PTEFlags) :
    (new ppn flags).ppn = ppn := by
  have := flags.bits.toNat_lt
  rw [PageTableEntry.ppn, new_bits, Nat.one_shiftLeft, Nat.and_two_pow_sub_one_eq_mod,
    Nat.shiftRight_eq_div_pow]
  congr 1
  omega

/-- The frame number of any entry has 44 bits. -/
theorem ppn_lt (pte : PageTableEntry) : pte.ppn.val < 2 ^ 44 := by
  show pte.bits >>> 10 &&& ((1 <<< 44) - 1) < 2 ^ 44
  rw [Nat.one_shiftLeft, Nat.and_two_pow_sub_one_eq_mod]
  exact Nat.mod_lt _ (by decide)

@[simp]
theorem flags_new (ppn : PhysPageNum) (flags : PTEFlags) : (new ppn flags).flags = flags := by
  have := flags.bits.toNat_lt
  rw [PageTableEntry.flags, new_bits]
  congr 1
  apply UInt8.toNat_inj.mp
  rw [UInt8.toNat_ofNat']
  omega

theorem isValid_eq (pte : PageTableEntry) : pte.isValid = (pte.flags.bits &&& 1 != 0) := by
  have one : PTEFlags.V.bits = 1 := by decide
  rw [isValid, Bool.eq_iff_iff, bne_iff_ne, bne_iff_ne, ne_eq, ne_eq]
  show ¬ (⟨pte.flags.bits &&& PTEFlags.V.bits⟩ : PTEFlags) = ⟨0⟩ ↔ _
  rw [PTEFlags.mk.injEq, one]

@[simp]
theorem isValid_new (ppn : PhysPageNum) (flags : PTEFlags) :
    (new ppn flags).isValid = (flags.bits &&& 1 != 0) := by
  rw [isValid_eq, flags_new]

/-- `map` sets `V` on top of the requested flags, so its entry is valid. -/
@[simp]
theorem isValid_new_or_V (ppn : PhysPageNum) (flags : PTEFlags) :
    (new ppn (flags ||| PTEFlags.V)).isValid = true := by
  have odd : (flags.bits.toNat ||| 1) % 2 = 1 := Nat.or_mod_two_eq_one.mpr (.inr rfl)
  have unit : UInt8.toNat 1 = 1 := rfl
  have vBit : PTEFlags.V.bits = 1 := by decide
  have one : ((flags.bits ||| 1) &&& 1).toNat = 1 := by
    rw [UInt8.toNat_and, UInt8.toNat_or, unit, Nat.and_one_is_mod, odd]
  rw [isValid_new, PTEFlags.or_bits, vBit, bne_iff_ne, ne_eq, ← UInt8.toNat_inj, one]
  decide

@[simp]
theorem isValid_empty : empty.isValid = false := rfl

/-- A zero word is not valid. -/
theorem not_isValid_of_bits_eq_zero {pte : PageTableEntry} (zero : pte.bits = 0) :
    pte.isValid = false := by
  cases pte
  cases zero
  rfl

end PageTableEntry

/-- The physical address of entry `idx` of the node in frame `ppn`:
`ppn.get_pte_array()[idx]`. -/
def pteAddr (ppn : PhysPageNum) (idx : Nat) : Nat := ppn.toPhysAddr.val + 8 * idx

/-- Read entry `idx` of the node in frame `ppn`. -/
def readPte (mem : Nat → UInt8) (ppn : PhysPageNum) (idx : Nat) : PageTableEntry :=
  ⟨Foundation.loadLE mem (pteAddr ppn idx) 8⟩

/-- `*pte = ...` on entry `idx` of the node in frame `ppn`. -/
def writePte (mem : Nat → UInt8) (ppn : PhysPageNum) (idx : Nat) (pte : PageTableEntry) :
    Nat → UInt8 :=
  Foundation.storeLE mem (pteAddr ppn idx) 8 pte.bits

/-- Frame numbers below `2 ^ 44` address their nodes without wrap. -/
theorem pteAddr_eq {ppn : PhysPageNum} (small : ppn.val < 2 ^ 44) (idx : Nat) :
    pteAddr ppn idx = ppn.val * pageSize + 8 * idx := by
  rw [pteAddr, PhysPageNum.toPhysAddr_val (by omega)]

/-- The eight bytes of an entry lie in its node's frame. -/
theorem covers_of_pteAddr {ppn : PhysPageNum} (small : ppn.val < 2 ^ 44) {idx : Nat}
    (inside : idx < 512) {addr : Nat} (low : pteAddr ppn idx ≤ addr) (high : addr < pteAddr ppn idx + 8) :
    ppn.Covers addr := by
  rw [pteAddr_eq small] at low high
  unfold PhysPageNum.Covers
  rw [PhysPageNum.toPhysAddr_val (by omega)]
  simp only [pageSize] at *
  omega

theorem readPte_writePte_self (mem : Nat → UInt8) (ppn : PhysPageNum) (idx : Nat)
    {pte : PageTableEntry} (word : pte.bits < 2 ^ 64) :
    readPte (writePte mem ppn idx pte) ppn idx = pte := by
  rw [readPte, writePte, Foundation.loadLE_storeLE_self, Nat.mod_eq_of_lt (by simpa using word)]

/-- A write to one entry leaves every other entry alone. -/
theorem readPte_writePte_of_ne (mem : Nat → UInt8) {ppn ppn' : PhysPageNum} {idx idx' : Nat}
    (pte : PageTableEntry) (small : ppn.val < 2 ^ 44) (small' : ppn'.val < 2 ^ 44)
    (inside : idx < 512) (inside' : idx' < 512) (apart : ppn ≠ ppn' ∨ idx ≠ idx') :
    readPte (writePte mem ppn idx pte) ppn' idx' = readPte mem ppn' idx' := by
  have differ : ppn.val ≠ ppn'.val ∨ idx ≠ idx' := by
    rcases apart with differ | differ
    · exact .inl fun same => differ (by cases ppn; cases ppn'; simp_all)
    · exact .inr differ
  simp only [readPte, writePte]
  rw [Foundation.loadLE_storeLE_of_disjoint]
  rw [pteAddr_eq small, pteAddr_eq small']
  simp only [pageSize]
  omega

/-- A write to an entry changes no byte outside its node's frame. -/
theorem writePte_apply_of_not_covers (mem : Nat → UInt8) {ppn : PhysPageNum} (small : ppn.val < 2 ^ 44)
    {idx : Nat} (inside : idx < 512) (pte : PageTableEntry) {addr : Nat} (outside : ¬ ppn.Covers addr) :
    writePte mem ppn idx pte addr = mem addr := by
  unfold writePte Foundation.storeLE
  rw [if_neg fun ⟨low, high⟩ => outside (covers_of_pteAddr small inside low high)]

/-- An entry is read from the bytes of its node's frame only. -/
theorem readPte_congr {mem mem' : Nat → UInt8} {ppn : PhysPageNum} (small : ppn.val < 2 ^ 44)
    {idx : Nat} (inside : idx < 512) (same : ∀ addr, ppn.Covers addr → mem addr = mem' addr) :
    readPte mem ppn idx = readPte mem' ppn idx := by
  rw [readPte, readPte, Foundation.loadLE_congr fun addr low high =>
    same addr (covers_of_pteAddr small inside low high)]

/-- Every entry of a zeroed frame is empty. -/
theorem readPte_zeroFrame_self (mem : Nat → UInt8) {ppn : PhysPageNum} (small : ppn.val < 2 ^ 44)
    {idx : Nat} (inside : idx < 512) : readPte (zeroFrame mem ppn) ppn idx = .empty := by
  rw [readPte, Foundation.loadLE_of_zero fun addr low high => by
    rw [zeroFrame, if_pos (covers_of_pteAddr small inside low high)]]
  rfl

/-- Zeroing a frame leaves the entries of every other node alone. -/
theorem readPte_zeroFrame_of_ne (mem : Nat → UInt8) {ppn ppn' : PhysPageNum} (small : ppn.val < 2 ^ 44)
    (small' : ppn'.val < 2 ^ 44) (apart : ppn ≠ ppn') {idx : Nat} (inside : idx < 512) :
    readPte (zeroFrame mem ppn) ppn' idx = readPte mem ppn' idx := by
  apply readPte_congr small' inside
  intro addr covered
  exact zeroFrame_apply_of_not_covers
    (PhysPageNum.not_covers_of_ne (by omega) (by omega) (Ne.symm apart) covered)

/-- The node that entry `idx` of node `ppn` points to, when the entry is valid: one step of
the walks of `find_pte` and `find_pte_create`. -/
def nextNode (mem : Nat → UInt8) (ppn : PhysPageNum) (idx : Nat) : Option PhysPageNum :=
  if (readPte mem ppn idx).isValid then some (readPte mem ppn idx).ppn else none

/-- `PageTable`: the root frame, and the `FrameTracker`s of every node it allocated. -/
structure PageTable where
  rootPpn : PhysPageNum
  frames : List PhysPageNum

namespace PageTable

/-- `PageTable::new`, whose root frame comes from `frame_alloc().unwrap()`. -/
def new : KernelM PageTable := do
  let frame ← frameAllocUnwrap
  return ⟨frame, [frame]⟩

/-- `PageTable::from_token`: a table that owns no frame, rooted at the token's frame. -/
def fromToken (satp : Nat) : PageTable := ⟨⟨satp &&& ((1 <<< 44) - 1)⟩, []⟩

/-- `PageTable::token`, the `satp` value selecting Sv39 and the root frame. -/
def token (pt : PageTable) : Nat := 8 <<< 60 ||| pt.rootPpn.val

/-- One upper level of the loop of `find_pte_create`: follow entry `idx` of node `ppn`, first
pointing an invalid entry at a fresh frame (`frame_alloc().unwrap()`, pushed on `frames`). -/
def descendCreate (pt : PageTable) (ppn : PhysPageNum) (idx : Nat) :
    KernelM (PhysPageNum × PageTable) := do
  let pte := readPte (← get).mem ppn idx
  if pte.isValid then
    return (pte.ppn, pt)
  let frame ← frameAllocUnwrap
  let pte := PageTableEntry.new frame PTEFlags.V
  modify fun m => { m with mem := writePte m.mem ppn idx pte }
  return (pte.ppn, { pt with frames := pt.frames ++ [frame] })

/-- `PageTable::find_pte_create`: the leaf entry of `vpn`, as its node and index, creating
the missing nodes on the way. The loop runs over `vpn.indexes()`, root index first; the third
iteration only selects the entry, so the result is always `Some` and is returned bare. -/
def findPteCreate (pt : PageTable) (vpn : VirtPageNum) :
    KernelM ((PhysPageNum × Nat) × PageTable) := do
  let (idx0, idx1, idx2) := vpn.indexes
  let (node1, pt) ← pt.descendCreate pt.rootPpn idx0
  let (node2, pt) ← pt.descendCreate node1 idx1
  return ((node2, idx2), pt)

/-- `PageTable::find_pte`: the leaf entry of `vpn`, as its node and index; `None` when the walk
meets an invalid entry on an upper level. The leaf entry itself is not checked. -/
def findPte (pt : PageTable) (mem : Nat → UInt8) (vpn : VirtPageNum) : Option (PhysPageNum × Nat) :=
  let (idx0, idx1, idx2) := vpn.indexes
  (nextNode mem pt.rootPpn idx0).bind fun node1 =>
    (nextNode mem node1 idx1).map fun node2 => (node2, idx2)

/-- `PageTable::map`. -/
def map (pt : PageTable) (vpn : VirtPageNum) (ppn : PhysPageNum) (flags : PTEFlags) :
    KernelM PageTable := do
  let ((node, idx), pt) ← pt.findPteCreate vpn
  if (readPte (← get).mem node idx).isValid then
    throw (.mappedBeforeMapping vpn.val)
  modify fun m => { m with mem := writePte m.mem node idx (PageTableEntry.new ppn (flags ||| PTEFlags.V)) }
  return pt

/-- `PageTable::unmap`. -/
def unmap (pt : PageTable) (vpn : VirtPageNum) : KernelM PageTable := do
  let ((node, idx), pt) ← pt.findPteCreate vpn
  if !(readPte (← get).mem node idx).isValid then
    throw (.invalidBeforeUnmapping vpn.val)
  modify fun m => { m with mem := writePte m.mem node idx PageTableEntry.empty }
  return pt

/-- `PageTable::translate`: a copy of the leaf entry, valid or not. -/
def translate (pt : PageTable) (mem : Nat → UInt8) (vpn : VirtPageNum) : Option PageTableEntry :=
  (pt.findPte mem vpn).map fun (node, idx) => readPte mem node idx

/-- `PageTable::translate_va`: the entry's frame plus the page offset. -/
def translateVa (pt : PageTable) (mem : Nat → UInt8) (va : VirtAddr) : Option PhysAddr :=
  (pt.findPte mem va.floor).map fun (node, idx) =>
    ⟨(readPte mem node idx).ppn.toPhysAddr.val + va.pageOffset⟩

variable {pt pt' : PageTable} {m m' : Machine} {ppn next node : PhysPageNum} {idx : Nat}
  {vpn : VirtPageNum} {e : Panic}

theorem new_eq_ok (ran : PageTable.new m = .ok (pt, m')) :
    frameAllocUnwrap m = .ok (pt.rootPpn, m') ∧ pt.frames = [pt.rootPpn] := by
  obtain ⟨frame, mid, allocated, built⟩ := Foundation.bind_eq_ok.mp ran
  cases built
  exact ⟨allocated, rfl⟩

theorem new_eq_error (failed : PageTable.new m = .error e) : frameAllocUnwrap m = .error e := by
  rcases Foundation.bind_eq_error.mp failed with bad | ⟨_, _, _, built⟩
  · exact bad
  · cases built

/-- A step of `find_pte_create` either follows a valid entry and changes nothing, or takes a
frame and points the entry at it. -/
theorem descendCreate_eq_ok (ran : pt.descendCreate ppn idx m = .ok ((next, pt'), m')) :
    (nextNode m.mem ppn idx = some next ∧ pt' = pt ∧ m' = m) ∨
      (nextNode m.mem ppn idx = none ∧ ∃ frame mid, frameAllocUnwrap m = .ok (frame, mid) ∧
        next = (PageTableEntry.new frame PTEFlags.V).ppn ∧
        pt' = { pt with frames := pt.frames ++ [frame] } ∧
        m' = { mid with mem := writePte mid.mem ppn idx (.new frame PTEFlags.V) }) := by
  unfold descendCreate at ran
  obtain ⟨s, m1, got, rest⟩ := Foundation.bind_eq_ok.mp ran
  cases got
  unfold nextNode
  split at rest
  case isTrue valid =>
    cases rest
    exact .inl ⟨by rw [if_pos valid], rfl, rfl⟩
  case isFalse invalid =>
    obtain ⟨frame, mid, allocated, tail⟩ := Foundation.bind_eq_ok.mp rest
    obtain ⟨⟨⟩, m2, modified, final⟩ := Foundation.bind_eq_ok.mp tail
    cases modified
    cases final
    exact .inr ⟨by rw [if_neg invalid], frame, mid, allocated, rfl, rfl, rfl⟩

/-- A step of `find_pte_create` fails only in `frame_alloc().unwrap()`. -/
theorem descendCreate_eq_error (failed : pt.descendCreate ppn idx m = .error e) :
    nextNode m.mem ppn idx = none ∧ frameAllocUnwrap m = .error e := by
  unfold descendCreate at failed
  rcases Foundation.bind_eq_error.mp failed with bad | ⟨s, m1, got, rest⟩
  · cases bad
  · cases got
    unfold nextNode
    split at rest
    case isTrue => cases rest
    case isFalse invalid =>
      refine ⟨by rw [if_neg invalid], ?_⟩
      rcases Foundation.bind_eq_error.mp rest with bad | ⟨frame, mid, allocated, tail⟩
      · exact bad
      · rcases Foundation.bind_eq_error.mp tail with bad | ⟨_, _, modified, final⟩
        · cases bad
        · cases final

theorem findPteCreate_eq_ok (ran : pt.findPteCreate vpn m = .ok (((node, idx), pt'), m')) :
    ∃ node1 midTable mid, pt.descendCreate pt.rootPpn vpn.indexes.1 m = .ok ((node1, midTable), mid) ∧
      midTable.descendCreate node1 vpn.indexes.2.1 mid = .ok ((node, pt'), m') ∧
      idx = vpn.indexes.2.2 := by
  unfold findPteCreate at ran
  obtain ⟨⟨node1, midTable⟩, mid, first, rest⟩ := Foundation.bind_eq_ok.mp ran
  obtain ⟨⟨node2, lastTable⟩, last, second, final⟩ := Foundation.bind_eq_ok.mp rest
  cases final
  exact ⟨node1, midTable, mid, first, second, rfl⟩

theorem findPteCreate_eq_error (failed : pt.findPteCreate vpn m = .error e) :
    pt.descendCreate pt.rootPpn vpn.indexes.1 m = .error e ∨
      ∃ node1 midTable mid, pt.descendCreate pt.rootPpn vpn.indexes.1 m = .ok ((node1, midTable), mid) ∧
        midTable.descendCreate node1 vpn.indexes.2.1 mid = .error e := by
  unfold findPteCreate at failed
  rcases Foundation.bind_eq_error.mp failed with bad | ⟨⟨node1, midTable⟩, mid, first, rest⟩
  · exact .inl bad
  · rcases Foundation.bind_eq_error.mp rest with bad | ⟨_, _, _, final⟩
    · exact .inr ⟨node1, midTable, mid, first, bad⟩
    · cases final

/-- `map` finds or creates the leaf entry, asserts that it is invalid and writes it. -/
theorem map_eq_ok {flags : PTEFlags} (ran : pt.map vpn ppn flags m = .ok (pt', m')) :
    ∃ node idx mid, pt.findPteCreate vpn m = .ok (((node, idx), pt'), mid) ∧
      (readPte mid.mem node idx).isValid = false ∧
      m' = { mid with mem := writePte mid.mem node idx (.new ppn (flags ||| PTEFlags.V)) } := by
  unfold map at ran
  obtain ⟨⟨⟨node, idx⟩, table⟩, mid, found, rest⟩ := Foundation.bind_eq_ok.mp ran
  obtain ⟨s, m1, got, rest⟩ := Foundation.bind_eq_ok.mp rest
  cases got
  split at rest
  case isTrue =>
    obtain ⟨_, _, thrown, _⟩ := Foundation.bind_eq_ok.mp rest
    cases thrown
  case isFalse invalid =>
    obtain ⟨⟨⟩, m2, modified, final⟩ := Foundation.bind_eq_ok.mp rest
    cases modified
    cases final
    exact ⟨node, idx, mid, found, by simpa using invalid, rfl⟩

theorem map_eq_error {flags : PTEFlags} (failed : pt.map vpn ppn flags m = .error e) :
    pt.findPteCreate vpn m = .error e ∨
      ∃ node idx table mid, pt.findPteCreate vpn m = .ok (((node, idx), table), mid) ∧
        (readPte mid.mem node idx).isValid = true ∧ e = .mappedBeforeMapping vpn.val := by
  unfold map at failed
  rcases Foundation.bind_eq_error.mp failed with bad | ⟨⟨⟨node, idx⟩, table⟩, mid, found, rest⟩
  · exact .inl bad
  · rcases Foundation.bind_eq_error.mp rest with bad | ⟨s, m1, got, rest⟩
    · cases bad
    · cases got
      split at rest
      case isTrue valid =>
        rcases Foundation.bind_eq_error.mp rest with thrown | ⟨_, _, thrown, _⟩
        · cases thrown
          exact .inr ⟨node, idx, table, mid, found, valid, rfl⟩
        · cases thrown
      case isFalse =>
        rcases Foundation.bind_eq_error.mp rest with bad | ⟨_, _, modified, final⟩
        · cases bad
        · cases final

/-- `unmap` finds or creates the leaf entry, asserts that it is valid and clears it. -/
theorem unmap_eq_ok (ran : pt.unmap vpn m = .ok (pt', m')) :
    ∃ node idx mid, pt.findPteCreate vpn m = .ok (((node, idx), pt'), mid) ∧
      (readPte mid.mem node idx).isValid = true ∧
      m' = { mid with mem := writePte mid.mem node idx .empty } := by
  unfold unmap at ran
  obtain ⟨⟨⟨node, idx⟩, table⟩, mid, found, rest⟩ := Foundation.bind_eq_ok.mp ran
  obtain ⟨s, m1, got, rest⟩ := Foundation.bind_eq_ok.mp rest
  cases got
  split at rest
  case isTrue =>
    obtain ⟨_, _, thrown, _⟩ := Foundation.bind_eq_ok.mp rest
    cases thrown
  case isFalse valid =>
    obtain ⟨⟨⟩, m2, modified, final⟩ := Foundation.bind_eq_ok.mp rest
    cases modified
    cases final
    exact ⟨node, idx, mid, found, by simpa using valid, rfl⟩

theorem unmap_eq_error (failed : pt.unmap vpn m = .error e) :
    pt.findPteCreate vpn m = .error e ∨
      ∃ node idx table mid, pt.findPteCreate vpn m = .ok (((node, idx), table), mid) ∧
        (readPte mid.mem node idx).isValid = false ∧ e = .invalidBeforeUnmapping vpn.val := by
  unfold unmap at failed
  rcases Foundation.bind_eq_error.mp failed with bad | ⟨⟨⟨node, idx⟩, table⟩, mid, found, rest⟩
  · exact .inl bad
  · rcases Foundation.bind_eq_error.mp rest with bad | ⟨s, m1, got, rest⟩
    · cases bad
    · cases got
      split at rest
      case isTrue invalid =>
        rcases Foundation.bind_eq_error.mp rest with thrown | ⟨_, _, thrown, _⟩
        · cases thrown
          exact .inr ⟨node, idx, table, mid, found, by simpa using invalid, rfl⟩
        · cases thrown
      case isFalse =>
        rcases Foundation.bind_eq_error.mp rest with bad | ⟨_, _, modified, final⟩
        · cases bad
        · cases final

end PageTable

end RCore
