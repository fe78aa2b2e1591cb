import Mathlib
import RCore.Config

/-! # Addresses, page numbers and page ranges

The newtypes of `os5/src/mm/address.rs` over `usize`: rounding an address down and up
to a page (`VirtAddr.floor`, `VirtAddr.ceil`, the latter with the release build's
wrap-around), the Sv39 indices of a virtual page number (`VirtPageNum.indexes`, which
keep only the low 27 bits), and the page range `VPNRange`, whose constructor asserts
`start <= end`. A range therefore always carries `l ≤ r`, and its iterator yields
`l, l + 1, ..., r - 1` (`VPNRange.vpns`).
-/

namespace RCore

/-- `VirtAddr(usize)`. -/
structure VirtAddr where
  val : Nat
deriving DecidableEq, Repr

/-- `VirtPageNum(usize)`. -/
structure VirtPageNum where
  val : Nat
deriving DecidableEq, Repr

/-- `PhysAddr(usize)`. -/
structure PhysAddr where
  val : Nat
deriving DecidableEq, Repr

/-- `PhysPageNum(usize)`. -/
structure PhysPageNum where
  val : Nat
deriving DecidableEq, Repr

namespace VirtAddr

/-- `VirtAddr::floor`: the page containing the address. -/
def floor (va : VirtAddr) : VirtPageNum := ⟨va.val / pageSize⟩

/-- `VirtAddr::ceil`: `(self.0 - 1 + PAGE_SIZE) / PAGE_SIZE` with wrapping `usize`
arithmetic. -/
def ceil (va : VirtAddr) : VirtPageNum :=
  ⟨wrappingAdd (wrappingSub va.val 1) pageSize / pageSize⟩

/-- `VirtAddr::page_offset`. -/
def pageOffset (va : VirtAddr) : Nat := va.val &&& (pageSize - 1)

/-- `VirtAddr::aligned`. -/
def aligned (va : VirtAddr) : Bool := va.pageOffset == 0

theorem pageOffset_eq (va : VirtAddr) : va.pageOffset = va.val % pageSize := by
  simpa [pageOffset, pageSize] using Nat.and_two_pow_sub_one_eq_mod va.val 12

theorem aligned_iff (va : VirtAddr) : va.aligned = true ↔ va.val % pageSize = 0 := by
  simp [aligned, pageOffset_eq]

/-- The rounding up of `ceil`, `(a - 1 + PAGE_SIZE) / PAGE_SIZE` on `usize`: away from the last
page of the address space it does not wrap; at address zero the two wraps cancel. -/
theorem roundUp_eq {a : Nat} (low : a ≤ trampoline) :
    wrappingAdd (wrappingSub a 1) pageSize / pageSize = (a + pageSize - 1) / pageSize := by
  simp only [wrappingAdd, wrappingSub, usizeModulus, trampoline_eq, pageSize] at *
  by_cases zero : a = 0
  · subst zero
    decide
  · rw [show a + 2 ^ 64 - 1 = (a - 1) + 2 ^ 64 by omega, Nat.add_mod_right,
      Nat.mod_eq_of_lt (by omega : a - 1 < 2 ^ 64), Nat.mod_eq_of_lt (by omega : a - 1 + 4096 < 2 ^ 64)]
    congr 1
    omega

theorem ceil_val {va : VirtAddr} (low : va.val ≤ trampoline) :
    va.ceil.val = (va.val + pageSize - 1) / pageSize :=
  roundUp_eq low

/-- In the last page of the address space `ceil` wraps to page zero. -/
theorem ceil_val_of_last_page {va : VirtAddr} (high : trampoline < va.val)
    (usize : va.val < 2 ^ 64) : va.ceil.val = 0 := by
  simp only [ceil, wrappingAdd, wrappingSub, usizeModulus, trampoline_eq, pageSize] at *
  omega

end VirtAddr

/-- Below `TRAMPOLINE` an end address does not wrap. -/
theorem wrappingAdd_of_fits {start len : Nat} (fits : start + len ≤ trampoline) :
    wrappingAdd start len = start + len :=
  wrappingAdd_of_lt (by rw [trampoline_eq] at fits; omega)

/-- `PhysAddr::floor`. -/
def PhysAddr.floor (pa : PhysAddr) : PhysPageNum := ⟨pa.val / pageSize⟩

/-- `PhysAddr::ceil`, with the release build's wrap-around. -/
def PhysAddr.ceil (pa : PhysAddr) : PhysPageNum :=
  ⟨wrappingAdd (wrappingSub pa.val 1) pageSize / pageSize⟩

theorem PhysAddr.ceil_val {pa : PhysAddr} (low : pa.val ≤ trampoline) :
    pa.ceil.val = (pa.val + pageSize - 1) / pageSize :=
  VirtAddr.roundUp_eq low

/-- `From<VirtPageNum> for VirtAddr`: `v.0 << PAGE_SIZE_BITS`, dropping the bits shifted
past the word. -/
def VirtPageNum.toVirtAddr (vpn : VirtPageNum) : VirtAddr :=
  ⟨(vpn.val <<< pageSizeBits) % usizeModulus⟩

/-- `From<PhysPageNum> for PhysAddr`. -/
def PhysPageNum.toPhysAddr (ppn : PhysPageNum) : PhysAddr :=
  ⟨(ppn.val <<< pageSizeBits) % usizeModulus⟩

/-- `From<VirtAddr> for VirtPageNum`, which asserts that the address is aligned. -/
def VirtAddr.toVirtPageNum (va : VirtAddr) : Except Panic VirtPageNum :=
  if va.pageOffset = 0 then .ok va.floor else .error (.pageOffsetNonzero va.val)

/-- `From<PhysAddr> for PhysPageNum`, which asserts that the address is aligned. -/
def PhysAddr.toPhysPageNum (pa : PhysAddr) : Except Panic PhysPageNum :=
  if pa.val &&& (pageSize - 1) = 0 then .ok ⟨pa.val / pageSize⟩ else .error (.pageOffsetNonzero pa.val)

/-- Page numbers compare as their `usize` values, as the derived `Ord` does. -/
instance : LinearOrder VirtPageNum :=
  LinearOrder.lift' VirtPageNum.val fun a b same => by cases a; cases b; cases same; rfl

theorem VirtPageNum.toVirtAddr_val {vpn : VirtPageNum} (small : vpn.val < 2 ^ 52) :
    vpn.toVirtAddr.val = vpn.val * pageSize := by
  simp only [toVirtAddr, pageSizeBits, usizeModulus, pageSize, Nat.shiftLeft_eq]
  exact Nat.mod_eq_of_lt (by omega)

theorem PhysPageNum.toPhysAddr_val {ppn : PhysPageNum} (small : ppn.val < 2 ^ 52) :
    ppn.toPhysAddr.val = ppn.val * pageSize := by
  simp only [toPhysAddr, pageSizeBits, usizeModulus, pageSize, Nat.shiftLeft_eq]
  exact Nat.mod_eq_of_lt (by omega)

/-- The three Sv39 indices of a virtual page number, level 2 (the root) first; the loop
of `VirtPageNum::indexes` fills `idx[2]`, `idx[1]`, `idx[0]` from the low bits up. -/
def VirtPageNum.indexes (vpn : VirtPageNum) : Nat × Nat × Nat :=
  (vpn.val >>> 18 &&& 511, vpn.val >>> 9 &&& 511, vpn.val &&& 511)

/-- The indices are the three base-512 digits of the low 27 bits. -/
theorem VirtPageNum.indexes_eq (vpn : VirtPageNum) :
    vpn.indexes = (vpn.val / 2 ^ 18 % 512, vpn.val / 2 ^ 9 % 512, vpn.val % 512) := by
  simp only [indexes, Nat.shiftRight_eq_div_pow]
  have mask : ∀ n : Nat, n &&& 511 = n % 512 := fun n => Nat.and_two_pow_sub_one_eq_mod n 9
  simp only [mask]

/-- Two page numbers share their indices exactly when they agree modulo `2 ^ 27`. -/
theorem VirtPageNum.indexes_eq_iff (a b : VirtPageNum) :
    a.indexes = b.indexes ↔ a.val % 2 ^ 27 = b.val % 2 ^ 27 := by
  rw [indexes_eq, indexes_eq]
  simp only [Prod.mk.injEq]
  omega

/-- `VPNRange = SimpleRange<VirtPageNum>`; `SimpleRange::new` asserts `start <= end`, so a
range that exists satisfies `l ≤ r`. -/
structure VPNRange where
  l : VirtPageNum
  r : VirtPageNum
  le : l.val ≤ r.val

namespace VPNRange

/-- `SimpleRange::new`. -/
def new (start stop : VirtPageNum) : Except Panic VPNRange :=
  if le : start.val ≤ stop.val then .ok ⟨start, stop, le⟩
  else .error (.rangeStartAfterEnd start.val stop.val)

/-- The pages `SimpleRangeIterator` yields: it steps from `l` by one until it reaches `r`. -/
def vpns (range : VPNRange) : List VirtPageNum :=
  (List.range' range.l.val (range.r.val - range.l.val)).map VirtPageNum.mk

theorem mem_vpns {range : VPNRange} {vpn : VirtPageNum} :
    vpn ∈ range.vpns ↔ range.l.val ≤ vpn.val ∧ vpn.val < range.r.val := by
  have le := range.le
  constructor
  · rintro member
    obtain ⟨n, inRange, rfl⟩ := List.mem_map.mp member
    rw [List.mem_range'_1] at inRange
    dsimp only
    exact ⟨inRange.1, by omega⟩
  · rintro ⟨low, high⟩
    exact List.mem_map.mpr ⟨vpn.val, List.mem_range'_1.mpr ⟨low, by omega⟩, rfl⟩

theorem vpns_nodup (range : VPNRange) : range.vpns.Nodup :=
  List.Nodup.map (fun _ _ same => VirtPageNum.mk.inj same) (List.nodup_range' 1 Nat.one_pos)

theorem vpns_sorted (range : VPNRange) : range.vpns.Pairwise (· < ·) :=
  (List.pairwise_lt_range' 1 Nat.one_pos).map VirtPageNum.mk fun _ _ lower => lower

/-- In a range of at most `2 ^ 27` pages no two pages share their indices. -/
theorem vpns_indexes_nodup {range : VPNRange} (short : range.r.val - range.l.val ≤ 2 ^ 27) :
    (range.vpns.map VirtPageNum.indexes).Nodup := by
  refine List.Nodup.map_on (fun a member b member' same => ?_) (vpns_nodup range)
  have inside := mem_vpns.mp member
  have inside' := mem_vpns.mp member'
  rw [VirtPageNum.indexes_eq_iff] at same
  have close : a.val = b.val := by omega
  cases a
  cases b
  cases close
  rfl

/-- A range of at least `2 ^ 27` pages holds a page of every index. -/
theorem exists_indexes_eq {range : VPNRange} (long : 2 ^ 27 ≤ range.r.val - range.l.val)
    (target : VirtPageNum) : ∃ v ∈ range.vpns, v.indexes = target.indexes := by
  refine ⟨⟨range.l.val + (target.val % 2 ^ 27 + 2 ^ 27 - range.l.val % 2 ^ 27) % 2 ^ 27⟩, ?_, ?_⟩
  · rw [mem_vpns]
    constructor <;> dsimp only <;> omega
  · rw [VirtPageNum.indexes_eq_iff]
    dsimp only
    omega

theorem length_vpns (range : VPNRange) : range.vpns.length = range.r.val - range.l.val := by
  simp [vpns]

theorem new_eq_ok {start stop : VirtPageNum} {range : VPNRange}
    (built : new start stop = .ok range) : range.l = start ∧ range.r = stop := by
  unfold new at built
  split at built
  · cases built
    exact ⟨rfl, rfl⟩
  · cases built

/-- The pages of `VPNRange::new(floor(s), ceil(e))` for `s ≤ e` up to `TRAMPOLINE`: the pages
that meet `[s, e)`, and, for `s = e` off a page boundary, the page of `s`. -/
theorem new_floor_ceil {s e : Nat} (le : s ≤ e) (low : e ≤ trampoline) :
    ∃ range, new (⟨s⟩ : VirtAddr).floor (⟨e⟩ : VirtAddr).ceil = .ok range ∧
      ∀ vpn, vpn ∈ range.vpns ↔ vpn.val * pageSize < e ∧ s < (vpn.val + 1) * pageSize := by
  have ceilEq := @VirtAddr.ceil_val ⟨e⟩ low
  have ordered : (⟨s⟩ : VirtAddr).floor.val ≤ (⟨e⟩ : VirtAddr).ceil.val := by
    rw [ceilEq]
    simp only [VirtAddr.floor, pageSize] at le ⊢
    omega
  refine ⟨⟨_, _, ordered⟩, by rw [new, dif_pos ordered], fun vpn => ?_⟩
  rw [mem_vpns]
  dsimp only
  rw [ceilEq]
  simp only [VirtAddr.floor, pageSize]
  omega

end VPNRange

/-- In the last page of the address space `ceil` wraps to page zero, though the page above is
`2 ^ 52`. The pages of `[s, e)` for an end `e` there are lost: `VPNRange::new(floor(s), ceil(e))`
panics when `s` lies above page zero, and is the empty range when it does not. -/
theorem vpnRange_floor_ceil_of_last_page {s e : Nat} (le : s ≤ e) (high : trampoline < e) (usize : e < 2 ^ 64) :
    (⟨e⟩ : VirtAddr).ceil.val = 0 ∧ (e + pageSize - 1) / pageSize = 2 ^ 52 ∧
      ((pageSize ≤ s ∧
          VPNRange.new (⟨s⟩ : VirtAddr).floor (⟨e⟩ : VirtAddr).ceil = .error (.rangeStartAfterEnd (s / pageSize) 0)) ∨
        (s < pageSize ∧ ∃ range, VPNRange.new (⟨s⟩ : VirtAddr).floor (⟨e⟩ : VirtAddr).ceil = .ok range ∧
          range.vpns = [])) := by
  have wrapped := @VirtAddr.ceil_val_of_last_page ⟨e⟩ high usize
  have above : (e + pageSize - 1) / pageSize = 2 ^ 52 := by
    rw [trampoline_eq] at high
    simp only [pageSize]
    omega
  refine ⟨wrapped, above, ?_⟩
  by_cases low : pageSize ≤ s
  · -- the start page is above the wrapped end, so `SimpleRange::new` asserts
    have apart : ¬ (⟨s⟩ : VirtAddr).floor.val ≤ (⟨e⟩ : VirtAddr).ceil.val := by
      rw [wrapped]
      simp only [VirtAddr.floor, pageSize] at low ⊢
      omega
    refine .inl ⟨low, ?_⟩
    rw [VPNRange.new, dif_neg apart, wrapped]
    rfl
  · have zero : (⟨s⟩ : VirtAddr).floor.val = 0 := by
      simp only [VirtAddr.floor, pageSize] at low ⊢
      omega
    have ordered : (⟨s⟩ : VirtAddr).floor.val ≤ (⟨e⟩ : VirtAddr).ceil.val := by
      rw [zero, wrapped]
    refine .inr ⟨by omega, ⟨_, _, ordered⟩, by rw [VPNRange.new, dif_pos ordered], ?_⟩
    rw [← List.length_eq_zero_iff, VPNRange.length_vpns]
    dsimp only
    rw [zero, wrapped]

/-- The empty range at the second byte of the last page. -/
theorem vpnRange_floor_ceil_of_last_page_second_byte :
    trampoline + 1 ≤ trampoline + 1 ∧ trampoline < trampoline + 1 ∧ trampoline + 1 < 2 ^ 64 ∧
      ((⟨trampoline + 1⟩ : VirtAddr).ceil.val = 0 ∧ (trampoline + 1 + pageSize - 1) / pageSize = 2 ^ 52 ∧
        ((pageSize ≤ trampoline + 1 ∧
            VPNRange.new (⟨trampoline + 1⟩ : VirtAddr).floor (⟨trampoline + 1⟩ : VirtAddr).ceil =
              .error (.rangeStartAfterEnd ((trampoline + 1) / pageSize) 0)) ∨
          (trampoline + 1 < pageSize ∧ ∃ range, VPNRange.new (⟨trampoline + 1⟩ : VirtAddr).floor
            (⟨trampoline + 1⟩ : VirtAddr).ceil = .ok range ∧ range.vpns = []))) := by
  have high : trampoline < trampoline + 1 := Nat.lt_succ_self _
  have usize : trampoline + 1 < 2 ^ 64 := by rw [trampoline_eq]; decide
  exact ⟨Nat.le_refl _, high, usize, vpnRange_floor_ceil_of_last_page (Nat.le_refl _) high usize⟩

/-- `SimpleRangeIterator<VirtPageNum>`: the next page to yield and the end of the range. -/
structure VPNRangeIterator where
  current : VirtPageNum
  stop : VirtPageNum

namespace VPNRangeIterator

/-- `SimpleRangeIterator::next`: nothing once `current == end`; otherwise `current`, after which
`step()` adds one to the `usize` page number. -/
def next (it : VPNRangeIterator) : Option (VirtPageNum × VPNRangeIterator) :=
  if it.current = it.stop then none
  else some (it.current, { it with current := ⟨wrappingAdd it.current.val 1⟩ })

/-- The pages of at most `fuel` calls of `next`, up to the first `None`. -/
def yields : Nat → VPNRangeIterator → List VirtPageNum
  | 0, _ => []
  | fuel + 1, it =>
      match it.next with
      | none => []
      | some (vpn, it) => vpn :: yields fuel it

/-- From `l ≤ r` the iterator yields `l, l + 1, …, r - 1` and then stops, so every fuel of at
least `r - l` calls gives the same pages; by induction on the fuel, from any start. -/
theorem yields_of_le {r : Nat} (usize : r < 2 ^ 64) :
    ∀ {fuel l : Nat}, l ≤ r → r - l ≤ fuel → yields fuel ⟨⟨l⟩, ⟨r⟩⟩ = (List.range' l (r - l)).map VirtPageNum.mk
  | 0, l, le, enough => by
      rw [show r - l = 0 by omega]
      rfl
  | fuel + 1, l, le, enough => by
      by_cases done : l = r
      · subst done
        rw [Nat.sub_self]
        simp [yields, next]
      · have step : wrappingAdd l 1 = l + 1 := wrappingAdd_of_lt (by omega)
        have differs : (⟨l⟩ : VirtPageNum) ≠ ⟨r⟩ := fun same => done (VirtPageNum.mk.inj same)
        rw [yields, next, if_neg differs]
        dsimp only
        rw [step, yields_of_le usize (by omega) (by omega),
          show r - l = (r - (l + 1)) + 1 by omega, List.range'_succ, List.map_cons]

end VPNRangeIterator

/-- `IntoIterator for SimpleRange`. -/
def VPNRange.intoIter (range : VPNRange) : VPNRangeIterator := ⟨range.l, range.r⟩

/-- The iterator of a range yields its pages, given any fuel of at least its length. -/
theorem VPNRange.yields_intoIter (range : VPNRange) (usize : range.r.val < 2 ^ 64) {fuel : Nat}
    (enough : range.r.val - range.l.val ≤ fuel) : range.intoIter.yields fuel = range.vpns :=
  VPNRangeIterator.yields_of_le usize range.le enough

end RCore
