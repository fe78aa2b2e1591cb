import RCore.Mm.PageTableSpec
import RCore.Foundation.KeyedList

/-! # Runs of `map` and `unmap`: a Sv39 table is a finite map

What a table means is a finite map from the 27-bit index of a page number, as
`VirtPageNum::indexes` splits it, to the frame and flags of its leaf entry (`RCore.Sv39Map`).
On that map `map` and `unmap` are the writes of a partial map that refuse, with the panics of
the source's assertions, to map an index that is mapped and to unmap one that is not
(`RCore.Sv39Map.step`).

A table represents such a map (`RCore.PageTable.Represents`) when the kernel owns it, its
valid leaf entries are those of the map, and each of its frames is a node the walk reaches.
Every run of `PageTable::map` and `PageTable::unmap` from a representing table, with two free
frames for each operation, panics exactly where the run of the map does, with the same
panic, and otherwise ends in a table that represents the map's result
(`RCore.PageTable.runOps_ok`, `RCore.PageTable.runOps_error`). From a table made by
`PageTable::new`, each index is then mapped to what the last operation on it left, and the
frames of the table are exactly its nodes. Nothing keeps a node from also being a leaf's
target: `map` takes any frame number, the root's included.
-/

namespace RCore

open Foundation

/-- A call of `PageTable::map(vpn, ppn, flags)` or of `PageTable::unmap(vpn)`. -/
inductive PageTableOp where
  | map (vpn : VirtPageNum) (ppn : PhysPageNum) (flags : PTEFlags)
  | unmap (vpn : VirtPageNum)
deriving DecidableEq, Repr

namespace PageTableOp

/-- The page number the operation names. -/
def vpn : PageTableOp → VirtPageNum
  | map vpn _ _ => vpn
  | unmap vpn => vpn

/-- The frame and flags the operation leaves at its index: none after `unmap`. -/
def target : PageTableOp → Option (PhysPageNum × PTEFlags)
  | map _ ppn flags => some (ppn, flags)
  | unmap _ => none

/-- The panic of the operation's assertion, "vpn {:?} is mapped before mapping" and
"vpn {:?} is invalid before unmapping". -/
def assertion : PageTableOp → Panic
  | map vpn _ _ => .mappedBeforeMapping vpn.val
  | unmap vpn => .invalidBeforeUnmapping vpn.val

/-- Whether the assertion fails, given whether the index is mapped. -/
def refuses : PageTableOp → Bool → Bool
  | map .., mapped => mapped
  | unmap _, mapped => !mapped

end PageTableOp

/-- The entry `map` writes: `PageTableEntry::new(ppn, flags | PTEFlags::V)`. -/
def leafEntry (target : PhysPageNum × PTEFlags) : PageTableEntry := .new target.1 (target.2 ||| PTEFlags.V)

/-- The entry `map` writes is valid and reads back its frame, when the frame number has 44
bits, and its flags with `V` set. -/
theorem leafEntry_readback {target : PhysPageNum × PTEFlags} (small : target.1.val < 2 ^ 44) :
    (leafEntry target).isValid ∧ (leafEntry target).ppn = target.1 ∧
      (leafEntry target).flags = target.2 ||| PTEFlags.V :=
  ⟨PageTableEntry.isValid_new_or_V _ _, PageTableEntry.ppn_new small _, PageTableEntry.flags_new _ _⟩

/-- What a Sv39 table means: the frame and flags of the leaf entry of each index. -/
abbrev Sv39Map := Nat × Nat × Nat → Option (PhysPageNum × PTEFlags)

namespace Sv39Map

/-- The map of a table from `PageTable::new`: nothing is mapped. -/
def empty : Sv39Map := fun _ => none

/-- One operation, refused with its assertion's panic. -/
def step (s : Sv39Map) (op : PageTableOp) : Except Panic Sv39Map :=
  if op.refuses (s op.vpn.indexes).isSome then .error op.assertion
  else .ok (Function.update s op.vpn.indexes op.target)

/-- The operations in order, up to the first one refused. -/
def run (s : Sv39Map) : List PageTableOp → Except Panic Sv39Map
  | [] => .ok s
  | op :: ops => (s.step op).bind fun s => run s ops

/-- A run that succeeds has written each operation's target at its index, in order. -/
theorem run_eq_foldl : ∀ {s s' : Sv39Map} {ops : List PageTableOp}, s.run ops = .ok s' →
    s' = ops.foldl (fun g op => Function.update g op.vpn.indexes op.target) s
  | s, s', [], ran => by
      cases ran
      rfl
  | s, s', op :: ops, ran => by
      unfold run step at ran
      split at ran
      case isTrue => cases ran
      case isFalse =>
        rw [List.foldl_cons]
        exact run_eq_foldl ran

/-- After a run that succeeds, each index holds the target of the last operation on it, or
what it held before when no operation names it. -/
theorem run_apply {s s' : Sv39Map} {ops : List PageTableOp} (ran : s.run ops = .ok s') (idx : Nat × Nat × Nat) :
    s' idx = ((lastOf (fun op => op.vpn.indexes) ops idx).map PageTableOp.target).getD (s idx) := by
  rw [run_eq_foldl ran]
  exact foldl_update_apply PageTableOp.target s ops idx

end Sv39Map

/-- The last operation of `ops` on index `idx`. -/
def lastOn (ops : List PageTableOp) (idx : Nat × Nat × Nat) : Option PageTableOp :=
  lastOf (fun op => op.vpn.indexes) ops idx

/-- From the empty map, a run that succeeds maps an index exactly when the last operation on
it was a `map`, to that operation's frame and flags. -/
theorem Sv39Map.run_empty_apply {s' : Sv39Map} {ops : List PageTableOp} (ran : empty.run ops = .ok s')
    (idx : Nat × Nat × Nat) : s' idx = (lastOn ops idx).bind PageTableOp.target := by
  rw [run_apply ran, lastOn]
  cases lastOf (fun op => op.vpn.indexes) ops idx <;> rfl

namespace PageTable

/-- `self.map(vpn, ppn, flags)` or `self.unmap(vpn)`. -/
def apply (pt : PageTable) : PageTableOp → KernelM PageTable
  | .map vpn ppn flags => pt.map vpn ppn flags
  | .unmap vpn => pt.unmap vpn

/-- The operations one after the other on the same table. -/
def runOps (pt : PageTable) : List PageTableOp → KernelM PageTable
  | [] => pure pt
  | op :: ops => pt.apply op >>= fun pt => runOps pt ops

/-- `ppn` is a node the walk reaches: the root, or the level-1 node behind some entry of the
root, or the leaf node behind some entry of a level-1 node. -/
def Reaches (pt : PageTable) (mem : Nat → UInt8) (ppn : PhysPageNum) : Prop :=
  ppn = pt.rootPpn ∨ (∃ idx0 < 512, pt.node1 mem idx0 = some ppn) ∨
    ∃ idx0 < 512, ∃ idx1 < 512, pt.node2 mem idx0 idx1 = some ppn

variable {pt pt' : PageTable} {mem mem' : Nat → UInt8} {m m' mid : Machine} {ppn node : PhysPageNum}

@[simp] theorem reaches_withFrames (frames : List PhysPageNum) :
    ({ pt with frames } : PageTable).Reaches = pt.Reaches := rfl

/-- The nodes of a well-formed table are its frames. -/
theorem WellFormed.mem_of_reaches (wf : pt.WellFormed mem) (reached : pt.Reaches mem ppn) : ppn ∈ pt.frames := by
  rcases reached with root | ⟨idx0, inside, found⟩ | ⟨idx0, inside0, idx1, inside1, found⟩
  · exact root ▸ wf.root_mem
  · exact (wf.node1_mem inside found).1
  · exact (wf.node2_mem inside0 inside1 found).1

/-- Nodes stay reached when the memory keeps every node the walk reached. -/
theorem Reaches.of_nodes
    (keep1 : ∀ {idx0 node}, idx0 < 512 → pt.node1 mem idx0 = some node → pt.node1 mem' idx0 = some node)
    (keep2 : ∀ {idx0 idx1 node}, idx0 < 512 → idx1 < 512 → pt.node2 mem idx0 idx1 = some node →
      pt.node2 mem' idx0 idx1 = some node)
    (reached : pt.Reaches mem ppn) : pt.Reaches mem' ppn := by
  rcases reached with root | ⟨idx0, inside, found⟩ | ⟨idx0, inside0, idx1, inside1, found⟩
  · exact .inl root
  · exact .inr (.inl ⟨idx0, inside, keep1 inside found⟩)
  · exact .inr (.inr ⟨idx0, inside0, idx1, inside1, keep2 inside0 inside1 found⟩)

/-- The root step of `find_pte_create` keeps every frame reached: a new level-1 node hangs
from an entry of the root that was invalid, so no reached node is lost. -/
theorem descendCreate_root_reaches (valid : pt.Valid m) {idx0 : Nat} (inside : idx0 < 512)
    (ran : pt.descendCreate pt.rootPpn idx0 m = .ok ((node, pt'), m'))
    (reached : ∀ ppn ∈ pt.frames, pt.Reaches m.mem ppn) : ∀ ppn ∈ pt'.frames, pt'.Reaches m'.mem ppn := by
  rcases descendCreate_eq_ok ran with ⟨-, rfl, rfl⟩ | ⟨vacant, frame, mid, allocated, -, rfl, rfl⟩
  · exact reached
  · obtain ⟨-, -, notMem, small, memEq⟩ := Grows.install valid valid.wellFormed.root_mem inside allocated
    have vacant1 : pt.node1 m.mem idx0 = none := vacant
    intro ppn owned
    rw [reaches_withFrames]
    dsimp only
    rw [memEq]
    rcases List.mem_append.mp owned with old | new
    · refine Reaches.of_nodes ?_ ?_ (reached ppn old)
      · intro idx found below reaching
        rw [node1_installRoot valid.wellFormed notMem small inside below, if_neg]
        · exact reaching
        · rintro rfl
          rw [vacant1] at reaching
          cases reaching
      · intro idx idx' found below below' reaching
        rw [node2_installRoot valid.wellFormed notMem small inside vacant1 below below']
        exact reaching
    · rw [List.mem_singleton.mp new]
      exact .inr (.inl ⟨idx0, inside, by
        rw [node1_installRoot valid.wellFormed notMem small inside inside, if_pos rfl]⟩)

/-- The level-1 step of `find_pte_create` keeps every frame reached: a new leaf node hangs
from an entry of a level-1 node that was invalid. -/
theorem descendCreate_node1_reaches (valid : pt.Valid m) {idx0 idx1 : Nat} (inside0 : idx0 < 512)
    (inside1 : idx1 < 512) {upper : PhysPageNum} (above : pt.node1 m.mem idx0 = some upper)
    (ran : pt.descendCreate upper idx1 m = .ok ((node, pt'), m'))
    (reached : ∀ ppn ∈ pt.frames, pt.Reaches m.mem ppn) : ∀ ppn ∈ pt'.frames, pt'.Reaches m'.mem ppn := by
  have ownedUpper := (valid.wellFormed.node1_mem inside0 above).1
  rcases descendCreate_eq_ok ran with ⟨-, rfl, rfl⟩ | ⟨vacant, frame, mid, allocated, -, rfl, rfl⟩
  · exact reached
  · obtain ⟨-, -, notMem, small, memEq⟩ := Grows.install valid ownedUpper inside1 allocated
    have vacant2 : pt.node2 m.mem idx0 idx1 = none := by rw [node2, above, Option.bind_some, vacant]
    intro ppn owned
    rw [reaches_withFrames]
    dsimp only
    rw [memEq]
    rcases List.mem_append.mp owned with old | new
    · refine Reaches.of_nodes ?_ ?_ (reached ppn old)
      · intro idx found below reaching
        rw [node1_installNode1 valid.wellFormed notMem small inside0 inside1 above below]
        exact reaching
      · intro idx idx' found below below' reaching
        rw [node2_installNode1 valid.wellFormed notMem small inside0 inside1 above below below', if_neg]
        · exact reaching
        · rintro ⟨rfl, rfl⟩
          rw [vacant2] at reaching
          cases reaching
    · rw [List.mem_singleton.mp new]
      exact .inr (.inr ⟨idx0, inside0, idx1, inside1, by
        rw [node2_installNode1 valid.wellFormed notMem small inside0 inside1 above inside0 inside1,
          if_pos ⟨rfl, rfl⟩]⟩)

/-- `map` and `unmap` keep every frame reached: `find_pte_create` only hangs new nodes from
invalid entries, and the entry they then write is in a leaf node. -/
theorem findPteCreate_write_reaches (valid : pt.Valid m) {vpn : VirtPageNum} {idx : Nat}
    (ran : pt.findPteCreate vpn m = .ok (((node, idx), pt'), mid))
    (reached : ∀ ppn ∈ pt.frames, pt.Reaches m.mem ppn) (pte : PageTableEntry) :
    ∀ ppn ∈ pt'.frames, pt'.Reaches (writePte mid.mem node idx pte) ppn := by
  obtain ⟨inside0, inside1, inside2⟩ := VirtPageNum.indexes_lt vpn
  obtain ⟨node1, midTable, mid1, first, second, rfl⟩ := findPteCreate_eq_ok ran
  obtain ⟨-, -, -, valid1, reached1, -⟩ := descendCreate_root_spec valid inside0 first
  obtain ⟨-, -, -, valid2, reached2, -⟩ := descendCreate_node1_spec valid1 inside0 inside1 reached1 second
  have afterFirst := descendCreate_root_reaches valid inside0 first reached
  have afterSecond := descendCreate_node1_reaches valid1 inside0 inside1 reached1 second afterFirst
  intro ppn owned
  refine Reaches.of_nodes ?_ ?_ (afterSecond ppn owned)
  · intro idx found below reaching
    rw [node1_writeLeaf valid2.wellFormed inside0 inside1 inside2 reached2 pte below]
    exact reaching
  · intro idx idx' found below below' reaching
    rw [node2_writeLeaf valid2.wellFormed inside0 inside1 inside2 reached2 pte below below']
    exact reaching

/-- `pt` in machine `m` is a table the kernel owns whose valid leaf entries are those of the
map `s` and whose frames are all nodes it reaches. -/
structure Represents (pt : PageTable) (m : Machine) (s : Sv39Map) : Prop where
  valid : pt.Valid m
  mapping_eq : ∀ v, pt.mapping m.mem v = (s v.indexes).map leafEntry
  reached : ∀ ppn ∈ pt.frames, pt.Reaches m.mem ppn

variable {s : Sv39Map} {op : PageTableOp} {e : Panic}

/-- The frames of a representing table are exactly its nodes. -/
theorem Represents.mem_frames_iff (rep : pt.Represents m s) : ppn ∈ pt.frames ↔ pt.Reaches m.mem ppn :=
  ⟨rep.reached ppn, rep.valid.wellFormed.mem_of_reaches⟩

theorem Represents.isSome_mapping (rep : pt.Represents m s) (vpn : VirtPageNum) :
    (pt.mapping m.mem vpn).isSome = (s vpn.indexes).isSome := by
  rw [rep.mapping_eq, Option.isSome_map]

/-- An operation that succeeds on a representing table is one the map accepts, and the table
then represents the map after it; it took at most two fresh frames. -/
theorem Represents.apply_ok (rep : pt.Represents m s) (ran : pt.apply op m = .ok (pt', m')) :
    ∃ fresh, pt.Grows m fresh pt' m' ∧ fresh.length ≤ 2 ∧
      s.step op = .ok (Function.update s op.vpn.indexes op.target) ∧
      pt'.Represents m' (Function.update s op.vpn.indexes op.target) := by
  cases op with
  | map vpn ppn flags =>
      obtain ⟨fresh, grown, few, valid', unmapped, mapping'⟩ := map_spec rep.valid ran
      obtain ⟨node, idx, mid, found, -, rfl⟩ := map_eq_ok ran
      have vacant : (s vpn.indexes).isSome = false := by rw [← rep.isSome_mapping, unmapped]; rfl
      refine ⟨fresh, grown, few, ?_, valid', fun v => ?_, findPteCreate_write_reaches rep.valid found rep.reached _⟩
      · simp only [Sv39Map.step, PageTableOp.refuses, PageTableOp.vpn, vacant]
        rfl
      · show _ = (Function.update s vpn.indexes (some (ppn, flags)) v.indexes).map leafEntry
        rw [mapping', rep.mapping_eq, Function.update_apply]
        split <;> rfl
  | unmap vpn =>
      obtain ⟨fresh, grown, few, valid', mapped, mapping'⟩ := unmap_spec rep.valid ran
      obtain ⟨node, idx, mid, found, -, rfl⟩ := unmap_eq_ok ran
      have held : (s vpn.indexes).isSome = true := by rw [← rep.isSome_mapping, mapped]
      refine ⟨fresh, grown, few, ?_, valid', fun v => ?_, findPteCreate_write_reaches rep.valid found rep.reached _⟩
      · simp only [Sv39Map.step, PageTableOp.refuses, PageTableOp.vpn, held]
        rfl
      · show _ = (Function.update s vpn.indexes none v.indexes).map leafEntry
        rw [mapping', rep.mapping_eq, Function.update_apply]
        split <;> rfl

/-- With two free frames, an operation that panics on a representing table is one the map
refuses, with the same panic: the walk cannot run out of frames. -/
theorem Represents.apply_error (rep : pt.Represents m s) (two : 2 ≤ m.frameAllocator.freeFrames)
    (failed : pt.apply op m = .error e) : s.step op = .error e := by
  cases op with
  | map vpn ppn flags =>
      rcases map_eq_error_spec rep.valid failed with ⟨-, few⟩ | ⟨rfl, mapped⟩
      · omega
      · rw [rep.isSome_mapping] at mapped
        simp only [Sv39Map.step, PageTableOp.refuses, PageTableOp.vpn, mapped, if_true]
        rfl
  | unmap vpn =>
      rcases unmap_eq_error_spec rep.valid failed with ⟨-, few⟩ | ⟨rfl, unmapped⟩
      · omega
      · have vacant : (s vpn.indexes).isSome = false := by rw [← rep.isSome_mapping, unmapped]; rfl
        simp only [Sv39Map.step, PageTableOp.refuses, PageTableOp.vpn, vacant, Bool.not_false, if_true]
        rfl

/-- With two free frames, an operation on a representing table panics in its assertion exactly
when `map` finds its index mapped or `unmap` finds it unmapped. -/
theorem Represents.apply_eq_assertion_iff (rep : pt.Represents m s) (two : 2 ≤ m.frameAllocator.freeFrames)
    (op : PageTableOp) : pt.apply op m = .error op.assertion ↔ op.refuses (pt.mapping m.mem op.vpn).isSome := by
  rw [rep.isSome_mapping]
  constructor
  · intro failed
    have refused := rep.apply_error two failed
    unfold Sv39Map.step at refused
    split at refused
    case isTrue holds => exact holds
    case isFalse => cases refused
  · intro refused
    cases ran : pt.apply op m with
    | error e =>
        have stepped := rep.apply_error two ran
        rw [Sv39Map.step, if_pos refused] at stepped
        cases stepped
        rfl
    | ok result =>
        obtain ⟨-, -, -, stepped, -⟩ := rep.apply_ok ran
        rw [Sv39Map.step, if_pos refused] at stepped
        cases stepped

/-- A run that succeeds from a representing table is one the map accepts, and ends in a table
that represents the map's result, grown by at most two frames per operation. -/
theorem Represents.runOps_ok : ∀ {ops : List PageTableOp} {pt pt' : PageTable} {m m' : Machine} {s : Sv39Map},
    pt.Represents m s → pt.runOps ops m = .ok (pt', m') →
    ∃ s' fresh, s.run ops = .ok s' ∧ pt'.Represents m' s' ∧ pt.Grows m fresh pt' m' ∧
      fresh.length ≤ 2 * ops.length
  | [], pt, pt', m, m', s, rep, ran => by
      rw [runOps, pure_apply] at ran
      cases ran
      exact ⟨s, [], rfl, rep, Grows.refl _ _, Nat.zero_le _⟩
  | op :: ops, pt, pt', m, m', s, rep, ran => by
      rw [runOps] at ran
      obtain ⟨mid, midMachine, first, rest⟩ := bind_eq_ok.mp ran
      obtain ⟨fresh1, grown1, few1, stepped, rep1⟩ := rep.apply_ok first
      obtain ⟨s', fresh2, accepted, rep', grown2, few2⟩ := runOps_ok rep1 rest
      refine ⟨s', fresh1 ++ fresh2, ?_, rep', grown1.trans grown2, ?_⟩
      · rw [Sv39Map.run, stepped]
        exact accepted
      · rw [List.length_append, List.length_cons]
        omega

/-- With two free frames per operation, a run that panics from a representing table panics
where the map's run refuses, with the same panic. -/
theorem Represents.runOps_error : ∀ {ops : List PageTableOp} {pt : PageTable} {m : Machine} {s : Sv39Map},
    pt.Represents m s → 2 * ops.length ≤ m.frameAllocator.freeFrames → pt.runOps ops m = .error e →
    s.run ops = .error e
  | [], pt, m, s, rep, enough, failed => by
      rw [runOps, pure_apply] at failed
      cases failed
  | op :: ops, pt, m, s, rep, enough, failed => by
      rw [List.length_cons] at enough
      rw [runOps] at failed
      rcases bind_eq_error.mp failed with bad | ⟨mid, midMachine, first, rest⟩
      · rw [Sv39Map.run, rep.apply_error (by omega) bad]
        rfl
      · obtain ⟨fresh1, grown1, few1, stepped, rep1⟩ := rep.apply_ok first
        have spent := grown1.freeFrames_eq
        rw [Sv39Map.run, stepped]
        exact runOps_error rep1 (by omega) rest

/-- With two free frames per operation, a run from a representing table panics exactly when
the map's run refuses, with the same panic. -/
theorem Represents.runOps_error_iff {ops : List PageTableOp} (rep : pt.Represents m s)
    (enough : 2 * ops.length ≤ m.frameAllocator.freeFrames) :
    pt.runOps ops m = .error e ↔ s.run ops = .error e := by
  refine ⟨rep.runOps_error enough, fun refused => ?_⟩
  cases ran : pt.runOps ops m with
  | error e' =>
      rw [rep.runOps_error enough ran] at refused
      cases refused
      rfl
  | ok result =>
      obtain ⟨s', -, accepted, -⟩ := rep.runOps_ok ran
      rw [accepted] at refused
      cases refused

/-- With two free frames per operation, each operation of a run from a representing table
panics in its assertion exactly when `map` finds its index mapped, or `unmap` finds it
unmapped, in the table the operations before it left. -/
theorem Represents.runOps_assertion_iff {ops pre post : List PageTableOp} {ptk : PageTable} {mk : Machine}
    (rep : pt.Represents m s) (enough : 2 * ops.length ≤ m.frameAllocator.freeFrames)
    (split : ops = pre ++ op :: post) (ran : pt.runOps pre m = .ok (ptk, mk)) :
    ptk.apply op mk = .error op.assertion ↔ op.refuses (ptk.mapping mk.mem op.vpn).isSome := by
  obtain ⟨sk, fresh, -, repk, grown, few⟩ := rep.runOps_ok ran
  have spent := grown.freeFrames_eq
  have length : ops.length = pre.length + post.length + 1 := by
    rw [split, List.length_append, List.length_cons]
    omega
  exact repk.apply_eq_assertion_iff (by omega) op

/-- From a table representing the empty map, a run that succeeds leaves each index mapped to
the entry of the last operation on it, when that was a `map`. -/
theorem Represents.mapping_runOps_empty {ops : List PageTableOp} (rep : pt.Represents m Sv39Map.empty)
    (ran : pt.runOps ops m = .ok (pt', m')) (v : VirtPageNum) :
    pt'.mapping m'.mem v = ((lastOn ops v.indexes).bind PageTableOp.target).map leafEntry := by
  obtain ⟨s', -, accepted, rep', -⟩ := rep.runOps_ok ran
  rw [rep'.mapping_eq, Sv39Map.run_empty_apply accepted]

/-- From a table representing the empty map, when every frame given to `map` was allocated
before the run and is not one of the table's frames, no mapped leaf targets a frame of the
table: the nodes the run adds are fresh frames. -/
theorem Represents.ppn_not_mem_of_runOps {ops : List PageTableOp} (rep : pt.Represents m Sv39Map.empty)
    (ran : pt.runOps ops m = .ok (pt', m'))
    (small : ∀ vpn ppn flags, PageTableOp.map vpn ppn flags ∈ ops → ppn.val < 2 ^ 44)
    (apart : ∀ vpn ppn flags, PageTableOp.map vpn ppn flags ∈ ops →
      m.frameAllocator.Allocated ppn ∧ ppn ∉ pt.frames)
    {v : VirtPageNum} {pte : PageTableEntry} (mapped : pt'.mapping m'.mem v = some pte) : pte.ppn ∉ pt'.frames := by
  obtain ⟨-, fresh, -, -, grown, -⟩ := rep.runOps_ok ran
  rw [rep.mapping_runOps_empty ran] at mapped
  cases last : lastOn ops v.indexes with
  | none =>
      rw [last] at mapped
      cases mapped
  | some op =>
      have member := (mem_of_lastOf last).1
      cases op with
      | unmap vpn =>
          rw [last] at mapped
          cases mapped
      | map vpn ppn flags =>
          rw [last] at mapped
          cases mapped
          obtain ⟨allocated, notOwned⟩ := apart vpn ppn flags member
          rw [(leafEntry_readback (small vpn ppn flags member)).2.1, grown.frames_eq, List.mem_append]
          rintro (owned | added)
          · exact notOwned owned
          · exact grown.fresh_not_allocated ppn added allocated

/-- `PageTable::new` gives a table representing the empty map. -/
theorem new_represents (inv : m.Inv) (created : PageTable.new m = .ok (pt, m')) :
    pt.Represents m' Sv39Map.empty ∧ pt.frames = [pt.rootPpn] ∧
      m'.frameAllocator.freeFrames + 1 = m.frameAllocator.freeFrames := by
  obtain ⟨valid, single, -, -, fewer, -, unmapped⟩ := new_spec inv created
  refine ⟨⟨valid, fun v => by rw [unmapped]; rfl, fun ppn owned => ?_⟩, single, fewer⟩
  rw [single, List.mem_singleton] at owned
  exact .inl owned

/-- `PageTable::new` succeeds while a frame is free. -/
theorem exists_new_eq_ok (free : 0 < m.frameAllocator.freeFrames) : ∃ pt m', PageTable.new m = .ok (pt, m') := by
  cases created : PageTable.new m with
  | error e =>
      have exhausted := frameAllocUnwrap_eq_error (new_eq_error created)
      omega
  | ok result =>
      obtain ⟨pt, m'⟩ := result
      exact ⟨pt, m', rfl⟩

/-- A Sv39 table made by `PageTable::new` is a finite map from 27-bit indices under every run
of `map` and `unmap`, with frames for two nodes per operation and frame numbers of 44 bits:
each operation panics in its assertion exactly when `map` finds its index mapped, or `unmap`
finds it unmapped; the run panics exactly where the map's run refuses, with the same panic;
and a run that returns leaves each index mapped, with a valid entry of the frame and flags
(with `V`) of the last operation on it, exactly when that was a `map`, in a table whose
frames are exactly its nodes. A mapped leaf targets no node when every frame given to `map`
was allocated before the run and is not the root. -/
theorem runOps_new_finite_map {m m1 : Machine} (inv : m.Inv) (created : PageTable.new m = .ok (pt, m1))
    (ops : List PageTableOp) (enough : 1 + 2 * ops.length ≤ m.frameAllocator.freeFrames)
    (small : ∀ vpn ppn flags, PageTableOp.map vpn ppn flags ∈ ops → ppn.val < 2 ^ 44) :
    (∀ pre op post, ops = pre ++ op :: post → ∀ ptk mk, pt.runOps pre m1 = .ok (ptk, mk) →
      (ptk.apply op mk = .error op.assertion ↔ op.refuses (ptk.mapping mk.mem op.vpn).isSome)) ∧
    (∀ e, pt.runOps ops m1 = .error e ↔ Sv39Map.empty.run ops = .error e) ∧
    ∀ pt' m', pt.runOps ops m1 = .ok (pt', m') →
      (∀ v, pt'.mapping m'.mem v = ((lastOn ops v.indexes).bind PageTableOp.target).map leafEntry) ∧
      (∀ v vpn ppn flags, lastOn ops v.indexes = some (.map vpn ppn flags) →
        ∃ pte, pt'.translate m'.mem v = some pte ∧ pte.isValid ∧ pte.ppn = ppn ∧
          pte.flags = flags ||| PTEFlags.V) ∧
      (∀ ppn, ppn ∈ pt'.frames ↔ pt'.Reaches m'.mem ppn) ∧
      ((∀ vpn ppn flags, PageTableOp.map vpn ppn flags ∈ ops →
          m1.frameAllocator.Allocated ppn ∧ ppn ≠ pt.rootPpn) →
        ∀ v pte, pt'.mapping m'.mem v = some pte → pte.ppn ∉ pt'.frames) := by
  obtain ⟨rep, single, fewer⟩ := new_represents inv created
  have enough1 : 2 * ops.length ≤ m1.frameAllocator.freeFrames := by omega
  refine ⟨fun pre op post split ptk mk ran => rep.runOps_assertion_iff enough1 split ran,
    fun e => rep.runOps_error_iff enough1, fun pt' m' ran => ⟨rep.mapping_runOps_empty ran, ?_, ?_, ?_⟩⟩
  · intro v vpn ppn flags last
    have mapped : pt'.mapping m'.mem v = some (leafEntry (ppn, flags)) := by
      rw [rep.mapping_runOps_empty ran, last]
      rfl
    obtain ⟨valid, ppnEq, flagsEq⟩ := @leafEntry_readback (ppn, flags) (small vpn ppn flags (mem_of_lastOf last).1)
    exact ⟨_, translate_of_mapping mapped, valid, ppnEq, flagsEq⟩
  · obtain ⟨s', -, -, rep', -⟩ := rep.runOps_ok ran
    exact fun ppn => rep'.mem_frames_iff
  · intro allocated v pte mapped
    refine rep.ppn_not_mem_of_runOps ran small (fun vpn ppn flags member => ?_) mapped
    obtain ⟨held, notRoot⟩ := allocated vpn ppn flags member
    rw [single, List.mem_singleton]
    exact ⟨held, notRoot⟩

/-- Page `0` mapped to frame `0x80000` and unmapped again, then page `512`, whose index
differs in the level-1 entry, mapped, on a table made right after boot. -/
theorem runOps_new_finite_map_after_boot :
    ∃ (m : Machine) (pt : PageTable) (m1 : Machine), m.Inv ∧ PageTable.new m = .ok (pt, m1) ∧
      1 + 2 * [PageTableOp.map ⟨0⟩ ⟨0x80000⟩ PTEFlags.R, .unmap ⟨0⟩, .map ⟨512⟩ ⟨0x80001⟩ PTEFlags.W].length ≤
        m.frameAllocator.freeFrames ∧
      (∀ vpn ppn flags, PageTableOp.map vpn ppn flags ∈
          [PageTableOp.map ⟨0⟩ ⟨0x80000⟩ PTEFlags.R, .unmap ⟨0⟩, .map ⟨512⟩ ⟨0x80001⟩ PTEFlags.W] →
        ppn.val < 2 ^ 44) ∧
      (∀ pre op post, [PageTableOp.map ⟨0⟩ ⟨0x80000⟩ PTEFlags.R, .unmap ⟨0⟩, .map ⟨512⟩ ⟨0x80001⟩ PTEFlags.W] =
          pre ++ op :: post → ∀ ptk mk, pt.runOps pre m1 = .ok (ptk, mk) →
        (ptk.apply op mk = .error op.assertion ↔ op.refuses (ptk.mapping mk.mem op.vpn).isSome)) ∧
      (∀ e, pt.runOps [PageTableOp.map ⟨0⟩ ⟨0x80000⟩ PTEFlags.R, .unmap ⟨0⟩, .map ⟨512⟩ ⟨0x80001⟩ PTEFlags.W] m1 =
          .error e ↔
        Sv39Map.empty.run [PageTableOp.map ⟨0⟩ ⟨0x80000⟩ PTEFlags.R, .unmap ⟨0⟩, .map ⟨512⟩ ⟨0x80001⟩ PTEFlags.W] =
          .error e) ∧
      ∀ pt' m', pt.runOps [PageTableOp.map ⟨0⟩ ⟨0x80000⟩ PTEFlags.R, .unmap ⟨0⟩, .map ⟨512⟩ ⟨0x80001⟩ PTEFlags.W] m1 =
          .ok (pt', m') →
        (∀ v, pt'.mapping m'.mem v = ((lastOn [PageTableOp.map ⟨0⟩ ⟨0x80000⟩ PTEFlags.R, .unmap ⟨0⟩,
          .map ⟨512⟩ ⟨0x80001⟩ PTEFlags.W] v.indexes).bind PageTableOp.target).map leafEntry) ∧
        (∀ v vpn ppn flags, lastOn [PageTableOp.map ⟨0⟩ ⟨0x80000⟩ PTEFlags.R, .unmap ⟨0⟩,
            .map ⟨512⟩ ⟨0x80001⟩ PTEFlags.W] v.indexes = some (.map vpn ppn flags) →
          ∃ pte, pt'.translate m'.mem v = some pte ∧ pte.isValid ∧ pte.ppn = ppn ∧
            pte.flags = flags ||| PTEFlags.V) ∧
        (∀ ppn, ppn ∈ pt'.frames ↔ pt'.Reaches m'.mem ppn) ∧
        ((∀ vpn ppn flags, PageTableOp.map vpn ppn flags ∈
            [PageTableOp.map ⟨0⟩ ⟨0x80000⟩ PTEFlags.R, .unmap ⟨0⟩, .map ⟨512⟩ ⟨0x80001⟩ PTEFlags.W] →
            m1.frameAllocator.Allocated ppn ∧ ppn ≠ pt.rootPpn) →
          ∀ v pte, pt'.mapping m'.mem v = some pte → pte.ppn ∉ pt'.frames) := by
  have below : 0x80400000 ≤ memoryEnd := by decide
  have inv := bootMachine_inv (fun _ => 0) below
  have free := bootMachine_freeFrames (fun _ => 0) below
  obtain ⟨pt, m1, created⟩ := exists_new_eq_ok (by rw [free]; decide)
  have enough : 1 + 2 * [PageTableOp.map ⟨0⟩ ⟨0x80000⟩ PTEFlags.R, .unmap ⟨0⟩,
      .map ⟨512⟩ ⟨0x80001⟩ PTEFlags.W].length ≤ (bootMachine (fun _ => 0) 0x80400000).frameAllocator.freeFrames := by
    rw [free]
    decide
  have small : ∀ vpn ppn flags, PageTableOp.map vpn ppn flags ∈
      [PageTableOp.map ⟨0⟩ ⟨0x80000⟩ PTEFlags.R, .unmap ⟨0⟩, .map ⟨512⟩ ⟨0x80001⟩ PTEFlags.W] →
      ppn.val < 2 ^ 44 := by
    intro vpn ppn flags member
    simp only [List.mem_cons, PageTableOp.map.injEq, reduceCtorEq, List.not_mem_nil, or_false, false_or] at member
    rcases member with ⟨-, rfl, -⟩ | ⟨-, rfl, -⟩ <;> decide
  exact ⟨_, pt, m1, inv, created, enough, small, runOps_new_finite_map inv created _ enough small⟩

/-- `map` does not check the frame it is given: on a table made right after boot, mapping page
`0` to the root frame makes the root, a node, the target of a valid leaf entry. -/
theorem runOps_new_maps_root :
    ∃ (m : Machine) (pt : PageTable) (m1 : Machine), m.Inv ∧ PageTable.new m = .ok (pt, m1) ∧
      1 + 2 * [PageTableOp.map ⟨0⟩ pt.rootPpn PTEFlags.R].length ≤ m.frameAllocator.freeFrames ∧
      pt.rootPpn.val < 2 ^ 44 ∧
      ∃ pt' m', pt.runOps [.map ⟨0⟩ pt.rootPpn PTEFlags.R] m1 = .ok (pt', m') ∧
        ∃ pte, pt'.mapping m'.mem ⟨0⟩ = some pte ∧ pte.ppn = pt'.rootPpn ∧ pte.ppn ∈ pt'.frames := by
  have below : 0x80400000 ≤ memoryEnd := by decide
  have inv := bootMachine_inv (fun _ => 0) below
  have free := bootMachine_freeFrames (fun _ => 0) below
  obtain ⟨pt, m1, created⟩ := exists_new_eq_ok (by rw [free]; decide)
  obtain ⟨rep, -, fewer⟩ := new_represents inv created
  have small : pt.rootPpn.val < 2 ^ 44 := rep.valid.wellFormed.frames_lt _ rep.valid.wellFormed.root_mem
  have count : (bootMachine (fun _ => 0) 0x80400000).frameAllocator.freeFrames = 31744 := by
    rw [free]
    decide
  have enough : 2 * [PageTableOp.map ⟨0⟩ pt.rootPpn PTEFlags.R].length ≤ m1.frameAllocator.freeFrames := by
    rw [List.length_singleton]
    omega
  refine ⟨_, pt, m1, inv, created, by rw [count, List.length_singleton]; decide, small, ?_⟩
  cases ran : pt.runOps [.map ⟨0⟩ pt.rootPpn PTEFlags.R] m1 with
  | error e =>
      -- the map accepts the operation, so the table cannot panic
      have refused := rep.runOps_error enough ran
      cases refused
  | ok result =>
      obtain ⟨pt', m'⟩ := result
      obtain ⟨s', fresh, -, rep', grown, -⟩ := rep.runOps_ok ran
      have last : lastOn [.map ⟨0⟩ pt.rootPpn PTEFlags.R] (VirtPageNum.indexes ⟨0⟩) =
          some (.map ⟨0⟩ pt.rootPpn PTEFlags.R) := by
        simp [lastOn, lastOf, PageTableOp.vpn]
      have mapped : pt'.mapping m'.mem ⟨0⟩ = some (leafEntry (pt.rootPpn, PTEFlags.R)) := by
        rw [rep.mapping_runOps_empty ran, last]
        rfl
      refine ⟨pt', m', rfl, _, mapped, ?_, ?_⟩
      · rw [(@leafEntry_readback (pt.rootPpn, PTEFlags.R) small).2.1, grown.root_eq]
      · rw [(@leafEntry_readback (pt.rootPpn, PTEFlags.R) small).2.1, ← grown.root_eq]
        exact rep'.valid.wellFormed.root_mem

end PageTable

end RCore
