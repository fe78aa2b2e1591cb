import RCore.Foundation.Scatter
import RCore.Foundation.Utf8
import RCore.EasyFs.BlockDevice

/-! # Directory entries

A directory of easy-fs is a file of `DirEntry`s, `DIRENT_SZ = 32` bytes each: a name array of
`NAME_LENGTH_LIMIT + 1 = 28` bytes, then the inode number as a little-endian `u32`
(`easy-fs/src/layout.rs`). `DirEntry::new` copies the name into a zeroed array and
`DirEntry::name` reads it back up to the first 0 and through `core::str::from_utf8`.

The bytes of an entry are the entry (`DirEntry.ofBytes_asBytes`, `DirEntry.asBytes_ofBytes`).
A name of at most `NAME_LENGTH_LIMIT` bytes with no 0 in it comes back from the entry `new`
builds, with the inode number (`DirEntry.name_new`). `new` accepts names of 28 bytes too, but
such an entry has no 0 left in its array and `name()` panics on it (`DirEntry.name_new_of_full`,
and `RCore.EasyFs.Inode.create_full_name_breaks_root` for what it does to a directory);
a name with a 0 inside comes back cut at that 0 (`DirEntry.name_new_of_nul`). What `name()`
returns is never longer than `NAME_LENGTH_LIMIT`, has no 0 and is UTF-8 (`DirEntry.name_eq_ok`).
-/

namespace RCore

namespace EasyFs

/-- `NAME_LENGTH_LIMIT`. -/
def nameLengthLimit : Nat := 27

/-- `DIRENT_SZ`. -/
def direntSz : Nat := 32

/-- The panics of `easy-fs/src/vfs.rs` and of the `DirEntry` methods it calls, over those of
the layers below. -/
inductive VfsPanic where
  /-- A panic of the block device, the bitmaps or `DiskInode`. -/
  | fs (panic : Panic)
  /-- `DirEntry::new`: `bytes[..name.len()]` of a name longer than the 28-byte array. -/
  | nameTooLong (length : Nat)
  /-- `DirEntry::name`: `(0usize..).find(|i| self.name[*i] == 0)` indexes `self.name[28]` when no
  byte of the array is 0. -/
  | nameNotTerminated
  /-- `DirEntry::name`: `core::str::from_utf8(..).unwrap()` on bytes that are not UTF-8. -/
  | nameNotUtf8 (error : Foundation.Utf8.Utf8Error)
  /-- `assert!(disk_inode.is_dir())` of `find_inode_id`, and `assert!(root_inode.is_dir())` of
  `create`. -/
  | notDirectory
  /-- `assert_eq!(disk_inode.read_at(..), DIRENT_SZ)` of `find_inode_id` and `ls`. -/
  | shortDirent (read : Nat)
  /-- `DiskInode::blocks_num_needed`: `assert!(new_size >= self.size)`. -/
  | sizeShrinks (size newSize : Nat)
  /-- `Inode::clear`: `assert!(data_blocks_dealloc.len() == DiskInode::total_blocks(size) as usize)`. -/
  | deallocCountMismatch (count : Nat)
deriving DecidableEq, Repr

/-- `DirEntry`: the name array and the inode number. -/
structure DirEntry where
  nameBytes : List UInt8
  inodeNumber : UInt32
  nameBytes_length : nameBytes.length = nameLengthLimit + 1
deriving DecidableEq

namespace DirEntry

/-- `DirEntry::empty()`. -/
def empty : DirEntry := ⟨List.replicate (nameLengthLimit + 1) 0, 0, List.length_replicate⟩

/-- `DirEntry::new(name, inode_number)`: the name copied into a zeroed array by
`bytes[..name.len()].copy_from_slice(name.as_bytes())`, which panics when it does not fit. -/
def new (name : List UInt8) (inodeNumber : UInt32) : Except VfsPanic DirEntry :=
  if fits : name.length ≤ nameLengthLimit + 1 then
    .ok ⟨name ++ List.replicate (nameLengthLimit + 1 - name.length) 0, inodeNumber, by simp; omega⟩
  else .error (.nameTooLong name.length)

/-- `as_bytes()`: the 32 bytes of the `#[repr(C)]` entry. -/
def asBytes (e : DirEntry) : List UInt8 := e.nameBytes ++ Foundation.leBytes 4 e.inodeNumber.toNat

/-- The entry whose 32 bytes are `bytes`, as `as_bytes_mut()` lays it over them. -/
def ofBytes (bytes : List UInt8) (sized : bytes.length = direntSz) : DirEntry where
  nameBytes := bytes.take (nameLengthLimit + 1)
  inodeNumber := UInt32.ofNat (Foundation.loadLE (fun a => bytes.getD a 0) (nameLengthLimit + 1) 4)
  nameBytes_length := by
    rw [List.length_take, sized]
    rfl

@[simp] theorem length_asBytes (e : DirEntry) : e.asBytes.length = direntSz := by
  rw [asBytes, List.length_append, e.nameBytes_length, Foundation.length_leBytes]
  rfl

theorem length_fill (e : DirEntry) (read : List UInt8) :
    ((Foundation.patch e.asBytes 0 read).take direntSz).length = direntSz := by
  simp only [Foundation.patch, List.take_zero, List.nil_append, Nat.zero_add, List.length_take, List.length_append,
    List.length_drop, length_asBytes]
  omega

/-- `read_at(.., dirent.as_bytes_mut(), ..)`: the bytes read overwrite the entry from its first
byte on. -/
def fill (e : DirEntry) (read : List UInt8) : DirEntry :=
  ofBytes ((Foundation.patch e.asBytes 0 read).take direntSz) (length_fill e read)

/-- `DirEntry::name()`: the bytes of the name array before its first 0, which must be UTF-8. -/
def name (e : DirEntry) : Except VfsPanic (List UInt8) :=
  match e.nameBytes.findIdx? (· == 0) with
  | none => .error .nameNotTerminated
  | some len =>
      match Foundation.Utf8.fromUtf8 (e.nameBytes.take len) with
      | .ok () => .ok (e.nameBytes.take len)
      | .error err => .error (.nameNotUtf8 err)

/-! ## The bytes of an entry -/

/-- The inode number of an entry reads back from its bytes. -/
theorem loadLE_asBytes (e : DirEntry) :
    Foundation.loadLE (fun a => e.asBytes.getD a 0) (nameLengthLimit + 1) 4 = e.inodeNumber.toNat := by
  have split : Foundation.readBytes (fun a => e.asBytes.getD a 0) (nameLengthLimit + 1) 4 =
      Foundation.leBytes 4 e.inodeNumber.toNat := by
    apply List.ext_getElem (by simp)
    intro i inside _
    rw [Foundation.length_readBytes] at inside
    simp only [Foundation.readBytes, List.getElem_map, List.getElem_range, asBytes]
    rw [List.getD_append_right _ _ _ _ (by rw [e.nameBytes_length]; omega), e.nameBytes_length,
      Nat.add_sub_cancel_left, List.getD_eq_getElem _ _ (by simpa using inside)]
  have small : e.inodeNumber.toNat < 256 ^ 4 := e.inodeNumber.toNat_lt
  rw [Foundation.loadLE_of_readBytes split, Nat.mod_eq_of_lt small]

/-- An entry is its bytes. -/
theorem ofBytes_asBytes (e : DirEntry) : ofBytes e.asBytes (length_asBytes e) = e := by
  obtain ⟨nameBytes, inodeNumber, nameBytes_length⟩ := e
  simp only [ofBytes, mk.injEq]
  refine ⟨List.take_left' nameBytes_length, ?_⟩
  rw [loadLE_asBytes, UInt32.ofNat_toNat]

/-- The bytes of an entry laid over 32 bytes are those bytes. -/
theorem asBytes_ofBytes (bytes : List UInt8) (sized : bytes.length = direntSz) :
    (ofBytes bytes sized).asBytes = bytes := by
  have rest : Foundation.readBytes (fun a => bytes.getD a 0) (nameLengthLimit + 1) 4 = bytes.drop (nameLengthLimit + 1) := by
    apply List.ext_getElem (by simp [sized]; rfl)
    intro i inside _
    rw [Foundation.length_readBytes] at inside
    simp only [Foundation.readBytes, List.getElem_map, List.getElem_range, List.getElem_drop]
    exact List.getD_eq_getElem _ _ _
  have value : (UInt32.ofNat (Foundation.loadLE (fun a => bytes.getD a 0) (nameLengthLimit + 1) 4)).toNat =
      Foundation.loadLE (fun a => bytes.getD a 0) (nameLengthLimit + 1) 4 :=
    UInt32.toNat_ofNat_of_lt' (Foundation.loadLE_lt _ _ 4)
  rw [asBytes, ofBytes]
  dsimp only
  rw [value, Foundation.leBytes_loadLE, rest, List.take_append_drop]

/-- Reading a whole entry's 32 bytes over an entry gives the entry of those bytes. -/
theorem fill_of_length (e : DirEntry) {read : List UInt8} (whole : read.length = direntSz) :
    e.fill read = ofBytes read whole := by
  have patched : (Foundation.patch e.asBytes 0 read).take direntSz = read := by
    rw [Foundation.patch, List.take_zero, List.nil_append, Nat.zero_add, List.drop_eq_nil_of_le (by simp [whole]),
      List.append_nil, List.take_of_length_le whole.le]
  simp only [fill, patched]

/-- The 32 bytes of an entry read over any entry give back the entry. -/
theorem fill_asBytes (d e : DirEntry) : d.fill e.asBytes = e := by
  rw [fill_of_length d (length_asBytes e), ofBytes_asBytes]

/-! ## Names -/

/-- A list with no 0 has none to find. -/
theorem findIdx?_zero_eq_none {bytes : List UInt8} (noNul : (0 : UInt8) ∉ bytes) :
    bytes.findIdx? (· == 0) = none :=
  List.findIdx?_eq_none_iff.mpr fun b member => by
    have ne : b ≠ 0 := fun same => noNul (same ▸ member)
    simpa using ne

/-- The first 0 of `name` followed by zeros is past `name` when `name` has none. -/
theorem findIdx?_append_zeros {name : List UInt8} (noNul : (0 : UInt8) ∉ name) {k : Nat} (nonempty : 0 < k) :
    (name ++ List.replicate k 0).findIdx? (· == 0) = some name.length := by
  obtain ⟨j, rfl⟩ : ∃ j, k = j + 1 := ⟨k - 1, by omega⟩
  rw [List.findIdx?_append, findIdx?_zero_eq_none noNul, List.replicate_succ, List.findIdx?_cons]
  simp

/-- `name()` of an entry whose array has its first 0 at `len` and is UTF-8 before it. -/
theorem name_of_findIdx? {e : DirEntry} {len : Nat} (found : e.nameBytes.findIdx? (· == 0) = some len)
    (valid : Foundation.Utf8.Valid (e.nameBytes.take len)) : e.name = .ok (e.nameBytes.take len) := by
  unfold DirEntry.name
  rw [found]
  dsimp only
  rw [(Foundation.Utf8.fromUtf8_eq_ok_iff _).mpr valid]

/-- `name()` of an entry `new` built from a name of at most `NAME_LENGTH_LIMIT` bytes with no 0
in it returns the name, when it is UTF-8 as a `&str` is. -/
theorem name_new {name : List UInt8} (short : name.length ≤ nameLengthLimit) (noNul : (0 : UInt8) ∉ name)
    (valid : Foundation.Utf8.Valid name) (inodeNumber : UInt32) :
    ∃ e, new name inodeNumber = .ok e ∧ e.name = .ok name ∧ e.inodeNumber = inodeNumber := by
  have kept : (name ++ List.replicate (nameLengthLimit + 1 - name.length) 0).take name.length = name :=
    List.take_left' rfl
  refine ⟨_, dif_pos (by unfold nameLengthLimit at short ⊢; omega), ?_, rfl⟩
  refine (name_of_findIdx? (findIdx?_append_zeros noNul (by unfold nameLengthLimit at short ⊢; omega))
    (by rw [kept]; exact valid)).trans ?_
  rw [kept]

/-- `new` accepts a name that fills the 28-byte array, but with no 0 left in the array `name()`
then panics. -/
theorem name_new_of_full {name : List UInt8} (full : name.length = nameLengthLimit + 1)
    (noNul : (0 : UInt8) ∉ name) (inodeNumber : UInt32) :
    ∃ e, new name inodeNumber = .ok e ∧ e.name = .error .nameNotTerminated := by
  refine ⟨_, dif_pos full.le, ?_⟩
  have none : (name ++ List.replicate (nameLengthLimit + 1 - name.length) 0).findIdx? (· == 0) = none := by
    rw [full, Nat.sub_self, List.replicate_zero, List.append_nil]
    exact findIdx?_zero_eq_none noNul
  unfold DirEntry.name
  dsimp only
  rw [none]

/-- An entry `new` builds, written as its 32 bytes and read back over an empty entry as
`find_inode_id` and `ls` read it, gives back the name and the inode number. -/
theorem new_asBytes_round_trip {name : List UInt8} (short : name.length ≤ nameLengthLimit)
    (noNul : (0 : UInt8) ∉ name) (valid : Foundation.Utf8.Valid name) (inodeNumber : UInt32) :
    ∃ e, new name inodeNumber = .ok e ∧ e.asBytes.length = direntSz ∧
      (empty.fill e.asBytes).name = .ok name ∧ (empty.fill e.asBytes).inodeNumber = inodeNumber := by
  obtain ⟨e, built, named, numbered⟩ := name_new short noNul valid inodeNumber
  refine ⟨e, built, length_asBytes e, ?_, ?_⟩
  · rw [fill_asBytes, named]
  · rw [fill_asBytes, numbered]

theorem new_asBytes_round_trip_of_ab :
    [97, 98].length ≤ nameLengthLimit ∧ (0 : UInt8) ∉ [97, 98] ∧ Foundation.Utf8.Valid [97, 98] ∧
      ∃ e, new [97, 98] 3 = .ok e ∧ e.asBytes.length = direntSz ∧
        (empty.fill e.asBytes).name = .ok [97, 98] ∧ (empty.fill e.asBytes).inodeNumber = 3 := by
  have valid : Foundation.Utf8.Valid [97, 98] := rfl
  exact ⟨by decide, by decide, valid, new_asBytes_round_trip (by decide) (by decide) valid 3⟩

/-- A name with a 0 inside comes back from its entry cut at its first 0. -/
theorem name_new_of_nul {pre post : List UInt8} (fits : pre.length + 1 + post.length ≤ nameLengthLimit + 1)
    (noNul : (0 : UInt8) ∉ pre) (valid : Foundation.Utf8.Valid pre) (inodeNumber : UInt32) :
    ∃ e, new (pre ++ 0 :: post) inodeNumber = .ok e ∧ e.name = .ok pre := by
  refine ⟨_, dif_pos (by simp; omega), ?_⟩
  have first : (pre ++ 0 :: post ++ List.replicate (nameLengthLimit + 1 - (pre ++ 0 :: post).length) 0).findIdx?
      (· == 0) = some pre.length := by
    rw [List.append_assoc, List.findIdx?_append, findIdx?_zero_eq_none noNul, List.cons_append, List.findIdx?_cons]
    simp
  have kept : (pre ++ 0 :: post ++ List.replicate (nameLengthLimit + 1 - (pre ++ 0 :: post).length) 0).take
      pre.length = pre := by
    rw [List.append_assoc, List.take_left' rfl]
  refine (name_of_findIdx? first (by rw [kept]; exact valid)).trans ?_
  rw [kept]

/-- What `name()` returns is at most `NAME_LENGTH_LIMIT` bytes, has no 0 and is UTF-8. -/
theorem name_eq_ok {e : DirEntry} {s : List UInt8} (named : e.name = .ok s) :
    s.length ≤ nameLengthLimit ∧ (0 : UInt8) ∉ s ∧ Foundation.Utf8.Valid s := by
  unfold DirEntry.name at named
  split at named
  · cases named
  · rename_i len found
    obtain ⟨inside, isZero, before⟩ := List.findIdx?_eq_some_iff_getElem.mp found
    split at named
    · rename_i valid
      cases named
      refine ⟨?_, fun member => ?_, (Foundation.Utf8.fromUtf8_eq_ok_iff _).mp valid⟩
      · rw [e.nameBytes_length] at inside
        rw [List.length_take]
        unfold nameLengthLimit at inside ⊢
        omega
      · obtain ⟨j, short, at_j⟩ := List.getElem_of_mem member
        rw [List.getElem_take] at at_j
        have early := before j (by rw [List.length_take] at short; omega)
        simp [at_j] at early
    · cases named

end DirEntry

end EasyFs

end RCore
