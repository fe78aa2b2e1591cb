import RCore.Foundation.Scatter
import RCore.EasyFs.DiskInodeSize

/-! # The record of a `DiskInode` in its block

`DiskInode` of `easy-fs/src/layout.rs` is `#[repr(C)]`: `size`, the 28 `direct` ids, `indirect1`
and `indirect2` as little-endian `u32`s from byte 0 on, then the one-byte `type_` at byte 124, in
`size_of::<DiskInode>() = 128` bytes. The vfs layer reaches an inode through
`get_block_cache(block_id).lock().read(block_offset, f)` and `.modify(block_offset, f)`, which
hand `f` the record in place. The model reads the record's fields (`DiskInode.load`) and writes
them back as their 125 bytes (`DiskInode.encode`).

A record written is read back (`DiskInode.load_writeBytes_encode`), a record read and written
back leaves the device as it was (`DiskInode.writeBytes_encode_load`), and
`DiskInode::initialize` writes the record of `ofType type_` (`DiskInode.init_apply`).
-/

namespace RCore

namespace EasyFs

/-- The `DiskInodeType` of discriminant `n`: `Directory` for 1, `File` for 0. The file system
writes no other value. -/
def DiskInodeType.ofByte (n : Nat) : DiskInodeType := if n = 1 then .directory else .file

@[simp] theorem DiskInodeType.ofByte_toNat (type_ : DiskInodeType) : DiskInodeType.ofByte type_.toNat = type_ := by
  cases type_ <;> rfl

theorem DiskInodeType.toNat_le_one (type_ : DiskInodeType) : type_.toNat ≤ 1 := by
  cases type_ <;> decide

namespace DiskInode

/-- The 125 bytes of the fields of `inode`, as `#[repr(C)]` lays them out. -/
def encode (inode : DiskInode) : List UInt8 :=
  Foundation.leBytes 4 inode.size ++ inode.direct.flatMap (Foundation.leBytes 4) ++
    Foundation.leBytes 4 inode.indirect1 ++ Foundation.leBytes 4 inode.indirect2 ++
    Foundation.leBytes 1 inode.type_.toNat

/-- The `DiskInode` whose record starts at address `addr` of `mem`. -/
def load (mem : Nat → UInt8) (addr : Nat) : DiskInode where
  size := Foundation.loadLE mem (addr + sizeOffset) 4
  direct := (List.range inodeDirectCount).map fun i => Foundation.loadLE mem (addr + directOffset i) 4
  indirect1 := Foundation.loadLE mem (addr + indirect1Offset) 4
  indirect2 := Foundation.loadLE mem (addr + indirect2Offset) 4
  type_ := DiskInodeType.ofByte (Foundation.loadLE mem (addr + typeOffset) 1)
  direct_length := by simp

/-- The fields of `inode` are `u32`s, as those of every record on the device are. -/
structure FieldsFit (inode : DiskInode) : Prop where
  size : inode.size < 2 ^ 32
  direct : ∀ id ∈ inode.direct, id < 2 ^ 32
  indirect1 : inode.indirect1 < 2 ^ 32
  indirect2 : inode.indirect2 < 2 ^ 32

variable {inode : DiskInode} {mem : Nat → UInt8} {addr : Nat}

@[simp] theorem length_encode (inode : DiskInode) : inode.encode.length = 125 := by
  have direct : (inode.direct.flatMap (Foundation.leBytes 4)).length = 4 * inodeDirectCount := by
    rw [List.length_flatMap, List.map_congr_left fun _ _ => Foundation.length_leBytes 4 _, List.map_const',
      List.sum_replicate, inode.direct_length, smul_eq_mul, Nat.mul_comm]
  simp only [encode, List.length_append, Foundation.length_leBytes, direct]
  rfl

theorem load_fieldsFit (mem : Nat → UInt8) (addr : Nat) : FieldsFit (load mem addr) where
  size := Foundation.loadLE_lt mem _ 4
  direct _ member := by
    obtain ⟨i, -, rfl⟩ := List.mem_map.mp member
    exact Foundation.loadLE_lt mem _ 4
  indirect1 := Foundation.loadLE_lt mem _ 4
  indirect2 := Foundation.loadLE_lt mem _ 4

theorem length_take_flatMap {i : Nat} (inside : i ≤ inodeDirectCount) :
    ((inode.direct.take i).flatMap (Foundation.leBytes 4)).length = 4 * i := by
  rw [List.length_flatMap, List.map_congr_left fun _ _ => Foundation.length_leBytes 4 _, List.map_const',
    List.sum_replicate, List.length_take, inode.direct_length, smul_eq_mul, Nat.min_eq_left inside,
    Nat.mul_comm]

/-! The record around each of its fields. -/

theorem encode_split_size (inode : DiskInode) :
    inode.encode = [] ++ Foundation.leBytes 4 inode.size ++ (inode.direct.flatMap (Foundation.leBytes 4) ++
      Foundation.leBytes 4 inode.indirect1 ++ Foundation.leBytes 4 inode.indirect2 ++
      Foundation.leBytes 1 inode.type_.toNat) := by
  simp only [encode, List.nil_append, List.append_assoc]

theorem encode_split_direct {i : Nat} (inside : i < inodeDirectCount) :
    inode.encode = (Foundation.leBytes 4 inode.size ++ (inode.direct.take i).flatMap (Foundation.leBytes 4)) ++
      Foundation.leBytes 4 (inode.direct.getD i 0) ++
      ((inode.direct.drop (i + 1)).flatMap (Foundation.leBytes 4) ++ Foundation.leBytes 4 inode.indirect1 ++
        Foundation.leBytes 4 inode.indirect2 ++ Foundation.leBytes 1 inode.type_.toNat) := by
  have split : inode.direct = inode.direct.take i ++ [inode.direct.getD i 0] ++ inode.direct.drop (i + 1) := by
    rw [List.getD_eq_getElem _ _ (by rw [inode.direct_length]; exact inside), List.append_assoc,
      List.singleton_append, List.cons_getElem_drop_succ, List.take_append_drop]
  conv_lhs => rw [encode, split]
  simp only [List.flatMap_append, List.flatMap_singleton, List.append_assoc]

theorem encode_split_indirect1 (inode : DiskInode) :
    inode.encode = (Foundation.leBytes 4 inode.size ++ inode.direct.flatMap (Foundation.leBytes 4)) ++
      Foundation.leBytes 4 inode.indirect1 ++
      (Foundation.leBytes 4 inode.indirect2 ++ Foundation.leBytes 1 inode.type_.toNat) := by
  simp only [encode, List.append_assoc]

theorem encode_split_indirect2 (inode : DiskInode) :
    inode.encode = (Foundation.leBytes 4 inode.size ++ inode.direct.flatMap (Foundation.leBytes 4) ++
      Foundation.leBytes 4 inode.indirect1) ++ Foundation.leBytes 4 inode.indirect2 ++
      Foundation.leBytes 1 inode.type_.toNat := by
  simp only [encode, List.append_assoc]

theorem encode_split_type (inode : DiskInode) :
    inode.encode = (Foundation.leBytes 4 inode.size ++ inode.direct.flatMap (Foundation.leBytes 4) ++
      Foundation.leBytes 4 inode.indirect1 ++ Foundation.leBytes 4 inode.indirect2) ++
      Foundation.leBytes 1 inode.type_.toNat ++ [] := by
  simp only [encode, List.append_nil]

/-- A field of a written record reads back. -/
theorem loadLE_encode {pre post : List UInt8} {width value offset : Nat}
    (split : inode.encode = pre ++ Foundation.leBytes width value ++ post) (at_ : pre.length = offset)
    (small : value < 256 ^ width) (mem : Nat → UInt8) (addr : Nat) :
    Foundation.loadLE (Foundation.writeBytes mem addr inode.encode) (addr + offset) width = value := by
  rw [← at_, Foundation.loadLE_writeBytes_of_eq split, Nat.mod_eq_of_lt small]

/-- A record written is read back, when its fields are `u32`s. -/
theorem load_writeBytes_encode (fit : FieldsFit inode) (mem : Nat → UInt8) (addr : Nat) :
    load (Foundation.writeBytes mem addr inode.encode) addr = inode := by
  have directs : (inode.direct.flatMap (Foundation.leBytes 4)).length = 112 := by
    rw [← List.take_of_length_le (inode.direct_length.le), length_take_flatMap le_rfl]
    rfl
  have direct : (List.range inodeDirectCount).map (fun i =>
      Foundation.loadLE (Foundation.writeBytes mem addr inode.encode) (addr + directOffset i) 4) = inode.direct := by
    apply List.ext_getElem (by rw [List.length_map, List.length_range, inode.direct_length])
    intro i inside _
    rw [List.length_map, List.length_range] at inside
    have getD : inode.direct.getD i 0 = inode.direct[i] := List.getD_eq_getElem _ _ _
    rw [List.getElem_map, List.getElem_range, ← getD]
    refine loadLE_encode (encode_split_direct inside) ?_ (fit.direct _ (getD_mem (by rw [inode.direct_length]; exact inside))) mem addr
    rw [List.length_append, Foundation.length_leBytes, length_take_flatMap inside.le]
    simp only [directOffset]
  obtain ⟨size, directIds, indirect1, indirect2, type_, direct_length⟩ := inode
  simp only [load, DiskInode.mk.injEq]
  refine ⟨loadLE_encode (encode_split_size _) rfl fit.size mem addr, direct,
    loadLE_encode (encode_split_indirect1 _) (by simp [directs]; rfl) fit.indirect1 mem addr,
    loadLE_encode (encode_split_indirect2 _) (by simp [directs]; rfl) fit.indirect2 mem addr, ?_⟩
  rw [loadLE_encode (encode_split_type _) (by simp [directs]; rfl)
    (Nat.lt_of_le_of_lt (DiskInodeType.toNat_le_one type_) (by decide)) mem addr, DiskInodeType.ofByte_toNat]

/-- A record read and encoded is the bytes it was read from, when its type byte is one the file
system writes. -/
theorem encode_load (typed : (mem (addr + typeOffset)).toNat ≤ 1) :
    (load mem addr).encode = Foundation.readBytes mem addr 125 := by
  have type_ : (DiskInodeType.ofByte (Foundation.loadLE mem (addr + typeOffset) 1)).toNat =
      Foundation.loadLE mem (addr + typeOffset) 1 := by
    have byte : Foundation.loadLE mem (addr + typeOffset) 1 = (mem (addr + typeOffset)).toNat := by
      simp [Foundation.loadLE]
    rw [byte]
    unfold DiskInodeType.ofByte
    split <;> simp [DiskInodeType.toNat] <;> omega
  have direct : ((List.range inodeDirectCount).map fun i => Foundation.loadLE mem (addr + directOffset i) 4).flatMap
      (Foundation.leBytes 4) = Foundation.readBytes mem (addr + 4) (4 * inodeDirectCount) := by
    rw [Foundation.readBytes_mul, List.flatMap_map]
    simp only [Foundation.leBytes_loadLE, directOffset, Nat.add_assoc]
  simp only [encode, load, type_, Foundation.leBytes_loadLE, direct]
  simp only [← Foundation.readBytes_add, sizeOffset, indirect1Offset, indirect2Offset, typeOffset, inodeDirectCount]
  rfl

/-- Writing back a record as it was read leaves the device unchanged. -/
theorem writeBytes_encode_load (typed : (mem (addr + typeOffset)).toNat ≤ 1) :
    Foundation.writeBytes mem addr (load mem addr).encode = mem := by
  rw [encode_load typed, Foundation.writeBytes_readBytes]

/-- A record that reads as a directory has the type byte `1`. -/
theorem typed_of_directory (dir : (load mem addr).type_ = .directory) : (mem (addr + typeOffset)).toNat ≤ 1 := by
  have byte : Foundation.loadLE mem (addr + typeOffset) 1 = (mem (addr + typeOffset)).toNat := by
    simp [Foundation.loadLE]
  simp only [load, DiskInodeType.ofByte, byte] at dir
  split at dir
  case isTrue one => exact Nat.le_of_eq one
  case isFalse => cases dir

/-- A record outside the window of a write reads as before. -/
theorem load_of_writesWithin {lo hi : Nat} {d d' : Disk} (within : WritesWithin lo hi d d')
    (apart : addr + diskInodeSize ≤ lo ∨ hi ≤ addr) : load d'.bytes addr = load d.bytes addr := by
  have field : ∀ offset width, offset + width ≤ diskInodeSize →
      Foundation.loadLE d'.bytes (addr + offset) width = Foundation.loadLE d.bytes (addr + offset) width :=
    fun offset width inside => Foundation.loadLE_congr fun a low high => within.bytes_eq a (by omega)
  have direct : ∀ i ∈ List.range inodeDirectCount,
      Foundation.loadLE d'.bytes (addr + directOffset i) 4 = Foundation.loadLE d.bytes (addr + directOffset i) 4 :=
    fun i member => field _ 4 (by
      have := List.mem_range.mp member
      unfold directOffset inodeDirectCount diskInodeSize at *
      omega)
  simp only [load, DiskInode.mk.injEq]
  refine ⟨field _ 4 (by decide), List.map_congr_left direct, field _ 4 (by decide), field _ 4 (by decide), ?_⟩
  rw [field _ 1 (by decide)]

section Init

variable {blockId offset blocks : Nat}

/-- The loop over `direct` in `initialize` zeroes the ids from `direct[k]` on. -/
theorem forM_directs_apply (inside : blockId < blocks) (n : Nat) :
    ∀ k (bytes : Nat → UInt8),
      (List.range' k n).forM (fun i => writeLE blockId (offset + directOffset i) 4 0) ⟨blocks, bytes⟩ =
        .ok (⟨⟩, ⟨blocks, Foundation.writeBytes bytes (byteAddr blockId (offset + directOffset k))
          (List.replicate (4 * n) 0)⟩) := by
  induction n with
  | zero =>
      intro k bytes
      rw [Nat.mul_zero, List.replicate_zero, Foundation.writeBytes_nil]
      rfl
  | succ n ih =>
      intro k bytes
      rw [List.range'_succ]
      show (writeLE blockId (offset + directOffset k) 4 0 >>= fun _ =>
        (List.range' (k + 1) n).forM fun i => writeLE blockId (offset + directOffset i) 4 0) ⟨blocks, bytes⟩ = _
      rw [Foundation.bind_of_ok (writeLE_of_lt inside), ih (k + 1)]
      have adjacent : byteAddr blockId (offset + directOffset (k + 1)) =
          byteAddr blockId (offset + directOffset k) + (Foundation.leBytes 4 0).length := by
        simp only [byteAddr, directOffset, Foundation.length_leBytes]
        omega
      have zeros : Foundation.leBytes 4 0 ++ List.replicate (4 * n) (0 : UInt8) = List.replicate (4 * (n + 1)) 0 := by
        rw [show 4 * (n + 1) = 4 + 4 * n by omega, List.replicate_add]
        rfl
      rw [adjacent, Foundation.storeLE_eq_writeBytes, Foundation.writeBytes_append, zeros]

/-- `DiskInode::initialize(type_)` writes the record of `ofType type_`. -/
theorem init_apply (type_ : DiskInodeType) (inside : blockId < blocks) (bytes : Nat → UInt8) :
    init blockId offset type_ ⟨blocks, bytes⟩ =
      .ok (⟨⟩, ⟨blocks, Foundation.writeBytes bytes (byteAddr blockId offset) (ofType type_).encode⟩) := by
  have record : (ofType type_).encode = Foundation.leBytes 4 0 ++ List.replicate (4 * inodeDirectCount) 0 ++
      Foundation.leBytes 4 0 ++ Foundation.leBytes 4 0 ++ Foundation.leBytes 1 type_.toNat := rfl
  unfold init
  rw [Foundation.bind_of_ok (writeLE_of_lt inside), List.range_eq_range', Foundation.bind_of_ok
    (forM_directs_apply inside _ 0 _), Foundation.bind_of_ok (writeLE_of_lt inside),
    Foundation.bind_of_ok (writeLE_of_lt inside), writeLE_of_lt inside, record]
  simp only [Foundation.storeLE_eq_writeBytes]
  -- the five writes lie side by side from the start of the record
  have at4 : byteAddr blockId (offset + directOffset 0) =
      byteAddr blockId (offset + sizeOffset) + (Foundation.leBytes 4 0).length := by
    simp only [byteAddr, directOffset, sizeOffset, Foundation.length_leBytes]
    omega
  have at116 : byteAddr blockId (offset + indirect1Offset) = byteAddr blockId (offset + sizeOffset) +
      (Foundation.leBytes 4 0 ++ List.replicate (4 * inodeDirectCount) (0 : UInt8)).length := by
    simp only [byteAddr, indirect1Offset, sizeOffset, List.length_append, Foundation.length_leBytes,
      List.length_replicate, inodeDirectCount]
    omega
  have at120 : byteAddr blockId (offset + indirect2Offset) = byteAddr blockId (offset + sizeOffset) +
      (Foundation.leBytes 4 0 ++ List.replicate (4 * inodeDirectCount) (0 : UInt8) ++ Foundation.leBytes 4 0).length := by
    simp only [byteAddr, indirect2Offset, sizeOffset, List.length_append, Foundation.length_leBytes,
      List.length_replicate, inodeDirectCount]
    omega
  have at124 : byteAddr blockId (offset + typeOffset) = byteAddr blockId (offset + sizeOffset) +
      (Foundation.leBytes 4 0 ++ List.replicate (4 * inodeDirectCount) (0 : UInt8) ++ Foundation.leBytes 4 0 ++
        Foundation.leBytes 4 0).length := by
    simp only [byteAddr, typeOffset, sizeOffset, List.length_append, Foundation.length_leBytes,
      List.length_replicate, inodeDirectCount]
    omega
  rw [at4, Foundation.writeBytes_append, at116, Foundation.writeBytes_append, at120, Foundation.writeBytes_append,
    at124, Foundation.writeBytes_append]
  rfl

end Init

end DiskInode

end EasyFs

end RCore
