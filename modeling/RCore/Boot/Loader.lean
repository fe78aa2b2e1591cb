import RCore.Boot.LinkApp
import RCore.Foundation.KeyedList

/-! # The loader reads the app table back

`os5/src/loader.rs` reads the table that `link_app.S` lays out: `get_num_app` the word at
`_num_app`, `get_app_data(i)` the slice from the `i`-th address after it to the next one, the
lazily built `APP_NAMES` the NUL-terminated names from `_app_names`, and
`get_app_data_by_name` the slice of the first app of a name.

On the table the build makes from files `stem.elf` with distinct UTF-8 stems without `.`,
NUL, `"` or `\`, the loader reads the sorted stems back as `APP_NAMES`, finds no app for any
other name, and gives each listed name the slice of its image followed by the padding that
`.align 3` put before the next image (`RCore.Loader.appTable_round_trip`).
-/

namespace RCore

namespace Loader

open Foundation LinkApp

/-- `get_num_app`: the `usize` at `_num_app`. -/
def getNumApp (mem : Nat → UInt8) (numApp : Nat) : Nat := loadLE mem numApp 8

/-- `get_app_data(app_id)`, as the start and length of the slice: `app_start[app_id]` and
`app_start[app_id + 1] - app_start[app_id]`, where `app_start` is the `num_app + 1` words after
`_num_app`. -/
def getAppData (mem : Nat → UInt8) (numApp appId : Nat) : Except Panic (Nat × Nat) :=
  let appStart := fun i => loadLE mem (numApp + 8 * (i + 1)) 8
  if appId < getNumApp mem numApp then .ok (appStart appId, wrappingSub (appStart (appId + 1)) (appStart appId))
  else .error (.appIdOutOfRange appId)

/-- `while end.read_volatile() != b'\0' { end = end.add(1); }` from `start`: the address of the
first NUL, or `none` past `fuel` bytes. -/
def findNul (mem : Nat → UInt8) : (fuel start : Nat) → Option Nat
  | 0, _ => none
  | fuel + 1, start => if mem start = 0 then some start else findNul mem fuel (start + 1)

/-- `APP_NAMES`: `count` names from `start`, each up to its NUL and through
`from_utf8(..).unwrap()`; `none` when a scan runs past `fuel` bytes. -/
def loadAppNames (mem : Nat → UInt8) (fuel : Nat) : (count start : Nat) → Option (Except Panic (List (List UInt8)))
  | 0, _ => some (.ok [])
  | count + 1, start =>
      match findNul mem fuel start with
      | none => none
      | some stop =>
          match Utf8.fromUtf8 (readBytes mem start (stop - start)) with
          | .error e => some (.error (.utf8Error e))
          | .ok () =>
              (loadAppNames mem fuel count (stop + 1)).map fun names =>
                names.map (readBytes mem start (stop - start) :: ·)

/-- `get_app_data_by_name(name)`, with `names` the `num_app` names of `APP_NAMES`: the first
app of that name, whose index is below the length of `APP_NAMES`. -/
def getAppDataByName (mem : Nat → UInt8) (numApp : Nat) (names : List (List UInt8)) (name : List UInt8) :
    Except Panic (Option (Nat × Nat)) :=
  match (List.range (getNumApp mem numApp)).find? fun i => names.getD i [] == name with
  | none => .ok none
  | some i => (getAppData mem numApp i).map some

section Names

variable {mem : Nat → UInt8}

/-- The scan for the NUL stops after a name without NUL. -/
theorem findNul_of_readBytes : ∀ {name : List UInt8} {start fuel : Nat}, 0 ∉ name → name.length < fuel →
    readBytes mem start (name.length + 1) = name ++ [0] → findNul mem fuel start = some (start + name.length)
  | [], start, fuel + 1, _, _, bytes => by
      have zero : mem start = 0 := by simpa [readBytes] using bytes
      rw [findNul, if_pos zero, List.length_nil, Nat.add_zero]
  | b :: name, start, fuel + 1, noNul, short, bytes => by
      rw [List.length_cons, readBytes_succ, List.cons_append] at bytes
      obtain ⟨first, rest⟩ := List.cons_eq_cons.mp bytes
      have notZero : mem start ≠ 0 := fun zero => noNul (first ▸ zero ▸ List.mem_cons_self)
      rw [findNul, if_neg notZero,
        findNul_of_readBytes (fun member => noNul (List.mem_cons_of_mem _ member)) (by simp at short; omega) rest,
        List.length_cons]
      congr 1
      omega

/-- `APP_NAMES` reads back NUL-terminated UTF-8 names. -/
theorem loadAppNames_of_readBytes : ∀ {names : List (List UInt8)} {start fuel : Nat},
    (∀ name ∈ names, 0 ∉ name ∧ name.length < fuel ∧ Utf8.Valid name) →
    readBytes mem start (namesData names).length = namesData names →
    loadAppNames mem fuel names.length start = some (.ok names)
  | [], _, _, _, _ => rfl
  | name :: names, start, fuel, each, bytes => by
      obtain ⟨noNul, short, valid⟩ := each name List.mem_cons_self
      have split : namesData (name :: names) = (name ++ [0]) ++ namesData names := by
        rw [namesData, List.flatMap_cons]
        rfl
      rw [split, List.length_append, readBytes_add] at bytes
      obtain ⟨here, later⟩ := List.append_inj bytes (by simp)
      have stop := findNul_of_readBytes noNul short (by simpa using here)
      have slice : readBytes mem start (start + name.length - start) = name := by
        rw [List.length_append, List.length_singleton, readBytes_add] at here
        rw [Nat.add_sub_cancel_left]
        exact (List.append_inj here (by simp)).1
      rw [List.length_cons, loadAppNames, stop]
      simp only
      rw [slice, (Utf8.fromUtf8_eq_ok_iff name).mpr valid]
      simp only
      rw [loadAppNames_of_readBytes (fun n member => each n (List.mem_cons_of_mem _ member))
        (by simpa [Nat.add_assoc] using later)]
      rfl

end Names

section ByName

variable {mem : Nat → UInt8} {numApp : Nat} {names : List (List UInt8)}

/-- A name outside `APP_NAMES` has no app. -/
theorem getAppDataByName_of_not_mem (count : getNumApp mem numApp = names.length) {name : List UInt8}
    (absent : name ∉ names) : getAppDataByName mem numApp names name = .ok none := by
  have never : ∀ j < getNumApp mem numApp, (names.getD j [] == name) = false := by
    intro j below
    rw [count] at below
    rw [List.getD_eq_getElem _ _ below, beq_eq_false_iff_ne]
    exact fun same => absent (same ▸ List.getElem_mem below)
  rw [getAppDataByName, find?_range_eq_none never]

/-- With distinct names, the name at index `i` of `APP_NAMES` has the app of index `i`. -/
theorem getAppDataByName_getElem (count : getNumApp mem numApp = names.length) (nodup : names.Nodup)
    {i : Nat} (inside : i < names.length) :
    getAppDataByName mem numApp names names[i] = (getAppData mem numApp i).map some := by
  have found : (List.range (getNumApp mem numApp)).find? (fun j => names.getD j [] == names[i]) = some i := by
    refine find?_range_eq_some (count ▸ inside) (fun j below => ?_) ?_
    · rw [List.getD_eq_getElem _ _ (by omega), beq_eq_false_iff_ne]
      exact fun same => by have := (nodup.getElem_inj_iff).mp same; omega
    · rw [List.getD_eq_getElem _ _ inside, beq_self_eq_true]
  rw [getAppDataByName, found]

end ByName

section Table

/-! The kernel's memory holds `.data` of `link_app.S` at `base`; everything else is `rest`. -/

variable (resolve : Symbol → Nat) (base : Nat) (apps images : List (List UInt8)) (rest : Nat → UInt8)

/-- `.data` ends where the images end. -/
theorem base_add_length_tableData :
    base + (tableData resolve base apps images).length =
      imagesAddr base apps + (imagesData (imagesAddr base apps) images).length := by
  simp only [tableData, imagesAddr, namesAddr, addrSymbols, List.length_append, length_leBytes,
    List.length_flatMap, List.map_append, List.map_map, Function.comp_def, List.sum_append, List.map_const',
    List.length_range, List.sum_replicate, List.map_cons, List.map_nil, List.sum_cons, List.sum_nil, smul_eq_mul]
  omega

/-- The count at `_num_app`. -/
theorem getNumApp_tableData (fits : base + (tableData resolve base apps images).length < 2 ^ 64) :
    getNumApp (writeBytes rest base (tableData resolve base apps images)) base = apps.length := by
  have long := base_add_length_tableData resolve base apps images
  have bytes := readBytes_writeBytes_of_eq rest base (show tableData resolve base apps images =
      [] ++ leBytes 8 apps.length ++ ((addrSymbols apps.length).flatMap (fun name => leBytes 8 (resolve name)) ++
        namesData apps ++ imagesData (imagesAddr base apps) images) by simp [tableData])
    (show 0 + 8 ≤ (leBytes 8 apps.length).length by simp)
  rw [List.length_nil, Nat.add_zero, List.drop_zero, List.take_of_length_le (by simp)] at bytes
  rw [getNumApp, loadLE_of_readBytes bytes, Nat.mod_eq_of_lt]
  simp only [imagesAddr, namesAddr] at long
  omega

/-- Address `i` after `_num_app` is that of symbol `i` of the table. -/
theorem loadLE_tableData_addr {i : Nat} {name : Symbol} (found : (addrSymbols apps.length)[i]? = some name) :
    loadLE (writeBytes rest base (tableData resolve base apps images)) (base + 8 * (i + 1)) 8 = resolve name % 2 ^ 64 := by
  have inside : i < apps.length + 1 := by
    have := (List.getElem?_eq_some_iff.mp found).1
    simpa [addrSymbols] using this
  have table : ((addrSymbols apps.length).flatMap fun name => leBytes 8 (resolve name)).length =
      8 * (apps.length + 1) := by
    simp [addrSymbols, List.length_flatMap, Function.comp_def]
    omega
  have bytes := readBytes_writeBytes_of_eq rest base (show tableData resolve base apps images =
      leBytes 8 apps.length ++ (addrSymbols apps.length).flatMap (fun name => leBytes 8 (resolve name)) ++
        (namesData apps ++ imagesData (imagesAddr base apps) images) by simp [tableData])
    (show 8 * i + 8 ≤ ((addrSymbols apps.length).flatMap fun name => leBytes 8 (resolve name)).length by omega)
  rw [length_leBytes, take_drop_flatMap (fun name => length_leBytes 8 (resolve name)) found,
    show base + 8 + 8 * i = base + 8 * (i + 1) by omega] at bytes
  rw [loadLE_of_readBytes bytes]
  rfl

/-- The names from `_app_names` on. -/
theorem readBytes_tableData_names :
    readBytes (writeBytes rest base (tableData resolve base apps images)) (namesAddr base apps.length)
      (namesData apps).length = namesData apps := by
  have table : ((addrSymbols apps.length).flatMap fun name => leBytes 8 (resolve name)).length =
      8 * (apps.length + 1) := by
    simp [addrSymbols, List.length_flatMap, Function.comp_def]
    omega
  have bytes := readBytes_writeBytes_of_eq rest base (show tableData resolve base apps images =
      (leBytes 8 apps.length ++ (addrSymbols apps.length).flatMap (fun name => leBytes 8 (resolve name))) ++
        namesData apps ++ imagesData (imagesAddr base apps) images by simp [tableData])
    (show 0 + (namesData apps).length ≤ (namesData apps).length by omega)
  rw [List.length_append, length_leBytes, table, Nat.add_zero, List.drop_zero, List.take_length,
    show base + (8 + 8 * (apps.length + 1)) = namesAddr base apps.length by rw [namesAddr]; omega] at bytes
  exact bytes

/-- The bytes of the images, from `offset` past the padding of the first. -/
theorem readBytes_tableData_images (offset count : Nat)
    (inside : offset + count ≤ (imagesData (imagesAddr base apps) images).length) :
    readBytes (writeBytes rest base (tableData resolve base apps images)) (imagesAddr base apps + offset) count =
      ((imagesData (imagesAddr base apps) images).drop offset).take count := by
  have long := base_add_length_tableData resolve base apps images
  have bytes := readBytes_writeBytes_of_eq rest base (show tableData resolve base apps images =
      (leBytes 8 apps.length ++ (addrSymbols apps.length).flatMap (fun name => leBytes 8 (resolve name)) ++
        namesData apps) ++ imagesData (imagesAddr base apps) images ++ [] by simp [tableData]) inside
  have start : base + (leBytes 8 apps.length ++ (addrSymbols apps.length).flatMap (fun name => leBytes 8 (resolve name)) ++
      namesData apps).length = imagesAddr base apps := by
    have : (tableData resolve base apps images).length = (leBytes 8 apps.length ++
        (addrSymbols apps.length).flatMap (fun name => leBytes 8 (resolve name)) ++ namesData apps).length +
        (imagesData (imagesAddr base apps) images).length := by
      simp only [tableData, List.length_append]
    omega
  rw [start] at bytes
  exact bytes

/-- The slice of image `i`: its bytes, then the padding before the next image. -/
theorem readBytes_tableData_image {i : Nat} (inside : i < images.length) :
    readBytes (writeBytes rest base (tableData resolve base apps images))
        ((imageStarts (imagesAddr base apps) images).getD i 0)
        ((images.getD i []).length + imagePad (imagesAddr base apps) images i) =
      images.getD i [] ++ List.replicate (imagePad (imagesAddr base apps) images i) 0 := by
  obtain ⟨low, within, slice⟩ := imagesData_slice images (imagesAddr base apps) i inside
  have ends := imageEnds_getD images (imagesAddr base apps) i inside
  have bytes := readBytes_tableData_images resolve base apps images rest
    ((imageStarts (imagesAddr base apps) images).getD i 0 - imagesAddr base apps)
    ((images.getD i []).length + imagePad (imagesAddr base apps) images i) (by omega)
  rw [Nat.add_sub_cancel' low, slice] at bytes
  exact bytes

/-- With the symbols resolved to their labels, `get_app_data(i)` is the slice of image `i`
and the padding after it: the next address is the next image's start, or for the last image
`app_{n-1}_end`. -/
theorem getAppData_tableData (resolved : ∀ name, resolve name = ((tableLabels base apps images).lookup name).getD 0)
    (fits : base + (tableData resolve base apps images).length < 2 ^ 64) (lengths : images.length = apps.length)
    {i : Nat} (inside : i < apps.length) :
    getAppData (writeBytes rest base (tableData resolve base apps images)) base i =
      .ok ((imageStarts (imagesAddr base apps) images).getD i 0,
        (images.getD i []).length + imagePad (imagesAddr base apps) images i) := by
  have count := getNumApp_tableData resolve base apps images rest fits
  have long := base_add_length_tableData resolve base apps images
  obtain ⟨low, within, -⟩ := imagesData_slice images (imagesAddr base apps) i (by omega)
  have ends := imageEnds_getD images (imagesAddr base apps) i (by omega)
  have start : loadLE (writeBytes rest base (tableData resolve base apps images)) (base + 8 * (i + 1)) 8 =
      (imageStarts (imagesAddr base apps) images).getD i 0 := by
    rw [loadLE_tableData_addr resolve base apps images rest (addrSymbols_getElem?_of_lt inside), resolved,
      lookup_tableLabels_appStart, ← List.getD_eq_getElem?_getD, Nat.mod_eq_of_lt (by omega)]
  -- The address after image `i` is the next image's start, or `app_{n-1}_end` after the last.
  have next : loadLE (writeBytes rest base (tableData resolve base apps images)) (base + 8 * (i + 1 + 1)) 8 =
      (imageEnds (imagesAddr base apps) images).getD i 0 + imagePad (imagesAddr base apps) images i := by
    by_cases later : i + 1 < apps.length
    · have pad : imagePad (imagesAddr base apps) images i =
          Asm.alignPad 3 ((imageEnds (imagesAddr base apps) images).getD i 0) := if_pos (by omega)
      rw [loadLE_tableData_addr resolve base apps images rest (addrSymbols_getElem?_of_lt later), resolved,
        lookup_tableLabels_appStart, ← List.getD_eq_getElem?_getD,
        imageStarts_getD_succ images _ i (by omega), ← pad, Nat.mod_eq_of_lt (by omega)]
    · have last : i + 1 = apps.length := by omega
      have pad : imagePad (imagesAddr base apps) images i = 0 := if_neg (by omega)
      rw [last, loadLE_tableData_addr resolve base apps images rest (addrSymbols_getElem?_self apps.length),
        resolved, lookup_tableLabels_appEnd, ← List.getD_eq_getElem?_getD, show apps.length - 1 = i by omega,
        pad, Nat.add_zero, Nat.mod_eq_of_lt (by omega)]
  unfold getAppData
  dsimp only
  rw [count, if_pos inside, start, next, wrappingSub_of_le (by omega) (by omega), ends, Nat.add_assoc,
    Nat.add_sub_cancel_left]

/-- With distinct names, `get_app_data_by_name` of the name at index `i` gives the slice of
image `i`. -/
theorem getAppDataByName_tableData
    (resolved : ∀ name, resolve name = ((tableLabels base apps images).lookup name).getD 0)
    (fits : base + (tableData resolve base apps images).length < 2 ^ 64) (lengths : images.length = apps.length)
    (distinct : apps.Nodup) {i : Nat} (inside : i < apps.length) :
    getAppDataByName (writeBytes rest base (tableData resolve base apps images)) base apps apps[i] =
      .ok (some ((imageStarts (imagesAddr base apps) images).getD i 0,
        (images.getD i []).length + imagePad (imagesAddr base apps) images i)) := by
  rw [getAppDataByName_getElem (getNumApp_tableData resolve base apps images rest fits) distinct inside,
    getAppData_tableData resolve base apps images rest resolved fits lengths inside]
  rfl

end Table

section RoundTrip

/-- The app table that `build.rs` and the assembler make from files `stem.elf` is read back by
the loader: `APP_NAMES` is the sorted stems, a name outside them has no app, and a listed name,
at index `i` of `APP_NAMES`, has the slice from `app_i_start` over its image and the padding of
`.align 3` before the next image. -/
theorem appTable_round_trip (dir : List (List UInt8 × List UInt8)) (stems : List (List UInt8))
    (named : dir.map Prod.fst = stems.map (· ++ elfExt)) (nonempty : stems ≠ []) (distinct : stems.Nodup)
    (plain : ∀ s ∈ stems, 46 ∉ s ∧ 0 ∉ s ∧ 0x22 ∉ s ∧ 0x5C ∉ s ∧ Utf8.Valid s) (base : Nat) :
    ∃ labels data, buildAppTable dir base = .ok (labels, data) ∧
      labels.lookup .numApp = some base ∧ labels.lookup .appNames = some (namesAddr base stems.length) ∧
      (base + data.length < 2 ^ 64 → ∀ rest : Nat → UInt8,
        getNumApp (writeBytes rest base data) base = stems.length ∧
        (∀ fuel, (∀ s ∈ stems, s.length < fuel) →
          loadAppNames (writeBytes rest base data) fuel stems.length (namesAddr base stems.length) =
            some (.ok (stems.insertionSort (· ≤ ·)))) ∧
        (∀ name ∉ stems,
          getAppDataByName (writeBytes rest base data) base (stems.insertionSort (· ≤ ·)) name = .ok none) ∧
        ∀ name ∈ stems, ∃ i start pad image,
          (stems.insertionSort (· ≤ ·))[i]? = some name ∧ dir.lookup (name ++ elfExt) = some image ∧
          labels.lookup (.appStart i) = some start ∧
          getAppDataByName (writeBytes rest base data) base (stems.insertionSort (· ≤ ·)) name =
            .ok (some (start, image.length + pad)) ∧
          pad = (if i + 1 < stems.length then Asm.alignPad 3 (start + image.length) else 0) ∧ pad < 8 ∧
          readBytes (writeBytes rest base data) start (image.length + pad) = image ++ List.replicate pad 0) := by
  have perm := List.perm_insertionSort (· ≤ ·) stems
  have length := perm.length_eq
  refine ⟨_, _, buildAppTable_elf named nonempty (fun s member =>
      ⟨(plain s member).1, (plain s member).2.2.1, (plain s member).2.2.2.1, (plain s member).2.2.2.2⟩) base,
    lookup_tableLabels_numApp _ _ _, by rw [lookup_tableLabels_appNames, length], fun fits rest => ?_⟩
  have count := getNumApp_tableData _ base _ _ rest fits
  refine ⟨count.trans length, fun fuel short => ?_, fun name absent => ?_, fun name member => ?_⟩
  · rw [← length]
    exact loadAppNames_of_readBytes (fun n listed =>
        ⟨(plain n (perm.subset listed)).2.1, short n (perm.subset listed), (plain n (perm.subset listed)).2.2.2.2⟩)
      (readBytes_tableData_names _ base _ _ rest)
  · exact getAppDataByName_of_not_mem count fun listed => absent (perm.subset listed)
  -- A listed name is the name at some index `i` of the sorted stems.
  obtain ⟨i, inside, rfl⟩ := List.getElem_of_mem (perm.symm.subset member)
  have below : i < ((stems.insertionSort (· ≤ ·)).map (elfImage dir)).length := by simpa using inside
  have image : ((stems.insertionSort (· ≤ ·)).map (elfImage dir)).getD i [] =
      elfImage dir (stems.insertionSort (· ≤ ·))[i] := by
    rw [List.getD_eq_getElem _ _ below, List.getElem_map]
  have ends := imageEnds_getD _ (imagesAddr base (stems.insertionSort (· ≤ ·))) i below
  refine ⟨i, _, _, _, List.getElem?_eq_getElem inside, lookup_elfImage named member, ?_,
    (getAppDataByName_tableData _ base _ _ rest (fun _ => rfl) fits (List.length_map _) (perm.nodup_iff.mpr distinct)
      inside).trans (by rw [image]), ?_, ?_, ?_⟩
  · rw [lookup_tableLabels_appStart, List.getD_eq_getElem?_getD, List.getElem?_eq_getElem (by simpa using inside),
      Option.getD_some]
  · rw [imagePad, List.length_map, length, ends, image]
  · rw [imagePad]
    split
    · exact Asm.alignPad_lt 3 _
    · decide
  · rw [← image]
    exact readBytes_tableData_image _ base _ _ rest below

/-- Two apps, listed out of order. -/
theorem appTable_round_trip_two_apps :
    ∃ labels data, buildAppTable [([98] ++ elfExt, [1, 2, 3]), ([97] ++ elfExt, [7])] 0x80400000 = .ok (labels, data) ∧
      data.length = 51 ∧ ∀ rest : Nat → UInt8,
        loadAppNames (writeBytes rest 0x80400000 data) 2 2 (namesAddr 0x80400000 2) = some (.ok [[97], [98]]) ∧
        ∃ start, labels.lookup (.appStart 1) = some start ∧
          getAppDataByName (writeBytes rest 0x80400000 data) 0x80400000 [[97], [98]] [98] = .ok (some (start, 3)) := by
  obtain ⟨labels, data, built, -, -, reads⟩ := appTable_round_trip [([98] ++ elfExt, [1, 2, 3]), ([97] ++ elfExt, [7])]
    [[98], [97]] rfl (by simp) (by decide) (by decide) 0x80400000
  have long : data.length = 51 := by
    have table := built
    rw [@buildAppTable_elf [[98], [97]] _ rfl (by simp) (by decide) 0x80400000] at table
    cases table
    decide
  refine ⟨labels, data, built, long, fun rest => ?_⟩
  obtain ⟨-, names, -, each⟩ := reads (by omega) rest
  obtain ⟨i, start, pad, image, at_i, found, label, slice, last, -, -⟩ := each [98] (by simp)
  have sorted : ([[98], [97]] : List (List UInt8)).insertionSort (· ≤ ·) = [[97], [98]] := by decide
  rw [sorted] at names at_i slice
  have one : i = 1 := by
    rcases i with _ | _ | i
    · exact absurd at_i (by decide)
    · rfl
    · simp at at_i
  subst one
  have noPad : pad = 0 := by rwa [if_neg (by decide)] at last
  have bytes : image = [1, 2, 3] := Option.some.inj (found.symm.trans (by decide))
  subst noPad bytes
  exact ⟨names 2 (by decide), start, label, slice⟩

/-- `into_string().unwrap()` panics on a file name that is not UTF-8, so no table is built,
whatever the stem's other bytes. -/
theorem buildAppTable_not_utf8 :
    (∀ s ∈ [[0xFF]], (46 : UInt8) ∉ s ∧ (0 : UInt8) ∉ s ∧ (0x22 : UInt8) ∉ s ∧ (0x5C : UInt8) ∉ s) ∧
      ∀ base, buildAppTable [([0xFF] ++ elfExt, [])] base = .error (.notUtf8 ([0xFF] ++ elfExt)) := by
  have invalid : ¬ Utf8.Valid ([0xFF] ++ elfExt) := by decide
  refine ⟨by decide, fun base => ?_⟩
  rw [buildAppTable, List.map_cons, List.map_nil, appNames, List.mapM_cons, appName, if_pos invalid]
  rfl

end RoundTrip

end Loader

end RCore
