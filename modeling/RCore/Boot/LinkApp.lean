import RCore.Config
import RCore.Foundation.KeyedList
import RCore.Foundation.LittleEndian

/-! # `build.rs` and the assembly of `link_app.S`

`insert_app_data` in `os5/build.rs` names each file of `user/build/elf/` by the part of its
name before the first `.`, sorts the names and writes `link_app.S` (`RCore.LinkApp.linkApp`):
in `.data`, the count at `_num_app`, the start address of each image and the end of the last,
the names as `.string`s from `_app_names`, and each image, aligned by `.align 3`, between the
labels `app_i_start` and `app_i_end`.

The assembler is modelled on `.data`, for the directives the script writes
(`RCore.LinkApp.assemble`): a first pass places the labels, a second writes the bytes with the
labels resolved. `.align p` pads with zero bytes to a multiple of `2 ^ p`, as on RISC-V;
`.quad` writes eight little-endian bytes; `.string` writes its text and a NUL, for a text
without `"` or `\`, whose escapes are outside the model; `.incbin` writes the bytes of a file.
For every assembler resolution of the symbols, the run over the script's directives lays out
the header, the names and the aligned images one after the other
(`RCore.LinkApp.Asm.run_linkDirectives`), and the assembled table has its labels where the
header's addresses say (`RCore.LinkApp.assemble_linkDirectives`).
-/

namespace RCore

namespace LinkApp

open Foundation

/-- The symbols of `link_app.S`. -/
inductive Symbol where
  /-- `_num_app`. -/
  | numApp
  /-- `_app_names`. -/
  | appNames
  /-- `app_{idx}_start`. -/
  | appStart (idx : Nat)
  /-- `app_{idx}_end`. -/
  | appEnd (idx : Nat)
deriving DecidableEq, Repr

/-- The operand of `.quad`: a number or the address of a symbol. -/
inductive Operand where
  | num (value : Nat)
  | sym (name : Symbol)
deriving DecidableEq, Repr

/-- The directives and labels `insert_app_data` writes. -/
inductive Directive where
  /-- `.align pow`. -/
  | align (pow : Nat)
  /-- `.section .data`. -/
  | sectionData
  /-- `.global name`. -/
  | global (name : Symbol)
  /-- `name:`. -/
  | label (name : Symbol)
  /-- `.quad value`. -/
  | quad (value : Operand)
  /-- `.string "text"`. -/
  | string (text : List UInt8)
  /-- `.incbin "../user/build/elf/file"`, by the file's name in that directory. -/
  | incbin (file : List UInt8)
deriving DecidableEq, Repr

/-- How the build of the app table fails. -/
inductive BuildError where
  /-- `into_string().unwrap()` on a file name that is not UTF-8. -/
  | notUtf8 (name : List UInt8)
  /-- `find('.').unwrap()` on a file name without `.`. -/
  | noDot (name : List UInt8)
  /-- `apps.len() - 1` with no app. -/
  | noApps
  /-- `.incbin` of a file the directory does not hold. -/
  | missingFile (file : List UInt8)
  /-- `.quad` of a symbol that no label defines. -/
  | undefinedSymbol (name : Symbol)
  /-- `.string` of a text with `"` or `\`, outside the model. -/
  | unsupportedString (text : List UInt8)
deriving DecidableEq, Repr

/-- `.elf`. -/
def elfExt : List UInt8 := [46, 101, 108, 102]

/-- The name `insert_app_data` gives a file: `into_string().unwrap()`, then
`drain(find('.').unwrap()..)`, which keeps the part before the first `.`. -/
def appName (file : List UInt8) : Except BuildError (List UInt8) :=
  if ¬ Utf8.Valid file then .error (.notUtf8 file)
  else if 46 ∈ file then .ok (file.takeWhile (· != 46))
  else .error (.noDot file)

/-- The names of the apps in the order of `apps.sort()`: byte-wise lexicographic, as for
`String`; with distinct names any stable sort gives this order. -/
def appNames (files : List (List UInt8)) : Except BuildError (List (List UInt8)) :=
  (files.mapM appName).map (List.insertionSort (· ≤ ·))

/-- The directives of one image: `app_{idx}_start` aligned to eight bytes, then the file. -/
def appBlock (app : List UInt8) (idx : Nat) : List Directive :=
  [.sectionData, .global (.appStart idx), .global (.appEnd idx), .align 3, .label (.appStart idx),
    .incbin (app ++ elfExt), .label (.appEnd idx)]

/-- What `insert_app_data` writes for at least one app. -/
def linkDirectives (apps : List (List UInt8)) : List Directive :=
  [.align 3, .sectionData, .global .numApp, .label .numApp, .quad (.num apps.length)] ++
    (List.range apps.length).map (fun i => .quad (.sym (.appStart i))) ++
    [.quad (.sym (.appEnd (apps.length - 1))), .global .appNames, .label .appNames] ++
    apps.map .string ++ apps.zipIdx.flatMap fun (app, idx) => appBlock app idx

/-- `insert_app_data`: the contents of `link_app.S`. With no app, `apps.len() - 1` fails. -/
def linkApp (apps : List (List UInt8)) : Except BuildError (List Directive) :=
  if apps.length = 0 then .error .noApps else .ok (linkDirectives apps)

/-- The assembler's state: whether `.data` is the current section, the address of its next
byte, the labels placed in it and its bytes so far. -/
structure Asm where
  inData : Bool
  pos : Nat
  labels : List (Symbol × Nat)
  data : List UInt8

namespace Asm

/-- Bytes for the current section, laid out when it is `.data`. -/
def emit (a : Asm) (bytes : List UInt8) : Asm :=
  if a.inData then { a with pos := a.pos + bytes.length, data := a.data ++ bytes } else a

/-- The padding `.align pow` writes at `pos`. -/
def alignPad (pow pos : Nat) : Nat := (2 ^ pow - pos % 2 ^ pow) % 2 ^ pow

/-- One directive, with the symbols at the addresses `resolve` gives and the files of `files`. -/
def step (files : List UInt8 → Option (List UInt8)) (resolve : Symbol → Nat) (a : Asm) :
    Directive → Except BuildError Asm
  | .align pow => .ok (a.emit (List.replicate (alignPad pow a.pos) 0))
  | .sectionData => .ok { a with inData := true }
  | .global _ => .ok a
  | .label name => .ok (if a.inData then { a with labels := a.labels ++ [(name, a.pos)] } else a)
  | .quad (.num value) => .ok (a.emit (leBytes 8 value))
  | .quad (.sym name) => .ok (a.emit (leBytes 8 (resolve name)))
  | .string text =>
      if 0x22 ∈ text ∨ 0x5C ∈ text then .error (.unsupportedString text) else .ok (a.emit (text ++ [0]))
  | .incbin file =>
      match files file with
      | none => .error (.missingFile file)
      | some bytes => .ok (a.emit bytes)

/-- The directives in order. -/
def run (files : List UInt8 → Option (List UInt8)) (resolve : Symbol → Nat) :
    Asm → List Directive → Except BuildError Asm
  | a, [] => .ok a
  | a, d :: ds => (a.step files resolve d).bind fun a => run files resolve a ds

end Asm

/-- The symbol a `.quad` refers to. -/
def Directive.quadSymbol? : Directive → Option Symbol
  | .quad (.sym name) => some name
  | _ => none

/-- The assembly of `ds` with `.data` at `base`: the labels with their addresses, and the
bytes of `.data`. The first pass places the labels; a `.quad` of a symbol without a label
fails; the second pass writes the bytes. -/
def assemble (files : List UInt8 → Option (List UInt8)) (base : Nat) (ds : List Directive) :
    Except BuildError (List (Symbol × Nat) × List UInt8) := do
  let placed ← Asm.run files (fun _ => 0) ⟨false, base, [], []⟩ ds
  match (ds.filterMap Directive.quadSymbol?).find? fun name => (placed.labels.lookup name).isNone with
  | some name => throw (.undefinedSymbol name)
  | none =>
      let written ← Asm.run files (fun name => (placed.labels.lookup name).getD 0) ⟨false, base, [], []⟩ ds
      return (written.labels, written.data)

/-- The kernel's app table built from the files of `user/build/elf/`, each a name and its
bytes: `build.rs`, then `link_app.S` assembled with its `.data` at `base`. -/
def buildAppTable (dir : List (List UInt8 × List UInt8)) (base : Nat) :
    Except BuildError (List (Symbol × Nat) × List UInt8) := do
  let apps ← appNames (dir.map Prod.fst)
  let ds ← linkApp apps
  assemble (fun file => dir.lookup file) base ds

section Layout

/-! The layout of the script's `.data`: the header of the count and the addresses, the names,
then each image after the padding that aligns it. -/

/-- Where the images start from `pos` on, each at the next multiple of eight. -/
def imageStarts (pos : Nat) : List (List UInt8) → List Nat
  | [] => []
  | image :: images => (pos + Asm.alignPad 3 pos) :: imageStarts (pos + Asm.alignPad 3 pos + image.length) images

/-- Where the images end from `pos` on. -/
def imageEnds (pos : Nat) : List (List UInt8) → List Nat
  | [] => []
  | image :: images =>
      (pos + Asm.alignPad 3 pos + image.length) :: imageEnds (pos + Asm.alignPad 3 pos + image.length) images

/-- The bytes of the images from `pos` on, each after its padding. -/
def imagesData (pos : Nat) : List (List UInt8) → List UInt8
  | [] => []
  | image :: images =>
      List.replicate (Asm.alignPad 3 pos) 0 ++ image ++ imagesData (pos + Asm.alignPad 3 pos + image.length) images

/-- The padding that `.align 3` puts after image `i`, before the next one; none after the last. -/
def imagePad (pos : Nat) (images : List (List UInt8)) (i : Nat) : Nat :=
  if i + 1 < images.length then Asm.alignPad 3 ((imageEnds pos images).getD i 0) else 0

/-- The labels `app_{idx}_start` and `app_{idx}_end` of the images from `pos` on. -/
def imagesLabels (pos idx : Nat) : List (List UInt8) → List (Symbol × Nat)
  | [] => []
  | image :: images =>
      (.appStart idx, pos + Asm.alignPad 3 pos) :: (.appEnd idx, pos + Asm.alignPad 3 pos + image.length) ::
        imagesLabels (pos + Asm.alignPad 3 pos + image.length) (idx + 1) images

/-- The address of `_app_names`, after the count and the `n + 1` addresses. -/
def namesAddr (base n : Nat) : Nat := base + 8 * (n + 2)

/-- The bytes from `_app_names` on: each name, then a NUL. -/
def namesData (apps : List (List UInt8)) : List UInt8 := apps.flatMap (· ++ [0])

/-- Where the padding of the first image starts. -/
def imagesAddr (base : Nat) (apps : List (List UInt8)) : Nat := namesAddr base apps.length + (namesData apps).length

/-- The symbols whose addresses follow the count: each image's start, then the end of the last. -/
def addrSymbols (n : Nat) : List Symbol := (List.range n).map .appStart ++ [.appEnd (n - 1)]

/-- The labels of `link_app.S` with its `.data` at `base`. -/
def tableLabels (base : Nat) (apps images : List (List UInt8)) : List (Symbol × Nat) :=
  [(.numApp, base), (.appNames, namesAddr base apps.length)] ++ imagesLabels (imagesAddr base apps) 0 images

/-- The bytes of `.data` with the symbols at the addresses `resolve` gives. -/
def tableData (resolve : Symbol → Nat) (base : Nat) (apps images : List (List UInt8)) : List UInt8 :=
  leBytes 8 apps.length ++ (addrSymbols apps.length).flatMap (fun name => leBytes 8 (resolve name)) ++
    namesData apps ++ imagesData (imagesAddr base apps) images

/-- `link_app.S` is its header, the `.quad`s of the addresses, the label `_app_names`, the
names and the images. -/
theorem linkDirectives_eq (apps : List (List UInt8)) :
    linkDirectives apps =
      [.align 3, .sectionData, .global .numApp, .label .numApp, .quad (.num apps.length)] ++
        ((addrSymbols apps.length).map fun name => .quad (.sym name)) ++ [.global .appNames, .label .appNames] ++
        apps.map .string ++ apps.zipIdx.flatMap fun (app, idx) => appBlock app idx := by
  simp only [linkDirectives, addrSymbols, List.map_append, List.map_map, List.append_assoc]
  rfl

namespace Asm

variable {files : List UInt8 → Option (List UInt8)} {resolve : Symbol → Nat}

theorem run_append (a : Asm) (xs ys : List Directive) :
    run files resolve a (xs ++ ys) = (run files resolve a xs).bind fun a => run files resolve a ys := by
  induction xs generalizing a with
  | nil => rfl
  | cons d xs ih =>
      rw [List.cons_append, run, run]
      cases a.step files resolve d with
      | error e => rfl
      | ok a' => exact ih a'

/-- `.quad`s of symbols write their addresses. -/
theorem run_quads (pos : Nat) (labels : List (Symbol × Nat)) (data : List UInt8) (names : List Symbol) :
    run files resolve ⟨true, pos, labels, data⟩ (names.map fun name => .quad (.sym name)) =
      .ok ⟨true, pos + 8 * names.length, labels, data ++ names.flatMap fun name => leBytes 8 (resolve name)⟩ := by
  induction names generalizing pos data with
  | nil => simp [run]
  | cons name names ih =>
      rw [List.map_cons, run, step, emit, if_pos rfl, Except.bind]
      dsimp only
      rw [ih, List.flatMap_cons, List.append_assoc, length_leBytes, List.length_cons]
      congr 2
      omega

/-- `.string`s of plain texts write each text and a NUL. -/
theorem run_strings (pos : Nat) (labels : List (Symbol × Nat)) (data : List UInt8) (texts : List (List UInt8))
    (plain : ∀ text ∈ texts, 0x22 ∉ text ∧ 0x5C ∉ text) :
    run files resolve ⟨true, pos, labels, data⟩ (texts.map .string) =
      .ok ⟨true, pos + (namesData texts).length, labels, data ++ namesData texts⟩ := by
  induction texts generalizing pos data with
  | nil => simp [run, namesData]
  | cons text texts ih =>
      have quiet := plain text List.mem_cons_self
      rw [List.map_cons, run, step, if_neg (by tauto), emit, if_pos rfl, Except.bind,
        ih _ _ fun t member => plain t (List.mem_cons_of_mem _ member)]
      simp only [namesData, List.flatMap_cons, List.length_append, List.length_singleton, List.append_assoc]
      congr 2
      omega

/-- One image: the padding that aligns `app_{idx}_start`, then the file between the labels. -/
theorem run_appBlock (pos : Nat) (labels : List (Symbol × Nat)) (data : List UInt8) (app : List UInt8) (idx : Nat)
    {image : List UInt8} (found : files (app ++ elfExt) = some image) :
    run files resolve ⟨true, pos, labels, data⟩ (appBlock app idx) =
      .ok ⟨true, pos + alignPad 3 pos + image.length,
        labels ++ [(.appStart idx, pos + alignPad 3 pos), (.appEnd idx, pos + alignPad 3 pos + image.length)],
        data ++ (List.replicate (alignPad 3 pos) 0 ++ image)⟩ := by
  simp [appBlock, run, step, emit, found, Except.bind, List.append_assoc]

/-- The images, each aligned and labelled in turn. -/
theorem run_appBlocks (image : List UInt8 → List UInt8) :
    ∀ (apps : List (List UInt8)) (pos idx : Nat) (labels : List (Symbol × Nat)) (data : List UInt8),
      (∀ app ∈ apps, files (app ++ elfExt) = some (image app)) →
      run files resolve ⟨true, pos, labels, data⟩ ((apps.zipIdx idx).flatMap fun (app, idx) => appBlock app idx) =
        .ok ⟨true, pos + (imagesData pos (apps.map image)).length, labels ++ imagesLabels pos idx (apps.map image),
          data ++ imagesData pos (apps.map image)⟩
  | [], pos, idx, labels, data, _ => by simp [run, imagesData, imagesLabels]
  | app :: apps, pos, idx, labels, data, found => by
      rw [List.zipIdx_cons, List.flatMap_cons, run_append, run_appBlock pos labels data app idx
        (found app List.mem_cons_self), Except.bind,
        run_appBlocks image apps _ (idx + 1) _ _ fun app member => found app (List.mem_cons_of_mem _ member)]
      simp only [List.map_cons, imagesData, imagesLabels, List.length_append, List.length_replicate,
        List.append_assoc, List.cons_append, List.nil_append]
      congr 2
      omega

/-- The run of `link_app.S` lays out, for any resolution of the symbols, the count, the
addresses, the names and the aligned images. -/
theorem run_linkDirectives (base : Nat) (apps : List (List UInt8)) (image : List UInt8 → List UInt8)
    (plain : ∀ app ∈ apps, 0x22 ∉ app ∧ 0x5C ∉ app)
    (found : ∀ app ∈ apps, files (app ++ elfExt) = some (image app)) :
    run files resolve ⟨false, base, [], []⟩ (linkDirectives apps) =
      .ok ⟨true, imagesAddr base apps + (imagesData (imagesAddr base apps) (apps.map image)).length,
        tableLabels base apps (apps.map image), tableData resolve base apps (apps.map image)⟩ := by
  have header : run files resolve ⟨false, base, [], []⟩
      [.align 3, .sectionData, .global .numApp, .label .numApp, .quad (.num apps.length)] =
        .ok ⟨true, base + 8, [(.numApp, base)], leBytes 8 apps.length⟩ := by
    simp [run, step, emit, Except.bind]
  have label : run files resolve ⟨true, base + 8 + 8 * (addrSymbols apps.length).length, [(.numApp, base)],
      leBytes 8 apps.length ++ (addrSymbols apps.length).flatMap fun name => leBytes 8 (resolve name)⟩
      [.global .appNames, .label .appNames] =
        .ok ⟨true, namesAddr base apps.length, [(.numApp, base), (.appNames, namesAddr base apps.length)],
          leBytes 8 apps.length ++ (addrSymbols apps.length).flatMap fun name => leBytes 8 (resolve name)⟩ := by
    have addr : base + 8 + 8 * (addrSymbols apps.length).length = namesAddr base apps.length := by
      simp only [addrSymbols, namesAddr, List.length_append, List.length_map, List.length_range,
        List.length_singleton]
      omega
    simp [run, step, addr, Except.bind]
  rw [linkDirectives_eq, run_append, run_append, run_append, run_append, header, Except.bind, run_quads,
    Except.bind, label, Except.bind, run_strings _ _ _ _ plain, Except.bind, run_appBlocks image apps _ 0 _ _ found]
  rfl

end Asm

theorem lookup_cons_self (name : Symbol) (addr : Nat) (rest : List (Symbol × Nat)) :
    ((name, addr) :: rest).lookup name = some addr := by
  rw [List.lookup_cons, beq_self_eq_true]

theorem lookup_cons_of_ne {name other : Symbol} (differ : name ≠ other) (addr : Nat) (rest : List (Symbol × Nat)) :
    ((other, addr) :: rest).lookup name = rest.lookup name := by
  rw [List.lookup_cons, beq_false_of_ne differ]

/-- The label `app_{idx + i}_start` is at the start of image `i`. -/
theorem lookup_imagesLabels_appStart :
    ∀ (images : List (List UInt8)) (pos idx i : Nat),
      (imagesLabels pos idx images).lookup (.appStart (idx + i)) = (imageStarts pos images)[i]?
  | [], pos, idx, i => rfl
  | image :: images, pos, idx, 0 => by rw [imagesLabels, imageStarts, Nat.add_zero, lookup_cons_self]; rfl
  | image :: images, pos, idx, i + 1 => by
      have later := lookup_imagesLabels_appStart images (pos + Asm.alignPad 3 pos + image.length) (idx + 1) i
      rw [show idx + 1 + i = idx + (i + 1) by omega] at later
      rw [imagesLabels, imageStarts, lookup_cons_of_ne (by simp), lookup_cons_of_ne (by simp), later]
      rfl

/-- The label `app_{idx + i}_end` is at the end of image `i`. -/
theorem lookup_imagesLabels_appEnd :
    ∀ (images : List (List UInt8)) (pos idx i : Nat),
      (imagesLabels pos idx images).lookup (.appEnd (idx + i)) = (imageEnds pos images)[i]?
  | [], pos, idx, i => rfl
  | image :: images, pos, idx, 0 => by
      rw [imagesLabels, imageEnds, Nat.add_zero, lookup_cons_of_ne (by simp), lookup_cons_self]
      rfl
  | image :: images, pos, idx, i + 1 => by
      have later := lookup_imagesLabels_appEnd images (pos + Asm.alignPad 3 pos + image.length) (idx + 1) i
      rw [show idx + 1 + i = idx + (i + 1) by omega] at later
      rw [imagesLabels, imageEnds, lookup_cons_of_ne (by simp), lookup_cons_of_ne (by simp), later]
      rfl

@[simp] theorem length_imageStarts : ∀ (pos : Nat) (images : List (List UInt8)),
    (imageStarts pos images).length = images.length
  | _, [] => rfl
  | pos, image :: images => by rw [imageStarts, List.length_cons, length_imageStarts, List.length_cons]

@[simp] theorem length_imageEnds : ∀ (pos : Nat) (images : List (List UInt8)),
    (imageEnds pos images).length = images.length
  | _, [] => rfl
  | pos, image :: images => by rw [imageEnds, List.length_cons, length_imageEnds, List.length_cons]

theorem Asm.alignPad_lt (pow pos : Nat) : Asm.alignPad pow pos < 2 ^ pow :=
  Nat.mod_lt _ (Nat.pow_pos (by decide))

/-- Image `i` ends its length after its start. -/
theorem imageEnds_getD : ∀ (images : List (List UInt8)) (pos i : Nat), i < images.length →
    (imageEnds pos images).getD i 0 = (imageStarts pos images).getD i 0 + (images.getD i []).length
  | [], _, _, outside => absurd outside (Nat.not_lt_zero _)
  | image :: images, pos, 0, _ => rfl
  | image :: images, pos, i + 1, inside => by
      simp only [imageEnds, imageStarts, List.getD_cons_succ]
      exact imageEnds_getD images _ i (by simpa using inside)

/-- Image `i + 1` starts where image `i` ends, after the padding of `.align 3`. -/
theorem imageStarts_getD_succ : ∀ (images : List (List UInt8)) (pos i : Nat), i + 1 < images.length →
    (imageStarts pos images).getD (i + 1) 0 =
      (imageEnds pos images).getD i 0 + Asm.alignPad 3 ((imageEnds pos images).getD i 0)
  | [], _, _, outside => absurd outside (Nat.not_lt_zero _)
  | [_], _, _, outside => absurd outside (by simp)
  | image :: next :: images, pos, 0, _ => rfl
  | image :: next :: images, pos, i + 1, inside => by
      simp only [imageEnds, imageStarts, List.getD_cons_succ] at inside ⊢
      exact imageStarts_getD_succ (next :: images) _ i (by simpa using inside)

/-- From the start of image `i` on, the images' bytes are image `i`, then the later images
laid out from its end. -/
theorem imagesData_drop : ∀ (images : List (List UInt8)) (pos i : Nat), i < images.length →
    pos ≤ (imageStarts pos images).getD i 0 ∧
      (imageStarts pos images).getD i 0 - pos ≤ (imagesData pos images).length ∧
      (imagesData pos images).drop ((imageStarts pos images).getD i 0 - pos) =
        images.getD i [] ++ imagesData ((imageEnds pos images).getD i 0) (images.drop (i + 1))
  | [], _, _, outside => absurd outside (Nat.not_lt_zero _)
  | image :: images, pos, 0, _ => by
      simp only [imageStarts, imageEnds, imagesData, List.getD_cons_zero, List.drop_succ_cons, List.drop_zero,
        show pos + Asm.alignPad 3 pos - pos = Asm.alignPad 3 pos by omega]
      refine ⟨by omega, by simp, ?_⟩
      rw [List.append_assoc, List.drop_left' List.length_replicate]
  | image :: images, pos, i + 1, inside => by
      obtain ⟨low, short, later⟩ :=
        imagesData_drop images (pos + Asm.alignPad 3 pos + image.length) i (by simpa using inside)
      simp only [imageStarts, imageEnds, imagesData, List.getD_cons_succ, List.drop_succ_cons]
      have offset : (imageStarts (pos + Asm.alignPad 3 pos + image.length) images).getD i 0 - pos =
          (List.replicate (Asm.alignPad 3 pos) 0 ++ image).length +
            ((imageStarts (pos + Asm.alignPad 3 pos + image.length) images).getD i 0 -
              (pos + Asm.alignPad 3 pos + image.length)) := by
        simp only [List.length_append, List.length_replicate]
        omega
      refine ⟨by omega, ?_, ?_⟩
      · rw [offset]
        simp only [List.length_append, List.length_replicate]
        omega
      · rw [offset, List.drop_length_add_append, later]

/-- Image `i` and the padding after it lie within the images' bytes, and read back there. -/
theorem imagesData_slice (images : List (List UInt8)) (pos i : Nat) (inside : i < images.length) :
    pos ≤ (imageStarts pos images).getD i 0 ∧
      (imageEnds pos images).getD i 0 + imagePad pos images i ≤ pos + (imagesData pos images).length ∧
      ((imagesData pos images).drop ((imageStarts pos images).getD i 0 - pos)).take
          ((images.getD i []).length + imagePad pos images i) =
        images.getD i [] ++ List.replicate (imagePad pos images i) 0 := by
  obtain ⟨low, short, dropped⟩ := imagesData_drop images pos i inside
  have ends := imageEnds_getD images pos i inside
  -- After image `i` come the padding and the next image, or nothing after the last.
  obtain ⟨tail, padded⟩ : ∃ tail, imagesData ((imageEnds pos images).getD i 0) (images.drop (i + 1)) =
      List.replicate (imagePad pos images i) 0 ++ tail := by
    by_cases later : i + 1 < images.length
    · rw [List.drop_eq_getElem_cons later, imagesData, imagePad, if_pos later, List.append_assoc]
      exact ⟨_, rfl⟩
    · rw [List.drop_eq_nil_of_le (by omega), imagePad, if_neg later]
      exact ⟨[], rfl⟩
  rw [padded, ← List.append_assoc] at dropped
  have long := congrArg List.length dropped
  simp only [List.length_drop, List.length_append, List.length_replicate] at long
  refine ⟨low, by omega, ?_⟩
  rw [dropped, List.take_left' (by simp)]

section Table

variable (base : Nat) (apps images : List (List UInt8))

theorem addrSymbols_getElem?_of_lt {n i : Nat} (below : i < n) : (addrSymbols n)[i]? = some (.appStart i) := by
  rw [addrSymbols, List.getElem?_append_left (by simpa using below)]
  simp [below]

theorem addrSymbols_getElem?_self (n : Nat) : (addrSymbols n)[n]? = some (.appEnd (n - 1)) := by
  rw [addrSymbols, List.getElem?_append_right (by simp)]
  simp

theorem lookup_tableLabels_numApp : (tableLabels base apps images).lookup .numApp = some base :=
  lookup_cons_self _ _ _

theorem lookup_tableLabels_appNames :
    (tableLabels base apps images).lookup .appNames = some (namesAddr base apps.length) := by
  rw [tableLabels, List.cons_append, lookup_cons_of_ne (by simp), List.cons_append, lookup_cons_self]

theorem lookup_tableLabels_appStart (i : Nat) :
    (tableLabels base apps images).lookup (.appStart i) = (imageStarts (imagesAddr base apps) images)[i]? := by
  rw [tableLabels, List.cons_append, lookup_cons_of_ne (by simp), List.cons_append, lookup_cons_of_ne (by simp),
    List.nil_append, ← lookup_imagesLabels_appStart images _ 0 i, Nat.zero_add]

theorem lookup_tableLabels_appEnd (i : Nat) :
    (tableLabels base apps images).lookup (.appEnd i) = (imageEnds (imagesAddr base apps) images)[i]? := by
  rw [tableLabels, List.cons_append, lookup_cons_of_ne (by simp), List.cons_append, lookup_cons_of_ne (by simp),
    List.nil_append, ← lookup_imagesLabels_appEnd images _ 0 i, Nat.zero_add]

end Table

/-- The `.quad`s of `link_app.S` that name a symbol name the addresses of the table. -/
theorem quadSymbols_linkDirectives (apps : List (List UInt8)) :
    (linkDirectives apps).filterMap Directive.quadSymbol? = addrSymbols apps.length := by
  have blocks : (apps.zipIdx.flatMap fun (app, idx) => appBlock app idx).filterMap Directive.quadSymbol? = [] := by
    simp [List.filterMap_flatMap, appBlock, Directive.quadSymbol?]
  rw [linkDirectives_eq, List.filterMap_append, List.filterMap_append, List.filterMap_append,
    List.filterMap_append, blocks, List.filterMap_map, List.filterMap_map]
  simp [Directive.quadSymbol?, Function.comp_def, List.filterMap_cons]

/-- Every `.quad` of `link_app.S` names a symbol with a label, so the second pass resolves
each to its label. -/
theorem assemble_linkDirectives {files : List UInt8 → Option (List UInt8)} (base : Nat) (apps : List (List UInt8))
    (image : List UInt8 → List UInt8) (nonempty : apps ≠ []) (plain : ∀ app ∈ apps, 0x22 ∉ app ∧ 0x5C ∉ app)
    (found : ∀ app ∈ apps, files (app ++ elfExt) = some (image app)) :
    assemble files base (linkDirectives apps) =
      .ok (tableLabels base apps (apps.map image),
        tableData (fun name => ((tableLabels base apps (apps.map image)).lookup name).getD 0) base apps
          (apps.map image)) := by
  have some : apps.length ≠ 0 := fun empty => nonempty (List.length_eq_zero_iff.mp empty)
  have defined : (addrSymbols apps.length).find?
      (fun name => ((tableLabels base apps (apps.map image)).lookup name).isNone) = none := by
    rw [List.find?_eq_none]
    intro name member
    simp only [addrSymbols, List.mem_append, List.mem_map, List.mem_range, List.mem_singleton] at member
    rcases member with ⟨i, below, rfl⟩ | rfl
    · rw [lookup_tableLabels_appStart, List.getElem?_eq_getElem (by simpa using below)]
      simp
    · rw [lookup_tableLabels_appEnd, List.getElem?_eq_getElem (by simp; omega)]
      simp
  unfold assemble
  rw [Asm.run_linkDirectives base apps image plain found]
  simp only [bind, Except.bind, quadSymbols_linkDirectives, defined]
  rw [Asm.run_linkDirectives base apps image plain found]
  rfl

end Layout

section Build

variable {stem : List UInt8} {stems : List (List UInt8)}

/-- A file `stem.elf` with a UTF-8 stem without `.` is named by its stem. -/
theorem appName_elf (noDot : 46 ∉ stem) (valid : Utf8.Valid stem) : appName (stem ++ elfExt) = .ok stem := by
  have ascii : Utf8.Valid elfExt := (@Utf8.valid_of_ascii elfExt (by simp [elfExt])).1
  have dot : (46 : UInt8) ∈ stem ++ elfExt := List.mem_append_right stem (by decide)
  have kept : ∀ b ∈ stem, (b != 46) = true := fun b member => bne_iff_ne.mpr fun same => noDot (same ▸ member)
  rw [appName, if_neg (not_not.mpr (Utf8.valid_append valid ascii).1),
    if_pos dot, List.takeWhile_append_of_pos kept, show List.takeWhile (· != 46) elfExt = [] from rfl,
    List.append_nil]

/-- `build.rs` names the files `stem.elf` by their stems, in sorted order. -/
theorem appNames_elf (plain : ∀ s ∈ stems, 46 ∉ s ∧ Utf8.Valid s) :
    appNames (stems.map (· ++ elfExt)) = .ok (stems.insertionSort (· ≤ ·)) := by
  have named : ∀ stems : List (List UInt8), (∀ s ∈ stems, 46 ∉ s ∧ Utf8.Valid s) →
      (stems.map (· ++ elfExt)).mapM appName = .ok stems := by
    intro stems
    induction stems with
    | nil => intro _; rfl
    | cons s rest ih =>
        intro each
        obtain ⟨noDot, valid⟩ := each s List.mem_cons_self
        rw [List.map_cons, List.mapM_cons, appName_elf noDot valid,
          ih fun t member => each t (List.mem_cons_of_mem _ member)]
        rfl
  rw [appNames, named stems plain]
  rfl

/-- The bytes of the file `app.elf` of the directory. -/
def elfImage (dir : List (List UInt8 × List UInt8)) (app : List UInt8) : List UInt8 :=
  (dir.lookup (app ++ elfExt)).getD []

theorem lookup_elfImage {dir : List (List UInt8 × List UInt8)} (named : dir.map Prod.fst = stems.map (· ++ elfExt))
    {app : List UInt8} (member : app ∈ stems) : dir.lookup (app ++ elfExt) = some (elfImage dir app) := by
  have listed : app ++ elfExt ∈ dir.map Prod.fst := named ▸ List.mem_map_of_mem member
  obtain ⟨image, found⟩ := Option.isSome_iff_exists.mp (Foundation.isSome_lookup_of_mem listed)
  rw [elfImage, found, Option.getD_some]

/-- The table built from files `stem.elf` with UTF-8 stems without `.`, `"` or `\`: the
labels and `.data` of the sorted stems with their files' bytes. -/
theorem buildAppTable_elf {dir : List (List UInt8 × List UInt8)} (named : dir.map Prod.fst = stems.map (· ++ elfExt))
    (nonempty : stems ≠ []) (plain : ∀ s ∈ stems, 46 ∉ s ∧ 0x22 ∉ s ∧ 0x5C ∉ s ∧ Utf8.Valid s) (base : Nat) :
    buildAppTable dir base =
      .ok (tableLabels base (stems.insertionSort (· ≤ ·)) ((stems.insertionSort (· ≤ ·)).map (elfImage dir)),
        tableData (fun name => ((tableLabels base (stems.insertionSort (· ≤ ·))
            ((stems.insertionSort (· ≤ ·)).map (elfImage dir))).lookup name).getD 0)
          base (stems.insertionSort (· ≤ ·)) ((stems.insertionSort (· ≤ ·)).map (elfImage dir))) := by
  have perm := List.perm_insertionSort (· ≤ ·) stems
  have sortedNe : stems.insertionSort (· ≤ ·) ≠ [] := fun empty => nonempty (empty ▸ perm).symm.eq_nil
  have link : linkApp (stems.insertionSort (· ≤ ·)) = .ok (linkDirectives (stems.insertionSort (· ≤ ·))) :=
    if_neg fun zero => sortedNe (List.length_eq_zero_iff.mp zero)
  have quoted : ∀ app ∈ stems.insertionSort (· ≤ ·), 0x22 ∉ app ∧ 0x5C ∉ app := fun app member =>
    ⟨(plain app (perm.subset member)).2.1, (plain app (perm.subset member)).2.2.1⟩
  rw [buildAppTable, named, appNames_elf fun s member => ⟨(plain s member).1, (plain s member).2.2.2⟩]
  simp only [bind, Except.bind, link]
  exact assemble_linkDirectives base _ (elfImage dir) sortedNe quoted
    fun app member => lookup_elfImage named (perm.subset member)

end Build

end LinkApp

end RCore
