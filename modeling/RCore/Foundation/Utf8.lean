import Mathlib

/-! # UTF-8 validation and decoding

`core::str::from_utf8` accepts a byte string when it is a sequence of well-formed UTF-8
characters, as the table of well-formed byte sequences of the Unicode standard gives them
(no overlong form, no surrogate, nothing past `U+10FFFF`), and `str::chars` then decodes it.
Both are one automaton here: `Utf8.step` reads one byte in a `Utf8.Decoder` state, at a
character boundary or inside a character, and emits the code point that a last byte completes.

Running the automaton over a concatenation runs it over the parts in turn
(`Utf8.run_append`). So a concatenation of valid strings is valid and decodes to the
decodings concatenated (`Utf8.valid_append`, `Utf8.chars_append`), while a string that ends
with the first byte of a longer character is never valid, whatever comes before it
(`Utf8.not_valid_append_lead`). `Utf8.fromUtf8` accepts exactly the valid strings
(`Utf8.fromUtf8_eq_ok_iff`) and reports a failure as `core::str::Utf8Error` does.
-/

namespace Foundation

namespace Utf8

/-- Where the decoder stands: at a character boundary, or inside a character whose next byte
must lie in `[lo, hi]`, with `rest` more bytes after it and `acc` the code point's bits read. -/
inductive Decoder where
  | boundary
  | inside (lo hi rest acc : Nat)
deriving DecidableEq, Repr

/-- The first byte of a character: an ASCII character, or the start of a longer one with the
range of its second byte; `none` for a byte that starts no character. -/
def lead (b : Nat) : Option (Decoder × List Nat) :=
  if b < 0x80 then some (.boundary, [b])
  else if 0xC2 ≤ b ∧ b ≤ 0xDF then some (.inside 0x80 0xBF 0 (b % 0x20), [])
  else if b = 0xE0 then some (.inside 0xA0 0xBF 1 (b % 0x10), [])
  else if b = 0xED then some (.inside 0x80 0x9F 1 (b % 0x10), [])
  else if 0xE1 ≤ b ∧ b ≤ 0xEF then some (.inside 0x80 0xBF 1 (b % 0x10), [])
  else if b = 0xF0 then some (.inside 0x90 0xBF 2 (b % 0x08), [])
  else if b = 0xF4 then some (.inside 0x80 0x8F 2 (b % 0x08), [])
  else if 0xF1 ≤ b ∧ b ≤ 0xF3 then some (.inside 0x80 0xBF 2 (b % 0x08), [])
  else none

/-- One byte, with the code point it completes; `none` when it cannot stand here. -/
def step : Decoder → UInt8 → Option (Decoder × List Nat)
  | .boundary, b => lead b.toNat
  | .inside lo hi rest acc, b =>
      if lo ≤ b.toNat ∧ b.toNat ≤ hi then
        match rest with
        | 0 => some (.boundary, [acc * 0x40 + b.toNat % 0x40])
        | rest + 1 => some (.inside 0x80 0xBF rest (acc * 0x40 + b.toNat % 0x40), [])
      else none

theorem step_boundary (b : UInt8) : step .boundary b = lead b.toNat := rfl

theorem step_inside (lo hi rest acc : Nat) (b : UInt8) :
    step (.inside lo hi rest acc) b =
      if lo ≤ b.toNat ∧ b.toNat ≤ hi then
        match rest with
        | 0 => some (.boundary, [acc * 0x40 + b.toNat % 0x40])
        | rest + 1 => some (.inside 0x80 0xBF rest (acc * 0x40 + b.toNat % 0x40), [])
      else none := rfl

/-- The decoder over a byte string: the state it ends in and the code points it emits. -/
def run : Decoder → List UInt8 → Option (Decoder × List Nat)
  | s, [] => some (s, [])
  | s, b :: bs => (step s b).bind fun r => (run r.1 bs).map (Prod.map id (r.2 ++ ·))

/-- A byte string is valid UTF-8: the decoder reads it from a boundary to a boundary. -/
def Valid (bytes : List UInt8) : Prop := (run .boundary bytes).map Prod.fst = some .boundary

instance : DecidablePred Valid := fun _ => inferInstanceAs (Decidable (_ = _))

/-- `str::chars` of a valid string, as code points. -/
def chars (bytes : List UInt8) : List Nat := ((run .boundary bytes).map Prod.snd).getD []

/-- `core::str::Utf8Error`: the length of the longest valid prefix, and the length of the
invalid sequence after it, `none` when the input ends inside a character. -/
structure Utf8Error where
  validUpTo : Nat
  errorLen : Option Nat
deriving DecidableEq, Repr

/-- The loop of `from_utf8` in state `s`, with `validUpTo` bytes before the current character
and `taken` bytes of it read. A byte that cannot stand ends the loop with the bytes of its
sequence before it, at least one, as the invalid length. -/
def validate (s : Decoder) (validUpTo taken : Nat) : List UInt8 → Except Utf8Error Unit
  | [] => if s = .boundary then .ok () else .error ⟨validUpTo, none⟩
  | b :: bs =>
      match step s b with
      | none => .error ⟨validUpTo, some (max taken 1)⟩
      | some (.boundary, _) => validate .boundary (validUpTo + taken + 1) 0 bs
      | some (.inside lo hi rest acc, _) => validate (.inside lo hi rest acc) validUpTo (taken + 1) bs

/-- `core::str::from_utf8`, whose string is the bytes themselves. -/
def fromUtf8 (bytes : List UInt8) : Except Utf8Error Unit := validate .boundary 0 0 bytes

section Run

variable {s : Decoder} {b : UInt8} {xs ys : List UInt8}

@[simp] theorem run_nil (s : Decoder) : run s [] = some (s, []) := rfl

theorem run_cons (s : Decoder) (b : UInt8) (bs : List UInt8) :
    run s (b :: bs) = (step s b).bind fun r => (run r.1 bs).map (Prod.map id (r.2 ++ ·)) := rfl

theorem run_append (s : Decoder) (xs ys : List UInt8) :
    run s (xs ++ ys) = (run s xs).bind fun r => (run r.1 ys).map (Prod.map id (r.2 ++ ·)) := by
  induction xs generalizing s with
  | nil =>
      rw [List.nil_append, run_nil, Option.bind_some]
      cases run s ys <;> rfl
  | cons b xs ih =>
      rw [List.cons_append, run_cons, run_cons]
      cases step s b with
      | none => rfl
      | some r =>
          simp only [Option.bind_some, ih, Option.map_bind, Option.bind_map]
          congr 1
          funext r'
          rw [Function.comp_apply, Option.map_map]
          show (run r'.1 ys).map _ = (run r'.1 ys).map _
          congr 1
          funext r''
          simp [Prod.map, List.append_assoc]

/-- The state a run ends in, seen through `Prod.fst`, does not depend on the output. -/
theorem run_fst_cons (s : Decoder) (b : UInt8) (bs : List UInt8) :
    (run s (b :: bs)).map Prod.fst = (step s b).bind fun r => (run r.1 bs).map Prod.fst := by
  rw [run_cons]
  cases step s b with
  | none => rfl
  | some r =>
      simp only [Option.bind_some, Option.map_map]
      rfl

end Run

/-- The states a run from a boundary reaches: inside a character, the next byte is a
continuation byte, at most `0xBF`. -/
def Decoder.Reachable : Decoder → Prop
  | .boundary => True
  | .inside _ hi _ _ => hi ≤ 0xBF

theorem lead_reachable {b : Nat} {r : Decoder × List Nat} (started : lead b = some r) : r.1.Reachable := by
  unfold lead at started
  split_ifs at started <;> cases started <;> simp [Decoder.Reachable]

/-- A step keeps the decoder in a reachable state. -/
theorem step_reachable {s : Decoder} {b : UInt8} {r : Decoder × List Nat} (reachable : s.Reachable)
    (stepped : step s b = some r) : r.1.Reachable := by
  cases s with
  | boundary => exact lead_reachable stepped
  | inside lo hi rest acc =>
      by_cases continues : lo ≤ b.toNat ∧ b.toNat ≤ hi
      · rw [step_inside, if_pos continues] at stepped
        cases rest with
        | zero =>
            cases stepped
            trivial
        | succ rest =>
            cases stepped
            show 0xBF ≤ 0xBF
            exact le_rfl
      · rw [step_inside, if_neg continues] at stepped
        cases stepped

/-- A run keeps the decoder in a reachable state; by induction on the bytes, one step each. -/
theorem run_reachable {s : Decoder} {r : Decoder × List Nat} :
    ∀ {bs : List UInt8}, s.Reachable → run s bs = some r → r.1.Reachable
  | [], reachable, ran => by
      cases ran
      exact reachable
  | b :: bs, reachable, ran => by
      rw [run_cons] at ran
      obtain ⟨r', stepped, rest⟩ := Option.bind_eq_some_iff.mp ran
      obtain ⟨r'', ran', rfl⟩ := Option.map_eq_some_iff.mp rest
      exact run_reachable (r := r'') (step_reachable reachable stepped) ran'

/-- No reachable state reads a byte from `0xC0` on back to a boundary: such a byte starts a
longer character or none, and no character continues with it. -/
theorem step_lead_ne_boundary {s : Decoder} {b : UInt8} (reachable : s.Reachable) (high : 0xC0 ≤ b.toNat) :
    (step s b).map Prod.fst ≠ some .boundary := by
  cases s with
  | boundary =>
      show (lead b.toNat).map Prod.fst ≠ _
      have small := b.toNat_lt
      unfold lead
      repeat' split
      all_goals first | omega | simp
  | inside lo hi rest acc =>
      have bounded : hi ≤ 0xBF := reachable
      rw [step_inside, if_neg (by omega)]
      simp

section Valid

variable {xs ys : List UInt8}

theorem valid_iff_exists : Valid xs ↔ ∃ out, run .boundary xs = some (.boundary, out) := by
  unfold Valid
  constructor
  · intro valid
    obtain ⟨⟨s, out⟩, ran, same⟩ := Option.map_eq_some_iff.mp valid
    cases same
    exact ⟨out, ran⟩
  · rintro ⟨out, ran⟩
    rw [ran]
    rfl

theorem valid_nil : Valid [] := rfl

theorem chars_eq_of_run {out : List Nat} (ran : run .boundary xs = some (.boundary, out)) : chars xs = out := by
  rw [chars, ran]
  rfl

/-- A valid string followed by a valid string is valid and decodes to both decodings in turn. -/
theorem valid_append (first : Valid xs) (second : Valid ys) :
    Valid (xs ++ ys) ∧ chars (xs ++ ys) = chars xs ++ chars ys := by
  obtain ⟨out, ran⟩ := valid_iff_exists.mp first
  obtain ⟨out', ran'⟩ := valid_iff_exists.mp second
  have whole : run .boundary (xs ++ ys) = some (.boundary, out ++ out') := by
    rw [run_append, ran, Option.bind_some, ran']
    rfl
  exact ⟨valid_iff_exists.mpr ⟨_, whole⟩, by
    rw [chars_eq_of_run whole, chars_eq_of_run ran, chars_eq_of_run ran']⟩

theorem chars_append (first : Valid xs) (second : Valid ys) : chars (xs ++ ys) = chars xs ++ chars ys :=
  (valid_append first second).2

/-- A string of valid strings is valid and decodes to their decodings in turn. -/
theorem valid_flatten : ∀ {pieces : List (List UInt8)}, (∀ piece ∈ pieces, Valid piece) →
    Valid pieces.flatten ∧ chars pieces.flatten = pieces.flatMap chars
  | [], _ => ⟨valid_nil, rfl⟩
  | piece :: pieces, valid => by
      obtain ⟨rest, restChars⟩ := valid_flatten fun p member => valid p (List.mem_cons_of_mem _ member)
      have head := valid piece List.mem_cons_self
      rw [List.flatten_cons, List.flatMap_cons, chars_append head rest, restChars]
      exact ⟨(valid_append head rest).1, rfl⟩

/-- ASCII bytes are valid, each its own character. -/
theorem valid_of_ascii : ∀ {bytes : List UInt8}, (∀ b ∈ bytes, b.toNat < 0x80) →
    Valid bytes ∧ chars bytes = bytes.map UInt8.toNat
  | [], _ => ⟨valid_nil, rfl⟩
  | b :: bs, ascii => by
      obtain ⟨tailValid, tailChars⟩ := valid_of_ascii fun c member => ascii c (List.mem_cons_of_mem _ member)
      obtain ⟨out, ran⟩ := valid_iff_exists.mp tailValid
      have rest : bs.map UInt8.toNat = out := by rw [← tailChars, chars_eq_of_run ran]
      have whole : run .boundary (b :: bs) = some (.boundary, b.toNat :: out) := by
        rw [run_cons, step_boundary, lead, if_pos (ascii b List.mem_cons_self), Option.bind_some, ran]
        rfl
      exact ⟨valid_iff_exists.mpr ⟨_, whole⟩, by rw [chars_eq_of_run whole, List.map_cons, rest]⟩

/-- A string that ends with a byte from `0xC0` on, the first byte of a longer character or of
none, is not valid, whatever comes before it. -/
theorem not_valid_append_lead {b : UInt8} (high : 0xC0 ≤ b.toNat) : ¬ Valid (xs ++ [b]) := by
  intro valid
  obtain ⟨out, ran⟩ := valid_iff_exists.mp valid
  rw [run_append] at ran
  obtain ⟨r, before, last⟩ := Option.bind_eq_some_iff.mp ran
  have reachable : r.1.Reachable := run_reachable (show Decoder.Reachable .boundary from trivial) before
  have ends : (run r.1 [b]).map Prod.fst = some .boundary := by
    obtain ⟨r', ran', same⟩ := Option.map_eq_some_iff.mp last
    rw [ran']
    exact congrArg some (congrArg Prod.fst same)
  rw [run_fst_cons] at ends
  apply step_lead_ne_boundary reachable high
  cases stepped : step r.1 b with
  | none =>
      rw [stepped] at ends
      cases ends
  | some r' =>
      rw [stepped] at ends
      simp only [Option.bind_some, run_nil, Option.map_some] at ends
      rw [Option.map_some, ends]

end Valid

/-- The loop of `from_utf8` succeeds exactly when the decoder ends at a boundary; by induction
on the bytes, whatever the counts it carries. -/
theorem validate_eq_ok_iff : ∀ {bs : List UInt8} {s : Decoder} {validUpTo taken : Nat},
    validate s validUpTo taken bs = .ok () ↔ (run s bs).map Prod.fst = some .boundary
  | [], s, validUpTo, taken => by
      simp only [validate, run_nil, Option.map_some, Option.some.injEq]
      split
      case isTrue same => exact ⟨fun _ => same, fun _ => rfl⟩
      case isFalse other => exact ⟨fun failed => (by cases failed), fun same => absurd same other⟩
  | b :: bs, s, validUpTo, taken => by
      rw [run_fst_cons, validate]
      cases stepped : step s b with
      | none => exact ⟨fun failed => (by cases failed), fun ran => (by cases ran)⟩
      | some r =>
          obtain ⟨s', out⟩ := r
          rw [Option.bind_some]
          cases s' with
          | boundary => exact validate_eq_ok_iff
          | inside lo hi rest acc => exact validate_eq_ok_iff

theorem fromUtf8_eq_ok_iff (bytes : List UInt8) : fromUtf8 bytes = .ok () ↔ Valid bytes :=
  validate_eq_ok_iff

/-- `é`, `U+00E9`, is the two bytes `0xC3 0xA9`. -/
example : chars [0xC3, 0xA9] = [0xE9] := by decide

example : fromUtf8 [0xC3] = .error ⟨0, none⟩ := by decide

end Utf8

end Foundation
