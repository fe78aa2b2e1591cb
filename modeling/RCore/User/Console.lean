import RCore.Foundation.Utf8

/-! # The user library's console buffer

`user/src/console.rs`. `print!` formats its arguments into `CONSOLE_BUFFER`, a `VecDeque<u8>`,
through `ConsoleBuffer::write_str`, which pushes the bytes one at a time and hands the buffer
to `write(STDOUT, ..)` after each newline and whenever it holds `CONSOLE_BUFFER_SIZE` bytes;
`flush()` hands over what is left. The byte strings handed to `write` are the model's output
(`RCore.User.ConsoleBuffer.run`), each call answered by a function `write`.

Whatever `write` answers, short of `-1`, the strings written are the printed bytes in order,
each cut after its only newline or at `CONSOLE_BUFFER_SIZE` bytes, and the last one is the
flush (`RCore.User.ConsoleBuffer.run_spec`). The cut at `CONSOLE_BUFFER_SIZE` bytes ignores
character boundaries: a character whose first byte is the 2560th byte of the buffer is split
between two writes, and the first of them is not UTF-8
(`RCore.User.ConsoleBuffer.writeStr_splits_char`), which the kernel's `sys_write` unwraps.
-/

namespace RCore

namespace User

open Foundation

/-- `CONSOLE_BUFFER_SIZE`. -/
def consoleBufferSize : Nat := 256 * 10

/-- `b'\n'`. -/
def newline : UInt8 := 10

/-- `ConsoleBuffer`: the bytes of its `VecDeque`, front first. -/
structure ConsoleBuffer where
  bytes : List UInt8
deriving DecidableEq, Repr

namespace ConsoleBuffer

/-- `ConsoleBuffer::flush`: `write(STDOUT, make_contiguous())`, then `clear()`. -/
def flush (write : List UInt8 → Int) (cb : ConsoleBuffer) : Int × ConsoleBuffer :=
  (write cb.bytes, ⟨[]⟩)

/-- `ConsoleBuffer::write_str` on the bytes of a string: the byte strings handed to `write`, the
buffer after, and whether it returned `Ok`. The `&&` calls `flush` only after a newline or
when the buffer is full, and `-1` from `write` ends it with `Err(fmt::Error)`. -/
def writeStr (write : List UInt8 → Int) : List UInt8 → ConsoleBuffer → List (List UInt8) × ConsoleBuffer × Bool
  | [], cb => ([], cb, true)
  | c :: s, cb =>
      let pushed : ConsoleBuffer := ⟨cb.bytes ++ [c]⟩
      if c = newline ∨ pushed.bytes.length = consoleBufferSize then
        if -1 = (pushed.flush write).1 then ([pushed.bytes], (pushed.flush write).2, false)
        else
          let rest := writeStr write s (pushed.flush write).2
          (pushed.bytes :: rest.1, rest.2)
      else writeStr write s pushed

/-- `write_fmt` on the pieces of one formatted string, each a `&str`: `write_str` of each piece
in turn, up to the first `Err`. -/
def writePieces (write : List UInt8 → Int) :
    List (List UInt8) → ConsoleBuffer → List (List UInt8) × ConsoleBuffer × Bool
  | [], cb => ([], cb, true)
  | piece :: pieces, cb =>
      let first := cb.writeStr write piece
      if first.2.2 then
        let rest := writePieces write pieces first.2.1
        (first.1 ++ rest.1, rest.2)
      else first

/-- A user program's console output: `print!` of each formatted string in turn, whose result
`print` drops, then `flush()`. The byte strings handed to `write`, in order. -/
def run (write : List UInt8 → Int) : List (List (List UInt8)) → ConsoleBuffer → List (List UInt8)
  | [], cb => [cb.bytes]
  | pieces :: prints, cb =>
      let printed := cb.writePieces write pieces
      printed.1 ++ run write prints printed.2.1

/-- Between writes the buffer holds fewer than `CONSOLE_BUFFER_SIZE` bytes and no newline. -/
structure Inv (cb : ConsoleBuffer) : Prop where
  short : cb.bytes.length < consoleBufferSize
  no_newline : newline ∉ cb.bytes

/-- A byte string handed to `write` before the flush: its only newline is its last byte, or it
holds `CONSOLE_BUFFER_SIZE` bytes with no newline before the last. -/
def Cut (w : List UInt8) : Prop :=
  newline ∉ w.dropLast ∧ (w.getLast? = some newline ∨ w.length = consoleBufferSize) ∧
    w.length ≤ consoleBufferSize

theorem inv_empty : Inv ⟨[]⟩ := ⟨by decide, List.not_mem_nil⟩

section Spec

variable {write : List UInt8 → Int}

/-- One byte pushed onto a buffer that keeps `Inv`: it either stays in the buffer, which keeps
`Inv`, or completes a cut string that is written. -/
theorem push_cases (inv : Inv cb) (c : UInt8) :
    (c = newline ∨ (cb.bytes ++ [c]).length = consoleBufferSize → Cut (cb.bytes ++ [c])) ∧
    (¬ (c = newline ∨ (cb.bytes ++ [c]).length = consoleBufferSize) → Inv ⟨cb.bytes ++ [c]⟩) := by
  have short := inv.short
  constructor
  · intro full
    refine ⟨by rw [List.dropLast_concat]; exact inv.no_newline, ?_, ?_⟩
    · rcases full with isNewline | isFull
      · exact .inl (by rw [List.getLast?_concat, isNewline])
      · exact .inr isFull
    · rw [List.length_append, List.length_singleton]
      omega
  · intro notFull
    refine ⟨?_, ?_⟩
    · show (cb.bytes ++ [c]).length < consoleBufferSize
      rw [List.length_append, List.length_singleton] at notFull ⊢
      omega
    · intro member
      rcases List.mem_append.mp member with old | last
      · exact inv.no_newline old
      · exact notFull (.inl (List.mem_singleton.mp last).symm)

/-- `write_str` of a string on a buffer that keeps `Inv`, with no `write` answering `-1`: it
returns `Ok`, the buffer keeps `Inv`, every string written is cut, and the strings written and
the buffer after hold the buffer before and the string, in order. By induction on the string,
one byte each. -/
theorem writeStr_spec (succeeds : ∀ w, write w ≠ -1) :
    ∀ (s : List UInt8) {cb : ConsoleBuffer}, Inv cb →
      (cb.writeStr write s).2.2 = true ∧ Inv (cb.writeStr write s).2.1 ∧
        (∀ w ∈ (cb.writeStr write s).1, Cut w) ∧
        (cb.writeStr write s).1.flatten ++ (cb.writeStr write s).2.1.bytes = cb.bytes ++ s
  | [], cb, inv => ⟨rfl, inv, by simp [writeStr], by simp [writeStr]⟩
  | c :: s, cb, inv => by
      obtain ⟨whenFull, whenNot⟩ := push_cases inv c
      by_cases full : c = newline ∨ (cb.bytes ++ [c]).length = consoleBufferSize
      · -- the pushed byte completes a string, which is written, and the rest starts afresh
        obtain ⟨ok, inv', cut, flat⟩ := writeStr_spec succeeds s inv_empty
        have answered : ¬ -1 = write (cb.bytes ++ [c]) := fun same => succeeds _ same.symm
        have step : cb.writeStr write (c :: s) =
            ((cb.bytes ++ [c]) :: (writeStr write s ⟨[]⟩).1, (writeStr write s ⟨[]⟩).2) := by
          rw [writeStr, if_pos full]
          exact if_neg answered
        rw [step]
        refine ⟨ok, inv', ?_, ?_⟩
        · intro w member
          rcases List.mem_cons.mp member with rfl | later
          · exact whenFull full
          · exact cut w later
        · rw [List.flatten_cons, List.append_assoc, flat]
          simp
      · obtain ⟨ok, inv', cut, flat⟩ := writeStr_spec succeeds s (whenNot full)
        have step : cb.writeStr write (c :: s) = writeStr write s ⟨cb.bytes ++ [c]⟩ := by
          rw [writeStr, if_neg full]
        rw [step]
        exact ⟨ok, inv', cut, by rw [flat, List.append_assoc, List.singleton_append]⟩

/-- `write_fmt` of the pieces of a formatted string: as `write_str` of their concatenation. -/
theorem writePieces_spec (succeeds : ∀ w, write w ≠ -1) :
    ∀ (pieces : List (List UInt8)) {cb : ConsoleBuffer}, Inv cb →
      Inv (cb.writePieces write pieces).2.1 ∧ (∀ w ∈ (cb.writePieces write pieces).1, Cut w) ∧
        (cb.writePieces write pieces).1.flatten ++ (cb.writePieces write pieces).2.1.bytes =
          cb.bytes ++ pieces.flatten
  | [], cb, inv => ⟨inv, by simp [writePieces], by simp [writePieces]⟩
  | piece :: pieces, cb, inv => by
      obtain ⟨ok, inv', cut, flat⟩ := writeStr_spec succeeds piece inv
      obtain ⟨inv'', cut', flat'⟩ := writePieces_spec succeeds pieces inv'
      have step : cb.writePieces write (piece :: pieces) =
          ((cb.writeStr write piece).1 ++ ((cb.writeStr write piece).2.1.writePieces write pieces).1,
            ((cb.writeStr write piece).2.1.writePieces write pieces).2) := by
        rw [writePieces]
        exact if_pos ok
      rw [step]
      refine ⟨inv'', fun w member => ?_, ?_⟩
      · rcases List.mem_append.mp member with first | later
        · exact cut w first
        · exact cut' w later
      · rw [List.flatten_append, List.append_assoc, flat', ← List.append_assoc, flat, List.flatten_cons,
          List.append_assoc]

/-- A user program's console output, with no `write` answering `-1`: the strings written are
the printed bytes in order, every one but the last is cut, and the last, the flush, holds fewer
than `CONSOLE_BUFFER_SIZE` bytes and no newline. By induction on the `print!` calls. -/
theorem run_spec (succeeds : ∀ w, write w ≠ -1) :
    ∀ (prints : List (List (List UInt8))) {cb : ConsoleBuffer}, Inv cb →
      ∃ cuts last, cb.run write prints = cuts ++ [last] ∧ (∀ w ∈ cuts, Cut w) ∧ Inv ⟨last⟩ ∧
        (cuts ++ [last]).flatten = cb.bytes ++ (prints.map List.flatten).flatten
  | [], cb, inv => ⟨[], cb.bytes, rfl, by simp, inv, by simp⟩
  | pieces :: prints, cb, inv => by
      obtain ⟨inv', cut, flat⟩ := writePieces_spec succeeds pieces inv
      obtain ⟨cuts, last, ran, cut', inv'', flat'⟩ := run_spec succeeds prints inv'
      refine ⟨(cb.writePieces write pieces).1 ++ cuts, last, ?_, fun w member => ?_, inv'', ?_⟩
      · rw [run, ran, List.append_assoc]
      · rcases List.mem_append.mp member with first | later
        · exact cut w first
        · exact cut' w later
      · rw [List.append_assoc, List.flatten_append, flat', ← List.append_assoc, flat, List.map_cons,
          List.flatten_cons, List.append_assoc]

end Spec

/-- `write_str` of a string whose first byte of a longer character lands on byte
`CONSOLE_BUFFER_SIZE` of the buffer, with no newline before it: the buffer is written with
that first byte and without the rest of the character, and what is written is not UTF-8,
whatever `write` answers. -/
theorem writeStr_splits_char (write : List UInt8 → Int) (cb : ConsoleBuffer) {pre : List UInt8}
    {lead : UInt8} (rest : List UInt8) (noNewline : newline ∉ pre)
    (fill : cb.bytes.length + pre.length + 1 = consoleBufferSize) (high : 0xC0 ≤ lead.toNat) :
    ∃ later, (cb.writeStr write (pre ++ lead :: rest)).1 = (cb.bytes ++ pre ++ [lead]) :: later ∧
      ¬ Utf8.Valid (cb.bytes ++ pre ++ [lead]) := by
  suffices written : ∃ later, (cb.writeStr write (pre ++ lead :: rest)).1 = (cb.bytes ++ pre ++ [lead]) :: later by
    obtain ⟨later, first⟩ := written
    exact ⟨later, first, Utf8.not_valid_append_lead high⟩
  -- the bytes of `pre` stay in the buffer, which is full only with `lead`
  induction pre generalizing cb with
  | nil =>
      have full : lead = newline ∨ (cb.bytes ++ [lead]).length = consoleBufferSize := by
        refine .inr ?_
        rw [List.length_append, List.length_singleton]
        simpa using fill
      rw [List.nil_append, writeStr, if_pos full, List.append_nil]
      by_cases failed : -1 = ((⟨cb.bytes ++ [lead]⟩ : ConsoleBuffer).flush write).1
      · exact ⟨[], by rw [if_pos failed]⟩
      · exact ⟨_, by rw [if_neg failed]⟩
  | cons c pre ih =>
      have notFull : ¬ (c = newline ∨ (cb.bytes ++ [c]).length = consoleBufferSize) := by
        rintro (isNewline | isFull)
        · exact noNewline (isNewline ▸ List.mem_cons_self)
        · rw [List.length_append, List.length_singleton] at isFull
          rw [List.length_cons] at fill
          omega
      obtain ⟨later, written⟩ := ih ⟨cb.bytes ++ [c]⟩ (fun member => noNewline (List.mem_cons_of_mem _ member))
        (by rw [List.length_append, List.length_singleton]; rw [List.length_cons] at fill; omega)
      refine ⟨later, ?_⟩
      rw [List.cons_append, writeStr, if_neg notFull, written]
      simp

/-- `print!` of 2559 times `a` and then `é`, the bytes `0xC3 0xA9`, on the empty buffer, with
`write` answering the length written as `sys_write` does. -/
theorem writeStr_splits_char_after_2559_bytes :
    newline ∉ List.replicate 2559 0x61 ∧
      (⟨[]⟩ : ConsoleBuffer).bytes.length + (List.replicate 2559 (0x61 : UInt8)).length + 1 = consoleBufferSize ∧
      0xC0 ≤ (0xC3 : UInt8).toNat ∧ Utf8.Valid (List.replicate 2559 0x61 ++ [0xC3, 0xA9]) ∧
      ∃ later, ((⟨[]⟩ : ConsoleBuffer).writeStr (fun w => w.length) (List.replicate 2559 0x61 ++ 0xC3 :: [0xA9])).1 =
          ((⟨[]⟩ : ConsoleBuffer).bytes ++ List.replicate 2559 0x61 ++ [0xC3]) :: later ∧
        ¬ Utf8.Valid ((⟨[]⟩ : ConsoleBuffer).bytes ++ List.replicate 2559 0x61 ++ [0xC3]) := by
  have noNewline : newline ∉ List.replicate 2559 (0x61 : UInt8) := by
    rw [List.mem_replicate]
    decide
  have fill : (⟨[]⟩ : ConsoleBuffer).bytes.length + (List.replicate 2559 (0x61 : UInt8)).length + 1 =
      consoleBufferSize := by
    rw [List.length_replicate]
    rfl
  have ascii : ∀ b ∈ List.replicate 2559 (0x61 : UInt8), b.toNat < 0x80 := by
    intro b member
    rw [List.eq_of_mem_replicate member]
    decide
  have valid : Utf8.Valid (List.replicate 2559 0x61 ++ [0xC3, 0xA9]) :=
    (Utf8.valid_append (Utf8.valid_of_ascii ascii).1 (by decide)).1
  exact ⟨noNewline, fill, by decide, valid,
    writeStr_splits_char (fun w => w.length) ⟨[]⟩ [0xA9] noNewline fill (by decide)⟩

end ConsoleBuffer

end User

end RCore
