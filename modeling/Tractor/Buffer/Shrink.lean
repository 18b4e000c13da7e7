import Tractor.Buffer.Refinement

/-!
`Buffer::shrink`, which moves the readable bytes into a new vector and leaves the two
indices as they were.

The new vector has the readable bytes behind the reserved prefix; `makeSpace`, which
moves them to the same place, sets the indices for it.  So the contents are kept when
the reader index was there before.

* `Buffer.shrink`: the code, with the exception of the vector's constructor and the two
  copies outside a vector as the faults.
* `Buffer.KeptByShrink`: what `shrink` is for.
* `Buffer.ShrinkSafe`: when it does that.
* `shrink_keeps_iff`: the condition is exact in any state, and runs whose steps meet it
  never leave the invariant of the class.
-/

namespace Tractor

open Library

/-- How `shrink` fails: the exception of `std::vector<char> buf(n)`, and the undefined
behaviour of a `std::copy` that reads or writes outside its vector. -/
inductive ShrinkFault where
  | lengthError
  | copySource
  | copyTarget
  deriving DecidableEq, Repr

namespace Buffer

/-- The bytes copied into a new vector of `size` bytes, which is swapped in.  The indices
are not touched. -/
def swapIn (b : Buffer) (size : ℕ) : Buffer :=
  { b with buffer := overwrite (List.replicate size 0) kCheapPrepend b.readable }

/-- `shrink(reserve)`. -/
def shrink (b : Buffer) (reserve : ℕ) : Except ShrinkFault Buffer := do
  let size := addSize (addSize kCheapPrepend b.readableBytes) reserve
  check (size ≤ maxSize) .lengthError
  check (b.readerIndex + b.readableBytes ≤ b.buffer.length) .copySource
  check (kCheapPrepend + b.readableBytes ≤ size) .copyTarget
  pure (b.swapIn size)

/-- `shrink` keeps the readable bytes, leaves the indices in bounds and makes `reserve`
bytes writable, or throws before it has changed anything. -/
def KeptByShrink (b : Buffer) (reserve : ℕ) : Prop :=
  b.shrink reserve = .error .lengthError ∨
    ∃ b', b.shrink reserve = .ok b' ∧ b'.readable = b.readable ∧ b'.InBounds ∧
      reserve ≤ b'.writableBytes

/-- No vector can be that long; or the buffer is in bounds, the new size does not wrap, and
the reader index is where `shrink` puts the bytes, or in front of it with nothing but zero
bytes to read. -/
def ShrinkSafe (b : Buffer) (reserve : ℕ) : Prop :=
  maxSize < addSize (addSize kCheapPrepend b.readableBytes) reserve ∨
    b.InBounds ∧ kCheapPrepend + b.readableBytes + reserve < wordSize ∧
      (b.readerIndex = kCheapPrepend ∨
        b.readerIndex < kCheapPrepend ∧ ∀ x ∈ b.readable, x = 0)

section Shrink

variable {b b' : Buffer} {reserve : ℕ}

lemma shrink_eq_lengthError_iff :
    b.shrink reserve = .error .lengthError ↔
      maxSize < addSize (addSize kCheapPrepend b.readableBytes) reserve := by
  rw [shrink]
  simp only [check_bind_eq_error, reduceCtorEq, and_false, and_true, not_le]
  simp [pure, Except.pure]

lemma shrink_eq_ok_iff :
    b.shrink reserve = .ok b' ↔
      addSize (addSize kCheapPrepend b.readableBytes) reserve ≤ maxSize ∧
      b.readerIndex + b.readableBytes ≤ b.buffer.length ∧
      kCheapPrepend + b.readableBytes
        ≤ addSize (addSize kCheapPrepend b.readableBytes) reserve ∧
      b.swapIn (addSize (addSize kCheapPrepend b.readableBytes) reserve) = b' := by
  rw [shrink, check_bind_eq_ok, check_bind_eq_ok, check_bind_eq_ok]
  refine and_congr_right fun _ => and_congr_right fun _ => and_congr_right fun _ => ?_
  exact ⟨Except.ok.inj, congrArg Except.ok⟩

/-- A size that leaves room for the bytes behind the prefix did not wrap. -/
lemma size_eq_of_le (hres : reserve < wordSize)
    (hroom : kCheapPrepend + b.readableBytes
      ≤ addSize (addSize kCheapPrepend b.readableBytes) reserve) :
    kCheapPrepend + b.readableBytes + reserve < wordSize ∧
      addSize (addSize kCheapPrepend b.readableBytes) reserve
        = kCheapPrepend + b.readableBytes + reserve := by
  simp only [addSize] at *
  split_ifs at * <;> omega

lemma length_swapIn (hin : b.InBounds) {n : ℕ} (hn : kCheapPrepend + b.readableBytes ≤ n) :
    (b.swapIn n).buffer.length = n := by
  have hlen := hin.length_readable
  rw [swapIn, length_overwrite (by rw [List.length_replicate]; omega), List.length_replicate]

/-- Behind a reader index no larger than the reserved prefix, what is left of the prefix
comes before the bytes. -/
lemma swapIn_readable (hin : b.InBounds) (hr : b.readerIndex ≤ kCheapPrepend) {n : ℕ}
    (hn : kCheapPrepend + b.readableBytes ≤ n) :
    (b.swapIn n).readable
      = (List.replicate (kCheapPrepend - b.readerIndex) 0 ++ b.readable).take
          b.readable.length := by
  have htake : (List.replicate n (0 : Byte)).take kCheapPrepend
      = List.replicate kCheapPrepend 0 := by
    rw [List.take_replicate, min_eq_left (by omega)]
  have hbytes : (b.swapIn n).readableBytes = b.readable.length := hin.length_readable.symm
  set behind : List Byte := (List.replicate n 0).drop (kCheapPrepend + b.readable.length)
  calc (b.swapIn n).readable
      = ((List.replicate kCheapPrepend (0 : Byte) ++ (b.readable ++ behind)).drop
          b.readerIndex).take b.readable.length := by
        rw [readable, hbytes, swapIn, overwrite, htake, List.append_assoc]
    _ = (List.replicate (kCheapPrepend - b.readerIndex) (0 : Byte)
          ++ (b.readable ++ behind)).take b.readable.length := by
        rw [List.drop_append_of_le_length (by simpa using hr), List.drop_replicate]
    _ = (List.replicate (kCheapPrepend - b.readerIndex) (0 : Byte) ++ b.readable).take
          b.readable.length := by
        rw [← List.append_assoc, List.take_append_of_le_length (by simp)]

/-- In bounds, the new layout and the old indices agree on the bytes exactly if the reader
index stands at the end of the prefix, or everything in sight is zero. -/
lemma swapIn_readable_eq_iff (hin : b.InBounds) (hr : b.readerIndex ≤ kCheapPrepend) {n : ℕ}
    (hn : kCheapPrepend + b.readableBytes ≤ n) :
    (b.swapIn n).readable = b.readable ↔
      b.readerIndex = kCheapPrepend ∨
        b.readerIndex < kCheapPrepend ∧ ∀ x ∈ b.readable, x = 0 := by
  rw [swapIn_readable hin hr hn]
  rcases hr.eq_or_lt with heq | hlt
  · rw [heq, Nat.sub_self, List.replicate_zero, List.nil_append, List.take_length]
    exact iff_of_true rfl (Or.inl rfl)
  · rw [show kCheapPrepend - b.readerIndex = kCheapPrepend - b.readerIndex - 1 + 1 by omega,
      take_replicate_append_eq_iff]
    exact ⟨fun h => Or.inr ⟨hlt, h⟩, fun h => (h.resolve_left hlt.ne).2⟩

/-- The bytes writable in the new layout. -/
lemma swapIn_writable_iff (hin : b.InBounds) (reserve : ℕ) :
    (b.swapIn (kCheapPrepend + b.readableBytes + reserve)).InBounds ∧
        reserve ≤ (b.swapIn (kCheapPrepend + b.readableBytes + reserve)).writableBytes ↔
      b.readerIndex ≤ kCheapPrepend := by
  have hlen := length_swapIn hin (Nat.le_add_right (kCheapPrepend + b.readableBytes) reserve)
  have hbytes : b.readableBytes = b.writerIndex - b.readerIndex := subSize_of_le hin.1
  have hreader := hin.1
  have hr : (b.swapIn (kCheapPrepend + b.readableBytes + reserve)).readerIndex
      = b.readerIndex := rfl
  have hw : (b.swapIn (kCheapPrepend + b.readableBytes + reserve)).writerIndex
      = b.writerIndex := rfl
  rw [InBounds, writableBytes, hlen, hr, hw]
  constructor
  · rintro ⟨⟨-, hwriter⟩, hwritable⟩
    rw [subSize_of_le hwriter] at hwritable
    omega
  · intro hle
    have hwriter : b.writerIndex ≤ kCheapPrepend + b.readableBytes + reserve := by omega
    rw [subSize_of_le hwriter]
    exact ⟨⟨hreader, hwriter⟩, by omega⟩

/-- **`shrink` keeps the contents exactly if the indices already describe the new
layout.** -/
theorem keptByShrink_iff (hres : reserve < wordSize) :
    b.KeptByShrink reserve ↔ b.ShrinkSafe reserve := by
  rw [KeptByShrink, ShrinkSafe, shrink_eq_lengthError_iff]
  refine or_congr_right' fun hmax => ?_
  rw [not_lt] at hmax
  simp only [shrink_eq_ok_iff]
  constructor
  · rintro ⟨_, ⟨-, hsource, hroom, rfl⟩, hread, hin', hwritable⟩
    obtain ⟨hword, hsize⟩ := size_eq_of_le hres hroom
    -- the indices are the old ones, so the source of the copy was the readable range
    have hreader : b.readerIndex ≤ b.writerIndex := hin'.1
    have hbytes : b.readableBytes = b.writerIndex - b.readerIndex := subSize_of_le hreader
    have hin : b.InBounds := ⟨hreader, by omega⟩
    rw [hsize] at hread hin' hwritable
    have hr := (swapIn_writable_iff hin reserve).mp ⟨hin', hwritable⟩
    exact ⟨hin, hword, (swapIn_readable_eq_iff hin hr (Nat.le_add_right _ _)).mp hread⟩
  · rintro ⟨hin, hword, hidx⟩
    have hr : b.readerIndex ≤ kCheapPrepend := hidx.elim le_of_eq fun h => h.1.le
    have hsize : addSize (addSize kCheapPrepend b.readableBytes) reserve
        = kCheapPrepend + b.readableBytes + reserve := by
      rw [addSize_of_lt (a := kCheapPrepend) (by omega), addSize_of_lt hword]
    obtain ⟨hin', hwritable⟩ := (swapIn_writable_iff hin reserve).mpr hr
    rw [hsize] at hmax ⊢
    refine ⟨_, ⟨hmax, ?_, Nat.le_add_right _ _, rfl⟩,
      (swapIn_readable_eq_iff hin hr (Nat.le_add_right _ _)).mpr hidx, hin', hwritable⟩
    rw [readableBytes, subSize_of_le hin.1]
    have := hin.1
    have := hin.2
    omega

/-- A safe `shrink` keeps the invariant of the class. -/
lemma shrink_spec (h : b.Valid) (hres : reserve < wordSize) (hsafe : b.ShrinkSafe reserve) :
    b.shrink reserve = .error .lengthError ∨
      ∃ b', b.shrink reserve = .ok b' ∧ b'.Valid ∧ b'.readable = b.readable := by
  rcases (keptByShrink_iff hres).mpr hsafe with herr | ⟨b', hok, hread, hin, -⟩
  · exact Or.inl herr
  · refine Or.inr ⟨b', hok, ?_, hread⟩
    obtain ⟨hmax, -, hroom, rfl⟩ := shrink_eq_ok_iff.mp hok
    exact ⟨hin.1, hin.2, h.prepend_le, (length_swapIn h.inBounds hroom).trans_le hmax⟩

end Shrink

end Buffer

/-! ### Runs with `shrink` -/

/-- A step of a program that owns the buffers `ι` and also calls `shrink`. -/
inductive ShrinkingOp (ι : Type) where
  | call (op : BuffersOp ι)
  | shrink (i : ι) (reserve : ℕ)

namespace ShrinkingOp

variable {ι : Type} [DecidableEq ι]

/-- One step on the buffers and on the byte lists they stand for, which `shrink` leaves
alone. -/
def step (s : (ι → Buffer) × (ι → List Byte)) :
    ShrinkingOp ι → Option ((ι → Buffer) × (ι → List Byte))
  | call op => (BuffersOp.step s.1 op).toOption.map fun w => (w, BuffersOp.queueStep s.2 op)
  | shrink i reserve =>
      ((s.1 i).shrink reserve).toOption.map fun b => (Function.update s.1 i b, s.2)

/-- The step meets its asserted precondition, no request wraps, and a `shrink` is safe. -/
def Safe (s : (ι → Buffer) × (ι → List Byte)) : ShrinkingOp ι → Prop
  | call op => op.Pre s.1 ∧ op.NoWrap s.1
  | shrink i reserve => reserve < wordSize ∧ (s.1 i).ShrinkSafe reserve

lemma simulates_step {s s' : (ι → Buffer) × (ι → List Byte)} {op : ShrinkingOp ι}
    (h : Simulates s.1 s.2) (hsafe : Safe s op) (hstep : step s op = some s') :
    Simulates s'.1 s'.2 := by
  cases op with
  | call op =>
      obtain ⟨w, hw, rfl⟩ := Option.map_eq_some_iff.mp hstep
      rw [toOption_eq_some] at hw
      rcases h.step hsafe.1 hsafe.2 with herr | ⟨w', hok, hw'⟩
      · rw [herr] at hw
        cases hw
      · obtain rfl := Except.ok.inj (hok.symm.trans hw)
        exact hw'
  | shrink i reserve =>
      obtain ⟨b, hb, rfl⟩ := Option.map_eq_some_iff.mp hstep
      rw [toOption_eq_some] at hb
      rcases Buffer.shrink_spec (h i).1 hsafe.1 hsafe.2 with herr | ⟨b', hok, hv, hread⟩
      · rw [herr] at hb
        cases hb
      · obtain rfl := Except.ok.inj (hok.symm.trans hb)
        intro j
        by_cases hj : j = i
        · subst hj
          simp only [Function.update_self]
          exact ⟨hv, hread.trans (h j).2⟩
        · simp only [Function.update_of_ne hj]
          exact h j

/-- **When `shrink` keeps the contents.**  In any state of a buffer: if no vector of the new
size exists, or the buffer is in bounds, the size does not wrap, and the reader index stands
at the end of the reserved prefix (or in front of it with only zero bytes to read).  A run
whose steps all meet this stays in step with the byte lists, `shrink` leaving them alone. -/
theorem shrink_keeps_iff (ι : Type) [DecidableEq ι] :
    (∀ (b : Buffer) (reserve : ℕ), reserve < wordSize →
      (b.KeptByShrink reserve ↔ b.ShrinkSafe reserve)) ∧
    ∀ s : (ι → Buffer) × (ι → List Byte),
      Reach step Safe (fun _ => Buffer.new, fun _ => []) s → InStep s.1 s.2 := by
  refine ⟨fun b reserve => Buffer.keptByShrink_iff, fun s hreach => ?_⟩
  have hsim : Simulates s.1 s.2 := by
    refine hreach.invariant (I := fun s => Simulates s.1 s.2) ?_ simulates_new
    intro s op s' hs hsafe hstep
    exact simulates_step hs hsafe hstep
  exact hsim.inStep

/-- Three bytes are appended to a new buffer, whose reader index is where `shrink` expects it;
`shrink(16)` keeps them and makes sixteen more writable. -/
theorem shrink_keeps_iff_appended :
    ∃ b b', Buffer.new.append [71, 69, 84] = .ok b ∧ b.KeptByShrink 16 ∧ b.shrink 16 = .ok b' ∧
      b'.readable = [71, 69, 84] ∧ b'.writableBytes = 16 ∧
      InStep (fun _ : Unit => b') fun _ => [71, 69, 84] := by
  set b : Buffer :=
    { buffer := overwrite Buffer.new.buffer 8 [71, 69, 84]
      readerIndex := 8
      writerIndex := 11 } with hb
  have happend : Buffer.new.append [71, 69, 84] = .ok b := by decide +kernel
  have hshrink : b.shrink 16 = .ok (b.swapIn 27) := by decide +kernel
  have hword : 16 < wordSize := by simp only [wordSize]; norm_num
  have hmax : ([71, 69, 84] : List Byte).length ≤ maxSize := by simp only [maxSize]; norm_num
  have hsafe : b.ShrinkSafe 16 := by
    refine Or.inr ⟨⟨by decide, by decide +kernel⟩, ?_, Or.inl rfl⟩
    rw [show Buffer.kCheapPrepend + b.readableBytes + 16 = 27 by decide +kernel, wordSize]
    norm_num
  have hcall : step (fun _ : Unit => Buffer.new, fun _ => [])
      (.call (.on () (.append [71, 69, 84]))) = some (fun _ => b, fun _ => [71, 69, 84]) := by
    simp only [step, BuffersOp.step, BufferOp.exec, happend]
    rfl
  have hshrunk : step (fun _ : Unit => b, fun _ => [71, 69, 84]) (.shrink () 16) =
      some (fun _ => b.swapIn 27, fun _ => [71, 69, 84]) := by
    simp only [step, hshrink]
    rfl
  have happended : Reach step Safe (fun _ : Unit => Buffer.new, fun _ => [])
      (fun _ => b, fun _ => [71, 69, 84]) :=
    (Reach.refl _).tail (a := .call (.on () (.append [71, 69, 84]))) ⟨hmax, trivial⟩ hcall
  have hreach := happended.tail (a := .shrink () 16) ⟨hword, hsafe⟩ hshrunk
  exact ⟨b, b.swapIn 27, happend, ((shrink_keeps_iff Unit).1 b 16 hword).mpr hsafe, hshrink,
    by decide +kernel, by decide +kernel, (shrink_keeps_iff Unit).2 _ hreach⟩

/-- Two bytes are readable behind a retrieved one; `shrink(16)` leaves the second of them
and a zero byte, with `15` bytes writable. -/
theorem shrink_behind_retrieve :
    ∃ b b', (Buffer.new.append [71, 69, 84] >>= fun b => b.retrieve 1) = .ok b ∧
      b.readable = [69, 84] ∧ b.shrink 16 = .ok b' ∧ b'.readable = [84, 0] ∧
      b'.writableBytes = 15 ∧ ¬ b.KeptByShrink 16 := by
  set b : Buffer :=
    { buffer := overwrite Buffer.new.buffer 8 [71, 69, 84]
      readerIndex := 9
      writerIndex := 11 } with hb
  have hok : b.shrink 16 = .ok (b.swapIn 26) := by decide +kernel
  refine ⟨b, b.swapIn 26, by decide +kernel, by decide +kernel, hok, by decide +kernel,
    by decide +kernel, ?_⟩
  rintro (herr | ⟨b', hok', hread, -⟩)
  · rw [hok] at herr
    cases herr
  · obtain rfl := Except.ok.inj (hok.symm.trans hok')
    exact absurd hread (by decide +kernel)

end ShrinkingOp

end Tractor
