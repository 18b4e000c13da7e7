import Tractor.Buffer.Refinement

/-!
How far the vector of a `Buffer` grows.

`retrieve` never moves the indices back, so the space in front of the reader index
comes back only through `makeSpace`, which slides when that space is enough and
grows the vector otherwise.  A vector that grows was therefore short for what is
readable and what is asked for.

* `Buffer.Indexed`: what the indices and the size keep to in any run, also behind a
  request that wrapped `size_t` and left the writer index outside the vector.
* `Buffer.Grows`: the size is unchanged, or the vector was too short and is not made
  longer than the request accounts for.
* `BufferOp.Defined`: the asserted precondition, and no byte stored outside the
  vector.
* `BufferOp.exec_growth`: one operation keeps `Indexed` and grows the vector only for
  a request it makes.
* `BufferOp.growth_bounded`: the bounds in every run.
-/

namespace Tractor

open Library

namespace Buffer

/-! ### The indices of any run -/

/-- The indices are in order and, as the size, no larger than a vector can be.  The
writer index may lie behind the vector. -/
structure Indexed (b : Buffer) : Prop where
  reader_le : b.readerIndex ≤ b.writerIndex
  prepend_le : kCheapPrepend ≤ b.writerIndex
  writer_le : b.writerIndex ≤ maxSize
  size_le : b.buffer.length ≤ maxSize

lemma Valid.indexed {b : Buffer} (h : b.Valid) : b.Indexed :=
  ⟨h.reader_le, h.prepend_le, h.writer_le.trans h.size_le, h.size_le⟩

/-- With the writer index inside the vector this is the invariant of the class. -/
lemma Indexed.valid {b : Buffer} (h : b.Indexed) (hin : b.writerIndex ≤ b.buffer.length) :
    b.Valid :=
  ⟨h.reader_le, hin, h.prepend_le, h.size_le⟩

lemma cheapPrepend_le_maxSize : kCheapPrepend ≤ maxSize := by
  simp only [kCheapPrepend, maxSize]
  norm_num

section Growth

variable {b b' : Buffer} {len : ℕ}

lemma Indexed.readableBytes_eq (h : b.Indexed) :
    b.readableBytes = b.writerIndex - b.readerIndex :=
  subSize_of_le h.reader_le

lemma Indexed.retrieve (h : b.Indexed) (hok : b.retrieve len = .ok b') :
    b'.Indexed ∧ b'.buffer.length = b.buffer.length := by
  obtain ⟨hlen, hok⟩ := check_bind_eq_ok.mp hok
  obtain rfl := Except.ok.inj hok
  rw [h.readableBytes_eq] at hlen
  have hreader := h.reader_le
  have hwriter := h.writer_le
  have hhalf := two_mul_maxSize_lt
  have hidx : addSize b.readerIndex len = b.readerIndex + len := addSize_of_lt (by omega)
  refine ⟨⟨?_, h.prepend_le, h.writer_le, h.size_le⟩, rfl⟩
  simp only [hidx]
  omega

lemma Indexed.retrieveAll (h : b.Indexed) : b.retrieveAll.Indexed :=
  ⟨le_rfl, le_rfl, cheapPrepend_le_maxSize, h.size_le⟩

/-! ### Making space -/

/-- The vector keeps its size, or it was too short for the readable bytes and a request
for `len` more, and is made no longer than those and `len` once again. -/
def Grows (b b' : Buffer) (len : ℕ) : Prop :=
  b'.buffer.length = b.buffer.length ∨
    b.buffer.length < b.readableBytes + len + kCheapPrepend ∧
      b'.buffer.length ≤ kCheapPrepend + b.readableBytes + 2 * len

/-- What `makeSpace` does when it returns. -/
lemma makeSpace_cases (h : b.makeSpace len = .ok b') :
    (addSize b.writableBytes b.prependableBytes < addSize len kCheapPrepend ∧
      addSize b.writerIndex len ≤ maxSize ∧
      ∃ v : List Byte, v.length = addSize b.writerIndex len ∧ b' = { b with buffer := v }) ∨
    (kCheapPrepend < b.readerIndex ∧
      b' = { buffer := overwrite b.buffer kCheapPrepend b.readable
             readerIndex := kCheapPrepend
             writerIndex := addSize kCheapPrepend b.readableBytes }) := by
  rw [makeSpace] at h
  by_cases hgrow : addSize b.writableBytes b.prependableBytes < addSize len kCheapPrepend
  · left
    rw [if_pos hgrow] at h
    by_cases hmax : addSize b.writerIndex len ≤ maxSize
    · obtain ⟨v, hv, hlen⟩ := resize_spec (v := b.buffer) hmax
      rw [hv] at h
      exact ⟨hgrow, hmax, v, hlen, (Except.ok.inj h).symm⟩
    · rw [resize, if_neg hmax] at h
      cases h
  · right
    rw [if_neg hgrow, check_bind_eq_ok, check_bind_eq_ok] at h
    obtain ⟨hreader, -, h⟩ := h
    exact ⟨hreader, (Except.ok.inj h).symm⟩

/-- What `ensureWritableBytes` does when it returns. -/
lemma ensureWritableBytes_cases (h : b.ensureWritableBytes len = .ok b') :
    b' = b ∨ b.writableBytes < len ∧ b.makeSpace len = .ok b' := by
  rw [ensureWritableBytes] at h
  by_cases hlt : b.writableBytes < len
  · right
    rw [if_pos hlt] at h
    cases hm : b.makeSpace len with
    | error f =>
        rw [hm] at h
        cases h
    | ok b₁ =>
        rw [hm] at h
        obtain ⟨-, h⟩ := check_bind_eq_ok.mp h
        rw [Except.ok.inj h]
        exact ⟨hlt, rfl⟩
  · left
    rw [if_neg hlt] at h
    obtain ⟨-, h⟩ := check_bind_eq_ok.mp h
    exact (Except.ok.inj h).symm

/-- The sliding copy stays inside the vector, wherever the writer index is. -/
lemma length_slide (hreader : kCheapPrepend < b.readerIndex) :
    (overwrite b.buffer kCheapPrepend b.readable).length = b.buffer.length := by
  by_cases hin : b.readerIndex ≤ b.buffer.length
  · refine length_overwrite ?_
    have : b.readable.length ≤ b.buffer.length - b.readerIndex := by
      rw [readable, List.length_take, List.length_drop]
      exact min_le_right _ _
    omega
  · have : b.readable = [] := by
      rw [readable, List.drop_of_length_le (by omega), List.take_nil]
    rw [this, overwrite_nil]

/-- **Making space grows the vector only as far as the request needs.**  The comparison
decides for growing when the vector is too short for the readable bytes, the request and
the reserved prefix; then the reader index is below `len + 8`, which bounds the new
end of the written bytes. -/
theorem Indexed.makeSpace (h : b.Indexed) (hlt : b.writableBytes < len)
    (hok : b.makeSpace len = .ok b') : b'.Indexed ∧ Grows b b' len := by
  have hreader := h.reader_le
  have hprep := h.prepend_le
  have hwriter := h.writer_le
  have hsize := h.size_le
  have hread := h.readableBytes_eq
  have hhalf := two_mul_maxSize_lt
  have hpmax := cheapPrepend_le_maxSize
  obtain ⟨hgrow, hmax, v, hlen, rfl⟩ | ⟨hslide, rfl⟩ := makeSpace_cases hok
  · refine ⟨⟨hreader, hprep, hwriter, by simpa only [hlen] using hmax⟩, ?_⟩
    by_cases hbig : maxSize < len
    · -- no vector can be as long as the request, so it wrapped
      refine Or.inr ⟨by omega, ?_⟩
      simp only [hlen]
      omega
    · have hin : b.writerIndex ≤ b.buffer.length := by
        by_contra hout
        rw [writableBytes, subSize_of_lt (by omega)] at hlt
        omega
      have hsum : addSize b.writableBytes b.prependableBytes
          = b.buffer.length - b.writerIndex + b.readerIndex := by
        rw [writableBytes, subSize_of_le hin, prependableBytes, addSize_of_lt (by omega)]
      have hk : kCheapPrepend = 8 := rfl
      have hword : len + kCheapPrepend < wordSize := by
        have : maxSize + 8 < wordSize := by simp only [maxSize, wordSize]; norm_num
        omega
      rw [hsum, addSize_of_lt hword] at hgrow
      refine Or.inr ⟨by omega, ?_⟩
      simp only [hlen]
      rw [addSize_of_lt (by omega)]
      omega
  · have hw : addSize kCheapPrepend b.readableBytes = kCheapPrepend + b.readableBytes :=
      addSize_of_lt (by omega)
    have hbuf := length_slide hslide
    refine ⟨⟨?_, ?_, ?_, ?_⟩, Or.inl hbuf⟩
    · simp only [hw]
      omega
    · simp only [hw]
      omega
    · simp only [hw]
      omega
    · rw [hbuf]
      exact hsize

lemma Indexed.ensureWritableBytes (h : b.Indexed) (hok : b.ensureWritableBytes len = .ok b') :
    b'.Indexed ∧ Grows b b' len := by
  obtain rfl | ⟨hlt, hm⟩ := ensureWritableBytes_cases hok
  · exact ⟨h, Or.inl rfl⟩
  · exact h.makeSpace hlt hm

/-! ### Storing bytes -/

lemma length_hasWritten (h : b.Valid) {data : List Byte} (hlen : data.length ≤ b.writableBytes) :
    ((b.write data).hasWritten data.length).buffer.length = b.buffer.length := by
  have hwriter := h.writer_le
  rw [h.writableBytes_eq] at hlen
  exact length_overwrite (by omega)

lemma append_growth (h : b.Valid) {data : List Byte} (hlen : data.length ≤ maxSize)
    (hok : b.append data = .ok b') : b'.Indexed ∧ Grows b b' data.length := by
  rcases ensureWritableBytes_spec h (h.fits_of_le hlen) with herr | ⟨b₁, hok₁, hv, -, hroom⟩
  · rw [append, herr] at hok
    cases hok
  · rw [append, hok₁] at hok
    obtain rfl := Except.ok.inj hok
    obtain ⟨-, hgrows⟩ := h.indexed.ensureWritableBytes hok₁
    refine ⟨(hasWritten_spec hv hroom).1.indexed, ?_⟩
    rw [Grows, length_hasWritten hv hroom]
    exact hgrows

/-- Storing nothing changes nothing, wherever the writer index is. -/
lemma store_nil (h : b.Indexed) : (b.write []).hasWritten 0 = b := by
  have hw : addSize b.writerIndex 0 = b.writerIndex := by
    have := h.writer_le
    have := two_mul_maxSize_lt
    exact addSize_of_lt (by omega)
  simp only [write, hasWritten, overwrite_nil, hw]

lemma append_nil (h : b.Indexed) : b.append [] = .ok b := by
  have hensure : b.ensureWritableBytes 0 = .ok b := by
    rw [Buffer.ensureWritableBytes, if_neg (Nat.not_lt_zero _)]
    rfl
  rw [append, List.length_nil, hensure]
  exact congrArg Except.ok (store_nil h)

lemma readFd_nil (h : b.Indexed) : b.readFd (some []) = .ok b := by
  simp only [readFd]
  rw [List.take_nil, List.length_nil, if_pos (Nat.zero_le _), store_nil h]

/-- What did not fit behind the writer index is appended to the full vector, where the
bytes already stored count as readable. -/
lemma readFd_growth (h : b.Valid) {data : List Byte}
    (hlen : data.length ≤ b.writableBytes + kExtraSize) (hok : b.readFd (some data) = .ok b') :
    b'.Indexed ∧ Grows b b' data.length := by
  by_cases hshort : data.length ≤ b.writableBytes
  · simp only [readFd] at hok
    rw [if_pos hshort, List.take_of_length_le hshort] at hok
    obtain rfl := Except.ok.inj hok
    exact ⟨(hasWritten_spec h hshort).1.indexed, Or.inl (length_hasWritten h hshort)⟩
  · have hfull : (data.take b.writableBytes).length = b.writableBytes := by
      rw [List.length_take]
      omega
    have hroom : (data.take b.writableBytes).length ≤ b.writableBytes := hfull.le
    have hrest : (data.drop b.writableBytes).length = data.length - b.writableBytes :=
      List.length_drop
    have hextra : kExtraSize ≤ maxSize := by simp only [kExtraSize, maxSize]; norm_num
    obtain ⟨hv, hread⟩ := hasWritten_spec h hroom
    rw [readFd_long h hshort] at hok
    obtain ⟨hi, hgrows⟩ := append_growth hv (by omega) hok
    refine ⟨hi, ?_⟩
    have hbytes : ((b.write (data.take b.writableBytes)).hasWritten
        (data.take b.writableBytes).length).readableBytes
        = b.readableBytes + b.writableBytes := by
      rw [← hv.length_readable, hread, List.length_append, h.length_readable, hfull]
    rw [Grows, length_hasWritten h hroom, hrest, hbytes] at hgrows
    rw [Grows]
    omega

end Growth

end Buffer

/-! ### The operations -/

namespace BufferOp

/-- The bytes an `append` or `ensureWritableBytes` asks space for. -/
def request : BufferOp → Option ℕ
  | append data => some data.length
  | ensureWritableBytes len => some len
  | _ => none

/-- The same, with the bytes a `readFd` returned. -/
def needs : BufferOp → Option ℕ
  | readFd res => res.map List.length
  | op => op.request

lemma needs_of_request {op : BufferOp} {len : ℕ} (h : op.request = some len) :
    op.needs = some len := by
  cases op with
  | readFd res => cases h
  | _ => exact h

/-- The operation has defined behaviour: its asserted precondition holds, and if it stores a
byte, the index it stores it at lies in the vector.  The indices are outside only behind a
request that wrapped `size_t`. -/
def Defined (op : BufferOp) (b : Buffer) : Prop :=
  op.Pre b ∧
    match op with
    | append data => data ≠ [] → b.writerIndex ≤ b.buffer.length
    | hasWritten data => data ≠ [] → b.writerIndex ≤ b.buffer.length
    | readFd res => res.getD [] ≠ [] → b.writerIndex ≤ b.buffer.length
    | prepend data => data ≠ [] → b.readerIndex ≤ b.buffer.length
    | _ => True

/-- On a valid buffer the precondition is enough. -/
lemma Defined.of_valid {op : BufferOp} {b : Buffer} (h : b.Valid) (hpre : op.Pre b) :
    op.Defined b := by
  refine ⟨hpre, ?_⟩
  cases op with
  | append data => exact fun _ => h.writer_le
  | hasWritten data => exact fun _ => h.writer_le
  | readFd res => exact fun _ => h.writer_le
  | prepend data => exact fun _ => h.reader_le.trans h.writer_le
  | _ => trivial

/-- One call, `none` if it does not return. -/
def next (b : Buffer) (op : BufferOp) : Option Buffer := (op.exec b).toOption

variable {b b' : Buffer}

/-- An operation keeps the vector as long as it is, or it asks for space and the vector
grows for that. -/
theorem exec_growth (h : b.Indexed) {op : BufferOp} (hd : op.Defined b)
    (hok : op.exec b = .ok b') :
    b'.Indexed ∧ (b'.buffer.length = b.buffer.length ∨
      ∃ len, op.needs = some len ∧ Buffer.Grows b b' len) := by
  obtain ⟨hpre, hin⟩ := hd
  cases op with
  | append data =>
      by_cases hdata : data = []
      · subst hdata
        obtain rfl := Except.ok.inj ((Buffer.append_nil h).symm.trans hok)
        exact ⟨h, Or.inl rfl⟩
      · obtain ⟨hi, hgrows⟩ := Buffer.append_growth (h.valid (hin hdata)) hpre hok
        exact ⟨hi, Or.inr ⟨_, rfl, hgrows⟩⟩
  | prepend data =>
      obtain ⟨-, hok⟩ := check_bind_eq_ok.mp hok
      obtain rfl := Except.ok.inj hok
      have hlen : data.length ≤ b.readerIndex := hpre
      have hreader := h.reader_le
      have hsub : subSize b.readerIndex data.length = b.readerIndex - data.length :=
        subSize_of_le hlen
      have hbuf : (overwrite b.buffer (subSize b.readerIndex data.length) data).length
          = b.buffer.length := by
        by_cases hdata : data = []
        · rw [hdata, overwrite_nil]
        · have := hin hdata
          exact length_overwrite (by omega)
      refine ⟨⟨?_, h.prepend_le, h.writer_le, hbuf.trans_le h.size_le⟩, Or.inl hbuf⟩
      simp only [hsub]
      omega
  | retrieve len =>
      obtain ⟨hi, hsame⟩ := h.retrieve hok
      exact ⟨hi, Or.inl hsame⟩
  | retrieveUntil n =>
      obtain ⟨-, hok⟩ := check_bind_eq_ok.mp hok
      obtain ⟨-, hok⟩ := check_bind_eq_ok.mp hok
      obtain ⟨hi, hsame⟩ := h.retrieve hok
      exact ⟨hi, Or.inl hsame⟩
  | retrieveAll =>
      obtain rfl := Except.ok.inj hok
      exact ⟨h.retrieveAll, Or.inl rfl⟩
  | retrieveAsString =>
      obtain rfl := Except.ok.inj hok
      exact ⟨h.retrieveAll, Or.inl rfl⟩
  | ensureWritableBytes len =>
      obtain ⟨hi, hgrows⟩ := h.ensureWritableBytes hok
      exact ⟨hi, Or.inr ⟨_, rfl, hgrows⟩⟩
  | hasWritten data =>
      obtain rfl := Except.ok.inj hok
      by_cases hdata : data = []
      · subst hdata
        rw [List.length_nil, Buffer.store_nil h]
        exact ⟨h, Or.inl rfl⟩
      · have hv := h.valid (hin hdata)
        exact ⟨(Buffer.hasWritten_spec hv hpre).1.indexed,
          Or.inl (Buffer.length_hasWritten hv hpre)⟩
  | readFd res =>
      cases res with
      | none =>
          obtain rfl := Except.ok.inj hok
          exact ⟨h, Or.inl rfl⟩
      | some data =>
          by_cases hdata : data = []
          · subst hdata
            obtain rfl := Except.ok.inj ((Buffer.readFd_nil h).symm.trans hok)
            exact ⟨h, Or.inl rfl⟩
          · obtain ⟨hi, hgrows⟩ := Buffer.readFd_growth (h.valid (hin hdata)) hpre hok
            exact ⟨hi, Or.inr ⟨_, rfl, hgrows⟩⟩

/-! ### Whole runs -/

lemma indexed_of_reach {ok : Buffer → BufferOp → Prop} (hok : ∀ b op, ok b op → op.Defined b)
    (h : Reach next ok Buffer.new b) : b.Indexed := by
  refine h.invariant ?_ Buffer.new_valid.indexed
  intro b op b' hi hop hstep
  exact (exec_growth hi (hok b op hop) (toOption_eq_some.mp hstep)).1

/-- **The vector grows by need.**  In every run of operations with defined behaviour, a
request of `len` bytes on `r` readable ones leaves the size as it is if `r + len + 8` are
there, and makes it at most `8 + r + 2 * len` otherwise; so a bound of these sums on the
steps of a run bounds the size in every state of the run. -/
theorem growth_bounded :
    (∀ b, Reach next (fun b op => op.Defined b) Buffer.new b →
      ∀ (op : BufferOp) (len : ℕ) (b' : Buffer),
        op.request = some len → op.Defined b → op.exec b = .ok b' →
        (b.readableBytes + len + 8 ≤ b.buffer.length → b'.buffer.length = b.buffer.length) ∧
        (b.buffer.length < b.readableBytes + len + 8 →
          b'.buffer.length ≤ 8 + b.readableBytes + 2 * len)) ∧
    ∀ B, 1032 ≤ B → ∀ b,
      Reach next (fun b op => op.Defined b ∧
        ∀ len, op.needs = some len → b.readableBytes + 2 * len + 8 ≤ B) Buffer.new b →
      b.buffer.length ≤ B := by
  have hk : Buffer.kCheapPrepend = 8 := rfl
  constructor
  · intro b hreach op len b' hreq hd hok
    have hi := indexed_of_reach (fun _ _ => id) hreach
    obtain ⟨-, hgrowth⟩ := exec_growth hi hd hok
    have hneeds := needs_of_request hreq
    rcases hgrowth with hsame | ⟨len', hlen', hgrows⟩
    · omega
    · obtain rfl := Option.some.inj (hneeds.symm.trans hlen')
      rw [Buffer.Grows] at hgrows
      omega
  · intro B hB b hreach
    refine (hreach.invariant (I := fun b => b.Indexed ∧ b.buffer.length ≤ B) ?_ ?_).2
    · rintro b op b' ⟨hi, hle⟩ ⟨hd, hneed⟩ hstep
      obtain ⟨hi', hgrowth⟩ := exec_growth hi hd (toOption_eq_some.mp hstep)
      refine ⟨hi', ?_⟩
      rcases hgrowth with hsame | ⟨len, hlen, hgrows⟩
      · omega
      · have := hneed len hlen
        rw [Buffer.Grows] at hgrows
        omega
    · refine ⟨Buffer.new_valid.indexed, ?_⟩
      rw [Buffer.length_new]
      exact hB

/-- A request a new buffer must grow for. -/
theorem growth_bounded_once :
    ∃ b', Buffer.new.ensureWritableBytes 1025 = .ok b' ∧
      b'.buffer.length ≤ 8 + 0 + 2 * 1025 ∧ b'.buffer.length ≤ 3000 := by
  have hmax : 1025 ≤ maxSize := by simp only [maxSize]; norm_num
  have hnew : Buffer.new.readableBytes = 0 := by decide
  have hd : (ensureWritableBytes 1025).Defined Buffer.new := by
    refine Defined.of_valid Buffer.new_valid ?_
    change 1025 < wordSize
    have := Buffer.two_mul_maxSize_lt
    omega
  have hok : Buffer.new.ensureWritableBytes 1025
      = .ok { Buffer.new with buffer := List.replicate 1033 0 } := by decide +kernel
  refine ⟨_, hok, ?_, ?_⟩
  · have h := (growth_bounded.1 Buffer.new (Reach.refl _) _ _ _ rfl hd hok).2
    rw [hnew, Buffer.length_new] at h
    exact h (by decide)
  · refine growth_bounded.2 3000 (by decide) _ (Reach.tail (Reach.refl _) ⟨hd, ?_⟩
      (toOption_eq_some.mpr hok))
    intro len hlen
    obtain rfl := Option.some.inj hlen
    rw [hnew]
    decide

end BufferOp

end Tractor
