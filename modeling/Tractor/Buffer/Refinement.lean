import Tractor.Buffer.Basic
import Tractor.Library.Run

/-!
`Buffer` as a byte queue.

The abstract model is a family of byte lists, one for each buffer: appending and
reading from a descriptor add at the back, `prepend` adds at the front, `retrieve`
and its variants drop from the front, and `swap` exchanges two of them
(`queueStep`).

* `Buffer.Valid`: the invariant, with one specification lemma for each operation.
  `ensureWritableBytes_spec` carries the argument: the request that does not fit
  is met by sliding when the space before the reader index is enough, which the
  code's comparison decides correctly as long as its sums do not wrap.
* `ensureWritableBytes_wrap`: when the sum wraps, either an assertion fails or the
  vector is cut below the writer index.
* `buffer_refines_queue_iff`: for any run of operations within their asserted
  preconditions, the buffers stay in step with the queues, in every state and with
  no assertion failing, exactly if no request for writable bytes wraps `size_t`.
-/

namespace Tractor

open Library

namespace Buffer

/-! ### The invariant -/

/-- The sum of two sizes of vectors does not wrap. -/
lemma two_mul_maxSize_lt : 2 * maxSize + 1 < wordSize := by
  simp only [maxSize, wordSize]
  norm_num

/-- `readerIndex_ <= writerIndex_ <= buffer_.size()`. -/
def InBounds (b : Buffer) : Prop :=
  b.readerIndex ≤ b.writerIndex ∧ b.writerIndex ≤ b.buffer.length

lemma InBounds.length_readable {b : Buffer} (h : b.InBounds) :
    b.readable.length = b.readableBytes := by
  obtain ⟨hreader, hwriter⟩ := h
  rw [readable, List.length_take, List.length_drop, readableBytes, subSize_of_le hreader]
  omega

/-- The invariant of the class: the indices are in bounds, the writer index never
returns into the reserved bytes, and the vector exists. -/
structure Valid (b : Buffer) : Prop where
  reader_le : b.readerIndex ≤ b.writerIndex
  writer_le : b.writerIndex ≤ b.buffer.length
  prepend_le : kCheapPrepend ≤ b.writerIndex
  size_le : b.buffer.length ≤ maxSize

lemma Valid.inBounds {b : Buffer} (h : b.Valid) : b.InBounds := ⟨h.reader_le, h.writer_le⟩

lemma Valid.size_lt {b : Buffer} (h : b.Valid) : b.buffer.length < wordSize := by
  have := h.size_le
  simp only [maxSize, wordSize] at *
  omega

lemma Valid.readableBytes_eq {b : Buffer} (h : b.Valid) :
    b.readableBytes = b.writerIndex - b.readerIndex :=
  subSize_of_le h.reader_le

lemma Valid.writableBytes_eq {b : Buffer} (h : b.Valid) :
    b.writableBytes = b.buffer.length - b.writerIndex :=
  subSize_of_le h.writer_le

lemma Valid.readable_eq {b : Buffer} (h : b.Valid) :
    b.readable = (b.buffer.drop b.readerIndex).take (b.writerIndex - b.readerIndex) := by
  rw [readable, h.readableBytes_eq]

lemma Valid.length_readable {b : Buffer} (h : b.Valid) :
    b.readable.length = b.readableBytes :=
  h.inBounds.length_readable

lemma length_new : new.buffer.length = kCheapPrepend + kInitialSize := List.length_replicate

/-- A new buffer is valid. -/
lemma new_valid : new.Valid where
  reader_le := le_rfl
  writer_le := by rw [length_new]; exact Nat.le_add_right _ _
  prepend_le := le_rfl
  size_le := by rw [length_new]; norm_num [kCheapPrepend, kInitialSize, maxSize]

/-- A new buffer is empty, as its constructor asserts. -/
lemma new_readable : new.readable = [] := by
  rw [new_valid.readable_eq, show new.writerIndex - new.readerIndex = 0 from rfl, List.take_zero]

/-! ### Taking bytes out -/

section Retrieve

variable {b : Buffer}

lemma retrieve_spec (h : b.Valid) {len : ℕ} (hlen : len ≤ b.readableBytes) :
    ∃ b', b.retrieve len = .ok b' ∧ b'.Valid ∧ b'.readable = b.readable.drop len := by
  have hsize := h.size_lt
  have hreader := h.reader_le
  have hwriter := h.writer_le
  rw [h.readableBytes_eq] at hlen
  have hidx : addSize b.readerIndex len = b.readerIndex + len := addSize_of_lt (by omega)
  refine ⟨{ b with readerIndex := b.readerIndex + len }, ?_, ?_, ?_⟩
  · rw [retrieve, check_bind_of (by rw [h.readableBytes_eq]; exact hlen), hidx]
    rfl
  · exact ⟨by simp only; omega, h.writer_le, h.prepend_le, h.size_le⟩
  · have hv : ({ b with readerIndex := b.readerIndex + len } : Buffer).Valid :=
      ⟨by simp only; omega, h.writer_le, h.prepend_le, h.size_le⟩
    rw [hv.readable_eq, h.readable_eq, List.drop_take, List.drop_drop]
    congr 1
    simp only
    omega

lemma retrieveUntil_spec (h : b.Valid) {n : ℕ} (hn : n ≤ b.readableBytes) :
    ∃ b', b.retrieveUntil (b.readerIndex + n) = .ok b' ∧ b'.Valid ∧
      b'.readable = b.readable.drop n := by
  have hsize := h.size_lt
  have hreader := h.reader_le
  have hwriter := h.writer_le
  have hn' := hn
  rw [h.readableBytes_eq] at hn'
  have hsub : subSize (b.readerIndex + n) b.readerIndex = n := by
    rw [subSize_of_le (by omega)]
    omega
  rw [retrieveUntil, check_bind_of (by omega), check_bind_of (by omega), hsub]
  exact retrieve_spec h hn

lemma retrieveAll_valid (h : b.Valid) : b.retrieveAll.Valid :=
  ⟨le_rfl, h.prepend_le.trans h.writer_le, le_rfl, h.size_le⟩

lemma retrieveAll_readable (h : b.Valid) : b.retrieveAll.readable = [] := by
  rw [(retrieveAll_valid h).readable_eq]
  simp [retrieveAll]

/-- `findCRLF` sees the readable bytes only, and the search never ends at `beginWrite()`. -/
lemma findCRLF_eq (h : b.Valid) :
    b.findCRLF = (memmem kCRLF b.readable).map (b.readerIndex + ·) := by
  cases hm : memmem kCRLF b.readable with
  | none => simp only [findCRLF, hm, Option.map_none]
  | some i =>
      have hi := memmem_add_le hm
      have hreader := h.reader_le
      have hcrlf : kCRLF.length = 2 := rfl
      rw [h.length_readable, h.readableBytes_eq] at hi
      simp only [findCRLF, hm, Option.map_some]
      rw [if_neg (by omega)]

end Retrieve

/-! ### Putting bytes in -/

section Append

variable {b : Buffer}

/-- Bytes stored behind the writer index and announced by `hasWritten` are appended. -/
lemma hasWritten_spec (h : b.Valid) {data : List Byte} (hlen : data.length ≤ b.writableBytes) :
    ((b.write data).hasWritten data.length).Valid ∧
      ((b.write data).hasWritten data.length).readable = b.readable ++ data := by
  have hsize := h.size_lt
  have hreader := h.reader_le
  have hwriter := h.writer_le
  rw [h.writableBytes_eq] at hlen
  have hw : addSize b.writerIndex data.length = b.writerIndex + data.length :=
    addSize_of_lt (by omega)
  have hbuf : (overwrite b.buffer b.writerIndex data).length = b.buffer.length :=
    length_overwrite (by omega)
  have hv : ((b.write data).hasWritten data.length).Valid := by
    refine ⟨?_, ?_, ?_, ?_⟩ <;> simp only [write, hasWritten, hw, hbuf]
    · omega
    · omega
    · exact h.prepend_le.trans (Nat.le_add_right _ _)
    · exact h.size_le
  refine ⟨hv, ?_⟩
  rw [hv.readable_eq, h.readable_eq]
  simp only [write, hasWritten, hw]
  rw [window_split _ hreader (Nat.le_add_right _ _), window_overwrite_of_le hwriter,
    Nat.add_sub_cancel_left, window_overwrite hwriter]

lemma prepend_spec (h : b.Valid) {data : List Byte} (hlen : data.length ≤ b.prependableBytes) :
    ∃ b', b.prepend data = .ok b' ∧ b'.Valid ∧ b'.readable = data ++ b.readable := by
  have hreader := h.reader_le
  have hwriter := h.writer_le
  have hlen' : data.length ≤ b.readerIndex := hlen
  have hsub : subSize b.readerIndex data.length = b.readerIndex - data.length :=
    subSize_of_le hlen'
  have hbuf : (overwrite b.buffer (b.readerIndex - data.length) data).length = b.buffer.length :=
    length_overwrite (by omega)
  set b' : Buffer :=
    { b with
      buffer := overwrite b.buffer (b.readerIndex - data.length) data
      readerIndex := b.readerIndex - data.length } with hb'
  have hv : b'.Valid := by
    refine ⟨?_, ?_, h.prepend_le, ?_⟩ <;> simp only [hb', hbuf]
    · omega
    · exact hwriter
    · exact h.size_le
  refine ⟨b', ?_, hv, ?_⟩
  · rw [prepend, check_bind_of hlen]
    simp only [hsub]
    rfl
  · rw [hv.readable_eq, h.readable_eq]
    simp only [hb']
    rw [window_split _ (Nat.sub_le b.readerIndex data.length) hreader,
      Nat.sub_sub_self hlen', window_overwrite (by omega), drop_overwrite (by omega) (by omega)]

lemma resize_spec {v : List Byte} {n : ℕ} (hmax : n ≤ maxSize) :
    ∃ v', resize v n = .ok v' ∧ v'.length = n := by
  refine ⟨_, if_pos hmax, ?_⟩
  rw [List.length_append, List.length_take, List.length_replicate]
  omega

/-- `makeSpace` growing the vector: the readable bytes stay where they are. -/
lemma grow_spec (h : b.Valid) {n : ℕ} (hn : b.buffer.length ≤ n) (hmax : n ≤ maxSize) :
    ∃ v, resize b.buffer n = .ok v ∧ v.length = n ∧ ({ b with buffer := v } : Buffer).Valid ∧
      ({ b with buffer := v } : Buffer).readable = b.readable := by
  have hwriter := h.writer_le
  set v : List Byte := b.buffer.take n ++ List.replicate (n - b.buffer.length) 0 with hvdef
  have hlen : v.length = n := by
    rw [hvdef, List.length_append, List.length_take, List.length_replicate]
    omega
  have hv : ({ b with buffer := v } : Buffer).Valid :=
    ⟨h.reader_le, by rw [hlen]; exact hwriter.trans hn, h.prepend_le, by rw [hlen]; exact hmax⟩
  refine ⟨v, if_pos hmax, hlen, hv, ?_⟩
  rw [hv.readable_eq, h.readable_eq]
  simp only [hvdef]
  rw [List.take_of_length_le hn, ← List.drop_take, ← List.drop_take,
    List.take_append_of_le_length hwriter]

/-- `makeSpace` sliding: the readable bytes move to the reserved prefix. -/
lemma slide_spec (h : b.Valid) (hreader : kCheapPrepend < b.readerIndex) :
    let b' : Buffer :=
      { buffer := overwrite b.buffer kCheapPrepend b.readable
        readerIndex := kCheapPrepend
        writerIndex := addSize kCheapPrepend b.readableBytes }
    b'.Valid ∧ b'.readable = b.readable ∧ b'.readableBytes = b.readableBytes ∧
      b'.writableBytes + kCheapPrepend = b.writableBytes + b.readerIndex := by
  intro b'
  have hsize := h.size_lt
  have hle := h.reader_le
  have hwriter := h.writer_le
  have hlen := h.length_readable
  have hrb := h.readableBytes_eq
  have hw : addSize kCheapPrepend b.readableBytes = kCheapPrepend + b.readableBytes :=
    addSize_of_lt (by omega)
  have hbuf : b'.buffer.length = b.buffer.length := length_overwrite (by omega)
  have hv : b'.Valid := by
    refine ⟨?_, ?_, ?_, ?_⟩
    · simp only [b', hw]; omega
    · simp only [b', hw] at hbuf ⊢; omega
    · simp only [b', hw]; omega
    · rw [hbuf]; exact h.size_le
  have hwi : b'.writerIndex = kCheapPrepend + b.readableBytes := hw
  have hri : b'.readerIndex = kCheapPrepend := rfl
  refine ⟨hv, ?_, ?_, ?_⟩
  · rw [hv.readable_eq, hwi, hri, Nat.add_sub_cancel_left, ← hlen]
    exact window_overwrite (by omega)
  · rw [hv.readableBytes_eq, hwi, hri, Nat.add_sub_cancel_left]
  · rw [hv.writableBytes_eq, h.writableBytes_eq, hbuf, hwi]
    omega

/-- A request for writable bytes whose sum does not wrap: it already fits, or the new
end of the written bytes is still a `size_t`. -/
def Fits (b : Buffer) (len : ℕ) : Prop :=
  len ≤ b.writableBytes ∨ b.writerIndex + len < wordSize

/-- **A request that does not wrap is met**, with the readable bytes unchanged, unless
the vector cannot be that long. -/
theorem ensureWritableBytes_spec (h : b.Valid) {len : ℕ} (hfits : b.Fits len) :
    b.ensureWritableBytes len = .error .lengthError ∨
      ∃ b', b.ensureWritableBytes len = .ok b' ∧ b'.Valid ∧ b'.readable = b.readable ∧
        len ≤ b'.writableBytes := by
  have hsize := h.size_lt
  have hwriter := h.writer_le
  have hprep := h.prepend_le
  have hwb := h.writableBytes_eq
  rw [ensureWritableBytes]
  by_cases hlt : b.writableBytes < len
  · have hlen : b.writerIndex + len < wordSize := hfits.resolve_left (by omega)
    have hreader := h.reader_le
    have hsum : addSize b.writableBytes b.prependableBytes = b.writableBytes + b.readerIndex :=
      addSize_of_lt (by rw [prependableBytes]; omega)
    have hneed : addSize len kCheapPrepend = len + kCheapPrepend := addSize_of_lt (by omega)
    rw [if_pos hlt, makeSpace, hsum, hneed, addSize_of_lt hlen]
    by_cases hgrow : b.writableBytes + b.readerIndex < len + kCheapPrepend
    · rw [if_pos hgrow]
      by_cases hmax : b.writerIndex + len ≤ maxSize
      · obtain ⟨v, hv, hvlen, hvalid, hread⟩ := grow_spec h (n := b.writerIndex + len)
          (by omega) hmax
        refine Or.inr ⟨{ b with buffer := v }, ?_, hvalid, hread, ?_⟩
        · rw [hv]
          change (check (len ≤ Buffer.writableBytes { b with buffer := v }) _ >>= _) = _
          rw [check_bind_of]
          · rfl
          · rw [hvalid.writableBytes_eq, hvlen]
            simp only
            omega
        · rw [hvalid.writableBytes_eq, hvlen]
          simp only
          omega
      · left
        rw [resize, if_neg hmax]
        rfl
    · -- sliding: the free bytes in front of the reader index cover the request
      rw [if_neg hgrow]
      obtain ⟨hvalid, hread, hbytes, hroom⟩ := slide_spec h (by omega)
      refine Or.inr ⟨_, ?_, hvalid, hread, by omega⟩
      rw [check_bind_of (by omega), check_bind_of hbytes.symm]
      change (check _ _ >>= _) = _
      rw [check_bind_of (by omega)]
      rfl
  · refine Or.inr ⟨b, ?_, h, rfl, by omega⟩
    rw [if_neg hlt]
    change (check _ _ >>= _) = _
    rw [check_bind_of (by omega)]
    rfl

/-- **A request that wraps is not met**: an assertion fails, or the vector is resized to
the wrapped sum, which lies below the writer index. -/
theorem ensureWritableBytes_wrap (h : b.Valid) {len : ℕ} (hlen : len < wordSize)
    (hwrap : ¬ b.Fits len) :
    (∃ f, b.ensureWritableBytes len = .error f ∧ f ≠ .lengthError) ∨
      ∃ b', b.ensureWritableBytes len = .ok b' ∧ ¬ b'.InBounds := by
  have hsize := h.size_lt
  have hmax := h.size_le
  have hreader := h.reader_le
  have hwriter := h.writer_le
  have hwb := h.writableBytes_eq
  have hkc : kCheapPrepend = 8 := rfl
  rw [Fits, not_or, not_le, not_lt] at hwrap
  obtain ⟨hlt, hge⟩ := hwrap
  have hhalf := two_mul_maxSize_lt
  have hsum : addSize b.writableBytes b.prependableBytes = b.writableBytes + b.readerIndex :=
    addSize_of_lt (by rw [prependableBytes]; omega)
  rw [ensureWritableBytes, if_pos hlt, makeSpace, hsum, addSize_of_le hge]
  by_cases hgrow : b.writableBytes + b.readerIndex < addSize len kCheapPrepend
  · right
    obtain ⟨v, hv, hvlen⟩ := resize_spec (v := b.buffer)
      (n := b.writerIndex + len - wordSize) (by omega)
    refine ⟨{ b with buffer := v }, ?_, ?_⟩
    · rw [if_pos hgrow, hv]
      change (check (len ≤ Buffer.writableBytes { b with buffer := v }) _ >>= _) = _
      rw [check_bind_of]
      · rfl
      · rw [writableBytes, hvlen, subSize_of_lt (by simp only; omega)]
        simp only
        omega
    · rw [InBounds, hvlen]
      simp only
      omega
  · left
    rw [if_neg hgrow]
    by_cases hr : kCheapPrepend < b.readerIndex
    · -- the slide is made for a request no vector can meet
      obtain ⟨hvalid, -, hbytes, hroom⟩ := slide_spec h hr
      have hneed : wordSize ≤ len + kCheapPrepend := by
        by_contra hno
        rw [addSize_of_lt (by omega)] at hgrow
        omega
      refine ⟨.ensureWritable, ?_, by decide⟩
      rw [check_bind_of hr, check_bind_of hbytes.symm]
      change (check _ _ >>= _) = _
      rw [check_bind_not (by omega)]
    · refine ⟨.makeSpaceReader, ?_, by decide⟩
      rw [check_bind_not hr]
      rfl

lemma append_spec (h : b.Valid) {data : List Byte} (hfits : b.Fits data.length) :
    b.append data = .error .lengthError ∨
      ∃ b', b.append data = .ok b' ∧ b'.Valid ∧ b'.readable = b.readable ++ data := by
  rcases ensureWritableBytes_spec h hfits with herr | ⟨b₁, hok, hv, hread, hroom⟩
  · left
    rw [append, herr]
    rfl
  · obtain ⟨hv', hread'⟩ := hasWritten_spec hv hroom
    refine Or.inr ⟨_, ?_, hv', by rw [hread', hread]⟩
    rw [append, hok]
    rfl

/-- Any two arrays of the machine fit behind one another without wrapping `size_t`. -/
lemma Valid.fits_of_le (h : b.Valid) {len : ℕ} (hlen : len ≤ maxSize) : b.Fits len := by
  have hwriter := h.writer_le
  have hmax := h.size_le
  have hhalf := two_mul_maxSize_lt
  exact Or.inr (by omega)

/-- When the tail of the vector is full, the writer index is its size, and `readFd`
appends the rest. -/
lemma readFd_long (h : b.Valid) {data : List Byte} (hlong : ¬ data.length ≤ b.writableBytes) :
    b.readFd (some data)
      = ((b.write (data.take b.writableBytes)).hasWritten
          (data.take b.writableBytes).length).append (data.drop b.writableBytes) := by
  have hwriter := h.writer_le
  have hsize := h.size_lt
  have hwb := h.writableBytes_eq
  have hfull : (data.take b.writableBytes).length = b.writableBytes := by
    rw [List.length_take]
    omega
  have hend : addSize b.writerIndex b.writableBytes
      = (overwrite b.buffer b.writerIndex (data.take b.writableBytes)).length := by
    rw [addSize_of_lt (by omega), length_overwrite (by omega)]
    omega
  simp only [readFd]
  rw [if_neg hlong, hfull]
  simp only [write, hasWritten, hend]

/-- `readFd` appends what `readv` delivered, through the tail of the vector and, when
that was not enough, through `extrabuf`. -/
lemma readFd_spec (h : b.Valid) {data : List Byte}
    (hlen : data.length ≤ b.writableBytes + kExtraSize) :
    b.readFd (some data) = .error .lengthError ∨
      ∃ b', b.readFd (some data) = .ok b' ∧ b'.Valid ∧ b'.readable = b.readable ++ data := by
  have hwriter := h.writer_le
  have hsize := h.size_lt
  have hwb := h.writableBytes_eq
  have htake : (data.take b.writableBytes).length ≤ b.writableBytes := by
    rw [List.length_take]
    omega
  obtain ⟨hv, hread⟩ := hasWritten_spec h htake
  by_cases hshort : data.length ≤ b.writableBytes
  · rw [List.take_of_length_le hshort] at hv hread
    refine Or.inr ⟨_, ?_, hv, hread⟩
    simp only [readFd]
    rw [if_pos hshort, List.take_of_length_le hshort]
  · have hextra : kExtraSize ≤ maxSize := by simp only [kExtraSize, maxSize]; norm_num
    have hrest : (data.drop b.writableBytes).length ≤ maxSize := by
      rw [List.length_drop]
      omega
    rw [readFd_long h hshort]
    rcases append_spec hv (hv.fits_of_le hrest) with herr | ⟨b', hok, hv', hread'⟩
    · exact Or.inl herr
    · refine Or.inr ⟨b', hok, hv', ?_⟩
      rw [hread', hread, List.append_assoc, List.take_append_drop]

end Append

end Buffer

/-! ### Operations and their abstract effect -/

/-- The operations on one buffer.  `retrieveUntil n` takes the pointer `peek() + n`,
`hasWritten data` is called after `data` was stored from `beginWrite()` on, and
`readFd` carries the result of `readv`. -/
inductive BufferOp where
  | append (data : List Byte)
  | prepend (data : List Byte)
  | retrieve (len : ℕ)
  | retrieveUntil (n : ℕ)
  | retrieveAll
  | retrieveAsString
  | ensureWritableBytes (len : ℕ)
  | hasWritten (data : List Byte)
  | readFd (res : Option (List Byte))

namespace BufferOp

def exec : BufferOp → Buffer → Except BufferFault Buffer
  | append data, b => b.append data
  | prepend data, b => b.prepend data
  | retrieve len, b => b.retrieve len
  | retrieveUntil n, b => b.retrieveUntil (b.readerIndex + n)
  | retrieveAll, b => .ok b.retrieveAll
  | retrieveAsString, b => .ok b.retrieveAsString.2
  | ensureWritableBytes len, b => b.ensureWritableBytes len
  | hasWritten data, b => .ok ((b.write data).hasWritten data.length)
  | readFd res, b => b.readFd res

/-- What the operation does to the byte list. -/
def queue : BufferOp → List Byte → List Byte
  | append data, q => q ++ data
  | prepend data, q => data ++ q
  | retrieve len, q => q.drop len
  | retrieveUntil n, q => q.drop n
  | retrieveAll, _ => []
  | retrieveAsString, _ => []
  | ensureWritableBytes _, q => q
  | hasWritten data, q => q ++ data
  | readFd res, q => q ++ res.getD []

/-- The asserted preconditions.  An appended range is an array of the machine, so it is
no longer than `maxSize`; the argument of `ensureWritableBytes` is any `size_t`. -/
def Pre : BufferOp → Buffer → Prop
  | append data, _ => data.length ≤ maxSize
  | prepend data, b => data.length ≤ b.prependableBytes
  | retrieve len, b => len ≤ b.readableBytes
  | retrieveUntil n, b => n ≤ b.readableBytes
  | retrieveAll, _ => True
  | retrieveAsString, _ => True
  | ensureWritableBytes len, _ => len < wordSize
  | hasWritten data, b => data.length ≤ b.writableBytes
  | readFd res, b => (res.getD []).length ≤ b.writableBytes + Buffer.kExtraSize

/-- The request does not wrap `size_t`; only `ensureWritableBytes` can make one that
does. -/
def NoWrap : BufferOp → Buffer → Prop
  | ensureWritableBytes len, b => b.Fits len
  | _, _ => True

/-- **One operation refines the byte queue.** -/
theorem exec_spec {b : Buffer} (h : b.Valid) {op : BufferOp} (hpre : op.Pre b)
    (hwrap : op.NoWrap b) :
    op.exec b = .error .lengthError ∨
      ∃ b', op.exec b = .ok b' ∧ b'.Valid ∧ b'.readable = op.queue b.readable := by
  cases op with
  | append data => exact Buffer.append_spec h (h.fits_of_le hpre)
  | prepend data => exact Or.inr (Buffer.prepend_spec h hpre)
  | retrieve len => exact Or.inr (Buffer.retrieve_spec h hpre)
  | retrieveUntil n => exact Or.inr (Buffer.retrieveUntil_spec h hpre)
  | retrieveAll =>
      exact Or.inr ⟨_, rfl, Buffer.retrieveAll_valid h, Buffer.retrieveAll_readable h⟩
  | retrieveAsString =>
      exact Or.inr ⟨_, rfl, Buffer.retrieveAll_valid h, Buffer.retrieveAll_readable h⟩
  | ensureWritableBytes len =>
      rcases Buffer.ensureWritableBytes_spec h hwrap with herr | ⟨b', hok, hv, hread, -⟩
      · exact Or.inl herr
      · exact Or.inr ⟨b', hok, hv, hread⟩
  | hasWritten data =>
      obtain ⟨hv, hread⟩ := Buffer.hasWritten_spec h hpre
      exact Or.inr ⟨_, rfl, hv, hread⟩
  | readFd res =>
      cases res with
      | none => exact Or.inr ⟨b, rfl, h, by simp [queue]⟩
      | some data => exact Buffer.readFd_spec h hpre

/-- An operation that wraps trips an assertion or breaks the bounds. -/
lemma exec_wrap {b : Buffer} (h : b.Valid) {op : BufferOp} (hpre : op.Pre b)
    (hwrap : ¬ op.NoWrap b) :
    (∃ f, op.exec b = .error f ∧ f ≠ .lengthError) ∨
      ∃ b', op.exec b = .ok b' ∧ ¬ b'.InBounds := by
  cases op with
  | ensureWritableBytes len => exact Buffer.ensureWritableBytes_wrap h hpre hwrap
  | _ => exact absurd trivial hwrap

end BufferOp

/-! ### Whole runs over a family of buffers -/

section Run

variable {ι : Type} [DecidableEq ι]

/-- A step of a program that owns the buffers `ι`: an operation on one of them, or
`swap` of two. -/
inductive BuffersOp (ι : Type) where
  | on (i : ι) (op : BufferOp)
  | swap (i j : ι)

namespace BuffersOp

def step (w : ι → Buffer) : BuffersOp ι → Except BufferFault (ι → Buffer)
  | on i op => (op.exec (w i)).map (Function.update w i)
  | swap i j => .ok (w ∘ Equiv.swap i j)

/-- The same step on the byte lists. -/
def queueStep (q : ι → List Byte) : BuffersOp ι → ι → List Byte
  | on i op => Function.update q i (op.queue (q i))
  | swap i j => q ∘ Equiv.swap i j

def Pre (w : ι → Buffer) : BuffersOp ι → Prop
  | on i op => op.Pre (w i)
  | swap _ _ => True

def NoWrap (w : ι → Buffer) : BuffersOp ι → Prop
  | on i op => op.NoWrap (w i)
  | swap _ _ => True

end BuffersOp

/-- The buffers are in bounds and read as the byte lists, and `findCRLF` finds the first
`CR LF` of the byte list, whatever lies outside the readable range. -/
def InStep (w : ι → Buffer) (q : ι → List Byte) : Prop :=
  ∀ i, (w i).InBounds ∧ (w i).readable = q i ∧
    (w i).findCRLF = (memmem Buffer.kCRLF (q i)).map ((w i).readerIndex + ·)

/-- The run from `w` stays in step with the run from `q` in every state, and no
assertion fails; it may only be ended by an allocation beyond `max_size()`. -/
def Sound (w : ι → Buffer) (q : ι → List Byte) : List (BuffersOp ι) → Prop
  | [] => InStep w q
  | op :: ops => InStep w q ∧
      match BuffersOp.step w op with
      | .ok w' => Sound w' (BuffersOp.queueStep q op) ops
      | .error f => f = .lengthError

/-- The invariant of a run: valid buffers that read as the byte lists. -/
def Simulates (w : ι → Buffer) (q : ι → List Byte) : Prop :=
  ∀ i, (w i).Valid ∧ (w i).readable = q i

omit [DecidableEq ι] in
lemma Simulates.inStep {w : ι → Buffer} {q : ι → List Byte} (h : Simulates w q) :
    InStep w q := by
  intro i
  obtain ⟨hv, hq⟩ := h i
  exact ⟨hv.inBounds, hq, by rw [← hq]; exact Buffer.findCRLF_eq hv⟩

/-- One step that does not wrap keeps the invariant. -/
lemma Simulates.step {w : ι → Buffer} {q : ι → List Byte} (h : Simulates w q)
    {op : BuffersOp ι} (hpre : op.Pre w) (hwrap : op.NoWrap w) :
    BuffersOp.step w op = .error .lengthError ∨
      ∃ w', BuffersOp.step w op = .ok w' ∧ Simulates w' (BuffersOp.queueStep q op) := by
  cases op with
  | swap i j => exact Or.inr ⟨_, rfl, fun k => h (Equiv.swap i j k)⟩
  | on i op =>
      rcases BufferOp.exec_spec (h i).1 hpre hwrap with herr | ⟨b', hok, hv, hread⟩
      · left
        simp only [BuffersOp.step, herr, Except.map]
      · refine Or.inr ⟨Function.update w i b', by simp only [BuffersOp.step, hok, Except.map], ?_⟩
        intro k
        by_cases hk : k = i
        · subst hk
          simp only [BuffersOp.queueStep, Function.update_self]
          exact ⟨hv, by rw [hread, (h k).2]⟩
        · simp only [BuffersOp.queueStep, Function.update_of_ne hk]
          exact h k

/-- A failed assertion ends the soundness of a run. -/
lemma not_sound_of_error {w : ι → Buffer} {q : ι → List Byte} {op : BuffersOp ι}
    {ops : List (BuffersOp ι)} {f : BufferFault} (herr : BuffersOp.step w op = .error f)
    (hf : f ≠ .lengthError) : ¬ Sound w q (op :: ops) := by
  intro hs
  have h := hs.2
  rw [herr] at h
  exact hf h

/-- A step that wraps ends the soundness of a run. -/
lemma Simulates.not_sound {w : ι → Buffer} {q : ι → List Byte} (h : Simulates w q)
    {op : BuffersOp ι} (hpre : op.Pre w) (hwrap : ¬ op.NoWrap w) (ops : List (BuffersOp ι)) :
    ¬ Sound w q (op :: ops) := by
  cases op with
  | swap i j => exact absurd trivial hwrap
  | on i op =>
      rcases BufferOp.exec_wrap (h i).1 hpre hwrap with ⟨f, herr, hf⟩ | ⟨b', hok, hb⟩
      · exact not_sound_of_error (by simp only [BuffersOp.step, herr, Except.map]) hf
      · rintro ⟨-, hs⟩
        simp only [BuffersOp.step, hok, Except.map] at hs
        have hin : InStep (Function.update w i b') (BuffersOp.queueStep q (.on i op)) := by
          cases ops with
          | nil => exact hs
          | cons _ _ => exact hs.1
        have hi := (hin i).1
        rw [Function.update_self] at hi
        exact hb hi

/-- The two directions along a run, from any state of the invariant. -/
lemma Simulates.sound_iff (ops : List (BuffersOp ι)) {w : ι → Buffer} {q : ι → List Byte}
    (h : Simulates w q) (hpre : Along BuffersOp.step BuffersOp.Pre w ops) :
    Sound w q ops ↔ Along BuffersOp.step BuffersOp.NoWrap w ops := by
  induction ops generalizing w q with
  | nil => exact ⟨fun _ => trivial, fun _ => h.inStep⟩
  | cons op ops ih =>
      obtain ⟨hop, hrest⟩ := hpre
      by_cases hwrap : op.NoWrap w
      · rcases h.step hop hwrap with herr | ⟨w', hok, hw'⟩
        · simp only [Sound, herr, Along, hwrap, h.inStep, true_and]
          exact ⟨fun _ w' hw' => absurd hw' (by simp), fun _ => trivial⟩
        · have := ih hw' (hrest w' hok)
          simp only [Sound, hok, Along, hwrap, h.inStep, true_and, this]
          refine ⟨fun hs w'' hw'' => ?_, fun hs => hs w' rfl⟩
          obtain rfl := Except.ok.inj hw''
          exact hs
      · exact ⟨fun hs => absurd hs (h.not_sound hop hwrap ops), fun hs => absurd hs.1 hwrap⟩

omit [DecidableEq ι] in
lemma simulates_new : Simulates (fun _ : ι => Buffer.new) fun _ => [] :=
  fun _ => ⟨Buffer.new_valid, Buffer.new_readable⟩

/-- **`Buffer` refines a byte queue.**  For every run of operations on new buffers, each
within its asserted precondition: the indices stay in bounds, the readable bytes are the
abstract byte list, `findCRLF` searches that list, and no assertion fails, in every
state of the run, exactly if no `ensureWritableBytes` request wraps `size_t`. -/
theorem buffer_refines_queue_iff (ops : List (BuffersOp ι))
    (hpre : Along BuffersOp.step BuffersOp.Pre (fun _ => Buffer.new) ops) :
    Sound (fun _ => Buffer.new) (fun _ => []) ops ↔
      Along BuffersOp.step BuffersOp.NoWrap (fun _ => Buffer.new) ops :=
  simulates_new.sound_iff ops hpre

/-- A request that fits followed by an append. -/
theorem buffer_refines_queue_iff_append :
    Sound (fun _ : Unit => Buffer.new) (fun _ => [])
      [.on () (.ensureWritableBytes 100), .on () (.append [71, 13, 10])] := by
  have hmax : 100 ≤ maxSize := by simp only [maxSize]; norm_num
  have hword : 100 < wordSize := by simp only [wordSize]; norm_num
  refine (buffer_refines_queue_iff _ ?_).mpr ?_
  · exact ⟨hword, fun _ _ => ⟨(by decide : 3 ≤ 100).trans hmax, fun _ _ => trivial⟩⟩
  · exact ⟨Buffer.new_valid.fits_of_le hmax, fun _ _ => ⟨trivial, fun _ _ => trivial⟩⟩

/-- `ensureWritableBytes(SIZE_MAX)` on a new buffer is a legal call, and the wrapped
comparison of `makeSpace` sends it to the sliding branch, whose assertion fails. -/
theorem ensureWritableBytes_size_max_asserts :
    let ops : List (BuffersOp Unit) := [.on () (.ensureWritableBytes (2 ^ 64 - 1))]
    Along BuffersOp.step BuffersOp.Pre (fun _ => Buffer.new) ops ∧
      Buffer.new.ensureWritableBytes (2 ^ 64 - 1) = .error .makeSpaceReader ∧
      ¬ Sound (fun _ => Buffer.new) (fun _ => []) ops := by
  have hpre : 2 ^ 64 - 1 < wordSize := by simp only [wordSize]; norm_num
  have hfail : Buffer.new.ensureWritableBytes (2 ^ 64 - 1) = .error .makeSpaceReader := by
    decide +kernel
  refine ⟨⟨hpre, fun _ _ => trivial⟩, hfail, ?_⟩
  refine not_sound_of_error (f := .makeSpaceReader) ?_ (by decide)
  simp only [BuffersOp.step, BufferOp.exec, hfail, Except.map]

end Run

end Tractor
