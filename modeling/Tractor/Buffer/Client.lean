import Tractor.Buffer.Refinement

/-!
`Buffer` as its readers use it.

A reader looks at the readable bytes, searches them for `CR LF`, and gives back a
prefix of them.  `ByteBuffer` is that interface, with pointers as offsets from
`peek()`; the byte list is its reference implementation and `ValidBuffer`, a
`Buffer` that carries its invariant, the real one.

* `ValidBuffer.view_findCRLF`, `ValidBuffer.view_retrieveUntil`: the two agree,
  the failed assertions included.  Whatever is proved of a reader over byte lists
  therefore holds of it over buffers.
-/

namespace Tractor

open Library

/-- What a reader uses of a buffer. -/
class ByteBuffer (β : Type) where
  /-- The readable bytes, from `peek()` to `beginWrite()`. -/
  readable : β → List Byte
  /-- `findCRLF()`, as an offset from `peek()`. -/
  findCRLF : β → Option ℕ
  /-- `retrieveUntil(peek() + n)`. -/
  retrieveUntil : β → ℕ → Except BufferFault β

instance : ByteBuffer (List Byte) where
  readable q := q
  findCRLF q := memmem Buffer.kCRLF q
  retrieveUntil q n := do
    check (n ≤ q.length) .retrieveUntilBeginWrite
    check (n ≤ q.length) .retrieveLen
    pure (q.drop n)

namespace ByteBuffer

@[simp] lemma readable_list (q : List Byte) : ByteBuffer.readable q = q := rfl

lemma findCRLF_list (q : List Byte) : ByteBuffer.findCRLF q = memmem Buffer.kCRLF q := rfl

lemma retrieveUntil_list {q : List Byte} {n : ℕ} (h : n ≤ q.length) :
    ByteBuffer.retrieveUntil q n = .ok (q.drop n) := by
  change (check (n ≤ q.length) BufferFault.retrieveUntilBeginWrite >>= _) = _
  rw [check_bind_of h, check_bind_of h]
  rfl

end ByteBuffer

/-- A buffer in its invariant. -/
structure ValidBuffer where
  toBuffer : Buffer
  valid : toBuffer.Valid

namespace ValidBuffer

/-- The byte list a valid buffer stands for. -/
def view (b : ValidBuffer) : List Byte := b.toBuffer.readable

/-- What `retrieveUntil` returns is valid again. -/
lemma valid_of_retrieveUntil (b : ValidBuffer) {n : ℕ} {b' : Buffer}
    (h : b.toBuffer.retrieveUntil (b.toBuffer.readerIndex + n) = .ok b') : b'.Valid := by
  have hn : n ≤ b.toBuffer.readableBytes := by
    rw [Buffer.retrieveUntil, check_bind_eq_ok, check_bind_eq_ok] at h
    have := h.2.1
    rw [b.valid.readableBytes_eq]
    omega
  obtain ⟨b'', hok, hv, -⟩ := Buffer.retrieveUntil_spec b.valid hn
  rw [hok] at h
  obtain rfl := Except.ok.inj h
  exact hv

instance : ByteBuffer ValidBuffer where
  readable := view
  findCRLF b := b.toBuffer.findCRLF.map (· - b.toBuffer.readerIndex)
  retrieveUntil b n :=
    match h : b.toBuffer.retrieveUntil (b.toBuffer.readerIndex + n) with
    | .ok b' => .ok ⟨b', b.valid_of_retrieveUntil h⟩
    | .error f => .error f

@[simp] lemma view_readable (b : ValidBuffer) : ByteBuffer.readable b = b.view := rfl

lemma view_findCRLF (b : ValidBuffer) :
    ByteBuffer.findCRLF b.view = ByteBuffer.findCRLF b := by
  change memmem Buffer.kCRLF b.view = b.toBuffer.findCRLF.map (· - b.toBuffer.readerIndex)
  rw [Buffer.findCRLF_eq b.valid, Option.map_map]
  simp only [Function.comp_def, Nat.add_sub_cancel_left]
  exact Option.map_id'.symm

lemma view_retrieveUntil (b : ValidBuffer) (n : ℕ) :
    ByteBuffer.retrieveUntil b.view n = (ByteBuffer.retrieveUntil b n).map view := by
  have hlen : b.view.length = b.toBuffer.readableBytes := b.valid.length_readable
  have hreader := b.valid.reader_le
  have hrb := b.valid.readableBytes_eq
  have hdef : ByteBuffer.retrieveUntil b n =
      match h : b.toBuffer.retrieveUntil (b.toBuffer.readerIndex + n) with
      | .ok b' => .ok ⟨b', b.valid_of_retrieveUntil h⟩
      | .error f => .error f := rfl
  by_cases hn : n ≤ b.view.length
  · obtain ⟨b', hok, hv, hread⟩ := Buffer.retrieveUntil_spec b.valid (hlen ▸ hn)
    rw [ByteBuffer.retrieveUntil_list hn, hdef]
    split
    · rename_i b'' h
      rw [hok] at h
      obtain rfl := Except.ok.inj h
      exact congrArg _ hread.symm
    · rename_i f h
      rw [hok] at h
      exact absurd h (by simp)
  · -- both sides stop at the assertion against `beginWrite()`
    have herr : b.toBuffer.retrieveUntil (b.toBuffer.readerIndex + n)
        = .error .retrieveUntilBeginWrite := by
      rw [Buffer.retrieveUntil, check_bind_of (by omega), check_bind_not (by omega)]
    have hlist : ByteBuffer.retrieveUntil b.view n = .error .retrieveUntilBeginWrite := by
      change (check (n ≤ b.view.length) BufferFault.retrieveUntilBeginWrite >>= _) = _
      rw [check_bind_not hn]
    rw [hlist, hdef]
    split
    · rename_i b'' h
      rw [herr] at h
      exact absurd h (by simp)
    · rename_i f h
      rw [herr] at h
      obtain rfl := Except.error.inj h
      rfl

/-- Every byte list that fits behind the prepend area is what some buffer stands for. -/
lemma exists_view {data : List Byte} (h : Buffer.kCheapPrepend + data.length ≤ maxSize) :
    ∃ b : ValidBuffer, b.view = data := by
  have hv : Buffer.Valid ⟨List.replicate Buffer.kCheapPrepend 0 ++ data, Buffer.kCheapPrepend,
      Buffer.kCheapPrepend + data.length⟩ := by
    constructor <;> simp [h]
  refine ⟨⟨_, hv⟩, ?_⟩
  rw [view, hv.readable_eq]
  simp

/-- A byte list that a new buffer has room for. -/
lemma exists_view_of_short (data : List Byte) (h : data.length ≤ Buffer.kInitialSize) :
    ∃ b : ValidBuffer, b.view = data := by
  refine exists_view ?_
  rw [Buffer.kInitialSize] at h
  rw [Buffer.kCheapPrepend, maxSize]
  omega

end ValidBuffer

end Tractor
