import Tractor.Library.Control
import Tractor.Library.Search

/-!
The byte buffer of `include/tractor/Buffer.h` and `src/Buffer.cpp`, operation by
operation.

A `Buffer` is the vector with its two indices and nothing else: the invariant
`Valid` is a predicate and not a field, since one operation of the class does not
keep it.  Pointers into the vector are offsets from `begin()`.  The indices are
`size_t`, so sums and differences wrap at `2^64` (`addSize`, `subSize`), and
`std::vector::resize` throws `std::length_error` above `maxSize`.

* `Buffer.readable`: the bytes between the two indices, what a reader of the
  buffer sees.
* `makeSpace`, `ensureWritableBytes`, `append`, `readFd`: the writing side, with
  every assertion as a possible `BufferFault`.
* `retrieve`, `retrieveUntil`, `retrieveAll`, `retrieveAsString`, `prepend`,
  `findCRLF`, `swap`: the reading side.
-/

namespace Tractor

open Library

abbrev Byte := UInt8

/-- The bytes of an ASCII literal. -/
def ascii (s : String) : List Byte := s.toList.map fun c => c.toNat.toUInt8

/-! ### `size_t` arithmetic -/

/-- The number of values of `size_t`. -/
@[irreducible] def wordSize : ℕ := 2 ^ 64

/-- `std::vector<char>::max_size()`. -/
@[irreducible] def maxSize : ℕ := 2 ^ 63 - 1

/-- Addition of two values of `size_t`, which wraps. -/
def addSize (a b : ℕ) : ℕ := if a + b < wordSize then a + b else a + b - wordSize

/-- Subtraction of two values of `size_t`, which wraps. -/
def subSize (a b : ℕ) : ℕ := if b ≤ a then a - b else a + wordSize - b

lemma addSize_of_lt {a b : ℕ} (h : a + b < wordSize) : addSize a b = a + b := if_pos h

lemma addSize_of_le {a b : ℕ} (h : wordSize ≤ a + b) : addSize a b = a + b - wordSize :=
  if_neg (by omega)

lemma subSize_of_le {a b : ℕ} (h : b ≤ a) : subSize a b = a - b := if_pos h

lemma subSize_of_lt {a b : ℕ} (h : a < b) : subSize a b = a + wordSize - b :=
  if_neg (by omega)

/-! ### The class -/

/-- The assertions of `Buffer`, and the exception of its vector. -/
inductive BufferFault where
  | retrieveLen
  | retrieveUntilPeek
  | retrieveUntilBeginWrite
  | ensureWritable
  | prependLen
  | makeSpaceReader
  | makeSpaceReadable
  | lengthError
  deriving DecidableEq, Repr

/-- `class Buffer`: the vector and its two indices. -/
structure Buffer where
  buffer : List Byte
  readerIndex : ℕ
  writerIndex : ℕ
  deriving DecidableEq, Repr

namespace Buffer

def kCheapPrepend : ℕ := 8

def kInitialSize : ℕ := 1024

/-- `Buffer::kCRLF`. -/
def kCRLF : List Byte := [13, 10]

/-- `Buffer::Buffer()`. -/
def new : Buffer where
  buffer := List.replicate (kCheapPrepend + kInitialSize) 0
  readerIndex := kCheapPrepend
  writerIndex := kCheapPrepend

def readableBytes (b : Buffer) : ℕ := subSize b.writerIndex b.readerIndex

def writableBytes (b : Buffer) : ℕ := subSize b.buffer.length b.writerIndex

def prependableBytes (b : Buffer) : ℕ := b.readerIndex

/-- The bytes from `peek()` on, `readableBytes()` of them. -/
def readable (b : Buffer) : List Byte := (b.buffer.drop b.readerIndex).take b.readableBytes

/-! ### Taking bytes out -/

def retrieve (b : Buffer) (len : ℕ) : Except BufferFault Buffer := do
  check (len ≤ b.readableBytes) .retrieveLen
  pure { b with readerIndex := addSize b.readerIndex len }

/-- `retrieveUntil(end)`, the pointer `end` given by its offset from `begin()`. -/
def retrieveUntil (b : Buffer) (stop : ℕ) : Except BufferFault Buffer := do
  check (b.readerIndex ≤ stop) .retrieveUntilPeek
  check (stop ≤ b.writerIndex) .retrieveUntilBeginWrite
  b.retrieve (subSize stop b.readerIndex)

def retrieveAll (b : Buffer) : Buffer :=
  { b with readerIndex := kCheapPrepend, writerIndex := kCheapPrepend }

def retrieveAsString (b : Buffer) : List Byte × Buffer := (b.readable, b.retrieveAll)

/-- The first `CR LF` of the readable bytes, as an offset from `begin()`. -/
def findCRLF (b : Buffer) : Option ℕ :=
  match memmem kCRLF b.readable with
  | none => none
  | some i => if b.readerIndex + i = b.writerIndex then none else some (b.readerIndex + i)

/-! ### Putting bytes in -/

/-- `std::vector<char>::resize`. -/
def resize (v : List Byte) (n : ℕ) : Except BufferFault (List Byte) :=
  if n ≤ maxSize then .ok (v.take n ++ List.replicate (n - v.length) 0)
  else .error .lengthError

/-- Grow the vector, or slide the readable bytes to the front, whichever the space
in front of the reader index allows. -/
def makeSpace (b : Buffer) (len : ℕ) : Except BufferFault Buffer :=
  if addSize b.writableBytes b.prependableBytes < addSize len kCheapPrepend then do
    let v ← resize b.buffer (addSize b.writerIndex len)
    pure { b with buffer := v }
  else do
    check (kCheapPrepend < b.readerIndex) .makeSpaceReader
    let readable := b.readableBytes
    let b' : Buffer :=
      { buffer := overwrite b.buffer kCheapPrepend b.readable
        readerIndex := kCheapPrepend
        writerIndex := addSize kCheapPrepend readable }
    check (readable = b'.readableBytes) .makeSpaceReadable
    pure b'

def ensureWritableBytes (b : Buffer) (len : ℕ) : Except BufferFault Buffer := do
  let b' ← if b.writableBytes < len then b.makeSpace len else pure b
  check (len ≤ b'.writableBytes) .ensureWritable
  pure b'

/-- Bytes stored by the caller from `beginWrite()` on. -/
def write (b : Buffer) (data : List Byte) : Buffer :=
  { b with buffer := overwrite b.buffer b.writerIndex data }

def hasWritten (b : Buffer) (len : ℕ) : Buffer :=
  { b with writerIndex := addSize b.writerIndex len }

def append (b : Buffer) (data : List Byte) : Except BufferFault Buffer := do
  let b' ← b.ensureWritableBytes data.length
  pure ((b'.write data).hasWritten data.length)

def prepend (b : Buffer) (data : List Byte) : Except BufferFault Buffer := do
  check (data.length ≤ b.prependableBytes) .prependLen
  let reader := subSize b.readerIndex data.length
  pure { b with buffer := overwrite b.buffer reader data, readerIndex := reader }

/-- `sizeof extrabuf` in `readFd`. -/
def kExtraSize : ℕ := 65536

/-- `readFd`, with the result of `readv`: `none` for `-1`, otherwise the bytes it
stored, the first `writableBytes()` of them behind the writer index and the rest in
`extrabuf`. -/
def readFd (b : Buffer) : Option (List Byte) → Except BufferFault Buffer
  | none => .ok b
  | some data =>
      let writable := b.writableBytes
      let b' := b.write (data.take writable)
      if data.length ≤ writable then .ok (b'.hasWritten data.length)
      else { b' with writerIndex := b'.buffer.length }.append (data.drop writable)

end Buffer

end Tractor
