import TinyNetwork.Base.Crlf
import TinyNetwork.Base.Lp64
import TinyNetwork.Base.Sys
import TinyNetwork.Base.Vec

/-!
# `Buffer`

The byte buffer of a connection: one vector, cut by `readIndex` and `writeIndex` into a
prependable part, the readable bytes and a writeable tail.  Room is made by growing the vector or
by moving the readable bytes to the front.

A pointer into the readable range is its offset from `peek()`.  Indices and lengths are `size_t`,
`retrieve` and `resize_` take an `int`, as in the source.

## Main results

* `Wf.readable_retrieve`, `Wf.readable_append`, `Wf.readable_readFd` : what an operation does to
  the readable bytes, whenever it has a result, for lengths of any size.
* `Wf.ensureWriteableBytes_of_lt` : below `2 ^ 31` making room has a result.
-/

namespace TinyNetwork

open Lp64

/-- `class Buffer`. -/
structure Buffer where
  /-- The storage, `buffer_`. -/
  buffer : List UInt8
  readIndex : ℕ
  writeIndex : ℕ
  deriving DecidableEq, Repr

namespace Buffer

def initialPrependSize : ℕ := 8

def initialSize : ℕ := 1024

/-- `Buffer(size)`. -/
def ofSize (size : ℕ) : Except Fault Buffer := do
  let buffer ← Vec.resize [] (addSize initialPrependSize size) 0
  return ⟨buffer, initialPrependSize, initialPrependSize⟩

/-- `Buffer()`. -/
def empty : Buffer :=
  ⟨List.replicate (initialPrependSize + initialSize) 0, initialPrependSize, initialPrependSize⟩

def readableBytes (b : Buffer) : ℕ := subSize b.writeIndex b.readIndex

def writeableBytes (b : Buffer) : ℕ := subSize b.buffer.length b.writeIndex

def prependableBytes (b : Buffer) : ℕ := b.readIndex

def retrieveAll (b : Buffer) : Buffer :=
  { b with readIndex := initialPrependSize, writeIndex := initialPrependSize }

/-- `retrieve(int len)`. -/
def retrieve (b : Buffer) (len : ℤ) : Buffer :=
  if toSize len < b.readableBytes then
    { b with readIndex := addSize b.readIndex (toSize len) }
  else b.retrieveAll

/-- `retrieveUtil(end)`, where `end` is `peek() + off`. -/
def retrieveUtil (b : Buffer) (off : ℕ) : Buffer := b.retrieve (toInt off)

/-- `retrieveAsString(size_t len)`. -/
def retrieveAsString (b : Buffer) (len : ℕ) : Except Fault (List UInt8 × Buffer) := do
  let res ← Vec.read b.buffer b.readIndex len
  return (res, b.retrieve (toInt len))

def retrieveAllAsString (b : Buffer) : Except Fault (List UInt8 × Buffer) :=
  b.retrieveAsString b.readableBytes

/-- `resize_(int len)`. -/
def resize (b : Buffer) (len : ℤ) : Except Fault Buffer :=
  if addSize b.prependableBytes b.writeableBytes < toSize (addInt len initialPrependSize) then do
    let buffer ← Vec.resize b.buffer (addSize b.writeIndex (toSize len)) 0
    return { b with buffer }
  else do
    let readableBytes := b.readableBytes
    let buffer ← Vec.copy b.buffer b.readIndex b.writeIndex initialPrependSize
    return ⟨buffer, initialPrependSize, addSize readableBytes initialPrependSize⟩

/-- `ensureWriteableBytes(size_t len)`. -/
def ensureWriteableBytes (b : Buffer) (len : ℕ) : Except Fault Buffer :=
  if b.writeableBytes < len then b.resize (toInt len) else .ok b

/-- `append(data, len)`. -/
def append (b : Buffer) (data : List UInt8) : Except Fault Buffer := do
  let b ← b.ensureWriteableBytes data.length
  let buffer ← Vec.write b.buffer b.writeIndex data
  return { b with buffer, writeIndex := addSize b.writeIndex data.length }

/-- `sizeof(extrabuf)` in `readFd`. -/
def extrabufSize : ℕ := 65536

/-- The total length of the io vectors `readFd` passes to `::readv`. -/
def iovCapacity (b : Buffer) : ℕ :=
  if b.writeableBytes < extrabufSize then b.writeableBytes + extrabufSize else b.writeableBytes

/-- `readFd(fd, &saveErrno)` when `::readv` returns `r`: the return value, `*saveErrno` if it is
set, and the buffer. -/
def readFd (b : Buffer) : ReadResult → Except Fault (ℤ × Option Errno × Buffer)
  | .error e => .ok (-1, some e, b)
  | .data bytes => do
    let writeablebytes := b.writeableBytes
    -- the kernel fills the writeable tail first and puts the rest into `extrabuf`
    let buffer ← Vec.write b.buffer b.writeIndex (bytes.take writeablebytes)
    let n := bytes.length
    if n ≤ writeablebytes then
      return (n, none, { b with buffer, writeIndex := addSize b.writeIndex n })
    else do
      let b ← append { b with buffer, writeIndex := buffer.length } (bytes.drop writeablebytes)
      return (n, none, b)

/-- `writeFd(fd, &saveErrno)` when `::write` returns `w`: the return value and `*saveErrno` if it
is set.  The bytes taken stay in the buffer. -/
def writeFd (_b : Buffer) : WriteResult → ℤ × Option Errno
  | .accepted n => (n, none)
  | .error e => (-1, some e)

/-- `8 ≤ readIndex_ ≤ writeIndex_ ≤ buffer_.size()`. -/
structure Wf (b : Buffer) : Prop where
  prepend_le : initialPrependSize ≤ b.readIndex
  read_le : b.readIndex ≤ b.writeIndex
  write_le : b.writeIndex ≤ b.buffer.length
  size_le : b.buffer.length ≤ Vec.maxSize

instance (b : Buffer) : Decidable b.Wf :=
  decidable_of_iff (initialPrependSize ≤ b.readIndex ∧ b.readIndex ≤ b.writeIndex ∧
      b.writeIndex ≤ b.buffer.length ∧ b.buffer.length ≤ Vec.maxSize)
    ⟨fun ⟨h₁, h₂, h₃, h₄⟩ => ⟨h₁, h₂, h₃, h₄⟩, fun ⟨h₁, h₂, h₃, h₄⟩ => ⟨h₁, h₂, h₃, h₄⟩⟩

/-- The readable bytes. -/
def readable (b : Buffer) : List UInt8 :=
  (b.buffer.drop b.readIndex).take (b.writeIndex - b.readIndex)

/-- `findCRLF()`: the offset from `peek()` of the first CRLF. -/
def findCRLF (b : Buffer) : Option ℕ := TinyNetwork.findCRLF b.readable

/-! ### Sizes and indices of a well-formed buffer -/

variable {b b' : Buffer} {data : List UInt8} {len : ℕ}

theorem Wf.writeIndex_lt (h : b.Wf) : b.buffer.length < 2 ^ 63 := by
  have := h.size_le
  unfold Vec.maxSize at this
  omega

theorem Wf.readableBytes_eq (h : b.Wf) : b.readableBytes = b.writeIndex - b.readIndex := by
  have := h.writeIndex_lt; have := h.write_le; have := h.read_le
  exact subSize_of_le h.read_le (by omega)

theorem Wf.writeableBytes_eq (h : b.Wf) : b.writeableBytes = b.buffer.length - b.writeIndex := by
  have := h.writeIndex_lt
  exact subSize_of_le h.write_le (by omega)

theorem Wf.length_readable (h : b.Wf) : b.readable.length = b.readableBytes := by
  have := h.write_le
  rw [h.readableBytes_eq]
  simp only [readable, List.length_take, List.length_drop]
  omega

theorem Wf.readableBytes_lt (h : b.Wf) : b.readableBytes < 2 ^ 63 := by
  have := h.writeIndex_lt; have := h.write_le; have := h.readableBytes_eq
  omega

theorem Wf.readable_eq_nil_iff (h : b.Wf) : b.readable = [] ↔ b.readableBytes = 0 := by
  rw [← h.length_readable, List.length_eq_zero_iff]

/-- The bytes up to `writeIndex` are the part before `readIndex` and the readable ones. -/
theorem Wf.take_writeIndex (h : b.Wf) :
    b.buffer.take b.writeIndex = b.buffer.take b.readIndex ++ b.readable := by
  rw [readable, ← List.take_add, Nat.add_sub_cancel' h.read_le]

/-! ### Taking bytes out -/

theorem Wf.retrieveAll (h : b.Wf) : b.retrieveAll.Wf := by
  have := h.prepend_le; have := h.read_le; have := h.write_le
  exact ⟨Nat.le_refl _, Nat.le_refl _, by simp only [Buffer.retrieveAll]; omega, h.size_le⟩

@[simp] theorem readable_retrieveAll (b : Buffer) : b.retrieveAll.readable = [] := by
  simp [Buffer.retrieveAll, readable]

theorem Wf.retrieve (h : b.Wf) (len : ℤ) : (b.retrieve len).Wf := by
  unfold Buffer.retrieve
  split_ifs with hlt
  · have := h.prepend_le; have := h.write_le; have := h.writeIndex_lt
    rw [h.readableBytes_eq] at hlt
    rw [addSize_of_lt (by omega)]
    exact ⟨by simp only; omega, by simp only; omega, h.write_le, h.size_le⟩
  · exact h.retrieveAll

/-- `retrieve` drops its argument, read as a `size_t`, or everything. -/
theorem Wf.readable_retrieve (h : b.Wf) (len : ℤ) :
    (b.retrieve len).readable = b.readable.drop (toSize len) := by
  unfold Buffer.retrieve
  split_ifs with hlt
  · have := h.write_le; have := h.writeIndex_lt
    rw [h.readableBytes_eq] at hlt
    rw [addSize_of_lt (by omega)]
    simp only [readable, List.drop_take, List.drop_drop]
    rw [Nat.sub_sub]
  · rw [readable_retrieveAll, List.drop_of_length_le]
    rw [h.length_readable]; omega

theorem Wf.retrieveAsString_of_le (h : b.Wf) (hlen : len ≤ b.readableBytes) :
    b.retrieveAsString len = .ok (b.readable.take len, b.retrieve (toInt len)) := by
  have := h.write_le; have := h.read_le
  rw [h.readableBytes_eq] at hlen
  rw [retrieveAsString, Vec.read_of_le (by omega)]
  simp only [readable, List.take_take, Nat.min_eq_left hlen]
  rfl

/-! ### Making room -/

theorem readable_mk {pre xs post : List UInt8} {r w : ℕ} (hr : pre.length = r)
    (hw : w = r + xs.length) : (⟨pre ++ xs ++ post, r, w⟩ : Buffer).readable = xs := by
  subst hr hw
  simp [readable]

/-- A buffer whose storage up to `writeIndex` is that of `b` has its readable bytes. -/
theorem readable_congr (hr : b'.readIndex = b.readIndex) (hw : b'.writeIndex = b.writeIndex)
    (hbuf : b'.buffer.take b.writeIndex = b.buffer.take b.writeIndex) :
    b'.readable = b.readable := by
  simp only [readable, hr, hw, ← List.drop_take, hbuf]

/-- A resize of the storage leaves everything up to `writeIndex` in place, unless it cuts it. -/
theorem Wf.take_resize {buffer : List UInt8} {n : ℕ} (h : b.Wf)
    (hv : Vec.resize b.buffer n 0 = .ok buffer) (hle : b.writeIndex ≤ n) :
    buffer.take b.writeIndex = b.buffer.take b.writeIndex := by
  obtain ⟨-, rfl⟩ := Vec.resize_eq_ok.1 hv
  have := h.write_le
  rw [List.take_append_of_le_length (by simp only [List.length_take]; omega), List.take_take,
    Nat.min_eq_left hle]

/-- Moving the readable bytes to the front. -/
theorem Wf.copy_front {buffer : List UInt8} (h : b.Wf)
    (hv : Vec.copy b.buffer b.readIndex b.writeIndex initialPrependSize = .ok buffer) :
    buffer = b.buffer.take initialPrependSize ++ b.readable ++
      b.buffer.drop (initialPrependSize + b.readable.length) := by
  unfold Vec.copy at hv
  split_ifs at hv
  obtain ⟨xs, hread, hwrite⟩ := bind_eq_ok.1 hv
  have := h.write_le; have := h.read_le
  rw [Vec.read_of_le (by omega)] at hread
  cases hread
  exact (Vec.write_eq_ok.1 hwrite).2

/-- The buffer after a move of the readable bytes to the front. -/
theorem Wf.compact {buffer : List UInt8} (h : b.Wf)
    (hv : Vec.copy b.buffer b.readIndex b.writeIndex initialPrependSize = .ok buffer) :
    (⟨buffer, initialPrependSize, addSize b.readableBytes initialPrependSize⟩ : Buffer).Wf ∧
      (⟨buffer, initialPrependSize, addSize b.readableBytes initialPrependSize⟩ :
        Buffer).readable = b.readable ∧ buffer.length = b.buffer.length := by
  obtain rfl := h.copy_front hv
  have := h.write_le; have := h.read_le; have := h.prepend_le; have := h.writeIndex_lt
  have hle := h.length_readable
  have hr := h.readableBytes_eq
  have hpre : (b.buffer.take initialPrependSize).length = initialPrependSize := by
    simp only [List.length_take]; omega
  have hlen : (b.buffer.take initialPrependSize ++ b.readable ++
      b.buffer.drop (initialPrependSize + b.readable.length)).length = b.buffer.length := by
    simp only [List.length_append, List.length_take, List.length_drop]; omega
  have hw : addSize b.readableBytes initialPrependSize =
      initialPrependSize + b.readable.length := by
    rw [hle, Nat.add_comm, addSize_of_lt]; omega
  rw [hw]
  refine ⟨⟨Nat.le_refl _, Nat.le_add_right _ _, ?_, ?_⟩, readable_mk hpre rfl, hlen⟩
  · simp only [hlen]; omega
  · simp only [hlen]; exact h.size_le

/-- What making room does, if it has a result: nothing, a resize of the storage, or a move of the
readable bytes to the front. -/
theorem Wf.ensureWriteableBytes_cases (h : b.Wf) (hok : b.ensureWriteableBytes len = .ok b') :
    (b' = b ∧ len ≤ b.writeableBytes) ∨
    (b.writeableBytes < len ∧ b'.readIndex = b.readIndex ∧ b'.writeIndex = b.writeIndex ∧
      addSize b.prependableBytes b.writeableBytes <
        toSize (addInt (toInt len) initialPrependSize) ∧
      Vec.resize b.buffer (addSize b.writeIndex (toSize (toInt len))) 0 = .ok b'.buffer) ∨
    (b.writeableBytes < len ∧ ¬ addSize b.prependableBytes b.writeableBytes <
        toSize (addInt (toInt len) initialPrependSize) ∧
      b'.Wf ∧ b'.readable = b.readable ∧ b'.readIndex = initialPrependSize ∧
      b'.buffer.length = b.buffer.length) := by
  unfold Buffer.ensureWriteableBytes Buffer.resize at hok
  split_ifs at hok with hlt hgrow
  · obtain ⟨buffer, hv, heq⟩ := bind_eq_ok.1 hok
    cases heq
    exact .inr (.inl ⟨hlt, rfl, rfl, hgrow, hv⟩)
  · obtain ⟨buffer, hv, heq⟩ := bind_eq_ok.1 hok
    cases heq
    obtain ⟨hwf, hread, hlen⟩ := h.compact hv
    exact .inr (.inr ⟨hlt, hgrow, hwf, hread, rfl, hlen⟩)
  · cases hok
    exact .inl ⟨rfl, Nat.not_lt.1 hlt⟩

/-- Writing `data` behind the readable bytes of a buffer with enough room. -/
theorem Wf.write_data {buffer : List UInt8} (h : b.Wf)
    (hv : Vec.write b.buffer b.writeIndex data = .ok buffer) :
    Wf ⟨buffer, b.readIndex, addSize b.writeIndex data.length⟩ ∧
      readable ⟨buffer, b.readIndex, addSize b.writeIndex data.length⟩ = b.readable ++ data := by
  have := h.prepend_le; have := h.read_le; have hsize := h.size_le; have := h.writeIndex_lt
  have hlen := Vec.length_write hv
  obtain ⟨hle, rfl⟩ := Vec.write_eq_ok.1 hv
  rw [addSize_of_lt (by omega)]
  refine ⟨⟨h.prepend_le, by simp only; omega, by simp only [hlen]; omega, by
    simp only [hlen]; exact hsize⟩, ?_⟩
  rw [h.take_writeIndex, List.append_assoc (b.buffer.take b.readIndex)]
  have hread := h.length_readable
  rw [h.readableBytes_eq] at hread
  refine readable_mk ?_ ?_
  · simp only [List.length_take]; omega
  · simp only [List.length_append]; omega

/-- An `append` that has a result adds exactly its bytes, whatever branch makes the room. -/
theorem Wf.append (h : b.Wf) (hok : b.append data = .ok b') :
    b'.Wf ∧ b'.readable = b.readable ++ data := by
  obtain ⟨b₁, hens, hok⟩ := bind_eq_ok.1 hok
  obtain ⟨buffer, hv, heq⟩ := bind_eq_ok.1 hok
  cases heq
  rcases h.ensureWriteableBytes_cases hens with ⟨rfl, -⟩ | ⟨-, hr, hw, -, hres⟩ |
    ⟨-, -, hwf, hread, -⟩
  · exact h.write_data hv
  · -- the copy is in range, so the resize kept the readable bytes
    have hle := (Vec.write_eq_ok.1 hv).1
    have hn : b₁.buffer.length = addSize b.writeIndex (toSize (toInt data.length)) :=
      Vec.length_resize hres
    have hwf : b₁.Wf := by
      refine ⟨hr ▸ h.prepend_le, hr ▸ hw ▸ h.read_le, by omega, ?_⟩
      rw [hn]; exact (Vec.resize_eq_ok.1 hres).1
    have hread : b₁.readable = b.readable :=
      readable_congr hr hw (h.take_resize hres (by omega))
    rw [← hread]
    exact hwf.write_data hv
  · rw [← hread]
    exact hwf.write_data hv

/-! ### Operations that have a result -/

/-- The storage after making room for `len` bytes: it grows by at most `len`, and while `int`
arithmetic does not wrap it stays within twice the requested room of the readable bytes. -/
def SizeBound (b b' : Buffer) (len : ℕ) : Prop :=
  b'.buffer.length ≤ b.buffer.length + len ∧
    (len + initialPrependSize < 2 ^ 31 →
      b'.buffer.length ≤ max b.buffer.length (b.readableBytes + 2 * len + initialPrependSize))

theorem SizeBound.of_eq (h : b'.buffer.length = b.buffer.length) : SizeBound b b' len :=
  ⟨by omega, fun _ => by omega⟩

theorem Wf.addSize_room (h : b.Wf) : addSize b.prependableBytes b.writeableBytes =
    b.readIndex + (b.buffer.length - b.writeIndex) := by
  have := h.write_le; have := h.read_le; have := h.writeIndex_lt
  rw [h.writeableBytes_eq]
  exact addSize_of_lt (by unfold prependableBytes; omega)

/-- A length below `2 ^ 31` that the vector grows by. -/
theorem Wf.ensureWriteableBytes_grow (h : b.Wf) (hlen : len < 2 ^ 31)
    (hlt : b.writeableBytes < len)
    (hgrow : addSize b.prependableBytes b.writeableBytes <
      toSize (addInt (toInt len) initialPrependSize))
    (hmax : b.writeIndex + len ≤ Vec.maxSize) :
    ∃ b', b.ensureWriteableBytes len = .ok b' ∧ b'.Wf ∧ b'.readable = b.readable ∧
      len ≤ b'.writeableBytes ∧ b'.buffer.length = b.writeIndex + len := by
  have hwr := h.writeableBytes_eq
  have := h.write_le; have := h.writeIndex_lt
  have hn : addSize b.writeIndex (toSize (toInt len)) = b.writeIndex + len := by
    rw [toSize_toInt_of_lt hlen, addSize_of_lt]; omega
  rw [ensureWriteableBytes, if_pos hlt, resize, if_pos hgrow, hn, Vec.resize_of_le hmax]
  set buffer := b.buffer.take (b.writeIndex + len) ++
    List.replicate (b.writeIndex + len - b.buffer.length) 0 with hbuf
  have hlength : buffer.length = b.writeIndex + len := by
    simp only [hbuf, List.length_append, List.length_take, List.length_replicate]; omega
  have hwf : Wf { b with buffer } :=
    ⟨h.prepend_le, h.read_le, by simp only; omega, by simp only [hlength]; omega⟩
  refine ⟨_, rfl, hwf, readable_congr rfl rfl
    (h.take_resize (Vec.resize_of_le hmax) (Nat.le_add_right _ _)), ?_, hlength⟩
  rw [hwf.writeableBytes_eq]; simp only; omega

/-- A length that the readable bytes make room for when they move to the front. -/
theorem Wf.ensureWriteableBytes_front (h : b.Wf) (hlt : b.writeableBytes < len)
    (hgrow : ¬ addSize b.prependableBytes b.writeableBytes <
      toSize (addInt (toInt len) initialPrependSize))
    (hroom : len + initialPrependSize ≤ b.readIndex + (b.buffer.length - b.writeIndex)) :
    ∃ b', b.ensureWriteableBytes len = .ok b' ∧ b'.Wf ∧ b'.readable = b.readable ∧
      len ≤ b'.writeableBytes ∧ b'.buffer.length = b.buffer.length := by
  have hwr := h.writeableBytes_eq
  have hrd := h.readableBytes_eq
  have := h.write_le; have := h.read_le; have := h.writeIndex_lt
  have hcopy : Vec.copy b.buffer b.readIndex b.writeIndex initialPrependSize =
      .ok (b.buffer.take initialPrependSize ++ b.readable ++
        b.buffer.drop (initialPrependSize + b.readable.length)) := by
    have hle := h.length_readable
    rw [Vec.copy, if_neg (by omega), Vec.read_of_le (by omega)]
    exact Vec.write_of_le (by rw [← readable, hle]; omega)
  obtain ⟨hwf, hread, hlength⟩ := h.compact hcopy
  rw [ensureWriteableBytes, if_pos hlt, resize, if_neg hgrow, hcopy]
  refine ⟨_, rfl, hwf, hread, ?_, hlength⟩
  rw [hwf.writeableBytes_eq]
  simp only [hlength]
  rw [addSize_of_lt (by omega)]; omega

/-- Below `2 ^ 31` making room has a result, leaves the readable bytes alone and makes the room. -/
theorem Wf.ensureWriteableBytes_of_lt (h : b.Wf) (hlen : len < 2 ^ 31)
    (hmax : b.buffer.length + len ≤ Vec.maxSize) :
    ∃ b', b.ensureWriteableBytes len = .ok b' ∧ b'.Wf ∧ b'.readable = b.readable ∧
      len ≤ b'.writeableBytes ∧ SizeBound b b' len := by
  have := h.write_le
  have hrd := h.readableBytes_eq
  have hsum := h.addSize_room
  have hint : toInt len = len := toInt_of_lt (by omega) (by omega)
  by_cases hlt : b.writeableBytes < len
  swap
  · exact ⟨b, if_neg hlt, h, rfl, Nat.not_lt.1 hlt, .of_eq rfl⟩
  by_cases hgrow : addSize b.prependableBytes b.writeableBytes <
      toSize (addInt (toInt len) initialPrependSize)
  · obtain ⟨b', hok, hwf, hread, hroom, hlength⟩ :=
      h.ensureWriteableBytes_grow hlen hlt hgrow (by omega)
    refine ⟨b', hok, hwf, hread, hroom, by omega, fun hsmall => ?_⟩
    rw [hsum, hint, toSize_addInt_of_lt hsmall] at hgrow
    omega
  · have hroom : len + initialPrependSize ≤ b.readIndex + (b.buffer.length - b.writeIndex) := by
      rw [hsum, hint] at hgrow
      by_cases hsmall : len + initialPrependSize < 2 ^ 31
      · rw [toSize_addInt_of_lt hsmall] at hgrow
        omega
      · have := le_toSize_addInt hlen (b := initialPrependSize) (by decide) (by omega)
        have := h.read_le; have := h.writeIndex_lt
        omega
    obtain ⟨b', hok, hwf, hread, hroom', hlength⟩ := h.ensureWriteableBytes_front hlt hgrow hroom
    exact ⟨b', hok, hwf, hread, hroom', .of_eq hlength⟩

/-- Below `2 ^ 31` an `append` has a result. -/
theorem Wf.append_of_lt (h : b.Wf) (hlen : data.length < 2 ^ 31)
    (hmax : b.buffer.length + data.length ≤ Vec.maxSize) :
    ∃ b', b.append data = .ok b' ∧ SizeBound b b' data.length := by
  obtain ⟨b₁, hens, hwf, -, hroom, hb⟩ := h.ensureWriteableBytes_of_lt hlen hmax
  rw [hwf.writeableBytes_eq] at hroom
  have := hwf.write_le
  have hv : Vec.write b₁.buffer b₁.writeIndex data = _ := Vec.write_of_le (by omega)
  refine ⟨_, bind_eq_ok.2 ⟨b₁, hens, bind_eq_ok.2 ⟨_, hv, rfl⟩⟩, ?_⟩
  unfold SizeBound at *
  simpa only [Vec.length_write hv] using hb

/-- The buffer between the two halves of a scattering read: the tail is full. -/
theorem Wf.fill {buffer bytes : List UInt8} (h : b.Wf)
    (hv : Vec.write b.buffer b.writeIndex (bytes.take b.writeableBytes) = .ok buffer)
    (hlt : b.writeableBytes < bytes.length) :
    Wf ⟨buffer, b.readIndex, buffer.length⟩ ∧
      readable ⟨buffer, b.readIndex, buffer.length⟩ = b.readable ++ bytes.take b.writeableBytes ∧
      buffer.length = b.buffer.length := by
  have hlen := Vec.length_write hv
  have hwr := h.writeableBytes_eq
  have hw := h.write_data hv
  have := h.write_le; have := h.writeIndex_lt
  have heq : addSize b.writeIndex (bytes.take b.writeableBytes).length = buffer.length := by
    rw [List.length_take, addSize_of_lt] <;> omega
  rw [heq] at hw
  exact ⟨hw.1, hw.2, hlen⟩

/-- `readFd` returns the number of bytes `::readv` delivered. -/
theorem readFd_count {bytes : List UInt8} {n : ℤ} {e : Option Errno}
    (hok : b.readFd (.data bytes) = .ok (n, e, b')) : n = bytes.length := by
  obtain ⟨buffer, hv, hok⟩ := bind_eq_ok.1 hok
  simp only at hok
  split_ifs at hok with hle
  · cases hok
    rfl
  · obtain ⟨b₁, happ, heq⟩ := bind_eq_ok.1 hok
    cases heq
    rfl

/-- A read that has a result adds exactly the bytes `::readv` delivered. -/
theorem Wf.readFd_data {bytes : List UInt8} {n : ℤ} {e : Option Errno} (h : b.Wf)
    (hok : b.readFd (.data bytes) = .ok (n, e, b')) :
    n = bytes.length ∧ e = none ∧ b'.Wf ∧ b'.readable = b.readable ++ bytes := by
  obtain ⟨buffer, hv, hok⟩ := bind_eq_ok.1 hok
  simp only at hok
  split_ifs at hok with hle
  · cases hok
    rw [List.take_of_length_le hle] at hv
    exact ⟨rfl, rfl, h.write_data hv⟩
  · obtain ⟨b₁, happ, heq⟩ := bind_eq_ok.1 hok
    cases heq
    obtain ⟨hwf, hread, -⟩ := h.fill hv (Nat.not_le.1 hle)
    obtain ⟨hwf', hread'⟩ := hwf.append happ
    refine ⟨rfl, rfl, hwf', ?_⟩
    rw [hread', hread, List.append_assoc, List.take_append_drop]

/-- Every read that fits the io vectors has a result. -/
theorem Wf.readFd_of_le {bytes : List UInt8} (h : b.Wf) (hcap : bytes.length ≤ b.iovCapacity)
    (hmax : b.buffer.length + extrabufSize ≤ Vec.maxSize) :
    ∃ b', b.readFd (.data bytes) = .ok (bytes.length, none, b') ∧
      (b'.buffer.length ≤ b.buffer.length + extrabufSize) ∧
      b'.buffer.length ≤
        max b.buffer.length (b.readableBytes + bytes.length + 3 * extrabufSize) := by
  have hwr := h.writeableBytes_eq
  have hrd := h.readableBytes_eq
  have := h.write_le; have := h.read_le
  obtain ⟨buffer, hv⟩ : ∃ buffer,
      Vec.write b.buffer b.writeIndex (bytes.take b.writeableBytes) = .ok buffer :=
    ⟨_, Vec.write_of_le (by rw [List.length_take]; omega)⟩
  by_cases hle : bytes.length ≤ b.writeableBytes
  · refine ⟨_, bind_eq_ok.2 ⟨_, hv, by simp only [if_pos hle]; rfl⟩, ?_, ?_⟩ <;>
      simp only [Vec.length_write hv] <;> omega
  · have hlt := Nat.not_le.1 hle
    obtain ⟨hwf, hread, hlen⟩ := h.fill hv hlt
    have hrest : (bytes.drop b.writeableBytes).length ≤ extrabufSize := by
      rw [List.length_drop]; unfold iovCapacity at hcap; split_ifs at hcap <;> omega
    have hmid := hwf.length_readable
    rw [hread, List.length_append, List.length_take, h.length_readable] at hmid
    have hshort : (bytes.drop b.writeableBytes).length < 2 ^ 31 := by
      unfold extrabufSize at hrest; omega
    obtain ⟨b', happ, hb⟩ := hwf.append_of_lt hshort (by simp only; omega)
    have hmin : min b.writeableBytes bytes.length = b.writeableBytes :=
      Nat.min_eq_left (Nat.le_of_lt hlt)
    refine ⟨b', bind_eq_ok.2 ⟨_, hv, by
      simp only [if_neg hle]; exact bind_eq_ok.2 ⟨_, happ, rfl⟩⟩, ?_, ?_⟩
    · have := hb.1; simp only at this; omega
    · have := hb.2 (by unfold extrabufSize at hrest; unfold initialPrependSize; omega)
      rw [← hmid] at this
      simp only at this
      unfold initialPrependSize extrabufSize at *
      omega

/-! ### Construction -/

theorem wf_empty : empty.Wf := by
  refine ⟨?_, ?_, ?_, ?_⟩ <;> simp only [empty, List.length_replicate, Vec.maxSize] <;> decide

@[simp] theorem readable_empty : empty.readable = [] := by
  simp [empty, readable]

theorem ofSize_of_lt {size : ℕ} (h : initialPrependSize + size ≤ Vec.maxSize) :
    ∃ b, ofSize size = .ok b ∧ b.Wf ∧ b.readable = [] ∧
      b.buffer.length = initialPrependSize + size := by
  have hsum : addSize initialPrependSize size = initialPrependSize + size :=
    addSize_of_lt (by unfold Vec.maxSize at h; omega)
  refine ⟨⟨_, initialPrependSize, initialPrependSize⟩,
    bind_eq_ok.2 ⟨_, Vec.resize_of_le (hsum ▸ h), rfl⟩, ⟨Nat.le_refl _, Nat.le_refl _, ?_, ?_⟩,
    ?_, ?_⟩ <;> simp [readable, hsum, h]

end Buffer

end TinyNetwork
