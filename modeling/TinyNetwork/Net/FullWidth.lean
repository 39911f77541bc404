import TinyNetwork.Net.Buffer

/-!
# Lengths of any size in `Buffer`

`ensureWriteableBytes` and `retrieveAsString` take a `size_t` and pass it on as an `int`.  From
`2 ^ 31` on the length is sign-extended from its low 32 bits: the vector then shrinks, is asked for
more than it can hold or stays as it is, and `retrieve` drops another number of bytes.

## Main results

* `append_eq_lengthError_iff` : when `append` throws.
* `makesRoom_iff`, `takesExactly_iff` : when making room and taking a string out do their work.
* `fullWidth_iff` : both together.
* `not_fullWidth` : `2 ^ 31` bytes do not fit into an empty buffer.
-/

namespace TinyNetwork

open Lp64

namespace Buffer

variable {b b' : Buffer} {len : ℕ}

/-- The storage that `len` more bytes need can be allocated. -/
def Allocates (b : Buffer) (len : ℕ) : Prop :=
  b.prependableBytes + b.writeableBytes < len + initialPrependSize →
    b.writeIndex + len ≤ Vec.maxSize

/-- `ensureWriteableBytes(len)` keeps the contents and makes room, so that `append(data, len)` stays
in bounds. -/
def MakesRoom (b : Buffer) (len : ℕ) : Prop :=
  ∃ b', b.ensureWriteableBytes len = .ok b' ∧ b'.readable = b.readable ∧
    len ≤ b'.writeableBytes ∧ ∀ data, data.length = len → ∃ b'', b.append data = .ok b''

/-- `retrieveAsString(len)` removes exactly the bytes it returns. -/
def TakesExactly (b : Buffer) (len : ℕ) : Prop :=
  ∃ b', b.retrieveAsString len = .ok (b.readable.take len, b') ∧ b'.readable = b.readable.drop len

/-- For `len` bytes there is no room, and `resize_` asks for a storage of more than `max_size()`. -/
def Overflows (b : Buffer) (len : ℕ) : Prop :=
  b.writeableBytes < len ∧
    addSize b.prependableBytes b.writeableBytes < toSize (addInt (toInt len) initialPrependSize) ∧
    Vec.maxSize < addSize b.writeIndex (toSize (toInt len))

/-! ### Making room -/

/-- **When `append` throws**, for data of any length. -/
theorem append_eq_lengthError_iff {data : List UInt8} :
    b.append data = .error .lengthError ↔ b.Overflows data.length := by
  have hwrite (b : Buffer) :
      (do let buffer ← Vec.write b.buffer b.writeIndex data
          return { b with buffer, writeIndex := addSize b.writeIndex data.length } :
        Except Fault Buffer) ≠ .error .lengthError := by
    rw [Ne, bind_eq_error]
    rintro (h | ⟨_, -, h⟩)
    · exact Vec.write_ne_lengthError h
    · cases h
  -- only the resize of the storage throws
  have hensure : b.append data = .error .lengthError ↔
      b.ensureWriteableBytes data.length = .error .lengthError := by
    rw [append, bind_eq_error]
    refine or_iff_left ?_
    rintro ⟨b', -, h⟩
    exact hwrite b' h
  rw [hensure, ensureWriteableBytes, Overflows]
  split_ifs with hlt
  · rw [resize]
    split_ifs with hgrow
    · rw [bind_eq_error, Vec.resize_eq_error]
      simp only [hlt, hgrow, true_and, and_true]
      refine or_iff_left ?_
      rintro ⟨_, -, h⟩
      cases h
    · rw [bind_eq_error]
      refine iff_of_false ?_ fun h => hgrow h.2.1
      rintro (h | ⟨_, -, h⟩)
      · exact Vec.copy_ne_lengthError h
      · cases h
  · exact iff_of_false (by simp) fun h => hlt h.1

/-- With room in a well-formed buffer an `append` stays in bounds. -/
theorem makesRoom_of (hok : b.ensureWriteableBytes len = .ok b') (hwf : b'.Wf)
    (hread : b'.readable = b.readable) (hroom : len ≤ b'.writeableBytes) : b.MakesRoom len := by
  refine ⟨b', hok, hread, hroom, fun data hdata => ?_⟩
  have := hwf.write_le
  rw [hwf.writeableBytes_eq] at hroom
  have hens : b.ensureWriteableBytes data.length = .ok b' := by rw [hdata, hok]
  exact ⟨_, bind_eq_ok.2 ⟨b', hens, bind_eq_ok.2 ⟨_, Vec.write_of_le (by omega), rfl⟩⟩⟩

/-- The room behind the readable bytes, once they stand at the front. -/
theorem Wf.writeableBytes_front (h : b.Wf) (hwf : b'.Wf) (hread : b'.readable = b.readable)
    (hr : b'.readIndex = initialPrependSize) (hlength : b'.buffer.length = b.buffer.length) :
    b'.writeableBytes + initialPrependSize = b.prependableBytes + b.writeableBytes := by
  have hlen := congrArg List.length hread
  rw [hwf.length_readable, h.length_readable, hwf.readableBytes_eq, h.readableBytes_eq, hr] at hlen
  have := hwf.prepend_le; have := hwf.read_le; have := hwf.write_le
  have := h.read_le; have := h.write_le
  rw [hwf.writeableBytes_eq, h.writeableBytes_eq, hlength, prependableBytes]
  omega

/-- The sum that `resize_` compares with the room, sign-extended from its low 32 bits. -/
theorem toSize_addInt_toInt (m n : ℕ) :
    toSize (addInt (toInt m) n) =
      if (m + n) % 2 ^ 32 < 2 ^ 31 then (m + n) % 2 ^ 32
      else 2 ^ 64 - 2 ^ 32 + (m + n) % 2 ^ 32 := by
  have hsum : addInt (toInt m) n = toInt (m + n : ℕ) := by
    rw [addInt, toInt_eq, toInt_eq, toInt_eq]
    omega
  rw [hsum, toSize_toInt]

/-- A resize that leaves `len` bytes behind `writeIndex` in the storage has not been narrowed. -/
theorem lt_of_resize {w : ℕ} (hw : w < 2 ^ 63) (hlen : len < 2 ^ 64)
    (hmax : addSize w (toSize (toInt len)) ≤ Vec.maxSize)
    (hle : w + len ≤ addSize w (toSize (toInt len))) : len < 2 ^ 31 := by
  rw [toSize_toInt, addSize] at hle hmax
  unfold Vec.maxSize at hmax
  split_ifs at hle hmax with hlow <;> omega

/-- **When making room does its work**, for a length of any size. -/
theorem makesRoom_iff (h : b.Wf) (hlen : len < 2 ^ 64) (halloc : b.Allocates len) :
    b.MakesRoom len ↔ len ≤ b.writeableBytes ∨
      len < 2 ^ 31 ∧ (len + initialPrependSize < 2 ^ 31 ∨ b.writeIndex + len ≤ Vec.maxSize) ∨
      len + initialPrependSize ≤ b.prependableBytes + b.writeableBytes ∧
        (len + initialPrependSize) % 2 ^ 32 < 2 ^ 31 := by
  have hsum := h.addSize_room
  have hwr := h.writeableBytes_eq
  have := h.write_le; have := h.read_le; have := h.writeIndex_lt
  have hprep : b.prependableBytes = b.readIndex := rfl
  have hneed := toSize_addInt_toInt len initialPrependSize
  constructor
  · rintro ⟨b', hok, hread, hroom, happend⟩
    rcases h.ensureWriteableBytes_cases hok with ⟨-, hle⟩ | ⟨-, -, hw, -, hres⟩ |
      ⟨-, hgrow, hwf, -, hr, hlength⟩
    · exact .inl hle
    · -- the storage was resized, and `len` bytes are written into it
      obtain ⟨b'', hwrite⟩ := happend (List.replicate len 0) List.length_replicate
      obtain ⟨b₁, hens, hwrite⟩ := bind_eq_ok.1 hwrite
      obtain ⟨buffer, hv, -⟩ := bind_eq_ok.1 hwrite
      rw [List.length_replicate] at hens
      obtain rfl := Except.ok.inj (hok.symm.trans hens)
      have hle := (Vec.write_eq_ok.1 hv).1
      rw [hw, List.length_replicate, Vec.length_resize hres] at hle
      have hmax := (Vec.resize_eq_ok.1 hres).1
      exact .inr (.inl ⟨lt_of_resize (by omega) hlen hmax hle, .inr (hle.trans hmax)⟩)
    · -- the readable bytes moved to the front
      have hfront := h.writeableBytes_front hwf hread hr hlength
      refine .inr (.inr ⟨by omega, ?_⟩)
      rw [hsum, hneed] at hgrow
      split_ifs at hgrow with hlow
      · exact hlow
      · omega
  · intro hcond
    by_cases hle : len ≤ b.writeableBytes
    · exact makesRoom_of (if_neg (Nat.not_lt.2 hle)) h rfl hle
    have hlt := Nat.not_le.1 hle
    by_cases hgrow : addSize b.prependableBytes b.writeableBytes <
        toSize (addInt (toInt len) initialPrependSize)
    · -- the storage is resized
      have hshort : len < 2 ^ 31 ∧ b.writeIndex + len ≤ Vec.maxSize := by
        rw [hsum, hneed] at hgrow
        rcases hcond with h' | ⟨hlt, hsmall | hmax⟩ | ⟨hroom, hlow⟩
        · exact absurd h' hle
        · rw [if_pos (by omega)] at hgrow
          exact ⟨hlt, halloc (by omega)⟩
        · exact ⟨hlt, hmax⟩
        · rw [if_pos hlow] at hgrow
          omega
      obtain ⟨b', hok, hwf, hread, hroom, -⟩ :=
        h.ensureWriteableBytes_grow hshort.1 hlt hgrow hshort.2
      exact makesRoom_of hok hwf hread hroom
    · -- the readable bytes move to the front
      have hroom : len + initialPrependSize ≤
          b.readIndex + (b.buffer.length - b.writeIndex) := by
        rw [hsum, hneed] at hgrow
        have : initialPrependSize = 8 := rfl
        rcases hcond with h' | ⟨hlt, -⟩ | ⟨hroom, -⟩
        · exact absurd h' hle
        · split_ifs at hgrow <;> omega
        · omega
      obtain ⟨b', hok, hwf, hread, hroom', -⟩ := h.ensureWriteableBytes_front hlt hgrow hroom
      exact makesRoom_of hok hwf hread hroom'

/-! ### Taking a string out -/

/-- Dropping from a list leaves the same for two numbers only if both drop everything. -/
theorem drop_eq_drop_iff {l : List UInt8} {m n : ℕ} :
    l.drop m = l.drop n ↔ m = n ∨ l.length ≤ m ∧ l.length ≤ n := by
  constructor
  · intro h
    have hlength := congrArg List.length h
    simp only [List.length_drop] at hlength
    omega
  · rintro (rfl | ⟨hm, hn⟩)
    · rfl
    · rw [List.drop_of_length_le hm, List.drop_of_length_le hn]

/-- **When taking a string out removes what it returns**, for a length of any size. -/
theorem takesExactly_iff (h : b.Wf) (hle : len ≤ b.readableBytes) :
    b.TakesExactly len ↔ len < 2 ^ 31 ∨ len = b.readableBytes ∧ 2 ^ 31 ≤ len % 2 ^ 32 := by
  have hlt := h.readableBytes_lt
  have htakes : b.TakesExactly len ↔
      b.readable.drop (toSize (toInt len)) = b.readable.drop len := by
    rw [TakesExactly, h.retrieveAsString_of_le hle, ← h.readable_retrieve]
    constructor
    · rintro ⟨b', hok, hread⟩
      cases hok
      exact hread
    · exact fun hread => ⟨_, rfl, hread⟩
  rw [htakes, drop_eq_drop_iff, h.length_readable, toSize_toInt]
  split_ifs with hlow <;> omega

/-! ### Both -/

/-- The two operations do for `len` what they do for small lengths. -/
def FullWidth (b : Buffer) (len : ℕ) : Prop :=
  b.MakesRoom len ∧ (len ≤ b.readableBytes → b.TakesExactly len)

/-- **When `Buffer` takes a full-width length**: the length is below `2 ^ 31`, or there is room for
it without a resize and no string of that length is there to be taken out, save the whole. -/
theorem fullWidth_iff (h : b.Wf) (hlen : len < 2 ^ 64) (halloc : b.Allocates len) :
    b.FullWidth len ↔
      (len ≤ b.writeableBytes ∨
        len < 2 ^ 31 ∧ (len + initialPrependSize < 2 ^ 31 ∨ b.writeIndex + len ≤ Vec.maxSize) ∨
        len + initialPrependSize ≤ b.prependableBytes + b.writeableBytes ∧
          (len + initialPrependSize) % 2 ^ 32 < 2 ^ 31) ∧
      (len ≤ b.readableBytes →
        len < 2 ^ 31 ∨ len = b.readableBytes ∧ 2 ^ 31 ≤ len % 2 ^ 32) :=
  and_congr (makesRoom_iff h hlen halloc) (forall_congr' fun hle => takesExactly_iff h hle)

theorem fullWidth_iff_empty : empty.FullWidth 2000 :=
  (fullWidth_iff wf_empty (by decide) fun _ => by decide).2
    ⟨.inr (.inl ⟨by decide, .inl (by decide)⟩), fun _ => .inl (by decide)⟩

/-- Room for `2 ^ 31` bytes is asked for as room for a negative number. -/
theorem not_fullWidth : ¬ ∀ (b : Buffer) (len : ℕ), b.Wf → len < 2 ^ 64 → b.Allocates len →
    b.FullWidth len := by
  intro hall
  have hroom := (hall empty (2 ^ 31) wf_empty (by decide) fun _ => by decide).1
  have hw : empty.writeableBytes = 1024 := by
    rw [wf_empty.writeableBytes_eq, empty, List.length_replicate]
    rfl
  have hprep : empty.prependableBytes = initialPrependSize := rfl
  rw [makesRoom_iff wf_empty (by decide) (fun _ => by decide), hw, hprep] at hroom
  unfold initialPrependSize at hroom
  omega

end Buffer

end TinyNetwork
