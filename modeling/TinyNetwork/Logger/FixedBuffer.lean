import TinyNetwork.Base.Vec

/-!
# `FixedBuffer`

An array of `SIZE` bytes and a cursor.  The bytes before the cursor are those the buffer has
accepted since its last `reset`; a message that does not leave a byte free is dropped.

## Main results

* `FixedBuffer.accepted_append_of_lt` : a message that fits is accepted whole, at the end.
* `FixedBuffer.accepted_isPrefix` : `data()` and `length()` cover the accepted bytes.
-/

namespace TinyNetwork

def kLargeBuffer : ℕ := 4000 * 1000

/-- `class FixedBuffer<SIZE>`; the cursor `cur_` is its offset from `data_`. -/
structure FixedBuffer (SIZE : ℕ) where
  data : List UInt8
  cur : ℕ
  length_data : data.length = SIZE
  cur_le : cur ≤ SIZE
  deriving DecidableEq

namespace FixedBuffer

variable {SIZE : ℕ}

/-- The constructor; the array is not initialised and holds whatever `storage` holds. -/
def create (storage : List UInt8) (h : storage.length = SIZE) : FixedBuffer SIZE :=
  ⟨storage, 0, h, Nat.zero_le _⟩

def avail (b : FixedBuffer SIZE) : ℕ := SIZE - b.cur

/-- `append(buf, len)`. -/
def append (b : FixedBuffer SIZE) (buf : List UInt8) : FixedBuffer SIZE :=
  if h : buf.length < b.avail then
    { data := b.data.take b.cur ++ buf ++ b.data.drop (b.cur + buf.length)
      cur := b.cur + buf.length
      length_data := by
        have := b.length_data
        simp only [List.length_append, List.length_take, List.length_drop]
        unfold avail at h
        omega
      cur_le := by unfold avail at h; omega }
  else b

/-- Bytes written at `current()`; the cursor stays where it is. -/
def write (b : FixedBuffer SIZE) (bytes : List UInt8) : Except Fault (FixedBuffer SIZE) :=
  if h : b.cur + bytes.length ≤ SIZE then
    .ok { b with
      data := b.data.take b.cur ++ bytes ++ b.data.drop (b.cur + bytes.length)
      length_data := by
        have := b.length_data
        simp only [List.length_append, List.length_take, List.length_drop]
        omega }
  else .error .outOfRange

/-- `add(len)`. -/
def add (b : FixedBuffer SIZE) (len : ℕ) : Except Fault (FixedBuffer SIZE) :=
  if h : b.cur + len ≤ SIZE then .ok { b with cur := b.cur + len, cur_le := h }
  else .error .outOfRange

/-- `length()` is the size of the array, whatever the cursor is. -/
def length (_b : FixedBuffer SIZE) : ℕ := SIZE

def reset (b : FixedBuffer SIZE) : FixedBuffer SIZE := { b with cur := 0, cur_le := Nat.zero_le _ }

theorem length_zeros (SIZE : ℕ) : (List.replicate SIZE (0 : UInt8)).length = SIZE :=
  List.length_replicate

def bzero (b : FixedBuffer SIZE) : FixedBuffer SIZE :=
  { b with data := List.replicate SIZE 0, length_data := length_zeros SIZE }

/-- The bytes before the cursor. -/
def accepted (b : FixedBuffer SIZE) : List UInt8 := b.data.take b.cur

variable {b : FixedBuffer SIZE} {buf : List UInt8}

/-- A message that fits is accepted whole, at the end. -/
theorem accepted_append_of_lt (h : buf.length < b.avail) :
    (b.append buf).accepted = b.accepted ++ buf := by
  have hlen : (b.data.take b.cur ++ buf).length = b.cur + buf.length := by
    have := b.length_data; have := b.cur_le
    simp only [List.length_append, List.length_take]
    omega
  rw [append, dif_pos h, accepted]
  simp only
  rw [← hlen, List.take_left]
  rfl

@[simp] theorem cur_append_of_lt (h : buf.length < b.avail) :
    (b.append buf).cur = b.cur + buf.length := by
  rw [append, dif_pos h]

/-- A message that does not fit is dropped. -/
theorem append_of_le (h : b.avail ≤ buf.length) : b.append buf = b := dif_neg (Nat.not_lt.2 h)

theorem length_accepted : b.accepted.length = b.cur := by
  rw [accepted, List.length_take, b.length_data]
  exact Nat.min_eq_left b.cur_le

/-- A message leaves the bytes behind it as they are. -/
theorem getElem?_append {i : ℕ} (hi : b.cur + buf.length ≤ i) :
    (b.append buf).data[i]? = b.data[i]? := by
  rw [append]
  split_ifs with h
  · have hlen : (b.data.take b.cur ++ buf).length = b.cur + buf.length := by
      have := b.length_data; have := b.cur_le
      simp only [List.length_append, List.length_take]
      omega
    rw [List.getElem?_append_right (by omega), hlen, List.getElem?_drop]
    congr 1
    omega
  · rfl

/-- Writing at the cursor accepts nothing yet. -/
theorem write_of_le {bytes : List UInt8} (h : b.cur + bytes.length ≤ SIZE) :
    ∃ b', b.write bytes = .ok b' ∧ b'.cur = b.cur ∧
      b'.data.take (b.cur + bytes.length) = b.accepted ++ bytes ∧
      ∀ i, b.cur + bytes.length ≤ i → b'.data[i]? = b.data[i]? := by
  have hlen : (b.data.take b.cur ++ bytes).length = b.cur + bytes.length := by
    rw [List.length_append, ← accepted, length_accepted]
  refine ⟨_, dif_pos h, rfl, ?_, ?_⟩
  · simp only
    rw [← hlen, List.take_left]
    rfl
  · intro i hi
    simp only
    rw [List.getElem?_append_right (by omega), hlen, List.getElem?_drop]
    congr 1
    omega

/-- Bytes that are written at the cursor, over whatever was written there before, and then moved
behind it are accepted. -/
theorem write_add {bytes scratch : List UInt8} (hscratch : b.cur + scratch.length ≤ SIZE)
    (hbytes : bytes.length ≤ scratch.length) :
    ∃ b', (do
      let b ← b.write scratch
      let b ← b.write bytes
      b.add bytes.length) = .ok b' ∧ b'.accepted = b.accepted ++ bytes ∧
        ∀ i, b.cur + scratch.length ≤ i → b'.data[i]? = b.data[i]? := by
  obtain ⟨b₁, h₁, hcur₁, htake₁, hdata₁⟩ := write_of_le hscratch
  have hacc₁ : b₁.accepted = b.accepted := by
    have hprefix := congrArg (List.take b.cur) htake₁
    rwa [List.take_take, Nat.min_eq_left (Nat.le_add_right _ _),
      List.take_left' length_accepted, ← hcur₁] at hprefix
  obtain ⟨b₂, h₂, hcur₂, htake₂, hdata₂⟩ :=
    write_of_le (show b₁.cur + bytes.length ≤ SIZE by omega)
  have hle : b₂.cur + bytes.length ≤ SIZE := by omega
  refine ⟨{ b₂ with cur := b₂.cur + bytes.length, cur_le := hle }, ?_, ?_, ?_⟩
  · rw [bind_eq_ok]
    refine ⟨b₁, h₁, ?_⟩
    rw [bind_eq_ok]
    exact ⟨b₂, h₂, dif_pos hle⟩
  · show b₂.data.take (b₂.cur + bytes.length) = _
    rw [hcur₂, htake₂, hacc₁]
  · intro i hi
    rw [hdata₂ i (by omega), hdata₁ i hi]

@[simp] theorem accepted_create {storage : List UInt8} (h : storage.length = SIZE) :
    (create storage h).accepted = [] := rfl

@[simp] theorem accepted_reset : b.reset.accepted = [] := rfl

/-- What a writer is given, `length()` bytes from `data()` on, is the whole array. -/
theorem take_length : b.data.take b.length = b.data :=
  List.take_of_length_le (Nat.le_of_eq b.length_data)

/-- It begins with the accepted bytes. -/
theorem accepted_isPrefix : b.accepted <+: b.data.take b.length := by
  rw [take_length]
  exact List.take_prefix _ _

end FixedBuffer

end TinyNetwork
