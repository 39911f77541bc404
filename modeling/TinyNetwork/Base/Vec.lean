import Mathlib

/-!
# Storage of a `std::vector` and checked copies

The elements of a vector are a list.  A resize past `maxSize` throws, a copy that leaves the
storage or overlaps itself the wrong way is undefined behaviour; either is a `Fault`, after which
the program has no further state.
-/

namespace TinyNetwork

/-- Why an operation has no result. -/
inductive Fault where
  /-- `std::vector` was asked for more than `max_size()` elements. -/
  | lengthError
  /-- A copy reads or writes outside its storage. -/
  | outOfRange
  /-- The destination of a forward copy starts inside its source. -/
  | overlap
  /-- A null pointer is dereferenced. -/
  | nullPointer
  /-- `back()` of an empty vector. -/
  | emptyVector
  deriving DecidableEq, Repr

theorem bind_eq_ok {ε : Type*} {α β : Type} {x : Except ε α} {f : α → Except ε β} {b : β} :
    (x >>= f) = .ok b ↔ ∃ a, x = .ok a ∧ f a = .ok b := by
  cases x with
  | error e => simp [bind, Except.bind]
  | ok a => simp [bind, Except.bind]

theorem bind_eq_error {ε : Type*} {α β : Type} {x : Except ε α} {f : α → Except ε β} {e : ε} :
    (x >>= f) = .error e ↔ x = .error e ∨ ∃ a, x = .ok a ∧ f a = .error e := by
  cases x with
  | error e' => simp [bind, Except.bind]
  | ok a => simp [bind, Except.bind]

namespace Vec

variable {α : Type}

/-- `max_size()` of a vector of bytes: the largest `ptrdiff_t`. -/
def maxSize : ℕ := 2 ^ 63 - 1

/-- `v.resize(n)`: new elements are `fill`. -/
def resize (v : List α) (n : ℕ) (fill : α) : Except Fault (List α) :=
  if maxSize < n then .error .lengthError
  else .ok (v.take n ++ List.replicate (n - v.length) fill)

/-- The `n` elements from index `i` on. -/
def read (v : List α) (i n : ℕ) : Except Fault (List α) :=
  if i + n ≤ v.length then .ok ((v.drop i).take n) else .error .outOfRange

/-- Copy `xs` over the elements from index `i` on. -/
def write (v : List α) (i : ℕ) (xs : List α) : Except Fault (List α) :=
  if i + xs.length ≤ v.length then .ok (v.take i ++ xs ++ v.drop (i + xs.length))
  else .error .outOfRange

/-- `std::copy(v + first, v + last, v + dest)`. -/
def copy (v : List α) (first last dest : ℕ) : Except Fault (List α) :=
  if first ≤ dest ∧ dest < last then .error .overlap
  else read v first (last - first) >>= write v dest

variable {v w xs : List α} {i n : ℕ} {fill : α}

theorem resize_of_le (h : n ≤ maxSize) :
    resize v n fill = .ok (v.take n ++ List.replicate (n - v.length) fill) := by
  simp [resize, Nat.not_lt.2 h]

theorem read_of_le (h : i + n ≤ v.length) : read v i n = .ok ((v.drop i).take n) := if_pos h

theorem write_of_le (h : i + xs.length ≤ v.length) :
    write v i xs = .ok (v.take i ++ xs ++ v.drop (i + xs.length)) := if_pos h

theorem resize_eq_ok : resize v n fill = .ok w ↔
    n ≤ maxSize ∧ w = v.take n ++ List.replicate (n - v.length) fill := by
  unfold resize
  split_ifs with h
  · simp; omega
  · simp [Nat.not_lt.1 h, eq_comm]

theorem write_eq_ok : write v i xs = .ok w ↔
    i + xs.length ≤ v.length ∧ w = v.take i ++ xs ++ v.drop (i + xs.length) := by
  unfold write
  split_ifs with h <;> simp [h, eq_comm]

theorem resize_eq_error {e : Fault} :
    resize v n fill = .error e ↔ maxSize < n ∧ e = .lengthError := by
  unfold resize
  split_ifs with h <;> simp [h, eq_comm]

/-- A copy never throws. -/
theorem write_ne_lengthError : write v i xs ≠ .error .lengthError := by
  unfold write
  split_ifs <;> simp

theorem copy_ne_lengthError {first last dest : ℕ} :
    copy v first last dest ≠ .error .lengthError := by
  unfold copy
  split_ifs
  · simp
  · rw [Ne, bind_eq_error, read]
    rintro (hread | ⟨ys, -, hwrite⟩)
    · split_ifs at hread
      cases hread
    · exact write_ne_lengthError hwrite

theorem length_resize (h : resize v n fill = .ok w) : w.length = n := by
  obtain ⟨-, rfl⟩ := resize_eq_ok.1 h
  simp only [List.length_append, List.length_take, List.length_replicate]
  omega

theorem length_write (h : write v i xs = .ok w) : w.length = v.length := by
  obtain ⟨hle, rfl⟩ := write_eq_ok.1 h
  simp only [List.length_append, List.length_take, List.length_drop]
  omega

end Vec

end TinyNetwork
