import Mathlib

/-!
# Results of the system calls on a socket

What `::readv` and `::write` return is up to the kernel; a run of the library is given these
results from outside.
-/

namespace TinyNetwork

/-- The values of `errno` the library tells apart. -/
inductive Errno where
  /-- `EWOULDBLOCK`, the same number as `EAGAIN`. -/
  | wouldBlock
  | pipe
  | connReset
  | intr
  /-- Any other number. -/
  | other (code : ℕ)
  deriving DecidableEq, Repr

/-- The result of a `::readv`. -/
inductive ReadResult where
  /-- The bytes delivered, in the order of the io vectors; none of them at end of file. -/
  | data (bytes : List UInt8)
  | error (errno : Errno)
  deriving DecidableEq, Repr

/-- The result of a `::write`. -/
inductive WriteResult where
  /-- The kernel took the first `n` bytes. -/
  | accepted (n : ℕ)
  | error (errno : Errno)
  deriving DecidableEq, Repr

/-- A `::write` of `len` bytes takes at most `len` of them. -/
def WriteResult.Legal (len : ℕ) : WriteResult → Prop
  | .accepted n => n ≤ len
  | .error _ => True

/-- The most that one `::write` takes on Linux, `MAX_RW_COUNT`. -/
def WriteResult.maxTransfer : ℕ := 0x7ffff000

/-- The number of bytes a `::write` took. -/
def WriteResult.count : WriteResult → ℕ
  | .accepted n => n
  | .error _ => 0

instance (len : ℕ) (w : WriteResult) : Decidable (w.Legal len) := by
  cases w <;> unfold WriteResult.Legal <;> infer_instance

end TinyNetwork
