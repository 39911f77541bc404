import TinyNetwork.Base.Crlf
import TinyNetwork.Base.Vec

/-!
# `FileUtil`

`append` offers its data to `fwrite_unlocked` until all of it is accepted.  What a call accepts,
and whether the stream is in an error state, is up to the C library.  The loop is run with a
number of passes as fuel; it has a result if it ends within them.

## Main results

* `FileUtil.Appended.iterate` : what the stream has accepted after any number of passes.
* `Stdio.exists_accepted` : a stream that does not get stuck accepts everything.
* `FileUtil.ends_iff` : `append` ends exactly when the stream does not get stuck.
-/

namespace TinyNetwork

/-- What a `FILE*` does.  Its states are those of `σ`. -/
structure Stdio (σ : Type) where
  /-- `fwrite_unlocked(data, 1, len, fp)`: the number of bytes accepted. -/
  fwrite : σ → List UInt8 → ℕ × σ
  ferror : σ → ℤ
  fflush : σ → σ
  fwrite_le : ∀ fp data, (fwrite fp data).1 ≤ data.length

/-- `class FileUtil`. -/
structure FileUtil (σ : Type) where
  /-- The name that `fp` was opened under, in the mode "ae". -/
  fileName : List UInt8
  fp : σ
  writtenBytes : ℕ
  /-- The bytes that `fp` has accepted. -/
  accepted : List UInt8
  /-- The errors reported on `stderr`. -/
  failures : List ℤ

variable {σ : Type}

namespace Stdio

/-- Offer data to a stream; what it does not accept is left. -/
def offer (io : Stdio σ) (p : σ × List UInt8) : σ × List UInt8 :=
  ((io.fwrite p.1 p.2).2, p.2.drop (io.fwrite p.1 p.2).1)

/-- Some time there are bytes left of which no further call accepts any. -/
def Stuck (io : Stdio σ) (fp : σ) (data : List UInt8) : Prop :=
  ∃ k, (io.offer^[k] (fp, data)).2 ≠ [] ∧
    ∀ j, (io.offer^[k + j] (fp, data)).2 = (io.offer^[k] (fp, data)).2

end Stdio

namespace FileUtil

/-- `FileUtil(fileName)`, for the stream that `fopen` returns. -/
def create (fileName : List UInt8) (fp : σ) : FileUtil σ := ⟨fileName, fp, 0, [], []⟩

variable (io : Stdio σ)

/-- `write(data, len)`. -/
def write (file : FileUtil σ) (data : List UInt8) : ℕ × FileUtil σ :=
  let r := io.fwrite file.fp data
  (r.1, { file with fp := r.2, accepted := file.accepted ++ data.take r.1 })

/-- One pass of the loop of `append`, for the file and `written`. -/
def pass (data : List UInt8) (p : FileUtil σ × ℕ) : FileUtil σ × ℕ :=
  let remain := data.length - p.2
  let r := p.1.write io (data.drop p.2)
  let err := io.ferror r.2.fp
  if r.1 ≠ remain ∧ err ≠ 0 then
    ({ r.2 with failures := r.2.failures ++ [err] }, p.2 + r.1)
  else (r.2, p.2 + r.1)

/-- The loop of `append`, if it ends within `fuel` passes. -/
def appendLoop (data : List UInt8) : ℕ → FileUtil σ × ℕ → Option (FileUtil σ × ℕ)
  | 0, _ => none
  | fuel + 1, p => if p.2 ≠ data.length then appendLoop data fuel (pass io data p) else some p

/-- `append(data, len)`. -/
def append (fuel : ℕ) (file : FileUtil σ) (data : List UInt8) : Option (FileUtil σ) :=
  (appendLoop io data fuel (file, 0)).map fun p =>
    { p.1 with writtenBytes := p.1.writtenBytes + p.2 }

def flush (file : FileUtil σ) : FileUtil σ := { file with fp := io.fflush file.fp }

/-- `append` ends.  The stream has accepted a prefix of the data, each byte once and in order; the
prefix is counted, and it is all of the data if there is no error. -/
def Ends (file : FileUtil σ) (data : List UInt8) : Prop :=
  ∃ fuel file' text, append io fuel file data = some file' ∧ text <+: data ∧
    file'.accepted = file.accepted ++ text ∧
    file'.writtenBytes = file.writtenBytes + text.length ∧
    (io.ferror file'.fp = 0 → text = data)

end FileUtil

/-! ### Streams -/

namespace Stdio

variable {io : Stdio σ} {fp : σ} {data : List UInt8}

/-- What is left is a suffix of the data. -/
theorem iterate_suffix (io : Stdio σ) (p : σ × List UInt8) (k j : ℕ) :
    (io.offer^[k + j] p).2 <:+ (io.offer^[k] p).2 := by
  induction j with
  | zero => exact List.suffix_rfl
  | succ j ih =>
    rw [← Nat.add_assoc, Function.iterate_succ_apply']
    exact (List.drop_suffix _ _).trans ih

/-- A stream that does not get stuck accepts everything. -/
theorem exists_accepted (h : ¬ io.Stuck fp data) : ∃ k, (io.offer^[k] (fp, data)).2 = [] := by
  by_contra hleft
  push Not at hleft
  -- a call after which the least number of bytes is left
  let left : ℕ → ℕ := fun k => (io.offer^[k] (fp, data)).2.length
  refine h ⟨Function.argmin left, hleft _, fun j => ?_⟩
  have hmin : left (Function.argmin left) ≤ left (Function.argmin left + j) :=
    Function.argmin_le left _
  exact (io.iterate_suffix (fp, data) _ j).eq_of_length_le hmin

/-- A stream that accepts everything is not stuck. -/
theorem not_stuck {k : ℕ} (h : (io.offer^[k] (fp, data)).2 = []) : ¬ io.Stuck fp data := by
  rintro ⟨m, hleft, hstuck⟩
  have hsuffix := io.iterate_suffix (fp, data) k m
  rw [h, Nat.add_comm, hstuck k] at hsuffix
  exact hleft (List.suffix_nil.1 hsuffix)

end Stdio

/-! ### The loop -/

namespace FileUtil

variable {io : Stdio σ} {data : List UInt8} {file file' : FileUtil σ} {fuel : ℕ}
  {p q : FileUtil σ × ℕ}

/-- How far `append` has come, when the stream was in the state `fp` at first. -/
structure Appended (file : FileUtil σ) (data : List UInt8) (r : σ × List UInt8)
    (p : FileUtil σ × ℕ) : Prop where
  fileName : p.1.fileName = file.fileName
  fp : p.1.fp = r.1
  rest : data.drop p.2 = r.2
  written : p.2 ≤ data.length
  accepted : p.1.accepted = file.accepted ++ data.take p.2
  writtenBytes : p.1.writtenBytes = file.writtenBytes

theorem Appended.pass {r : σ × List UInt8} (h : Appended file data r p) :
    Appended file data (io.offer r) (pass io data p) := by
  obtain ⟨fp, rest⟩ := r
  obtain ⟨hname, rfl, rfl, hwritten, hacc, hbytes⟩ := h
  have hle : (io.fwrite p.1.fp (data.drop p.2)).1 ≤ data.length - p.2 := by
    rw [← List.length_drop]
    exact io.fwrite_le _ _
  have htake : data.take p.2 ++ (data.drop p.2).take (io.fwrite p.1.fp (data.drop p.2)).1 =
      data.take (p.2 + (io.fwrite p.1.fp (data.drop p.2)).1) := List.take_add.symm
  have hacc' : p.1.accepted ++ (data.drop p.2).take (io.fwrite p.1.fp (data.drop p.2)).1 =
      file.accepted ++ data.take (p.2 + (io.fwrite p.1.fp (data.drop p.2)).1) := by
    rw [hacc, List.append_assoc, htake]
  have hwritten' := Nat.add_le_of_le_sub' hwritten hle
  -- an error is reported, but the loop goes on
  unfold FileUtil.pass FileUtil.write
  dsimp only
  split
  · exact ⟨hname, rfl, List.drop_drop.symm, hwritten', hacc', hbytes⟩
  · exact ⟨hname, rfl, List.drop_drop.symm, hwritten', hacc', hbytes⟩

/-- What the stream has accepted after any number of passes. -/
theorem Appended.iterate (io : Stdio σ) (file : FileUtil σ) (data : List UInt8) (k : ℕ) :
    Appended file data (io.offer^[k] (file.fp, data)) ((FileUtil.pass io data)^[k] (file, 0)) := by
  induction k with
  | zero => exact ⟨rfl, rfl, rfl, Nat.zero_le _, (List.append_nil _).symm, rfl⟩
  | succ k ih =>
    rw [Function.iterate_succ_apply', Function.iterate_succ_apply']
    exact ih.pass

theorem appendLoop_eq_some (h : appendLoop io data fuel p = some q) :
    ∃ k, q = (pass io data)^[k] p ∧ q.2 = data.length := by
  induction fuel generalizing p with
  | zero => cases h
  | succ fuel ih =>
    rw [appendLoop] at h
    split_ifs at h with hmore
    · obtain ⟨k, hk, hlen⟩ := ih h
      exact ⟨k + 1, hk, hlen⟩
    · rw [Option.some.injEq] at h
      subst h
      exact ⟨0, rfl, not_not.1 hmore⟩

/-- The loop ends when nothing is left. -/
theorem exists_appendLoop {k : ℕ} (h : ((pass io data)^[k] p).2 = data.length) :
    ∃ q, appendLoop io data (k + 1) p = some q := by
  induction k generalizing p with
  | zero => exact ⟨p, if_neg (not_not.2 h)⟩
  | succ k ih =>
    rw [appendLoop]
    split_ifs with hmore
    · exact ih h
    · exact ⟨p, rfl⟩

/-- **All of the data is accepted when `append` ends**, each byte once and in order. -/
theorem append_eq_some (h : append io fuel file data = some file') :
    file'.accepted = file.accepted ++ data ∧
      file'.writtenBytes = file.writtenBytes + data.length ∧
      ∃ k, (io.offer^[k] (file.fp, data)).2 = [] := by
  obtain ⟨p, hp, rfl⟩ := Option.map_eq_some_iff.1 h
  obtain ⟨k, rfl, hlen⟩ := appendLoop_eq_some hp
  have happended := Appended.iterate io file data k
  refine ⟨?_, ?_, k, ?_⟩
  · rw [happended.accepted, hlen, List.take_length]
  · rw [happended.writtenBytes, hlen]
  · rw [← happended.rest, hlen, List.drop_length]

theorem fileName_append (h : append io fuel file data = some file') :
    file'.fileName = file.fileName := by
  obtain ⟨p, hp, rfl⟩ := Option.map_eq_some_iff.1 h
  obtain ⟨k, rfl, -⟩ := appendLoop_eq_some hp
  exact (Appended.iterate io file data k).fileName

theorem appendLoop_succ (h : appendLoop io data fuel p = some q) :
    appendLoop io data (fuel + 1) p = some q := by
  induction fuel generalizing p with
  | zero => cases h
  | succ fuel ih =>
    rw [appendLoop] at h ⊢
    split_ifs at h ⊢
    · exact ih h
    · exact h

/-- More fuel does not change the result. -/
theorem append_mono {fuel' : ℕ} (h : append io fuel file data = some file') (hle : fuel ≤ fuel') :
    append io fuel' file data = some file' := by
  induction hle with
  | refl => exact h
  | step _ ih =>
    obtain ⟨p, hp, rfl⟩ := Option.map_eq_some_iff.1 ih
    exact congrArg (Option.map _) (appendLoop_succ hp)

theorem exists_append (h : ¬ io.Stuck file.fp data) :
    ∃ fuel file', append io fuel file data = some file' := by
  obtain ⟨k, hk⟩ := Stdio.exists_accepted h
  have happended := Appended.iterate io file data k
  have hlen : ((pass io data)^[k] (file, 0)).2 = data.length := by
    have hle := happended.written
    have hge := List.drop_eq_nil_iff.1 (happended.rest.trans hk)
    omega
  obtain ⟨q, hq⟩ := exists_appendLoop hlen
  exact ⟨k + 1, _, congrArg (Option.map _) hq⟩

/-- **`append` ends exactly when the stream does not get stuck.** -/
theorem ends_iff (io : Stdio σ) (file : FileUtil σ) (data : List UInt8) :
    Ends io file data ↔ ¬ io.Stuck file.fp data := by
  constructor
  · rintro ⟨fuel, file', text, happend, -⟩
    obtain ⟨-, -, k, hk⟩ := append_eq_some happend
    exact Stdio.not_stuck hk
  · intro h
    obtain ⟨fuel, file', happend⟩ := exists_append h
    obtain ⟨hacc, hbytes, -⟩ := append_eq_some happend
    exact ⟨fuel, file', data, happend, List.prefix_rfl, hacc, hbytes, fun _ => rfl⟩

/-! ### A full disk -/

/-- A stream in a permanent error state. -/
def fullDisk : Stdio Unit := ⟨fun _ _ => (0, ()), fun _ => 1, id, fun _ _ => Nat.zero_le _⟩

/-- `append` of a byte never ends. -/
theorem append_fullDisk : ¬ Ends fullDisk (create (ascii "tiny.log") ()) [120] := by
  rintro ⟨fuel, file', text, happend, -⟩
  obtain ⟨-, -, k, hk⟩ := append_eq_some happend
  have hleft : (fullDisk.offer^[k] ((), [120])).2 = [120] := by
    clear hk
    induction k with
    | zero => rfl
    | succ k ih =>
      rw [Function.iterate_succ_apply', Stdio.offer, ih]
      rfl
  rw [show (create (ascii "tiny.log") ()).fp = () from rfl, hleft] at hk
  cases hk

end FileUtil

end TinyNetwork
