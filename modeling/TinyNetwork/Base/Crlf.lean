import Mathlib

/-!
# Lines that end in CRLF

The first CRLF of a byte string, and the line before it.

## Main results

* `findCRLF_eq_some_iff` : the first CRLF ends the first line.
* `findCRLF_append` : a CRLF that is found stays the first one when bytes arrive.
-/

namespace TinyNetwork

/-- The bytes of an ASCII string. -/
def ascii (s : String) : List UInt8 := s.toList.map fun c => c.toNat.toUInt8

/-- The two bytes that end a line. -/
def crlf : List UInt8 := [13, 10]

/-- The offset of the first CRLF. -/
def findCRLF : List UInt8 → Option ℕ
  | [] => none
  | b :: bytes => if b = 13 ∧ bytes.head? = some 10 then some 0 else (findCRLF bytes).map (· + 1)

variable {line rest bytes : List UInt8} {b : UInt8} {i : ℕ}

theorem findCRLF_cons_eq_none :
    findCRLF (b :: bytes) = none ↔ ¬ (b = 13 ∧ bytes.head? = some 10) ∧ findCRLF bytes = none := by
  rw [findCRLF]
  split_ifs with h <;> simp [h]

/-- A line without a CR holds no CRLF. -/
theorem findCRLF_of_cr (h : (13 : UInt8) ∉ line) : findCRLF line = none := by
  induction line with
  | nil => rfl
  | cons b line ih =>
    rw [List.mem_cons, not_or] at h
    exact findCRLF_cons_eq_none.2 ⟨fun hb => h.1 hb.1.symm, ih h.2⟩

/-- A CRLF that follows a line without one is the first. -/
theorem findCRLF_line {t : List UInt8} (h : findCRLF line = none) :
    findCRLF (line ++ crlf ++ t) = some line.length := by
  induction line with
  | nil => rfl
  | cons b line ih =>
    obtain ⟨hb, hline⟩ := findCRLF_cons_eq_none.1 h
    have hhead : ¬ (b = 13 ∧ (line ++ crlf ++ t).head? = some 10) := by
      rintro ⟨rfl, hhead⟩
      cases line with
      | nil => simp [crlf] at hhead
      | cons b' line => exact hb ⟨rfl, hhead⟩
    rw [List.cons_append, List.cons_append, findCRLF, if_neg hhead, ih hline]
    rfl

/-- **The first CRLF ends the first line.** -/
theorem findCRLF_eq_some_iff : findCRLF bytes = some i ↔
    ∃ line rest, findCRLF line = none ∧ bytes = line ++ crlf ++ rest ∧ i = line.length := by
  constructor
  · intro h
    induction bytes generalizing i with
    | nil => simp [findCRLF] at h
    | cons b bytes ih =>
      rw [findCRLF] at h
      split_ifs at h with hb
      · obtain ⟨rfl, hhead⟩ := hb
        obtain ⟨rest, rfl⟩ := List.head?_eq_some_iff.1 hhead
        exact ⟨[], rest, rfl, rfl, (Option.some.inj h).symm⟩
      · obtain ⟨j, hj, rfl⟩ := Option.map_eq_some_iff.1 h
        obtain ⟨line, rest, hline, rfl, rfl⟩ := ih hj
        refine ⟨b :: line, rest, findCRLF_cons_eq_none.2 ⟨?_, hline⟩, rfl, rfl⟩
        rintro ⟨rfl, hhead⟩
        cases line with
        | nil => simp at hhead
        | cons b' line => exact hb ⟨rfl, hhead⟩
  · rintro ⟨line, rest, hline, rfl, rfl⟩
    exact findCRLF_line hline

/-- A CRLF that is found stays the first one when bytes arrive. -/
theorem findCRLF_append {m : List UInt8} (h : findCRLF bytes = some i) :
    findCRLF (bytes ++ m) = some i := by
  obtain ⟨line, rest, hline, rfl, rfl⟩ := findCRLF_eq_some_iff.1 h
  rw [List.append_assoc]
  exact findCRLF_line hline

/-- The line and its CRLF are there. -/
theorem le_of_findCRLF (h : findCRLF bytes = some i) : i + 2 ≤ bytes.length := by
  obtain ⟨line, rest, -, rfl, rfl⟩ := findCRLF_eq_some_iff.1 h
  simp [crlf]

end TinyNetwork
