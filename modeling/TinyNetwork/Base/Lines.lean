import TinyNetwork.Base.Crlf

/-!
# Lines joined by CRLF

A head of a message is lines with CRLFs between them; it ends at the first empty line, at CRLF and
CRLF.

## Main results

* `splitLines_joinLines` : the lines are found again.
* `findBlankLine_joinLines` : a head without empty lines ends where its lines do, whatever follows.
-/

namespace TinyNetwork

/-- The lines, with CRLFs between them. -/
def joinLines : List (List UInt8) → List UInt8
  | [] => []
  | [line] => line
  | line :: line' :: lines => line ++ crlf ++ joinLines (line' :: lines)

/-- Cut at every CRLF. -/
def splitLines : List UInt8 → List (List UInt8)
  | [] => [[]]
  | 13 :: 10 :: bytes => [] :: splitLines bytes
  | b :: bytes =>
    match splitLines bytes with
    | [] => [[b]]
    | line :: lines => (b :: line) :: lines

/-- The offset of the first CRLF that is followed by another one. -/
def findBlankLine : List UInt8 → Option ℕ
  | [] => none
  | b :: bytes =>
    if (b :: bytes).take 4 = crlf ++ crlf then some 0 else (findBlankLine bytes).map (· + 1)

variable {line rest bytes : List UInt8} {lines : List (List UInt8)} {b : UInt8}

/-! ### Cutting -/

theorem splitLines_cons (h : b ≠ 13) (hbytes : splitLines bytes = line :: lines) :
    splitLines (b :: bytes) = (b :: line) :: lines := by
  rw [splitLines, hbytes]
  intro _ hb _
  exact h hb

theorem splitLines_of_cr (h : (13 : UInt8) ∉ line) : splitLines line = [line] := by
  induction line with
  | nil => rfl
  | cons b line ih =>
    rw [List.mem_cons, not_or] at h
    exact splitLines_cons (Ne.symm h.1) (ih h.2)

theorem splitLines_line (h : (13 : UInt8) ∉ line) :
    splitLines (line ++ crlf ++ rest) = line :: splitLines rest := by
  induction line with
  | nil => rfl
  | cons b line ih =>
    rw [List.mem_cons, not_or] at h
    exact splitLines_cons (Ne.symm h.1) (ih h.2)

/-- **The lines are found again.** -/
theorem splitLines_joinLines (hne : lines ≠ []) (h : ∀ l ∈ lines, (13 : UInt8) ∉ l) :
    splitLines (joinLines lines) = lines := by
  induction lines with
  | nil => exact absurd rfl hne
  | cons l lines ih =>
    rw [List.forall_mem_cons] at h
    cases lines with
    | nil => exact splitLines_of_cr h.1
    | cons l' lines => rw [joinLines, splitLines_line h.1, ih (by simp) h.2]

/-! ### The first empty line -/

theorem findBlankLine_cons (h : b ≠ 13) :
    findBlankLine (b :: bytes) = (findBlankLine bytes).map (· + 1) := by
  rw [findBlankLine, if_neg]
  intro heq
  simp [crlf] at heq
  exact h heq.1

theorem findBlankLine_append (h : (13 : UInt8) ∉ line) :
    findBlankLine (line ++ rest) = (findBlankLine rest).map (· + line.length) := by
  induction line with
  | nil => simp
  | cons b line ih =>
    rw [List.mem_cons, not_or] at h
    rw [List.cons_append, findBlankLine_cons (Ne.symm h.1), ih h.2, Option.map_map]
    simp only [List.length_cons, Function.comp_def, Nat.add_assoc]

/-- A CRLF that is followed by something else is not the end. -/
theorem findBlankLine_crlf (h : b ≠ 13) :
    findBlankLine (crlf ++ b :: bytes) = (findBlankLine (b :: bytes)).map (· + 2) := by
  have hten : findBlankLine (10 :: b :: bytes) = (findBlankLine (b :: bytes)).map (· + 1) :=
    findBlankLine_cons (by decide)
  rw [crlf, List.cons_append, List.cons_append, List.nil_append, findBlankLine, if_neg, hten,
    Option.map_map]
  · rfl
  · simp [crlf, h]

/-- Lines of which the first is not empty begin with its first byte. -/
theorem joinLines_head (h : line ≠ [] ∧ (13 : UInt8) ∉ line) :
    ∃ b t, joinLines (line :: lines) = b :: t ∧ b ≠ 13 := by
  obtain ⟨b, line, rfl⟩ := List.exists_cons_of_ne_nil h.1
  have hb : b ≠ 13 := fun hb => h.2 (hb ▸ List.mem_cons_self)
  cases lines with
  | nil => exact ⟨b, line, rfl, hb⟩
  | cons line' lines => exact ⟨b, line ++ crlf ++ joinLines (line' :: lines), rfl, hb⟩

/-- **A head without empty lines ends where its lines do**, whatever follows. -/
theorem findBlankLine_joinLines (hne : lines ≠ [])
    (h : ∀ l ∈ lines, l ≠ [] ∧ (13 : UInt8) ∉ l) :
    findBlankLine (joinLines lines ++ (crlf ++ crlf ++ rest)) = some (joinLines lines).length := by
  induction lines with
  | nil => exact absurd rfl hne
  | cons l lines ih =>
    rw [List.forall_mem_cons] at h
    cases lines with
    | nil =>
      rw [joinLines, findBlankLine_append h.1.2]
      simp [crlf, findBlankLine]
    | cons l' lines =>
      -- the next line is not empty, so its CRLF is not the end
      obtain ⟨b, t, hjoin, hb⟩ : ∃ b t, joinLines (l' :: lines) = b :: t ∧ b ≠ 13 :=
        joinLines_head (h.2 l' List.mem_cons_self)
      have hrest := ih (by simp) h.2
      rw [hjoin, List.cons_append] at hrest
      rw [joinLines, List.append_assoc, List.append_assoc, findBlankLine_append h.1.2, hjoin,
        List.cons_append, findBlankLine_crlf hb, hrest]
      simp only [crlf, Option.map_some, List.length_append, List.length_cons, List.length_nil,
        Option.some.injEq]
      omega

end TinyNetwork
