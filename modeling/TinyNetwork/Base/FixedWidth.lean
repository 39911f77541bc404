import TinyNetwork.Base.Decimal

/-!
# Numbers of a fixed width

Decimal numbers with leading zeros, and records of such numbers with a byte behind each of them.

## Main results

* `append_lt_append_iff` : the order of lists that begin with parts of the same length.
* `fixedDecimal_lt_iff` : numbers of one width are ordered as their digits are.
* `fixedRecord_lt_iff` : records of one format are ordered as their numbers are.
-/

namespace TinyNetwork

/-- A number with zeros in front of it. -/
def fixedDecimal (width n : ℕ) : List UInt8 :=
  List.replicate (width - (decimal n).length) 48 ++ decimal n

/-- Numbers of the given widths, with a byte behind each of them. -/
def fixedRecord : List (ℕ × UInt8) → List ℕ → List UInt8
  | (width, sep) :: format, n :: ns => fixedDecimal width n ++ sep :: fixedRecord format ns
  | _, _ => []

/-- The numbers have at most the given widths. -/
def Fields : List (ℕ × UInt8) → List ℕ → Prop
  | (width, _) :: format, n :: ns => (0 < width ∧ n < 10 ^ width) ∧ Fields format ns
  | [], [] => True
  | _, _ => False

variable {width m n : ℕ}

theorem append_lt_append_iff {α : Type*} [LT α] {l l' r r' : List α} (h : l.length = l'.length) :
    l ++ r < l' ++ r' ↔ l < l' ∨ l = l' ∧ r < r' := by
  induction l generalizing l' with
  | nil =>
    obtain rfl := List.eq_nil_of_length_eq_zero h.symm
    simp
  | cons a l ih =>
    cases l' with
    | nil => exact absurd h (by simp)
    | cons b l' =>
      rw [List.cons_append, List.cons_append, List.cons_lt_cons_iff, List.cons_lt_cons_iff,
        ih (Nat.succ.inj h), List.cons.injEq]
      tauto

theorem digitsValue_fixedDecimal (width n : ℕ) : digitsValue (fixedDecimal width n) = n := by
  have hzeros : ∀ k, (List.replicate k (48 : UInt8)).foldl
      (fun v b => 10 * v + (b.toNat - 48)) 0 = 0 := by
    intro k
    induction k with
    | zero => rfl
    | succ k ih =>
      rw [List.replicate_succ, List.foldl_cons]
      exact ih
  rw [fixedDecimal, digitsValue, List.foldl_append, hzeros]
  exact digitsValue_decimal n

theorem fixedDecimal_injective (width : ℕ) : Function.Injective (fixedDecimal width) := by
  intro m n h
  rw [← digitsValue_fixedDecimal width m, h, digitsValue_fixedDecimal]

theorem length_fixedDecimal (hwidth : 0 < width) (h : n < 10 ^ width) :
    (fixedDecimal width n).length = width := by
  have hlen := length_decimal_le hwidth h
  rw [fixedDecimal, List.length_append, List.length_replicate]
  omega

/-- The last digit is that of the ones. -/
theorem fixedDecimal_succ (hwidth : 0 < width) :
    fixedDecimal (width + 1) n = fixedDecimal width (n / 10) ++ [48 + UInt8.ofNat (n % 10)] := by
  by_cases hlt : n < 10
  · have hzero : n / 10 = 0 := Nat.div_eq_of_lt hlt
    obtain ⟨k, rfl⟩ : ∃ k, width = k + 1 := ⟨width - 1, by omega⟩
    have hleading : fixedDecimal (k + 1) 0 = List.replicate (k + 1) 48 := by
      rw [fixedDecimal, List.replicate_succ']
      rfl
    rw [hzero, hleading, Nat.mod_eq_of_lt hlt, fixedDecimal, decimal_of_lt hlt]
    rfl
  · have hle : 10 ≤ n := Nat.not_lt.1 hlt
    rw [fixedDecimal, fixedDecimal, decimal_of_le hle, List.length_append, List.length_singleton,
      Nat.add_sub_add_right, List.append_assoc]

theorem digit_lt_iff {c d : ℕ} (hc : c < 10) (hd : d < 10) :
    (48 + UInt8.ofNat c : UInt8) < 48 + UInt8.ofNat d ↔ c < d := by
  rw [UInt8.lt_iff_toNat_lt, toNat_digit hc, toNat_digit hd]
  omega

/-- **Numbers of one width are ordered as their digits are.** -/
theorem fixedDecimal_lt_iff (hwidth : 0 < width) (hm : m < 10 ^ width) (hn : n < 10 ^ width) :
    fixedDecimal width m < fixedDecimal width n ↔ m < n := by
  induction width, hwidth using Nat.le_induction generalizing m n with
  | base =>
    have hone : ∀ k < 10 ^ 1, fixedDecimal 1 k = [48 + UInt8.ofNat k] := by
      intro k hk
      rw [fixedDecimal, decimal_of_lt (by omega)]
      rfl
    rw [hone m hm, hone n hn, List.cons_lt_cons_iff, digit_lt_iff (by omega) (by omega)]
    simp
  | succ width hwidth ih =>
    rw [pow_succ] at hm hn
    have hm' : m / 10 < 10 ^ width := Nat.div_lt_of_lt_mul (by omega)
    have hn' : n / 10 < 10 ^ width := Nat.div_lt_of_lt_mul (by omega)
    have hlen : (fixedDecimal width (m / 10)).length = (fixedDecimal width (n / 10)).length := by
      rw [length_fixedDecimal hwidth hm', length_fixedDecimal hwidth hn']
    rw [fixedDecimal_succ hwidth, fixedDecimal_succ hwidth, append_lt_append_iff hlen, ih hm' hn',
      (fixedDecimal_injective width).eq_iff, List.cons_lt_cons_iff,
      digit_lt_iff (Nat.mod_lt _ (by decide)) (Nat.mod_lt _ (by decide))]
    simp
    omega

/-- **Records of one format are ordered as their numbers are.** -/
theorem fixedRecord_lt_iff {format : List (ℕ × UInt8)} {ms ns : List ℕ} (hms : Fields format ms)
    (hns : Fields format ns) : fixedRecord format ms < fixedRecord format ns ↔ ms < ns := by
  induction format generalizing ms ns with
  | nil =>
    match ms, ns, hms, hns with
    | [], [], _, _ => simp [fixedRecord]
  | cons f format ih =>
    match f, ms, ns, hms, hns with
    | (width, sep), m :: ms, n :: ns, ⟨⟨hwidth, hm⟩, hms⟩, ⟨⟨_, hn⟩, hns⟩ =>
      have hlen : (fixedDecimal width m).length = (fixedDecimal width n).length := by
        rw [length_fixedDecimal hwidth hm, length_fixedDecimal hwidth hn]
      rw [fixedRecord, fixedRecord, append_lt_append_iff hlen, fixedDecimal_lt_iff hwidth hm hn,
        (fixedDecimal_injective width).eq_iff, List.cons_lt_cons_iff, List.cons_lt_cons_iff,
        ih hms hns]
      simp

end TinyNetwork
