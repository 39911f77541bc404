import TinyNetwork.Base.Crlf

/-!
# Decimal numbers and `snprintf`

How the library writes numbers, and what can be read back.

## Main results

* `ofDecimal_decimal` : a number is read back from its decimal digits.
* `length_decimal_le` : the number of digits.
* `decimal_head` : no number but zero begins with a zero.
-/

namespace TinyNetwork

/-- A number as `%d` and `%zd` write it. -/
def decimal (n : ℕ) : List UInt8 :=
  if n = 0 then [48] else (Nat.digits 10 n).reverse.map fun d => 48 + UInt8.ofNat d

/-- What `snprintf` leaves of its output in an array of `size` bytes, whose last one is a NUL. -/
def snprintf (size : ℕ) (output : List UInt8) : List UInt8 := output.take (size - 1)

/-- A decimal digit. -/
def IsDigit (b : UInt8) : Prop := 48 ≤ b ∧ b ≤ 57

instance : DecidablePred IsDigit := fun b => inferInstanceAs (Decidable (48 ≤ b ∧ b ≤ 57))

/-- The number whose digits are given. -/
def digitsValue (bytes : List UInt8) : ℕ := bytes.foldl (fun v b => 10 * v + (b.toNat - 48)) 0

/-- Read a decimal number. -/
def ofDecimal (bytes : List UInt8) : Option ℕ :=
  if bytes ≠ [] ∧ ∀ b ∈ bytes, IsDigit b then some (digitsValue bytes) else none

variable {n k : ℕ} {output : List UInt8}

theorem snprintf_of_lt {size : ℕ} (h : output.length < size) : snprintf size output = output :=
  List.take_of_length_le (by omega)

theorem toNat_digit {d : ℕ} (h : d < 10) : (48 + UInt8.ofNat d).toNat = 48 + d := by
  rw [UInt8.toNat_add, UInt8.toNat_ofNat', Nat.mod_eq_of_lt (by omega : d < 2 ^ 8)]
  exact Nat.mod_eq_of_lt (by simp; omega)

theorem isDigit_iff {b : UInt8} : IsDigit b ↔ 48 ≤ b.toNat ∧ b.toNat ≤ 57 := Iff.rfl

theorem isDigit_digit {d : ℕ} (h : d < 10) : IsDigit (48 + UInt8.ofNat d) := by
  rw [isDigit_iff, toNat_digit h]
  omega

theorem decimal_ne_nil (n : ℕ) : decimal n ≠ [] := by
  unfold decimal
  split_ifs with h
  · simp
  · simpa [Nat.digits_eq_nil_iff_eq_zero] using h

theorem isDigit_of_mem {b : UInt8} (h : b ∈ decimal n) : IsDigit b := by
  unfold decimal at h
  split_ifs at h
  · rw [List.mem_singleton.1 h]
    decide
  · obtain ⟨d, hd, rfl⟩ := List.mem_map.1 h
    exact isDigit_digit (Nat.digits_lt_base (by decide) (List.mem_reverse.1 hd))

theorem digitsValue_decimal (n : ℕ) : digitsValue (decimal n) = n := by
  unfold decimal
  split_ifs with h
  · rw [h]
    rfl
  · have hstep : ∀ ds : List ℕ, (∀ d ∈ ds, d < 10) →
        digitsValue (ds.reverse.map fun d => 48 + UInt8.ofNat d) = Nat.ofDigits 10 ds := by
      intro ds hds
      rw [digitsValue, List.foldl_map, List.foldl_reverse, Nat.ofDigits_eq_foldr]
      induction ds with
      | nil => rfl
      | cons d ds ih =>
        rw [List.forall_mem_cons] at hds
        rw [List.foldr_cons, List.foldr_cons, ih hds.2, toNat_digit hds.1]
        simp only [Nat.cast_id]
        omega
    rw [hstep _ fun d hd => Nat.digits_lt_base (by decide) hd, Nat.ofDigits_digits]

/-- **A number is read back from its decimal digits.** -/
theorem ofDecimal_decimal (n : ℕ) : ofDecimal (decimal n) = some n := by
  rw [ofDecimal, if_pos ⟨decimal_ne_nil n, fun _ => isDigit_of_mem⟩, digitsValue_decimal]

theorem decimal_of_lt (h : n < 10) : decimal n = [48 + UInt8.ofNat n] := by
  interval_cases n <;> rfl

/-- The last digit is that of the ones. -/
theorem decimal_of_le (h : 10 ≤ n) :
    decimal n = decimal (n / 10) ++ [48 + UInt8.ofNat (n % 10)] := by
  have hn : n ≠ 0 := by omega
  have hdiv : n / 10 ≠ 0 := by omega
  rw [decimal, if_neg hn, decimal, if_neg hdiv, Nat.digits_def' (by decide) (by omega),
    List.reverse_cons, List.map_append, List.map_singleton]

theorem decimal_injective : Function.Injective decimal := fun m n h => by
  rw [← digitsValue_decimal m, h, digitsValue_decimal]

theorem length_decimal_le (hk : 0 < k) (h : n < 10 ^ k) : (decimal n).length ≤ k := by
  unfold decimal
  split_ifs with hn
  · exact hk
  · rw [List.length_map, List.length_reverse]
    exact (Nat.digits_length_le_iff (by decide) n).2 h

theorem lt_length_decimal (h : 10 ^ k ≤ n) : k < (decimal n).length := by
  have hn : n ≠ 0 := Nat.pos_iff_ne_zero.1 ((Nat.pow_pos (by decide)).trans_le h)
  rw [decimal, if_neg hn, List.length_map, List.length_reverse]
  exact (Nat.lt_digits_length_iff (by decide) n).2 h

/-- No number but zero begins with a zero. -/
theorem decimal_head (h : (decimal n).head? = some 48) : decimal n = [48] := by
  unfold decimal at h ⊢
  split_ifs at h ⊢ with hn
  · rfl
  · exfalso
    have hne : Nat.digits 10 n ≠ [] := Nat.digits_ne_nil_iff_ne_zero.2 hn
    rw [List.head?_map, List.head?_reverse, List.getLast?_eq_some_getLast hne, Option.map_some,
      Option.some.injEq] at h
    have hlt : (Nat.digits 10 n).getLast hne < 10 :=
      Nat.digits_lt_base (by decide) (List.getLast_mem hne)
    have hval := congrArg UInt8.toNat h
    rw [toNat_digit hlt] at hval
    exact Nat.getLast_digit_ne_zero 10 hn (Nat.add_left_cancel (hval : 48 + _ = 48 + 0))

/-- A byte that is no digit stands in no number. -/
theorem not_mem_decimal {b : UInt8} (h : ¬ IsDigit b) : b ∉ decimal n :=
  fun hmem => h (isDigit_of_mem hmem)

end TinyNetwork
