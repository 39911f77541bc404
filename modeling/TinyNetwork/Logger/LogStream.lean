import TinyNetwork.Base.Decimal
import TinyNetwork.Logger.FixedBuffer

/-!
# `LogStream`

Operands are streamed into a `FixedBuffer` of `kSmallBuffer` bytes.  Strings are appended to it;
an integer is written at the cursor, its last digit first, and reversed there.

## Main results

* `LogStream.convert_eq` : the digits of every number are found in the table, the last one first.
* `LogStream.insert_eq` : an operand adds its whole text to the accepted bytes, or nothing.
* `LogStream.insertAll_eq` : what a sequence of operands leaves in the stream.
-/

namespace TinyNetwork

def kSmallBuffer : ℕ := 4000

/-- The values of the integer types of up to 64 bits. -/
abbrev Integer := {v : ℤ // -2 ^ 63 ≤ v ∧ v < 2 ^ 64}

/-- What is streamed with `<<`. -/
inductive Operand where
  /-- Of any of the integer types. -/
  | integer (v : Integer)
  | char (c : UInt8)
  /-- `const char*`: the bytes before its NUL, or none for a null pointer. -/
  | cstr (str : Option (List UInt8))
  | string (str : List UInt8)
  /-- `GeneralTemplate`: the `len_` bytes from `data_` on. -/
  | generalTemplate (data : List UInt8)
  deriving DecidableEq

/-- `class LogStream`. -/
abbrev LogStream := FixedBuffer kSmallBuffer

namespace LogStream

def kMaxNumericSize : ℕ := 48

/-- A new stream over zeroed storage. -/
def zeroed : LogStream :=
  FixedBuffer.create (List.replicate kSmallBuffer 0) (FixedBuffer.length_zeros _)

theorem avail_zeroed : zeroed.avail = 4000 := rfl

/-- `digits`. -/
def digitTable : List UInt8 := ascii "9876543210123456789"

/-- `zero[remainder]`, where `zero` is `digits + 9`. -/
def zero (remainder : ℤ) : Except Fault UInt8 :=
  if 0 ≤ 9 + remainder then
    match digitTable[(9 + remainder).toNat]? with
    | some c => .ok c
    | none => .error .outOfRange
  else .error .outOfRange

theorem natAbs_tdiv_lt {num : ℤ} (h : num.tdiv 10 ≠ 0) :
    (num.tdiv 10).natAbs < num.natAbs := by
  rw [Int.natAbs_tdiv]
  have hnum : num.natAbs ≠ 0 := by
    intro hzero
    rw [Int.natAbs_eq_zero.1 hzero] at h
    exact h rfl
  exact Nat.div_lt_self (Nat.pos_of_ne_zero hnum) (by decide)

/-- The loop of `formatInteger`: the digits in the order in which it stores them. -/
def convert (num : ℤ) : Except Fault (List UInt8) := do
  let c ← zero (num.tmod 10)
  if _ : num.tdiv 10 = 0 then return [c]
  else return c :: (← convert (num.tdiv 10))
termination_by num.natAbs
decreasing_by exact natAbs_tdiv_lt ‹_›

def formatInteger (buffer : LogStream) (num : ℤ) : Except Fault LogStream :=
  if kMaxNumericSize ≤ buffer.avail then do
    let digits ← convert num
    let stored := if num < 0 then digits ++ ascii "-" else digits
    let buffer ← buffer.write (stored ++ [0])
    -- `std::reverse(start, cur)` leaves the NUL behind the number
    let buffer ← buffer.write stored.reverse
    buffer.add stored.length
  else return buffer

/-- `operator<<`. -/
def insert (buffer : LogStream) : Operand → Except Fault LogStream
  | .integer v => formatInteger buffer v
  | .char c => return buffer.append [c]
  | .cstr (some str) => return buffer.append str
  | .cstr none => return buffer.append (ascii "(null)")
  | .string str => return buffer.append str
  | .generalTemplate data => return buffer.append data

/-- `stream << a << b << ...`. -/
def insertAll (buffer : LogStream) (operands : List Operand) : Except Fault LogStream :=
  operands.foldlM insert buffer

end LogStream

/-! ### What the operands say -/

/-- The decimal text of an integer. -/
def integerText (v : ℤ) : List UInt8 := (if v < 0 then ascii "-" else []) ++ decimal v.natAbs

namespace Operand

/-- The text of an operand. -/
def text : Operand → List UInt8
  | .integer v => integerText v
  | .char c => [c]
  | .cstr (some str) => str
  | .cstr none => ascii "(null)"
  | .string str => str
  | .generalTemplate data => data

/-- An operand is accepted when this much space is available. -/
def Fits (avail : ℕ) : Operand → Prop
  | .integer _ => LogStream.kMaxNumericSize ≤ avail
  | o => o.text.length < avail

instance (avail : ℕ) (o : Operand) : Decidable (o.Fits avail) :=
  match o with
  | .integer _ => inferInstanceAs (Decidable (LogStream.kMaxNumericSize ≤ avail))
  | .char _ => inferInstanceAs (Decidable (_ < avail))
  | .cstr _ => inferInstanceAs (Decidable (_ < avail))
  | .string _ => inferInstanceAs (Decidable (_ < avail))
  | .generalTemplate _ => inferInstanceAs (Decidable (_ < avail))

/-- The operands that are accepted when this much space is available before the first. -/
def accepted (avail : ℕ) : List Operand → List Operand
  | [] => []
  | o :: os =>
    if o.Fits avail then o :: accepted (avail - o.text.length) os else accepted avail os

end Operand

/-- The texts of a sequence of operands, in order. -/
def streamed (operands : List Operand) : List UInt8 := operands.flatMap Operand.text

namespace Operand

variable {o : Operand} {os : List Operand} {avail : ℕ}

theorem streamed_accepted_of_fits (h : o.Fits avail) : streamed (accepted avail (o :: os)) =
    o.text ++ streamed (accepted (avail - o.text.length) os) := by
  rw [accepted, if_pos h]
  rfl

theorem streamed_accepted_of_not_fits (h : ¬ o.Fits avail) :
    streamed (accepted avail (o :: os)) = streamed (accepted avail os) := by
  rw [accepted, if_neg h]

end Operand

/-! ### The digits of an integer -/

namespace LogStream

/-- The table is never left. -/
theorem zero_of_natAbs_lt {remainder : ℤ} (h : remainder.natAbs < 10) :
    zero remainder = .ok (48 + UInt8.ofNat remainder.natAbs) := by
  have hlow : -9 ≤ remainder := by omega
  have hhigh : remainder ≤ 9 := by omega
  interval_cases remainder <;> decide +kernel

/-- **The digits of every number are found in the table, the last one first.** -/
theorem convert_eq (num : ℤ) : convert num = .ok (decimal num.natAbs).reverse := by
  induction num using convert.induct with
  | case1 num ih =>
    have hrem : (num.tmod 10).natAbs = num.natAbs % 10 := Int.natAbs_tmod num 10
    have hdiv : (num.tdiv 10).natAbs = num.natAbs / 10 := Int.natAbs_tdiv num 10
    have hzero : zero (num.tmod 10) = .ok (48 + UInt8.ofNat (num.natAbs % 10)) := by
      rw [← hrem]
      exact zero_of_natAbs_lt (by omega)
    rw [convert, hzero]
    refine bind_eq_ok.2 ⟨_, rfl, ?_⟩
    split_ifs with hquot
    · have hlt : num.natAbs < 10 := by omega
      rw [decimal_of_lt hlt, Nat.mod_eq_of_lt hlt]
      rfl
    · have hle : 10 ≤ num.natAbs := by omega
      rw [ih hquot, decimal_of_le hle, hdiv, List.reverse_append]
      rfl

theorem length_integerText_le (v : Integer) : (integerText v).length ≤ 20 := by
  obtain ⟨hlow, hhigh⟩ := v.2
  unfold integerText
  split_ifs with hneg
  · have hdigits : (decimal v.1.natAbs).length ≤ 19 := length_decimal_le (by decide) (by omega)
    rw [List.length_append]
    have hminus : (ascii "-").length = 1 := rfl
    omega
  · exact length_decimal_le (by decide) (by omega)

theorem insertAll_append (b : LogStream) (os os' : List Operand) :
    b.insertAll (os ++ os') = b.insertAll os >>= fun b => b.insertAll os' :=
  List.foldlM_append

/-! ### One operand -/

/-- What streaming a text does to the buffer: the text is accepted behind what was, a free byte is
left, and the last byte is not touched. -/
structure Extends (b : LogStream) (text : List UInt8) (b' : LogStream) : Prop where
  accepted : b'.accepted = b.accepted ++ text
  cur_lt : b.cur < kSmallBuffer → b'.cur < kSmallBuffer
  last : b.cur < kSmallBuffer → b'.data[kSmallBuffer - 1]? = b.data[kSmallBuffer - 1]?

variable {b b' : LogStream} {buf text text' : List UInt8}

namespace Extends

theorem refl (b : LogStream) : Extends b [] b := ⟨(List.append_nil _).symm, id, fun _ => rfl⟩

theorem trans {c : LogStream} (h : Extends b text b') (h' : Extends b' text' c) :
    Extends b (text ++ text') c where
  accepted := by rw [h'.accepted, h.accepted, List.append_assoc]
  cur_lt hcur := h'.cur_lt (h.cur_lt hcur)
  last hcur := (h'.last (h.cur_lt hcur)).trans (h.last hcur)

theorem cur (h : Extends b text b') : b'.cur = b.cur + text.length := by
  rw [← b'.length_accepted, h.accepted, List.length_append, b.length_accepted]

theorem avail (h : Extends b text b') : b'.avail = b.avail - text.length := by
  unfold FixedBuffer.avail
  rw [h.cur]
  omega

end Extends

theorem append_extends (h : buf.length < b.avail) : Extends b buf (b.append buf) := by
  have hroom : b.cur + buf.length < kSmallBuffer := by
    unfold FixedBuffer.avail at h
    omega
  exact ⟨b.accepted_append_of_lt h, fun _ => by rw [b.cur_append_of_lt h]; exact hroom,
    fun _ => b.getElem?_append (by omega)⟩

/-- An integer that finds room is accepted; of what lies behind it one byte is written, a NUL. -/
theorem formatInteger_eq (v : Integer) (h : kMaxNumericSize ≤ b.avail) :
    ∃ b', formatInteger b v = .ok b' ∧ Extends b (integerText v) b' ∧
      ∀ i, b.cur + (integerText v).length + 1 ≤ i → b'.data[i]? = b.data[i]? := by
  have hlen := length_integerText_le v
  have hstored : (if v.1 < 0 then (decimal v.1.natAbs).reverse ++ ascii "-"
      else (decimal v.1.natAbs).reverse) = (integerText v).reverse := by
    unfold integerText
    split_ifs
    · rw [List.reverse_append]
      rfl
    · rfl
  have hscratch : b.cur + ((integerText v).reverse ++ [0]).length ≤ kSmallBuffer - 1 := by
    unfold FixedBuffer.avail kMaxNumericSize at h
    rw [List.length_append, List.length_reverse, List.length_singleton]
    have : kSmallBuffer = 4000 := rfl
    omega
  have hreverse : (integerText v).reverse.reverse = integerText v := List.reverse_reverse _
  obtain ⟨b', hb', hacc, hdata⟩ :=
    FixedBuffer.write_add (show b.cur + ((integerText v).reverse ++ [0]).length ≤ kSmallBuffer by
      omega) (show (integerText v).length ≤ ((integerText v).reverse ++ [0]).length by simp)
  refine ⟨b', ?_, ⟨hacc, fun _ => ?_, fun _ => hdata _ hscratch⟩, fun i hi => hdata i ?_⟩
  · rw [formatInteger, if_pos h, convert_eq]
    refine bind_eq_ok.2 ⟨_, rfl, ?_⟩
    simp only [hstored, hreverse, List.length_reverse]
    exact hb'
  · rw [← b'.length_accepted, hacc, List.length_append, b.length_accepted]
    rw [List.length_append, List.length_reverse, List.length_singleton] at hscratch
    have : kSmallBuffer = 4000 := rfl
    omega
  · rw [List.length_append, List.length_reverse, List.length_singleton]
    omega

/-- **An operand adds its whole text to the accepted bytes, or nothing.** -/
theorem insert_eq (b : LogStream) (o : Operand) :
    ∃ b', insert b o = .ok b' ∧
      if o.Fits b.avail then Extends b o.text b' else b' = b := by
  have hstring : ∀ buf : List UInt8, ∃ b' : LogStream,
      (pure (b.append buf) : Except Fault LogStream) = .ok b' ∧
        if buf.length < b.avail then Extends b buf b' else b' = b := by
    intro buf
    refine ⟨_, rfl, ?_⟩
    split_ifs with hfits
    · exact append_extends hfits
    · exact FixedBuffer.append_of_le (Nat.not_lt.1 hfits)
  match o with
  | .integer v =>
    by_cases hfits : kMaxNumericSize ≤ b.avail
    · obtain ⟨b', hb', hext, -⟩ := formatInteger_eq v hfits
      exact ⟨b', hb', by rw [if_pos (by exact hfits)]; exact hext⟩
    · exact ⟨b, if_neg hfits, by rw [if_neg (by exact hfits)]⟩
  | .char c => exact hstring [c]
  | .cstr (some str) => exact hstring str
  | .cstr none => exact hstring (ascii "(null)")
  | .string str => exact hstring str
  | .generalTemplate data => exact hstring data

/-- **What a sequence of operands leaves in the stream.** -/
theorem insertAll_eq (operands : List Operand) (b : LogStream) :
    ∃ b', insertAll b operands = .ok b' ∧
      Extends b (streamed (Operand.accepted b.avail operands)) b' := by
  induction operands generalizing b with
  | nil => exact ⟨b, rfl, Extends.refl b⟩
  | cons o os ih =>
    obtain ⟨b₁, h₁, hone⟩ := insert_eq b o
    obtain ⟨b₂, h₂, hext⟩ := ih b₁
    refine ⟨b₂, bind_eq_ok.2 ⟨b₁, h₁, h₂⟩, ?_⟩
    rw [Operand.accepted]
    split_ifs at hone ⊢ with hfits
    · rw [← hone.avail]
      exact hone.trans hext
    · rw [← hone]
      exact hext

end LogStream

end TinyNetwork
