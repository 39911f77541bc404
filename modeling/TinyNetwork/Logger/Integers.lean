import TinyNetwork.Logger.LogStream

/-!
# The integers of a `LogStream`

The overloads of `operator<<` for the integer types, and what they write: the digits of the
number, taken from a table that serves the negative remainders of C's division as well, so that
no number is ever negated.

## Main results

* `LogStream.IntType.cast_eq` : the conversion of the short types changes no value.
* `LogStream.insertInteger_eq` : what an integer leaves in the stream.
-/

namespace TinyNetwork

namespace LogStream

/-- The integer types `operator<<` is overloaded for. -/
inductive IntType where
  | short | unsignedShort | int | unsignedInt | long | unsignedLong | longLong | unsignedLongLong
  deriving DecidableEq

namespace IntType

/-- The width of a type on LP64. -/
def bits : IntType → ℕ
  | short | unsignedShort => 16
  | int | unsignedInt => 32
  | long | unsignedLong | longLong | unsignedLongLong => 64

def Signed : IntType → Prop
  | short | int | long | longLong => True
  | unsignedShort | unsignedInt | unsignedLong | unsignedLongLong => False

instance : DecidablePred Signed := fun T => by
  cases T <;> first | exact isTrue trivial | exact isFalse id

def min (T : IntType) : ℤ := if T.Signed then -2 ^ (T.bits - 1) else 0

def max (T : IntType) : ℤ := if T.Signed then 2 ^ (T.bits - 1) - 1 else 2 ^ T.bits - 1

/-- The values of a type. -/
abbrev Value (T : IntType) := {v : ℤ // T.min ≤ v ∧ v ≤ T.max}

/-- `static_cast<T>(v)`. -/
def cast (T : IntType) (v : ℤ) : ℤ :=
  if T.Signed then v.bmod (2 ^ T.bits) else v % 2 ^ T.bits

/-- The value of every type is an `Integer`. -/
def toInteger {T : IntType} (v : T.Value) : Integer :=
  ⟨v.1, by
    obtain ⟨v, hlow, hhigh⟩ := v
    cases T <;> simp [min, max, Signed, bits] at hlow hhigh ⊢ <;> omega⟩

end IntType

/-- `operator<<` of an integer type; the short types are converted first. -/
def insertInteger (b : LogStream) (T : IntType) (v : T.Value) : Except Fault LogStream :=
  match T with
  | .short => formatInteger b (IntType.int.cast v)
  | .unsignedShort => formatInteger b (IntType.unsignedInt.cast v)
  | _ => formatInteger b v

/-- Read back the text of an integer. -/
def parseInteger : List UInt8 → Option ℤ
  | 45 :: digits => (ofDecimal digits).map fun n : ℕ => -(n : ℤ)
  | digits => (ofDecimal digits).map fun n : ℕ => (n : ℤ)

/-- The canonical decimal text of an integer. -/
structure IsDecimal (v : ℤ) (text : List UInt8) : Prop where
  /-- There is a sign if and only if the number is negative. -/
  sign : 45 ∈ text ↔ v < 0
  /-- Behind the sign there are digits, at least one. -/
  digits : ∃ ds, ds ≠ [] ∧ (∀ d ∈ ds, IsDigit d) ∧ text = (if v < 0 then [45] else []) ++ ds ∧
    -- the first one is no zero unless it is the only one
    (ds.head? = some 48 → ds = [48] ∧ v = 0)
  zero : v = 0 → text = ascii "0"
  parse : parseInteger text = some v

variable {b : LogStream} {v : ℤ}

theorem IntType.cast_eq {T T' : IntType} (v : T.Value) (hmin : T'.min ≤ T.min)
    (hmax : T.max ≤ T'.max) : T'.cast v = v := by
  obtain ⟨v, hlow, hhigh⟩ := v
  have hlow' : T'.min ≤ v := hmin.trans hlow
  have hhigh' : v ≤ T'.max := hhigh.trans hmax
  unfold min at hlow'
  unfold max at hhigh'
  unfold cast
  split_ifs at hlow' hhigh' ⊢ with hsigned
  · cases T' <;> simp only [bits] at hlow' hhigh' ⊢ <;> rw [Int.bmod_def] <;> omega
  · exact Int.emod_eq_of_lt hlow' (Int.lt_of_le_sub_one hhigh')

/-- Every overload writes the number it is given. -/
theorem insertInteger_eq_formatInteger (T : IntType) (v : T.Value) :
    insertInteger b T v = formatInteger b v := by
  cases T with
  | short =>
    have hcast : IntType.int.cast v = v := IntType.cast_eq v (by decide) (by decide)
    exact congrArg (formatInteger b) hcast
  | unsignedShort =>
    have hcast : IntType.unsignedInt.cast v = v := IntType.cast_eq v (by decide) (by decide)
    exact congrArg (formatInteger b) hcast
  | _ => rfl

theorem minus_not_mem_decimal (n : ℕ) : (45 : UInt8) ∉ decimal n := not_mem_decimal (by decide)

theorem parseInteger_integerText (v : ℤ) : parseInteger (integerText v) = some v := by
  unfold integerText
  split_ifs with hneg
  · have hminus : ascii "-" = [45] := rfl
    rw [hminus, List.singleton_append, parseInteger, ofDecimal_decimal, Option.map_some,
      Option.some.injEq]
    omega
  · rw [List.nil_append, parseInteger, ofDecimal_decimal, Option.map_some, Option.some.injEq]
    · omega
    · intro digits hdigits
      exact minus_not_mem_decimal _ (hdigits ▸ List.mem_cons_self)

theorem isDecimal_integerText (v : ℤ) : IsDecimal v (integerText v) where
  sign := by
    unfold integerText
    split_ifs with hneg
    · exact iff_of_true List.mem_cons_self hneg
    · exact iff_of_false (minus_not_mem_decimal _) hneg
  digits := by
    refine ⟨decimal v.natAbs, decimal_ne_nil _, fun _ => isDigit_of_mem, rfl, fun hzero => ?_⟩
    have htext := decimal_head hzero
    refine ⟨htext, Int.natAbs_eq_zero.1 (decimal_injective ?_)⟩
    rw [htext]
    rfl
  zero hv := by
    subst hv
    rfl
  parse := parseInteger_integerText v

/-- **What an integer leaves in the stream.**  With 48 free bytes its canonical decimal text is
accepted and one byte behind it is written; with less nothing changes. -/
theorem insertInteger_eq (b : LogStream) (T : IntType) (v : T.Value) :
    ∃ b', insertInteger b T v = .ok b' ∧
      if 48 ≤ b.avail then
        ∃ text, IsDecimal v text ∧ text.length ≤ 20 ∧ b'.accepted = b.accepted ++ text ∧
          b'.cur = b.cur + text.length ∧
          ∀ i, b.cur + text.length + 1 ≤ i → b'.data[i]? = b.data[i]?
      else b' = b := by
  rw [insertInteger_eq_formatInteger]
  split_ifs with hroom
  · obtain ⟨b', hb', hext, hdata⟩ := formatInteger_eq (IntType.toInteger v) hroom
    exact ⟨b', hb', _, isDecimal_integerText v, length_integerText_le (IntType.toInteger v),
      hext.accepted, hext.cur, hdata⟩
  · exact ⟨b, if_neg hroom, rfl⟩

end LogStream

end TinyNetwork
