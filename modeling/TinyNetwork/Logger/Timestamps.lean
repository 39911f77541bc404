import TinyNetwork.Base.FixedWidth
import TinyNetwork.Logger.Logging

/-!
# The time of a record

`formatTime()` prints the calendar fields of the seconds into one buffer and the microseconds into
another, and streams the first 17 bytes of the one and 7 of the other.  The fields take 19 bytes:
the seconds of the minute are cut off.

## Main results

* `Logger.timePrefix_eq` : the prefix is the record of the local minute and the microseconds.
* `Logger.formatTime_lt_iff` : exactly when an earlier record has a smaller prefix.
-/

namespace TinyNetwork

namespace Tm

/-- The fields down to the minute, the most significant one first. -/
def minute (time : Tm) : List ℤ :=
  [time.tm_year, time.tm_mon, time.tm_mday, time.tm_hour, time.tm_min]

/-- All fields, the most significant one first. -/
def fields (time : Tm) : List ℤ := time.minute ++ [time.tm_sec]

/-- The usual ranges; a minute may have a leap second. -/
structure InRange (time : Tm) : Prop where
  mon : 0 ≤ time.tm_mon ∧ time.tm_mon ≤ 11
  mday : 1 ≤ time.tm_mday ∧ time.tm_mday ≤ 31
  hour : 0 ≤ time.tm_hour ∧ time.tm_hour ≤ 23
  min : 0 ≤ time.tm_min ∧ time.tm_min ≤ 59
  sec : 0 ≤ time.tm_sec ∧ time.tm_sec ≤ 60

/-- The year has four digits. -/
def FourDigits (time : Tm) : Prop :=
  1000 ≤ time.tm_year + 1900 ∧ time.tm_year + 1900 ≤ 9999

end Tm

/-- `localtime` breaks seconds down into fields in their ranges, and keeps their order. -/
structure Calendar (localtime : ℤ → Tm) : Prop where
  inRange : ∀ seconds, (localtime seconds).InRange
  fields_lt : ∀ {s s'}, s < s' → (localtime s).fields < (localtime s').fields

namespace Logger

/-- The fields of the prefix, their widths and what stands behind them. -/
def prefixFormat : List (ℕ × UInt8) := [(4, 47), (2, 47), (2, 32), (2, 58), (2, 58), (6, 32)]

/-- The numbers of the local minute as they are printed. -/
def minuteNumbers (time : Tm) : List ℕ :=
  [(time.tm_year + 1900).toNat, (time.tm_mon + 1).toNat, time.tm_mday.toNat, time.tm_hour.toNat,
    time.tm_min.toNat]

/-- The two pieces that `formatTime()` streams. -/
def timePrefix (libc : Libc) (now : ℤ) : List UInt8 :=
  (printSeconds (libc.localtime (now.tdiv kMicroSecondsPerSecond))).take 17 ++
    (printMicroseconds (now.tmod kMicroSecondsPerSecond)).take 7

open LogStatement (filled)

variable {libc : Libc} {now t₁ t₂ : ℤ} {time time' : Tm}

/-- Both pieces fit into an empty stream. -/
theorem streamed_accepted_pair {a b : List UInt8} (ha : a.length ≤ 17) (hb : b.length ≤ 7) :
    streamed (Operand.accepted kSmallBuffer [.generalTemplate a, .generalTemplate b]) = a ++ b := by
  have hsmall : kSmallBuffer = 4000 := rfl
  have hfirst : (Operand.generalTemplate a).Fits kSmallBuffer := by
    show a.length < kSmallBuffer
    omega
  have hsecond : (Operand.generalTemplate b).Fits (kSmallBuffer - a.length) := by
    show b.length < kSmallBuffer - a.length
    omega
  rw [Operand.streamed_accepted_of_fits hfirst]
  refine congrArg (a ++ ·) ((Operand.streamed_accepted_of_fits hsecond).trans ?_)
  exact List.append_nil _

theorem formatTime_eq (libc : Libc) (now : ℤ) (storage : Storage) :
    ∃ stream, formatTime libc now (FixedBuffer.create storage.1 storage.2) = .ok stream ∧
      stream.accepted = timePrefix libc now := by
  obtain ⟨stream, hstream, hext⟩ := LogStream.insertAll_eq
    [.generalTemplate ((printSeconds (libc.localtime (now.tdiv kMicroSecondsPerSecond))).take 17),
      .generalTemplate ((printMicroseconds (now.tmod kMicroSecondsPerSecond)).take 7)]
    (FixedBuffer.create storage.1 storage.2)
  have havail : (FixedBuffer.create storage.1 storage.2).avail = kSmallBuffer := Nat.sub_zero _
  rw [havail] at hext
  refine ⟨stream, ?_, ?_⟩
  · rw [← hstream]
    simp only [formatTime, LogStream.insertAll, List.foldlM_cons, List.foldlM_nil, bind_pure]
  · rw [hext.accepted, FixedBuffer.accepted_create, List.nil_append]
    exact streamed_accepted_pair (List.length_take_le _ _) (List.length_take_le _ _)

/-! ### The prefix as a record of numbers -/

theorem zeroPadded_eq {width : ℕ} {v : ℤ} (h : 0 ≤ v) :
    zeroPadded width v = fixedDecimal width v.toNat := by
  have hneg : ¬ v < 0 := by omega
  have habs : v.natAbs = v.toNat := by omega
  simp only [zeroPadded, integerText, if_neg hneg, List.nil_append, habs, fixedDecimal]

/-- A year of four digits is not padded. -/
theorem padded_eq {v : ℤ} (hlow : 1000 ≤ v) (hhigh : v ≤ 9999) :
    padded 4 v = fixedDecimal 4 v.toNat := by
  have hneg : ¬ v < 0 := by omega
  have habs : v.natAbs = v.toNat := by omega
  have hlen : 4 - (decimal v.toNat).length = 0 := by
    have hlt : 3 < (decimal v.toNat).length := lt_length_decimal (by omega)
    omega
  simp only [padded, integerText, if_neg hneg, List.nil_append, habs, fixedDecimal, hlen,
    List.replicate_zero]

theorem fields_prefixFormat {micros : ℕ} (h : time.InRange) (hyear : time.FourDigits)
    (hmicros : micros < 1000000) :
    Fields prefixFormat (minuteNumbers time ++ [micros]) := by
  obtain ⟨hmon, hmday, hhour, hmin, -⟩ := h
  unfold Tm.FourDigits at hyear
  simp only [Fields, prefixFormat, minuteNumbers, List.cons_append, List.nil_append, and_true]
  omega

/-- What is left of the printed seconds: the local minute. -/
theorem take_printSeconds (h : time.InRange) (hyear : time.FourDigits) :
    (printSeconds time).take 17 =
      fixedRecord [(4, 47), (2, 47), (2, 32), (2, 58), (2, 58)] (minuteNumbers time) := by
  obtain ⟨hmon, hmday, hhour, hmin, hsec⟩ := h
  have hlen : (fixedRecord [(4, 47), (2, 47), (2, 32), (2, 58), (2, 58)]
      (minuteNumbers time)).length = 17 := by
    unfold Tm.FourDigits at hyear
    simp only [fixedRecord, minuteNumbers, List.length_append, List.length_cons, List.length_nil]
    rw [length_fixedDecimal (by decide) (by omega), length_fixedDecimal (by decide) (by omega),
      length_fixedDecimal (by decide) (by omega), length_fixedDecimal (by decide) (by omega),
      length_fixedDecimal (by decide) (by omega)]
  have hprint : printSeconds time = snprintf 64 (fixedRecord
      [(4, 47), (2, 47), (2, 32), (2, 58), (2, 58)] (minuteNumbers time) ++
        zeroPadded 2 time.tm_sec) := by
    have hslash : ascii "/" = [47] := rfl
    have hblank : ascii " " = [32] := rfl
    have hcolon : ascii ":" = [58] := rfl
    rw [printSeconds, padded_eq hyear.1 hyear.2, zeroPadded_eq (v := time.tm_mon + 1) (by omega),
      zeroPadded_eq (v := time.tm_mday) (by omega), zeroPadded_eq (v := time.tm_hour) hhour.1,
      zeroPadded_eq (v := time.tm_min) hmin.1, hslash, hblank, hcolon]
    simp only [fixedRecord, minuteNumbers, List.append_assoc, List.cons_append, List.nil_append]
  rw [hprint, snprintf, List.take_take]
  exact List.take_left' hlen

/-- The prefix is the record of the local minute and the microseconds. -/
theorem timePrefix_eq (h : (libc.localtime (now.tdiv kMicroSecondsPerSecond)).InRange)
    (hyear : (libc.localtime (now.tdiv kMicroSecondsPerSecond)).FourDigits) (hnow : 0 ≤ now) :
    timePrefix libc now = fixedRecord prefixFormat
      (minuteNumbers (libc.localtime (now.tdiv kMicroSecondsPerSecond)) ++
        [(now.tmod kMicroSecondsPerSecond).toNat]) := by
  have hmicros := Int.tmod_nonneg kMicroSecondsPerSecond hnow
  have hlt : now.tmod kMicroSecondsPerSecond < kMicroSecondsPerSecond :=
    Int.tmod_lt_of_pos _ (by decide)
  unfold kMicroSecondsPerSecond at *
  have hblank : ascii " " = [32] := rfl
  have hlen : (fixedDecimal 6 (now.tmod (1000 * 1000)).toNat ++ [32]).length = 7 := by
    rw [List.length_append, length_fixedDecimal (by decide) (by omega)]
    rfl
  rw [timePrefix]
  unfold kMicroSecondsPerSecond
  rw [take_printSeconds h hyear, printMicroseconds, zeroPadded_eq hmicros, hblank, snprintf,
    List.take_take, List.take_of_length_le (by omega)]
  simp only [fixedRecord, prefixFormat, minuteNumbers, List.append_assoc, List.cons_append,
    List.nil_append]

/-! ### The order of prefixes -/

/-- The numbers are printed in the order of the fields. -/
theorem minuteNumbers_lt_iff (h : time.InRange) (hyear : time.FourDigits) (h' : time'.InRange)
    (hyear' : time'.FourDigits) :
    (minuteNumbers time < minuteNumbers time' ↔ time.minute < time'.minute) ∧
      (minuteNumbers time = minuteNumbers time' ↔ time.minute = time'.minute) := by
  obtain ⟨hmon, hmday, hhour, hmin, -⟩ := h
  obtain ⟨hmon', hmday', hhour', hmin', -⟩ := h'
  unfold Tm.FourDigits at hyear hyear'
  simp only [minuteNumbers, Tm.minute, List.cons_lt_cons_iff, List.cons.injEq, List.not_lt_nil,
    and_true, and_false, or_false]
  omega

/-- Time does not run backwards in the calendar. -/
theorem minute_le (h : Calendar libc.localtime) {s s' : ℤ} (hle : s ≤ s') :
    (libc.localtime s).minute < (libc.localtime s').minute ∨
      (libc.localtime s).minute = (libc.localtime s').minute := by
  rcases hle.lt_or_eq with hlt | rfl
  · have hlen : (libc.localtime s).minute.length = (libc.localtime s').minute.length := rfl
    rcases (append_lt_append_iff hlen).1 (h.fields_lt hlt) with hminute | ⟨hminute, -⟩
    · exact Or.inl hminute
    · exact Or.inr hminute
  · exact Or.inr rfl

/-- **An earlier record has a smaller prefix** exactly when the local minute differs or the
microseconds within the second are in order. -/
theorem formatTime_lt_iff (h : Calendar libc.localtime) (ht₁ : 0 ≤ t₁) (hlt : t₁ < t₂)
    (hyear₁ : (libc.localtime (t₁.tdiv kMicroSecondsPerSecond)).FourDigits)
    (hyear₂ : (libc.localtime (t₂.tdiv kMicroSecondsPerSecond)).FourDigits)
    (storage₁ storage₂ : Storage) :
    ∃ stream₁ stream₂,
      formatTime libc t₁ (FixedBuffer.create storage₁.1 storage₁.2) = .ok stream₁ ∧
      formatTime libc t₂ (FixedBuffer.create storage₂.1 storage₂.2) = .ok stream₂ ∧
      (stream₁.accepted ≠ stream₂.accepted ∧ stream₁.accepted < stream₂.accepted ↔
        (libc.localtime (t₁.tdiv kMicroSecondsPerSecond)).minute ≠
            (libc.localtime (t₂.tdiv kMicroSecondsPerSecond)).minute ∨
          t₁.tmod kMicroSecondsPerSecond < t₂.tmod kMicroSecondsPerSecond) := by
  obtain ⟨stream₁, hstream₁, hacc₁⟩ := formatTime_eq libc t₁ storage₁
  obtain ⟨stream₂, hstream₂, hacc₂⟩ := formatTime_eq libc t₂ storage₂
  refine ⟨stream₁, stream₂, hstream₁, hstream₂, ?_⟩
  set s₁ := t₁.tdiv kMicroSecondsPerSecond with hs₁
  set s₂ := t₂.tdiv kMicroSecondsPerSecond with hs₂
  have hle : s₁ ≤ s₂ := Int.tdiv_le_tdiv (by decide) hlt.le
  have hmicros₁ : 0 ≤ t₁.tmod kMicroSecondsPerSecond := Int.tmod_nonneg _ ht₁
  have hmicros₂ : 0 ≤ t₂.tmod kMicroSecondsPerSecond := Int.tmod_nonneg _ (ht₁.trans hlt.le)
  have hmax₁ : t₁.tmod kMicroSecondsPerSecond < 1000000 := Int.tmod_lt_of_pos _ (by decide)
  have hmax₂ : t₂.tmod kMicroSecondsPerSecond < 1000000 := Int.tmod_lt_of_pos _ (by decide)
  obtain ⟨hnumbers_lt, hnumbers_eq⟩ :=
    minuteNumbers_lt_iff (h.inRange s₁) hyear₁ (h.inRange s₂) hyear₂
  have hmicros_lt : (t₁.tmod kMicroSecondsPerSecond).toNat <
      (t₂.tmod kMicroSecondsPerSecond).toNat ↔
        t₁.tmod kMicroSecondsPerSecond < t₂.tmod kMicroSecondsPerSecond := by omega
  have hlen : (minuteNumbers (libc.localtime s₁)).length =
      (minuteNumbers (libc.localtime s₂)).length := rfl
  -- the prefixes compare as the minutes do, and then the microseconds
  have hprefix : stream₁.accepted < stream₂.accepted ↔
      (libc.localtime s₁).minute < (libc.localtime s₂).minute ∨
        (libc.localtime s₁).minute = (libc.localtime s₂).minute ∧
          t₁.tmod kMicroSecondsPerSecond < t₂.tmod kMicroSecondsPerSecond := by
    rw [hacc₁, hacc₂, timePrefix_eq (h.inRange s₁) hyear₁ ht₁,
      timePrefix_eq (h.inRange s₂) hyear₂ (ht₁.trans hlt.le),
      fixedRecord_lt_iff (fields_prefixFormat (h.inRange s₁) hyear₁ (by omega))
        (fields_prefixFormat (h.inRange s₂) hyear₂ (by omega)),
      append_lt_append_iff hlen, hnumbers_lt, hnumbers_eq, List.cons_lt_cons_iff]
    simp only [List.not_lt_nil, and_false, or_false, hmicros_lt]
  have hne_of_lt : stream₁.accepted < stream₂.accepted → stream₁.accepted ≠ stream₂.accepted := by
    intro hsmaller hsame
    rw [hsame] at hsmaller
    exact List.lt_irrefl _ hsmaller
  rw [and_iff_right_of_imp hne_of_lt, hprefix]
  rcases minute_le h hle with hminute | hminute
  · -- in a later minute
    have hne : (libc.localtime s₁).minute ≠ (libc.localtime s₂).minute := by
      intro hsame
      rw [hsame] at hminute
      exact List.lt_irrefl _ hminute
    exact iff_of_true (Or.inl hminute) (Or.inl hne)
  · -- in the same minute: only the microseconds are compared
    have hnot : ¬ (libc.localtime s₁).minute < (libc.localtime s₂).minute := by
      rw [hminute]
      exact List.lt_irrefl _
    rw [or_iff_right hnot, and_iff_right hminute, or_iff_right fun hne => hne hminute]

/-! ### January 1970 -/

/-- A calendar whose months have 31 days.  In January 1970 it is that of UTC. -/
def january : Libc where
  localtime seconds :=
    { tm_year := seconds / 60 / 60 / 24 / 31 / 12 + 70
      tm_mon := seconds / 60 / 60 / 24 / 31 % 12
      tm_mday := seconds / 60 / 60 / 24 % 31 + 1
      tm_hour := seconds / 60 / 60 % 24
      tm_min := seconds / 60 % 60
      tm_sec := seconds % 60 }
  strerror_r _ := ascii "Success"

theorem div_mod_lt {a b k : ℤ} (hk : 0 < k) (h : a < b) :
    a / k < b / k ∨ a / k = b / k ∧ a % k < b % k := by
  rcases (Int.ediv_le_ediv hk h.le).lt_or_eq with hlt | heq
  · exact Or.inl hlt
  · have ha := Int.mul_ediv_add_emod a k
    have hb := Int.mul_ediv_add_emod b k
    rw [heq] at ha
    exact Or.inr ⟨heq, by omega⟩

theorem calendar_january : Calendar january.localtime where
  inRange seconds := by
    refine ⟨?_, ?_, ?_, ?_, ?_⟩ <;> simp only [january] <;> omega
  fields_lt := by
    intro s s' h
    simp only [Tm.fields, Tm.minute, january, List.cons_append, List.nil_append,
      List.cons_lt_cons_iff, List.not_lt_nil, and_false, or_false]
    -- the unit in which the two times differ
    rcases div_mod_lt (k := 60) (by decide) h with hmin | hsec
    · rcases div_mod_lt (k := 60) (by decide) hmin with hhour | hmin
      · rcases div_mod_lt (k := 24) (by decide) hhour with hday | hhour
        · rcases div_mod_lt (k := 31) (by decide) hday with hmon | hday
          · rcases div_mod_lt (k := 12) (by decide) hmon with hyear | hmon <;> omega
          · omega
        · omega
      · omega
    · omega

/-- Half a second before and after the second minute. -/
theorem formatTime_lt_iff_january : ∃ stream₁ stream₂,
    formatTime january 59500000 (FixedBuffer.create (filled 0).1 (filled 0).2) = .ok stream₁ ∧
    formatTime january 60500000 (FixedBuffer.create (filled 0).1 (filled 0).2) = .ok stream₂ ∧
      (stream₁.accepted ≠ stream₂.accepted ∧ stream₁.accepted < stream₂.accepted ↔
        (january.localtime ((59500000 : ℤ).tdiv kMicroSecondsPerSecond)).minute ≠
            (january.localtime ((60500000 : ℤ).tdiv kMicroSecondsPerSecond)).minute ∨
          (59500000 : ℤ).tmod kMicroSecondsPerSecond <
            (60500000 : ℤ).tmod kMicroSecondsPerSecond) :=
  formatTime_lt_iff calendar_january (by decide) (by decide) (by unfold Tm.FourDigits; decide)
    (by unfold Tm.FourDigits; decide) (filled 0) (filled 0)

/-- Two records of the first minute, one second apart, have one prefix. -/
theorem formatTime_same : Calendar january.localtime ∧ ∃ stream₁ stream₂,
    formatTime january 0 (FixedBuffer.create (filled 0).1 (filled 0).2) = .ok stream₁ ∧
    formatTime january 1000000 (FixedBuffer.create (filled 0).1 (filled 0).2) = .ok stream₂ ∧
      stream₁.accepted = ascii "1970/01/01 00:00:000000 " ∧
      stream₂.accepted = stream₁.accepted := by
  obtain ⟨stream₁, hstream₁, hacc₁⟩ := formatTime_eq january 0 (filled 0)
  obtain ⟨stream₂, hstream₂, hacc₂⟩ := formatTime_eq january 1000000 (filled 0)
  refine ⟨calendar_january, stream₁, stream₂, hstream₁, hstream₂, ?_, ?_⟩
  · rw [hacc₁]
    decide +kernel
  · rw [hacc₁, hacc₂]
    decide +kernel

end Logger

end TinyNetwork
