import TinyNetwork.Logger.Logging

/-!
# The end of a record

`finish()` ends the line of a record with the place of its statement, in five pieces.  Each of
them is dropped when it finds no room, and the line number needs more room than its digits.

## Main results

* `Logger.Impl.ending_of_room` : with room for everything the whole trailer is accepted.
* `Logger.Impl.ending_partial` : what is left of it otherwise.
* `Logger.Impl.endsLine_iff` : exactly when a record ends with its trailer.
-/

namespace TinyNetwork

namespace Logger

namespace Impl

/-- The operands of a statement are streamed, and the destructor calls `finish()`. -/
def record (impl : Impl) (operands : List Operand) : Except Fault LogStream := do
  let stream ← impl.stream.insertAll operands
  finish { impl with stream }

/-- The text that ends the line: ` - <basename>:<line>` and a newline. -/
def trailerText (impl : Impl) : List UInt8 :=
  ascii " - " ++ (impl.basename ++ ([58] ++ (integerText impl.line ++ [10])))

/-- The accepted content ends with the trailer after `finish()`. -/
def EndsLine (impl : Impl) (operands : List Operand) : Prop :=
  ∃ stream, impl.record operands = .ok stream ∧ impl.trailerText <:+ stream.accepted

/-- What is accepted before `finish()`. -/
def content (impl : Impl) (operands : List Operand) : List UInt8 :=
  impl.stream.accepted ++ streamed (Operand.accepted impl.stream.avail operands)

/-- The bytes that are free before `finish()`. -/
def room (impl : Impl) (operands : List Operand) : ℕ :=
  impl.stream.avail - (streamed (Operand.accepted impl.stream.avail operands)).length

/-- When the trailer is there: because it fits, or because the operands happen to end with what is
dropped of it. -/
inductive TrailerKept (impl : Impl) (operands : List Operand) : Prop where
  /-- 48 bytes are left for the line number. -/
  | fits (h : impl.basename.length + 52 ≤ impl.room operands)
  /-- Nothing is accepted any more. -/
  | nothing (h : impl.room operands ≤ 1) (hend : impl.trailerText <:+ impl.content operands)
  /-- The name of the file fills the buffer, and it ends with a newline. -/
  | basename (h : impl.room operands = impl.basename.length + 1) (hdash : impl.room operands ≤ 3)
      (hend : impl.trailerText <:+ impl.content operands ++ impl.basename)
  | dashBasename (h : impl.room operands = impl.basename.length + 4)
      (hend : impl.trailerText <:+ impl.content operands ++ (ascii " - " ++ impl.basename))
  /-- Only the name of the file is dropped, and it ends with the dash before it. -/
  | line (h : 52 ≤ impl.room operands) (hname : impl.room operands ≤ impl.basename.length + 3)
      (hend : impl.trailerText <:+
        impl.content operands ++ (ascii " - " ++ ([58] ++ (integerText impl.line ++ [10]))))

/-- What is accepted of the pieces of `finish()` behind the name of the file. -/
def lineEnding (impl : Impl) (avail : ℕ) : List UInt8 :=
  streamed (Operand.accepted avail [.char 58, .integer impl.line, .char 10])

/-- What is accepted of the pieces of `finish()`. -/
def ending (impl : Impl) (avail : ℕ) : List UInt8 :=
  streamed (Operand.accepted avail [.cstr (ascii " - "), .generalTemplate impl.basename, .char 58,
    .integer impl.line, .char 10])

variable {impl : Impl} {avail : ℕ} {operands : List Operand}

/-! ### The pieces that are accepted -/

theorem lineEnding_of_le_one (h : avail ≤ 1) : impl.lineEnding avail = [] := by
  have hcolon : ¬ (Operand.char 58).Fits avail := Nat.not_lt.2 h
  have hline : ¬ (Operand.integer impl.line).Fits avail := by
    show ¬ 48 ≤ avail
    omega
  have hnewline : ¬ (Operand.char 10).Fits avail := Nat.not_lt.2 h
  rw [lineEnding, Operand.streamed_accepted_of_not_fits hcolon,
    Operand.streamed_accepted_of_not_fits hline, Operand.streamed_accepted_of_not_fits hnewline]
  rfl

/-- Without the line number a colon ends the record, and perhaps a newline. -/
theorem lineEnding_of_lt (h : 1 < avail) (hlt : avail < 49) :
    impl.lineEnding avail = [58] ∨ impl.lineEnding avail = [58, 10] := by
  have hcolon : (Operand.char 58).Fits avail := h
  have hline : ¬ (Operand.integer impl.line).Fits (avail - 1) := by
    show ¬ 48 ≤ avail - 1
    omega
  rw [lineEnding, Operand.streamed_accepted_of_fits hcolon]
  show _ ++ streamed (Operand.accepted (avail - 1) _) = _ ∨ _ ++ streamed (Operand.accepted
    (avail - 1) _) = _
  rw [Operand.streamed_accepted_of_not_fits hline]
  by_cases hnewline : (Operand.char 10).Fits (avail - 1)
  · rw [Operand.streamed_accepted_of_fits hnewline]
    exact Or.inr rfl
  · rw [Operand.streamed_accepted_of_not_fits hnewline]
    exact Or.inl rfl

theorem lineEnding_of_room (h : 49 ≤ avail) :
    impl.lineEnding avail = [58] ++ (integerText impl.line ++ [10]) := by
  have hlen := LogStream.length_integerText_le impl.line
  have hcolon : (Operand.char 58).Fits avail := by
    show 1 < avail
    omega
  have hline : (Operand.integer impl.line).Fits (avail - 1) := by
    show 48 ≤ avail - 1
    omega
  have hnewline : (Operand.char 10).Fits (avail - 1 - (integerText impl.line).length) := by
    show 1 < avail - 1 - (integerText impl.line).length
    omega
  rw [lineEnding, Operand.streamed_accepted_of_fits hcolon]
  refine congrArg ([58] ++ ·) ((Operand.streamed_accepted_of_fits hline).trans ?_)
  exact congrArg (integerText impl.line ++ ·) (Operand.streamed_accepted_of_fits hnewline)

theorem length_dash : (ascii " - ").length = 3 := by decide +kernel

/-- The dash is accepted when four bytes are free, and then the name if a byte stays free. -/
theorem ending_of_lt (h : 3 < avail) : impl.ending avail = ascii " - " ++
    if impl.basename.length < avail - 3
    then impl.basename ++ impl.lineEnding (avail - 3 - impl.basename.length)
    else impl.lineEnding (avail - 3) := by
  have hdash : (Operand.cstr (ascii " - ")).Fits avail := by
    show (ascii " - ").length < avail
    rw [length_dash]
    exact h
  rw [ending, Operand.streamed_accepted_of_fits hdash]
  show ascii " - " ++ streamed (Operand.accepted (avail - (ascii " - ").length) _) = _
  rw [length_dash]
  split_ifs with hname
  · rw [Operand.streamed_accepted_of_fits (by exact hname)]
    rfl
  · rw [Operand.streamed_accepted_of_not_fits (by exact hname)]
    rfl

theorem ending_of_le (h : avail ≤ 3) : impl.ending avail =
    if impl.basename.length < avail
    then impl.basename ++ impl.lineEnding (avail - impl.basename.length)
    else impl.lineEnding avail := by
  have hdash : ¬ (Operand.cstr (ascii " - ")).Fits avail := by
    show ¬ (ascii " - ").length < avail
    rw [length_dash]
    omega
  rw [ending, Operand.streamed_accepted_of_not_fits hdash]
  split_ifs with hname
  · rw [Operand.streamed_accepted_of_fits (by exact hname)]
    rfl
  · rw [Operand.streamed_accepted_of_not_fits (by exact hname)]
    rfl

/-! ### What is left of the trailer -/

theorem ending_of_room (h : impl.basename.length + 52 ≤ avail) :
    impl.ending avail = impl.trailerText := by
  rw [ending_of_lt (by omega), if_pos (by omega), lineEnding_of_room (by omega)]
  rfl

theorem ending_of_le_one (h : avail ≤ 1) : impl.ending avail = [] := by
  rw [ending_of_le (by omega)]
  split_ifs with hname
  · have hempty : impl.basename = [] := List.eq_nil_of_length_eq_zero (by omega)
    rw [lineEnding_of_le_one (by omega), hempty]
    rfl
  · exact lineEnding_of_le_one h

theorem ending_of_basename (h : avail = impl.basename.length + 1) (hdash : avail ≤ 3) :
    impl.ending avail = impl.basename := by
  rw [ending_of_le hdash, if_pos (by omega), lineEnding_of_le_one (by omega), List.append_nil]

theorem ending_of_dashBasename (h : avail = impl.basename.length + 4) :
    impl.ending avail = ascii " - " ++ impl.basename := by
  rw [ending_of_lt (by omega), if_pos (by omega), lineEnding_of_le_one (by omega), List.append_nil]

theorem ending_of_line (h : 52 ≤ avail) (hname : avail ≤ impl.basename.length + 3) :
    impl.ending avail = ascii " - " ++ ([58] ++ (integerText impl.line ++ [10])) := by
  rw [ending_of_lt (by omega), if_neg (by omega), lineEnding_of_room (by omega)]

/-- A text that ends with the colon, with the colon and a newline, or with a blank. -/
def Cut (text : List UInt8) : Prop :=
  ∃ front, text = front ++ [58] ∨ text = front ++ [58, 10] ∨ text = front ++ [32]

theorem Cut.append {text : List UInt8} (h : Cut text) (front : List UInt8) :
    Cut (front ++ text) := by
  obtain ⟨x, rfl | rfl | rfl⟩ := h
  · exact ⟨front ++ x, Or.inl (List.append_assoc _ _ _).symm⟩
  · exact ⟨front ++ x, Or.inr (Or.inl (List.append_assoc _ _ _).symm)⟩
  · exact ⟨front ++ x, Or.inr (Or.inr (List.append_assoc _ _ _).symm)⟩

theorem cut_lineEnding (h : 1 < avail) (hlt : avail < 49) : Cut (impl.lineEnding avail) := by
  rcases lineEnding_of_lt h hlt with hend | hend
  · exact ⟨[], Or.inl hend⟩
  · exact ⟨[], Or.inr (Or.inl hend)⟩

/-- In all other cases the record is cut. -/
theorem ending_partial (hfits : avail < impl.basename.length + 52) (hfull : 1 < avail)
    (hbasename : avail ≤ 3 → avail ≠ impl.basename.length + 1)
    (hdash : avail ≠ impl.basename.length + 4)
    (hline : 52 ≤ avail → impl.basename.length + 3 < avail) : Cut (impl.ending avail) := by
  by_cases hlt : 3 < avail
  · rw [ending_of_lt hlt]
    split_ifs with hname
    · exact ((cut_lineEnding (by omega) (by omega)).append _).append _
    by_cases hone : 1 < avail - 3
    · exact (cut_lineEnding hone (by omega)).append _
    · -- the dash is all there is
      rw [lineEnding_of_le_one (Nat.not_lt.1 hone)]
      exact ⟨ascii " -", Or.inr (Or.inr (by decide +kernel))⟩
  · rw [ending_of_le (Nat.not_lt.1 hlt)]
    split_ifs with hname
    · exact (cut_lineEnding (by omega) (by omega)).append _
    · exact cut_lineEnding hfull (by omega)

/-- A digit stands before the newline of the trailer. -/
theorem trailerText_eq (impl : Impl) :
    ∃ front d, IsDigit d ∧ impl.trailerText = front ++ [d, 10] := by
  obtain ⟨front, d, hdecimal⟩ : ∃ front d, decimal impl.line.1.natAbs = front ++ [d] :=
    ⟨_, _, (List.dropLast_append_getLast (decimal_ne_nil _)).symm⟩
  refine ⟨ascii " - " ++ impl.basename ++ [58] ++
    (if impl.line.1 < 0 then ascii "-" else []) ++ front, d,
    isDigit_of_mem (n := impl.line.1.natAbs) ?_, ?_⟩
  · rw [hdecimal]
    exact List.mem_append_right _ List.mem_cons_self
  · simp only [trailerText, integerText, hdecimal, List.append_assoc, List.cons_append,
      List.nil_append]

/-- No text that is cut ends with the trailer. -/
theorem not_suffix_of_cut {text : List UInt8} (h : Cut text) : ¬ impl.trailerText <:+ text := by
  intro hsuffix
  obtain ⟨trailer, d, hdigit, htrailer⟩ := impl.trailerText_eq
  have hprefix := List.reverse_prefix.2 hsuffix
  rw [htrailer, List.reverse_append] at hprefix
  obtain ⟨front, rfl | rfl | rfl⟩ := h <;> rw [List.reverse_append] at hprefix
  · have hlast := (List.cons_prefix_cons.1 hprefix).1
    exact absurd hlast (by decide)
  · have hlast := (List.cons_prefix_cons.1 (List.cons_prefix_cons.1 hprefix).2).1
    rw [hlast] at hdigit
    exact absurd hdigit (by decide)
  · have hlast := (List.cons_prefix_cons.1 hprefix).1
    exact absurd hlast (by decide)

/-! ### Records -/

/-- What the stream of a record has accepted in the end. -/
theorem record_eq (impl : Impl) (operands : List Operand) : ∃ stream,
    impl.record operands = .ok stream ∧
      stream.accepted = impl.content operands ++ impl.ending (impl.room operands) := by
  obtain ⟨b₁, h₁, hoperands⟩ := LogStream.insertAll_eq operands impl.stream
  obtain ⟨b₂, h₂, hend⟩ := LogStream.insertAll_eq [.cstr (ascii " - "),
    .generalTemplate impl.basename, .char 58, .integer impl.line, .char 10] b₁
  refine ⟨b₂, bind_eq_ok.2 ⟨b₁, h₁, h₂⟩, ?_⟩
  rw [hend.accepted, hoperands.accepted, hoperands.avail]
  rfl

theorem endsLine_iff_suffix (impl : Impl) (operands : List Operand) : impl.EndsLine operands ↔
    impl.trailerText <:+ impl.content operands ++ impl.ending (impl.room operands) := by
  obtain ⟨stream, hstream, hacc⟩ := impl.record_eq operands
  rw [← hacc]
  constructor
  · rintro ⟨stream', hstream', hsuffix⟩
    rw [hstream, Except.ok.injEq] at hstream'
    rw [hstream']
    exact hsuffix
  · exact fun hsuffix => ⟨stream, hstream, hsuffix⟩

/-- **A record ends with its trailer** exactly when it fits, or when what is dropped of it happens
to be there. -/
theorem endsLine_iff (impl : Impl) (operands : List Operand) :
    impl.EndsLine operands ↔ impl.TrailerKept operands := by
  rw [endsLine_iff_suffix]
  constructor
  · intro hsuffix
    by_cases hfits : impl.basename.length + 52 ≤ impl.room operands
    · exact .fits hfits
    by_cases hfull : impl.room operands ≤ 1
    · rw [ending_of_le_one hfull, List.append_nil] at hsuffix
      exact .nothing hfull hsuffix
    by_cases hbasename : impl.room operands ≤ 3 ∧ impl.room operands = impl.basename.length + 1
    · rw [ending_of_basename hbasename.2 hbasename.1] at hsuffix
      exact .basename hbasename.2 hbasename.1 hsuffix
    by_cases hdash : impl.room operands = impl.basename.length + 4
    · rw [ending_of_dashBasename hdash] at hsuffix
      exact .dashBasename hdash hsuffix
    by_cases hline : 52 ≤ impl.room operands ∧ impl.room operands ≤ impl.basename.length + 3
    · rw [ending_of_line hline.1 hline.2] at hsuffix
      exact .line hline.1 hline.2 hsuffix
    · -- any other room cuts the last number or the name
      have hcut : Cut (impl.ending (impl.room operands)) :=
        ending_partial (by omega) (by omega) (fun hle heq => hbasename ⟨hle, heq⟩) hdash
          fun hle => Nat.lt_of_not_le fun hname => hline ⟨hle, hname⟩
      exact absurd hsuffix (not_suffix_of_cut (hcut.append _))
  · intro hkept
    cases hkept with
    | fits h =>
      rw [ending_of_room h]
      exact List.suffix_append _ _
    | nothing h hend =>
      rw [ending_of_le_one h, List.append_nil]
      exact hend
    | basename h hdash hend =>
      rw [ending_of_basename h hdash]
      exact hend
    | dashBasename h hend =>
      rw [ending_of_dashBasename h]
      exact hend
    | line h hname hend =>
      rw [ending_of_line h hname]
      exact hend

end Impl

end Logger

namespace LogStatement

open Logger Logger.Impl

/-- `LOG_INFO` of a string of 3920 bytes in line 12 of `a.cc`. -/
def logLong : LogStatement := ⟨.logInfo, ascii "a.cc", ascii "main", ⟨12, by decide⟩,
  [.string (List.replicate 3920 120)]⟩

/-- There is no room for the line number, but there is for the newline. -/
theorem logLong_not_endsLine : ∃ impl stream,
    logLong.logger epoch 0 .zeroed = .ok impl ∧ impl.record logLong.operands = .ok stream ∧
      ascii " - a.cc:" ++ [10] <:+ stream.accepted ∧
      impl.trailerText = ascii " - a.cc:12" ++ [10] ∧ ¬ impl.EndsLine logLong.operands := by
  obtain ⟨level, hlogger⟩ := logger_eq epoch 0 .zeroed logLong
  obtain ⟨b, hb, hhead⟩ := LogStream.insertAll_eq (logLong.kindPieces epoch 0) .zeroed
  have hlen : (streamed (Operand.accepted 4000 (logLong.kindPieces epoch 0))).length = 30 := by
    decide +kernel
  have havail : b.avail = 3970 := by
    rw [hhead.avail, LogStream.avail_zeroed, hlen]
  have hoperands : streamed (Operand.accepted 3970 logLong.operands) =
      List.replicate 3920 120 := by
    have hfits : (Operand.string (List.replicate 3920 120)).Fits 3970 := by
      show (List.replicate 3920 _).length < 3970
      rw [List.length_replicate]
      decide
    exact (Operand.streamed_accepted_of_fits hfits).trans (List.append_nil _)
  rw [hb] at hlogger
  let impl : Impl := ⟨b, level, logLong.line, sourceFile logLong.file⟩
  have hroom : impl.room logLong.operands = 50 := by
    show b.avail - (streamed (Operand.accepted b.avail logLong.operands)).length = 50
    rw [havail, hoperands, List.length_replicate]
  have hending : impl.ending 50 = ascii " - a.cc:" ++ [10] := by
    show streamed (Operand.accepted 50 logLong.trailer) = _
    decide +kernel
  have htrailer : impl.trailerText = ascii " - a.cc:12" ++ [10] := by
    show ascii " - " ++
      (sourceFile logLong.file ++ ([58] ++ (integerText logLong.line ++ [10]))) = _
    decide +kernel
  obtain ⟨stream, hstream, hacc⟩ := impl.record_eq logLong.operands
  rw [hroom, hending] at hacc
  refine ⟨impl, stream, hlogger, hstream, ?_, htrailer, ?_⟩
  · rw [hacc]
    exact List.suffix_append _ _
  · rw [impl.endsLine_iff_suffix, hroom, hending]
    have hcut : Cut (ascii " - a.cc:" ++ [10]) :=
      ⟨ascii " - a.cc", Or.inr (Or.inl (by decide +kernel))⟩
    exact not_suffix_of_cut (hcut.append _)

end LogStatement

end TinyNetwork
