import TinyNetwork.Http.RequestLine
import TinyNetwork.Http.HttpContext

/-!
# Header lines of any length

`retrieveUtil` passes the length of a line and its CRLF through an `int`.  Below `2 ^ 31` bytes the
line is dropped.  From there on either everything that is unread is dropped, or the line is cut in
the middle, and what remains of it and its CRLF is a multiple of `2 ^ 32` bytes: the next `retrieve`
drops nothing.

With this the loop of `parseRequest` is followed line by line on byte strings of any length, and
compared with the grammar of a header block: header lines, each with a colon, and an empty line.

## Main results

* `parses_short_iff`, `parses_wiped_iff`, `parses_cut_iff`, `not_parses_cut` : what the loop does
  with a header line, by the length of the line.
* `headerBlock_iff` : when the parser accepts exactly the grammar.
* `not_headerBlock` : a line without a colon ends the headers.
-/

namespace TinyNetwork

open Lp64

/-- What stands behind some bytes of a line holds no CRLF either. -/
theorem findCRLF_drop {l : List UInt8} (h : findCRLF l = none) (n : ℕ) :
    findCRLF (l.drop n) = none := by
  induction n generalizing l with
  | zero => exact h
  | succ n ih =>
    cases l with
    | nil => exact h
    | cons b l => exact ih (findCRLF_cons_eq_none.1 h).2

/-- The first line is determined. -/
theorem line_unique {l l' rest rest' : List UInt8} (hl : findCRLF l = none)
    (hl' : findCRLF l' = none) (h : l ++ crlf ++ rest = l' ++ crlf ++ rest') :
    l = l' ∧ rest = rest' := by
  have hlen : l.length = l'.length := by
    have hfind := findCRLF_line (t := rest) hl
    rw [h, findCRLF_line hl'] at hfind
    exact (Option.some.inj hfind).symm
  rw [List.append_assoc, List.append_assoc] at h
  obtain ⟨hline, hrest⟩ := List.append_inj h hlen
  exact ⟨hline, List.append_cancel_left hrest⟩

namespace HttpContext

/-! ### Dropping a line -/

/-- A line that an `int` can drop together with its CRLF. -/
def Short (l : List UInt8) : Prop := l.length + 2 < 2 ^ 31

/-- A line at which everything is dropped. -/
def Wiped (l : List UInt8) : Prop := 2 ^ 31 ≤ (l.length + 2) % 2 ^ 32

/-- What is left of a line that is cut. -/
def cut (l : List UInt8) : List UInt8 := l.drop ((l.length + 2) % 2 ^ 32)

variable {l rest bytes : List UInt8}

instance : Decidable (Short l) := inferInstanceAs (Decidable (_ < _))

instance : Decidable (Wiped l) := inferInstanceAs (Decidable (_ ≤ _))

theorem left_short (h : Short l) : left (l ++ crlf ++ rest) (l.length + 2) = rest :=
  left_line (by simpa [crlf, Short] using h)

theorem left_wiped (h : Wiped l) (hlen : bytes.length < 2 ^ 63) :
    left bytes (l.length + 2) = [] := by
  unfold Wiped at h
  rw [left, toSize_toInt, if_neg (by omega)]
  exact List.drop_of_length_le (by omega)

theorem left_cut (hshort : ¬ Short l) (hwiped : ¬ Wiped l) :
    left (l ++ crlf ++ rest) (l.length + 2) = cut l ++ crlf ++ rest := by
  unfold Short at hshort
  unfold Wiped at hwiped
  rw [left, toSize_toInt, if_pos (by omega), List.append_assoc, List.append_assoc, cut]
  exact List.drop_append_of_le_length (by omega)

theorem findCRLF_cut (h : findCRLF l = none) : findCRLF (cut l) = none := findCRLF_drop h _

theorem length_cut (hshort : ¬ Short l) (hwiped : ¬ Wiped l) :
    ((cut l).length + 2) % 2 ^ 32 = 0 := by
  unfold Short at hshort
  unfold Wiped at hwiped
  rw [cut, List.length_drop]
  omega

/-- Nothing is dropped. -/
theorem left_stuck (h : (l.length + 2) % 2 ^ 32 = 0) : left bytes (l.length + 2) = bytes := by
  rw [left, toSize_toInt, h]
  simp

/-! ### What the loop does with a line -/

section Parses

variable {r : HttpRequest} {ok : Bool} {q : Scan}

/-- The loop in the headers. -/
abbrev scan (r : HttpRequest) (bytes : List UInt8) (ok : Bool) : Scan :=
  ⟨⟨.kExpectHeaders, r⟩, bytes, ok⟩

theorem parses_noLine_iff (h : findCRLF bytes = none) :
    Parses (scan r bytes ok) q ↔ q = scan r bytes ok :=
  ⟨fun hq => hq.det (.noLine (.inr rfl) h), by rintro rfl; exact .noLine (.inr rfl) h⟩

theorem parses_short_iff (hl : findCRLF l = none) (hcolon : 58 ∈ l) (hshort : Short l) :
    Parses (scan r (l ++ crlf ++ rest) ok) q ↔
      Parses (scan (r.addHeader l (l.idxOf 58)) rest ok) q := by
  rw [scan, parses_header_iff hl hcolon, left_short hshort]

theorem parses_wiped_iff (hl : findCRLF l = none) (hcolon : 58 ∈ l) (hwiped : Wiped l)
    (hlen : (l ++ crlf ++ rest).length < 2 ^ 63) :
    Parses (scan r (l ++ crlf ++ rest) ok) q ↔ q = scan (r.addHeader l (l.idxOf 58)) [] ok := by
  rw [scan, parses_header_iff hl hcolon, left_wiped hwiped hlen]
  exact parses_noLine_iff rfl

/-- A line with a colon at which nothing is dropped keeps the loop busy forever. -/
theorem not_parses_stuck (hl : findCRLF l = none) (hcolon : 58 ∈ l)
    (hstuck : (l.length + 2) % 2 ^ 32 = 0) : ¬ Parses (scan r (l ++ crlf ++ rest) ok) q := by
  intro h
  have hcrlf := findCRLF_line (t := rest) hl
  have hline : line (l ++ crlf ++ rest) l.length = l := line_append_crlf
  generalize hp : scan r (l ++ crlf ++ rest) ok = p at h
  -- induction on the parse: after the line comes the same line
  induction h generalizing r with
  | noLine _ hcrlf' => subst hp; cases hcrlf.symm.trans hcrlf'
  | reject hstate | requestLine hstate => subst hp; cases hstate
  | header _ hcrlf' _ _ ih =>
    subst hp
    obtain rfl := Option.some.inj (hcrlf.symm.trans hcrlf')
    refine ih (r := r.addHeader l (l.idxOf 58)) ?_
    simp only [hline, left_stuck hstuck]
  | last _ hcrlf' hcolon' =>
    subst hp
    obtain rfl := Option.some.inj (hcrlf.symm.trans hcrlf')
    exact hcolon' (hline.symm ▸ hcolon)

theorem not_parses_cut (hl : findCRLF l = none) (hcolon : 58 ∈ l) (hshort : ¬ Short l)
    (hwiped : ¬ Wiped l) (hcut : 58 ∈ cut l) : ¬ Parses (scan r (l ++ crlf ++ rest) ok) q := by
  rw [scan, parses_header_iff hl hcolon, left_cut hshort hwiped]
  exact not_parses_stuck (findCRLF_cut hl) hcut (length_cut hshort hwiped)

theorem parses_cut_iff (hl : findCRLF l = none) (hcolon : 58 ∈ l) (hshort : ¬ Short l)
    (hwiped : ¬ Wiped l) (hcut : 58 ∉ cut l) :
    Parses (scan r (l ++ crlf ++ rest) ok) q ↔
      q = ⟨⟨.kGotAll, r.addHeader l (l.idxOf 58)⟩, cut l ++ crlf ++ rest, ok⟩ := by
  rw [scan, parses_header_iff hl hcolon, left_cut hshort hwiped,
    parses_last_iff (findCRLF_cut hl) hcut, left_stuck (length_cut hshort hwiped)]

end Parses

/-! ### The grammar -/

/-- A header line has a colon, and no CRLF. -/
def HeaderLine (l : List UInt8) : Prop := findCRLF l = none ∧ 58 ∈ l

/-- `bytes` is a header block followed by `rest`. -/
def Splits (bytes : List UInt8) (lines : List (List UInt8)) (rest : List UInt8) : Prop :=
  (∀ l ∈ lines, HeaderLine l) ∧ bytes = renderLines lines ++ (crlf ++ rest)

/-- `bytes` begins with a header block. -/
def Block (bytes : List UInt8) : Prop := ∃ lines rest, Splits bytes lines rest

/-- The headers after a list of header lines: for each line, in order, the name in front of its
first colon gets the trimmed value behind it. -/
def updates (headers : List UInt8 → Option (List UInt8)) (lines : List (List UInt8)) :
    List UInt8 → Option (List UInt8) :=
  lines.foldl (fun headers l => Function.update headers (l.takeWhile (· ≠ 58))
    (some (((l.dropWhile (· ≠ 58)).tail.dropWhile isspace).rdropWhile isspace))) headers

theorem splits_noLine {lines : List (List UInt8)} (h : findCRLF bytes = none) :
    ¬ Splits bytes lines rest := by
  rintro ⟨hlines, rfl⟩
  cases lines with
  | nil => cases h
  | cons l lines =>
    rw [renderLines_cons, findCRLF_line (hlines l List.mem_cons_self).1] at h
    cases h

/-- A header block begins with its end, or with a header line. -/
theorem splits_line_iff {lines : List (List UInt8)} {rest' : List UInt8} (hl : findCRLF l = none) :
    Splits (l ++ crlf ++ rest) lines rest' ↔
      l = [] ∧ lines = [] ∧ rest' = rest ∨
        58 ∈ l ∧ ∃ lines', lines = l :: lines' ∧ Splits rest lines' rest' := by
  constructor
  · rintro ⟨hlines, heq⟩
    cases lines with
    | nil =>
      obtain ⟨rfl, rfl⟩ := line_unique hl (show findCRLF [] = none from rfl) heq
      exact .inl ⟨rfl, rfl, rfl⟩
    | cons l' lines =>
      rw [List.forall_mem_cons] at hlines
      rw [renderLines_cons] at heq
      obtain ⟨rfl, rfl⟩ := line_unique hl hlines.1.1 heq
      exact .inr ⟨hlines.1.2, lines, rfl, hlines.2, rfl⟩
  · rintro (⟨rfl, rfl, rfl⟩ | ⟨hcolon, lines', rfl, hlines, rfl⟩)
    · exact ⟨by simp, rfl⟩
    · exact ⟨List.forall_mem_cons.2 ⟨⟨hl, hcolon⟩, hlines⟩, (renderLines_cons ..).symm⟩

theorem block_line_iff (hl : findCRLF l = none) :
    Block (l ++ crlf ++ rest) ↔ l = [] ∨ 58 ∈ l ∧ Block rest := by
  constructor
  · rintro ⟨lines, rest', h⟩
    rcases (splits_line_iff hl).1 h with ⟨rfl, -, -⟩ | ⟨hcolon, lines', -, h⟩
    · exact .inl rfl
    · exact .inr ⟨hcolon, lines', rest', h⟩
  · rintro (rfl | ⟨hcolon, lines, rest', h⟩)
    · exact ⟨[], rest, (splits_line_iff hl).2 (.inl ⟨rfl, rfl, rfl⟩)⟩
    · exact ⟨l :: lines, rest', (splits_line_iff hl).2 (.inr ⟨hcolon, lines, rfl, h⟩)⟩

theorem Splits.length_le {lines : List (List UInt8)} (h : Splits bytes lines rest) :
    rest.length ≤ bytes.length := by
  rw [h.2]
  simp only [List.length_append]
  omega

/-- The header of a line: the name in front of its first colon, the trimmed value behind it. -/
theorem headers_addHeader {r : HttpRequest} {lines : List (List UInt8)} :
    updates r.headers (l :: lines) = updates (r.addHeader l (l.idxOf 58)).headers lines := by
  have hfield : l.takeWhile (· ≠ 58) = l.take (l.idxOf 58) := (HttpRequest.take_idxOf 58 l).symm
  have hvalue : (l.dropWhile (· ≠ 58)).tail = l.drop (l.idxOf 58 + 1) := by
    rw [← HttpRequest.drop_idxOf 58 l, List.tail_drop]
  rw [updates, List.foldl_cons, hfield, hvalue]
  rfl

/-! ### When the parser accepts exactly the grammar -/

/-- The parser, in the headers, takes a header block and nothing else. -/
def Accepts (r : HttpRequest) (bytes : List UInt8) : Prop :=
  ((∃ q, Parses (scan r bytes false) q ∧ q.context.state = .kGotAll) ↔ Block bytes) ∧
    ∀ q, Parses (scan r bytes false) q → q.context.state = .kGotAll →
      ∀ lines rest, Splits bytes lines rest →
        q.context.request.headers = updates r.headers lines ∧ q.bytes = rest

/-- The first line without a colon, or too long for an `int`, is empty, if there is one; or it is
a long line that is not followed by a header block and at which the parser stops. -/
inductive Fits : List UInt8 → Prop
  | noLine {bytes : List UInt8} (h : findCRLF bytes = none) : Fits bytes
  | empty {rest : List UInt8} : Fits ([] ++ crlf ++ rest)
  | header {l rest : List UInt8} (hl : HeaderLine l) (hshort : Short l) (hrest : Fits rest) :
      Fits (l ++ crlf ++ rest)
  | long {l rest : List UInt8} (hl : HeaderLine l) (hshort : ¬ Short l) (hblock : ¬ Block rest)
      (hstop : Wiped l ∨ 58 ∈ cut l) : Fits (l ++ crlf ++ rest)

theorem fits_line_iff (hl : findCRLF l = none) : Fits (l ++ crlf ++ rest) ↔
    l = [] ∨ 58 ∈ l ∧
      (Short l ∧ Fits rest ∨ ¬ Short l ∧ ¬ Block rest ∧ (Wiped l ∨ 58 ∈ cut l)) := by
  constructor
  · intro h
    generalize hbytes : l ++ crlf ++ rest = bytes at h
    cases h with
    | noLine h =>
      rw [← hbytes, findCRLF_line hl] at h
      cases h
    | empty => exact .inl (line_unique hl rfl hbytes).1
    | header hl' hshort hrest =>
      obtain ⟨rfl, rfl⟩ := line_unique hl hl'.1 hbytes
      exact .inr ⟨hl'.2, .inl ⟨hshort, hrest⟩⟩
    | long hl' hshort hblock hstop =>
      obtain ⟨rfl, rfl⟩ := line_unique hl hl'.1 hbytes
      exact .inr ⟨hl'.2, .inr ⟨hshort, hblock, hstop⟩⟩
  · rintro (rfl | ⟨hcolon, ⟨hshort, hrest⟩ | ⟨hshort, hblock, hstop⟩⟩)
    · exact .empty
    · exact .header ⟨hl, hcolon⟩ hshort hrest
    · exact .long ⟨hl, hcolon⟩ hshort hblock hstop

section Accepts

variable {r : HttpRequest}

theorem accepts_noLine (h : findCRLF bytes = none) : Accepts r bytes := by
  have hstate {q : Scan} (hq : Parses (scan r bytes false) q) : q.context.state ≠ .kGotAll := by
    rw [(parses_noLine_iff h).1 hq]
    simp
  refine ⟨⟨?_, ?_⟩, fun q hq hgot => absurd hgot (hstate hq)⟩
  · rintro ⟨q, hq, hgot⟩
    exact absurd hgot (hstate hq)
  · rintro ⟨lines, rest, hsplits⟩
    exact absurd hsplits (splits_noLine h)

/-- A line without a colon ends the headers, empty or not. -/
theorem accepts_last_iff (hl : findCRLF l = none) (hcolon : 58 ∉ l) :
    Accepts r (l ++ crlf ++ rest) ↔ l = [] := by
  have hq {q : Scan} : Parses (scan r (l ++ crlf ++ rest) false) q ↔ _ :=
    parses_last_iff hl hcolon
  constructor
  · rintro ⟨hiff, -⟩
    have hblock := hiff.1 ⟨_, hq.2 rfl, rfl⟩
    rcases (block_line_iff hl).1 hblock with hnil | ⟨h, -⟩
    · exact hnil
    · exact absurd h hcolon
  · rintro rfl
    refine ⟨⟨fun _ => (block_line_iff hl).2 (.inl rfl), fun _ => ⟨_, hq.2 rfl, rfl⟩⟩, ?_⟩
    intro q hparses _ lines rest' hsplits
    obtain rfl := hq.1 hparses
    rcases (splits_line_iff hl).1 hsplits with ⟨-, rfl, rfl⟩ | ⟨h, -⟩
    · exact ⟨rfl, left_short (l := []) (by decide)⟩
    · exact absurd h hcolon

/-- A short header line is taken. -/
theorem accepts_short_iff (hl : findCRLF l = none) (hcolon : 58 ∈ l) (hshort : Short l) :
    Accepts r (l ++ crlf ++ rest) ↔ Accepts (r.addHeader l (l.idxOf 58)) rest := by
  have hne : l ≠ [] := List.ne_nil_of_mem hcolon
  have hblock : Block (l ++ crlf ++ rest) ↔ Block rest := by
    rw [block_line_iff hl]
    simp [hne, hcolon]
  simp only [Accepts, parses_short_iff hl hcolon hshort, hblock]
  refine and_congr Iff.rfl (forall_congr' fun q => forall_congr' fun hq =>
    forall_congr' fun hgot => ⟨fun h lines rest' hsplits => ?_, fun h lines rest' hsplits => ?_⟩)
  · have hmore := h (l :: lines) rest' ((splits_line_iff hl).2 (.inr ⟨hcolon, _, rfl, hsplits⟩))
    rwa [headers_addHeader] at hmore
  · rcases (splits_line_iff hl).1 hsplits with ⟨hnil, -⟩ | ⟨-, lines', rfl, hsplits'⟩
    · exact absurd hnil hne
    · rw [headers_addHeader]
      exact h lines' rest' hsplits'

/-- A long header line at which the parser stops, or does not come to an end, is never part of a
request. -/
theorem accepts_stop_iff (hl : findCRLF l = none) (hcolon : 58 ∈ l)
    (hstop : ∀ q, Parses (scan r (l ++ crlf ++ rest) false) q → q.context.state ≠ .kGotAll) :
    Accepts r (l ++ crlf ++ rest) ↔ ¬ Block rest := by
  have hne : l ≠ [] := List.ne_nil_of_mem hcolon
  have hblock : Block (l ++ crlf ++ rest) ↔ Block rest := by
    rw [block_line_iff hl]
    simp [hne, hcolon]
  rw [Accepts, hblock]
  constructor
  · rintro ⟨hiff, -⟩ hrest
    obtain ⟨q, hq, hgot⟩ := hiff.2 hrest
    exact hstop q hq hgot
  · intro hrest
    refine ⟨⟨?_, fun h => absurd h hrest⟩, fun q hq hgot => absurd hgot (hstop q hq)⟩
    rintro ⟨q, hq, hgot⟩
    exact absurd hgot (hstop q hq)

/-- A header line that is cut behind its last colon ends the headers in its middle. -/
theorem not_accepts_cut (hl : findCRLF l = none) (hcolon : 58 ∈ l) (hshort : ¬ Short l)
    (hwiped : ¬ Wiped l) (hcut : 58 ∉ cut l) : ¬ Accepts r (l ++ crlf ++ rest) := by
  rintro ⟨hiff, hall⟩
  have hq : Parses (scan r (l ++ crlf ++ rest) false) _ :=
    (parses_cut_iff hl hcolon hshort hwiped hcut).2 rfl
  obtain ⟨lines, rest', hsplits⟩ := hiff.1 ⟨_, hq, rfl⟩
  obtain ⟨-, hbytes⟩ := hall _ hq rfl lines rest' hsplits
  rcases (splits_line_iff hl).1 hsplits with ⟨rfl, -⟩ | ⟨-, lines', -, hsplits'⟩
  · cases hcolon
  · have hle := hsplits'.length_le
    rw [← show cut l ++ crlf ++ rest = rest' from hbytes] at hle
    simp only [crlf, List.length_append, List.length_cons, List.length_nil] at hle
    omega

/-- **When the parser accepts exactly the grammar**, line by line. -/
theorem accepts_iff_fits (hlen : bytes.length < 2 ^ 63) : Accepts r bytes ↔ Fits bytes := by
  induction hn : bytes.length using Nat.strong_induction_on generalizing r bytes with
  | _ n ih =>
    subst hn
    cases hcrlf : findCRLF bytes with
    | none => exact iff_of_true (accepts_noLine hcrlf) (.noLine hcrlf)
    | some i =>
      obtain ⟨l, rest, hl, rfl, -⟩ := findCRLF_eq_some_iff.1 hcrlf
      rw [fits_line_iff hl]
      by_cases hcolon : 58 ∈ l
      swap
      · rw [accepts_last_iff hl hcolon]
        simp [hcolon]
      have hne : l ≠ [] := List.ne_nil_of_mem hcolon
      have hlt : rest.length < (l ++ crlf ++ rest).length := by
        simp only [crlf, List.length_append, List.length_cons, List.length_nil]
        omega
      by_cases hshort : Short l
      · rw [accepts_short_iff hl hcolon hshort, ih _ hlt (hlt.trans hlen) rfl]
        simp [hne, hcolon, hshort]
      by_cases hwiped : Wiped l
      · rw [accepts_stop_iff hl hcolon fun q hq => ?_]
        · simp [hne, hcolon, hshort, hwiped]
        · rw [(parses_wiped_iff hl hcolon hwiped hlen).1 hq]
          simp
      by_cases hcut : 58 ∈ cut l
      · rw [accepts_stop_iff hl hcolon fun q hq => absurd hq
          (not_parses_cut hl hcolon hshort hwiped hcut)]
        simp [hne, hcolon, hshort, hwiped, hcut]
      · refine iff_of_false (not_accepts_cut hl hcolon hshort hwiped hcut) ?_
        simp [hne, hshort, hwiped, hcut]

end Accepts

/-! ### `parseRequest` -/

variable {c : HttpContext} {buf : Buffer} {t : ℤ}

/-- `parseRequest` accepts exactly the grammar of a header block: it reaches `kGotAll` iff the
buffer begins with one, and then the headers are updated and the rest stays unread. -/
def AcceptsExactly (c : HttpContext) (buf : Buffer) (t : ℤ) : Prop :=
  ((∃ fuel ok c' buf', parseRequest fuel c buf t = some (ok, c', buf') ∧ c'.gotAll = true) ↔
    Block buf.readable) ∧
  ∀ fuel ok c' buf', parseRequest fuel c buf t = some (ok, c', buf') → c'.gotAll = true →
    ∀ lines rest, Splits buf.readable lines rest →
      c'.request.headers = updates c.request.headers lines ∧ buf'.readable = rest

theorem timeless_eq (hstate : c.state = .kExpectHeaders) :
    c.timeless = ⟨.kExpectHeaders, c.request.setReceiveTime 0⟩ := by
  rw [← hstate]
  rfl

/-- A call is a parse of the readable bytes. -/
theorem acceptsExactly_iff (hstate : c.state = .kExpectHeaders) (hwf : buf.Wf) :
    AcceptsExactly c buf t ↔ Accepts (c.request.setReceiveTime 0) buf.readable := by
  have hcall {fuel ok c' buf'} (h : parseRequest fuel c buf t = some (ok, c', buf')) :=
    (parses_of_parseRequest hwf h).1
  rw [timeless_eq hstate] at hcall
  have hback {q : Scan} (hq : Parses (scan (c.request.setReceiveTime 0) buf.readable false) q) :=
    parseRequest_of_parses (t := t) hwf (by rw [timeless_eq hstate]; exact hq)
  refine and_congr (iff_congr ⟨?_, ?_⟩ Iff.rfl) ⟨?_, ?_⟩
  · rintro ⟨fuel, ok, c', buf', h, hgot⟩
    exact ⟨_, hcall h, gotAll_iff.1 hgot⟩
  · rintro ⟨q, hq, hgot⟩
    obtain ⟨fuel, c', buf', h, -, hc', -⟩ := hback hq
    exact ⟨fuel, q.ok, c', buf', h, gotAll_iff.2 (by rw [← state_timeless, hc', hgot])⟩
  · intro h q hq hgot lines rest hsplits
    obtain ⟨fuel, c', buf', hrun, -, hc', hbuf'⟩ := hback hq
    obtain ⟨hheaders, hrest⟩ := h fuel q.ok c' buf' hrun
      (gotAll_iff.2 (by rw [← state_timeless, hc', hgot])) lines rest hsplits
    rw [← hc', ← hbuf']
    exact ⟨hheaders, hrest⟩
  · intro h fuel ok c' buf' hrun hgot lines rest hsplits
    exact h _ (hcall hrun) (gotAll_iff.1 hgot) lines rest hsplits

/-- **When `parseRequest` accepts exactly the grammar** from `kExpectHeaders` on. -/
theorem headerBlock_iff (hstate : c.state = .kExpectHeaders) (hwf : buf.Wf) :
    AcceptsExactly c buf t ↔ Fits buf.readable := by
  have hlen : buf.readable.length < 2 ^ 63 := by
    rw [hwf.length_readable]
    exact hwf.readableBytes_lt
  rw [acceptsExactly_iff hstate hwf, accepts_iff_fits hlen]

/-- A buffer with these readable bytes. -/
def bufferOf (bytes : List UInt8) : Buffer := ⟨List.replicate 8 0 ++ bytes, 8, 8 + bytes.length⟩

theorem headerBlock_iff_host :
    AcceptsExactly ⟨.kExpectHeaders, .new⟩ (bufferOf (ascii "Host: a\r\n\r\nGET")) 0 := by
  refine (headerBlock_iff rfl (by decide +kernel)).2 ?_
  have hfits : Fits (ascii "Host: a" ++ crlf ++ ([] ++ crlf ++ ascii "GET")) :=
    .header ⟨by decide +kernel, by decide +kernel⟩ (by decide +kernel) .empty
  exact hfits

/-- A line without a colon ends the headers as if it were empty. -/
theorem not_headerBlock :
    ¬ AcceptsExactly ⟨.kExpectHeaders, .new⟩ (bufferOf (ascii "junk\r\n")) 0 := by
  have hlast : Accepts (HttpRequest.new.setReceiveTime 0) (ascii "junk" ++ crlf ++ []) ↔ _ :=
    accepts_last_iff (by decide +kernel) (by decide +kernel)
  intro h
  have hnil := hlast.1 ((acceptsExactly_iff rfl (by decide +kernel)).1 h)
  exact absurd hnil (by decide +kernel)

end HttpContext

end TinyNetwork
