import TinyNetwork.Http.HeaderBlock

/-!
# When `parseRequest` returns, and what

The loop of `parseRequest` has no bound of its own: it ends because an iteration clears `hasMore`,
or takes bytes out of the buffer.  In `kGotAll` it does neither.  In the other states a line can
keep it busy whose length and CRLF, as an `int`, are 0.

What `parseRequest` returns is a flag of the current call: a call that begins behind the request
line returns false whatever it finds, and so does one that finds no complete line.

## Main results

* `terminates_iff` : when the loop ends, every iteration making progress.
* `reports_iff` : when the value tells an error from anything else.
-/

namespace TinyNetwork

namespace HttpContext

/-! ### The loop in the headers -/

/-- The loop, in the headers, comes to an end. -/
inductive Ends : List UInt8 → Prop
  | noLine {bytes : List UInt8} (h : findCRLF bytes = none) : Ends bytes
  | last {l rest : List UInt8} (hl : findCRLF l = none) (hcolon : 58 ∉ l) :
      Ends (l ++ crlf ++ rest)
  | header {l rest : List UInt8} (hl : HeaderLine l) (hshort : Short l) (hrest : Ends rest) :
      Ends (l ++ crlf ++ rest)
  | long {l rest : List UInt8} (hl : HeaderLine l) (hshort : ¬ Short l)
      (hstop : Wiped l ∨ 58 ∉ cut l) : Ends (l ++ crlf ++ rest)

variable {l rest bytes : List UInt8} {r : HttpRequest} {t : ℤ} {p : Parsing}

theorem ends_line_iff (hl : findCRLF l = none) : Ends (l ++ crlf ++ rest) ↔
    58 ∉ l ∨ Short l ∧ Ends rest ∨ ¬ Short l ∧ (Wiped l ∨ 58 ∉ cut l) := by
  constructor
  · intro h
    generalize hbytes : l ++ crlf ++ rest = bytes at h
    cases h with
    | noLine h =>
      rw [← hbytes, findCRLF_line hl] at h
      cases h
    | last hl' hcolon =>
      obtain ⟨rfl, rfl⟩ := line_unique hl hl' hbytes
      exact .inl hcolon
    | header hl' hshort hrest =>
      obtain ⟨rfl, rfl⟩ := line_unique hl hl'.1 hbytes
      exact .inr (.inl ⟨hshort, hrest⟩)
    | long hl' hshort hstop =>
      obtain ⟨rfl, rfl⟩ := line_unique hl hl'.1 hbytes
      exact .inr (.inr ⟨hshort, hstop⟩)
  · intro h
    by_cases hcolon : 58 ∈ l
    · rcases h with h | ⟨hshort, hrest⟩ | ⟨hshort, hstop⟩
      · exact absurd hcolon h
      · exact .header ⟨hl, hcolon⟩ hshort hrest
      · exact .long ⟨hl, hcolon⟩ hshort hstop
    · exact .last hl hcolon

/-- What is left of a line that is cut ends the loop only without a colon. -/
theorem ends_cut_iff (hl : findCRLF l = none) (hshort : ¬ Short l) (hwiped : ¬ Wiped l) :
    Ends (cut l ++ crlf ++ rest) ↔ 58 ∉ cut l := by
  have hlen := length_cut hshort hwiped
  have hshort' : ¬ Short (cut l) := by
    unfold Short
    omega
  have hwiped' : ¬ Wiped (cut l) := by
    unfold Wiped
    omega
  have hcut : cut (cut l) = cut l := by rw [cut, hlen, List.drop_zero]
  rw [ends_line_iff (findCRLF_cut hl), hcut]
  simp [hshort', hwiped']

/-- A line that is cut loses some bytes, if its length and CRLF are not a multiple of `2 ^ 32`. -/
theorem length_cut_lt (hshort : ¬ Short l) (hwiped : ¬ Wiped l)
    (hstuck : (l.length + 2) % 2 ^ 32 ≠ 0) :
    (cut l ++ crlf ++ rest).length < (l ++ crlf ++ rest).length := by
  unfold Short at hshort
  unfold Wiped at hwiped
  simp only [cut, crlf, List.length_append, List.length_drop, List.length_cons, List.length_nil]
  omega

/-! ### Progress -/

/-- The iteration clears `hasMore` or takes bytes out of the buffer. -/
def Progress (t : ℤ) (p : Parsing) : Prop :=
  (iterate t p).hasMore = false ∨ (iterate t p).buf.readableBytes < p.buf.readableBytes

/-- The loop ends, and every iteration makes progress. -/
def Terminates (t : ℤ) (p : Parsing) : Prop :=
  (∃ fuel q, parseLoop t fuel p = some q) ∧
    ∀ k, (∀ j ≤ k, ((iterate t)^[j] p).hasMore = true) → Progress t ((iterate t)^[k] p)

theorem exists_parseLoop_iff (hmore : p.hasMore = true) :
    (∃ fuel q, parseLoop t fuel p = some q) ↔
      ∃ fuel q, parseLoop t fuel (iterate t p) = some q := by
  constructor
  · rintro ⟨fuel, q, h⟩
    cases fuel with
    | zero => simp [parseLoop, hmore] at h
    | succ fuel =>
      rw [parseLoop, if_pos hmore] at h
      exact ⟨fuel, q, h⟩
  · rintro ⟨fuel, q, h⟩
    exact ⟨fuel + 1, q, by rw [parseLoop, if_pos hmore, h]⟩

/-- One iteration, and then the others. -/
theorem terminates_step (hmore : p.hasMore = true) :
    Terminates t p ↔
      Progress t p ∧ ((iterate t p).hasMore = true → Terminates t (iterate t p)) := by
  rw [Terminates, exists_parseLoop_iff hmore]
  constructor
  · rintro ⟨hend, hall⟩
    refine ⟨hall 0 fun j hj => ?_, fun _ => ⟨hend, fun k hk => ?_⟩⟩
    · obtain rfl := Nat.le_zero.1 hj
      exact hmore
    · refine hall (k + 1) fun j hj => ?_
      cases j with
      | zero => exact hmore
      | succ j => exact hk j (Nat.le_of_succ_le_succ hj)
  · rintro ⟨hprogress, hrest⟩
    by_cases hmore' : (iterate t p).hasMore = true
    · obtain ⟨hend, hall⟩ := hrest hmore'
      refine ⟨hend, fun k hk => ?_⟩
      cases k with
      | zero => exact hprogress
      | succ k => exact hall k fun j hj => hk (j + 1) (Nat.succ_le_succ hj)
    · refine ⟨⟨0, _, by rw [parseLoop, if_neg hmore']⟩, fun k hk => ?_⟩
      cases k with
      | zero => exact hprogress
      | succ k => exact absurd (hk 1 (Nat.succ_pos k)) hmore'

/-- The last iteration. -/
theorem terminates_of_stop (hmore : p.hasMore = true) (h : (iterate t p).hasMore = false) :
    Terminates t p :=
  (terminates_step hmore).2 ⟨.inl h, fun h' => by rw [h] at h'; cases h'⟩

/-- An iteration that takes a line. -/
theorem terminates_take {p' : Parsing} (hmore : p.hasMore = true) (hmore' : p'.hasMore = true)
    (heq : iterate t p = p') (hlt : p'.buf.readableBytes < p.buf.readableBytes) :
    Terminates t p ↔ Terminates t p' := by
  rw [terminates_step hmore, Progress, heq]
  simp [hmore', hlt]

/-- An iteration that takes nothing and goes on. -/
theorem not_terminates_stuck {p' : Parsing} (hmore : p.hasMore = true) (hmore' : p'.hasMore = true)
    (heq : iterate t p = p') (hge : p.buf.readableBytes ≤ p'.buf.readableBytes) :
    ¬ Terminates t p := by
  rw [terminates_step hmore, Progress, heq]
  rintro ⟨h | h, -⟩
  · rw [hmore'] at h
    cases h
  · omega

/-- **The loop in the headers**, line by line. -/
theorem terminates_headers_iff (hstate : p.context.state = .kExpectHeaders)
    (hmore : p.hasMore = true) (hwf : p.buf.Wf) : Terminates t p ↔ Ends p.buf.readable := by
  induction hn : p.buf.readable.length using Nat.strong_induction_on generalizing p with
  | _ n ih =>
    subst hn
    cases hcrlf : p.buf.findCRLF with
    | none =>
      refine iff_of_true (terminates_of_stop hmore ?_) (.noLine hcrlf)
      rw [iterate_noLine (.inr hstate) hcrlf]
    | some i =>
      obtain ⟨l, rest, hl, hbytes, rfl⟩ := findCRLF_eq_some_iff.1 hcrlf
      have hline : line p.buf.readable l.length = l := by rw [hbytes, line_append_crlf]
      have hread := readable_retrieveUtil hwf (l.length + 2)
      have hwf' : (p.buf.retrieveUtil (l.length + 2)).Wf := hwf.retrieve _
      rw [hbytes, ends_line_iff hl]
      by_cases hcolon : 58 ∈ l
      swap
      · refine iff_of_true (terminates_of_stop hmore ?_) (.inl hcolon)
        rw [iterate_last hstate hcrlf (by rwa [hline])]
      have heq := iterate_header (t := t) hstate hcrlf (by rwa [hline])
      -- what a line that is taken leaves is the loop again
      have htake (hlt : (p.buf.retrieveUtil (l.length + 2)).readable.length <
          p.buf.readable.length) :
          Terminates t p ↔ Ends (p.buf.retrieveUtil (l.length + 2)).readable := by
        rw [terminates_take hmore (by exact hmore) heq
          (by rwa [← hwf.length_readable, ← hwf'.length_readable])]
        exact ih _ hlt rfl (by exact hmore) (by exact hwf') rfl
      rw [hread, hbytes] at htake
      by_cases hshort : Short l
      · rw [left_short hshort] at htake
        rw [htake (by simp [crlf]; omega)]
        simp [hcolon, hshort]
      by_cases hwiped : Wiped l
      · have hlen : (l ++ crlf ++ rest).length < 2 ^ 63 := by
          rw [← hbytes, hwf.length_readable]
          exact hwf.readableBytes_lt
        rw [left_wiped hwiped hlen] at htake
        exact iff_of_true ((htake (by simp [crlf])).2 (.noLine rfl))
          (.inr (.inr ⟨hshort, .inl hwiped⟩))
      rw [show (58 ∉ l ∨ Short l ∧ Ends rest ∨ ¬ Short l ∧ (Wiped l ∨ 58 ∉ cut l)) ↔ 58 ∉ cut l by
        simp [hcolon, hshort, hwiped]]
      by_cases hstuck : (l.length + 2) % 2 ^ 32 = 0
      · have hcut : cut l = l := by rw [cut, hstuck, List.drop_zero]
        refine iff_of_false (not_terminates_stuck hmore (by exact hmore) heq ?_)
          (by simp [hcut, hcolon])
        rw [← hwf.length_readable, ← hwf'.length_readable, hread, left_stuck hstuck]
      · rw [left_cut hshort hwiped] at htake
        rw [htake (length_cut_lt hshort hwiped hstuck), ends_cut_iff hl hshort hwiped]

/-! ### The loop from any state -/

/-- `l` is a request line. -/
def Valid (l : List UInt8) : Prop :=
  ∃ method target version, HttpRequest.IsRequestLine l method target version

/-- The state of the context and the bytes in the buffer let the loop end: the state is not
`kGotAll`, and no line that is taken leaves the loop where it was. -/
def EndsFrom (bytes : List UInt8) : HttpRequestParseState → Prop
  | .kExpectRequestLine => ∀ l rest, findCRLF l = none → bytes = l ++ crlf ++ rest → Valid l →
      (Short l → Ends rest) ∧
        (¬ Short l → ¬ Wiped l → (l.length + 2) % 2 ^ 32 ≠ 0 ∧ 58 ∉ cut l)
  | .kExpectHeaders => Ends bytes
  | .kExpectBody | .kGotAll => False

theorem terminates_requestLine_iff (hstate : p.context.state = .kExpectRequestLine)
    (hmore : p.hasMore = true) (hwf : p.buf.Wf) :
    Terminates t p ↔ EndsFrom p.buf.readable .kExpectRequestLine := by
  cases hcrlf : p.buf.findCRLF with
  | none =>
    -- no line: the loop ends
    refine iff_of_true (terminates_of_stop hmore ?_) ?_
    · rw [iterate_noLine (.inl hstate) hcrlf]
    · intro l rest hl hbytes
      rw [Buffer.findCRLF, hbytes, findCRLF_line hl] at hcrlf
      cases hcrlf
  | some i =>
    obtain ⟨l, rest, hl, hbytes, rfl⟩ := findCRLF_eq_some_iff.1 hcrlf
    have hline : line p.buf.readable l.length = l := by rw [hbytes, line_append_crlf]
    have hread := readable_retrieveUtil hwf (l.length + 2)
    have hwf' : (p.buf.retrieveUtil (l.length + 2)).Wf := hwf.retrieve _
    have hfrom : EndsFrom p.buf.readable .kExpectRequestLine ↔ (Valid l →
        (Short l → Ends rest) ∧
          (¬ Short l → ¬ Wiped l → (l.length + 2) % 2 ^ 32 ≠ 0 ∧ 58 ∉ cut l)) := by
      refine ⟨fun h => h l rest hl hbytes, fun h l' rest' hl' hbytes' => ?_⟩
      obtain ⟨rfl, rfl⟩ := line_unique hl hl' (hbytes.symm.trans hbytes')
      exact h
    rw [hfrom]
    cases hproc : p.context.request.processRequestLine l with
    | mk ok request =>
      have hvalid : ok = true ↔ Valid l := by
        rw [Valid, ← HttpRequest.processRequestLine_iff (r := p.context.request), hproc]
      cases ok with
      | false =>
        -- the line is rejected
        refine iff_of_true (terminates_of_stop hmore ?_) fun h => by simpa using hvalid.2 h
        rw [iterate_reject hstate hcrlf (by rwa [hline])]
      | true =>
        have heq := iterate_requestLine (t := t) hstate hcrlf (by rwa [hline])
        rw [forall_prop_of_true (hvalid.1 rfl)]
        -- as long as bytes are taken, the header lines decide
        have htake (hlt : (p.buf.retrieveUtil (l.length + 2)).readable.length <
            p.buf.readable.length) :
            Terminates t p ↔ Ends (p.buf.retrieveUtil (l.length + 2)).readable := by
          rw [terminates_take hmore (by exact hmore) heq
            (by rwa [← hwf.length_readable, ← hwf'.length_readable])]
          exact terminates_headers_iff rfl (by exact hmore) (by exact hwf')
        rw [hread, hbytes] at htake
        by_cases hshort : Short l
        · rw [left_short hshort] at htake
          rw [htake (by simp [crlf]; omega)]
          simp [hshort]
        by_cases hwiped : Wiped l
        · have hlen : (l ++ crlf ++ rest).length < 2 ^ 63 := by
            rw [← hbytes, hwf.length_readable]
            exact hwf.readableBytes_lt
          rw [left_wiped hwiped hlen] at htake
          refine iff_of_true ((htake (by simp [crlf])).2 (.noLine rfl)) ?_
          simp [hshort, hwiped]
        by_cases hstuck : (l.length + 2) % 2 ^ 32 = 0
        · -- no byte is taken, and the state never changes again
          refine iff_of_false (not_terminates_stuck hmore (by exact hmore) heq ?_)
            fun h => (h.2 hshort hwiped).1 hstuck
          rw [← hwf.length_readable, ← hwf'.length_readable, hread, left_stuck hstuck]
        · rw [left_cut hshort hwiped] at htake
          rw [htake (length_cut_lt hshort hwiped hstuck), ends_cut_iff hl hshort hwiped]
          exact ⟨fun h => ⟨fun h' => absurd h' hshort, fun _ _ => ⟨hstuck, h⟩⟩,
            fun h => (h.2 hshort hwiped).2⟩

/-- The states without a branch of their own never change. -/
theorem not_terminates {p : Parsing} (hstate : iterate t p = p) (hmore : p.hasMore = true) :
    ¬ Terminates t p := by
  refine not_terminates_stuck hmore hmore hstate ?_
  exact Nat.le_refl _

/-- **When the loop of `parseRequest` ends**, every iteration clearing `hasMore` or taking bytes out
of the buffer. -/
theorem terminates_iff {c : HttpContext} {buf : Buffer} (hwf : buf.Wf) :
    Terminates t ⟨c, buf, false, true⟩ ↔ EndsFrom buf.readable c.state := by
  cases hstate : c.state with
  | kExpectRequestLine => exact terminates_requestLine_iff hstate rfl hwf
  | kExpectHeaders => exact terminates_headers_iff hstate rfl hwf
  | kExpectBody | kGotAll =>
    refine iff_of_false (not_terminates ?_ rfl) id
    simp [iterate, hstate]

theorem terminates_iff_host : Terminates 0
    ⟨⟨.kExpectHeaders, .new⟩, bufferOf (ascii "Host: a\r\n\r\nGET"), false, true⟩ := by
  refine (terminates_iff (by decide +kernel)).2 ?_
  have hends : Ends (ascii "Host: a" ++ crlf ++ ([] ++ crlf ++ ascii "GET")) :=
    .header ⟨by decide +kernel, by decide +kernel⟩ (by decide +kernel) (.last rfl (by simp))
  exact hends

/-! ### Reachable contexts -/

/-- The contexts that the public functions lead to. -/
inductive Reachable : HttpContext → Prop
  | new : Reachable new
  | parseRequest {c c' : HttpContext} {buf buf' : Buffer} {fuel : ℕ} {t : ℤ} {ok : Bool}
      (hc : Reachable c) (hwf : buf.Wf) (h : parseRequest fuel c buf t = some (ok, c', buf')) :
      Reachable c'
  | reset {c : HttpContext} (hc : Reachable c) : Reachable c.reset

/-- A whole request, and the call that goes on with the context without a `reset`. -/
theorem not_terminates_gotAll : ¬ ∀ (c : HttpContext) (buf : Buffer) (t : ℤ), Reachable c →
    buf.Wf → Terminates t ⟨c, buf, false, true⟩ := by
  obtain ⟨c, buf, hrun, hstate⟩ : ∃ c buf, parseRequest 2 .new
      (bufferOf (ascii "GET / HTTP/1.1\r\n\r\n")) 0 = some (true, c, buf) ∧
        c.state = .kGotAll := ⟨_, _, rfl, rfl⟩
  intro hall
  have hreach : Reachable c := .parseRequest .new (by decide +kernel) hrun
  refine not_terminates (t := 0) ?_ rfl (hall c .empty 0 hreach (by decide +kernel))
  simp [iterate, hstate]

/-! ### The value -/

section Value

variable {ok : Bool} {c : HttpContext} {buf : Buffer}

theorem exists_parses_iff (hlen : bytes.length < 2 ^ 63) :
    (∃ q, Parses (scan r bytes ok) q) ↔ Ends bytes := by
  induction hn : bytes.length using Nat.strong_induction_on generalizing r bytes with
  | _ n ih =>
    subst hn
    cases hcrlf : findCRLF bytes with
    | none => exact iff_of_true ⟨_, (parses_noLine_iff hcrlf).2 rfl⟩ (.noLine hcrlf)
    | some i =>
      obtain ⟨l, rest, hl, rfl, -⟩ := findCRLF_eq_some_iff.1 hcrlf
      rw [ends_line_iff hl]
      by_cases hcolon : 58 ∈ l
      swap
      · exact iff_of_true ⟨_, (parses_last_iff hl hcolon).2 rfl⟩ (.inl hcolon)
      have hlt : rest.length < (l ++ crlf ++ rest).length := by
        simp only [crlf, List.length_append, List.length_cons, List.length_nil]
        omega
      by_cases hshort : Short l
      · simp only [parses_short_iff hl hcolon hshort, ih _ hlt (hlt.trans hlen) rfl]
        simp [hcolon, hshort]
      by_cases hwiped : Wiped l
      · exact iff_of_true ⟨_, (parses_wiped_iff hl hcolon hwiped hlen).2 rfl⟩
          (.inr (.inr ⟨hshort, .inl hwiped⟩))
      by_cases hcut : 58 ∈ cut l
      · refine iff_of_false ?_ (by simp [hcolon, hshort, hwiped, hcut])
        rintro ⟨q, hq⟩
        exact not_parses_cut hl hcolon hshort hwiped hcut hq
      · exact iff_of_true ⟨_, (parses_cut_iff hl hcolon hshort hwiped hcut).2 rfl⟩
          (.inr (.inr ⟨hshort, .inr hcut⟩))

/-- A call returns this value. -/
def Returns (c : HttpContext) (buf : Buffer) (t : ℤ) (ok : Bool) : Prop :=
  ∃ fuel c' buf', parseRequest fuel c buf t = some (ok, c', buf')

/-- The parser stands at a complete line that is not a request line. -/
def Erroneous (c : HttpContext) (bytes : List UInt8) : Prop :=
  c.state = .kExpectRequestLine ∧
    ∃ l rest, findCRLF l = none ∧ bytes = l ++ crlf ++ rest ∧ ¬ Valid l

/-- The value of `parseRequest` tells an error from anything else. -/
def Reports (c : HttpContext) (buf : Buffer) (t : ℤ) : Prop :=
  (Returns c buf t false ↔ Erroneous c buf.readable) ∧
    (Returns c buf t true ↔ ¬ Erroneous c buf.readable)

/-- The call begins at a complete line, and if that is a request line, the loop ends. -/
def BeginsWithLine (c : HttpContext) (bytes : List UInt8) : Prop :=
  c.state = .kExpectRequestLine ∧ ∃ l rest, findCRLF l = none ∧ bytes = l ++ crlf ++ rest ∧
    (Valid l → Short l ∧ Ends rest ∨ Wiped l ∨ ¬ Short l ∧ ¬ Wiped l ∧ 58 ∉ cut l)

theorem returns_iff (hwf : buf.Wf) :
    Returns c buf t ok ↔ ∃ q, Parses ⟨c.timeless, buf.readable, false⟩ q ∧ q.ok = ok := by
  constructor
  · rintro ⟨fuel, c', buf', h⟩
    exact ⟨_, (parses_of_parseRequest hwf h).1, rfl⟩
  · rintro ⟨q, hq, rfl⟩
    obtain ⟨fuel, c', buf', h, -⟩ := parseRequest_of_parses (t := t) hwf hq
    exact ⟨fuel, c', buf', h⟩

/-- A call that can only return false without an error does not report. -/
theorem not_reports (hwf : buf.Wf) (herror : ¬ Erroneous c buf.readable)
    (h : ∀ q, Parses ⟨c.timeless, buf.readable, false⟩ q → q.ok = false) : ¬ Reports c buf t := by
  rintro ⟨-, htrue⟩
  obtain ⟨q, hq, hok⟩ := (returns_iff hwf).1 (htrue.2 herror)
  rw [h q hq] at hok
  cases hok

theorem timeless_requestLine (hstate : c.state = .kExpectRequestLine) :
    c.timeless = ⟨.kExpectRequestLine, c.request.setReceiveTime 0⟩ := by
  rw [← hstate]
  rfl

/-- The loop at a line that is not a request line only says so. -/
theorem exists_parses_invalid_iff (hl : findCRLF l = none) (hvalid : ¬ Valid l) :
    (∃ q, Parses ⟨⟨.kExpectRequestLine, r⟩, l ++ crlf ++ rest, false⟩ q ∧ q.ok = ok) ↔
      ok = false := by
  cases hproc : r.processRequestLine l with
  | mk value request =>
    obtain rfl : value = false := by
      rw [Valid, ← HttpRequest.processRequestLine_iff (r := r), hproc] at hvalid
      simpa using hvalid
    have hreject := Parses.reject (p := ⟨⟨.kExpectRequestLine, r⟩, l ++ crlf ++ rest, false⟩) rfl
      (findCRLF_line hl) (by rw [line_append_crlf, hproc])
    constructor
    · rintro ⟨q, hq, rfl⟩
      rw [hq.det hreject]
    · rintro rfl
      exact ⟨_, hreject, rfl⟩

/-- The loop at a request line returns true if it returns at all. -/
theorem exists_parses_valid_iff (hl : findCRLF l = none) (hvalid : Valid l)
    (hlen : (l ++ crlf ++ rest).length < 2 ^ 63) :
    (∃ q, Parses ⟨⟨.kExpectRequestLine, r⟩, l ++ crlf ++ rest, false⟩ q ∧ q.ok = ok) ↔
      ok = true ∧ (Short l ∧ Ends rest ∨ Wiped l ∨ ¬ Short l ∧ ¬ Wiped l ∧ 58 ∉ cut l) := by
  cases hproc : r.processRequestLine l with
  | mk value request =>
    obtain rfl : value = true := by
      rw [Valid, ← HttpRequest.processRequestLine_iff (r := r), hproc] at hvalid
      exact hvalid
    have hleft : (left (l ++ crlf ++ rest) (l.length + 2)).length < 2 ^ 63 :=
      lt_of_le_of_lt (by rw [left, List.length_drop]; omega) hlen
    have hends : Ends (left (l ++ crlf ++ rest) (l.length + 2)) ↔
        (Short l ∧ Ends rest ∨ Wiped l ∨ ¬ Short l ∧ ¬ Wiped l ∧ 58 ∉ cut l) := by
      by_cases hshort : Short l
      · have hwiped : ¬ Wiped l := by
          unfold Short at hshort
          unfold Wiped
          omega
        rw [left_short hshort]
        simp [hshort, hwiped]
      by_cases hwiped : Wiped l
      · rw [left_wiped hwiped hlen]
        exact iff_of_true (.noLine rfl) (.inr (.inl hwiped))
      · rw [left_cut hshort hwiped, ends_cut_iff hl hshort hwiped]
        simp [hshort, hwiped]
    have hscan : (∃ q, Parses (scan request (left (l ++ crlf ++ rest) (l.length + 2)) true) q) ↔
        Ends (left (l ++ crlf ++ rest) (l.length + 2)) := exists_parses_iff hleft
    rw [← hends, ← hscan]
    simp only [parses_requestLine_iff hl hproc]
    constructor
    · rintro ⟨q, hq, rfl⟩
      exact ⟨(hq.of_headers rfl).1, q, hq⟩
    · rintro ⟨rfl, q, hq⟩
      exact ⟨q, hq, (hq.of_headers rfl).1⟩

/-- **When the value of `parseRequest` tells an error from anything else**: the call begins at a
complete line. -/
theorem reports_iff (hopen : c.Open) (hwf : buf.Wf) :
    Reports c buf t ↔ BeginsWithLine c buf.readable := by
  rcases hopen with hstate | hstate
  swap
  · -- a call that goes on with the header lines
    refine iff_of_false (not_reports hwf ?_ fun q hq => ?_) ?_
    · rintro ⟨h, -⟩
      rw [hstate] at h
      cases h
    · exact (hq.of_headers hstate).1
    · rintro ⟨h, -⟩
      rw [hstate] at h
      cases h
  cases hcrlf : buf.findCRLF with
  | none =>
    -- a call without a complete line
    have hnoLine (l rest : List UInt8) (hl : findCRLF l = none) :
        buf.readable ≠ l ++ crlf ++ rest := by
      intro hbytes
      rw [Buffer.findCRLF, hbytes, findCRLF_line hl] at hcrlf
      cases hcrlf
    refine iff_of_false (not_reports hwf ?_ fun q hq => ?_) ?_
    · rintro ⟨-, l, rest, hl, hbytes, -⟩
      exact hnoLine l rest hl hbytes
    · rw [hq.det (.noLine (.inl hstate) hcrlf)]
    · rintro ⟨-, l, rest, hl, hbytes, -⟩
      exact hnoLine l rest hl hbytes
  | some i =>
    obtain ⟨l, rest, hl, hbytes, rfl⟩ := findCRLF_eq_some_iff.1 hcrlf
    have hbegins : BeginsWithLine c buf.readable ↔ (Valid l →
        Short l ∧ Ends rest ∨ Wiped l ∨ ¬ Short l ∧ ¬ Wiped l ∧ 58 ∉ cut l) := by
      refine ⟨?_, fun h => ⟨hstate, l, rest, hl, hbytes, h⟩⟩
      rintro ⟨-, l', rest', hl', hbytes', h⟩
      obtain ⟨rfl, rfl⟩ := line_unique hl hl' (hbytes.symm.trans hbytes')
      exact h
    have herror : Erroneous c buf.readable ↔ ¬ Valid l := by
      refine ⟨?_, fun h => ⟨hstate, l, rest, hl, hbytes, h⟩⟩
      rintro ⟨-, l', rest', hl', hbytes', h⟩
      obtain ⟨rfl, rfl⟩ := line_unique hl hl' (hbytes.symm.trans hbytes')
      exact h
    have hlen : (l ++ crlf ++ rest).length < 2 ^ 63 := by
      rw [← hbytes, hwf.length_readable]
      exact hwf.readableBytes_lt
    rw [hbegins, Reports, herror, returns_iff hwf, returns_iff hwf, hbytes,
      timeless_requestLine hstate]
    by_cases hvalid : Valid l
    · rw [exists_parses_valid_iff hl hvalid hlen, exists_parses_valid_iff hl hvalid hlen]
      simp [hvalid]
    · rw [exists_parses_invalid_iff hl hvalid, exists_parses_invalid_iff hl hvalid]
      simp [hvalid]

theorem reports_iff_get : Reports .new (bufferOf (ascii "GET / HTTP/1.1\r\n")) 0 := by
  refine (reports_iff (.inl rfl) (by decide +kernel)).2 ?_
  have hbytes : (bufferOf (ascii "GET / HTTP/1.1\r\n")).readable =
      ascii "GET / HTTP/1.1" ++ crlf ++ [] := by decide +kernel
  exact ⟨rfl, _, _, by decide +kernel, hbytes, fun _ => .inl ⟨by decide +kernel, .noLine rfl⟩⟩

/-- An incomplete request is reported as an error is. -/
theorem not_reports_incomplete : ¬ Reports .new (bufferOf (ascii "GET / HT")) 0 := by
  rintro ⟨hfalse, -⟩
  obtain ⟨-, l, rest, hl, hbytes, -⟩ := hfalse.1 ⟨1, _, _, rfl⟩
  have hcrlf : findCRLF (bufferOf (ascii "GET / HT")).readable = none := by decide +kernel
  rw [hbytes, findCRLF_line hl] at hcrlf
  cases hcrlf

end Value

end HttpContext

end TinyNetwork
