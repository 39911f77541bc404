import TinyNetwork.Http.HttpRequest
import TinyNetwork.Net.Buffer

/-!
# `HttpContext`

The parser of requests: a state, the request filled in so far, and a loop that takes complete lines
from the front of a buffer.  The loop is run with a number of iterations as fuel; it has a result if
some number of iterations is enough, and not every call has one.

What the loop does depends on the readable bytes only: `Parses` is the loop on a byte string, with
the receive time left out.

## Main results

* `parses_of_parseLoop`, `parseLoop_of_parses` : the loop on a buffer is `Parses` on its readable
  bytes.
* `Parses.det`, `exists_parses` : `Parses` has at most one result, and exactly one below `2 ^ 31`
  bytes.
-/

namespace TinyNetwork

open Lp64

/-- `enum HttpRequestParseState`. -/
inductive HttpRequestParseState where
  | kExpectRequestLine | kExpectHeaders | kExpectBody | kGotAll
  deriving DecidableEq, Repr

/-- `class HttpContext`. -/
structure HttpContext where
  state : HttpRequestParseState
  request : HttpRequest

namespace HttpContext

/-- `HttpContext()`. -/
def new : HttpContext := ⟨.kExpectRequestLine, .new⟩

def gotAll (c : HttpContext) : Bool := c.state = .kGotAll

def reset (_c : HttpContext) : HttpContext := new

/-- The variables of `parseRequest`. -/
structure Parsing where
  context : HttpContext
  buf : Buffer
  ok : Bool
  hasMore : Bool

/-- The bytes `[peek(), crlf)`. -/
def line (bytes : List UInt8) (crlf : ℕ) : List UInt8 := bytes.take crlf

/-- An iteration of the loop of `parseRequest`. -/
def iterate (receiveTime : ℤ) (p : Parsing) : Parsing :=
  match p.context.state with
  | .kExpectRequestLine =>
    match p.buf.findCRLF with
    | some crlf =>
      let (ok, request) := p.context.request.processRequestLine (line p.buf.readable crlf)
      if ok then
        { p with
          context := ⟨.kExpectHeaders, request.setReceiveTime receiveTime⟩
          buf := p.buf.retrieveUtil (crlf + 2)
          ok := true }
      else { p with context := { p.context with request }, ok := false, hasMore := false }
    | none => { p with hasMore := false }
  | .kExpectHeaders =>
    match p.buf.findCRLF with
    | some crlf =>
      let colon := (line p.buf.readable crlf).idxOf 58
      if colon ≠ crlf then
        { p with
          context := { p.context with
            request := p.context.request.addHeader (line p.buf.readable crlf) colon }
          buf := p.buf.retrieveUtil (crlf + 2) }
      else
        { p with
          context := { p.context with state := .kGotAll }
          buf := p.buf.retrieveUtil (crlf + 2)
          hasMore := false }
    | none => { p with hasMore := false }
  -- neither state leaves the loop
  | .kExpectBody | .kGotAll => p

/-- The loop of `parseRequest`, if it ends within `fuel` iterations. -/
def parseLoop (receiveTime : ℤ) : ℕ → Parsing → Option Parsing
  | 0, p => if p.hasMore then none else some p
  | fuel + 1, p => if p.hasMore then parseLoop receiveTime fuel (iterate receiveTime p) else some p

/-- `parseRequest(buf, receiveTime)`: its value, the context and the buffer. -/
def parseRequest (fuel : ℕ) (c : HttpContext) (buf : Buffer) (receiveTime : ℤ) :
    Option (Bool × HttpContext × Buffer) :=
  (parseLoop receiveTime fuel ⟨c, buf, false, true⟩).map fun p => (p.ok, p.context, p.buf)

theorem parseLoop_succ {t : ℤ} {fuel : ℕ} {p q : Parsing} (h : parseLoop t fuel p = some q) :
    parseLoop t (fuel + 1) p = some q := by
  induction fuel generalizing p with
  | zero =>
    cases hmore : p.hasMore
    · simpa [parseLoop, hmore] using h
    · simp [parseLoop, hmore] at h
  | succ fuel ih =>
    rw [parseLoop] at h ⊢
    split_ifs at h ⊢ with hmore
    · exact ih h
    · exact h

/-- A larger number of iterations changes nothing. -/
theorem parseRequest_mono {fuel fuel' : ℕ} {c : HttpContext} {buf : Buffer} {t : ℤ}
    {r : Bool × HttpContext × Buffer} (h : parseRequest fuel c buf t = some r)
    (hle : fuel ≤ fuel') : parseRequest fuel' c buf t = some r := by
  obtain ⟨p, hp, rfl⟩ := Option.map_eq_some_iff.1 h
  induction hle with
  | refl => exact h
  | step hle ih =>
    obtain ⟨q, hq, heq⟩ := Option.map_eq_some_iff.1 ih
    rw [parseRequest, parseLoop_succ hq, ← heq]
    rfl

/-! ### The loop on a byte string -/

/-- The context without the receive time of its request. -/
def timeless (c : HttpContext) : HttpContext := { c with request := c.request.setReceiveTime 0 }

@[simp] theorem state_timeless (c : HttpContext) : c.timeless.state = c.state := rfl

@[simp] theorem request_timeless (c : HttpContext) :
    c.timeless.request = c.request.setReceiveTime 0 := rfl

theorem gotAll_iff {c : HttpContext} : c.gotAll = true ↔ c.state = .kGotAll := decide_eq_true_iff

/-- The states in which the loop looks for a line. -/
def Open (c : HttpContext) : Prop := c.state = .kExpectRequestLine ∨ c.state = .kExpectHeaders

/-- What `retrieveUtil` leaves of the readable bytes, whose parameter is an `int` in the end. -/
def left (bytes : List UInt8) (off : ℕ) : List UInt8 := bytes.drop (toSize (toInt off))

theorem left_of_lt {bytes : List UInt8} {off : ℕ} (h : off < 2 ^ 31) :
    left bytes off = bytes.drop off := by
  rw [left, toSize_toInt_of_lt h]

/-- The variables of the loop, with the readable bytes in place of the buffer. -/
structure Scan where
  context : HttpContext
  bytes : List UInt8
  ok : Bool

/-- `Parses p q` : the loop ends, and takes `p` to `q`. -/
inductive Parses : Scan → Scan → Prop
  | noLine {p : Scan} (hopen : p.context.Open) (h : findCRLF p.bytes = none) : Parses p p
  | reject {p : Scan} {i : ℕ} {request : HttpRequest}
      (hstate : p.context.state = .kExpectRequestLine) (h : findCRLF p.bytes = some i)
      (hline : p.context.request.processRequestLine (line p.bytes i) = (false, request)) :
      Parses p ⟨⟨.kExpectRequestLine, request⟩, p.bytes, false⟩
  | requestLine {p q : Scan} {i : ℕ} {request : HttpRequest}
      (hstate : p.context.state = .kExpectRequestLine) (h : findCRLF p.bytes = some i)
      (hline : p.context.request.processRequestLine (line p.bytes i) = (true, request))
      (hrest : Parses ⟨⟨.kExpectHeaders, request⟩, left p.bytes (i + 2), true⟩ q) : Parses p q
  | header {p q : Scan} {i : ℕ} (hstate : p.context.state = .kExpectHeaders)
      (h : findCRLF p.bytes = some i) (hcolon : 58 ∈ line p.bytes i)
      (hrest : Parses ⟨⟨.kExpectHeaders, p.context.request.addHeader (line p.bytes i)
        ((line p.bytes i).idxOf 58)⟩, left p.bytes (i + 2), p.ok⟩ q) : Parses p q
  | last {p : Scan} {i : ℕ} (hstate : p.context.state = .kExpectHeaders)
      (h : findCRLF p.bytes = some i) (hcolon : 58 ∉ line p.bytes i) :
      Parses p ⟨⟨.kGotAll, p.context.request⟩, left p.bytes (i + 2), p.ok⟩

/-- The variables of the loop as the byte string sees them. -/
def Parsing.scan (p : Parsing) : Scan := ⟨p.context.timeless, p.buf.readable, p.ok⟩

section Loop

variable {p q : Parsing} {P Q : Scan} {t : ℤ} {i fuel : ℕ} {request : HttpRequest}

theorem iterate_noLine (hopen : p.context.Open) (h : p.buf.findCRLF = none) :
    iterate t p = { p with hasMore := false } := by
  rcases hopen with hstate | hstate <;> simp [iterate, hstate, h]

theorem iterate_reject (hstate : p.context.state = .kExpectRequestLine)
    (h : p.buf.findCRLF = some i)
    (hline : p.context.request.processRequestLine (line p.buf.readable i) = (false, request)) :
    iterate t p =
      { p with context := ⟨.kExpectRequestLine, request⟩, ok := false, hasMore := false } := by
  simp [iterate, hstate, h, hline]

theorem iterate_requestLine (hstate : p.context.state = .kExpectRequestLine)
    (h : p.buf.findCRLF = some i)
    (hline : p.context.request.processRequestLine (line p.buf.readable i) = (true, request)) :
    iterate t p =
      { p with
        context := ⟨.kExpectHeaders, request.setReceiveTime t⟩
        buf := p.buf.retrieveUtil (i + 2)
        ok := true } := by
  simp [iterate, hstate, h, hline]

/-- A line from a CRLF that was found is as long as the offset of the CRLF. -/
theorem idxOf_line_ne_iff {bytes : List UInt8} (h : findCRLF bytes = some i) (b : UInt8) :
    (line bytes i).idxOf b ≠ i ↔ b ∈ line bytes i := by
  have hlen : (line bytes i).length = i :=
    List.length_take_of_le (by have := le_of_findCRLF h; omega)
  rw [← List.idxOf_lt_length_iff, hlen]
  have := List.idxOf_le_length (l := line bytes i) (a := b)
  omega

theorem iterate_header (hstate : p.context.state = .kExpectHeaders) (h : p.buf.findCRLF = some i)
    (hcolon : 58 ∈ line p.buf.readable i) :
    iterate t p =
      { p with
        context := ⟨.kExpectHeaders, p.context.request.addHeader (line p.buf.readable i)
          ((line p.buf.readable i).idxOf 58)⟩
        buf := p.buf.retrieveUtil (i + 2) } := by
  have hne := (idxOf_line_ne_iff h 58).2 hcolon
  simp only [iterate, hstate, h]
  rw [if_pos hne]

theorem iterate_last (hstate : p.context.state = .kExpectHeaders) (h : p.buf.findCRLF = some i)
    (hcolon : 58 ∉ line p.buf.readable i) :
    iterate t p =
      { p with
        context := ⟨.kGotAll, p.context.request⟩
        buf := p.buf.retrieveUtil (i + 2)
        hasMore := false } := by
  have hne := (idxOf_line_ne_iff h 58).not.2 hcolon
  simp only [iterate, hstate, h]
  rw [if_neg hne]

theorem readable_retrieveUtil {b : Buffer} (hwf : b.Wf) (off : ℕ) :
    (b.retrieveUtil off).readable = left b.readable off := hwf.readable_retrieve _

/-- **Where the loop ends, the byte string ends.** -/
theorem parses_of_parseLoop (hwf : p.buf.Wf) (hmore : p.hasMore = true)
    (h : parseLoop t fuel p = some q) : Parses p.scan q.scan ∧ q.buf.Wf := by
  induction fuel generalizing p with
  | zero => simp [parseLoop, hmore] at h
  | succ fuel ih =>
    rw [parseLoop, if_pos hmore] at h
    have hstop {p' : Parsing} (heq : iterate t p = p') (hmore' : p'.hasMore = false) : q = p' := by
      rw [heq] at h
      cases fuel <;> simpa [parseLoop, hmore', eq_comm] using h
    have hproc (i : ℕ) := HttpRequest.processRequestLine_setReceiveTime (r := p.context.request)
      (l := line p.buf.readable i) 0
    cases hstate : p.context.state with
    | kExpectBody | kGotAll =>
      have heq : iterate t p = p := by simp [iterate, hstate]
      exact ih hwf hmore (heq ▸ h)
    | kExpectRequestLine =>
      cases hcrlf : p.buf.findCRLF with
      | none =>
        obtain rfl := hstop (iterate_noLine (.inl hstate) hcrlf) rfl
        exact ⟨.noLine (.inl hstate) hcrlf, hwf⟩
      | some i =>
        cases hline : p.context.request.processRequestLine (line p.buf.readable i) with
        | mk ok request =>
          specialize hproc i
          rw [hline] at hproc
          cases ok with
          | false =>
            obtain rfl := hstop (iterate_reject hstate hcrlf hline) rfl
            exact ⟨.reject hstate hcrlf hproc, hwf⟩
          | true =>
            rw [iterate_requestLine hstate hcrlf hline] at h
            obtain ⟨hrest, hwf'⟩ := ih (by exact hwf.retrieve _) (by exact hmore) h
            rw [Parsing.scan, readable_retrieveUtil hwf] at hrest
            exact ⟨.requestLine hstate hcrlf hproc hrest, hwf'⟩
    | kExpectHeaders =>
      cases hcrlf : p.buf.findCRLF with
      | none =>
        obtain rfl := hstop (iterate_noLine (.inr hstate) hcrlf) rfl
        exact ⟨.noLine (.inr hstate) hcrlf, hwf⟩
      | some i =>
        by_cases hcolon : 58 ∈ line p.buf.readable i
        · rw [iterate_header hstate hcrlf hcolon] at h
          obtain ⟨hrest, hwf'⟩ := ih (by exact hwf.retrieve _) (by exact hmore) h
          rw [Parsing.scan, readable_retrieveUtil hwf] at hrest
          exact ⟨.header hstate hcrlf hcolon hrest, hwf'⟩
        · obtain rfl := hstop (iterate_last hstate hcrlf hcolon) rfl
          have hlast := Parses.last (p := p.scan) hstate hcrlf hcolon
          refine ⟨?_, hwf.retrieve _⟩
          show Parses p.scan ⟨_, (p.buf.retrieveUtil (i + 2)).readable, p.ok⟩
          rw [readable_retrieveUtil hwf]
          exact hlast

theorem processRequestLine_of_timeless {r request : HttpRequest} {bytes : List UInt8} {ok : Bool}
    (h : (r.setReceiveTime 0).processRequestLine bytes = (ok, request)) :
    ∃ request', r.processRequestLine bytes = (ok, request') ∧
      request = request'.setReceiveTime 0 := by
  rw [HttpRequest.processRequestLine_setReceiveTime, Prod.mk.injEq] at h
  exact ⟨_, Prod.ext h.1 rfl, h.2.symm⟩

theorem parseLoop_stop {p' : Parsing} (hmore : p.hasMore = true) (heq : iterate t p = p')
    (hmore' : p'.hasMore = false) : parseLoop t 1 p = some p' := by
  simp [parseLoop, hmore, heq, hmore']

theorem parseLoop_go {p' : Parsing} (hmore : p.hasMore = true) (heq : iterate t p = p')
    (h : ∃ fuel q, parseLoop t fuel p' = some q ∧ q.scan = Q) :
    ∃ fuel q, parseLoop t fuel p = some q ∧ q.scan = Q := by
  obtain ⟨fuel, q, hq, hscan⟩ := h
  exact ⟨fuel + 1, q, by rw [parseLoop, if_pos hmore, heq, hq], hscan⟩

/-- **Where the byte string ends, the loop ends.** -/
theorem parseLoop_of_parses (h : Parses P Q) (hp : p.scan = P) (hwf : p.buf.Wf)
    (hmore : p.hasMore = true) : ∃ fuel q, parseLoop t fuel p = some q ∧ q.scan = Q := by
  induction h generalizing p with
  | noLine hopen hcrlf =>
    subst hp
    exact ⟨1, _, parseLoop_stop hmore (iterate_noLine hopen hcrlf) rfl, rfl⟩
  | reject hstate hcrlf hline =>
    subst hp
    obtain ⟨request, hline', rfl⟩ := processRequestLine_of_timeless hline
    exact ⟨1, _, parseLoop_stop hmore (iterate_reject hstate hcrlf hline') rfl, rfl⟩
  | requestLine hstate hcrlf hline _ ih =>
    subst hp
    obtain ⟨request, hline', rfl⟩ := processRequestLine_of_timeless hline
    refine parseLoop_go hmore (iterate_requestLine hstate hcrlf hline') (ih ?_ ?_ hmore)
    · rw [Parsing.scan, readable_retrieveUtil hwf]
      rfl
    · exact hwf.retrieve _
  | header hstate hcrlf hcolon _ ih =>
    subst hp
    refine parseLoop_go hmore (iterate_header hstate hcrlf hcolon) (ih ?_ ?_ hmore)
    · rw [Parsing.scan, readable_retrieveUtil hwf]
      rfl
    · exact hwf.retrieve _
  | last hstate hcrlf hcolon =>
    subst hp
    refine ⟨1, _, parseLoop_stop hmore (iterate_last hstate hcrlf hcolon) rfl, ?_⟩
    rw [Parsing.scan, readable_retrieveUtil hwf]
    rfl

/-- A call that returns. -/
theorem parses_of_parseRequest {c c' : HttpContext} {buf buf' : Buffer} {ok : Bool} (hwf : buf.Wf)
    (h : parseRequest fuel c buf t = some (ok, c', buf')) :
    Parses ⟨c.timeless, buf.readable, false⟩ ⟨c'.timeless, buf'.readable, ok⟩ ∧ buf'.Wf := by
  obtain ⟨q, hq, heq⟩ := Option.map_eq_some_iff.1 h
  cases heq
  exact parses_of_parseLoop (p := ⟨c, buf, false, true⟩) hwf rfl hq

/-- A call returns if the parse of its readable bytes ends. -/
theorem parseRequest_of_parses {c : HttpContext} {buf : Buffer} (hwf : buf.Wf)
    (h : Parses ⟨c.timeless, buf.readable, false⟩ Q) :
    ∃ fuel c' buf', parseRequest fuel c buf t = some (Q.ok, c', buf') ∧ buf'.Wf ∧
      c'.timeless = Q.context ∧ buf'.readable = Q.bytes := by
  obtain ⟨fuel, q, hq, rfl⟩ :=
    parseLoop_of_parses (p := ⟨c, buf, false, true⟩) (t := t) h rfl hwf rfl
  exact ⟨fuel, q.context, q.buf, Option.map_eq_some_iff.2 ⟨q, hq, rfl⟩,
    (parses_of_parseLoop (p := ⟨c, buf, false, true⟩) hwf rfl hq).2, rfl, rfl⟩

end Loop

/-! ### The parse of a byte string -/

section Parses

variable {p q q' : Scan}

/-- The parse of a byte string has at most one result. -/
theorem Parses.det (h : Parses p q) (h' : Parses p q') : q = q' := by
  induction h generalizing q' with
  | noLine hopen hcrlf =>
    cases h' with
    | noLine => rfl
    | reject _ hcrlf' | requestLine _ hcrlf' | header _ hcrlf' | last _ hcrlf' =>
      simp [hcrlf] at hcrlf'
  | reject hstate hcrlf hline =>
    cases h' with
    | noLine _ hcrlf' => simp [hcrlf] at hcrlf'
    | header hstate' | last hstate' => simp [hstate] at hstate'
    | reject _ hcrlf' hline' | requestLine _ hcrlf' hline' =>
      obtain rfl := Option.some.inj (hcrlf.symm.trans hcrlf')
      have := hline.symm.trans hline'
      simp_all
  | requestLine hstate hcrlf hline _ ih =>
    cases h' with
    | noLine _ hcrlf' => simp [hcrlf] at hcrlf'
    | header hstate' | last hstate' => simp [hstate] at hstate'
    | reject _ hcrlf' hline' =>
      obtain rfl := Option.some.inj (hcrlf.symm.trans hcrlf')
      simp [hline] at hline'
    | requestLine _ hcrlf' hline' hrest' =>
      obtain rfl := Option.some.inj (hcrlf.symm.trans hcrlf')
      obtain ⟨-, rfl⟩ := Prod.mk.inj (hline.symm.trans hline')
      exact ih hrest'
  | header hstate hcrlf hcolon _ ih =>
    cases h' with
    | noLine _ hcrlf' => simp [hcrlf] at hcrlf'
    | reject hstate' | requestLine hstate' => simp [hstate] at hstate'
    | header _ hcrlf' _ hrest' =>
      obtain rfl := Option.some.inj (hcrlf.symm.trans hcrlf')
      exact ih hrest'
    | last _ hcrlf' hcolon' =>
      obtain rfl := Option.some.inj (hcrlf.symm.trans hcrlf')
      exact absurd hcolon hcolon'
  | last hstate hcrlf hcolon =>
    cases h' with
    | noLine _ hcrlf' => simp [hcrlf] at hcrlf'
    | reject hstate' | requestLine hstate' => simp [hstate] at hstate'
    | header _ hcrlf' hcolon' =>
      obtain rfl := Option.some.inj (hcrlf.symm.trans hcrlf')
      exact absurd hcolon' hcolon
    | last _ hcrlf' =>
      obtain rfl := Option.some.inj (hcrlf.symm.trans hcrlf')
      rfl

/-- The parse ends in a state in which it goes on with the next line, or with a whole request. -/
theorem Parses.open_or_gotAll (h : Parses p q) : q.context.Open ∨ q.context.state = .kGotAll := by
  induction h with
  | noLine hopen => exact .inl hopen
  | reject => exact .inl (.inl rfl)
  | requestLine _ _ _ _ ih => exact ih
  | header _ _ _ _ ih => exact ih
  | last => exact .inr rfl

theorem length_left_lt {bytes : List UInt8} {i : ℕ} (h : findCRLF bytes = some i)
    (hlen : bytes.length < 2 ^ 31) : (left bytes (i + 2)).length < bytes.length := by
  have := le_of_findCRLF h
  rw [left_of_lt (by omega), List.length_drop]
  omega

/-- Below `2 ^ 31` bytes the parse ends: every line that is taken is gone. -/
theorem exists_parses (hopen : p.context.Open) (hlen : p.bytes.length < 2 ^ 31) :
    ∃ q, Parses p q := by
  induction hn : p.bytes.length using Nat.strong_induction_on generalizing p with
  | _ n ih =>
    subst hn
    cases hcrlf : findCRLF p.bytes with
    | none => exact ⟨p, .noLine hopen hcrlf⟩
    | some i =>
      have hlt := length_left_lt hcrlf hlen
      rcases hopen with hstate | hstate
      · cases hline : p.context.request.processRequestLine (line p.bytes i) with
        | mk ok request =>
          cases ok with
          | false => exact ⟨_, .reject hstate hcrlf hline⟩
          | true =>
            obtain ⟨q, hq⟩ := ih _ hlt (p := ⟨⟨.kExpectHeaders, request⟩, _, true⟩) (.inr rfl)
              (hlt.trans hlen) rfl
            exact ⟨q, .requestLine hstate hcrlf hline hq⟩
      · by_cases hcolon : 58 ∈ line p.bytes i
        · obtain ⟨q, hq⟩ := ih _ hlt (p := ⟨⟨.kExpectHeaders, _⟩, _, p.ok⟩) (.inr rfl)
            (hlt.trans hlen) rfl
          exact ⟨q, .header hstate hcrlf hcolon hq⟩
        · exact ⟨_, .last hstate hcrlf hcolon⟩

/-! ### A fresh context -/

/-- Lines with a colon and then one without, as the loop takes them. -/
inductive HeaderBlock : List UInt8 → Prop
  | last {bytes : List UInt8} {i : ℕ} (h : findCRLF bytes = some i) (hcolon : 58 ∉ line bytes i) :
      HeaderBlock bytes
  | header {bytes : List UInt8} {i : ℕ} (h : findCRLF bytes = some i)
      (hcolon : 58 ∈ line bytes i) (hrest : HeaderBlock (left bytes (i + 2))) : HeaderBlock bytes

/-- A valid request line and a header block. -/
def StartsWithRequest (bytes : List UInt8) : Prop :=
  ∃ i request, findCRLF bytes = some i ∧
    HttpRequest.new.processRequestLine (line bytes i) = (true, request) ∧
    HeaderBlock (left bytes (i + 2))

/-- The parse of a header block ends. -/
theorem HeaderBlock.parses {bytes : List UInt8} (h : HeaderBlock bytes) (r : HttpRequest)
    (ok : Bool) : ∃ q, Parses ⟨⟨.kExpectHeaders, r⟩, bytes, ok⟩ q := by
  induction h generalizing r with
  | last hcrlf hcolon => exact ⟨_, .last rfl hcrlf hcolon⟩
  | header hcrlf hcolon _ ih =>
    obtain ⟨q, hq⟩ := ih (r.addHeader _ _)
    exact ⟨q, .header rfl hcrlf hcolon hq⟩

theorem StartsWithRequest.parses {bytes : List UInt8} (h : StartsWithRequest bytes) :
    ∃ q, Parses ⟨new, bytes, false⟩ q := by
  obtain ⟨i, request, hcrlf, hline, hblock⟩ := h
  obtain ⟨q, hq⟩ := hblock.parses request true
  exact ⟨q, .requestLine rfl hcrlf hline hq⟩

/-- Behind the request line the parse returns true, and ends with a whole request iff a header block
is there. -/
theorem Parses.of_headers (h : Parses p q) (hstate : p.context.state = .kExpectHeaders) :
    q.ok = p.ok ∧ q.context.state ≠ .kExpectRequestLine ∧
      (q.context.state = .kGotAll ↔ HeaderBlock p.bytes) := by
  induction h with
  | noLine _ hcrlf =>
    refine ⟨rfl, by simp [hstate], by simp [hstate], fun hblock => ?_⟩
    cases hblock with
    | last hcrlf' | header hcrlf' => cases hcrlf.symm.trans hcrlf'
  | reject hstate' | requestLine hstate' => cases hstate.symm.trans hstate'
  | header _ hcrlf hcolon _ ih =>
    obtain ⟨hok, hne, hiff⟩ := ih rfl
    refine ⟨hok, hne, hiff.trans ⟨fun hblock => .header hcrlf hcolon hblock, fun hblock => ?_⟩⟩
    cases hblock with
    | last hcrlf' hcolon' =>
      obtain rfl := Option.some.inj (hcrlf.symm.trans hcrlf')
      exact absurd hcolon hcolon'
    | header hcrlf' _ hrest =>
      obtain rfl := Option.some.inj (hcrlf.symm.trans hcrlf')
      exact hrest
  | last _ hcrlf hcolon => exact ⟨rfl, by simp, fun _ => .last hcrlf hcolon, fun _ => rfl⟩

/-- **The parse with a fresh context.**  It returns false and takes nothing, or returns true; it
ends with a whole request iff the bytes start with one. -/
theorem Parses.of_new {bytes : List UInt8} (h : Parses ⟨new, bytes, false⟩ q) :
    ((q.ok = false ∧ q.context.state = .kExpectRequestLine ∧ q.bytes = bytes) ∨
        (q.ok = true ∧ q.context.state ≠ .kExpectRequestLine)) ∧
      (q.context.state = .kGotAll ↔ StartsWithRequest bytes) := by
  cases h with
  | noLine _ hcrlf =>
    refine ⟨.inl ⟨rfl, rfl, rfl⟩, by simp [new], fun ⟨i, request, hcrlf', _⟩ => ?_⟩
    cases hcrlf.symm.trans hcrlf'
  | reject _ hcrlf hline =>
    refine ⟨.inl ⟨rfl, rfl, rfl⟩, by simp, fun ⟨i, request, hcrlf', hline', _⟩ => ?_⟩
    obtain rfl := Option.some.inj (hcrlf.symm.trans hcrlf')
    cases hline.symm.trans hline'
  | requestLine _ hcrlf hline hrest =>
    obtain ⟨hok, hne, hiff⟩ := hrest.of_headers rfl
    refine ⟨.inr ⟨hok, hne⟩, hiff.trans ⟨fun hblock => ⟨_, _, hcrlf, hline, hblock⟩, ?_⟩⟩
    rintro ⟨i, request, hcrlf', -, hblock⟩
    obtain rfl := Option.some.inj (hcrlf.symm.trans hcrlf')
    exact hblock
  | header hstate | last hstate => cases hstate

/-! ### A complete line in front -/

variable {l rest : List UInt8} {request : HttpRequest} {ok : Bool}

@[simp] theorem line_append_crlf : line (l ++ crlf ++ rest) l.length = l := by
  simp [line]

theorem left_line (h : (l ++ crlf).length < 2 ^ 31) :
    left (l ++ crlf ++ rest) (l.length + 2) = rest := by
  have hlen : (l ++ crlf).length = l.length + 2 := List.length_append
  rw [left_of_lt (hlen ▸ h), ← hlen, List.drop_left]

/-- An accepted request line. -/
theorem parses_requestLine_iff {r : HttpRequest} (hl : findCRLF l = none)
    (hline : r.processRequestLine l = (true, request)) :
    Parses ⟨⟨.kExpectRequestLine, r⟩, l ++ crlf ++ rest, ok⟩ q ↔
      Parses ⟨⟨.kExpectHeaders, request⟩, left (l ++ crlf ++ rest) (l.length + 2), true⟩ q := by
  have hcrlf := findCRLF_line (t := rest) hl
  have hl' : line (l ++ crlf ++ rest) l.length = l := line_append_crlf
  rw [← hl'] at hline
  refine ⟨fun h => ?_, fun h => .requestLine rfl hcrlf hline h⟩
  cases h with
  | noLine _ hcrlf' => cases hcrlf.symm.trans hcrlf'
  | header hstate | last hstate => simp at hstate
  | reject _ hcrlf' hline' =>
    obtain rfl := Option.some.inj (hcrlf.symm.trans hcrlf')
    cases hline.symm.trans hline'
  | requestLine _ hcrlf' hline' hrest =>
    obtain rfl := Option.some.inj (hcrlf.symm.trans hcrlf')
    obtain ⟨-, rfl⟩ := Prod.mk.inj (hline.symm.trans hline')
    exact hrest

/-- A header line. -/
theorem parses_header_iff {r : HttpRequest} (hl : findCRLF l = none) (hcolon : 58 ∈ l) :
    Parses ⟨⟨.kExpectHeaders, r⟩, l ++ crlf ++ rest, ok⟩ q ↔
      Parses ⟨⟨.kExpectHeaders, r.addHeader l (l.idxOf 58)⟩,
        left (l ++ crlf ++ rest) (l.length + 2), ok⟩ q := by
  have hcrlf := findCRLF_line (t := rest) hl
  have hline : line (l ++ crlf ++ rest) l.length = l := line_append_crlf
  constructor
  · intro h
    cases h with
    | noLine _ hcrlf' => cases hcrlf.symm.trans hcrlf'
    | reject hstate | requestLine hstate => simp at hstate
    | header _ hcrlf' _ hrest =>
      obtain rfl := Option.some.inj (hcrlf.symm.trans hcrlf')
      simpa only [hline] using hrest
    | last _ hcrlf' hcolon' =>
      obtain rfl := Option.some.inj (hcrlf.symm.trans hcrlf')
      exact absurd (hline.symm ▸ hcolon) hcolon'
  · intro h
    refine .header rfl hcrlf (hline.symm ▸ hcolon) ?_
    simpa only [hline] using h

/-- A line without a colon ends the headers. -/
theorem parses_last_iff {r : HttpRequest} (hl : findCRLF l = none) (hcolon : 58 ∉ l) :
    Parses ⟨⟨.kExpectHeaders, r⟩, l ++ crlf ++ rest, ok⟩ q ↔
      q = ⟨⟨.kGotAll, r⟩, left (l ++ crlf ++ rest) (l.length + 2), ok⟩ := by
  have hlast := Parses.last (p := ⟨⟨.kExpectHeaders, r⟩, l ++ crlf ++ rest, ok⟩) rfl
    (findCRLF_line hl) (line_append_crlf.symm ▸ hcolon)
  exact ⟨fun h => h.det hlast, fun h => h ▸ hlast⟩

/-- Every line and its CRLF. -/
def renderLines (lines : List (List UInt8)) : List UInt8 := lines.flatMap (· ++ crlf)

theorem renderLines_cons (l : List UInt8) (lines : List (List UInt8)) (bytes : List UInt8) :
    renderLines (l :: lines) ++ bytes = l ++ crlf ++ (renderLines lines ++ bytes) := by
  simp [renderLines]

/-- The request after a list of header lines. -/
def addHeaders (r : HttpRequest) (lines : List (List UInt8)) : HttpRequest :=
  lines.foldl (fun r l => r.addHeader l (l.idxOf 58)) r

/-- **A block of short header lines is taken up to its end.** -/
theorem parses_headers {lines : List (List UInt8)} {t : List UInt8}
    (hlines : ∀ l ∈ lines, findCRLF l = none ∧ 58 ∈ l)
    (hshort : ∀ l ∈ lines, (l ++ crlf).length < 2 ^ 31) :
    Parses ⟨⟨.kExpectHeaders, request⟩, renderLines lines ++ (crlf ++ t), ok⟩
      ⟨⟨.kGotAll, addHeaders request lines⟩, t, ok⟩ := by
  induction lines generalizing request with
  | nil =>
    refine (parses_last_iff (l := []) rfl (by simp)).2 ?_
    rw [left_line (by decide)]
    rfl
  | cons l lines ih =>
    rw [List.forall_mem_cons] at hlines hshort
    rw [renderLines_cons, parses_header_iff hlines.1.1 hlines.1.2, left_line hshort.1]
    exact ih hlines.2 hshort.2

end Parses

end HttpContext

end TinyNetwork
