import TinyNetwork.Base.Crlf

/-!
# `HttpRequest`

The contents of a request, and the functions by which the parser fills them in.  A pointer into a
line is its offset from the start of the line, and `std::find` is `List.idxOf`, which is the length
of the line when the byte is not there.

## Main results

* `processRequestLine_again` : a request line that is parsed again, into the request it has already
  been parsed into, changes nothing.
-/

namespace TinyNetwork

/-- `isspace` in the C locale. -/
def isspace (b : UInt8) : Bool := b = 32 || (9 ≤ b && b ≤ 13)

/-- `enum Method`. -/
inductive HttpRequest.Method where
  | kInvalid | kGet | kPost | kHead | kPut | kDelete
  deriving DecidableEq, Repr

/-- `enum Version`. -/
inductive HttpRequest.Version where
  | kUnknown | kHttp10 | kHttp11
  deriving DecidableEq, Repr

/-- `class HttpRequest`. -/
structure HttpRequest where
  method : HttpRequest.Method
  version : HttpRequest.Version
  path : List UInt8
  query : List UInt8
  /-- Microseconds since the epoch. -/
  receiveTime : ℤ
  /-- The `unordered_map` of the headers. -/
  headers : List UInt8 → Option (List UInt8)

namespace HttpRequest

/-- `HttpRequest()`. -/
def new : HttpRequest where
  method := .kInvalid
  version := .kUnknown
  path := []
  query := []
  receiveTime := 0
  headers := fun _ => none

def setVersion (r : HttpRequest) (version : Version) : HttpRequest := { r with version }

/-- The method a string names. -/
def methodOf (m : List UInt8) : Method :=
  if m = ascii "GET" then .kGet
  else if m = ascii "POST" then .kPost
  else if m = ascii "HEAD" then .kHead
  else if m = ascii "PUT" then .kPut
  else if m = ascii "DELETE" then .kDelete
  else .kInvalid

/-- `setMethod(start, end)`: whether the method is valid, and the request. -/
def setMethod (r : HttpRequest) (m : List UInt8) : Bool × HttpRequest :=
  (methodOf m ≠ .kInvalid, { r with method := methodOf m })

/-- The name of a method. -/
def Method.string : Method → List UInt8
  | .kGet => ascii "GET"
  | .kPost => ascii "POST"
  | .kHead => ascii "HEAD"
  | .kPut => ascii "PUT"
  | .kDelete => ascii "DELETE"
  | .kInvalid => ascii "UNKNOWN"

/-- `methodString()`. -/
def methodString (r : HttpRequest) : List UInt8 := r.method.string

/-- A version as it is written. -/
def Version.string : Version → List UInt8
  | .kHttp10 => ascii "HTTP/1.0"
  | .kHttp11 => ascii "HTTP/1.1"
  | .kUnknown => []

theorem Method.kGet_ne : Method.kGet ≠ .kInvalid := by decide

theorem Version.kHttp11_ne : Version.kHttp11 ≠ .kUnknown := by decide

theorem methodOf_string (m : Method) : methodOf m.string = m := by
  cases m <;> rfl

theorem string_methodOf {m : List UInt8} (h : methodOf m ≠ .kInvalid) :
    (methodOf m).string = m := by
  unfold methodOf at h ⊢
  split_ifs at h ⊢ <;> first | exact Eq.symm ‹_› | exact absurd rfl h

def setPath (r : HttpRequest) (path : List UInt8) : HttpRequest := { r with path }

def setQuery (r : HttpRequest) (query : List UInt8) : HttpRequest := { r with query }

def setReceiveTime (r : HttpRequest) (t : ℤ) : HttpRequest := { r with receiveTime := t }

/-- The value of a header without the spaces around it. -/
def trim (value : List UInt8) : List UInt8 :=
  ((value.dropWhile isspace).reverse.dropWhile isspace).reverse

/-- `addHeader(start, colon, end)`, for a line with a colon at offset `colon`. -/
def addHeader (r : HttpRequest) (line : List UInt8) (colon : ℕ) : HttpRequest :=
  { r with headers := Function.update r.headers (line.take colon) (trim (line.drop (colon + 1))) }

/-- `getHeader(field)`. -/
def getHeader (r : HttpRequest) (field : List UInt8) : List UInt8 := (r.headers field).getD []

/-- `HttpContext::processRequestLine(begin, end)` on its `request_`: whether it succeeds, and the
request. -/
def processRequestLine (r : HttpRequest) (line : List UInt8) : Bool × HttpRequest :=
  let space := line.idxOf 32
  if space = line.length then (false, r)
  else
    let (valid, r) := r.setMethod (line.take space)
    if valid = false then (false, r)
    else
      let rest := line.drop (space + 1)
      let space := rest.idxOf 32
      if space = rest.length then (false, r)
      else
        let target := rest.take space
        let question := target.idxOf 63
        let r := if question ≠ target.length then
            (r.setPath (target.take question)).setQuery (target.drop question)
          else r.setPath target
        let version := rest.drop (space + 1)
        if version.length = 8 ∧ version.take 7 = ascii "HTTP/1." then
          if version[7]? = some 49 then (true, r.setVersion .kHttp11)
          else if version[7]? = some 48 then (true, r.setVersion .kHttp10)
          else (false, r)
        else (false, r)

variable {r : HttpRequest} {l : List UInt8}

/-- **A request line that is parsed again changes nothing.** -/
theorem processRequestLine_again :
    (r.processRequestLine l).2.processRequestLine l = r.processRequestLine l := by
  by_cases hspace : l.idxOf 32 = l.length
  · simp [processRequestLine, hspace]
  by_cases hmethod : methodOf (l.take (l.idxOf 32)) = .kInvalid
  · simp [processRequestLine, hspace, setMethod, hmethod]
  simp only [processRequestLine, hspace, setMethod, hmethod, if_false, ne_eq, not_false_eq_true,
    decide_true, Bool.true_eq_false, setPath, setQuery, setVersion]
  split_ifs <;> rfl

/-- The receive time is not looked at. -/
theorem processRequestLine_setReceiveTime (t : ℤ) :
    (r.setReceiveTime t).processRequestLine l =
      ((r.processRequestLine l).1, (r.processRequestLine l).2.setReceiveTime t) := by
  by_cases hspace : l.idxOf 32 = l.length
  · simp [processRequestLine, hspace]
  by_cases hmethod : methodOf (l.take (l.idxOf 32)) = .kInvalid
  · simp [processRequestLine, hspace, setMethod, hmethod, setReceiveTime]
  simp only [processRequestLine, hspace, setMethod, hmethod, if_false, ne_eq, not_false_eq_true,
    decide_true, Bool.true_eq_false, setPath, setQuery, setVersion, setReceiveTime]
  split_ifs <;> rfl

/-! ### A request line -/

section Line

variable {b : UInt8} {l rest target : List UInt8} {m : Method} {v : Version}

theorem idxOf_append_cons (h : b ∉ l) : (l ++ b :: rest).idxOf b = l.length := by
  rw [List.idxOf_append_of_notMem h, List.idxOf_cons_self, Nat.add_zero]

theorem drop_append_cons : (l ++ b :: rest).drop (l.length + 1) = rest := by
  rw [List.drop_append, List.drop_of_length_le (Nat.le_succ _)]
  simp

theorem Method.string_plain (m : Method) : ∀ b ∈ m.string, b ≠ 32 ∧ b ≠ 13 ∧ b ≠ 58 := by
  cases m <;> decide +kernel

theorem Version.string_plain (v : Version) : ∀ b ∈ v.string, b ≠ 13 := by
  cases v <;> decide +kernel

/-- `METHOD target HTTP/1.x`. -/
def requestLine (m : Method) (target : List UInt8) (v : Version) : List UInt8 :=
  m.string ++ 32 :: (target ++ 32 :: v.string)

/-- The request with the contents of a request line: the target is cut at its first `?`. -/
def ofLine (r : HttpRequest) (m : Method) (target : List UInt8) (v : Version) : HttpRequest :=
  { r with
    method := m
    version := v
    path := target.take (target.idxOf 63)
    query := if 63 ∈ target then target.drop (target.idxOf 63) else r.query }

/-- **A request line decodes.** -/
theorem processRequestLine_requestLine (hm : m ≠ .kInvalid) (hv : v ≠ .kUnknown)
    (htarget : 32 ∉ target) :
    r.processRequestLine (requestLine m target v) = (true, r.ofLine m target v) := by
  have hmethod : (32 : UInt8) ∉ m.string := fun h => (m.string_plain _ h).1 rfl
  have hne {l rest : List UInt8} : l.length ≠ (l ++ 32 :: rest).length := by simp
  unfold processRequestLine requestLine setMethod
  simp only [idxOf_append_cons hmethod, idxOf_append_cons htarget, drop_append_cons,
    List.take_left, hne, if_false, methodOf_string, hm, ne_eq, not_false_eq_true, decide_true,
    Bool.true_eq_false]
  have hset (r : HttpRequest) : (if ¬ target.idxOf 63 = target.length then
        (r.setPath (target.take (target.idxOf 63))).setQuery (target.drop (target.idxOf 63))
      else r.setPath target) = { r with
        path := target.take (target.idxOf 63)
        query := if 63 ∈ target then target.drop (target.idxOf 63) else r.query } := by
    by_cases hquestion : 63 ∈ target
    · have hlt := List.idxOf_lt_length_iff.2 hquestion
      rw [if_pos (Nat.ne_of_lt hlt), if_pos hquestion]
      rfl
    · have hlen := List.idxOf_eq_length_iff.2 hquestion
      rw [if_neg (not_not.2 hlen), if_neg hquestion, hlen, List.take_length]
      rfl
  rw [hset]
  cases v with
  | kUnknown => exact absurd rfl hv
  | kHttp10 | kHttp11 => rfl

end Line

end HttpRequest

end TinyNetwork
