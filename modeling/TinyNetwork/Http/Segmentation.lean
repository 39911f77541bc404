import TinyNetwork.Http.HttpServer

/-!
# Requests cut by reads

A stream of well-formed requests arrives in reads that need not be the requests.  `onMessage` parses
with a fresh context every time, gives at most one request to `httpCallback_`, and takes an
incomplete request line for a wrong one.  What it has parsed of an incomplete request is lost with
its context, and the next call starts in the middle of the headers.

## Main results

* `parses_request`, `parses_cut`, `parses_stalled` : what `onMessage` finds when a request is
  complete, when it is cut, and when a part of it is lost.
* `Progress.step` : a session serves every request with its own read, or goes wrong for good.
* `segmentation_iff` : all requests are served iff there is a read for every request and none comes
  too late.
-/

namespace TinyNetwork

open HttpContext

/-! ### Requests -/

/-- A header line: a name without a space, and a colon. -/
structure HeaderLine (l : List UInt8) : Prop where
  crlf : findCRLF l = none
  colon : 58 ∈ l
  name : 32 ∉ l.take (l.idxOf 58)

/-- A well-formed request without a body. -/
structure WireRequest where
  method : HttpRequest.Method
  target : List UInt8
  version : HttpRequest.Version
  /-- The header lines. -/
  headers : List (List UInt8)
  method_ne : method ≠ .kInvalid
  version_ne : version ≠ .kUnknown
  /-- Neither a space nor a CR. -/
  target_plain : ∀ b ∈ target, b ≠ 32 ∧ b ≠ 13
  headers_wf : ∀ l ∈ headers, HeaderLine l

namespace WireRequest

def requestLine (w : WireRequest) : List UInt8 :=
  HttpRequest.requestLine w.method w.target w.version

/-- The request as bytes. -/
def render (w : WireRequest) : List UInt8 := renderLines (w.requestLine :: w.headers) ++ crlf

/-- The contents of the request. -/
def request (w : WireRequest) : HttpRequest :=
  addHeaders (HttpRequest.new.ofLine w.method w.target w.version) w.headers

/-- Every line and its CRLF fit an `int`. -/
def Short (w : WireRequest) : Prop :=
  ∀ l ∈ w.requestLine :: w.headers, (l ++ crlf).length < 2 ^ 31

variable {w : WireRequest} {b rest t l : List UInt8} {hs : List (List UInt8)}

theorem requestLine_plain (w : WireRequest) : (13 : UInt8) ∉ w.requestLine := by
  simp only [requestLine, HttpRequest.requestLine, List.mem_append, List.mem_cons, not_or]
  exact ⟨fun h => (w.method.string_plain _ h).2.1 rfl, by decide,
    fun h => (w.target_plain _ h).2 rfl, by decide, fun h => w.version.string_plain _ h rfl⟩

theorem processRequestLine (w : WireRequest) : HttpRequest.new.processRequestLine w.requestLine =
    (true, HttpRequest.new.ofLine w.method w.target w.version) :=
  HttpRequest.processRequestLine_requestLine w.method_ne w.version_ne
    fun h => (w.target_plain _ h).1 rfl

theorem render_append (w : WireRequest) (t : List UInt8) :
    w.render ++ t = w.requestLine ++ crlf ++ (renderLines w.headers ++ (crlf ++ t)) := by
  rw [render, List.append_assoc, renderLines_cons]

/-! ### Cutting a line -/

/-- A line that is cut holds no CRLF. -/
theorem findCRLF_of_cut (hl : findCRLF l = none) (h : b ++ rest = l ++ crlf ++ t)
    (hlt : b.length < l.length + 2) : findCRLF b = none := by
  by_contra hne
  obtain ⟨i, hi⟩ := Option.ne_none_iff_exists'.1 hne
  have hfull := findCRLF_append (m := rest) hi
  rw [h, findCRLF_line hl] at hfull
  obtain rfl := Option.some.inj hfull
  have := le_of_findCRLF hi
  omega

/-- A part that is not cut. -/
theorem eq_of_whole {part : List UInt8} (h : b ++ rest = part ++ t) (hle : part.length ≤ b.length) :
    ∃ b', b = part ++ b' ∧ b' ++ rest = t := by
  obtain ⟨b', rfl⟩ := List.prefix_of_prefix_length_le (h ▸ List.prefix_append part t)
    (List.prefix_append b rest) hle
  rw [List.append_assoc] at h
  exact ⟨b', rfl, List.append_cancel_left h⟩

theorem length_lt_of_append {part : List UInt8} (h : (part ++ b).length < (part ++ t).length) :
    b.length < t.length := by
  rw [List.length_append, List.length_append] at h
  omega

/-! ### What a call finds -/

/-- A line that is no request line. -/
structure Rejected (l : List UInt8) : Prop where
  crlf : findCRLF l = none
  line : (HttpRequest.new.processRequestLine l).1 = false

/-- A header line is no request line: a colon is not part of a method. -/
theorem rejected_header (hl : HeaderLine l) : Rejected l := by
  refine ⟨hl.crlf, ?_⟩
  by_cases hspace : l.idxOf 32 = l.length
  · simp [HttpRequest.processRequestLine, hspace]
  have hmethod : HttpRequest.methodOf (l.take (l.idxOf 32)) = .kInvalid := by
    by_contra hne
    have hmem : (32 : UInt8) ∈ l := by
      by_contra hnot
      exact hspace (List.idxOf_eq_length_iff.2 hnot)
    have hle : l.idxOf 58 ≤ l.idxOf 32 :=
      Nat.not_lt.1 fun hlt => hl.name ((List.mem_take_iff_idxOf_lt hmem).2 hlt)
    have hsep : l.idxOf 58 ≠ l.idxOf 32 := fun heq =>
      absurd ((List.idxOf_inj hl.colon).1 heq) (by decide)
    have hcolon := (List.mem_take_iff_idxOf_lt hl.colon).2 (Nat.lt_of_le_of_ne hle hsep)
    rw [← HttpRequest.string_methodOf hne] at hcolon
    exact (HttpRequest.Method.string_plain _ _ hcolon).2.2 rfl
  simp [HttpRequest.processRequestLine, hspace, HttpRequest.setMethod, hmethod]

theorem rejected_nil : Rejected [] := ⟨rfl, rfl⟩

/-- **A whole request is parsed.** -/
theorem parses_request (hshort : w.Short) (t : List UInt8) :
    Parses ⟨new, w.render ++ t, false⟩ ⟨⟨.kGotAll, w.request⟩, t, true⟩ := by
  have hlines := List.forall_mem_cons.1 hshort
  rw [render_append, new, parses_requestLine_iff (findCRLF_of_cr w.requestLine_plain)
    w.processRequestLine, left_line hlines.1]
  exact parses_headers (fun l hl => ⟨(w.headers_wf l hl).crlf, (w.headers_wf l hl).colon⟩) hlines.2

/-- Header lines that are cut are taken up to the last whole one. -/
theorem parses_cut_headers {r : HttpRequest} {ok : Bool} (hwf : ∀ l ∈ hs, HeaderLine l)
    (hshort : ∀ l ∈ hs, (l ++ crlf).length < 2 ^ 31)
    (h : b ++ rest = renderLines hs ++ (crlf ++ t))
    (hlt : b.length < (renderLines hs ++ crlf).length) :
    ∃ q hs', Parses ⟨⟨.kExpectHeaders, r⟩, b, ok⟩ q ∧ q.ok = ok ∧ q.context.state ≠ .kGotAll ∧
      (∀ l ∈ hs', HeaderLine l) ∧ q.bytes ++ rest = renderLines hs' ++ (crlf ++ t) := by
  induction hs generalizing b r with
  | nil =>
    have hnone : findCRLF b = none := findCRLF_of_cut (l := []) rfl h hlt
    exact ⟨_, [], .noLine (.inr rfl) hnone, rfl, by simp, hwf, h⟩
  | cons l hs ih =>
    obtain ⟨hl, hhs⟩ := List.forall_mem_cons.1 hwf
    obtain ⟨hlshort, hhsshort⟩ := List.forall_mem_cons.1 hshort
    have hlen : (l ++ crlf).length = l.length + 2 := List.length_append
    rw [renderLines_cons] at h hlt
    by_cases hcut : b.length < l.length + 2
    · -- the line itself is cut
      have hnone := findCRLF_of_cut hl.crlf h hcut
      refine ⟨_, l :: hs, .noLine (.inr rfl) hnone, rfl, by simp, hwf, ?_⟩
      rw [renderLines_cons]
      exact h
    · obtain ⟨b', rfl, hrest⟩ := eq_of_whole h (hlen.trans_le (Nat.not_lt.1 hcut))
      obtain ⟨q, hs', hparses, hq⟩ := ih hhs hhsshort hrest (length_lt_of_append hlt)
      refine ⟨q, hs', ?_, hq⟩
      rw [parses_header_iff hl.crlf hl.colon, left_line hlshort]
      exact hparses

/-- **A request that is cut.**  Before the end of its request line the parse returns false; behind
it, whole lines are lost. -/
theorem parses_cut (hshort : w.Short) (h : b ++ rest = w.render ++ t)
    (hlt : b.length < w.render.length) :
    ∃ q, Parses ⟨new, b, false⟩ q ∧ (q.ok = true → q.context.state ≠ .kGotAll ∧
      ∃ hs', (∀ l ∈ hs', HeaderLine l) ∧ q.bytes ++ rest = renderLines hs' ++ (crlf ++ t)) := by
  have hlines := List.forall_mem_cons.1 hshort
  have hcrlf := findCRLF_of_cr w.requestLine_plain
  have hlen : (w.requestLine ++ crlf).length = w.requestLine.length + 2 := List.length_append
  rw [render_append] at h
  by_cases hcut : b.length < w.requestLine.length + 2
  · exact ⟨_, .noLine (.inl rfl) (findCRLF_of_cut hcrlf h hcut), by simp⟩
  · obtain ⟨b', rfl, hrest⟩ := eq_of_whole h (hlen.trans_le (Nat.not_lt.1 hcut))
    rw [render, renderLines_cons] at hlt
    obtain ⟨q, hs', hparses, -, hstate, hq⟩ :=
      parses_cut_headers w.headers_wf hlines.2 hrest (length_lt_of_append hlt)
    refine ⟨q, ?_, fun _ => ⟨hstate, hs', hq⟩⟩
    rw [new, parses_requestLine_iff hcrlf w.processRequestLine, left_line hlines.1]
    exact hparses

/-- **A request a part of which is lost.**  The parse returns false. -/
theorem parses_stalled (hwf : ∀ l ∈ hs, HeaderLine l)
    (h : b ++ rest = renderLines hs ++ (crlf ++ t)) :
    ∃ q, Parses ⟨new, b, false⟩ q ∧ q.ok = false := by
  obtain ⟨l, t', hl, h'⟩ : ∃ l t', Rejected l ∧ b ++ rest = l ++ crlf ++ t' := by
    cases hs with
    | nil => exact ⟨[], t, rejected_nil, h⟩
    | cons l hs =>
      rw [renderLines_cons] at h
      exact ⟨l, _, rejected_header (hwf l List.mem_cons_self), h⟩
  have hlen : (l ++ crlf).length = l.length + 2 := List.length_append
  by_cases hcut : b.length < l.length + 2
  · exact ⟨_, .noLine (.inl rfl) (findCRLF_of_cut hl.crlf h' hcut), rfl⟩
  · obtain ⟨b', rfl, -⟩ := eq_of_whole h' (hlen.trans_le (Nat.not_lt.1 hcut))
    refine ⟨_, .reject rfl (findCRLF_line hl.crlf) (Prod.ext ?_ rfl), rfl⟩
    rw [line_append_crlf]
    exact hl.line

/-- Several requests, one after the other. -/
def renderAll (ws : List WireRequest) : List UInt8 := ws.flatMap render

end WireRequest

namespace HttpServer.Session

open WireRequest

/-- Bytes that arrive, or are written. -/
def Delivers : Action → Prop
  | .read _ _ _ _ | .event (.handleWrite _) => True
  | .event _ => False

/-- The bytes an action reads. -/
def readBytes : Action → Option (List UInt8)
  | .read bytes _ _ _ => some bytes
  | .event _ => none

/-- The reads of a run. -/
def reads (tr : List (Session × Action)) : List (List UInt8) := tr.filterMap fun p => readBytes p.2

/-- All requests are served, in order, and none is answered with a 400 response. -/
structure Served (s : Session) (ws : List WireRequest) : Prop where
  returns : s.hung = false
  requests : s.requests.map (·.setReceiveTime 0) = ws.map WireRequest.request
  accepted : s.badRequests = 0

/-- There is a read for every request, and no request is complete later than after its read. -/
structure Covers (ws : List WireRequest) (rs : List (List UInt8)) : Prop where
  count : rs.length = ws.length
  complete : ∀ j ≤ ws.length, (renderAll (ws.take j)).length ≤ (rs.take j).flatten.length

/-- Some request is not complete after its read. -/
def Late (ws : List WireRequest) (rs : List (List UInt8)) : Prop :=
  ∃ j ≤ ws.length, j ≤ rs.length ∧ (rs.take j).flatten.length < (renderAll (ws.take j)).length

/-- How far a session has got, after the reads `rs` and with `rest` to come. -/
inductive Progress (ws : List WireRequest) (rest : List UInt8) (rs : List (List UInt8))
    (s : Session) : Prop
  /-- Every read has had a request served. -/
  | aligned (hle : rs.length ≤ ws.length)
      (hcomplete : ∀ j ≤ rs.length, (renderAll (ws.take j)).length ≤ (rs.take j).flatten.length)
      (hbytes : s.conn.inputBuffer.readable ++ rest = renderAll (ws.drop rs.length))
      (hserved : s.Served (ws.take rs.length)) (hconn : s.conn.state = .kConnected)
  /-- A part of a request is lost. -/
  | stalled {hs : List (List UInt8)} {t : List UInt8} (hlate : Late ws rs)
      (hwf : ∀ l ∈ hs, HeaderLine l)
      (hbytes : s.conn.inputBuffer.readable ++ rest = renderLines hs ++ (crlf ++ t))
      (hfew : s.requests.length < ws.length) (hconn : s.conn.state = .kConnected)
  /-- A 400 response was sent. -/
  | refused (hlate : Late ws rs) (hbad : 0 < s.badRequests)

variable {httpCallback : HttpCallback} {s s' : Session} {a : Action} {ws : List WireRequest}
  {rest r : List UInt8} {rs : List (List UInt8)} {t : ℤ} {w w' : WriteResult}

theorem Late.append (h : Late ws rs) (r : List UInt8) : Late ws (rs ++ [r]) := by
  obtain ⟨j, hj, hle, hlt⟩ := h
  refine ⟨j, hj, by rw [List.length_append]; omega, ?_⟩
  rwa [List.take_append_of_le_length hle]

theorem Late.not_covers (h : Late ws rs) : ¬ Covers ws rs := by
  obtain ⟨j, hj, -, hlt⟩ := h
  intro hcovers
  have := hcovers.complete j hj
  omega

/-- **At the end of the stream.**  All requests are served iff the reads cover them. -/
theorem Progress.served_iff (h : Progress ws [] rs s) : s.Served ws ↔ Covers ws rs := by
  cases h with
  | aligned hle hcomplete hbytes hserved hconn =>
    constructor
    · intro hall
      have hlen := congrArg List.length (hserved.requests.symm.trans hall.requests)
      simp only [List.length_map, List.length_take] at hlen
      have hcount : rs.length = ws.length := by omega
      exact ⟨hcount, hcount ▸ hcomplete⟩
    · intro hcovers
      rwa [hcovers.count, List.take_length] at hserved
  | stalled hlate _ _ hfew _ =>
    refine ⟨fun hall => ?_, fun hcovers => absurd hcovers hlate.not_covers⟩
    have hlen := congrArg List.length hall.requests
    simp only [List.length_map] at hlen
    omega
  | refused hlate hbad =>
    refine ⟨fun hall => ?_, fun hcovers => absurd hcovers hlate.not_covers⟩
    rw [hall.accepted] at hbad
    exact absurd hbad (Nat.lt_irrefl 0)

theorem renderAll_take_drop (ws : List WireRequest) (n : ℕ) :
    (renderAll ws).length = (renderAll (ws.take n)).length + (renderAll (ws.drop n)).length := by
  rw [← List.length_append, renderAll, renderAll, renderAll, ← List.flatMap_append,
    List.take_append_drop]

/-- A request is served with its own read. -/
theorem Served.snoc {n : ℕ} {q : Scan} {d : Handled} {x : WireRequest}
    (hserved : s.Served (ws.take n)) (hx : ws[n]? = some x)
    (hd : Reaction httpCallback s.conn q d) (hq : q.context = ⟨.kGotAll, x.request⟩)
    (hok : q.ok = true) : (s.after d).Served (ws.take (n + 1)) := by
  have hrequest := hd.request
  rw [hq, if_pos rfl] at hrequest
  obtain ⟨req, hreq, hcontents⟩ := Option.map_eq_some_iff.1 hrequest
  have hbad : d.badRequest = false := by rw [hd.badRequest, hok]; rfl
  refine ⟨hserved.returns, ?_, ?_⟩
  · rw [List.take_add_one, hx, List.map_append, ← hserved.requests]
    simp [after, hreq, hcontents]
  · simp [after, hbad, hserved.accepted]

/-- The next request is complete after its read iff the unread bytes are as long. -/
theorem complete_iff {n : ℕ} {D b : List UInt8} {x : WireRequest} {xs : List WireRequest}
    (hdrop : ws.drop n = x :: xs) (hstream : D ++ rest = renderAll ws)
    (hbytes : b ++ rest = x.render ++ renderAll xs) :
    (renderAll (ws.take (n + 1))).length ≤ D.length ↔ x.render.length ≤ b.length := by
  have htail : ws.drop (n + 1) = xs := by rw [← List.tail_drop, hdrop]; rfl
  have htotal := renderAll_take_drop ws (n + 1)
  have hD := congrArg List.length hstream
  have hb := congrArg List.length hbytes
  rw [htail] at htotal
  simp only [List.length_append] at hD hb
  omega

/-- The next request and what follows it. -/
structure Next (ws : List WireRequest) (n : ℕ) (x : WireRequest) (xs : List WireRequest) :
    Prop where
  get : ws[n]? = some x
  drop : ws.drop n = x :: xs
  drop_succ : ws.drop (n + 1) = xs
  lt : n < ws.length

theorem exists_next {n : ℕ} (h : ws.drop n ≠ []) : ∃ x xs, Next ws n x xs := by
  obtain ⟨x, xs, hdrop⟩ := List.exists_cons_of_ne_nil h
  have hx : ws[n]? = some x := by rw [← List.head?_drop, hdrop]; rfl
  refine ⟨x, xs, hx, hdrop, ?_, (List.getElem?_eq_some_iff.1 hx).1⟩
  rw [← List.tail_drop, hdrop]
  rfl

/-- A read that completes the next request has it served. -/
theorem Progress.read_whole {x : WireRequest} {xs : List WireRequest} {d : Handled} {q : Scan}
    (hnext : Next ws rs.length x xs)
    (hcomplete : ∀ j ≤ rs.length, (renderAll (ws.take j)).length ≤ (rs.take j).flatten.length)
    (hnew : (renderAll (ws.take (rs.length + 1))).length ≤ (rs.flatten ++ r).length)
    (hserved : s.Served (ws.take rs.length)) (hd : Reaction httpCallback s.conn q d)
    (hq : q.context = ⟨.kGotAll, x.request⟩) (hok : q.ok = true)
    (hrest : q.bytes ++ rest = renderAll xs) (hconn : d.conn.state = .kConnected) :
    Progress ws rest (rs ++ [r]) (s.after d) := by
  have hlen : (rs ++ [r]).length = rs.length + 1 := by simp
  refine .aligned (hlen ▸ hnext.lt) (fun j hj => ?_) ?_ ?_ hconn
  · rcases Nat.lt_or_ge rs.length j with hj' | hj'
    · obtain rfl : j = rs.length + 1 := by omega
      rwa [List.take_of_length_le (Nat.le_of_eq hlen), List.flatten_append,
        List.flatten_singleton]
    · rw [List.take_append_of_le_length hj']
      exact hcomplete j hj'
  · rw [show (s.after d).conn = d.conn from rfl, hd.readable, hlen, hnext.drop_succ]
    exact hrest
  · rw [hlen]
    exact hserved.snoc hnext.get hd hq hok

/-- A read that leaves the next request incomplete has a 400 response sent, or stalls. -/
theorem Progress.read_cut {d : Handled} {q : Scan} {tail : List UInt8}
    (hlate : Late ws (rs ++ [r])) (hfew : s.requests.length < ws.length)
    (hconn : s.conn.state = .kConnected)
    (hopen : ∀ req resp, (httpCallback req resp).closeConnection = false)
    (hd : Reaction httpCallback s.conn q d)
    (hcut : q.ok = true → q.context.state ≠ .kGotAll ∧ ∃ hs', (∀ l ∈ hs', HeaderLine l) ∧
      q.bytes ++ rest = renderLines hs' ++ (crlf ++ tail)) :
    Progress ws rest (rs ++ [r]) (s.after d) := by
  cases hok : q.ok with
  | false =>
    have hbad : d.badRequest = true := by rw [hd.badRequest, hok, hconn]; rfl
    exact .refused hlate (by simp [after, hbad])
  | true =>
    obtain ⟨hstate, hs', hheaders, hleft⟩ := hcut hok
    have hnone : d.request = none := by
      have := hd.request
      rwa [if_neg hstate, Option.map_eq_none_iff] at this
    refine .stalled hlate hheaders (hd.readable ▸ hleft) ?_ ((hd.connected hok hopen).trans hconn)
    simpa only [after, hnone, Option.toList_none, List.append_nil] using hfew

/-- **A read serves the next request, or goes wrong for good.** -/
theorem Progress.read (hopen : ∀ req resp, (httpCallback req resp).closeConnection = false)
    (hshort : ∀ x ∈ ws, x.Short) (hwf : s.conn.inputBuffer.Wf)
    (hstream : rs.flatten ++ (r ++ rest) = renderAll ws) (hI : Progress ws (r ++ rest) rs s)
    (hst : (lts httpCallback).step s (.read r t w w') s') : Progress ws rest (rs ++ [r]) s' := by
  have hne : r ≠ [] := hst.2.1
  have hcases := read_cases hwf hst
  cases hI with
  | refused hlate hbad =>
    rcases hcases with ⟨q, d, -, -, rfl⟩ | ⟨inputBuffer, -, rfl, -⟩
    · exact .refused (hlate.append r) (Nat.add_pos_left hbad _)
    · exact .refused (hlate.append r) hbad
  | stalled hlate hheaders hbytes hfew hconn =>
    rw [← List.append_assoc] at hbytes
    -- what is left of the request does not begin with a request line
    obtain ⟨q, hparses, hok⟩ := parses_stalled hheaders hbytes
    rcases hcases with ⟨q', d, hparses', hd, rfl⟩ | ⟨inputBuffer, -, rfl, hnone⟩
    · obtain rfl := hparses.det hparses'
      have hbad : d.badRequest = true := by rw [hd.badRequest, hok, hconn]; rfl
      exact .refused (hlate.append r) (by simp [after, hbad])
    · exact absurd ⟨q, hparses⟩ hnone
  | aligned hle hcomplete hbytes hserved hconn =>
    have hdrop : ws.drop rs.length ≠ [] := by
      intro hnil
      have hempty : s.conn.inputBuffer.readable ++ (r ++ rest) = [] := by rw [hbytes, hnil]; rfl
      exact hne (List.append_eq_nil_iff.1 (List.append_eq_nil_iff.1 hempty).2).1
    obtain ⟨x, xs, hnext⟩ := exists_next hdrop
    have hxshort : x.Short := hshort x (List.mem_of_getElem? hnext.get)
    rw [hnext.drop, ← List.append_assoc] at hbytes
    rw [← List.append_assoc] at hstream
    have hiff := complete_iff hnext.drop hstream hbytes
    by_cases hwhole : x.render.length ≤ (s.conn.inputBuffer.readable ++ r).length
    · -- the read completes the next request
      obtain ⟨t', hb, hrest⟩ := eq_of_whole hbytes hwhole
      have hparses := parses_request hxshort t'
      rw [← hb] at hparses
      rcases hcases with ⟨q, d, hparses', hd, rfl⟩ | ⟨inputBuffer, -, rfl, hnone⟩
      · obtain rfl := hparses.det hparses'
        exact .read_whole hnext hcomplete (hiff.2 hwhole) hserved hd rfl rfl hrest
          ((hd.connected rfl hopen).trans hconn)
      · exact absurd ⟨_, hparses⟩ hnone
    · -- the read ends inside the next request
      obtain ⟨q, hparses, hcut⟩ := parses_cut hxshort hbytes (Nat.not_le.1 hwhole)
      have hlate : Late ws (rs ++ [r]) := by
        refine ⟨rs.length + 1, hnext.lt, by simp, ?_⟩
        rw [List.take_of_length_le (by simp), List.flatten_append, List.flatten_singleton]
        exact Nat.not_le.1 (hiff.not.2 hwhole)
      have hfew : s.requests.length < ws.length := by
        have hlen := congrArg List.length hserved.requests
        have hlt := hnext.lt
        simp only [List.length_map, List.length_take] at hlen
        omega
      rcases hcases with ⟨q', d, hparses', hd, rfl⟩ | ⟨inputBuffer, -, rfl, hnone⟩
      · obtain rfl := hparses.det hparses'
        exact .read_cut hlate hfew hconn hopen hd hcut
      · exact absurd ⟨q, hparses⟩ hnone

/-- A write leaves the progress alone. -/
theorem Progress.write {e : TcpConnection.Event} (he : Delivers (.event e))
    (hI : Progress ws rest rs s)
    (hst : (lts httpCallback).step s (.event e) s') : Progress ws rest rs s' := by
  obtain ⟨-, -, -, conn, es, hok, rfl⟩ := hst
  cases e with
  | handleWrite w =>
    obtain rfl : (s.conn.handleWrite w).1 = conn := congrArg Prod.fst (Except.ok.inj hok)
    obtain ⟨hbuf, hstate⟩ := handleWrite_frame s.conn w
    cases hI with
    | aligned hle hcomplete hbytes hserved hconn =>
      exact .aligned hle hcomplete (hbuf ▸ hbytes) ⟨hserved.returns, hserved.requests,
        hserved.accepted⟩ (hstate.trans hconn)
    | stalled hlate hheaders hbytes hfew hconn =>
      exact .stalled hlate hheaders (hbuf ▸ hbytes) hfew (hstate.trans hconn)
    | refused hlate hbad => exact .refused hlate hbad
  | send | sendBuffer | sendInLoop | shutdown | setDisconnecting | shutdownInLoop | handleRead
  | handleClose | connectDestroyed => exact he.elim

/-! ### Runs -/

variable {tr : List (Session × Action)} {wc hw : Bool} {mark : ℕ}

theorem progress_start (h : rest = renderAll ws) : Progress ws rest [] (start wc hw mark) := by
  refine .aligned (Nat.zero_le _) ?_ h ⟨rfl, rfl, rfl⟩ rfl
  intro j hj
  rw [Nat.le_zero.1 hj]
  exact Nat.le_refl _

/-- **All along a stream** a session serves every request with its own read, or has gone wrong. -/
theorem progress_run (hopen : ∀ req resp, (httpCallback req resp).closeConnection = false)
    (hshort : ∀ x ∈ ws, x.Short) (h : (lts httpCallback).Run (start wc hw mark) tr s)
    (hdelivers : ∀ p ∈ tr, Delivers p.2) (hstream : (reads tr).flatten ++ rest = renderAll ws) :
    s.conn.inputBuffer.Wf ∧ Progress ws rest (reads tr) s := by
  induction h generalizing rest with
  | nil => exact ⟨Buffer.wf_empty, progress_start hstream⟩
  | @snoc tr s s' a hrun hst ih =>
    have hpre (p : Session × Action) (hp : p ∈ tr) : Delivers p.2 :=
      hdelivers p (List.mem_append_left _ hp)
    have hreads : reads (tr ++ [(s, a)]) = reads tr ++ (readBytes a).toList := by
      cases a <;> simp [reads, readBytes]
    rw [hreads] at hstream ⊢
    cases a with
    | read r t w w' =>
      have hstream' : (reads tr).flatten ++ (r ++ rest) = renderAll ws := by
        simpa [readBytes] using hstream
      obtain ⟨hwf, hI⟩ := ih hpre hstream'
      exact ⟨wf_step hwf hst, hI.read hopen hshort hwf hstream' hst⟩
    | event e =>
      have hstream' : (reads tr).flatten ++ rest = renderAll ws := by
        simpa [readBytes] using hstream
      obtain ⟨hwf, hI⟩ := ih hpre hstream'
      rw [show (readBytes (.event e)).toList = [] from rfl, List.append_nil]
      exact ⟨wf_step hwf hst, hI.write (hdelivers _ List.mem_concat_self) hst⟩

/-- **When dispatch does not depend on the reads.**  A stream of well-formed requests, whose lines
are shorter than `2 ^ 31` bytes, arrives with a callback that keeps the connection open.  Every call
of `onMessage` returns, all requests are given to the callback, once and in order, and no 400
response is sent, iff there are as many reads as requests and every request is complete after its
read. -/
theorem segmentation_iff (hopen : ∀ req resp, (httpCallback req resp).closeConnection = false)
    (hshort : ∀ x ∈ ws, x.Short) (h : (lts httpCallback).Run (start wc hw mark) tr s)
    (hdelivers : ∀ p ∈ tr, Delivers p.2) (hstream : (reads tr).flatten = renderAll ws) :
    s.Served ws ↔ Covers ws (reads tr) :=
  (progress_run hopen hshort h hdelivers ((List.append_nil _).trans hstream)).2.served_iff

/-- `GET / HTTP/1.1` with a header. -/
def getRequest : WireRequest where
  method := .kGet
  target := [47]
  version := .kHttp11
  headers := [ascii "Host: x"]
  method_ne := HttpRequest.Method.kGet_ne
  version_ne := HttpRequest.Version.kHttp11_ne
  target_plain := by decide +kernel
  headers_wf := by
    intro l hl
    obtain rfl := List.mem_singleton.1 hl
    exact ⟨by decide +kernel, by decide +kernel, by decide +kernel⟩

/-- The same for another target. -/
def getOther : WireRequest :=
  { getRequest with target := [47, 97], target_plain := by decide +kernel }

/-- A callback that keeps the connection open. -/
def keepAlive : HttpCallback := fun _ resp => (resp.setStatusCode .k200Ok).setCloseConnection false

theorem reads_eq {actions : List Action} (h : tr.map Prod.snd = actions) :
    reads tr = actions.filterMap readBytes := by
  rw [← h, List.filterMap_map]
  rfl

/-- Two requests, in a read that goes on into the second one and a read of what is left of it. -/
theorem segmentation_iff_whole : ∃ tr s, (lts keepAlive).Run (start false false 0) tr s ∧
    reads tr = [getRequest.render ++ getOther.render.take 9, getOther.render.drop 9] ∧
    s.Served [getRequest, getOther] := by
  have hplay : ([.read (getRequest.render ++ getOther.render.take 9) 0 (.accepted 0) (.accepted 7),
      .event (.handleWrite (.accepted 3)),
      .read (getOther.render.drop 9) 0 (.accepted 0) (.accepted 0)].foldlM
      (perform keepAlive 10) (start false false 0)).isSome := by
    decide +kernel
  obtain ⟨s, hplay⟩ := Option.isSome_iff_exists.1 hplay
  obtain ⟨tr, hrun, htr⟩ := run_of_perform hplay
  have hreads : reads tr = [getRequest.render ++ getOther.render.take 9, getOther.render.drop 9] :=
    reads_eq htr
  have hshort : ∀ x ∈ [getRequest, getOther], x.Short := by
    unfold WireRequest.Short
    decide +kernel
  refine ⟨tr, s, hrun, hreads, (segmentation_iff (fun _ _ => rfl) hshort hrun
    (fun p hp => ?_) (by rw [hreads]; decide +kernel)).2 ?_⟩
  · have hmem := List.mem_map_of_mem (f := Prod.snd) hp
    rw [htr] at hmem
    simp only [List.mem_cons, List.not_mem_nil, or_false] at hmem
    rcases hmem with heq | heq | heq <;> rw [heq] <;> trivial
  · rw [hreads]
    exact ⟨rfl, by decide +kernel⟩

/-- The same request in two reads is answered with a 400 response. -/
theorem not_served_cut : ∃ tr s, (lts keepAlive).Run (start false false 0) tr s ∧
    reads tr = [getRequest.render.take 2, getRequest.render.drop 2] ∧ ¬ s.Served [getRequest] := by
  have hplay : ([.read (getRequest.render.take 2) 0 (.accepted 28) (.accepted 0),
      .read (getRequest.render.drop 2) 0 (.accepted 0) (.accepted 0)].foldlM
      (perform keepAlive 10) (start false false 0)).map (·.badRequests) = some 1 := by
    decide +kernel
  obtain ⟨s, hplay, hbad⟩ := Option.map_eq_some_iff.1 hplay
  obtain ⟨tr, hrun, htr⟩ := run_of_perform hplay
  refine ⟨tr, s, hrun, reads_eq htr, fun hserved => ?_⟩
  rw [hserved.accepted] at hbad
  cases hbad

end HttpServer.Session

end TinyNetwork
