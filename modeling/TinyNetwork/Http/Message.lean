import TinyNetwork.Http.HttpContext

/-!
# The format of a request

A `Message` is the contents of a request as they go over the wire: a method and a version the parser
knows, a target without a space, and headers whose names and values leave the delimiters alone.
`Message.render` writes it down; parsing what is written gives the contents back.

## Main results

* `Message.processRequestLine` : the request line decodes.
* `Message.parses` : a rendered message is parsed up to its end, if its lines are short.
* `Message.decode_iff` : it is parsed so exactly if every line is shorter than `2 ^ 31` bytes.
-/

namespace TinyNetwork

open Lp64 HttpContext

/-- A value without a space in front or at the end. -/
def Trimmed (value : List UInt8) : Prop :=
  (∀ b ∈ value.head?, isspace b = false) ∧ ∀ b ∈ value.getLast?, isspace b = false

/-- The contents of a request on the wire. -/
structure Message where
  method : HttpRequest.Method
  version : HttpRequest.Version
  path : List UInt8
  query : List UInt8
  headers : List (List UInt8 × List UInt8)
  method_ne : method ≠ .kInvalid
  version_ne : version ≠ .kUnknown
  /-- Neither a space, a CR, an LF nor a `?`. -/
  path_plain : ∀ b ∈ path, b ≠ 32 ∧ b ≠ 13 ∧ b ≠ 10 ∧ b ≠ 63
  query_head : ∀ b ∈ query.head?, b = 63
  query_plain : ∀ b ∈ query, b ≠ 32 ∧ b ≠ 13 ∧ b ≠ 10
  /-- Neither a colon, a CR nor an LF. -/
  field_plain : ∀ h ∈ headers, ∀ b ∈ h.1, b ≠ 58 ∧ b ≠ 13 ∧ b ≠ 10
  value_plain : ∀ h ∈ headers, ∀ b ∈ h.2, b ≠ 13 ∧ b ≠ 10
  value_trimmed : ∀ h ∈ headers, Trimmed h.2
  fields_nodup : (headers.map Prod.fst).Nodup

namespace Message

/-- `METHOD path[query] HTTP/1.x`. -/
def requestLine (m : Message) : List UInt8 :=
  HttpRequest.requestLine m.method (m.path ++ m.query) m.version

/-- `field: value`. -/
def headerLine (h : List UInt8 × List UInt8) : List UInt8 := h.1 ++ 58 :: 32 :: h.2

/-- The message as bytes. -/
def render (m : Message) : List UInt8 :=
  renderLines (m.requestLine :: m.headers.map headerLine) ++ crlf

/-- The request with the contents of a message. -/
def request (m : Message) : HttpRequest where
  method := m.method
  version := m.version
  path := m.path
  query := m.query
  receiveTime := 0
  headers := fun field => m.headers.lookup field

/-! ### The request line -/

theorem target_plain (m : Message) : (32 : UInt8) ∉ m.path ++ m.query := by
  intro h
  rcases List.mem_append.1 h with h | h
  · exact (m.path_plain _ h).1 rfl
  · exact (m.query_plain _ h).1 rfl

/-- The target is cut between the path and the query. -/
theorem cut_target (m : Message) :
    (m.path ++ m.query).idxOf 63 = m.path.length ∧ (63 ∉ m.path ++ m.query → m.query = []) := by
  have hpath : (63 : UInt8) ∉ m.path := fun h => (m.path_plain _ h).2.2.2 rfl
  cases hquery : m.query with
  | nil =>
    rw [List.append_nil]
    exact ⟨List.idxOf_eq_length_iff.2 hpath, fun _ => rfl⟩
  | cons b query =>
    obtain rfl : b = 63 := m.query_head b (by simp [hquery])
    exact ⟨HttpRequest.idxOf_append_cons hpath, fun h => absurd (by simp) h⟩

/-- **The request line decodes.** -/
theorem processRequestLine (m : Message) : HttpRequest.new.processRequestLine m.requestLine =
    (true, { m.request with headers := fun _ => none }) := by
  obtain ⟨hidx, hnone⟩ := m.cut_target
  rw [requestLine, HttpRequest.processRequestLine_requestLine m.method_ne m.version_ne
    m.target_plain]
  refine congrArg (Prod.mk true) ?_
  rw [HttpRequest.ofLine, hidx, List.take_left, List.drop_left]
  by_cases hquestion : 63 ∈ m.path ++ m.query
  · rw [if_pos hquestion]
    rfl
  · rw [if_neg hquestion, request, hnone hquestion]
    rfl

/-- Trimming takes away the space after the colon, and nothing else. -/
theorem trim_cons {value : List UInt8} (h : Trimmed value) :
    HttpRequest.trim (32 :: value) = value := by
  have hfront : (32 :: value : List UInt8).dropWhile isspace = value := by
    rw [List.dropWhile_cons_of_pos (by decide)]
    cases value with
    | nil => rfl
    | cons b value => exact List.dropWhile_cons_of_neg (by simp [h.1 b rfl])
  have hback : value.reverse.dropWhile isspace = value.reverse := by
    cases hrev : value.reverse with
    | nil => rfl
    | cons b rest =>
      have hlast : value.getLast? = some b := by
        rw [List.getLast?_eq_head?_reverse, hrev]
        rfl
      exact List.dropWhile_cons_of_neg (by simp [h.2 b hlast])
  rw [HttpRequest.trim, hfront, hback, List.reverse_reverse]

/-! ### The headers -/

section Parses

variable {m : Message} {h : List UInt8 × List UInt8} {hs : List (List UInt8 × List UInt8)}
  {t rest : List UInt8} {request : HttpRequest} {ok : Bool} {q : Scan}

theorem requestLine_plain (m : Message) : (13 : UInt8) ∉ m.requestLine := by
  simp only [requestLine, HttpRequest.requestLine, List.mem_append, List.mem_cons, not_or]
  exact ⟨fun h => (m.method.string_plain _ h).2.1 rfl, by decide,
    ⟨fun h => (m.path_plain _ h).2.1 rfl, fun h => (m.query_plain _ h).2.1 rfl⟩, by decide,
    fun h => m.version.string_plain _ h rfl⟩

theorem headerLine_plain (hmem : h ∈ m.headers) : (13 : UInt8) ∉ headerLine h := by
  simp only [headerLine, List.mem_append, List.mem_cons, not_or]
  exact ⟨fun hb => (m.field_plain h hmem _ hb).2.1 rfl, by decide, by decide,
    fun hb => (m.value_plain h hmem _ hb).1 rfl⟩

/-- A header line decodes. -/
theorem addHeader_headerLine (hmem : h ∈ m.headers) (request : HttpRequest) :
    request.addHeader (headerLine h) ((headerLine h).idxOf 58) =
      { request with headers := Function.update request.headers h.1 (some h.2) } := by
  have hfield : (58 : UInt8) ∉ h.1 := fun hb => (m.field_plain h hmem _ hb).1 rfl
  rw [headerLine, HttpRequest.idxOf_append_cons hfield, HttpRequest.addHeader,
    HttpRequest.drop_append_cons, List.take_left, trim_cons (m.value_trimmed h hmem)]

/-- With distinct names, every header of the list is found. -/
theorem addHeaders_headerLine (hsub : hs ⊆ m.headers) (hnodup : (hs.map Prod.fst).Nodup) :
    addHeaders request (hs.map headerLine) =
      { request with headers := fun field => (hs.lookup field).or (request.headers field) } := by
  induction hs generalizing request with
  | nil => rfl
  | cons h hs ih =>
    rw [List.map_cons, List.nodup_cons] at hnodup
    rw [List.map_cons, addHeaders, List.foldl_cons, addHeader_headerLine (hsub List.mem_cons_self),
      ← addHeaders, ih (fun _ h => hsub (List.mem_cons_of_mem _ h)) hnodup.2]
    refine congrArg (fun headers => { request with headers }) (funext fun field => ?_)
    rw [List.lookup_cons]
    by_cases hfield : field = h.1
    · subst hfield
      have hnone : hs.lookup h.1 = none := by
        rw [List.lookup_eq_none_iff]
        intro h' hmem'
        have : h'.1 ≠ h.1 := fun heq => hnodup.1 (List.mem_map.2 ⟨h', hmem', heq⟩)
        simpa using Ne.symm this
      simp [hnone]
    · have : (field == h.1) = false := by simpa using hfield
      simp [this, hfield]

theorem addHeaders_headers (m : Message) :
    addHeaders { m.request with headers := fun _ => none } (m.headers.map headerLine) =
      m.request := by
  rw [addHeaders_headerLine (List.Subset.refl _) m.fields_nodup]
  refine congrArg (fun headers => { m.request with headers }) (funext fun field => ?_)
  exact Option.or_none

/-! ### Parsing what was rendered -/

theorem render_append (m : Message) (t : List UInt8) : m.render ++ t =
    m.requestLine ++ crlf ++ (renderLines (m.headers.map headerLine) ++ (crlf ++ t)) := by
  rw [render, List.append_assoc, renderLines_cons]

/-- The lines of a message. -/
def lines (m : Message) : List (List UInt8) := m.requestLine :: m.headers.map headerLine

/-- **A message with short lines is parsed up to its end.** -/
theorem parses (m : Message) (hshort : ∀ l ∈ m.lines, (l ++ crlf).length < 2 ^ 31) :
    Parses ⟨new, m.render ++ t, false⟩ ⟨⟨.kGotAll, m.request⟩, t, true⟩ := by
  rw [lines, List.forall_mem_cons] at hshort
  have hlines (l : List UInt8) (hl : l ∈ m.headers.map headerLine) :
      findCRLF l = none ∧ 58 ∈ l := by
    obtain ⟨h, hmem, rfl⟩ := List.mem_map.1 hl
    exact ⟨findCRLF_of_cr (headerLine_plain hmem), by simp [headerLine]⟩
  have hheaders (r : HttpRequest) : Parses
      ⟨⟨.kExpectHeaders, r⟩, renderLines (m.headers.map headerLine) ++ (crlf ++ t), true⟩
      ⟨⟨.kGotAll, addHeaders r (m.headers.map headerLine)⟩, t, true⟩ :=
    parses_headers hlines hshort.2
  specialize hheaders { m.request with headers := fun _ => none }
  rw [m.addHeaders_headers] at hheaders
  rw [render_append, new, parses_requestLine_iff (findCRLF_of_cr m.requestLine_plain)
    m.processRequestLine, left_line hshort.1]
  exact hheaders

/-! ### Long lines -/

/-- A header line that is not taken away is read again and again. -/
theorem not_parses_of_left {bytes : List UInt8} {i : ℕ} (hcrlf : findCRLF bytes = some i)
    (hcolon : 58 ∈ line bytes i) (hleft : left bytes (i + 2) = bytes) :
    ¬ Parses ⟨⟨.kExpectHeaders, request⟩, bytes, ok⟩ q := by
  have hall (p : Scan) (h : Parses p q) : p.context.state = .kExpectHeaders → p.bytes ≠ bytes := by
    induction h with
    | noLine _ hcrlf' =>
      rintro - rfl
      cases hcrlf.symm.trans hcrlf'
    | reject hstate' | requestLine hstate' =>
      intro hstate
      cases hstate.symm.trans hstate'
    | header _ hcrlf' _ _ ih =>
      rintro - rfl
      obtain rfl := Option.some.inj (hcrlf.symm.trans hcrlf')
      exact ih rfl hleft
    | last _ hcrlf' hcolon' =>
      rintro - rfl
      obtain rfl := Option.some.inj (hcrlf.symm.trans hcrlf')
      exact hcolon' hcolon
  exact fun h => hall _ h rfl rfl

/-- After a line of `2 ^ 31` bytes or more the parse does not end with a whole request, or leaves
more than what follows the line. -/
theorem lt_of_long_line {l : List UInt8} (hcr : (13 : UInt8) ∉ l)
    (hlong : 2 ^ 31 ≤ (l ++ crlf).length) (hsize : (l ++ crlf ++ rest).length < 2 ^ 63)
    (h : Parses ⟨⟨.kExpectHeaders, request⟩, left (l ++ crlf ++ rest) (l.length + 2), ok⟩ q)
    (hq : q.context.state = .kGotAll) : rest.length < q.bytes.length := by
  have hn : (l ++ crlf).length = l.length + 2 := List.length_append
  rw [hn] at hlong
  rw [List.length_append, hn] at hsize
  rw [left, toSize_toInt] at h
  split_ifs at h with hlow
  · -- the low 32 bits of the length are taken away, and a multiple of `2 ^ 32` bytes is left
    set n := (l.length + 2) % 2 ^ 32 with hndef
    have hle : n ≤ l.length := by omega
    have hcr' : (13 : UInt8) ∉ l.drop n := fun hmem => hcr (List.mem_of_mem_drop hmem)
    have hlen : (l.drop n).length + 2 = l.length + 2 - n := by
      rw [List.length_drop]
      omega
    rw [List.append_assoc, List.drop_append_of_le_length hle, ← List.append_assoc] at h
    have hleft : left (l.drop n ++ crlf ++ rest) ((l.drop n).length + 2) =
        l.drop n ++ crlf ++ rest := by
      rw [left, toSize_toInt, hlen, if_pos (by omega)]
      have hzero : (l.length + 2 - n) % 2 ^ 32 = 0 := by omega
      rw [hzero, List.drop_zero]
    by_cases hcolon : 58 ∈ l.drop n
    · have hline : line (l.drop n ++ crlf ++ rest) (l.drop n).length = l.drop n := line_append_crlf
      exact absurd h (not_parses_of_left (findCRLF_line (findCRLF_of_cr hcr'))
        (hline.symm ▸ hcolon) hleft)
    · obtain rfl := (parses_last_iff (findCRLF_of_cr hcr') hcolon).1 h
      rw [hleft]
      simp only [List.length_append]
      omega
  · -- everything is taken away
    have hnil : (l ++ crlf ++ rest).drop (2 ^ 64 - 2 ^ 32 + (l.length + 2) % 2 ^ 32) = [] :=
      List.drop_of_length_le (by rw [List.length_append, hn]; omega)
    rw [hnil] at h
    obtain rfl := h.det (.noLine (.inr rfl) rfl)
    cases hq

/-- The headers before the end of the request are short. -/
theorem short_of_parses_headers (hsub : hs ⊆ m.headers)
    (hsize : (renderLines (hs.map headerLine) ++ (crlf ++ t)).length < 2 ^ 63)
    (hparses : Parses
      ⟨⟨.kExpectHeaders, request⟩, renderLines (hs.map headerLine) ++ (crlf ++ t), ok⟩ q)
    (hq : q.context.state = .kGotAll) (hlen : q.bytes.length ≤ t.length) :
    ∀ h ∈ hs, (headerLine h ++ crlf).length < 2 ^ 31 := by
  induction hs generalizing request with
  | nil => simp
  | cons h hs ih =>
    have hcr := headerLine_plain (hsub List.mem_cons_self)
    rw [List.map_cons, renderLines_cons] at hparses hsize
    rw [parses_header_iff (findCRLF_of_cr hcr) (by simp [headerLine])] at hparses
    have hshort : (headerLine h ++ crlf).length < 2 ^ 31 := by
      by_contra hlong
      have := lt_of_long_line hcr (Nat.not_lt.1 hlong) hsize hparses hq
      simp only [List.length_append] at this
      omega
    rw [left_line hshort] at hparses
    rw [List.length_append] at hsize
    rw [List.forall_mem_cons]
    exact ⟨hshort, ih (fun _ h => hsub (List.mem_cons_of_mem _ h)) (by omega) hparses⟩

theorem short_of_parses (hsize : (m.render ++ t).length < 2 ^ 63)
    (hparses : Parses ⟨new, m.render ++ t, false⟩ q) (hq : q.context.state = .kGotAll)
    (hlen : q.bytes.length ≤ t.length) : ∀ l ∈ m.lines, (l ++ crlf).length < 2 ^ 31 := by
  rw [render_append] at hparses hsize
  rw [new, parses_requestLine_iff (findCRLF_of_cr m.requestLine_plain)
    m.processRequestLine] at hparses
  have hshort : (m.requestLine ++ crlf).length < 2 ^ 31 := by
    by_contra hlong
    have := lt_of_long_line m.requestLine_plain (Nat.not_lt.1 hlong) hsize hparses hq
    simp only [List.length_append] at this
    omega
  rw [left_line hshort] at hparses
  rw [List.length_append] at hsize
  have hheaders := short_of_parses_headers (List.Subset.refl _) (by omega) hparses hq hlen
  rw [lines, List.forall_mem_cons, List.forall_mem_map]
  exact ⟨hshort, hheaders⟩

/-! ### A call of `parseRequest` -/

/-- A call of `parseRequest` on a fresh context decodes the message in front of `t`. -/
def Decodes (m : Message) (t : List UInt8) (buf : Buffer) (receiveTime : ℤ) : Prop :=
  ∃ fuel c buf', parseRequest fuel new buf receiveTime = some (true, c, buf') ∧
    c.timeless = ⟨.kGotAll, m.request⟩ ∧ buf'.readable = t

variable {buf : Buffer}

theorem short_of_decodes {receiveTime : ℤ} (hwf : buf.Wf) (hread : buf.readable = m.render ++ t)
    (h : m.Decodes t buf receiveTime) : ∀ l ∈ m.lines, (l ++ crlf).length < 2 ^ 31 := by
  obtain ⟨fuel, c, buf', hret, hc, hbuf'⟩ := h
  obtain ⟨hparses, -⟩ := parses_of_parseRequest hwf hret
  have hsize := hwf.readableBytes_lt
  rw [← hwf.length_readable, hread] at hsize
  rw [hread] at hparses
  exact short_of_parses hsize hparses (by rw [hc]) (Nat.le_of_eq (congrArg List.length hbuf'))

/-- **Decoding undoes encoding.**  Given a buffer with a rendered message and any bytes behind it, a
call of `parseRequest` on a fresh context returns true with a complete request, the contents of the
message, and leaves exactly the bytes behind the message, iff every line of the message and its CRLF
are less than `2 ^ 31` bytes. -/
theorem decode_iff (receiveTime : ℤ) (hwf : buf.Wf) (hread : buf.readable = m.render ++ t) :
    m.Decodes t buf receiveTime ↔ ∀ l ∈ m.lines, (l ++ crlf).length < 2 ^ 31 := by
  refine ⟨short_of_decodes hwf hread, fun hshort => ?_⟩
  have hparses := m.parses (t := t) hshort
  rw [← hread] at hparses
  obtain ⟨fuel, c, buf', hret, -, hc, hbuf'⟩ := parseRequest_of_parses (c := new)
    (t := receiveTime) hwf hparses
  exact ⟨fuel, c, buf', hret, hc, hbuf'⟩

/-- There is a buffer for every byte string that a vector can hold. -/
theorem exists_buffer (bytes : List UInt8) (h : 8 + bytes.length ≤ Vec.maxSize) :
    ∃ buf : Buffer, buf.Wf ∧ buf.readable = bytes := by
  have hlen : (List.replicate 8 (0 : UInt8) ++ bytes ++ []).length = 8 + bytes.length := by
    rw [List.append_nil, List.length_append, List.length_replicate]
  exact ⟨⟨List.replicate 8 0 ++ bytes ++ [], 8, 8 + bytes.length⟩,
    ⟨Nat.le_refl _, Nat.le_add_right _ _, Nat.le_of_eq hlen.symm, hlen.trans_le h⟩,
    Buffer.readable_mk List.length_replicate rfl⟩

/-- `GET /i?a=1 HTTP/1.1` with a `Host`. -/
def getMessage : Message where
  method := .kGet
  version := .kHttp11
  path := [47, 105]
  query := [63, 97, 61, 49]
  headers := [([72, 111, 115, 116], [120])]
  method_ne := HttpRequest.Method.kGet_ne
  version_ne := HttpRequest.Version.kHttp11_ne
  path_plain := by decide +kernel
  query_head := by decide +kernel
  query_plain := by decide +kernel
  field_plain := by decide +kernel
  value_plain := by decide +kernel
  value_trimmed := by simp [Trimmed, isspace]
  fields_nodup := by decide

theorem decode_iff_getMessage : ∃ buf : Buffer, buf.readable = getMessage.render ++ [71] ∧
    getMessage.Decodes [71] buf 0 := by
  obtain ⟨buf, hwf, hread⟩ := exists_buffer (getMessage.render ++ [71]) (by decide +kernel)
  exact ⟨buf, hread, (decode_iff 0 hwf hread).2 (by decide +kernel)⟩

/-- A `GET` with a path of `n` bytes. -/
def longMessage (n : ℕ) : Message where
  method := .kGet
  version := .kHttp11
  path := List.replicate n 97
  query := []
  headers := []
  method_ne := HttpRequest.Method.kGet_ne
  version_ne := HttpRequest.Version.kHttp11_ne
  path_plain := fun b hb => by rw [List.eq_of_mem_replicate hb]; decide
  query_head := by simp
  query_plain := by simp
  field_plain := by simp
  value_plain := by simp
  value_trimmed := by simp
  fields_nodup := by simp

theorem length_requestLine_longMessage (n : ℕ) : (longMessage n).requestLine.length = n + 13 := by
  have hmethod : (longMessage n).method.string.length = 3 := rfl
  have hversion : (longMessage n).version.string.length = 8 := rfl
  have hpath : (longMessage n).path.length = n := List.length_replicate
  have hquery : (longMessage n).query.length = 0 := rfl
  simp only [requestLine, HttpRequest.requestLine, List.length_append, List.length_cons]
  omega

theorem length_render_longMessage (n : ℕ) : (longMessage n).render.length = n + 17 := by
  have hheaders : (longMessage n).headers = [] := rfl
  have := length_requestLine_longMessage n
  simp only [render, renderLines, hheaders, List.map_nil, List.flatMap_cons, List.flatMap_nil,
    List.append_nil, List.length_append, crlf, List.length_cons, List.length_nil]
  omega

/-- A request line that does not fit an `int` does not decode. -/
theorem not_decode_longMessage : ∃ n buf, n = 2 ^ 31 ∧ buf.Wf ∧
    buf.readable = (longMessage n).render ++ [] ∧ ¬ (longMessage n).Decodes [] buf 0 := by
  obtain ⟨n, hn⟩ : ∃ n, n = 2 ^ 31 := ⟨_, rfl⟩
  have hrender := length_render_longMessage n
  obtain ⟨buf, hwf, hread⟩ := exists_buffer ((longMessage n).render ++ []) (by
    rw [List.append_nil, hrender, hn]
    decide)
  refine ⟨n, buf, hn, hwf, hread, fun h => ?_⟩
  have hshort := short_of_decodes hwf hread h (longMessage n).requestLine List.mem_cons_self
  have := length_requestLine_longMessage n
  rw [List.length_append] at hshort
  omega

end Parses

end Message

end TinyNetwork
