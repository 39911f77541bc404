import TinyNetwork.Http.HttpContext

/-!
# Parsing a request piece by piece

A context is given the bytes of a stream chunk by chunk, and parses what has arrived after every
chunk.  Below `2 ^ 31` bytes the cuts leave no trace: a line that was taken is taken whatever
follows, and a request line that is rejected stays in front and is rejected again, with the same
effect.

## Main results

* `Parses.append` : what is parsed after a first part and a second one is what is parsed at once.
* `incremental_iff` : parsing in chunks is parsing at once, exactly below `2 ^ 31` bytes.
-/

namespace TinyNetwork

open Lp64

namespace HttpContext

/-! ### The calls -/

/-- A chunk and the time of its arrival: it is appended, and parsed unless the request is already
complete. -/
def feed (fuel : ℕ) (p : HttpContext × Buffer) (chunk : List UInt8 × ℤ) :
    Option (HttpContext × Buffer) := do
  let buf ← (p.2.append chunk.1).toOption
  if p.1.gotAll then return (p.1, buf)
  else
    let (_, c, buf) ← parseRequest fuel p.1 buf chunk.2
    return (c, buf)

/-- The chunks of a stream, one after the other. -/
def feedAll (fuel : ℕ) (p : HttpContext × Buffer) (chunks : List (List UInt8 × ℤ)) :
    Option (HttpContext × Buffer) := chunks.foldlM (feed fuel) p

variable {p q r : Scan} {i : ℕ} {bytes m s : List UInt8} {ok : Bool}

/-! ### Cuts leave no trace -/

theorem line_append (h : findCRLF bytes = some i) : line (bytes ++ m) i = line bytes i :=
  List.take_append_of_le_length (by have := le_of_findCRLF h; omega)

theorem left_append (h : findCRLF bytes = some i) (hlen : (bytes ++ m).length < 2 ^ 31) :
    left (bytes ++ m) (i + 2) = left bytes (i + 2) ++ m := by
  have hle := le_of_findCRLF h
  rw [List.length_append] at hlen
  rw [left_of_lt (by omega), left_of_lt (by omega), List.drop_append_of_le_length hle]

/-- Only the returned value depends on what it is initially. -/
theorem Parses.initial (h : Parses p q) (ok : Bool) :
    ∃ ok', Parses ⟨p.context, p.bytes, ok⟩ ⟨q.context, q.bytes, ok'⟩ := by
  induction h generalizing ok with
  | noLine hopen hcrlf => exact ⟨ok, .noLine hopen hcrlf⟩
  | reject hstate hcrlf hline => exact ⟨false, .reject hstate hcrlf hline⟩
  | requestLine hstate hcrlf hline _ ih =>
    obtain ⟨ok', h⟩ := ih true
    exact ⟨ok', .requestLine hstate hcrlf hline h⟩
  | header hstate hcrlf hcolon _ ih =>
    obtain ⟨ok', h⟩ := ih ok
    exact ⟨ok', .header hstate hcrlf hcolon h⟩
  | last hstate hcrlf hcolon => exact ⟨ok, .last hstate hcrlf hcolon⟩

/-- A parse only takes bytes away. -/
theorem Parses.length_le (h : Parses p q) : q.bytes.length ≤ p.bytes.length := by
  have hleft (bytes : List UInt8) (off : ℕ) : (left bytes off).length ≤ bytes.length :=
    (List.length_drop ..).trans_le (Nat.sub_le _ _)
  induction h with
  | noLine | reject => exact Nat.le_refl _
  | requestLine _ _ _ _ ih | header _ _ _ _ ih => exact ih.trans (hleft _ _)
  | last => exact hleft _ _

/-- A rejected request line is rejected again, with the same effect. -/
theorem Parses.reject_again {request : HttpRequest} (hstate : p.context.state = .kExpectRequestLine)
    (hcrlf : findCRLF p.bytes = some i)
    (hline : p.context.request.processRequestLine (line p.bytes i) = (false, request))
    (h : Parses ⟨⟨.kExpectRequestLine, request⟩, p.bytes ++ m, ok⟩ r) :
    Parses ⟨p.context, p.bytes ++ m, p.ok⟩ r := by
  have hcrlf' := findCRLF_append (m := m) hcrlf
  have hline' : p.context.request.processRequestLine (line (p.bytes ++ m) i) = (false, request) :=
    line_append hcrlf ▸ hline
  have hagain : request.processRequestLine (line (p.bytes ++ m) i) = (false, request) := by
    have := HttpRequest.processRequestLine_again (r := p.context.request)
      (l := line (p.bytes ++ m) i)
    rwa [hline'] at this
  obtain rfl := h.det (.reject rfl hcrlf' hagain)
  exact .reject hstate hcrlf' hline'

/-- **A cut leaves no trace.**  A request that is complete stays so when bytes arrive, and what is
parsed of a first part and then of the rest is what is parsed of both. -/
theorem Parses.append (h : Parses p q) (hlen : (p.bytes ++ m).length < 2 ^ 31) :
    (q.context.state = .kGotAll → Parses ⟨p.context, p.bytes ++ m, p.ok⟩
      ⟨q.context, q.bytes ++ m, q.ok⟩) ∧
    (q.context.Open → Parses ⟨q.context, q.bytes ++ m, ok⟩ r →
      ∃ ok', Parses ⟨p.context, p.bytes ++ m, p.ok⟩ ⟨r.context, r.bytes, ok'⟩) := by
  induction h with
  | @noLine p hopen _ =>
    refine ⟨fun hall => ?_, fun _ hr => hr.initial p.ok⟩
    rcases hopen with hstate | hstate <;> simp [hstate] at hall
  | reject hstate hcrlf hline =>
    exact ⟨by simp, fun _ hr => ⟨r.ok, hr.reject_again hstate hcrlf hline⟩⟩
  | requestLine hstate hcrlf hline _ ih =>
    have hcrlf' := findCRLF_append (m := m) hcrlf
    rw [← line_append (m := m) hcrlf] at hline
    have hleft := left_append hcrlf hlen
    obtain ⟨hall, hopen⟩ := ih (by
      rw [← hleft]; exact (length_left_lt hcrlf' hlen).trans hlen)
    rw [← hleft] at hall hopen
    refine ⟨fun hq => .requestLine hstate hcrlf' hline (hall hq), fun hq hr => ?_⟩
    obtain ⟨ok', hr'⟩ := hopen hq hr
    exact ⟨ok', .requestLine hstate hcrlf' hline hr'⟩
  | @header p _ _ hstate hcrlf hcolon _ ih =>
    have hcrlf' := findCRLF_append (m := m) hcrlf
    rw [← line_append (m := m) hcrlf] at hcolon ih
    have hleft := left_append hcrlf hlen
    obtain ⟨hall, hopen⟩ := ih (by
      rw [← hleft]; exact (length_left_lt hcrlf' hlen).trans hlen)
    rw [← hleft] at hall hopen
    refine ⟨fun hq => .header (p := ⟨p.context, p.bytes ++ m, p.ok⟩) hstate hcrlf' hcolon (hall hq),
      fun hq hr => ?_⟩
    obtain ⟨ok', hr'⟩ := hopen hq hr
    exact ⟨ok', .header (p := ⟨p.context, p.bytes ++ m, p.ok⟩) hstate hcrlf' hcolon hr'⟩
  | @last p _ hstate hcrlf hcolon =>
    refine ⟨fun _ => ?_, fun hopen => by rcases hopen with h | h <;> simp at h⟩
    rw [← line_append (m := m) hcrlf] at hcolon
    rw [← left_append hcrlf hlen]
    exact .last (p := ⟨p.context, p.bytes ++ m, p.ok⟩) hstate (findCRLF_append hcrlf) hcolon

/-! ### The calls have a result -/

section Feed

variable {fuel fuel' : ℕ} {t : ℤ} {c c' : HttpContext} {buf buf' : Buffer}
  {x y : HttpContext × Buffer} {chunks : List (List UInt8 × ℤ)}

theorem buffer_retrieve (buf : Buffer) (len : ℤ) : (buf.retrieve len).buffer = buf.buffer := by
  unfold Buffer.retrieve
  split_ifs <;> rfl

theorem buffer_iterate (p : Parsing) : (iterate t p).buf.buffer = p.buf.buffer := by
  unfold iterate
  split
  · split
    · simp only
      split_ifs
      · exact buffer_retrieve ..
      · rfl
    · rfl
  · split
    · simp only
      split_ifs
      · exact buffer_retrieve ..
      · exact buffer_retrieve ..
    · rfl
  · rfl
  · rfl

/-- Parsing takes bytes out of the buffer and leaves its storage alone. -/
theorem buffer_parseRequest (h : parseRequest fuel c buf t = some (ok, c', buf')) :
    buf'.buffer = buf.buffer := by
  have hloop (fuel : ℕ) : ∀ p q, parseLoop t fuel p = some q → q.buf.buffer = p.buf.buffer := by
    induction fuel with
    | zero =>
      intro p q h
      rw [parseLoop] at h
      split_ifs at h
      cases h
      rfl
    | succ fuel ih =>
      intro p q h
      rw [parseLoop] at h
      split_ifs at h
      · exact (ih _ _ h).trans (buffer_iterate p)
      · cases h
        rfl
  obtain ⟨q, hq, heq⟩ := Option.map_eq_some_iff.1 h
  cases heq
  exact hloop fuel _ _ hq

theorem feed_mono {chunk : List UInt8 × ℤ} (h : feed fuel x chunk = some y) (hle : fuel ≤ fuel') :
    feed fuel' x chunk = some y := by
  obtain ⟨buf, hbuf, h⟩ := Option.bind_eq_some_iff.1 h
  refine Option.bind_eq_some_iff.2 ⟨buf, hbuf, ?_⟩
  split_ifs at h ⊢ with hall
  · exact h
  · obtain ⟨r, hr, h⟩ := Option.bind_eq_some_iff.1 h
    exact Option.bind_eq_some_iff.2 ⟨r, parseRequest_mono hr hle, h⟩

theorem feedAll_mono (h : feedAll fuel x chunks = some y) (hle : fuel ≤ fuel') :
    feedAll fuel' x chunks = some y := by
  induction chunks generalizing x with
  | nil => exact h
  | cons chunk chunks ih =>
    rw [feedAll, List.foldlM_cons] at h ⊢
    obtain ⟨z, hz, h⟩ := Option.bind_eq_some_iff.1 h
    exact Option.bind_eq_some_iff.2 ⟨z, feed_mono hz hle, ih h⟩

/-- The context and the buffer are those that parsing `s` at once leaves. -/
structure Fed (s : List UInt8) (x : HttpContext × Buffer) : Prop where
  wf : x.2.Wf
  size : x.2.buffer.length ≤ Buffer.initialPrependSize + Buffer.initialSize + s.length
  parses : ∃ ok, Parses ⟨new, s, false⟩ ⟨x.1.timeless, x.2.readable, ok⟩

theorem fed_new : Fed [] (new, Buffer.empty) where
  wf := Buffer.wf_empty
  size := by simp [Buffer.empty]
  parses := by
    rw [Buffer.readable_empty]
    exact ⟨false, .noLine (.inl rfl) rfl⟩

/-- **A chunk is parsed as if it had been there from the beginning.** -/
theorem Fed.feed (h : Fed s x) (t : ℤ) (hlen : (s ++ m).length < 2 ^ 31) :
    ∃ fuel y, feed fuel x (m, t) = some y ∧ Fed (s ++ m) y := by
  obtain ⟨c, buf⟩ := x
  obtain ⟨ok, hparses⟩ := h.parses
  have hsize : buf.buffer.length ≤ _ := h.size
  rw [List.length_append] at hlen
  -- the storage can still grow
  have hmax : buf.buffer.length + m.length ≤ Vec.maxSize := by
    unfold Buffer.initialPrependSize Buffer.initialSize at hsize
    unfold Vec.maxSize
    omega
  obtain ⟨buf', happ, hbound⟩ := Buffer.Wf.append_of_lt (b := buf) h.wf (by omega) hmax
  obtain ⟨hwf', hread⟩ := Buffer.Wf.append (b := buf) h.wf happ
  have hsize' : buf'.buffer.length ≤
      Buffer.initialPrependSize + Buffer.initialSize + (s ++ m).length := by
    have := hbound.1
    rw [List.length_append]
    omega
  have htoOption : (buf.append m).toOption = some buf' := by rw [happ]; rfl
  have hcut (r : Scan) := @Parses.append _ _ r m false hparses
    (by rw [List.length_append]; exact hlen)
  by_cases hgot : c.state = .kGotAll
  · -- a whole request has been parsed: the chunk is only appended
    refine ⟨0, (c, buf'), Option.bind_eq_some_iff.2 ⟨buf', htoOption, ?_⟩, hwf', hsize', ok, ?_⟩
    · exact if_pos (by simpa [gotAll] using hgot)
    · rw [hread]
      exact (hcut ⟨c.timeless, buf.readable, ok⟩).1 hgot
  · -- the parse goes on where it has stopped
    have hopen : c.timeless.Open := hparses.open_or_gotAll.resolve_right hgot
    have hshort : (buf.readable ++ m).length < 2 ^ 31 := by
      have : buf.readable.length ≤ s.length := hparses.length_le
      rw [List.length_append]
      omega
    obtain ⟨q, hq⟩ := exists_parses (p := ⟨c.timeless, buf.readable ++ m, false⟩) hopen hshort
    rw [← hread] at hq
    obtain ⟨fuel, c', buf'', hret, hwf'', hc', hbuf''⟩ := parseRequest_of_parses (t := t) hwf' hq
    refine ⟨fuel, (c', buf''), Option.bind_eq_some_iff.2 ⟨buf', htoOption, ?_⟩, hwf'', ?_, ?_⟩
    · rw [if_neg (by simpa [gotAll] using hgot)]
      exact Option.bind_eq_some_iff.2 ⟨_, hret, rfl⟩
    · rw [buffer_parseRequest hret]
      exact hsize'
    · rw [hc', hbuf'']
      rw [hread] at hq
      exact (hcut q).2 hopen hq

/-- The chunks of a stream are parsed as if they had been there from the beginning. -/
theorem Fed.feedAll (h : Fed s x) (hlen : (s ++ (chunks.map Prod.fst).flatten).length < 2 ^ 31) :
    ∃ fuel y, feedAll fuel x chunks = some y ∧ Fed (s ++ (chunks.map Prod.fst).flatten) y := by
  induction chunks generalizing s x with
  | nil => exact ⟨0, x, rfl, by simpa using h⟩
  | cons chunk chunks ih =>
    rw [List.map_cons, List.flatten_cons, ← List.append_assoc] at hlen ⊢
    obtain ⟨fuel₁, y, hy, hfed⟩ := h.feed (m := chunk.1) chunk.2
      (by rw [List.length_append] at hlen; omega)
    obtain ⟨fuel₂, z, hz, hfed'⟩ := ih hfed hlen
    refine ⟨max fuel₁ fuel₂, z, ?_, hfed'⟩
    rw [HttpContext.feedAll, List.foldlM_cons]
    exact Option.bind_eq_some_iff.2 ⟨y, feed_mono hy (le_max_left ..),
      feedAll_mono hz (le_max_right ..)⟩

theorem addSize_toSize_toInt (n : ℕ) : addSize 8 (toSize (toInt n)) < 2 ^ 31 + 8 ∨
    Vec.maxSize < addSize 8 (toSize (toInt n)) := by
  rw [toSize_toInt, addSize, Vec.maxSize]
  split_ifs <;> omega

/-- The length of an `append` passes through an `int`: `2 ^ 31` bytes at once do not fit a buffer
that has just been constructed. -/
theorem append_empty_ne_ok (hlen : 2 ^ 31 ≤ s.length) (buf : Buffer) :
    Buffer.empty.append s ≠ .ok buf := by
  intro happ
  obtain ⟨b, hens, happ⟩ := bind_eq_ok.1 happ
  obtain ⟨buffer, hwrite, -⟩ := bind_eq_ok.1 happ
  have hroom := (Vec.write_eq_ok.1 hwrite).1
  have hsize : Buffer.empty.buffer.length = 1032 := List.length_replicate
  have hwriteable : Buffer.empty.writeableBytes = 1024 := by
    rw [Buffer.wf_empty.writeableBytes_eq, hsize]
    rfl
  rcases Buffer.wf_empty.ensureWriteableBytes_cases hens with
    ⟨-, hle⟩ | ⟨-, -, hw, -, hres⟩ | ⟨-, -, -, -, -, hlength⟩
  · omega
  · -- the low 32 bits of the length are too few bytes, or a huge number of them
    have hmax := (Vec.resize_eq_ok.1 hres).1
    have hlength : b.buffer.length = addSize 8 (toSize (toInt s.length)) :=
      Vec.length_resize hres
    have hindex : b.writeIndex = 8 := hw
    have hwrap : addSize 8 (toSize (toInt s.length)) < 2 ^ 31 + 8 ∨
        Vec.maxSize < addSize 8 (toSize (toInt s.length)) := addSize_toSize_toInt s.length
    have : addSize 8 (toSize (toInt s.length)) ≤ Vec.maxSize := hmax
    omega
  · omega

theorem feed_empty_of_le (hlen : 2 ^ 31 ≤ s.length) :
    feed fuel (new, Buffer.empty) (s, t) = none := by
  cases happ : Buffer.empty.append s with
  | ok buf => exact absurd happ (append_empty_ne_ok hlen buf)
  | error e =>
    show (Buffer.empty.append s).toOption >>= _ = none
    rw [happ]
    rfl

/-- A chunk that completes no line is added to the unread bytes. -/
theorem feed_noLine (hwf : buf.Wf) (hopen : c.Open) (hm : m.length < 2 ^ 31)
    (hmax : buf.buffer.length + m.length ≤ Vec.maxSize) (hcr : (13 : UInt8) ∉ buf.readable ++ m) :
    ∃ buf', feed 1 (c, buf) (m, t) = some (c, buf') ∧ buf'.Wf ∧
      buf'.readable = buf.readable ++ m ∧ buf'.buffer.length ≤ buf.buffer.length + m.length := by
  obtain ⟨buf', happ, hbound, -⟩ := hwf.append_of_lt hm hmax
  obtain ⟨hwf', hread⟩ := hwf.append happ
  have htoOption : (buf.append m).toOption = some buf' := by rw [happ]; rfl
  have hcrlf : buf'.findCRLF = none := by
    rw [Buffer.findCRLF, hread]
    exact findCRLF_of_cr hcr
  have hret : parseRequest 1 c buf' t = some (false, c, buf') := by
    rw [parseRequest, parseLoop_stop rfl (iterate_noLine hopen hcrlf) rfl]
    rfl
  refine ⟨buf', Option.bind_eq_some_iff.2 ⟨buf', htoOption, ?_⟩, hwf', hread, hbound⟩
  rw [if_neg (by rcases hopen with h | h <;> simp [gotAll, h])]
  exact Option.bind_eq_some_iff.2 ⟨_, hret, rfl⟩

/-- **When parsing in chunks is parsing at once.**  A fresh context and an empty buffer are given
the chunks of a stream, or the whole stream as one chunk: both have a result, with the same state,
the same request up to its receive time and the same unread bytes, iff the stream is shorter than
`2 ^ 31` bytes. -/
theorem incremental_iff (chunks : List (List UInt8 × ℤ)) (t : ℤ) :
    (∃ fuel x y, feed fuel (new, Buffer.empty) ((chunks.map Prod.fst).flatten, t) = some x ∧
      feedAll fuel (new, Buffer.empty) chunks = some y ∧
      y.1.timeless = x.1.timeless ∧ y.2.readable = x.2.readable) ↔
    (chunks.map Prod.fst).flatten.length < 2 ^ 31 := by
  constructor
  · rintro ⟨fuel, x, y, hx, -⟩
    by_contra hlen
    simp [feed_empty_of_le (Nat.not_lt.1 hlen)] at hx
  · intro hlen
    rw [← List.nil_append (chunks.map Prod.fst).flatten] at hlen
    obtain ⟨fuel₁, x, hx, hfedx⟩ := fed_new.feed t hlen
    obtain ⟨fuel₂, y, hy, hfedy⟩ := fed_new.feedAll hlen
    obtain ⟨ok₁, hparses₁⟩ := hfedx.parses
    obtain ⟨ok₂, hparses₂⟩ := hfedy.parses
    have heq := hparses₂.det hparses₁
    exact ⟨max fuel₁ fuel₂, x, y, feed_mono hx (le_max_left ..), feedAll_mono hy (le_max_right ..),
      congrArg Scan.context heq, congrArg Scan.bytes heq⟩

theorem exists_bytes_of_length (n : ℕ) : ∃ m : List UInt8, m.length = n ∧ (13 : UInt8) ∉ m :=
  ⟨List.replicate n 97, List.length_replicate, fun h =>
    absurd (List.eq_of_mem_replicate h) (by decide)⟩

/-- A stream of `2 ^ 31` bytes in two chunks: both are taken, but the stream is not taken at
once. -/
theorem not_incremental : ∃ chunks : List (List UInt8 × ℤ),
    (∃ fuel y, feedAll fuel (new, Buffer.empty) chunks = some y) ∧
    ∀ fuel t, feed fuel (new, Buffer.empty) ((chunks.map Prod.fst).flatten, t) = none := by
  obtain ⟨m, hlen, hcr⟩ := exists_bytes_of_length (2 ^ 30)
  have hsize : Buffer.empty.buffer.length = 1032 := List.length_replicate
  refine ⟨[(m, 0), (m, 0)], ?_, ?_⟩
  · have hmax : Vec.maxSize = 2 ^ 63 - 1 := rfl
    obtain ⟨buf₁, h₁, hwf₁, hread₁, hsize₁⟩ := feed_noLine (c := new) (t := 0) (m := m)
      Buffer.wf_empty (.inl rfl) (by omega) (by omega) (by simpa using hcr)
    rw [Buffer.readable_empty, List.nil_append] at hread₁
    obtain ⟨buf₂, h₂, -⟩ := feed_noLine (c := new) (t := 0) (m := m) hwf₁ (.inl rfl) (by omega)
      (by omega) (by rw [hread₁]; simpa using hcr)
    exact ⟨1, (new, buf₂), by simp [feedAll, h₁, h₂]⟩
  · intro fuel t
    refine feed_empty_of_le ?_
    simp only [List.map_cons, List.map_nil, List.flatten_cons, List.flatten_nil, List.append_nil,
      List.length_append]
    omega

end Feed

end HttpContext

end TinyNetwork
