import TinyNetwork.Base.Lines
import TinyNetwork.Http.HttpResponse

/-!
# Keep-alive responses are self-delimiting

Responses that keep the connection open follow one another in the output, and a client has to find
where each of them ends.  `decode` is such a client: it reads up to the first empty line, takes the
length of the body from the second line and as many bytes, and goes on.

## Main results

* `pieces_eq` : a keep-alive response is lines without CRs, an empty line, and the body.
* `decodeOne_pieces` : a response is found in front of anything.
* `decode_responses` : the responses written into a buffer are found again.
-/

namespace TinyNetwork

namespace HttpResponse

/-! ### The reference decoder -/

/-- What a client finds. -/
structure Decoded where
  statusCode : ℕ
  statusMessage : List UInt8
  headers : List (List UInt8 × List UInt8)
  body : List UInt8
  deriving DecidableEq

/-- A status line: the code and the message. -/
def decodeStatus (line : List UInt8) : Option (ℕ × List UInt8) := do
  let line ← line.dropPrefix? (ascii "HTTP/1.1 ")
  let code ← ofDecimal (line.takeWhile (· ≠ 32))
  return (code, (line.dropWhile (· ≠ 32)).tail)

/-- The second line: the length of the body. -/
def decodeLength (line : List UInt8) : Option ℕ := do
  ofDecimal (← line.dropPrefix? (ascii "Content-Length: "))

/-- A header line: the name in front of the first colon, and the value. -/
def decodeHeader (line : List UInt8) : Option (List UInt8 × List UInt8) := do
  let value ← (line.dropWhile (· ≠ 58)).dropPrefix? (ascii ": ")
  return (line.takeWhile (· ≠ 58), value)

/-- One response, and the bytes behind it. -/
def decodeOne (bytes : List UInt8) : Option (Decoded × List UInt8) := do
  let i ← findBlankLine bytes
  match splitLines (bytes.take i) with
  | status :: length :: _connection :: headers =>
    let (code, message) ← decodeStatus status
    let n ← decodeLength length
    let headers ← headers.mapM decodeHeader
    let rest := bytes.drop (i + 4)
    if n ≤ rest.length then return (⟨code, message, headers, rest.take n⟩, rest.drop n) else none
  | _ => none

/-- All responses, up to the end of the bytes. -/
def decode : ℕ → List UInt8 → Option (List Decoded)
  | _, [] => some []
  | 0, _ :: _ => none
  | fuel + 1, bytes => do
    let (r, rest) ← decodeOne bytes
    return r :: (← decode fuel rest)

/-! ### Responses that keep the connection open -/

/-- A response that keeps the connection open, without CR and LF in its head. -/
structure KeepsAlive (r : HttpResponse) : Prop where
  open_ : r.closeConnection = false
  message : (13 : UInt8) ∉ r.statusMessage ∧ (10 : UInt8) ∉ r.statusMessage
  name : ∀ header ∈ r.headers,
    (13 : UInt8) ∉ header.1 ∧ (10 : UInt8) ∉ header.1 ∧ (58 : UInt8) ∉ header.1
  value : ∀ header ∈ r.headers, (13 : UInt8) ∉ header.2 ∧ (10 : UInt8) ∉ header.2

/-- What a client has to find. -/
def decoded (r : HttpResponse) : Decoded :=
  ⟨r.statusCode.number, r.statusMessage, r.headers, r.body⟩

/-- The lines of the head. -/
def headLines (r : HttpResponse) : List (List UInt8) :=
  [ascii "HTTP/1.1 " ++ decimal r.statusCode.number ++ ascii " " ++ r.statusMessage,
    ascii "Content-Length: " ++ decimal r.body.length, ascii "Connection: Keep-Alive"] ++
  r.headers.map fun header => header.1 ++ ascii ": " ++ header.2

variable {r : HttpResponse} {rs : List HttpResponse} {t : List UInt8}

theorem joinLines_append {l : List UInt8} {lines : List (List UInt8)} :
    joinLines (l :: lines) = l ++ lines.flatMap (crlf ++ ·) := by
  induction lines generalizing l with
  | nil => simp [joinLines]
  | cons l' lines ih => simp only [joinLines, ih, List.flatMap_cons, List.append_assoc]

/-- Separators in front of every part, or behind it. -/
theorem flatMap_separated {α : Type} {sep : List UInt8} (f : α → List UInt8) (xs : List α) :
    sep ++ xs.flatMap (fun x => f x ++ sep) = xs.flatMap (fun x => sep ++ f x) ++ sep := by
  induction xs with
  | nil => simp
  | cons x xs ih =>
    simp only [List.flatMap_cons, List.append_assoc]
    rw [ih]

/-- **A keep-alive response is its lines, an empty line and its body.** -/
theorem pieces_eq (hr : r.KeepsAlive) (hbody : r.body.length < 2 ^ 31) :
    r.pieces.flatten = joinLines r.headLines ++ (crlf ++ crlf ++ r.body) := by
  have hcode : (decimal r.statusCode.number).length ≤ 3 := by
    refine length_decimal_le (by decide) ?_
    cases r.statusCode <;> decide
  have hlength : (decimal r.body.length).length ≤ 10 :=
    length_decimal_le (by decide) (hbody.trans (by decide))
  have h₁ : (ascii "HTTP/1.1 ").length = 9 := by decide +kernel
  have h₂ : (ascii " ").length = 1 := rfl
  have h₃ : (ascii "Content-Length: ").length = 16 := by decide +kernel
  have h₄ : crlf.length = 2 := rfl
  have h₅ : ascii "Connection: Keep-Alive\r\n" = ascii "Connection: Keep-Alive" ++ crlf := by
    decide +kernel
  rw [pieces, snprintf_of_lt (by simp only [List.length_append]; omega),
    snprintf_of_lt (by simp only [List.length_append]; omega), hr.open_, headLines]
  have hheaders : crlf ++ (r.headers.flatMap fun header =>
        [header.1, ascii ": ", header.2, crlf]).flatten =
      (r.headers.map fun header => header.1 ++ ascii ": " ++ header.2).flatMap (crlf ++ ·) ++
        crlf := by
    rw [List.flatMap_map, ← flatMap_separated]
    congr 1
    induction r.headers with
    | nil => rfl
    | cons header headers ih =>
      simp only [List.flatMap_cons, List.flatten_append, ih]
      simp
  rw [h₅]
  simp only [Bool.false_eq_true, if_false, List.cons_append, List.nil_append, List.flatten_cons,
    List.flatten_append, List.flatten_nil, List.append_nil, joinLines_append, List.flatMap_cons,
    List.append_assoc]
  rw [← List.append_assoc crlf (List.flatten _), hheaders]
  simp only [List.append_assoc]

theorem takeWhile_stop {p : UInt8 → Bool} {l : List UInt8} {b : UInt8} (hl : ∀ x ∈ l, p x = true)
    (hb : p b = false) : (l ++ b :: t).takeWhile p = l := by
  rw [List.takeWhile_append_of_pos hl, List.takeWhile_cons_of_neg (by simp [hb]), List.append_nil]

theorem dropWhile_stop {p : UInt8 → Bool} {l : List UInt8} {b : UInt8} (hl : ∀ x ∈ l, p x = true)
    (hb : p b = false) : (l ++ b :: t).dropWhile p = b :: t := by
  rw [List.dropWhile_append_of_pos hl, List.dropWhile_cons_of_neg (by simp [hb])]

theorem dropPrefix_append (l : List UInt8) : (l ++ t).dropPrefix? l = some t :=
  List.dropPrefix?_append_of_beq t (by simp)

theorem decodeStatus_eq (n : ℕ) (message : List UInt8) :
    decodeStatus (ascii "HTTP/1.1 " ++ decimal n ++ ascii " " ++ message) = some (n, message) := by
  have hdigits : ∀ b ∈ decimal n, decide (b ≠ 32) = true := fun b hb => by
    have hdigit := isDigit_iff.1 (isDigit_of_mem hb)
    rw [decide_eq_true_iff]
    rintro rfl
    exact absurd hdigit.1 (by decide)
  have hspace : ascii " " ++ message = 32 :: message := rfl
  rw [decodeStatus, List.append_assoc, List.append_assoc, dropPrefix_append, hspace]
  simp only [Option.bind_eq_bind, Option.bind_some]
  rw [takeWhile_stop hdigits (by decide), dropWhile_stop hdigits (by decide), ofDecimal_decimal]
  rfl

theorem decodeLength_eq (n : ℕ) :
    decodeLength (ascii "Content-Length: " ++ decimal n) = some n := by
  rw [decodeLength, dropPrefix_append]
  exact ofDecimal_decimal n

theorem decodeHeader_eq {header : List UInt8 × List UInt8} (h : (58 : UInt8) ∉ header.1) :
    decodeHeader (header.1 ++ ascii ": " ++ header.2) = some header := by
  have hname : ∀ b ∈ header.1, decide (b ≠ 58) = true := fun b hb => by
    rw [decide_eq_true_iff]
    rintro rfl
    exact h hb
  have hcolon : ascii ": " ++ header.2 = 58 :: (32 :: header.2) := rfl
  rw [decodeHeader, List.append_assoc, hcolon, takeWhile_stop hname (by decide),
    dropWhile_stop hname (by decide), ← hcolon, dropPrefix_append]
  rfl

/-- The lines of the head are not empty and hold no CR. -/
theorem KeepsAlive.headLines (hr : r.KeepsAlive) :
    ∀ l ∈ r.headLines, l ≠ [] ∧ (13 : UInt8) ∉ l := by
  have hdecimal (n : ℕ) : (13 : UInt8) ∉ decimal n := not_mem_decimal (by decide)
  have h₁ : (13 : UInt8) ∉ ascii "HTTP/1.1 " ∧ (13 : UInt8) ∉ ascii " " ∧
      (13 : UInt8) ∉ ascii "Content-Length: " ∧ (13 : UInt8) ∉ ascii "Connection: Keep-Alive" ∧
      (13 : UInt8) ∉ ascii ": " := by decide +kernel
  intro l hl
  simp only [HttpResponse.headLines, List.cons_append, List.nil_append, List.mem_cons,
    List.mem_map] at hl
  rcases hl with rfl | rfl | rfl | ⟨header, hmem, rfl⟩
  · refine ⟨by simp [ascii], ?_⟩
    simp [hdecimal, h₁, hr.message.1]
  · refine ⟨by simp [ascii], ?_⟩
    simp [hdecimal, h₁]
  · exact ⟨by simp [ascii], h₁.2.2.2.1⟩
  · refine ⟨by simp [ascii], ?_⟩
    simp [h₁, (hr.name header hmem).1, (hr.value header hmem).1]

theorem mapM_map_eq {α β : Type} {f : α → β} {g : β → Option α} {xs : List α}
    (h : ∀ x ∈ xs, g (f x) = some x) : (xs.map f).mapM g = some xs := by
  induction xs with
  | nil => rfl
  | cons x xs ih =>
    rw [List.forall_mem_cons] at h
    rw [List.map_cons, List.mapM_cons, h.1, ih h.2]
    rfl

/-- **A response is found in front of anything.** -/
theorem decodeOne_pieces (hr : r.KeepsAlive) (hbody : r.body.length < 2 ^ 31) :
    decodeOne (r.pieces.flatten ++ t) = some (r.decoded, t) := by
  have hne : r.headLines ≠ [] := by simp [HttpResponse.headLines]
  have hheaders : (r.headers.map fun header => header.1 ++ ascii ": " ++ header.2).mapM
      decodeHeader = some r.headers :=
    mapM_map_eq fun header hmem => decodeHeader_eq (hr.name header hmem).2.2
  have hbytes : r.pieces.flatten ++ t =
      joinLines r.headLines ++ (crlf ++ crlf ++ (r.body ++ t)) := by
    simp only [pieces_eq hr hbody, List.append_assoc]
  have hdrop : (joinLines r.headLines ++ (crlf ++ crlf ++ (r.body ++ t))).drop
      ((joinLines r.headLines).length + 4) = r.body ++ t := by
    rw [← List.drop_drop, List.drop_left]
    rfl
  rw [hbytes, decodeOne, findBlankLine_joinLines hne hr.headLines]
  simp only [Option.bind_eq_bind, Option.bind_some, hdrop, List.take_left]
  rw [splitLines_joinLines hne fun l hl => (hr.headLines l hl).2]
  simp only [HttpResponse.headLines, List.cons_append, List.nil_append, decodeStatus_eq,
    decodeLength_eq, hheaders, Option.bind_some, List.length_append, Nat.le_add_right, if_true,
    List.take_left, List.drop_left]
  rfl

/-- All responses are found. -/
theorem decode_pieces (hrs : ∀ r ∈ rs, r.KeepsAlive ∧ r.body.length < 2 ^ 31) {fuel : ℕ}
    (hfuel : rs.length ≤ fuel) :
    decode fuel (rs.flatMap pieces).flatten = some (rs.map decoded) := by
  induction rs generalizing fuel with
  | nil => cases fuel <;> rfl
  | cons r rs ih =>
    rw [List.forall_mem_cons] at hrs
    cases fuel with
    | zero => simp at hfuel
    | succ fuel =>
      have hone := decodeOne_pieces (t := (rs.flatMap pieces).flatten) hrs.1.1 hrs.1.2
      have hrest := ih hrs.2 (Nat.le_of_succ_le_succ hfuel)
      rw [List.flatMap_cons, List.flatten_append]
      have hcons : r.pieces.flatten ++ (rs.flatMap pieces).flatten ≠ [] := fun hnil => by
        rw [hnil] at hone
        cases hone
      rw [decode]
      · rw [hone]
        simp only [Option.bind_eq_bind, Option.bind_some, hrest]
        rfl
      · exact hcons

/-! ### The buffer -/

/-- Pieces of less than `2 ^ 31` bytes together can all be appended. -/
theorem foldlM_append_of_lt {ps : List (List UInt8)} {b : Buffer} (hwf : b.Wf)
    (hlen : ps.flatten.length < 2 ^ 31) (hmax : b.buffer.length + ps.flatten.length ≤ Vec.maxSize) :
    ∃ b', ps.foldlM Buffer.append b = .ok b' := by
  induction ps generalizing b with
  | nil => exact ⟨b, rfl⟩
  | cons p ps ih =>
    rw [List.flatten_cons, List.length_append] at hlen hmax
    obtain ⟨b₁, happ, hsize⟩ : ∃ b₁, b.append p = .ok b₁ ∧ Buffer.SizeBound b b₁ p.length :=
      hwf.append_of_lt (by omega) (by omega)
    have hgrow := hsize.1
    obtain ⟨b', hrest⟩ := ih (hwf.append happ).1 (by omega) (by omega)
    exact ⟨b', by rw [List.foldlM_cons, happ]; exact hrest⟩

theorem foldlM_appendToBuffer (rs : List HttpResponse) (b : Buffer) :
    rs.foldlM (fun b r => r.appendToBuffer b) b = (rs.flatMap pieces).foldlM Buffer.append b := by
  induction rs generalizing b with
  | nil => rfl
  | cons r rs ih =>
    rw [List.foldlM_cons, List.flatMap_cons, List.foldlM_append]
    simp only [ih]
    rfl

/-- A response takes at least a byte, and its body. -/
theorem length_le_pieces (rs : List HttpResponse) :
    rs.length ≤ (rs.flatMap pieces).flatten.length ∧
      ∀ r ∈ rs, r.body.length ≤ (rs.flatMap pieces).flatten.length := by
  have hone (r : HttpResponse) : r.body.length + 1 ≤ r.pieces.flatten.length := by
    simp only [pieces, crlf, List.flatten_append, List.length_append, List.flatten_cons,
      List.length_cons]
    omega
  induction rs with
  | nil => simp
  | cons r rs ih =>
    have := hone r
    simp only [List.flatMap_cons, List.flatten_append, List.length_append, List.length_cons,
      List.forall_mem_cons]
    refine ⟨by omega, by omega, fun r' hr' => ?_⟩
    have := ih.2 r' hr'
    omega

/-- **Keep-alive responses are self-delimiting.**  The responses that are written into an empty
buffer are found again in its bytes, in order, and nothing else. -/
theorem decode_responses {b : Buffer} (hwf : b.Wf) (hnil : b.readable = [])
    (hmax : b.buffer.length + 2 ^ 31 ≤ Vec.maxSize) (hrs : ∀ r ∈ rs, r.KeepsAlive)
    (hsize : (rs.flatMap pieces).flatten.length < 2 ^ 31 - 8) :
    ∃ b', rs.foldlM (fun b r => r.appendToBuffer b) b = .ok b' ∧
      decode b'.readable.length b'.readable = some (rs.map decoded) := by
  obtain ⟨b', hok⟩ : ∃ b', (rs.flatMap pieces).foldlM Buffer.append b = .ok b' :=
    foldlM_append_of_lt hwf (by omega) (by omega)
  refine ⟨b', by rw [foldlM_appendToBuffer, hok], ?_⟩
  rw [(foldlM_append_eq_ok hwf hok).2, hnil, List.nil_append]
  obtain ⟨hfuel, hbody⟩ := length_le_pieces rs
  exact decode_pieces (fun r hr => ⟨hrs r hr, by have := hbody r hr; omega⟩) hfuel

/-- Two responses; the body of the first looks like the end of a head. -/
theorem decode_responses_blank : ∃ b',
    [⟨[(ascii "Server", ascii "Muduo")], .k200Ok, ascii "OK", false, crlf ++ crlf⟩,
      (new false).setStatusCode .k404NotFound].foldlM
        (fun b r => r.appendToBuffer b) Buffer.empty = .ok b' ∧
      decode b'.readable.length b'.readable = some
        [⟨200, ascii "OK", [(ascii "Server", ascii "Muduo")], crlf ++ crlf⟩,
          ⟨404, [], [], []⟩] := by
  refine decode_responses Buffer.wf_empty Buffer.readable_empty ?_ ?_ ?_
  · have hlength : Buffer.empty.buffer.length = 1032 := List.length_replicate
    rw [hlength]
    decide
  · intro r hr
    simp only [List.mem_cons, List.not_mem_nil, or_false] at hr
    rcases hr with rfl | rfl
    · exact ⟨rfl, by decide +kernel, by decide +kernel, by decide +kernel⟩
    · exact ⟨rfl, by decide, by decide, by decide⟩
  · decide +kernel

end HttpResponse

end TinyNetwork
