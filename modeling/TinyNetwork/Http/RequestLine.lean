import TinyNetwork.Http.HttpRequest
import TinyNetwork.Base.Vec

/-!
# The grammar of a request line

`processRequestLine` works on two pointers into the buffer.  `processRequestLineAt` follows it
pointer by pointer, through a memory in which only some addresses can be read; a read of any other
address is a fault.  It computes `HttpRequest.processRequestLine` of the bytes between the pointers,
and reads nothing else.

## Main results

* `processRequestLineAt_eq` : the function on pointers is the function on the line.
* `processRequestLine_iff` : what it accepts is `METHOD target HTTP/1.x`.
* `requestLine_grammar` : acceptance, the unique decomposition and what is stored, on pointers.
-/

namespace TinyNetwork

/-! ### Reading through pointers -/

/-- The bytes that can be read. -/
abbrev Memory := ℕ → Option UInt8

namespace Memory

variable (m : Memory)

/-- `*p`. -/
def load (p : ℕ) : Except Fault UInt8 :=
  match m p with
  | some b => .ok b
  | none => .error .outOfRange

/-- `std::find(p, p + n, b)`. -/
def find (b : UInt8) (p : ℕ) : ℕ → Except Fault ℕ
  | 0 => .ok p
  | n + 1 => do
    let x ← m.load p
    if x = b then return p else find b (p + 1) n

/-- The `std::string` of `[p, p + n)`. -/
def string (p : ℕ) : ℕ → Except Fault (List UInt8)
  | 0 => .ok []
  | n + 1 => do
    let x ← m.load p
    let rest ← string (p + 1) n
    return x :: rest

/-- `std::equal(p, p + n, s)`; the literal `s` is not read past its end. -/
def equal (p : ℕ) : ℕ → List UInt8 → Except Fault Bool
  | 0, _ => .ok true
  | _ + 1, [] => .error .outOfRange
  | n + 1, b :: s => do
    let x ← m.load p
    if x = b then equal (p + 1) n s else return false

/-- The bytes from `p` on are `l`. -/
def Holds (p : ℕ) (l : List UInt8) : Prop := ∀ i b, l[i]? = some b → m (p + i) = some b

/-- The memory that holds `l` from `p` on, and nothing else. -/
def only (p : ℕ) (l : List UInt8) : Memory := fun a => if p ≤ a then l[a - p]? else none

variable {m : Memory} {p : ℕ} {b : UInt8} {l l' : List UInt8}

theorem holds_only : (only p l).Holds p l := by
  intro i b hi
  rw [only, if_pos (Nat.le_add_right p i), Nat.add_sub_cancel_left, hi]

theorem Holds.tail (h : m.Holds p (b :: l)) : m.Holds (p + 1) l := by
  intro i b' hi
  rw [Nat.add_assoc, Nat.add_comm 1 i]
  exact h (i + 1) b' (by simpa using hi)

theorem Holds.load (h : m.Holds p (b :: l)) : m.load p = .ok b := by
  simp [Memory.load, show m p = some b from h 0 b rfl]

theorem Holds.take (h : m.Holds p l) (n : ℕ) : m.Holds p (l.take n) := by
  intro i b hi
  refine h i b ?_
  rw [List.getElem?_take] at hi
  split_ifs at hi
  exact hi

theorem Holds.drop (h : m.Holds p l) (n : ℕ) : m.Holds (p + n) (l.drop n) := by
  intro i b hi
  rw [Nat.add_assoc]
  exact h (n + i) b (by rwa [List.getElem?_drop] at hi)

theorem Holds.find (h : m.Holds p l) : m.find b p l.length = .ok (p + l.idxOf b) := by
  induction l generalizing p with
  | nil => rfl
  | cons x l ih =>
    rw [List.length_cons, Memory.find, h.load]
    show (if x = b then pure p else m.find b (p + 1) l.length) = _
    split_ifs with hx
    · rw [hx, List.idxOf_cons_self]
      rfl
    · rw [ih h.tail, List.idxOf_cons_ne _ hx, Nat.add_assoc, Nat.add_comm 1]

theorem Holds.string (h : m.Holds p l) : m.string p l.length = .ok l := by
  induction l generalizing p with
  | nil => rfl
  | cons x l ih =>
    rw [List.length_cons, Memory.string, h.load]
    show (m.string (p + 1) l.length >>= fun rest => pure (x :: rest)) = _
    rw [ih h.tail]
    rfl

theorem Holds.equal (h : m.Holds p l) (hlen : l.length = l'.length) :
    m.equal p l.length l' = .ok (l = l') := by
  induction l generalizing p l' with
  | nil =>
    obtain rfl := List.eq_nil_of_length_eq_zero hlen.symm
    rfl
  | cons x l ih =>
    cases l' with
    | nil => cases hlen
    | cons b l' =>
      rw [List.length_cons, Memory.equal, h.load]
      show (if x = b then m.equal (p + 1) l.length l' else pure false) = _
      split_ifs with hx
      · rw [ih h.tail (by simpa using hlen)]
        simp [hx]
      · simp [hx]
        rfl

end Memory

namespace HttpRequest

/-- `HttpContext::processRequestLine(begin, end)`, with the reads it makes. -/
def processRequestLineAt (m : Memory) (r : HttpRequest) (b e : ℕ) :
    Except Fault (Bool × HttpRequest) := do
  let start := b
  let space ← m.find 32 start (e - start)
  if space = e then return (false, r)
  else do
    let method ← m.string start (space - start)
    let (valid, r) := r.setMethod method
    if valid = false then return (false, r)
    else do
      let start := space + 1
      let space ← m.find 32 start (e - start)
      if space = e then return (false, r)
      else do
        let question ← m.find 63 start (space - start)
        let r ← (if question ≠ space then do
            let path ← m.string start (question - start)
            let query ← m.string question (space - question)
            return (r.setPath path).setQuery query
          else do
            let path ← m.string start (space - start)
            return r.setPath path : Except Fault HttpRequest)
        let start := space + 1
        if e - start = 8 then do
          let equal ← m.equal start (e - 1 - start) (ascii "HTTP/1.")
          if equal then do
            let last ← m.load (e - 1)
            if last = 49 then return (true, r.setVersion .kHttp11)
            else if last = 48 then return (true, r.setVersion .kHttp10)
            else return (false, r)
          else return (false, r)
        else return (false, r)

variable {m : Memory} {r : HttpRequest} {l : List UInt8} {p : ℕ}

theorem ok_bind {α β : Type} {a : α} {f : α → Except Fault β} : (Except.ok a >>= f) = f a := rfl

/-- Finding a byte in what the memory holds, between two pointers. -/
theorem find_sub (h : m.Holds p l) (b : UInt8) {e : ℕ} (he : e = p + l.length) :
    m.find b p (e - p) = .ok (p + l.idxOf b) := by
  rw [he, Nat.add_sub_cancel_left, h.find]

theorem string_sub (h : m.Holds p l) {n e : ℕ} (hn : n ≤ l.length) (he : e = p + n) :
    m.string p (e - p) = .ok (l.take n) := by
  have hread := (h.take n).string
  rw [he, Nat.add_sub_cancel_left]
  rwa [List.length_take_of_le hn] at hread

/-- The target of a request, which is cut at its first `?`. -/
theorem target_sub (h : m.Holds p l) {e : ℕ} (he : e = p + l.length) :
    (if p + l.idxOf 63 ≠ e then do
        let path ← m.string p (p + l.idxOf 63 - p)
        let query ← m.string (p + l.idxOf 63) (e - (p + l.idxOf 63))
        return (r.setPath path).setQuery query
      else do
        let path ← m.string p (e - p)
        return r.setPath path : Except Fault HttpRequest) =
      .ok (if l.idxOf 63 ≠ l.length then
        (r.setPath (l.take (l.idxOf 63))).setQuery (l.drop (l.idxOf 63))
        else r.setPath l) := by
  have hle := List.idxOf_le_length (l := l) (a := 63)
  have hall {n : ℕ} {l : List UInt8} {e : ℕ} (hl : m.Holds n l) (he : e = n + l.length) :
      m.string n (e - n) = .ok l := by
    rw [string_sub hl le_rfl he, List.take_length]
  by_cases hquestion : l.idxOf 63 = l.length
  · rw [if_neg (by omega), if_neg (not_not.2 hquestion), hall h he, ok_bind]
    rfl
  · rw [if_pos (by omega), if_pos hquestion, string_sub h hle rfl, ok_bind,
      hall (h.drop _) (by rw [List.length_drop]; omega), ok_bind]
    rfl

/-- The version, which is eight bytes. -/
theorem version_sub (h : m.Holds p l) :
    (if p + l.length - p = 8 then do
        let equal ← m.equal p (p + l.length - 1 - p) (ascii "HTTP/1.")
        if equal then do
          let last ← m.load (p + l.length - 1)
          if last = 49 then return (true, r.setVersion .kHttp11)
          else if last = 48 then return (true, r.setVersion .kHttp10)
          else return (false, r)
        else return (false, r)
      else return (false, r) : Except Fault (Bool × HttpRequest)) =
      .ok (if l.length = 8 ∧ l.take 7 = ascii "HTTP/1." then
        if l[7]? = some 49 then (true, r.setVersion .kHttp11)
        else if l[7]? = some 48 then (true, r.setVersion .kHttp10)
        else (false, r)
      else (false, r)) := by
  have hsub : p + l.length - p = l.length := by omega
  by_cases hlen8 : l.length = 8
  swap
  · simp only [hsub, hlen8, if_false, false_and]
    rfl
  have htake : (l.take 7).length = 7 := by
    rw [List.length_take, hlen8]
    rfl
  have hequal : m.equal p (p + l.length - 1 - p) (ascii "HTTP/1.") =
      .ok (l.take 7 = ascii "HTTP/1.") := by
    rw [show p + l.length - 1 - p = (l.take 7).length by omega]
    exact (h.take 7).equal htake
  obtain ⟨x, hx⟩ : ∃ x, l[7]? = some x := ⟨_, List.getElem?_eq_getElem (by omega)⟩
  have hlast : m.load (p + l.length - 1) = .ok x := by
    rw [hlen8]
    simp [Memory.load, show m (p + 7) = some x from h 7 x hx]
  rw [if_pos (by omega), hequal, ok_bind, hlast, ok_bind, hx]
  by_cases hhttp : l.take 7 = ascii "HTTP/1."
  · simp only [hhttp, decide_true, if_true, hlen8, true_and, Option.some.injEq]
    split_ifs <;> rfl
  · simp only [hhttp, decide_false, Bool.false_eq_true, if_false, and_false]
    rfl

/-- **The function on pointers is the function on the line** in every memory that holds it. -/
theorem processRequestLineAt_eq (h : m.Holds p l) :
    processRequestLineAt m r p (p + l.length) = .ok (r.processRequestLine l) := by
  have hle := List.idxOf_le_length (l := l) (a := 32)
  rw [processRequestLineAt, processRequestLine, find_sub h 32 rfl, ok_bind]
  by_cases hspace : l.idxOf 32 = l.length
  · simp only [hspace, if_true]
    rfl
  rw [if_neg hspace, if_neg (by omega), string_sub h hle rfl, ok_bind]
  simp only [setMethod]
  by_cases hmethod : methodOf (l.take (l.idxOf 32)) = .kInvalid
  · simp only [hmethod]
    rfl
  simp only [hmethod, ne_eq, not_false_eq_true, decide_true, Bool.true_eq_false, if_false]
  -- behind the first space
  generalize hr : ({ r with method := methodOf (l.take (l.idxOf 32)) } : HttpRequest) = r₁
  obtain ⟨rest, hrest⟩ : ∃ rest, rest = l.drop (l.idxOf 32 + 1) := ⟨_, rfl⟩
  obtain ⟨q, hq⟩ : ∃ q, q = p + l.idxOf 32 + 1 := ⟨_, rfl⟩
  have hlen : rest.length = l.length - (l.idxOf 32 + 1) := by rw [hrest, List.length_drop]
  have hm : m.Holds q rest := by
    rw [hq, hrest, Nat.add_assoc]
    exact h.drop _
  have hend : p + l.length = q + rest.length := by omega
  rw [← hrest, ← hq, hend, find_sub hm 32 rfl, ok_bind]
  have hle₁ := List.idxOf_le_length (l := rest) (a := 32)
  by_cases hspace₁ : rest.idxOf 32 = rest.length
  · simp only [hspace₁, if_true]
    rfl
  rw [if_neg hspace₁, if_neg (by omega)]
  -- the target, and what is behind the second space
  obtain ⟨target, htarget⟩ : ∃ target, target = rest.take (rest.idxOf 32) := ⟨_, rfl⟩
  obtain ⟨version, hversion⟩ : ∃ version, version = rest.drop (rest.idxOf 32 + 1) := ⟨_, rfl⟩
  have htlen : target.length = rest.idxOf 32 := by rw [htarget, List.length_take_of_le hle₁]
  have hmt : m.Holds q target := htarget ▸ hm.take _
  have hmv : m.Holds (q + rest.idxOf 32 + 1) version := by
    rw [hversion, Nat.add_assoc]
    exact hm.drop _
  have hvlen : q + rest.length = q + rest.idxOf 32 + 1 + version.length := by
    rw [hversion, List.length_drop]
    omega
  rw [← htarget, ← hversion, find_sub hmt 63 (by rw [htlen]), ok_bind]
  rw [target_sub hmt (by rw [htlen]), ok_bind, hvlen]
  exact version_sub hmv

/-! ### The grammar -/

/-- `l` is a request line with these parts: the name of a method, a target without a space, and a
version. -/
structure IsRequestLine (l : List UInt8) (method : Method) (target : List UInt8)
    (version : Version) : Prop where
  method_ne : method ≠ .kInvalid
  version_ne : version ≠ .kUnknown
  target_plain : 32 ∉ target
  eq : l = requestLine method target version

/-- A list is cut at the first occurrence of one of its elements. -/
theorem cut_idxOf {b : UInt8} (h : l.idxOf b ≠ l.length) :
    l = l.take (l.idxOf b) ++ b :: l.drop (l.idxOf b + 1) ∧ b ∉ l.take (l.idxOf b) := by
  have hlt : l.idxOf b < l.length := Nat.lt_of_le_of_ne List.idxOf_le_length h
  have hmem : b ∈ l := List.idxOf_lt_length_iff.1 hlt
  constructor
  · calc l = l.take (l.idxOf b) ++ l.drop (l.idxOf b) := (List.take_append_drop ..).symm
      _ = l.take (l.idxOf b) ++ b :: l.drop (l.idxOf b + 1) := by
        rw [List.drop_eq_getElem_cons hlt, List.getElem_idxOf hlt]
  · rw [List.mem_take_iff_idxOf_lt hmem]
    exact Nat.lt_irrefl _

/-- A string that ends in the digit of a version. -/
theorem version_string {s : List UInt8} {b : UInt8} (hlen : s.length = 8)
    (htake : s.take 7 = ascii "HTTP/1.") (hlast : s[7]? = some b) :
    s = ascii "HTTP/1." ++ [b] := by
  have hdrop : s.drop 7 = [b] := by
    rw [List.drop_eq_getElem_cons (by omega), List.drop_of_length_le (by omega),
      (List.getElem_eq_iff _).2 hlast]
  rw [← List.take_append_drop 7 s, htake, hdrop]

/-- **What is accepted is a request line.** -/
theorem processRequestLine_iff :
    (r.processRequestLine l).1 = true ↔ ∃ method target version,
      IsRequestLine l method target version := by
  constructor
  · intro h
    rw [processRequestLine] at h
    by_cases hspace : l.idxOf 32 = l.length
    · simp [hspace] at h
    by_cases hmethod : methodOf (l.take (l.idxOf 32)) = .kInvalid
    · simp [hspace, setMethod, hmethod] at h
    obtain ⟨hl, -⟩ := cut_idxOf hspace
    simp only [hspace, setMethod, hmethod, if_false, ne_eq, not_false_eq_true, decide_true,
      Bool.true_eq_false] at h
    generalize l.drop (l.idxOf 32 + 1) = rest at hl h
    by_cases hspace₁ : rest.idxOf 32 = rest.length
    · simp [hspace₁] at h
    obtain ⟨hrest, htarget⟩ := cut_idxOf hspace₁
    rw [if_neg hspace₁] at h
    generalize rest.drop (rest.idxOf 32 + 1) = version at hrest h
    generalize rest.take (rest.idxOf 32) = target at hrest htarget h
    by_cases hhttp : version.length = 8 ∧ version.take 7 = ascii "HTTP/1."
    swap
    · simp [hhttp] at h
    have hline (v : Version) (hv : v ≠ .kUnknown) (hversion : version = v.string) :
        IsRequestLine l (methodOf (l.take (l.idxOf 32))) target v :=
      ⟨hmethod, hv, htarget, by
        rw [requestLine, string_methodOf hmethod, ← hversion, ← hrest, ← hl]⟩
    rw [if_pos hhttp] at h
    by_cases h1 : version[7]? = some 49
    · exact ⟨_, _, _, hline .kHttp11 Version.kHttp11_ne (version_string hhttp.1 hhttp.2 h1)⟩
    by_cases h0 : version[7]? = some 48
    · exact ⟨_, _, _, hline .kHttp10 (by decide) (version_string hhttp.1 hhttp.2 h0)⟩
    · simp [h1, h0] at h
  · rintro ⟨method, target, version, hm, hv, ht, rfl⟩
    rw [processRequestLine_requestLine hm hv ht]

/-- What stands in front of the first occurrence of a byte is determined. -/
theorem append_cons_inj {b : UInt8} {xs xs' ys ys' : List UInt8} (h : b ∉ xs) (h' : b ∉ xs')
    (heq : xs ++ b :: ys = xs' ++ b :: ys') : xs = xs' ∧ ys = ys' := by
  have hlen := congrArg (List.idxOf b) heq
  rw [idxOf_append_cons h, idxOf_append_cons h'] at hlen
  obtain ⟨hxs, hys⟩ := List.append_inj heq hlen
  exact ⟨hxs, (List.cons.inj hys).2⟩

/-- The parts of a request line are determined. -/
theorem IsRequestLine.unique {method method' : Method} {target target' : List UInt8}
    {version version' : Version} (h : IsRequestLine l method target version)
    (h' : IsRequestLine l method' target' version') :
    method' = method ∧ target' = target ∧ version' = version := by
  have hplain (m : Method) : (32 : UInt8) ∉ m.string := fun hmem => (m.string_plain _ hmem).1 rfl
  obtain ⟨hmethod, hrest⟩ :=
    append_cons_inj (hplain method') (hplain method) (h'.eq.symm.trans h.eq)
  obtain ⟨htarget, hversion⟩ := append_cons_inj h'.target_plain h.target_plain hrest
  refine ⟨?_, htarget, ?_⟩
  · rw [← methodOf_string method', hmethod, methodOf_string]
  · have := h.version_ne
    have := h'.version_ne
    cases version <;> cases version' <;> first | rfl | contradiction

theorem idxOf_eq_findIdx (b : UInt8) (l : List UInt8) :
    l.idxOf b = l.findIdx fun x => !decide (x ≠ b) := by
  rw [List.idxOf]
  congr
  funext x
  simp only [ne_eq, decide_not, Bool.not_not]
  rfl

theorem take_idxOf (b : UInt8) (l : List UInt8) : l.take (l.idxOf b) = l.takeWhile (· ≠ b) := by
  rw [List.takeWhile_eq_take_findIdx_not, idxOf_eq_findIdx]

theorem drop_idxOf (b : UInt8) (l : List UInt8) : l.drop (l.idxOf b) = l.dropWhile (· ≠ b) := by
  rw [List.dropWhile_eq_drop_findIdx_not, idxOf_eq_findIdx]

/-- The target is cut at its first `?`. -/
theorem ofLine_target {target : List UInt8} {method : Method} {version : Version} :
    (HttpRequest.new.ofLine method target version).path = target.takeWhile (· ≠ 63) ∧
      (HttpRequest.new.ofLine method target version).query = target.dropWhile (· ≠ 63) := by
  refine ⟨take_idxOf 63 target, ?_⟩
  by_cases hmem : 63 ∈ target
  · rw [ofLine, if_pos hmem, drop_idxOf]
  · rw [ofLine, if_neg hmem, ← drop_idxOf, List.idxOf_eq_length_iff.2 hmem, List.drop_length]
    rfl

/-- **The request line accepts exactly its grammar.**  In every memory that holds the line `l` at
`p`, and possibly nothing else, `processRequestLine` has a result.  It succeeds iff `l` is a request
line; then the parts of `l` are determined, and the request holds them, with the target cut at its
first `?`. -/
theorem requestLine_grammar (h : m.Holds p l) :
    ∃ ok r, processRequestLineAt m .new p (p + l.length) = .ok (ok, r) ∧
      (ok = true ↔ ∃ method target version, IsRequestLine l method target version) ∧
      ∀ method target version, IsRequestLine l method target version →
        (∀ method' target' version', IsRequestLine l method' target' version' →
          method' = method ∧ target' = target ∧ version' = version) ∧
        r.method = method ∧ r.version = version ∧ r.path = target.takeWhile (· ≠ 63) ∧
        r.query = target.dropWhile (· ≠ 63) ∧ r.path ++ r.query = target := by
  refine ⟨(HttpRequest.new.processRequestLine l).1, (HttpRequest.new.processRequestLine l).2,
    processRequestLineAt_eq h, processRequestLine_iff, ?_⟩
  intro method target version hline
  obtain ⟨hpath, hquery⟩ := @ofLine_target target method version
  rw [hline.eq, processRequestLine_requestLine hline.method_ne hline.version_ne hline.target_plain]
  exact ⟨fun _ _ _ hline' => (hline.eq ▸ hline).unique hline', rfl, rfl, hpath, hquery, by
    rw [hpath, hquery, List.takeWhile_append_dropWhile]⟩

theorem requestLine_grammar_get : ∃ r,
    processRequestLineAt (.only 5 (ascii "GET /a?b HTTP/1.1")) .new 5 22 = .ok (true, r) ∧
      r.method = .kGet ∧ r.version = .kHttp11 ∧ r.path = ascii "/a" ∧ r.query = ascii "?b" := by
  have hline : IsRequestLine (ascii "GET /a?b HTTP/1.1") .kGet (ascii "/a?b") .kHttp11 :=
    ⟨Method.kGet_ne, Version.kHttp11_ne, by decide +kernel, by decide +kernel⟩
  obtain ⟨ok, r, hrun, hok, hparts⟩ := requestLine_grammar
    (Memory.holds_only (p := 5) (l := ascii "GET /a?b HTTP/1.1"))
  obtain ⟨-, hmethod, hversion, hpath, hquery, -⟩ := hparts _ _ _ hline
  obtain rfl := hok.2 ⟨_, _, _, hline⟩
  exact ⟨r, hrun, hmethod, hversion, hpath.trans (by decide +kernel),
    hquery.trans (by decide +kernel)⟩

end HttpRequest

end TinyNetwork
