import TinyNetwork.LTS.Basic
import TinyNetwork.Net.Buffer

/-!
# `Buffer` is a byte queue

What a buffer is for: a queue of bytes, filled at the end by `append` and `readFd`, emptied at the
front by the `retrieve` family.  `Op.onQueue` is that queue, `Op.apply` calls the member function.
The buffer refines the queue as long as every length and the number of readable bytes stay below
`2 ^ 31 - 8`, where no `int` overflows.

## Main results

* `Buffer.refines_queue` : in every state a sequence of calls reaches, the indices are ordered,
  the readable bytes are the queue, and the next call has a result and acts on the queue.
-/

namespace TinyNetwork

namespace Buffer

open Lp64

/-- A call of a member function, with what the kernel returns to it. -/
inductive Op where
  | append (data : List UInt8)
  | retrieve (len : ℤ)
  /-- The argument is `peek() + off`. -/
  | retrieveUtil (off : ℕ)
  | retrieveAll
  | retrieveAsString (len : ℕ)
  | retrieveAllAsString
  | ensureWriteableBytes (len : ℕ)
  | readFd (r : ReadResult)
  deriving DecidableEq, Repr

namespace Op

/-- Call the member function; the second component is the string it returns, if it does. -/
def apply (b : Buffer) : Op → Except Fault (Buffer × List UInt8)
  | .append data => do return (← b.append data, [])
  | .retrieve len => .ok (b.retrieve len, [])
  | .retrieveUtil off => .ok (b.retrieveUtil off, [])
  | .retrieveAll => .ok (b.retrieveAll, [])
  | .retrieveAsString len => do
    let (res, b) ← b.retrieveAsString len
    return (b, res)
  | .retrieveAllAsString => do
    let (res, b) ← b.retrieveAllAsString
    return (b, res)
  | .ensureWriteableBytes len => do return (← b.ensureWriteableBytes len, [])
  | .readFd r => do
    let (_, _, b) ← b.readFd r
    return (b, [])

/-- The same call on a queue of bytes. -/
def onQueue (q : List UInt8) : Op → List UInt8 × List UInt8
  | .append data => (q ++ data, [])
  | .retrieve len => (q.drop (min len.toNat q.length), [])
  | .retrieveUtil off => (q.drop off, [])
  | .retrieveAll => ([], [])
  | .retrieveAsString len => (q.drop len, q.take len)
  | .retrieveAllAsString => ([], q)
  | .ensureWriteableBytes _ => (q, [])
  | .readFd (.data bytes) => (q ++ bytes, [])
  | .readFd (.error _) => (q, [])

/-- The largest size and length for which no `int` overflows. -/
def sizeLimit : ℕ := 2 ^ 31 - 8

/-- The arguments a caller may pass, and what the kernel may deliver. -/
def ArgsLegal (b : Buffer) : Op → Prop
  | .append data => data.length < sizeLimit
  | .retrieve len => 0 ≤ len ∧ len < sizeLimit
  | .retrieveUtil off => off ≤ b.readableBytes
  | .retrieveAsString len => len ≤ b.readableBytes
  | .ensureWriteableBytes len => len < sizeLimit
  | .readFd (.data bytes) => bytes.length ≤ b.iovCapacity
  | _ => True

/-- A call with legal arguments that keeps the number of queued bytes below the limit. -/
def Legal (b : Buffer) (op : Op) : Prop :=
  op.ArgsLegal b ∧ (op.onQueue b.readable).1.length < sizeLimit

/-- What a call promises beyond its effect on the queue. -/
def Post (b' : Buffer) : Op → Prop
  | .ensureWriteableBytes len => len ≤ b'.writeableBytes
  | _ => True

/-- Legal calls as a transition system. -/
def lts : LTS Buffer Op where
  step b op b' := op.Legal b ∧ ∃ res, op.apply b = .ok (b', res)

/-- The queue after a sequence of calls. -/
def queueAfter (q : List UInt8) (ops : List Op) : List UInt8 :=
  ops.foldl (fun q op => (op.onQueue q).1) q

theorem queueAfter_concat (q : List UInt8) (ops : List Op) (op : Op) :
    queueAfter q (ops ++ [op]) = (op.onQueue (queueAfter q ops)).1 := by
  simp [queueAfter]

/-- The invariant of a buffer under legal calls: well formed, below the limit, and with a storage
of a few times the limit at most, so that no vector outgrows its maximal size. -/
structure Inv (b : Buffer) : Prop where
  wf : b.Wf
  lt_limit : b.readableBytes < sizeLimit
  size_lt : b.buffer.length < 2 ^ 33

variable {b b' : Buffer} {op : Op}

theorem Inv.room (h : Inv b) {len : ℕ} (hlen : len < 2 ^ 31) :
    b.buffer.length + len ≤ Vec.maxSize := by
  have := h.size_lt
  unfold Vec.maxSize
  omega

theorem Inv.sizeBound (h : Inv b) {len : ℕ} (hlen : len < sizeLimit) (hb : SizeBound b b' len) :
    b'.buffer.length < 2 ^ 33 := by
  have := h.size_lt; have := h.lt_limit
  have := hb.2 (by unfold sizeLimit at hlen; unfold initialPrependSize; omega)
  unfold sizeLimit initialPrependSize at *
  omega

/-- The queue a call leaves behind is short enough for the invariant. -/
theorem Inv.of_onQueue {q' : List UInt8} (hwf : b'.Wf) (hread : b'.readable = q')
    (hlt : q'.length < sizeLimit) (hsize : b'.buffer.length < 2 ^ 33) : Inv b' :=
  ⟨hwf, by rw [← hwf.length_readable, hread]; exact hlt, hsize⟩

/-- Dropping bytes from the front through an `int` length. -/
theorem Inv.retrieve (h : Inv b) {n : ℕ} {len : ℤ} (hlen : toSize len = n) :
    (b.retrieve len).readable = b.readable.drop n ∧ Inv (b.retrieve len) := by
  have hread : (b.retrieve len).readable = b.readable.drop n := by
    rw [h.wf.readable_retrieve, hlen]
  refine ⟨hread, .of_onQueue (h.wf.retrieve len) hread ?_ ?_⟩
  · rw [List.length_drop, h.wf.length_readable]
    have := h.lt_limit
    omega
  · unfold Buffer.retrieve
    split_ifs
    · exact h.size_lt
    · exact h.size_lt

theorem Inv.append {data : List UInt8} (h : Inv b) (hlen : data.length < sizeLimit)
    (hlt : (b.readable ++ data).length < sizeLimit) :
    ∃ b', b.append data = .ok b' ∧ Inv b' ∧ b'.readable = b.readable ++ data := by
  have hlen' : data.length < 2 ^ 31 := by unfold sizeLimit at hlen; omega
  obtain ⟨b', hok, hb⟩ := h.wf.append_of_lt hlen' (h.room hlen')
  obtain ⟨hwf, hread⟩ := h.wf.append hok
  exact ⟨b', hok, .of_onQueue hwf hread hlt (h.sizeBound hlen hb), hread⟩

theorem Inv.readFd {bytes : List UInt8} (h : Inv b) (hcap : bytes.length ≤ b.iovCapacity)
    (hlt : (b.readable ++ bytes).length < sizeLimit) :
    ∃ b', b.readFd (.data bytes) = .ok (bytes.length, none, b') ∧ Inv b' ∧
      b'.readable = b.readable ++ bytes := by
  obtain ⟨b', hok, -, hsize⟩ := h.wf.readFd_of_le hcap (h.room (by decide))
  obtain ⟨-, -, hwf, hread⟩ := h.wf.readFd_data hok
  refine ⟨b', hok, .of_onQueue hwf hread hlt ?_, hread⟩
  rw [List.length_append, h.wf.length_readable] at hlt
  have := h.size_lt
  unfold sizeLimit at hlt
  unfold extrabufSize at hsize
  omega

/-- **One legal call**: it has a result, keeps the invariant and acts on the queue. -/
theorem Inv.step (h : Inv b) (hop : op.Legal b) :
    ∃ b' res, op.apply b = .ok (b', res) ∧ Inv b' ∧
      (b'.readable, res) = op.onQueue b.readable ∧ op.Post b' := by
  have hlimit := h.lt_limit
  have hlength := h.wf.length_readable
  obtain ⟨hargs, hlt⟩ := hop
  cases op with
  | append data =>
    obtain ⟨b', hok, hinv, hread⟩ := h.append hargs hlt
    exact ⟨b', [], bind_eq_ok.2 ⟨b', hok, rfl⟩, hinv, by rw [hread]; rfl, trivial⟩
  | retrieve len =>
    obtain ⟨hnonneg, hlen⟩ := hargs
    -- the argument is an `int`
    obtain ⟨n, rfl⟩ := Int.eq_ofNat_of_zero_le hnonneg
    obtain ⟨hread, hinv⟩ := h.retrieve (toSize_natCast (n := n) (by
      unfold sizeLimit at hlen; omega))
    refine ⟨_, [], rfl, hinv, ?_, trivial⟩
    rw [hread, onQueue, Int.toNat_natCast, ← List.drop_eq_drop_min]
  | retrieveUtil off =>
    have hoff : off < 2 ^ 31 := by
      simp only [ArgsLegal] at hargs; unfold sizeLimit at hlimit; omega
    obtain ⟨hread, hinv⟩ := h.retrieve (toSize_toInt_of_lt hoff)
    exact ⟨_, [], rfl, hinv, by rw [Buffer.retrieveUtil, hread]; rfl, trivial⟩
  | retrieveAll =>
    exact ⟨_, [], rfl, .of_onQueue h.wf.retrieveAll (readable_retrieveAll b) hlt h.size_lt,
      by rw [readable_retrieveAll]; rfl, trivial⟩
  | retrieveAsString len =>
    have hlen : len < 2 ^ 31 := by
      simp only [ArgsLegal] at hargs; unfold sizeLimit at hlimit; omega
    obtain ⟨hread, hinv⟩ := h.retrieve (toSize_toInt_of_lt hlen)
    exact ⟨_, _, bind_eq_ok.2 ⟨_, h.wf.retrieveAsString_of_le hargs, rfl⟩, hinv,
      by rw [hread]; rfl, trivial⟩
  | retrieveAllAsString =>
    have hlen : b.readableBytes < 2 ^ 31 := by unfold sizeLimit at hlimit; omega
    obtain ⟨hread, hinv⟩ := h.retrieve (toSize_toInt_of_lt hlen)
    refine ⟨_, _, bind_eq_ok.2 ⟨_, h.wf.retrieveAsString_of_le (Nat.le_refl _), rfl⟩, hinv,
      ?_, trivial⟩
    rw [hread, onQueue, ← hlength, List.drop_length, List.take_length]
  | ensureWriteableBytes len =>
    have hlen : len < 2 ^ 31 := by simp only [ArgsLegal, sizeLimit] at hargs; omega
    obtain ⟨b', hok, hwf, hread, hroom, hb⟩ :=
      h.wf.ensureWriteableBytes_of_lt hlen (h.room hlen)
    exact ⟨b', [], bind_eq_ok.2 ⟨b', hok, rfl⟩,
      .of_onQueue hwf hread hlt (h.sizeBound hargs hb), by rw [hread]; rfl, hroom⟩
  | readFd r =>
    cases r with
    | data bytes =>
      obtain ⟨b', hok, hinv, hread⟩ := h.readFd hargs hlt
      exact ⟨b', [], bind_eq_ok.2 ⟨_, hok, rfl⟩, hinv, by rw [hread]; rfl, trivial⟩
    | error e => exact ⟨b, [], rfl, h, rfl, trivial⟩

/-- The invariant and the correspondence with the queue along a sequence of calls. -/
theorem Inv.run {b₀ : Buffer} {tr : List (Buffer × Op)} (h₀ : Inv b₀)
    (hrun : lts.Run b₀ tr b) :
    Inv b ∧ b.readable = queueAfter b₀.readable (tr.map Prod.snd) := by
  induction hrun with
  | nil => exact ⟨h₀, rfl⟩
  | @snoc tr b b' op _ hst ih =>
    obtain ⟨hlegal, res, hok⟩ := hst
    obtain ⟨b₁, res₁, hok₁, hinv, hq, -⟩ := ih.1.step hlegal
    rw [hok] at hok₁
    cases hok₁
    refine ⟨hinv, ?_⟩
    rw [List.map_append, List.map_singleton, queueAfter_concat, ← ih.2]
    exact congrArg Prod.fst hq

theorem inv_ofSize {size : ℕ} (h : size < sizeLimit) :
    ∃ b, ofSize size = .ok b ∧ b.readable = [] ∧ Inv b := by
  unfold sizeLimit at h
  obtain ⟨b, hok, hwf, hread, hlen⟩ := @ofSize_of_lt size (by
    unfold initialPrependSize Vec.maxSize; omega)
  refine ⟨b, hok, hread, hwf, ?_, ?_⟩
  · rw [← hwf.length_readable, hread]; decide
  · rw [hlen]; unfold initialPrependSize; omega

end Op

/-- **A buffer is a byte queue.**  Whatever legal calls were made on a fresh buffer, the indices
are ordered, the readable bytes are those of the queue, and every further legal call has a result
(no copy leaves the storage), returns what the queue returns and leaves the queue's bytes. -/
theorem refines_queue {size : ℕ} (hsize : size < Op.sizeLimit) :
    ∃ b₀, ofSize size = .ok b₀ ∧ b₀.readable = [] ∧ ∀ tr b, Op.lts.Run b₀ tr b →
      (initialPrependSize ≤ b.readIndex ∧ b.readIndex ≤ b.writeIndex ∧
        b.writeIndex ≤ b.buffer.length) ∧
      b.readable = Op.queueAfter [] (tr.map Prod.snd) ∧
      ∀ op : Op, op.Legal b → ∃ b' res, op.apply b = .ok (b', res) ∧
        (b'.readable, res) = op.onQueue b.readable ∧ op.Post b' := by
  obtain ⟨b₀, hok, hread, hinv⟩ := Op.inv_ofSize hsize
  refine ⟨b₀, hok, hread, fun tr b hrun => ?_⟩
  obtain ⟨hinv, hq⟩ := hinv.run hrun
  refine ⟨⟨hinv.wf.prepend_le, hinv.wf.read_le, hinv.wf.write_le⟩, hread ▸ hq, fun op hop => ?_⟩
  obtain ⟨b', res, hok, -, hqueue, hpost⟩ := hinv.step hop
  exact ⟨b', res, hok, hqueue, hpost⟩

/-- The default size is a legal one. -/
theorem refines_queue_initialSize :
    ∃ b₀, ofSize initialSize = .ok b₀ ∧ b₀.readable = [] ∧ ∀ tr b, Op.lts.Run b₀ tr b →
      (initialPrependSize ≤ b.readIndex ∧ b.readIndex ≤ b.writeIndex ∧
        b.writeIndex ≤ b.buffer.length) ∧
      b.readable = Op.queueAfter [] (tr.map Prod.snd) ∧
      ∀ op : Op, op.Legal b → ∃ b' res, op.apply b = .ok (b', res) ∧
        (b'.readable, res) = op.onQueue b.readable ∧ op.Post b' :=
  refines_queue (by decide)

end Buffer

end TinyNetwork
