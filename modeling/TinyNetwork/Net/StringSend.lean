import TinyNetwork.Net.EventLoop
import TinyNetwork.Net.Interest

/-!
# Sending a string from another thread

`send(Buffer *)` binds a copy of the message to the functor it queues; `send(const std::string &)`
binds the address and the length of the caller's string.  `StringSend.lts owner` interleaves the
loop thread with other threads that call both overloads and, after a call has returned, assign to
their strings or discard them.  The memory behind a string is a cell; reading a discarded cell, or
behind its end, is undefined.

`sendInLoop` reads its argument twice, in `::write` and in `append`; other threads may run between
the two.

## Main results

* `StringSend.Inv.step` : what is bound stays what was sent, if no assignment changes it.
* `StringSend.carried` : every `sendInLoop` works on the contents of its call.
-/

namespace TinyNetwork

open TcpConnection

namespace StringSend

/-- The arguments a functor is bound to. -/
inductive Bound (N : Type*) where
  /-- `sendInLoop(const void *, size_t)`: `c_str()` and `size()` of the string in a cell. -/
  | pointer (data : N) (len : ℕ)
  /-- `sendInLoop(const std::string &)`: the message itself. -/
  | message (message : List UInt8)
  /-- Any other functor. -/
  | other

/-- A functor in the queue, with the contents its caller sent. -/
abbrev Job (N : Type*) := Bound N × List UInt8

/-- For every cell, the bytes stored in it, as long as there is a string. -/
abbrev Memory (N : Type*) := N → Option (List UInt8)

namespace Bound

variable {N : Type*}

def IsSend : Bound N → Prop
  | .other => False
  | _ => True

def IsMessage : Bound N → Prop
  | .message _ => True
  | _ => False

/-- The bytes from `data` on that `sendInLoop` reads. -/
def read (memory : Memory N) : Bound N → Option (List UInt8)
  | .pointer data len =>
    (memory data).bind fun bytes => if len ≤ bytes.length then some (bytes.take len) else none
  | .message bytes => some bytes
  | .other => none

/-- The argument `len` of `sendInLoop`. -/
def len : Bound N → ℕ
  | .pointer _ len => len
  | .message bytes => bytes.length
  | .other => 0

end Bound

/-- A `sendInLoop` between its `::write` and its `append`; the connection before it and the result
of the `::write` are kept for the history. -/
structure Sending (N : Type*) where
  job : Job N
  nwrote : ℕ
  before : TcpConnection
  w : WriteResult

/-- A `sendInLoop` that has returned. -/
structure Done (N : Type*) where
  job : Job N
  before : TcpConnection
  w : WriteResult
  after : TcpConnection

/-- The loop, the connection and the strings of the other threads. -/
structure State (T N : Type*) where
  loop : EventLoop.State T (Job N)
  conn : TcpConnection
  memory : Memory N
  /-- For every other thread, the functor its call is about to queue. -/
  call : T → Option (Job N)
  sending : Option (Sending N)
  done : List (Done N)
  /-- The functors that have read what is undefined. -/
  undefined : List (Job N)

/-- The steps of the threads. -/
inductive Act (T N : Type*) where
  | loop (a : EventLoop.Act T (Job N))
  | startSend (w : WriteResult)
  | append
  | event (e : Event)
  | beginSend (t : T) (buf : N)
  | beginSendBuffer (t : T) (buf : Buffer)
  | endSend (t : T)
  /-- An assignment to the string in a cell, or its end. -/
  | assign (t : T) (buf : N) (bytes : Option (List UInt8))

section Lts

variable {T N : Type*}

/-- The loop actions that neither queue nor start a `sendInLoop`. -/
def Plain : EventLoop.Act T (Job N) → Prop
  | .queueInLoop _ job | .runInLoop _ job | .startFunctor job => ¬ job.1.IsSend
  | _ => True

/-- `sendInLoop` calls `::write`. -/
def WritesFirst (c : TcpConnection) : Prop :=
  c.channel.isWriting = false ∧ c.outputBuffer.readableBytes = 0

variable [DecidableEq T] [DecidableEq N] (owner : N → T)

/-- The steps of the threads; `owner` tells whose string is in a cell. -/
inductive Step (s : State T N) : Act T N → State T N → Prop
  | loop {a loop} (ha : Plain a) (hend : a = .endFunctor → s.sending = none)
      (h : EventLoop.Step s.loop a loop) : Step s (.loop a) { s with loop }
  | giveUp {job w loop} (hsending : s.sending = none)
      (h : EventLoop.Step s.loop (.startFunctor job) loop) (hsend : job.1.IsSend)
      (hstate : s.conn.state = .kDisconnected) :
      Step s (.startSend w) { s with loop, done := s.done ++ [⟨job, s.conn, w, s.conn⟩] }
  /-- The bytes are only read if `::write` is called. -/
  | write {job w loop data conn nwrote faultError queued} (hsending : s.sending = none)
      (h : EventLoop.Step s.loop (.startFunctor job) loop)
      (hsend : job.1.IsSend) (hstate : s.conn.state ≠ .kDisconnected)
      (hlen : data.length = job.1.len) (hlegal : w.Legal data.length)
      (hread : WritesFirst s.conn → job.1.read s.memory = some data)
      (hconn : s.conn.writeFirst data w = (conn, nwrote, faultError, queued)) :
      Step s (.startSend w) (if !faultError && 0 < (data.drop nwrote).length
        then { s with loop, conn, sending := some ⟨job, nwrote, s.conn, w⟩ }
        else { s with loop, conn, done := s.done ++ [⟨job, s.conn, w, conn⟩] })
  | writeUndefined {job w loop} (hsending : s.sending = none)
      (h : EventLoop.Step s.loop (.startFunctor job) loop) (hsend : job.1.IsSend)
      (hstate : s.conn.state ≠ .kDisconnected)
      (hwrites : WritesFirst s.conn) (hread : job.1.read s.memory = none) :
      Step s (.startSend w) { s with loop, undefined := s.undefined ++ [job] }
  | append {r data conn effects} (hsending : s.sending = some r)
      (hread : r.job.1.read s.memory = some data)
      (hconn : s.conn.bufferRest (data.drop r.nwrote) = .ok (conn, effects)) :
      Step s .append { s with
        conn
        sending := none
        done := s.done ++ [⟨r.job, r.before, r.w, conn⟩] }
  | appendUndefined {r} (hsending : s.sending = some r)
      (hread : r.job.1.read s.memory = none) :
      Step s .append { s with sending := none, undefined := s.undefined ++ [r.job] }
  | event {e conn effects} (hready : s.loop.pc.RunsCallback) (hcall : s.loop.call none = .idle)
      (hsending : s.sending = none) (hlegal : e.Legal s.conn)
      (hconn : s.conn.handle e = .ok (conn, effects)) : Step s (.event e) { s with conn }
  /-- The string may have room behind its contents. -/
  | beginSend {t buf bytes contents} (howner : owner buf = t) (hcall : s.call t = none)
      (hloop : s.loop.call (some t) = .idle) (hstate : s.conn.state = .kConnected)
      (hbytes : s.memory buf = some bytes) (hcontents : contents <+: bytes) :
      Step s (.beginSend t buf) { s with
        call := Function.update s.call t (some (.pointer buf contents.length, contents)) }
  | beginSendBuffer {t buf message buf'} (hcall : s.call t = none)
      (hloop : s.loop.call (some t) = .idle) (hstate : s.conn.state = .kConnected) (hbuf : buf.Wf)
      (hread : buf.retrieveAllAsString = .ok (message, buf')) :
      Step s (.beginSendBuffer t buf) { s with
        call := Function.update s.call t (some (.message message, buf.readable)) }
  | endSend {t job loop} (hcall : s.call t = some job)
      (h : EventLoop.Step s.loop (.runInLoop (some t) job) loop) :
      Step s (.endSend t) { s with loop, call := Function.update s.call t none }
  | assign {t buf bytes} (howner : owner buf = t) (hcall : s.call t = none)
      (hloop : s.loop.call (some t) = .idle) :
      Step s (.assign t buf bytes) { s with memory := Function.update s.memory buf bytes }

/-- The loop, the connection and the other threads with their strings. -/
def lts : LTS (State T N) (Act T N) where
  step := Step owner

end Lts

variable {T N : Type*}

/-- The functors whose arguments are still to be read. -/
def State.bound (s : State T N) : List (Job N) :=
  s.loop.queue ++ (s.sending.map Sending.job).toList

/-- The assignment changes nothing that a functor of the kind `P` is still to read. -/
def Respects [DecidableEq N] (P : Bound N → Prop) (s : State T N) : Act T N → Prop
  | .assign _ buf bytes => ∀ job ∈ s.bound, P job.1 →
      job.1.read (Function.update s.memory buf bytes) = job.1.read s.memory
  | _ => True

/-- Every `sendInLoop` of the kind `P` that has returned did to the connection what it does with the
contents of its call, and none has read what is undefined. -/
structure Carried (P : Bound N → Prop) (s : State T N) : Prop where
  done : ∀ d ∈ s.done, P d.job.1 → ∃ es, d.before.sendInLoop d.job.2 d.w = .ok (d.after, es)
  defined : ∀ job ∈ s.undefined, ¬ P job.1

/-! ### What is bound -/

section Loop

variable [DecidableEq T] {loop loop' : EventLoop.State T (Job N)} {job : Job N}

/-- A step of the loop alone queues no `sendInLoop`. -/
theorem mem_queue_plain {a : EventLoop.Act T (Job N)} (ha : Plain a)
    (h : EventLoop.Step loop a loop') (hsend : job.1.IsSend) (hmem : job ∈ loop'.queue) :
    job ∈ loop.queue := by
  have hq : job ∈ loop.queue ++ a.pushed := by
    rw [EventLoop.step_queue h]
    exact List.mem_append_right _ hmem
  rcases List.mem_append.1 hq with hq | hpush
  · exact hq
  · cases a with
    | queueInLoop t job' =>
      obtain rfl := List.mem_singleton.1 hpush
      exact absurd hsend ha
    | runInLoop t job' =>
      simp only [EventLoop.Act.pushed] at hpush
      split_ifs at hpush
      · cases hpush
      · obtain rfl := List.mem_singleton.1 hpush
        exact absurd hsend ha
    | _ => cases hpush

/-- A functor that starts was queued, and the others stay queued. -/
theorem mem_queue_start {job' : Job N} (h : EventLoop.Step loop (.startFunctor job) loop')
    (hmem : job' = job ∨ job' ∈ loop'.queue) : job' ∈ loop.queue := by
  have hq := EventLoop.step_queue h
  simp only [EventLoop.Act.pushed, EventLoop.Act.started, List.append_nil] at hq
  rw [hq]
  exact List.mem_cons.2 hmem

/-- A call of another thread queues its functor. -/
theorem mem_queue_push {t : T} {job' : Job N}
    (h : EventLoop.Step loop (.runInLoop (some t) job) loop') (hmem : job' ∈ loop'.queue) :
    job' ∈ loop.queue ∨ job' = job := by
  have hq : loop.queue ++ [job] = loop'.queue := EventLoop.step_queue h
  rw [← hq, List.mem_append, List.mem_singleton] at hmem
  exact hmem

end Loop

/-! ### One call of `sendInLoop` -/

section SendInLoop

variable {c c' : TcpConnection} {data data' : List UInt8} {w : WriteResult} {nwrote : ℕ}
  {faultError : Bool} {queued es : List Effect}

/-- The bytes do not matter if `::write` is not called. -/
theorem writeFirst_eq (h : WritesFirst c → data = data') :
    c.writeFirst data w = c.writeFirst data' w := by
  by_cases hwrites : WritesFirst c
  · rw [h hwrites]
  · have hfirst : ¬ (!c.channel.isWriting && c.outputBuffer.readableBytes == 0) = true := by
      simpa [WritesFirst] using hwrites
    unfold writeFirst
    rw [if_neg hfirst, if_neg hfirst]

theorem sendInLoop_of_writeFirst (hstate : c.state ≠ .kDisconnected)
    (hconn : c.writeFirst data w = (c', nwrote, faultError, queued))
    (hrest : ¬ (!faultError && 0 < (data.drop nwrote).length) = true) :
    c.sendInLoop data w = .ok (c', queued) := by
  rw [sendInLoop, if_neg hstate, hconn]
  exact if_neg hrest

theorem sendInLoop_of_bufferRest {c'' : TcpConnection} (hstate : c.state ≠ .kDisconnected)
    (hconn : c.writeFirst data w = (c', nwrote, faultError, queued))
    (hrest : (!faultError && 0 < (data.drop nwrote).length) = true)
    (hbuffer : c'.bufferRest (data.drop nwrote) = .ok (c'', es)) :
    c.sendInLoop data w = .ok (c'', queued ++ es) := by
  rw [sendInLoop, if_neg hstate, hconn]
  simp only [hrest, if_true]
  rw [hbuffer]
  rfl

end SendInLoop

/-- The message of `send(Buffer *)`. -/
theorem retrieveAllAsString_eq {buf : Buffer} (h : buf.Wf) :
    buf.retrieveAllAsString =
      .ok (buf.readable, buf.retrieve (Lp64.toInt buf.readableBytes)) := by
  rw [Buffer.retrieveAllAsString, h.retrieveAsString_of_le (Nat.le_refl _), ← h.length_readable,
    List.take_length]

/-! ### The invariant -/

/-- What is bound to the functors of the kind `P` is what was sent. -/
structure Inv (owner : N → T) (P : Bound N → Prop) (s : State T N) : Prop where
  bound : ∀ job ∈ s.bound, P job.1 → job.1.read s.memory = some job.2
  call : ∀ t job, s.call t = some job → job.1.read s.memory = some job.2 ∧
    ∀ data len, job.1 = .pointer data len → owner data = t
  sending : ∀ r, s.sending = some r → r.before.state ≠ .kDisconnected ∧
    (P r.job.1 → ∃ faultError queued,
      r.before.writeFirst r.job.2 r.w = (s.conn, r.nwrote, faultError, queued) ∧
        (!faultError && 0 < (r.job.2.drop r.nwrote).length) = true)
  carried : Carried P s

theorem length_of_read {bound : Bound N} {memory : Memory N} {bytes : List UInt8}
    (h : bound.read memory = some bytes) : bytes.length = bound.len := by
  cases bound with
  | pointer data len =>
    obtain ⟨block, -, hif⟩ := Option.bind_eq_some_iff.1 h
    split_ifs at hif with hlen
    cases hif
    exact List.length_take_of_le hlen
  | message => cases h; rfl
  | other => cases h

/-- An assignment to another string. -/
theorem read_update_of_ne [DecidableEq N] {bound : Bound N} {memory : Memory N} {buf : N}
    {bytes : Option (List UInt8)} (h : ∀ data len, bound = .pointer data len → data ≠ buf) :
    bound.read (Function.update memory buf bytes) = bound.read memory := by
  cases bound with
  | pointer data len => simp only [Bound.read, Function.update_of_ne (h data len rfl)]
  | message | other => rfl

section Step

variable {owner : N → T} {P : Bound N → Prop} {s s' : State T N}

/-- A `sendInLoop` has returned. -/
theorem Carried.returned (hI : Carried P s) {d : Done N}
    (hd : P d.job.1 → ∃ es, d.before.sendInLoop d.job.2 d.w = .ok (d.after, es))
    {loop : EventLoop.State T (Job N)} {conn : TcpConnection} {sending : Option (Sending N)} :
    Carried P { s with loop, conn, sending, done := s.done ++ [d] } := by
  refine ⟨fun d' hmem hP => ?_, hI.defined⟩
  rcases List.mem_append.1 hmem with hmem | hmem
  · exact hI.done d' hmem hP
  · obtain rfl := List.mem_singleton.1 hmem
    exact hd hP

theorem Carried.read_undefined (hI : Carried P s) {job : Job N} (hjob : ¬ P job.1)
    {loop : EventLoop.State T (Job N)} {sending : Option (Sending N)} :
    Carried P { s with loop, sending, undefined := s.undefined ++ [job] } := by
  refine ⟨hI.done, fun job' hmem => ?_⟩
  rcases List.mem_append.1 hmem with hmem | hmem
  · exact hI.defined job' hmem
  · obtain rfl := List.mem_singleton.1 hmem
    exact hjob

/-- What is bound when a functor has started was bound before. -/
theorem Inv.bound_start [DecidableEq T] (hI : Inv owner P s) {job : Job N}
    {loop : EventLoop.State T (Job N)} (h : EventLoop.Step s.loop (.startFunctor job) loop) :
    ∀ job' ∈ loop.queue ++ (s.sending.map Sending.job).toList,
      P job'.1 → job'.1.read s.memory = some job'.2 := by
  intro job' hmem
  rcases List.mem_append.1 hmem with hmem | hmem
  · exact hI.bound job' (List.mem_append_left _ (mem_queue_start h (.inr hmem)))
  · exact hI.bound job' (List.mem_append_right _ hmem)

/-- `sendInLoop` up to the buffering of the rest.  The bytes that are not read do not matter, and
their number is right. -/
theorem Inv.write [DecidableEq T] {job : Job N} {w : WriteResult}
    {loop : EventLoop.State T (Job N)} {data : List UInt8} {conn : TcpConnection} {nwrote : ℕ}
    {faultError : Bool} {queued : List Effect} (hI : Inv owner P s) (hsending : s.sending = none)
    (h : EventLoop.Step s.loop (.startFunctor job) loop) (hstate : s.conn.state ≠ .kDisconnected)
    (hlen : data.length = job.1.len) (hread : WritesFirst s.conn → job.1.read s.memory = some data)
    (hconn : s.conn.writeFirst data w = (conn, nwrote, faultError, queued)) :
    Inv owner P (if !faultError && 0 < (data.drop nwrote).length
      then { s with loop, conn, sending := some ⟨job, nwrote, s.conn, w⟩ }
      else { s with loop, conn, done := s.done ++ [⟨job, s.conn, w, conn⟩] }) := by
  have hstarted : P job.1 → job.1.read s.memory = some job.2 :=
    hI.bound job (List.mem_append_left _ (mem_queue_start h (.inl rfl)))
  -- the bytes that are read are the ones that were bound
  have hfirst (hjob : P job.1) : s.conn.writeFirst job.2 w = (conn, nwrote, faultError, queued) ∧
      job.2.length = data.length := by
    refine ⟨?_, (length_of_read (hstarted hjob)).trans hlen.symm⟩
    rw [← hconn]
    refine writeFirst_eq fun hwrites => ?_
    exact Option.some.inj ((hstarted hjob).symm.trans (hread hwrites))
  have hrest (hjob : P job.1) : (job.2.drop nwrote).length = (data.drop nwrote).length := by
    rw [List.length_drop, List.length_drop, (hfirst hjob).2]
  -- some bytes are left for the buffer, or `sendInLoop` has returned
  split_ifs with hif
  · refine ⟨fun job' hmem hjob => ?_, hI.call, fun r hr => ?_, ⟨hI.carried.done,
      hI.carried.defined⟩⟩
    · rcases List.mem_append.1 hmem with hmem | hmem
      · exact hI.bound_start h job' (List.mem_append_left _ hmem) hjob
      · obtain rfl := List.mem_singleton.1 hmem
        exact hstarted hjob
    · cases hr
      refine ⟨hstate, fun hjob => ⟨faultError, queued, (hfirst hjob).1, ?_⟩⟩
      rw [hrest hjob]
      exact hif
  · refine ⟨hI.bound_start h, hI.call, fun r hr => ?_, hI.carried.returned fun hjob => ?_⟩
    · cases hsending.symm.trans hr
    · refine ⟨queued, sendInLoop_of_writeFirst hstate (hfirst hjob).1 ?_⟩
      rw [hrest hjob]
      exact hif

/-- **One step of any thread keeps what is bound**, unless it assigns to a string that a functor
is still to read. -/
theorem Inv.step [DecidableEq T] [DecidableEq N] {a : Act T N} (hP : ∀ b, P b → b.IsSend)
    (hI : Inv owner P s) (hrespects : Respects P s a) (h : Step owner s a s') :
    Inv owner P s' := by
  have hqueue : ∀ job ∈ s.loop.queue, P job.1 → job.1.read s.memory = some job.2 :=
    fun job hmem => hI.bound job (List.mem_append_left _ hmem)
  cases h with
  | @loop a loop ha hend h =>
    refine ⟨fun job hmem hjob => ?_, hI.call, hI.sending, ⟨hI.carried.done, hI.carried.defined⟩⟩
    rcases List.mem_append.1 hmem with hmem | hmem
    · exact hqueue job (mem_queue_plain ha h (hP _ hjob) hmem) hjob
    · exact hI.bound job (List.mem_append_right _ hmem) hjob
  | giveUp hsending h hsend hstate =>
    refine ⟨hI.bound_start h, hI.call, hI.sending, hI.carried.returned fun _ => ?_⟩
    exact ⟨[], by rw [sendInLoop, if_pos hstate]⟩
  | write hsending h hsend hstate hlen hlegal hread hconn =>
    exact hI.write hsending h hstate hlen hread hconn
  | @writeUndefined job w loop hsending h hsend hstate hwrites hread =>
    refine ⟨hI.bound_start h, hI.call, hI.sending, hI.carried.read_undefined fun hjob => ?_⟩
    -- what is bound can be read
    cases hread.symm.trans (hqueue job (mem_queue_start h (.inl rfl)) hjob)
  | @append r data conn effects hsending hread hconn =>
    have hmem : r.job ∈ s.bound := List.mem_append_right _ (by simp [hsending])
    refine ⟨fun job' hmem hjob => ?_, hI.call, fun r hr => (by cases hr),
      hI.carried.returned fun hjob => ?_⟩
    · simp only [State.bound, Option.map_none, Option.toList_none, List.append_nil] at hmem
      exact hqueue job' hmem hjob
    · -- the second read of the string gives the bytes of the first
      obtain ⟨hstate, hfirst⟩ := hI.sending r hsending
      obtain ⟨faultError, queued, hwrite, hrest⟩ := hfirst hjob
      rw [← Option.some.inj ((hI.bound r.job hmem hjob).symm.trans hread)] at hconn
      exact ⟨_, sendInLoop_of_bufferRest hstate hwrite hrest hconn⟩
  | @appendUndefined r hsending hread =>
    have hmem : r.job ∈ s.bound := List.mem_append_right _ (by simp [hsending])
    refine ⟨fun job' hmem hjob => ?_, hI.call, fun r hr => (by cases hr),
      hI.carried.read_undefined fun hjob => ?_⟩
    · simp only [State.bound, Option.map_none, Option.toList_none, List.append_nil] at hmem
      exact hqueue job' hmem hjob
    · cases hread.symm.trans (hI.bound r.job hmem hjob)
  | @event e conn effects hready hcall hsending hlegal hconn =>
    refine ⟨hI.bound, hI.call, fun r hr => ?_, ⟨hI.carried.done, hI.carried.defined⟩⟩
    cases hsending.symm.trans hr
  | @beginSend t buf bytes contents howner hcall hloop hstate hbytes hcontents =>
    refine ⟨hI.bound, fun t' job hjob => ?_, hI.sending, ⟨hI.carried.done, hI.carried.defined⟩⟩
    -- only the thread `t` binds anything
    simp only [Function.update_apply] at hjob
    split_ifs at hjob with ht
    · cases hjob
      refine ⟨?_, fun data len hpointer => ?_⟩
      · simp only [Bound.read, hbytes, Option.bind_some, if_pos hcontents.length_le,
          ← List.prefix_iff_eq_take.1 hcontents]
      · cases hpointer
        exact howner.trans ht.symm
    · exact hI.call t' job hjob
  | @beginSendBuffer t buf message buf' hcall hloop hstate hbuf hread =>
    refine ⟨hI.bound, fun t' job hjob => ?_, hI.sending, ⟨hI.carried.done, hI.carried.defined⟩⟩
    simp only [Function.update_apply] at hjob
    split_ifs at hjob with ht
    · cases hjob
      refine ⟨?_, fun data len hpointer => by cases hpointer⟩
      rw [retrieveAllAsString_eq hbuf] at hread
      cases hread
      rfl
    · exact hI.call t' job hjob
  | @endSend t job loop hcall h =>
    refine ⟨fun job' hmem hjob => ?_, fun t' job' hjob => ?_, hI.sending, ⟨hI.carried.done,
      hI.carried.defined⟩⟩
    · rcases List.mem_append.1 hmem with hmem | hmem
      · rcases mem_queue_push h hmem with hmem | rfl
        · exact hqueue job' hmem hjob
        · exact (hI.call t job' hcall).1
      · exact hI.bound job' (List.mem_append_right _ hmem) hjob
    · simp only [Function.update_apply] at hjob
      split_ifs at hjob
      exact hI.call t' job' hjob
  | @assign t buf bytes howner hcall hloop =>
    refine ⟨fun job hmem hjob => ?_, fun t' job hjob => ?_, hI.sending, ⟨hI.carried.done,
      hI.carried.defined⟩⟩
    · -- no string that is still to be read is assigned to
      rw [hrespects job hmem hjob]
      exact hI.bound job hmem hjob
    · obtain ⟨hread, howns⟩ := hI.call t' job hjob
      refine ⟨?_, howns⟩
      rw [read_update_of_ne, hread]
      rintro data len hpointer rfl
      -- the owner of the string is not inside `send`
      rw [← howns data len hpointer, howner, hcall] at hjob
      cases hjob

end Step

/-! ### Runs -/

/-- No `sendInLoop` is queued or running, and no call is on its way. -/
structure Start (s : State T N) : Prop where
  queue : ∀ job ∈ s.loop.queue, ¬ job.1.IsSend
  call : ∀ t, s.call t = none
  sending : s.sending = none
  done : s.done = []
  undefined : s.undefined = []

variable {owner : N → T} {P : Bound N → Prop} {s₀ s : State T N}

theorem Start.inv (h : Start s₀) (hP : ∀ b, P b → b.IsSend) : Inv owner P s₀ where
  bound job hmem hjob := by
    rw [State.bound, h.sending, Option.map_none, Option.toList_none, List.append_nil] at hmem
    exact absurd (hP _ hjob) (h.queue job hmem)
  call t job hjob := by cases (h.call t).symm.trans hjob
  sending r hr := by cases h.sending.symm.trans hr
  carried := ⟨by simp [h.done], by simp [h.undefined]⟩

/-- A copy of a message is read without the memory of its caller. -/
theorem respects_isMessage [DecidableEq N] {a : Act T N} : Respects Bound.IsMessage s a := by
  cases a with
  | assign t buf bytes =>
    intro job hmem hjob
    refine read_update_of_ne fun data len hpointer => ?_
    rw [hpointer] at hjob
    exact hjob.elim
  | _ => trivial

theorem isSend_of_isMessage : ∀ b : Bound N, b.IsMessage → b.IsSend
  | .message _, _ => trivial

variable [DecidableEq T] [DecidableEq N] {tr : List (State T N × Act T N)}

/-- **A send of another thread carries the contents of its call.**  In every run in which no string
is assigned to or discarded, in a way that changes what is bound, before its `sendInLoop` has read
it, every `sendInLoop` does what it does with the contents at the call; the messages of
`send(Buffer *)` do so in every run. -/
theorem carried (h₀ : Start s₀) (hrun : (lts owner).Run s₀ tr s) :
    ((∀ p ∈ tr, Respects Bound.IsSend p.1 p.2) →
      (∀ p ∈ tr, Carried Bound.IsSend p.1) ∧ Carried Bound.IsSend s) ∧
    (∀ p ∈ tr, Carried Bound.IsMessage p.1) ∧ Carried Bound.IsMessage s := by
  have hcarried (P : Bound N → Prop) (hP : ∀ b, P b → b.IsSend)
      (hrespects : ∀ p ∈ tr, Respects P p.1 p.2) :
      (∀ p ∈ tr, Carried P p.1) ∧ Carried P s := by
    obtain ⟨hall, hlast⟩ := hrun.invariant_of (I := Inv owner P) (h₀.inv hP)
      (fun _ _ _ hI hstep hst => hI.step hP hstep hst) hrespects
    exact ⟨fun p hp => (hall p hp).carried, hlast.carried⟩
  exact ⟨hcarried Bound.IsSend fun _ => id,
    hcarried Bound.IsMessage isSend_of_isMessage fun p _ => respects_isMessage⟩

/-- One other thread with one string, `"a"`; the loop thread is in a handler. -/
def holding : State Unit Unit where
  loop := { EventLoop.init with pc := .handling false }
  conn := established false false 0
  memory := fun _ => some [97]
  call := fun _ => none
  sending := none
  done := []
  undefined := []

theorem start_holding : Start holding :=
  ⟨by simp [holding, EventLoop.init, EventLoop.State.queue, EventLoop.State.batch], fun _ => rfl,
    rfl, rfl, rfl⟩

/-- The string is sent and then assigned `"b"`, before the loop runs its functors: `"b"` is
written. -/
theorem not_carried : ∃ tr s, (lts fun _ => ()).Run holding tr s ∧
    tr.map Prod.snd = [.beginSend () (), .endSend (), .loop (.queueWakeup (some ())),
      .assign () () (some [98]), .loop .endEvents, .loop .setCalling, .loop .swap,
      .startSend (.accepted 1)] ∧
    s.conn.socket.written = [98] ∧ ¬ Carried Bound.IsSend s := by
  have hbegin : (lts fun _ => ()).Run holding _ _ :=
    LTS.Run.nil.snoc (l := Act.beginSend () ()) (.beginSend rfl rfl rfl rfl rfl List.prefix_rfl)
  have hend := hbegin.snoc (l := Act.endSend ())
    (.endSend rfl (.runInLoop_queue ⟨rfl, nofun⟩ nofun))
  have hwakeup := hend.snoc (l := Act.loop (.queueWakeup (some ())))
    (.loop trivial nofun (.queueWakeup rfl))
  have hassign := hwakeup.snoc (l := Act.assign () () (some [98])) (.assign rfl rfl rfl)
  have hevents := hassign.snoc (l := Act.loop .endEvents) (.loop trivial nofun (.endEvents rfl rfl))
  have hcalling := hevents.snoc (l := Act.loop .setCalling) (.loop trivial nofun (.setCalling rfl))
  have hswap := hcalling.snoc (l := Act.loop .swap) (.loop trivial nofun (.swap rfl))
  have hsend := hswap.snoc (l := Act.startSend (.accepted 1))
    (.write rfl (.startFunctor rfl) trivial (by decide)
      (show ([98] : List UInt8).length = _ from rfl) (Nat.le_refl 1) (fun _ => rfl) rfl)
  refine ⟨_, _, hsend, rfl, by decide +kernel, ?_⟩
  intro hcarried
  obtain ⟨es, hok⟩ := hcarried.done _ List.mem_concat_self trivial
  have hwritten : ([97] : List UInt8) = [98] :=
    congrArg (fun r => (r.toOption.map fun p => p.1.socket.written).getD []) hok
  exact absurd hwritten (by decide)

/-- The string is sent, written, and assigned `"b"` after that. -/
theorem carried_assigned : ∃ tr s, (lts fun _ => ()).Run holding tr s ∧
    s.memory () = some [98] ∧ s.conn.socket.written = [97] ∧
    (∀ p ∈ tr, Respects Bound.IsSend p.1 p.2) ∧
    ((∀ p ∈ tr, Carried Bound.IsSend p.1) ∧ Carried Bound.IsSend s) ∧
    (∀ p ∈ tr, Carried Bound.IsMessage p.1) ∧ Carried Bound.IsMessage s := by
  have hbegin : (lts fun _ => ()).Run holding _ _ :=
    LTS.Run.nil.snoc (l := Act.beginSend () ()) (.beginSend rfl rfl rfl rfl rfl List.prefix_rfl)
  have hend := hbegin.snoc (l := Act.endSend ())
    (.endSend rfl (.runInLoop_queue ⟨rfl, nofun⟩ nofun))
  have hwakeup := hend.snoc (l := Act.loop (.queueWakeup (some ())))
    (.loop trivial nofun (.queueWakeup rfl))
  have hevents := hwakeup.snoc (l := Act.loop .endEvents)
    (.loop trivial nofun (.endEvents rfl rfl))
  have hcalling := hevents.snoc (l := Act.loop .setCalling) (.loop trivial nofun (.setCalling rfl))
  have hswap := hcalling.snoc (l := Act.loop .swap) (.loop trivial nofun (.swap rfl))
  have hsend := hswap.snoc (l := Act.startSend (.accepted 1))
    (.write rfl (.startFunctor rfl) trivial (by decide)
      (show ([97] : List UInt8).length = _ from rfl) (Nat.le_refl 1) (fun _ => rfl) rfl)
  have hassign := hsend.snoc (l := Act.assign () () (some [98])) (.assign rfl rfl rfl)
  have hall := carried start_holding hassign
  refine ⟨_, _, hassign, by decide +kernel, by decide +kernel, ?respects, hall.1 ?respects, hall.2⟩
  intro p hp
  rcases List.mem_append.1 hp with hp | hp
  · simp only [List.nil_append, List.cons_append, List.mem_cons, List.not_mem_nil, or_false] at hp
    rcases hp with rfl | rfl | rfl | rfl | rfl | rfl | rfl <;> trivial
  · -- nothing is bound to the string any more
    obtain rfl := List.mem_singleton.1 hp
    intro job hmem
    cases hmem

end StringSend

end TinyNetwork
