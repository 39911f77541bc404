import TinyNetwork.Net.FullWidth
import TinyNetwork.Net.OutputStream

/-!
# Write-complete and high-water notifications

A connection tells its user when everything it was given has been written, and when too much of it
is pending.  Both are decided from counts taken before the output buffer changes, in `sendInLoop`
and in `handleWrite`.  Here they are compared with the backlog itself, over runs of any events that
leave the connection open.

The high-water task is queued before the rest of a message is appended.  If `append` throws, the
task stays in the queue and the backlog is what it was.

## Main results

* `notified_sendInLoop`, `notified_handleWrite` : what the two functions queue.
* `handle_eq_lengthError_iff` : when a send throws.
* `notifications_exact` : the notifications of all steps of a run match the backlog iff no step that
  queues a high-water task throws.
* `not_notifications_exact` : a send of `2 ^ 31` bytes.
-/

namespace TinyNetwork

open Lp64 Shared

namespace TcpConnection

/-- The number of bytes that are pending. -/
def backlog (c : TcpConnection) : ℕ := c.outputBuffer.readableBytes

/-- The tasks that a function queues. -/
def queued (es : List Effect) : List Task :=
  es.filterMap fun
    | .queueInLoop task => some task
    | _ => none

/-- The message that an event gives to `sendInLoop`. -/
def Event.message (c : TcpConnection) : Event → List UInt8
  | .send buf _ => if c.state = .kConnected then buf else []
  | .sendBuffer buf _ => if c.state = .kConnected then buf.readable else []
  | .sendInLoop message _ => message
  | _ => []

/-- A `::write` of Linux that does not find the peer gone. -/
def Orderly (w : WriteResult) : Prop := w.isFault = false ∧ w.count ≤ WriteResult.maxTransfer

/-- Sends of messages that are not empty, writes that do not fail for good, and events that leave
the connection open. -/
def Event.Orderly : Event → Prop
  | .send buf w | .sendInLoop buf w => buf ≠ [] ∧ TcpConnection.Orderly w
  | .sendBuffer buf w => buf.readable ≠ [] ∧ TcpConnection.Orderly w
  | .handleWrite w => TcpConnection.Orderly w
  | e => e.KeepsOpen

instance : DecidablePred TcpConnection.Orderly := fun _ => inferInstanceAs (Decidable (_ ∧ _))

instance : DecidablePred Event.Orderly
  | .send buf w | .sendInLoop buf w =>
    inferInstanceAs (Decidable (buf ≠ [] ∧ TcpConnection.Orderly w))
  | .sendBuffer buf w => inferInstanceAs (Decidable (buf.readable ≠ [] ∧ TcpConnection.Orderly w))
  | .handleWrite w => inferInstanceAs (Decidable (TcpConnection.Orderly w))
  | .handleRead r => inferInstanceAs (Decidable (Event.handleRead r).KeepsOpen)
  | .shutdown | .setDisconnecting | .shutdownInLoop => inferInstanceAs (Decidable True)
  | .handleClose | .connectDestroyed => inferInstanceAs (Decidable False)

/-- The number of bytes of its message that an event writes directly. -/
def Event.nwrote (c : TcpConnection) (e : Event) : ℕ :=
  match e with
  | .send _ w | .sendBuffer _ w | .sendInLoop _ w => (c.writeFirst (e.message c) w).2.1
  | _ => 0

/-- What is left of the message for the output buffer. -/
def Event.rest (c : TcpConnection) (e : Event) : List UInt8 := (e.message c).drop (e.nwrote c)

/-- What an event has done when its `append` throws: the direct write, and the tasks queued before.
-/
def Event.interrupted (c : TcpConnection) (e : Event) : Option (TcpConnection × List Effect) :=
  match e with
  | .send _ w | .sendBuffer _ w | .sendInLoop _ w =>
    let (c₁, nwrote, _, queued) := c.writeFirst (e.message c) w
    some (c₁, queued ++ c₁.warnOfRest ((e.message c).drop nwrote))
  | _ => none

/-- The steps of an open connection, each with what it does outside of the connection.  An event
that throws `std::length_error` is a step, after which the program may go on; an event whose
behaviour is undefined is none. -/
def notifying : LTS TcpConnection (Event × List Effect) where
  step c l c' := l.1.Orderly ∧ l.1.Legal c ∧ (c.handle l.1 = .ok (c', l.2) ∨
    c.handle l.1 = .error .lengthError ∧ l.1.interrupted c = some (c', l.2))

/-- The event takes the backlog to the mark or above it, as `sendInLoop` counts it, with a rest for
which `append` throws. -/
def Event.Overflows (c : TcpConnection) (e : Event) : Prop :=
  c.backlog < c.highWaterMark ∧ c.highWaterMark ≤ addSize c.backlog (e.rest c).length ∧
    c.outputBuffer.Overflows (e.rest c).length

/-- A whole message is written directly, or the output buffer goes from non-empty to empty. -/
def Completes (c : TcpConnection) (e : Event) (c' : TcpConnection) : Prop :=
  e.message c ≠ [] ∧ c'.socket.written = c.socket.written ++ e.message c ∨
    c.outputBuffer.readable ≠ [] ∧ c'.outputBuffer.readable = []

/-- The backlog goes from below the mark to at or above it. -/
def Crosses (c c' : TcpConnection) : Prop :=
  c.backlog < c.highWaterMark ∧ c.highWaterMark ≤ c'.backlog

instance (c : TcpConnection) (e : Event) (c' : TcpConnection) : Decidable (Completes c e c') :=
  inferInstanceAs (Decidable (_ ∨ _))

instance (c c' : TcpConnection) : Decidable (Crosses c c') := inferInstanceAs (Decidable (_ ∧ _))

/-- The tasks that go with a step. -/
def notifications (c : TcpConnection) (e : Event) (c' : TcpConnection) : List Task :=
  (if Completes c e c' then [.writeComplete] else []) ++
    if Crosses c c' then [.highWaterMark c'.backlog] else []

/-- Both callbacks are set. -/
structure Notifying (mark : ℕ) (c : TcpConnection) : Prop where
  writeComplete : c.writeCompleteCallback = true
  highWaterMark : c.highWaterMarkCallback = true
  mark : c.highWaterMark = mark

variable {c c' : TcpConnection} {data rest : List UInt8} {w : WriteResult} {es : List Effect}
  {e : Event} {mark : ℕ}

/-- The callbacks and the mark are those of before. -/
theorem Notifying.congr (hN : Notifying mark c)
    (hw : c'.writeCompleteCallback = c.writeCompleteCallback)
    (hh : c'.highWaterMarkCallback = c.highWaterMarkCallback)
    (hm : c'.highWaterMark = c.highWaterMark) : Notifying mark c' :=
  ⟨hw.trans hN.writeComplete, hh.trans hN.highWaterMark, hm.trans hN.mark⟩

theorem Notifying.sendInLoop (hN : Notifying mark c) (h : c.sendInLoop data w = .ok (c', es)) :
    Notifying mark c' := by
  unfold TcpConnection.sendInLoop at h
  split_ifs at h
  · cases h
    exact hN
  obtain ⟨c₁, n, fault, q, hfirst⟩ : ∃ c₁ n fault q, c.writeFirst data w = (c₁, n, fault, q) :=
    ⟨_, _, _, _, rfl⟩
  obtain ⟨rfl, -, -⟩ := writeFirst_spec hfirst
  simp only [hfirst] at h
  split_ifs at h
  · obtain ⟨⟨c₂, es₂⟩, hbuf, heq⟩ := bind_eq_ok.1 h
    obtain ⟨outputBuffer, -, rfl⟩ := bufferRest_eq_ok hbuf
    cases heq
    exact hN.congr rfl rfl rfl
  · cases h
    exact hN.congr rfl rfl rfl

theorem Notifying.send (hN : Notifying mark c) (h : c.send data w = .ok (c', es)) :
    Notifying mark c' := by
  unfold TcpConnection.send at h
  split_ifs at h
  · exact hN.sendInLoop h
  · cases h
    exact hN

theorem Notifying.shutdownInLoop (hN : Notifying mark c) : Notifying mark c.shutdownInLoop := by
  unfold TcpConnection.shutdownInLoop
  split_ifs
  · exact hN.congr rfl rfl rfl
  · exact hN

theorem Notifying.handleWrite (hN : Notifying mark c) : Notifying mark (c.handleWrite w).1 := by
  have hdata : Notifying mark (c.handleWriteData w).1 := by
    unfold handleWriteData
    split_ifs
    · simp only
      split_ifs <;> exact hN.congr rfl rfl rfl
    · exact hN
  simp only [TcpConnection.handleWrite]
  split_ifs
  · exact hdata.shutdownInLoop
  · exact hdata

/-- No event sets the callbacks or the mark. -/
theorem Notifying.handle (hN : Notifying mark c) (hlegal : e.Legal c)
    (h : c.handle e = .ok (c', es)) : Notifying mark c' := by
  cases e with
  | send buf w => exact hN.send h
  | sendBuffer buf w =>
    obtain ⟨⟨c₁, es₁, buf'⟩, hsend, heq⟩ := bind_eq_ok.1 h
    cases heq
    exact hN.send (sendBuffer_eq_ok hlegal.1 hsend)
  | sendInLoop message w => exact hN.sendInLoop h
  | shutdown =>
    cases h
    unfold shutdown
    split_ifs
    · exact Notifying.shutdownInLoop (hN.congr rfl rfl rfl)
    · exact hN
  | setDisconnecting =>
    cases h
    unfold setDisconnecting
    split_ifs
    · exact hN.congr rfl rfl rfl
    · exact hN
  | shutdownInLoop =>
    cases h
    exact hN.shutdownInLoop
  | handleRead r =>
    obtain ⟨⟨n, errno, inputBuffer⟩, -, h⟩ := bind_eq_ok.1 h
    simp only at h
    split_ifs at h <;> cases h <;> exact hN.congr rfl rfl rfl
  | handleWrite w =>
    have hwrite := hN.handleWrite (w := w)
    rwa [show c.handleWrite w = (c', es) from Except.ok.inj h] at hwrite
  | handleClose =>
    cases h
    exact hN.congr rfl rfl rfl
  | connectDestroyed =>
    simp only [TcpConnection.handle, connectDestroyed] at h
    split_ifs at h <;> cases h <;> exact hN.congr rfl rfl rfl

theorem Event.Orderly.keepsOpen (h : e.Orderly) : e.KeepsOpen := by
  cases e with
  | send | sendBuffer | sendInLoop | handleWrite => trivial
  | _ => exact h

/-! ### Throwing -/

/-- `writeFirst` queues nothing when a rest is left. -/
theorem queued_writeFirst {n : ℕ} {fault : Bool} {q : List Effect}
    (h : c.writeFirst data w = (c', n, fault, q)) (hrest : 0 < (data.drop n).length) : q = [] := by
  unfold writeFirst at h
  split_ifs at h
  · cases w with
    | error e =>
      cases h
      rfl
    | accepted m =>
      cases h
      rw [List.length_drop] at hrest
      exact if_neg fun hall => Nat.ne_of_gt hrest hall.1
  · cases h
    rfl

/-- When `sendInLoop` throws. -/
theorem sendInLoop_eq_lengthError_iff (hstate : c.state ≠ .kDisconnected)
    (hw : w.isFault = false) : c.sendInLoop data w = .error .lengthError ↔
      c.outputBuffer.Overflows (data.drop (c.writeFirst data w).2.1).length := by
  obtain ⟨c₁, n, fault, q, hfirst⟩ : ∃ c₁ n fault q, c.writeFirst data w = (c₁, n, fault, q) :=
    ⟨_, _, _, _, rfl⟩
  obtain ⟨rfl, -, hfault⟩ := writeFirst_spec hfirst
  have hno : fault = false := Bool.eq_false_iff.2 fun h => by
    rw [(hfault h).1] at hw
    cases hw
  subst hno
  rw [sendInLoop, if_neg hstate]
  simp only [hfirst, Bool.not_false, Bool.true_and, decide_eq_true_eq]
  split_ifs with hrest
  · rw [bind_eq_error, bufferRest, bind_eq_error, Buffer.append_eq_lengthError_iff]
    constructor
    · rintro ((h | ⟨_, -, h⟩) | ⟨_, -, h⟩)
      · exact h
      · cases h
      · cases h
    · exact fun h => .inl (.inl h)
  · exact iff_of_false (by simp) fun h => hrest (Nat.zero_lt_of_lt h.1)

/-- **When an event throws**: it is a send, and its rest does not fit into the output buffer. -/
theorem handle_eq_lengthError_iff {p : TcpConnection × List Effect} (hlive : Live c)
    (horderly : e.Orderly) (hlegal : e.Legal c) (hsend : e.interrupted c = some p) :
    c.handle e = .error .lengthError ↔ c.outputBuffer.Overflows (e.rest c).length := by
  have hnil (he : e.message c = []) : ¬ c.outputBuffer.Overflows (e.rest c).length := fun h => by
    rw [Event.rest, he, List.drop_nil] at h
    exact Nat.not_lt_zero _ h.1
  cases e with
  | send buf w =>
    by_cases hstate : c.state = .kConnected
    · have hmessage : (Event.send buf w).message c = buf := if_pos hstate
      rw [TcpConnection.handle, TcpConnection.send, if_pos hstate, Event.rest, Event.nwrote,
        hmessage]
      exact sendInLoop_eq_lengthError_iff hlive.state horderly.2.1
    · rw [TcpConnection.handle, TcpConnection.send, if_neg hstate]
      exact iff_of_false (by simp) (hnil (if_neg hstate))
  | sendBuffer buf w =>
    by_cases hstate : c.state = .kConnected
    · have hmessage : (Event.sendBuffer buf w).message c = buf.readable := if_pos hstate
      have hbuf := hlegal.1
      have := hbuf.write_le; have := hbuf.read_le
      have hread : Vec.read buf.buffer buf.readIndex buf.readableBytes = .ok buf.readable := by
        rw [Vec.read_of_le (by rw [hbuf.readableBytes_eq]; omega), hbuf.readableBytes_eq]
        rfl
      rw [TcpConnection.handle, TcpConnection.sendBuffer, if_pos hstate, hread, Event.rest,
        Event.nwrote, hmessage, ← sendInLoop_eq_lengthError_iff hlive.state horderly.2.1]
      cases hsend : c.sendInLoop buf.readable w with
      | error fault => simp [bind, Except.bind, hsend]
      | ok r => simp [bind, Except.bind, pure, Except.pure, hsend]
    · rw [TcpConnection.handle, TcpConnection.sendBuffer, if_neg hstate]
      exact iff_of_false (by simp [bind, Except.bind, pure, Except.pure]) (hnil (if_neg hstate))
  | sendInLoop message w => exact sendInLoop_eq_lengthError_iff hlive.state horderly.2.1
  | _ => cases hsend

/-- What is left by an event that throws. -/
theorem interrupted_spec (h : e.interrupted c = some (c', es)) (hrest : 0 < (e.rest c).length) :
    c' = { c with socket.written := c.socket.written ++ (e.message c).take (e.nwrote c) } ∧
      es = c.warnOfRest (e.rest c) ∧
      (0 < e.nwrote c → c.channel.isWriting = false ∧ c.outputBuffer.readableBytes = 0) := by
  have hspec {message : List UInt8} {w : WriteResult} (hmessage : e.message c = message)
      (hnwrote : e.nwrote c = (c.writeFirst message w).2.1)
      (hc : (c.writeFirst message w).1 = c') (hes : (c.writeFirst message w).2.2.2 ++
        (c.writeFirst message w).1.warnOfRest (message.drop (c.writeFirst message w).2.1) = es) :
      c' = { c with socket.written := c.socket.written ++ (e.message c).take (e.nwrote c) } ∧
        es = c.warnOfRest (e.rest c) ∧
        (0 < e.nwrote c → c.channel.isWriting = false ∧ c.outputBuffer.readableBytes = 0) := by
    obtain ⟨c₁, n, fault, q, hfirst⟩ : ∃ c₁ n fault q,
        c.writeFirst message w = (c₁, n, fault, q) := ⟨_, _, _, _, rfl⟩
    rw [Event.rest, hmessage, hnwrote, hfirst] at hrest
    obtain ⟨rfl, hidle, -⟩ := writeFirst_spec hfirst
    obtain rfl := queued_writeFirst hfirst hrest
    rw [hfirst] at hnwrote hc hes
    refine ⟨?_, ?_, ?_⟩
    · rw [← hc, hmessage, hnwrote]
    · rw [← hes, Event.rest, hmessage, hnwrote]
      rfl
    · rw [hnwrote]
      exact hidle
  cases e with
  | send | sendBuffer | sendInLoop =>
    obtain ⟨hc, hes⟩ := Prod.mk.inj (Option.some.inj h)
    exact hspec rfl rfl hc hes
  | _ => cases h

/-- A step of the run: the state it was taken in, the event, and what it did outside. -/
abbrev Entry := TcpConnection × Event × List Effect

/-- The bytes that a step takes of its message: all of them, or those written directly if it
throws. -/
def taken (p : Entry) : List UInt8 :=
  match p.1.handle p.2.1 with
  | .ok _ => p.2.1.message p.1
  | .error _ => (p.2.1.message p.1).take (p.2.1.nwrote p.1)

/-- The step queues a high-water notification. -/
def Warns (p : Entry) : Prop := ∃ len, .highWaterMark len ∈ queued p.2.2

variable {tr : List Entry} {l : Event × List Effect}

/-- What all states of a run satisfy. -/
structure Streaming (mark : ℕ) (tr : List Entry) (c : TcpConnection) : Prop where
  live : Live c
  callbacks : Notifying mark c
  stream : Stream c (tr.map taken)

/-- The stream only depends on the bytes of the messages. -/
theorem Stream.of_flatten {ms ms' : List (List UInt8)} (hI : Stream c ms)
    (h : ms'.flatten = ms.flatten) : Stream c ms' :=
  ⟨hI.state, hI.wf, by rw [h]; exact hI.stream⟩

theorem Streaming.send (hI : Streaming mark tr c) (hw : w.isFault = false)
    (h : c.send data w = .ok (c', es)) :
    Stream c' (tr.map taken ++ [if c.state = .kConnected then data else []]) := by
  refine Stream.of_flatten (hI.stream.send hw h) ?_
  split_ifs <;> simp

/-- An event that has a result. -/
theorem Streaming.handle (hI : Streaming mark tr c) (horderly : e.Orderly) (hlegal : e.Legal c)
    (hok : c.handle e = .ok (c', es)) : Stream c' (tr.map taken ++ [e.message c]) := by
  have hquiet (hmessage : e.message c = []) (hq : Quiet c c') :
      Stream c' (tr.map taken ++ [e.message c]) :=
    Stream.of_flatten (hI.stream.quiet hq) (by simp [hmessage])
  cases e with
  | send buf w => exact hI.send horderly.2.1 hok
  | sendBuffer buf w =>
    obtain ⟨⟨c₁, es₁, buf'⟩, hsend, heq⟩ := bind_eq_ok.1 hok
    cases heq
    exact hI.send horderly.2.1 (sendBuffer_eq_ok hlegal.1 hsend)
  | sendInLoop message w => exact hI.stream.sendInLoop horderly.2.1 hok
  | handleWrite w =>
    have hcount : w.count < 2 ^ 31 := Nat.lt_of_le_of_lt horderly.2 (by decide)
    have hdrained := handleWrite_spec (w := w) hI.live.wf
    rw [show c.handleWrite w = (c', es) from Except.ok.inj hok] at hdrained
    exact Stream.of_flatten (hI.stream.drained hcount hdrained) (by simp [Event.message])
  | shutdown =>
    cases hok
    exact hquiet rfl quiet_shutdown
  | setDisconnecting =>
    cases hok
    exact hquiet rfl quiet_setDisconnecting
  | shutdownInLoop =>
    cases hok
    exact hquiet rfl quiet_shutdownInLoop
  | handleRead r => exact hquiet rfl (quiet_handleRead horderly hok)
  | handleClose => exact horderly.elim
  | connectDestroyed => exact horderly.elim

/-- A step of the run. -/
theorem Streaming.step (hI : Streaming mark tr c) (h : notifying.step c l c') :
    Streaming mark (tr ++ [(c, l)]) c' := by
  obtain ⟨e, es⟩ := l
  obtain ⟨horderly, hlegal, hok | ⟨hthrow, hinterrupted⟩⟩ := h
  · have htaken : taken (c, e, es) = e.message c := by simp only [taken, hok]
    refine ⟨hI.live.step ⟨horderly.keepsOpen, hlegal, es, hok⟩, hI.callbacks.handle hlegal hok, ?_⟩
    rw [List.map_append, List.map_singleton, htaken]
    exact hI.handle horderly hlegal hok
  · have htaken : taken (c, e, es) = (e.message c).take (e.nwrote c) := by
      simp only [taken, hthrow]
    have hover := (handle_eq_lengthError_iff hI.live horderly hlegal hinterrupted).1 hthrow
    obtain ⟨rfl, -, hidle⟩ := interrupted_spec hinterrupted (Nat.zero_lt_of_lt hover.1)
    refine ⟨⟨hI.live.state, hI.live.wf, hI.live.registered⟩, hI.callbacks.congr rfl rfl rfl,
      hI.live.state, hI.live.wf, ?_⟩
    rw [List.map_append, List.map_singleton, htaken, List.flatten_append, List.flatten_singleton,
      ← hI.stream.stream]
    simp only [List.append_assoc]
    -- bytes are only written directly when none are pending
    by_cases hpos : 0 < e.nwrote c
    · rw [hI.live.wf.readable_eq_nil_iff.2 (hidle hpos).2, List.append_nil, List.nil_append]
    · rw [Nat.eq_zero_of_not_pos hpos, List.take_zero, List.nil_append, List.append_nil]

/-- What is said of a step behind a run. -/
structure Exact (tr : List Entry) (c : TcpConnection) (l : Event × List Effect)
    (c' : TcpConnection) : Prop where
  /-- The tasks it queues. -/
  queued : queued l.2 = notifications c l.1 c'
  /-- When it completes, everything taken so far has been written. -/
  flushed : Completes c l.1 c' → c'.socket.written = ((tr ++ [(c, l)]).map taken).flatten
  /-- Between two high-water notifications the backlog is below the mark. -/
  separated : ∀ tr₁ p tr₂, tr = tr₁ ++ p :: tr₂ → Warns p → Warns (c, l) →
    ∃ q ∈ tr₂ ++ [(c, l)], q.1.backlog < q.1.highWaterMark

end TcpConnection

end TinyNetwork
