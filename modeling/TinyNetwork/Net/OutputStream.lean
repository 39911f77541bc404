import TinyNetwork.Net.Shared

/-!
# The output stream of a connection

What a connection has written, followed by what it has buffered, is the sequence of the messages
whose `sendInLoop` has run.  A message is written directly only when nothing is pending, so a
short write or a failed one leaves its rest behind everything written before.

## Main results

* `Shared.Stream.step` : one step of any thread keeps the stream.
* `Shared.output_stream` : the stream and the order of the messages, in every reachable state.
-/

namespace TinyNetwork

open Lp64 TcpConnection

namespace Shared

/-- No `::write` of the action fails with `EPIPE` or `ECONNRESET`. -/
def Act.NoFault {T : Type*} : Act T → Prop
  | .startSend w | .event (.send _ w) | .event (.sendBuffer _ w) | .event (.handleWrite w) =>
    w.isFault = false
  | _ => True

/-- The steps of an open connection whose peer is there: no fault on a write, less than `2 ^ 31`
bytes pending, and the connection is not disconnected. -/
def openLts (T : Type*) [DecidableEq T] : LTS (State T) (Act T) where
  step s a s' := Step s a s' ∧ a.NoFault ∧ s.conn.outputBuffer.readableBytes < 2 ^ 31 ∧
    s'.conn.state ≠ .kDisconnected

/-- The bytes written and the bytes pending are the messages that have run. -/
structure Stream (c : TcpConnection) (messages : List (List UInt8)) : Prop where
  state : c.state ≠ .kDisconnected
  wf : c.outputBuffer.Wf
  stream : c.socket.written ++ c.outputBuffer.readable = messages.flatten

variable {T : Type*} {c c' : TcpConnection} {messages : List (List UInt8)} {data : List UInt8}
  {w : WriteResult} {es : List Effect}

/-- The output of a connection is left alone. -/
theorem Stream.congr (hI : Stream c messages) (hstate : c'.state ≠ .kDisconnected)
    (hb : c'.outputBuffer = c.outputBuffer) (hw : c'.socket.written = c.socket.written) :
    Stream c' messages :=
  ⟨hstate, hb ▸ hI.wf, by rw [hw, hb]; exact hI.stream⟩

theorem Stream.quiet (hI : Stream c messages) (h : Quiet c c') : Stream c' messages :=
  hI.congr (h.state hI.state) h.outputBuffer h.written

/-- A message that runs comes last in the stream, whatever part of it is written directly. -/
theorem Stream.sendInLoop (hI : Stream c messages) (hw : w.isFault = false)
    (h : c.sendInLoop data w = .ok (c', es)) : Stream c' (messages ++ [data]) := by
  cases sendInLoop_spec hI.wf hI.state h with
  | dropped hfault => simp [hw] at hfault
  | @split _ sent rest hdata hstate _ _ hwritten hfirst hwf hread _ _ =>
    refine ⟨hstate ▸ hI.state, hwf, ?_⟩
    have hswap : sent ++ c.outputBuffer.readable = c.outputBuffer.readable ++ sent := by
      by_cases hsent : sent = []
      · simp [hsent]
      · simp [(hfirst hsent).2]
    calc c'.socket.written ++ c'.outputBuffer.readable
        = c.socket.written ++ (sent ++ c.outputBuffer.readable) ++ rest := by
          simp [hwritten, hread]
      _ = (c.socket.written ++ c.outputBuffer.readable) ++ data := by simp [hswap, hdata]
      _ = (messages ++ [data]).flatten := by simp [hI.stream]

/-- A write event moves bytes from the output buffer to the end of what is written. -/
theorem Stream.drained (hI : Stream c messages) (hcount : w.count < 2 ^ 31)
    (h : Drained c w c') : Stream c' messages := by
  cases h with
  | idle => exact hI
  | @taken _ n hw _ _ _ hstate _ hwritten hwf hread _ _ =>
    subst hw
    refine ⟨hstate ▸ hI.state, hwf, ?_⟩
    have hn : toSize (toInt n) = n := toSize_toInt_of_lt hcount
    rw [hwritten, hread, hn, List.append_assoc, List.take_append_drop]
    exact hI.stream

/-- The calls and events that send nothing leave the output alone. -/
theorem output_handle {e : Event} (he : Direct e) (hsend : ∀ buf w, e ≠ .send buf w)
    (hbuffer : ∀ buf w, e ≠ .sendBuffer buf w) (h : c.handle e = .ok (c', es)) :
    c'.outputBuffer = c.outputBuffer ∧ c'.socket.written = c.socket.written := by
  cases e with
  | send buf w => exact absurd rfl (hsend buf w)
  | sendBuffer buf w => exact absurd rfl (hbuffer buf w)
  | shutdown =>
    cases h
    exact ⟨quiet_shutdown.outputBuffer, quiet_shutdown.written⟩
  | handleRead r =>
    obtain ⟨⟨n, errno, inputBuffer⟩, -, h⟩ := bind_eq_ok.1 h
    simp only at h
    split_ifs at h <;> cases h <;> exact ⟨rfl, rfl⟩
  | handleClose =>
    cases h
    exact ⟨rfl, rfl⟩
  | connectDestroyed =>
    simp only [handle, connectDestroyed] at h
    split_ifs at h <;> cases h <;> exact ⟨rfl, rfl⟩
  | _ => exact he.elim

theorem Stream.send (hI : Stream c messages) (hw : w.isFault = false)
    (h : c.send data w = .ok (c', es)) :
    Stream c' (messages ++ if c.state = .kConnected then [data] else []) := by
  unfold TcpConnection.send at h
  split_ifs at h ⊢
  · exact hI.sendInLoop hw h
  · cases h
    simpa using hI

/-- A call of the loop thread or an event of the channel appends the message it sends. -/
theorem Stream.handle {e : Event} (hI : Stream c messages) (he : Direct e)
    (hlegal : e.Legal c) (hfault : Act.NoFault (.event e : Act T))
    (hstate : c'.state ≠ .kDisconnected) (h : c.handle e = .ok (c', es)) :
    Stream c' (messages ++ messageOf c e) := by
  cases e with
  | send buf w => exact hI.send hfault h
  | sendBuffer buf w =>
    obtain ⟨⟨c₁, es₁, buf'⟩, hsend, heq⟩ := bind_eq_ok.1 h
    cases heq
    exact hI.send hfault (sendBuffer_eq_ok hlegal.1 hsend)
  | _ =>
    obtain ⟨hb, hw⟩ := output_handle he nofun nofun h
    simpa [messageOf] using hI.congr hstate hb hw

/-- **One step of any thread keeps the stream.** -/
theorem Stream.step [DecidableEq T] {s s' : State T} {a : Act T}
    (hI : Stream s.conn (s.ran.map Prod.snd)) (h : (openLts T).step s a s') :
    Stream s'.conn (s'.ran.map Prod.snd) := by
  obtain ⟨hst, hfault, hsize, hopen⟩ := h
  cases hst with
  | loop | queueInLoop | beginSend | endSend | beginShutdown | endShutdown => exact hI
  | startSend h htodo hw hconn =>
    rw [List.map_append]
    exact hI.sendInLoop hfault hconn
  | startShutdown => exact hI.quiet quiet_shutdownInLoop
  | finishWrite =>
    simp only
    split_ifs
    · exact hI.quiet quiet_shutdownInLoop
    · exact hI
  | event hready he hlegal hconn =>
    simpa [Function.comp_def] using hI.handle he hlegal hfault hopen hconn
  | @handleWrite w conn effects drained hready hlegal hconn =>
    have heq : (s.conn.handleWriteData w).1 = conn := by rw [hconn]
    have hcount : w.count < 2 ^ 31 := by
      cases w with
      | accepted n => exact Nat.lt_of_le_of_lt hlegal hsize
      | error e => exact Nat.two_pow_pos 31
    exact hI.drained hcount (heq ▸ (handleWriteData_spec hI.wf).1)
  | storeShutdown => exact hI.congr (by simp [setState]) rfl rfl

/-! ### Runs -/

/-- A connection that has just been established in its loop: none of its tasks is queued. -/
structure Established (s : State T) : Prop where
  conn : ∃ wc hw mark, s.conn = established wc hw mark
  queue : ∀ job ∈ s.loop.queue, Task.Foreign job.2
  todo : s.todo = []
  call : ∀ t, s.call t = .idle
  sent : ∀ t, s.sent t = []
  ran : s.ran = []

variable {s₀ s : State T}

theorem Established.stream (h : Established s₀) : Stream s₀.conn (s₀.ran.map Prod.snd) := by
  obtain ⟨wc, hw, mark, hconn⟩ := h.conn
  rw [hconn, h.ran]
  exact ⟨by simp [established, connectEstablished, setState], Buffer.wf_empty,
    Buffer.readable_empty⟩

variable [DecidableEq T]

theorem Established.sequenced (h : Established s₀) : Sequenced s₀ := by
  have hq (t : Option T) : queuedBy s₀.loop t = [] :=
    List.filterMap_eq_nil_iff.2 fun job hmem => messageBy_foreign (h.queue job hmem)
  refine ⟨fun t => ?_, hq none, by simp [h.todo]⟩
  rw [hq t, h.ran, h.sent t]
  cases t <;> simp [ranBy, inFlight, h.call, CallerPc.message]

/-- **The output stream.**  In every state that an established connection, its loop and the other
threads can reach: what has been written, followed by what is pending, is the messages that have
run, one after another; and for every thread the messages that have run, those queued and the one
in flight are the messages of its calls, in the order of the calls. -/
theorem output_stream (h₀ : Established s₀) (h : (openLts T).Reachable s₀ s) :
    s.conn.socket.written ++ s.conn.outputBuffer.readable = (s.ran.map Prod.snd).flatten ∧
      ∀ t, ranBy s.ran t ++ queuedBy s.loop t ++ inFlight s.call t = s.sent t := by
  have hstream : Stream s.conn (s.ran.map Prod.snd) :=
    h.invariant (I := fun s => Stream s.conn (s.ran.map Prod.snd)) h₀.stream
      fun _ _ _ hI hst => hI.step hst
  have hseq : Sequenced s := h.invariant h₀.sequenced fun _ _ _ hI hst => hI.step hst.1
  exact ⟨hstream.stream, hseq.order⟩

/-- The loop thread is in a handler of a connection that has just been established. -/
def handling : State Unit where
  loop := { EventLoop.init with pc := .handling false }
  conn := established true false 0
  todo := []
  call := fun _ => .idle
  sent := fun _ => []
  ran := []

/-- A buffer that holds two bytes. -/
def twoBytes : Buffer := ⟨[0, 0, 0, 0, 0, 0, 0, 0, 4, 5], 8, 10⟩

/-- A short write, the write of the rest, and one more message. -/
theorem exists_short_write : ∃ c₁ c₂ c₃, (established true false 0).handle
      (.send [1, 2, 3] (.accepted 2)) = .ok (c₁, []) ∧
    c₁.handleWriteData (.accepted 1) = (c₂, [.queueInLoop .writeComplete], true) ∧
    c₂.sendInLoop [4, 5] (.accepted 0) = .ok (c₃, []) ∧ c₁.outputBuffer.readableBytes = 1 ∧
    c₂.outputBuffer.readableBytes = 0 ∧ c₃.socket.written = [1, 2, 3] ∧ c₁.state = .kConnected ∧
    c₂.state = .kConnected ∧ c₃.state = .kConnected := by
  have hplay : (((established true false 0).handle (.send [1, 2, 3] (.accepted 2))).toOption.bind
      fun p => ((p.1.handleWriteData (.accepted 1)).1.sendInLoop [4, 5] (.accepted 0)).toOption.map
        fun q => decide (p.2 = [] ∧ (p.1.handleWriteData (.accepted 1)).2 =
            ([.queueInLoop .writeComplete], true) ∧ q.2 = [] ∧
          p.1.outputBuffer.readableBytes = 1 ∧
          (p.1.handleWriteData (.accepted 1)).1.outputBuffer.readableBytes = 0 ∧
          q.1.socket.written = [1, 2, 3] ∧ p.1.state = .kConnected ∧
          (p.1.handleWriteData (.accepted 1)).1.state = .kConnected ∧ q.1.state = .kConnected)) =
      some true := by
    decide +kernel
  cases hsend : (established true false 0).handle (.send [1, 2, 3] (.accepted 2)) with
  | error fault =>
    rw [hsend] at hplay
    cases hplay
  | ok p =>
    rw [hsend] at hplay
    obtain ⟨q, hrun, hfacts⟩ := Option.map_eq_some_iff.1 (show Option.map _ _ = _ from hplay)
    obtain ⟨hnone, hdrained, hnone', hfacts⟩ := of_decide_eq_true hfacts
    cases hrun' : (p.1.handleWriteData (.accepted 1)).1.sendInLoop [4, 5] (.accepted 0) with
    | error fault =>
      rw [hrun'] at hrun
      cases hrun
    | ok q' =>
      rw [hrun'] at hrun
      obtain rfl : q' = q := Option.some.inj hrun
      exact ⟨p.1, _, q'.1, by rw [← hnone], Prod.ext rfl hdrained, by rw [hrun', ← hnone'], hfacts⟩

/-- The loop thread sends three bytes, and `::write` takes two of them.  Another thread queues two
more, the third byte is written, and the loop thread runs what has been queued. -/
theorem output_stream_short_write :
    ∃ s : State Unit, (openLts Unit).Reachable handling s ∧
      s.ran = [(none, [1, 2, 3]), (some (), [4, 5])] ∧ s.conn.socket.written = [1, 2, 3] ∧
      s.conn.socket.written ++ s.conn.outputBuffer.readable = [1, 2, 3, 4, 5] ∧
      ∀ t, ranBy s.ran t ++ queuedBy s.loop t ++ inFlight s.call t = s.sent t := by
  obtain ⟨c₁, c₂, c₃, hsend, hwrite, hrun, hsize₁, hsize₂, hwritten, hstate₁, hstate₂, hstate₃⟩ :=
    exists_short_write
  have hpending : c₁.outputBuffer.readableBytes < 2 ^ 31 := hsize₁ ▸ by decide
  have hempty : c₂.outputBuffer.readableBytes < 2 ^ 31 := hsize₂ ▸ by decide
  have hopen₁ : c₁.state ≠ .kDisconnected := hstate₁ ▸ by decide
  have hopen₂ : c₂.state ≠ .kDisconnected := hstate₂ ▸ by decide
  have hopen₃ : c₃.state ≠ .kDisconnected := hstate₃ ▸ by decide
  have hsent : (openLts Unit).Reachable handling _ :=
    LTS.Reachable.refl.tail (l := Act.event (.send [1, 2, 3] (.accepted 2)))
      ⟨.event ⟨trivial, rfl, rfl⟩ trivial (Nat.le_succ 2) hsend, rfl, by decide +kernel, hopen₁⟩
  have hbegin := hsent.tail (l := Act.beginSend () twoBytes)
    ⟨.beginSend rfl rfl hstate₁ (by decide) rfl, trivial, hpending, hopen₁⟩
  have hqueued := hbegin.tail (l := Act.endSend ())
    ⟨.endSend rfl (.runInLoop_queue ⟨rfl, by simp [EventLoop.isInLoopThread]⟩
      (by simp [EventLoop.isInLoopThread])), trivial, hpending, hopen₁⟩
  have hdrained := hqueued.tail (l := Act.event (.handleWrite (.accepted 1)))
    ⟨.handleWrite ⟨trivial, rfl, rfl⟩ hsize₁.ge hwrite, rfl, hpending, hopen₂⟩
  -- `writeComplete` is queued behind the message of the other thread
  have hpushed := hdrained.tail (l := Act.todo)
    ⟨.queueInLoop rfl (.queueInLoop ⟨rfl, fun _ => .inl ⟨false, rfl⟩⟩), trivial, hempty, hopen₂⟩
  have htold := hpushed.tail (l := Act.loop (.queueWakeup none))
    ⟨.loop trivial (fun h => h.elim) (fun _ h => h.elim) (.queueWakeup rfl), trivial, hempty,
      hopen₂⟩
  -- the test of `state_` at the end of `handleWrite`
  obtain ⟨c, hc, hkeep⟩ : ∃ c, (if c₂.state = .kDisconnecting then c₂.shutdownInLoop else c₂) = c ∧
      c = c₂ := ⟨_, rfl, if_neg (by rw [hstate₂]; decide)⟩
  have hfinished := htold.tail (l := Act.todo)
    ⟨.finishWrite rfl rfl, trivial, hempty, by rw [hc, hkeep]; exact hopen₂⟩
  rw [hc, hkeep] at hfinished
  have hevents := hfinished.tail (l := Act.loop .endEvents)
    ⟨.loop trivial (fun _ => rfl) (fun _ h => h.elim) (.endEvents rfl rfl), trivial, hempty, hopen₂⟩
  have hcalling := hevents.tail (l := Act.loop .setCalling)
    ⟨.loop trivial (fun h => h.elim) (fun _ h => h.elim) (.setCalling rfl), trivial, hempty, hopen₂⟩
  have hswapped := hcalling.tail (l := Act.loop .swap)
    ⟨.loop trivial (fun h => h.elim) (fun _ h => h.elim) (.swap rfl), trivial, hempty, hopen₂⟩
  have hran := hswapped.tail (l := Act.startSend (.accepted 0))
    ⟨.startSend (.startFunctor rfl) rfl (Nat.zero_le _) hrun, rfl, hempty, hopen₃⟩
  have hstart : Established handling :=
    ⟨⟨_, _, _, rfl⟩, by simp [handling, EventLoop.init, EventLoop.State.queue,
      EventLoop.State.batch], rfl, fun _ => rfl, fun _ => rfl, rfl⟩
  obtain ⟨hstream, horder⟩ := output_stream hstart hran
  exact ⟨_, hran, rfl, hwritten, hstream, horder⟩

end Shared

end TinyNetwork
