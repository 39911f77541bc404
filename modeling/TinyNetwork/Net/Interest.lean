import TinyNetwork.LTS.Basic
import TinyNetwork.Net.TcpConnection

/-!
# Events of a connection and its interest in them

A connection, as its loop thread sees it, is driven by events: calls of its own thread, tasks
other threads have queued, and what the poller reports.  They may come in any order.  Between
`connectEstablished` and the close of the connection its channel should be writing exactly while
bytes are pending, and always reading.

## Main results

* `Event.live_cases` : the three things an event can do to a live connection.
* `Live.step` : a live connection keeps its buffers well formed and its channel registered.
* `interest_iff` : the interest in events is right all along a run iff no write event drains the
  output buffer.
-/

namespace TinyNetwork

open Lp64

namespace TcpConnection

/-- What can happen to a connection on its loop thread. -/
inductive Event where
  | send (buf : List UInt8) (w : WriteResult)
  | sendBuffer (buf : Buffer) (w : WriteResult)
  /-- The task queued by a `send` of another thread. -/
  | sendInLoop (message : List UInt8) (w : WriteResult)
  | shutdown
  /-- A `shutdown` of another thread, up to `runInLoop`. -/
  | setDisconnecting
  /-- The task queued by a `shutdown` of another thread. -/
  | shutdownInLoop
  | handleRead (r : ReadResult)
  | handleWrite (w : WriteResult)
  | handleClose
  | connectDestroyed

/-- `shutdown()` on another thread, up to `runInLoop`. -/
def setDisconnecting (c : TcpConnection) : TcpConnection :=
  if c.state = .kConnected then c.setState .kDisconnecting else c

/-- The connection after an event, and the effects of the event. -/
def handle (c : TcpConnection) : Event → Except Fault (TcpConnection × List Effect)
  | .send buf w => c.send buf w
  | .sendBuffer buf w => do
    let (c, effects, _) ← c.sendBuffer buf w
    return (c, effects)
  | .sendInLoop message w => c.sendInLoop message w
  | .shutdown => .ok (c.shutdown, [])
  | .setDisconnecting => .ok (c.setDisconnecting, [])
  | .shutdownInLoop => .ok (c.shutdownInLoop, [])
  | .handleRead r => c.handleRead r
  | .handleWrite w => .ok (c.handleWrite w)
  | .handleClose => .ok c.handleClose
  | .connectDestroyed => .ok c.connectDestroyed

namespace Event

/-- The arguments of the event and the results of its system call are possible. -/
def Legal (c : TcpConnection) : Event → Prop
  | .send buf w | .sendInLoop buf w => w.Legal buf.length
  | .sendBuffer buf w => buf.Wf ∧ w.Legal buf.readableBytes
  | .handleRead (.data bytes) => bytes.length ≤ c.inputBuffer.iovCapacity
  | .handleWrite w => w.Legal c.outputBuffer.readableBytes
  | _ => True

/-- The events that do not close the connection. -/
def KeepsOpen : Event → Prop
  | .handleRead (.data []) | .handleClose | .connectDestroyed => False
  | _ => True

/-- A write event that empties the output buffer. -/
def Drains (c : TcpConnection) : Event → Prop
  | .handleWrite (.accepted n) =>
    c.channel.isWriting = true ∧ 0 < n ∧ c.outputBuffer.readable.drop (toSize (toInt n)) = []
  | _ => False

end Event

/-- The runs of a connection whose events satisfy `allowed`. -/
def lts (allowed : Event → Prop) : LTS TcpConnection Event where
  step c e c' := allowed e ∧ e.Legal c ∧ ∃ es, c.handle e = .ok (c', es)

/-! ### Playing a list of events -/

instance (c : TcpConnection) (e : Event) : Decidable (e.Legal c) := by
  unfold Event.Legal
  split <;> infer_instance

instance : DecidablePred Event.KeepsOpen := fun e => by
  unfold Event.KeepsOpen
  split <;> infer_instance

/-- The connection after a list of allowed and legal events, if they all have a result. -/
def play (allowed : Event → Prop) [DecidablePred allowed] (c : TcpConnection) :
    List Event → Option TcpConnection
  | [] => some c
  | e :: events =>
    if allowed e ∧ e.Legal c then
      match c.handle e with
      | .ok (c', _) => play allowed c' events
      | .error _ => none
    else none

theorem run_of_play {allowed : Event → Prop} [DecidablePred allowed] {c c' : TcpConnection}
    {events : List Event} (h : play allowed c events = some c') :
    ∃ tr, (lts allowed).Run c tr c' ∧ tr.map Prod.snd = events := by
  induction events generalizing c with
  | nil =>
    cases h
    exact ⟨[], .nil, rfl⟩
  | cons e events ih =>
    unfold play at h
    split_ifs at h with hlegal
    split at h
    · rename_i c₁ es hok
      obtain ⟨tr, hrun, rfl⟩ := ih h
      exact ⟨_, .cons ⟨hlegal.1, hlegal.2, es, hok⟩ hrun, rfl⟩
    · cases h

/-- A connection between `connectEstablished` and its close. -/
structure Live (c : TcpConnection) : Prop where
  state : c.state ≠ .kDisconnected
  wf : c.outputBuffer.Wf
  registered : c.channel.Registered

variable {c c' : TcpConnection} {e : Event} {es : List Effect}

theorem live_established (wc hw : Bool) (mark : ℕ) : Live (established wc hw mark) where
  state := by simp [established, connectEstablished, setState]
  wf := Buffer.wf_empty
  registered := Channel.registered_enableReading_create

/-- What is left alone by an event that neither sends nor writes. -/
structure Quiet (c c' : TcpConnection) : Prop where
  state : c.state ≠ .kDisconnected → c'.state ≠ .kDisconnected
  channel : c'.channel = c.channel
  outputBuffer : c'.outputBuffer = c.outputBuffer
  written : c'.socket.written = c.socket.written

theorem Quiet.refl : Quiet c c := ⟨id, rfl, rfl, rfl⟩

theorem Quiet.trans {c'' : TcpConnection} (h : Quiet c c') (h' : Quiet c' c'') : Quiet c c'' :=
  ⟨fun hs => h'.state (h.state hs), h'.channel.trans h.channel,
    h'.outputBuffer.trans h.outputBuffer, h'.written.trans h.written⟩

theorem quiet_shutdownInLoop : Quiet c c.shutdownInLoop := by
  unfold shutdownInLoop
  split_ifs
  · exact ⟨id, rfl, rfl, rfl⟩
  · exact .refl

theorem quiet_setState : Quiet c (c.setState .kDisconnecting) :=
  ⟨fun _ => by simp [setState], rfl, rfl, rfl⟩

theorem quiet_setDisconnecting : Quiet c c.setDisconnecting := by
  unfold setDisconnecting
  split_ifs
  · exact quiet_setState
  · exact .refl

theorem quiet_shutdown : Quiet c c.shutdown := by
  unfold shutdown
  split_ifs
  · exact quiet_setState.trans quiet_shutdownInLoop
  · exact .refl

/-- A read that is not the end of the stream leaves the output alone. -/
theorem quiet_handleRead {r : ReadResult} (hopen : (Event.handleRead r).KeepsOpen)
    (h : c.handleRead r = .ok (c', es)) : Quiet c c' := by
  obtain ⟨⟨n, e, inputBuffer⟩, hread, h⟩ := bind_eq_ok.1 h
  have hn : n ≠ 0 := by
    cases r with
    | error e =>
      cases hread
      decide
    | data bytes =>
      rw [Buffer.readFd_count hread, Int.natCast_ne_zero]
      rintro hnil
      rw [List.length_eq_zero_iff.1 hnil] at hopen
      exact hopen
  simp only [if_neg hn] at h
  split_ifs at h <;> cases h <;> exact ⟨id, rfl, rfl, rfl⟩

theorem sent_or_quiet_send {data : List UInt8} {w : WriteResult} (hlive : Live c)
    (h : c.send data w = .ok (c', es)) : Quiet c c' ∨ ∃ data w, Sent c data w c' := by
  unfold send at h
  split_ifs at h
  · exact .inr ⟨data, w, sendInLoop_spec hlive.wf hlive.state h⟩
  · cases h
    exact .inl .refl

/-- The three things an event can do to a live connection: nothing to its output, a message sent,
or bytes taken out of the output buffer. -/
theorem Event.live_cases (hlive : Live c) (hopen : e.KeepsOpen) (hlegal : e.Legal c)
    (h : c.handle e = .ok (c', es)) :
    ((∀ w, e ≠ .handleWrite w) ∧ (Quiet c c' ∨ ∃ data w, Sent c data w c')) ∨
      ∃ w, e = .handleWrite w ∧ Drained c w c' := by
  cases e with
  | send buf w => exact .inl ⟨nofun, sent_or_quiet_send hlive h⟩
  | sendBuffer buf w =>
    obtain ⟨⟨c₁, es₁, buf'⟩, hsend, heq⟩ := bind_eq_ok.1 h
    cases heq
    exact .inl ⟨nofun, sent_or_quiet_send hlive (sendBuffer_eq_ok hlegal.1 hsend)⟩
  | sendInLoop message w =>
    exact .inl ⟨nofun, .inr ⟨message, w, sendInLoop_spec hlive.wf hlive.state h⟩⟩
  | shutdown => cases h; exact .inl ⟨nofun, .inl quiet_shutdown⟩
  | setDisconnecting => cases h; exact .inl ⟨nofun, .inl quiet_setDisconnecting⟩
  | shutdownInLoop => cases h; exact .inl ⟨nofun, .inl quiet_shutdownInLoop⟩
  | handleRead r => exact .inl ⟨nofun, .inl (quiet_handleRead hopen h)⟩
  | handleWrite w =>
    obtain rfl : (c.handleWrite w).1 = c' := congrArg Prod.fst (Except.ok.inj h)
    exact .inr ⟨w, rfl, handleWrite_spec hlive.wf⟩
  | handleClose => exact hopen.elim
  | connectDestroyed => exact hopen.elim

/-- Events that do not close a live connection keep it live. -/
theorem Live.step (hlive : Live c) (h : (lts Event.KeepsOpen).step c e c') : Live c' := by
  obtain ⟨hopen, hlegal, es, hok⟩ := h
  rcases Event.live_cases hlive hopen hlegal hok with ⟨-, hq | ⟨data, w, hs⟩⟩ | ⟨w, -, hd⟩
  · exact ⟨hq.state hlive.state, hq.outputBuffer ▸ hlive.wf, hq.channel ▸ hlive.registered⟩
  · cases hs with
    | split _ hstate _ _ _ _ hwf _ _ hreg =>
      exact ⟨hstate ▸ hlive.state, hwf, hreg hlive.registered⟩
    | dropped => exact hlive
  · cases hd with
    | idle => exact hlive
    | taken _ _ _ _ hstate _ _ hwf _ _ hreg =>
      exact ⟨hstate ▸ hlive.state, hwf, hreg hlive.registered⟩

/-- The channel is writing exactly while bytes are pending, and it is reading. -/
structure Interest (c : TcpConnection) : Prop where
  writing : c.channel.isWriting = true ↔ c.outputBuffer.readable ≠ []
  reading : c.channel.isReading = true

theorem interest_established (wc hw : Bool) (mark : ℕ) : Interest (established wc hw mark) where
  writing := by simp [established, connectEstablished, setState, create]; decide
  reading := by simp [established, connectEstablished, setState]

/-- An event that does not drain the output buffer keeps the interest right. -/
theorem Interest.step (hlive : Live c) (hI : Interest c) (hdrains : ¬ e.Drains c)
    (h : (lts Event.KeepsOpen).step c e c') : Interest c' := by
  obtain ⟨hopen, hlegal, es, hok⟩ := h
  rcases Event.live_cases hlive hopen hlegal hok with ⟨-, hq | ⟨data, w, hs⟩⟩ | ⟨w, rfl, hd⟩
  · exact ⟨by rw [hq.channel, hq.outputBuffer]; exact hI.writing, by
      rw [hq.channel]; exact hI.reading⟩
  · cases hs with
    | @split _ sent rest _ _ _ hreading _ _ _ hread hwriting _ =>
      refine ⟨?_, hreading.trans hI.reading⟩
      have := hI.writing
      rw [hwriting, hread]
      cases hw : c.channel.isWriting <;> simp_all
    | dropped => exact hI
  · cases hd with
    | idle => exact hI
    | @taken _ n hw hpos hwr hwr' _ _ _ hwf hread hreading _ =>
      subst hw
      have hne : c'.outputBuffer.readable ≠ [] := by
        rw [hread]
        exact fun hnil => hdrains ⟨hwr, hpos, hnil⟩
      exact ⟨by simp [hwr', hne], by simp [hreading, hI.reading, hne]⟩

/-- An event that drains the output buffer leaves the channel writing, and no longer reading. -/
theorem Event.Drains.breaks (hlive : Live c) (hdrains : e.Drains c)
    (h : (lts Event.KeepsOpen).step c e c') : ¬ Interest c' := by
  obtain ⟨hopen, hlegal, es, hok⟩ := h
  rcases Event.live_cases hlive hopen hlegal hok with ⟨hne, -⟩ | ⟨w, rfl, hd⟩
  · cases e with
    | handleWrite w => exact absurd rfl (hne w)
    | _ => exact hdrains.elim
  · cases w with
    | error e => exact hdrains.elim
    | accepted m =>
      obtain ⟨hwr, hpos, hnil⟩ := hdrains
      cases hd with
      | idle hidle => exact absurd (hidle hwr m rfl) (Nat.ne_of_gt hpos)
      | taken hw _ _ hwr' _ _ _ _ hread _ _ =>
        cases hw
        intro hI
        exact hI.writing.1 hwr' (hread.trans hnil)

/-! ### Runs of an open connection -/

variable {tr : List (TcpConnection × Event)} {wc hw : Bool} {mark : ℕ}

/-- **When the interest is right.**  In a run of a connection from `connectEstablished` on, up to
its close, the channel is in every state writing exactly while bytes are pending, and reading, iff
no write event of the run drains the output buffer. -/
theorem interest_iff (h : (lts Event.KeepsOpen).Run (established wc hw mark) tr c) :
    ((∀ p ∈ tr, Interest p.1) ∧ Interest c) ↔ ∀ p ∈ tr, ¬ p.2.Drains p.1 :=
  h.forall_iff (live_established wc hw mark) (interest_established wc hw mark)
    (fun _ _ _ hlive => hlive.step) (fun _ _ _ hlive hI hdrains => hI.step hlive hdrains)
    (fun _ _ _ hlive _ hdrains => (not_not.1 hdrains).breaks hlive)

/-- The first bytes of a message are written at once, the last one is pending. -/
theorem interest_iff_pending :
    ∃ tr c, (lts Event.KeepsOpen).Run (established true false 0) tr c ∧
      c.outputBuffer.readable = [3] ∧ (∀ p ∈ tr, Interest p.1) ∧ Interest c := by
  have hplay : (play Event.KeepsOpen (established true false 0)
      [.send [1, 2, 3] (.accepted 2)]).map (·.outputBuffer.readable) = some [3] := by
    decide +kernel
  obtain ⟨c, hplay, hread⟩ := Option.map_eq_some_iff.1 hplay
  obtain ⟨tr, hrun, htr⟩ := run_of_play hplay
  refine ⟨tr, c, hrun, hread, (interest_iff hrun).2 fun p hp => ?_⟩
  have hmem := htr ▸ List.mem_map_of_mem (f := Prod.snd) hp
  rw [List.mem_singleton.1 hmem]
  exact id

/-- A message is written in two parts, the last one by `handleWrite`; after that the channel is
no longer reading. -/
theorem not_interest_drained :
    ∃ tr c, (lts Event.KeepsOpen).Run (established true false 0) tr c ∧
      tr.map Prod.snd = [.send [1, 2, 3] (.accepted 2), .handleWrite (.accepted 1)] ∧
      ¬ Interest c := by
  have hplay : (play Event.KeepsOpen (established true false 0)
      [.send [1, 2, 3] (.accepted 2), .handleWrite (.accepted 1)]).map (·.channel.isReading)
        = some false := by
    decide +kernel
  obtain ⟨c, hplay, hread⟩ := Option.map_eq_some_iff.1 hplay
  obtain ⟨tr, hrun, htr⟩ := run_of_play hplay
  exact ⟨tr, c, hrun, htr, fun hI => absurd hI.reading (by simp [hread])⟩

end TcpConnection

end TinyNetwork
