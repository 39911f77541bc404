import TinyNetwork.Net.Interest

/-!
# Half-closing a connection

`shutdown` waits for the pending bytes: it calls `shutdownWrite` at once if the channel is not
writing, and leaves it to `handleWrite` otherwise.  Both sides ask the event mask.  As
`disableWriting` keeps the write interest, the mask can say that bytes are pending when none are.
What the kernel holds is another matter: `connectDestroyed` takes the channel out of the poller, and
its mask stays as it was.

## Main results

* `OnLoop.cases` : what an event on the loop thread does to the output and the state.
* `Ordered.step` : `shutdownWrite` is only called with an empty output buffer.
* `graceful_iff` : a connection that is disconnecting has bytes pending and is registered for
  writing, or has been half-closed, all along a run, iff no `shutdown` finds a stale write interest,
  no write event drains the output buffer of a connection that is disconnecting, and no
  `connectDestroyed` finds bytes pending in it.
-/

namespace TinyNetwork

open Lp64

namespace TcpConnection

/-- The events of a connection used on its loop thread only, without a fault on a write. -/
def Event.OnLoop : Event → Prop
  | .send _ w | .sendBuffer _ w | .handleWrite w => w.isFault = false
  | .sendInLoop _ _ | .setDisconnecting | .shutdownInLoop => False
  | _ => True

instance : DecidablePred Event.OnLoop
  | .send _ w | .sendBuffer _ w | .handleWrite w => inferInstanceAs (Decidable (w.isFault = false))
  | .sendInLoop _ _ | .setDisconnecting | .shutdownInLoop => inferInstanceAs (Decidable False)
  | .shutdown | .handleRead _ | .handleClose | .connectDestroyed => inferInstanceAs (Decidable True)

/-- `shutdownWrite` was never called with bytes pending, and a connection that is disconnecting
has bytes pending and is registered for writing, or has been half-closed. -/
structure Graceful (c : TcpConnection) : Prop where
  flushed : ∀ n ∈ c.socket.shutdownWrites, n = 0
  closing : c.state = .kDisconnecting →
    c.outputBuffer.readable ≠ [] ∧ c.channel.AwaitsWrite ∨ c.socket.shutdownWrites ≠ []

/-- A step after which nothing is left to half-close the connection: a `shutdown` that finds the
channel writing with nothing pending, a write event that drains the output buffer of a connection
that is disconnecting, or a `connectDestroyed` that takes the channel of such a connection out of
the poller while bytes are pending. -/
def Event.Strands (c : TcpConnection) : Event → Prop
  | .shutdown =>
    c.state = .kConnected ∧ c.channel.isWriting = true ∧ c.outputBuffer.readable = []
  | .handleWrite w => c.state = .kDisconnecting ∧ (Event.handleWrite w).Drains c
  | .connectDestroyed => c.state = .kDisconnecting ∧ c.outputBuffer.readable ≠ []
  | _ => False

/-- What holds in every run on the loop thread: a connected channel is registered, pending bytes
are waited for, and nothing is pending after `shutdownWrite`. -/
structure Ordered (c : TcpConnection) : Prop where
  wf : c.outputBuffer.Wf
  registered : c.state = .kConnected → c.channel.Registered
  tidy : c.channel.Tidy
  writing : c.state ≠ .kDisconnected → c.outputBuffer.readable ≠ [] → c.channel.isWriting = true
  flushed : ∀ n ∈ c.socket.shutdownWrites, n = 0
  closed : c.socket.shutdownWrites ≠ [] →
    c.state ≠ .kConnected ∧ c.channel.isWriting = false ∧ c.outputBuffer.readable = []

/-- The state, the output and the channel are left alone. -/
structure Same (c c' : TcpConnection) : Prop where
  state : c'.state = c.state
  socket : c'.socket = c.socket
  channel : c'.channel = c.channel
  outputBuffer : c'.outputBuffer = c.outputBuffer

/-- The connection is disconnected, and its channel no longer writing. -/
structure Closed (c c' : TcpConnection) : Prop where
  state : c'.state = .kDisconnected
  socket : c'.socket = c.socket
  isWriting : c'.channel.isWriting = false
  tidy : c'.channel.Tidy
  outputBuffer : c'.outputBuffer = c.outputBuffer

/-- What an event on the loop thread does to the output and the state. -/
inductive OnLoopStep (c : TcpConnection) : Event → TcpConnection → Prop
  | same {e : Event} {c' : TcpConnection} (he : ¬ e.Strands c) (h : Same c c') : OnLoopStep c e c'
  | sent {e : Event} {c' : TcpConnection} {data : List UInt8} {w : WriteResult}
      (he : ¬ e.Strands c) (hstate : c.state = .kConnected)
      (hw : w.isFault = false) (h : Sent c data w c') : OnLoopStep c e c'
  | shutdown (hstate : c.state = .kConnected) :
      OnLoopStep c .shutdown (c.setState .kDisconnecting).shutdownInLoop
  | drained {w : WriteResult} {c' : TcpConnection} (h : Drained c w c')
      (hawaits : c.channel.AwaitsWrite → c'.channel.AwaitsWrite)
      (htidy : c.channel.Tidy → c'.channel.Tidy) : OnLoopStep c (.handleWrite w) c'
  | removed (hstate : c.state ≠ .kConnected) :
      OnLoopStep c .connectDestroyed { c with channel := c.channel.remove }
  | closed {e : Event} {c' : TcpConnection} (he : ¬ e.Strands c) (h : Closed c c') :
      OnLoopStep c e c'

variable {c c' : TcpConnection} {e : Event} {es : List Effect}

theorem onLoopStep_send {buf : List UInt8} {w : WriteResult} (hwf : c.outputBuffer.Wf)
    (hw : w.isFault = false) (he : ¬ e.Strands c) (h : c.send buf w = .ok (c', es)) :
    OnLoopStep c e c' := by
  unfold send at h
  split_ifs at h with hstate
  · exact .sent he hstate hw (sendInLoop_spec hwf (by simp [hstate]) h)
  · cases h
    exact .same he ⟨rfl, rfl, rfl, rfl⟩

/-- A write event leaves the channel alone, or calls `disableWriting` on it. -/
theorem channel_handleWrite {w : WriteResult} : (c.handleWrite w).1.channel = c.channel ∨
    c.channel.isWriting = true ∧ (c.handleWrite w).1.channel = c.channel.disableWriting := by
  have hdata : (c.handleWriteData w).1.channel = c.channel ∨
      c.channel.isWriting = true ∧ (c.handleWriteData w).1.channel = c.channel.disableWriting := by
    unfold handleWriteData
    split
    · rename_i hwriting
      simp only
      split
      · split
        · exact .inr ⟨hwriting, rfl⟩
        · exact .inl rfl
      · exact .inl rfl
    · exact .inl rfl
  simp only [handleWrite]
  split_ifs
  · rw [quiet_shutdownInLoop.channel]
    exact hdata
  · exact hdata

theorem OnLoop.cases (hwf : c.outputBuffer.Wf) (hon : e.OnLoop) (hlegal : e.Legal c)
    (h : c.handle e = .ok (c', es)) : OnLoopStep c e c' := by
  cases e with
  | send buf w => exact onLoopStep_send hwf hon id h
  | sendBuffer buf w =>
    obtain ⟨⟨c₁, es₁, buf'⟩, hsend, heq⟩ := bind_eq_ok.1 h
    cases heq
    exact onLoopStep_send hwf hon id (sendBuffer_eq_ok hlegal.1 hsend)
  | shutdown =>
    cases h
    by_cases hstate : c.state = .kConnected
    · rw [TcpConnection.shutdown, if_pos hstate]
      exact .shutdown hstate
    · rw [TcpConnection.shutdown, if_neg hstate]
      exact .same (fun hs => hstate hs.1) ⟨rfl, rfl, rfl, rfl⟩
  | handleRead r =>
    obtain ⟨⟨n, errno, inputBuffer⟩, hread, h⟩ := bind_eq_ok.1 h
    simp only at h
    split_ifs at h <;> cases h
    · exact .same id ⟨rfl, rfl, rfl, rfl⟩
    · exact .closed id ⟨rfl, rfl, by simp, Channel.tidy_update, rfl⟩
    · exact .same id ⟨rfl, rfl, rfl, rfl⟩
  | handleWrite w =>
    obtain rfl : (c.handleWrite w).1 = c' := congrArg Prod.fst (Except.ok.inj h)
    refine .drained (handleWrite_spec hwf) (fun h => ?_) fun h => ?_ <;>
      rcases channel_handleWrite (c := c) (w := w) with heq | ⟨hwriting, heq⟩ <;> rw [heq]
    · exact h
    · exact Channel.awaitsWrite_disableWriting hwriting
    · exact h
    · exact Channel.tidy_update
  | handleClose =>
    cases h
    exact .closed id ⟨rfl, rfl, by simp, Channel.tidy_update, rfl⟩
  | connectDestroyed =>
    obtain rfl : c.connectDestroyed.1 = c' := congrArg Prod.fst (Except.ok.inj h)
    unfold TcpConnection.connectDestroyed
    split_ifs with hstate
    · have hne : ¬ Event.connectDestroyed.Strands c := fun hs => by cases hstate.symm.trans hs.1
      exact .closed hne ⟨rfl, rfl, by simp, fun _ => Channel.tidy_update.remove, rfl⟩
    · exact .removed hstate
  | sendInLoop | setDisconnecting | shutdownInLoop => exact hon.elim

/-! ### One step -/

theorem ordered_established (wc hw : Bool) (mark : ℕ) : Ordered (established wc hw mark) where
  wf := Buffer.wf_empty
  registered := fun _ => Channel.registered_enableReading_create
  tidy := Channel.tidy_update
  writing := fun _ h => absurd Buffer.readable_empty h
  flushed := fun _ h => nomatch h
  closed := fun h => absurd rfl h

theorem graceful_established (wc hw : Bool) (mark : ℕ) : Graceful (established wc hw mark) where
  flushed := fun _ h => nomatch h
  closing := fun h => by simp [established, connectEstablished, setState] at h

/-- `shutdown` on a connected connection half-closes it, unless its channel is writing. -/
theorem shutdown_connected (hJ : Ordered c) (hstate : c.state = .kConnected) :
    (c.channel.isWriting = true ∧
        (c.setState .kDisconnecting).shutdownInLoop = c.setState .kDisconnecting) ∨
      (c.channel.isWriting = false ∧ c.outputBuffer.readable = [] ∧
        (c.setState .kDisconnecting).shutdownInLoop =
          { c.setState .kDisconnecting with
            socket.shutdownWrites := c.socket.shutdownWrites ++ [0] }) := by
  cases hw : c.channel.isWriting with
  | true => exact .inl ⟨rfl, shutdownInLoop_of_isWriting hw⟩
  | false =>
    have hnil : c.outputBuffer.readable = [] := by
      by_contra hne
      simp [hJ.writing (by simp [hstate]) hne] at hw
    refine .inr ⟨rfl, hnil, ?_⟩
    simp [shutdownInLoop, setState, hw, hJ.wf.readable_eq_nil_iff.1 hnil]

/-- Every event on the loop thread keeps the order of writes and half-close. -/
theorem Ordered.step (hJ : Ordered c) (h : OnLoopStep c e c') : Ordered c' := by
  cases h with
  | same _ h =>
    obtain ⟨hstate, hsock, hch, hb⟩ := h
    exact ⟨hb ▸ hJ.wf, by rw [hstate, hch]; exact hJ.registered, hch ▸ hJ.tidy,
      by rw [hstate, hb, hch]; exact hJ.writing, by rw [hsock]; exact hJ.flushed,
      by rw [hsock, hstate, hch, hb]; exact hJ.closed⟩
  | sent _ hstate hw h =>
    cases h with
    | dropped hfault => simp [hw] at hfault
    | split _ _ hfin _ _ _ hwf hread hwriting hreg =>
      have hregistered := hreg (hJ.registered hstate)
      refine ⟨hwf, fun _ => hregistered, fun h => absurd hregistered.1 h, fun _ hne => ?_,
        hfin ▸ hJ.flushed, fun h => ?_⟩
      · -- what is left of the message is pending, so the channel is writing
        rw [hread] at hne
        have := hJ.writing (by simp [hstate])
        rw [hwriting]
        cases hw : c.channel.isWriting <;> simp_all
      · exact absurd hstate (hJ.closed (hfin ▸ h)).1
  | shutdown hstate =>
    rcases shutdown_connected hJ hstate with ⟨hw, heq⟩ | ⟨hw, hnil, heq⟩ <;> rw [heq]
    · exact ⟨hJ.wf, nofun, hJ.tidy, fun _ _ => hw, hJ.flushed,
        fun h => absurd hstate (hJ.closed h).1⟩
    · -- nothing is pending: the write side is shut down at once
      refine ⟨hJ.wf, nofun, hJ.tidy, fun _ hne => absurd hnil hne, fun n hn => ?_,
        fun _ => ⟨?_, hw, hnil⟩⟩
      · rcases List.mem_append.1 hn with hn | hn
        · exact hJ.flushed n hn
        · exact List.mem_singleton.1 hn
      · simp [setState]
  | drained h _ htidy =>
    cases h with
    | idle => exact hJ
    | taken _ _ hwriting hwriting' hstate hfin _ hwf _ _ hreg =>
      refine ⟨hwf, fun h => hreg (hJ.registered (hstate ▸ h)), htidy hJ.tidy,
        fun _ _ => hwriting', hfin ▸ hJ.flushed, fun h => ?_⟩
      have := (hJ.closed (hfin ▸ h)).2.1
      simp [hwriting] at this
  | removed hstate =>
    exact ⟨hJ.wf, fun h => absurd h hstate, fun _ => hJ.tidy.remove, hJ.writing, hJ.flushed,
      hJ.closed⟩
  | closed _ h =>
    obtain ⟨hstate, hsock, hw, htidy, hb⟩ := h
    refine ⟨hb ▸ hJ.wf, fun h => (by cases hstate.symm.trans h), htidy, fun h => absurd hstate h,
      by rw [hsock]; exact hJ.flushed, fun h => ?_⟩
    exact ⟨by simp [hstate], hw, hb ▸ (hJ.closed (hsock ▸ h)).2.2⟩

/-- A step that strands nothing keeps the half-close graceful. -/
theorem Graceful.step (hJ : Ordered c) (hI : Graceful c) (he : ¬ e.Strands c)
    (h : OnLoopStep c e c') : Graceful c' := by
  refine ⟨(hJ.step h).flushed, ?_⟩
  cases h with
  | same _ h => rw [h.state, h.outputBuffer, h.channel, h.socket]; exact hI.closing
  | sent _ hstate hw h =>
    cases h with
    | dropped hfault => simp [hw] at hfault
    | split _ hstate' => intro h; simp [hstate', hstate] at h
  | shutdown hstate =>
    rcases shutdown_connected hJ hstate with ⟨hw, heq⟩ | ⟨-, -, heq⟩ <;> rw [heq]
    · -- bytes are pending, for which the channel is registered
      exact fun _ => .inl ⟨fun hnil => he ⟨hstate, hw, hnil⟩, (hJ.registered hstate).awaitsWrite hw⟩
    · exact fun _ => .inr (by simp)
  | drained h hawaits =>
    cases h with
    | idle => exact hI.closing
    | taken hw hpos hwriting hwriting' hstate hfin _ _ hread _ _ =>
      intro hclosing
      rcases hI.closing (hstate ▸ hclosing) with ⟨-, hregistered⟩ | hclosed
      · refine .inl ⟨fun hnil => ?_, hawaits hregistered⟩
        subst hw
        exact he ⟨hstate ▸ hclosing, hwriting, hpos, hread ▸ hnil⟩
      · exact .inr (hfin ▸ hclosed)
  | removed =>
    -- nothing is pending, so the connection has been half-closed before
    intro hclosing
    exact .inr ((hI.closing hclosing).resolve_left fun h => he ⟨hclosing, h.1⟩)
  | closed _ h => intro hclosing; simp [h.state] at hclosing

/-- After a stranding step the connection waits for nothing and has not been half-closed. -/
theorem Event.Strands.breaks (hJ : Ordered c) (he : e.Strands c) (h : OnLoopStep c e c') :
    ¬ Graceful c' := by
  cases h with
  | same hne | sent hne | closed hne => exact absurd he hne
  | shutdown hstate =>
    obtain ⟨-, hwriting, hnil⟩ := he
    rcases shutdown_connected hJ hstate with ⟨-, heq⟩ | ⟨hw, -⟩
    · rw [heq]
      intro hI
      rcases hI.closing rfl with ⟨hne, -⟩ | hfin
      · exact hne hnil
      · exact (hJ.closed hfin).1 hstate
    · simp [hwriting] at hw
  | removed =>
    obtain ⟨hstate, hne⟩ := he
    intro hI
    rcases hI.closing hstate with ⟨-, mask, hmask, -⟩ | hfin
    · -- the kernel holds no mask of a channel that was removed
      cases hJ.tidy.remove.symm.trans hmask
    · exact hne (hJ.closed hfin).2.2
  | @drained w _ h =>
    obtain ⟨hstate, hdrains⟩ := he
    cases w with
    | error e => exact hdrains.elim
    | accepted m =>
      obtain ⟨hwriting, hpos, hnil⟩ := hdrains
      cases h with
      | idle hidle => exact absurd (hidle hwriting m rfl) (Nat.ne_of_gt hpos)
      | taken hw _ _ _ hstate' hfin _ _ hread _ _ =>
        cases hw
        intro hI
        rcases hI.closing (hstate' ▸ hstate) with ⟨hne, -⟩ | h
        · exact hne (hread.trans hnil)
        · have := (hJ.closed (hfin ▸ h)).2.1
          simp [hwriting] at this

/-! ### Runs on the loop thread -/

variable {tr : List (TcpConnection × Event)} {wc hw : Bool} {mark : ℕ}

theorem Ordered.lts_step (hJ : Ordered c) (h : (lts Event.OnLoop).step c e c') :
    OnLoopStep c e c' := by
  obtain ⟨hon, hlegal, es, hok⟩ := h
  exact OnLoop.cases hJ.wf hon hlegal hok

/-- **When the half-close is graceful.**  In a run of an established connection on its loop thread
`shutdownWrite` is only called with nothing pending, and in every state of a connection that is
disconnecting bytes are pending and the channel is registered for writing or it has been
half-closed, iff no step of the run is stranding. -/
theorem graceful_iff (h : (lts Event.OnLoop).Run (established wc hw mark) tr c) :
    ((∀ p ∈ tr, Graceful p.1) ∧ Graceful c) ↔ ∀ p ∈ tr, ¬ p.2.Strands p.1 :=
  h.forall_iff (ordered_established wc hw mark) (graceful_established wc hw mark)
    (fun _ _ _ hJ hst => hJ.step (hJ.lts_step hst))
    (fun _ _ _ hJ hI he hst => hI.step hJ he (hJ.lts_step hst))
    (fun _ _ _ hJ _ he hst => (not_not.1 he).breaks hJ (hJ.lts_step hst))

/-- A connection is shut down with nothing pending. -/
theorem graceful_iff_shutdown :
    ∃ tr c, (lts Event.OnLoop).Run (established true false 0) tr c ∧
      c.state = .kDisconnecting ∧ (∀ p ∈ tr, Graceful p.1) ∧ Graceful c := by
  have hst : (lts Event.OnLoop).step (established true false 0) .shutdown
      (established true false 0).shutdown := ⟨trivial, trivial, [], rfl⟩
  have hrun : (lts Event.OnLoop).Run (established true false 0) _ _ := .snoc .nil hst
  refine ⟨_, _, hrun, rfl, (graceful_iff hrun).2 fun p hp hs => ?_⟩
  rw [List.mem_singleton.1 hp] at hs
  exact absurd hs.2.1 (by decide)

/-- A connection is shut down with a byte pending; once it is written nothing is left to half-close
the connection. -/
theorem not_graceful_drained :
    ∃ tr c, (lts Event.OnLoop).Run (established true false 0) tr c ∧
      tr.map Prod.snd =
        [.send [1, 2, 3] (.accepted 2), .shutdown, .handleWrite (.accepted 1)] ∧
      ¬ Graceful c := by
  have hplay : (play Event.OnLoop (established true false 0)
      [.send [1, 2, 3] (.accepted 2), .shutdown, .handleWrite (.accepted 1)]).map
        (fun c => (c.state, c.outputBuffer.readable, c.socket.shutdownWrites))
        = some (.kDisconnecting, [], []) := by
    decide +kernel
  obtain ⟨c, hplay, hc⟩ := Option.map_eq_some_iff.1 hplay
  obtain ⟨tr, hrun, htr⟩ := run_of_play hplay
  simp only [Prod.mk.injEq] at hc
  refine ⟨tr, c, hrun, htr, fun hI => ?_⟩
  rcases hI.closing hc.1 with ⟨hne, -⟩ | hne
  · exact hne hc.2.1
  · exact hne hc.2.2

end TcpConnection

end TinyNetwork
