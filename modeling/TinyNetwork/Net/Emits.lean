import TinyNetwork.Net.OutputStream

/-!
# What a connection emits

What a connection has written, followed by what it has buffered, in terms of the calls of its loop:
a call of `send` adds its message at the end, and nothing else changes it.

## Main results

* `Emits.send` : `send` adds its message.
* `Emits.event` : the events of the channel change nothing.
-/

namespace TinyNetwork

namespace TcpConnection

variable {c c' : TcpConnection} {bytes data : List UInt8} {w : WriteResult} {es : List Effect}

/-- What a connection has written, followed by what it has buffered. -/
structure Emits (c : TcpConnection) (bytes : List UInt8) : Prop where
  wf : c.outputBuffer.Wf
  stream : c.socket.written ++ c.outputBuffer.readable = bytes

theorem emits_established {wc hw : Bool} {mark : ℕ} : Emits (established wc hw mark) [] :=
  ⟨Buffer.wf_empty, Buffer.readable_empty⟩

theorem Emits.congr (h : Emits c bytes) (hb : c'.outputBuffer = c.outputBuffer)
    (hw : c'.socket.written = c.socket.written) : Emits c' bytes :=
  ⟨hb ▸ h.wf, by rw [hw, hb]; exact h.stream⟩

/-- `send` adds its message, whatever part of it is written at once. -/
theorem Emits.send (h : Emits c bytes) (hconn : c.state = .kConnected) (hw : w.isFault = false)
    (hsend : c.send data w = .ok (c', es)) : Emits c' (bytes ++ data) := by
  have hstream : Shared.Stream c [bytes] := ⟨by simp [hconn], h.wf, by simpa using h.stream⟩
  have hstream' := hstream.send hw hsend
  rw [if_pos hconn] at hstream'
  exact ⟨hstream'.wf, by simpa using hstream'.stream⟩

/-- `handleWrite` moves bytes from the buffer to the socket, also on a connection that is closed. -/
theorem Emits.drained (h : Emits c bytes) (hcount : w.count < 2 ^ 31) (hd : Drained c w c') :
    Emits c' bytes := by
  cases hd with
  | idle => exact h
  | @taken _ n hw _ _ _ _ _ hwritten hwf hread _ _ =>
    subst hw
    -- the bytes taken are the ones written
    have hn : Lp64.toSize (Lp64.toInt n) = n := Lp64.toSize_toInt_of_lt hcount
    refine ⟨hwf, ?_⟩
    rw [hwritten, hread, hn, List.append_assoc, List.take_append_drop]
    exact h.stream

theorem Emits.shutdown (h : Emits c bytes) : Emits c.shutdown bytes :=
  h.congr quiet_shutdown.outputBuffer quiet_shutdown.written

/-- The events of the channel, and `connectDestroyed`. -/
def Event.OfChannel : Event → Prop
  | .handleRead _ | .handleWrite _ | .handleClose | .connectDestroyed => True
  | _ => False

/-- **The events of the channel change nothing.** -/
theorem Emits.event {e : Event} (h : Emits c bytes) (he : e.OfChannel) (hlegal : e.Legal c)
    (hpending : c.outputBuffer.readableBytes < 2 ^ 31) (hok : c.handle e = .ok (c', es)) :
    Emits c' bytes := by
  -- no other event touches the output buffer or the socket
  have hquiet (he : Shared.Direct e) (hsend : ∀ buf w, e ≠ .send buf w)
      (hbuffer : ∀ buf w, e ≠ .sendBuffer buf w) : Emits c' bytes := by
    obtain ⟨hb, hw⟩ := Shared.output_handle he hsend hbuffer hok
    exact h.congr hb hw
  cases e with
  | send | sendBuffer | sendInLoop | shutdown | setDisconnecting | shutdownInLoop => exact he.elim
  | handleWrite w =>
    obtain rfl : (c.handleWrite w).1 = c' := congrArg Prod.fst (Except.ok.inj hok)
    have hcount : w.count < 2 ^ 31 := by
      cases w with
      | accepted n => exact Nat.lt_of_le_of_lt hlegal hpending
      | error e => exact Nat.two_pow_pos 31
    have hdata := h.drained hcount (handleWriteData_spec h.wf).1
    simp only [handleWrite]
    split_ifs
    · exact hdata.congr quiet_shutdownInLoop.outputBuffer quiet_shutdownInLoop.written
    · exact hdata
  | _ => exact hquiet trivial (by simp) (by simp)

end TcpConnection

end TinyNetwork
