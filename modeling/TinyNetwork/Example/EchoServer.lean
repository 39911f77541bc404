import TinyNetwork.Http.HttpServer
import TinyNetwork.Net.Emits

/-!
# The echo server

`EchoServer` takes all bytes out of the input buffer of a connection and sends them back.  A peer
sees the bytes it has sent, whatever pieces they are read and written in.

## Main results

* `Echoed.step` : one step keeps what is emitted equal to what has been received.
* `echo_exact` : so does every run.
-/

namespace TinyNetwork

open TcpConnection

namespace EchoServer

/-- `onMessage(conn, buf, time)`, when `::write`, if it is called, returns `w`. -/
def onMessage (conn : TcpConnection) (w : WriteResult) :
    Except Fault (TcpConnection × List Effect) := do
  let (msg, inputBuffer) ← conn.inputBuffer.retrieveAllAsString
  { conn with inputBuffer }.send msg w

/-- A connection, and the bytes it has received while it was connected. -/
structure Session where
  conn : TcpConnection
  received : List UInt8

/-- What drives a session. -/
inductive Action where
  | read (bytes : List UInt8) (w : WriteResult)
  | event (e : Event)

namespace Session

/-- A session of a connection that is just established. -/
def start (wc hw : Bool) (mark : ℕ) : Session := ⟨.established wc hw mark, []⟩

/-- Bytes arrive, and `handleRead` calls `onMessage`. -/
def read (s : Session) (bytes : List UInt8) (w : WriteResult) : Except Fault Session := do
  let (conn, _) ← s.conn.handleRead (.data bytes)
  let (conn, _) ← onMessage conn w
  return ⟨conn, s.received ++ if s.conn.state = .kConnected then bytes else []⟩

/-- The runs of a session. -/
def lts : LTS Session Action where
  step s a s' := match a with
    | .read bytes w =>
      bytes ≠ [] ∧ (Event.handleRead (.data bytes)).Legal s.conn ∧ s.read bytes w = .ok s'
    | .event e =>
      e.OfChannel ∧ (∀ bytes, e = .handleRead (.data bytes) → bytes = []) ∧ e.Legal s.conn ∧
        ∃ conn es, s.conn.handle e = .ok (conn, es) ∧ s' = { s with conn }

variable {s s' : Session} {a : Action}

/-- No write of the action fails with `EPIPE` or `ECONNRESET`, a read has at most the bytes that
Linux delivers at once, and less than `2 ^ 31` bytes are pending. -/
def Clean (s : Session) (a : Action) : Prop :=
  s.conn.outputBuffer.readableBytes < 2 ^ 31 ∧ match a with
    | .read bytes w => bytes.length ≤ WriteResult.maxTransfer ∧ w.isFault = false
    | .event _ => True

/-- What has been received has been sent back. -/
structure Echoed (s : Session) : Prop where
  input : s.conn.inputBuffer.Wf
  empty : s.conn.inputBuffer.readable = []
  emits : Emits s.conn s.received

theorem echoed_start {wc hw : Bool} {mark : ℕ} : Echoed (start wc hw mark) :=
  ⟨Buffer.wf_empty, Buffer.readable_empty, emits_established⟩

/-- `retrieveAllAsString` returns the readable bytes and leaves none. -/
theorem retrieveAllAsString_eq {b b' : Buffer} {msg : List UInt8} (hwf : b.Wf)
    (hlen : b.readable.length < 2 ^ 31) (h : b.retrieveAllAsString = .ok (msg, b')) :
    msg = b.readable ∧ b'.Wf ∧ b'.readable = [] := by
  have hbytes : b.readableBytes = b.readable.length := hwf.length_readable.symm
  rw [Buffer.retrieveAllAsString, hwf.retrieveAsString_of_le le_rfl] at h
  obtain ⟨rfl, rfl⟩ := Prod.ext_iff.1 (Except.ok.inj h)
  refine ⟨by rw [hbytes, List.take_length], hwf.retrieve _, ?_⟩
  -- the length does not change on its way through an `int`
  rw [hwf.readable_retrieve, hbytes, Lp64.toSize_toInt_of_lt hlen, List.drop_length]

/-- A read is sent back. -/
theorem Echoed.read {bytes : List UInt8} {w : WriteResult} (h : Echoed s) (hne : bytes ≠ [])
    (hlen : bytes.length < 2 ^ 31) (hw : w.isFault = false) (hread : s.read bytes w = .ok s') :
    Echoed s' := by
  obtain ⟨⟨conn₁, es₁⟩, hhandle, hread⟩ := bind_eq_ok.1 hread
  obtain ⟨⟨conn₂, es₂⟩, hmessage, heq⟩ := bind_eq_ok.1 hread
  cases heq
  obtain ⟨inputBuffer, rfl, hwf, hbytes⟩ := HttpServer.Session.handleRead_data h.input hhandle hne
  obtain ⟨⟨msg, rest⟩, hretrieve, hsend⟩ := bind_eq_ok.1 hmessage
  rw [h.empty, List.nil_append] at hbytes
  obtain ⟨rfl, hwf', hnil⟩ := retrieveAllAsString_eq hwf (by rwa [hbytes]) hretrieve
  obtain ⟨-, hinput, hsame⟩ := HttpServer.send_frame hsend
  -- taking bytes out of the input buffer emits nothing
  have hemits : Emits { s.conn with inputBuffer := rest } s.received := ⟨h.emits.wf, h.emits.stream⟩
  refine ⟨hinput ▸ hwf', hinput ▸ hnil, ?_⟩
  by_cases hconn : s.conn.state = .kConnected
  · simp only [if_pos hconn]
    rw [hbytes] at hsend
    exact hemits.send hconn hw hsend
  · -- `send` does nothing on a connection that is not connected
    simp only [if_neg hconn, List.append_nil]
    exact hsame hconn ▸ hemits

/-- The events that deliver no bytes leave the input buffer without any. -/
theorem input_event {e : Event} {conn : TcpConnection} {es : List Effect} (h : Echoed s)
    (he : e.OfChannel) (hnil : ∀ bytes, e = .handleRead (.data bytes) → bytes = [])
    (hok : s.conn.handle e = .ok (conn, es)) :
    conn.inputBuffer.Wf ∧ conn.inputBuffer.readable = [] := by
  cases e with
  | send | sendBuffer | sendInLoop | shutdown | setDisconnecting | shutdownInLoop => exact he.elim
  | handleRead r =>
    obtain ⟨⟨n, errno, inputBuffer⟩, hread, hok⟩ := bind_eq_ok.1 hok
    have hinput : inputBuffer.Wf ∧ inputBuffer.readable = [] := by
      cases r with
      | data bytes =>
        obtain rfl := hnil bytes rfl
        obtain ⟨-, -, hwf, hbytes⟩ := h.input.readFd_data hread
        exact ⟨hwf, by rw [hbytes, h.empty, List.nil_append]⟩
      | error errno =>
        cases hread
        exact ⟨h.input, h.empty⟩
    simp only at hok
    split_ifs at hok <;> cases hok <;> exact hinput
  | handleWrite w =>
    obtain rfl : (s.conn.handleWrite w).1 = conn := congrArg Prod.fst (Except.ok.inj hok)
    rw [(HttpServer.handleWrite_frame s.conn w).1]
    exact ⟨h.input, h.empty⟩
  | handleClose =>
    cases hok
    exact ⟨h.input, h.empty⟩
  | connectDestroyed =>
    obtain rfl : s.conn.connectDestroyed.1 = conn := congrArg Prod.fst (Except.ok.inj hok)
    unfold TcpConnection.connectDestroyed
    split_ifs <;> exact ⟨h.input, h.empty⟩

/-- **One step keeps what is emitted equal to what has been received.** -/
theorem Echoed.step (h : Echoed s) (hclean : s.Clean a) (hst : lts.step s a s') : Echoed s' := by
  cases a with
  | read bytes w =>
    obtain ⟨hne, -, hread⟩ := hst
    have hlen : bytes.length < 2 ^ 31 := hclean.2.1.trans_lt (by decide)
    exact h.read hne hlen hclean.2.2 hread
  | event e =>
    obtain ⟨he, hnil, hlegal, conn, es, hok, rfl⟩ := hst
    obtain ⟨hwf, hempty⟩ := input_event h he hnil hok
    exact ⟨hwf, hempty, h.emits.event he hlegal hclean.1 hok⟩

/-- **The echo.**  In every run of a connection whose peer does not reset it, however the bytes are
cut on their way in and out: what has been written, followed by what is pending, is what has been
received while the connection was connected, and no byte is left in the input buffer. -/
theorem echo_exact {wc hw : Bool} {mark : ℕ} {tr : List (Session × Action)}
    (h : lts.Run (start wc hw mark) tr s) (hclean : ∀ p ∈ tr, p.1.Clean p.2) :
    s.conn.socket.written ++ s.conn.outputBuffer.readable = s.received ∧
      s.conn.inputBuffer.readable = [] := by
  have hechoed : Echoed s :=
    (h.invariant_of (C := Clean) echoed_start (fun _ _ _ hI hC hst => hI.step hC hst) hclean).2
  exact ⟨hechoed.emits.stream, hechoed.empty⟩

/-- Five bytes are received, and two of them written at once. -/
theorem echo_exact_hello : ∃ s : Session, s.received = ascii "hello" ∧
    s.conn.socket.written ++ s.conn.outputBuffer.readable = s.received ∧
      s.conn.inputBuffer.readable = [] := by
  have hplay : ((start false false 0).read (ascii "hello") (.accepted 2)).toOption.map
      Session.received = some (ascii "hello") := by
    decide +kernel
  obtain ⟨s, hs, hreceived⟩ := Option.map_eq_some_iff.1 hplay
  have hread : (start false false 0).read (ascii "hello") (.accepted 2) = .ok s := by
    cases hok : (start false false 0).read (ascii "hello") (.accepted 2) with
    | error e =>
      rw [hok] at hs
      cases hs
    | ok s₁ =>
      rw [hok] at hs
      cases hs
      rfl
  have hst : lts.step (start false false 0) (.read (ascii "hello") (.accepted 2)) s :=
    ⟨by decide, by decide +kernel, hread⟩
  refine ⟨s, hreceived, echo_exact (LTS.Run.nil.snoc hst) fun p hp => ?_⟩
  obtain rfl := List.mem_singleton.1 hp
  exact ⟨by decide, by decide, rfl⟩

end Session

end EchoServer

end TinyNetwork
