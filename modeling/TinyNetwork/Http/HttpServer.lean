import TinyNetwork.Http.HttpContext
import TinyNetwork.Http.HttpResponse
import TinyNetwork.Net.Interest

/-!
# `HttpServer`

What the server does with the bytes of a connection.  Every call of `onMessage` parses the input
buffer with a context of its own, answers a request line it cannot read with a 400 response, and
gives a whole request to `httpCallback_`.

A `Session` is a connection and what the server has done on it.  It is driven by reads, which call
`onMessage`, and by the other events of the connection.

## Main results

* `onMessage_spec` : what a call of `onMessage` does, by the parse of the readable bytes.
* `read_cases` : what a read does to a session.
-/

namespace TinyNetwork

open HttpContext

/-- `HttpCallback` : the response after the callback. -/
abbrev HttpCallback := HttpRequest → HttpResponse → HttpResponse

namespace HttpServer

/-- `defaultHttpCallback`. -/
def defaultHttpCallback : HttpCallback := fun _ resp =>
  ((resp.setStatusCode .k404NotFound).setStatusMessage (ascii "Not Found")).setCloseConnection true

/-- The branch of `onMessage` for a request that cannot be parsed: the connection, and whether a
response was sent. -/
def badRequest (w : WriteResult) (conn : TcpConnection) : Except Fault (TcpConnection × Bool) := do
  let (c, _) ← conn.send (ascii "HTTP/1.1 400 Bad Request\r\n\r\n") w
  return (c.shutdown, conn.state = .kConnected)

/-- `onRequest(conn, req)`: the connection, and whether a response was sent that closes it. -/
def onRequest (httpCallback : HttpCallback) (w : WriteResult) (req : HttpRequest)
    (conn : TcpConnection) : Except Fault (TcpConnection × Bool) := do
  -- whatever the version and the `Connection` header say
  let close := true
  let response := httpCallback req (.new close)
  let buf ← response.appendToBuffer .empty
  let (c, _, _) ← conn.sendBuffer buf w
  if response.closeConnection then return (c.shutdown, conn.state = .kConnected)
  else return (c, false)

/-- What a call of `onMessage` has done. -/
structure Handled where
  conn : TcpConnection
  /-- A 400 response was sent. -/
  badRequest : Bool
  /-- The request given to `httpCallback_`. -/
  request : Option HttpRequest
  /-- A response with `closeConnection()` was sent. -/
  closeResponse : Bool

/-- `onMessage(conn, &conn->inputBuffer_, receiveTime)`, when the parse ends within `fuel`
iterations; the two sends write with the results `w` and `w'`. -/
def onMessage (httpCallback : HttpCallback) (fuel : ℕ) (receiveTime : ℤ) (w w' : WriteResult)
    (conn : TcpConnection) : Option (Except Fault Handled) := do
  let (ok, context, inputBuffer) ← parseRequest fuel new conn.inputBuffer receiveTime
  let conn := { conn with inputBuffer }
  return do
    let (conn, refused) ← (if ok then .ok (conn, false) else badRequest w conn)
    if context.gotAll then
      let (conn, closeResponse) ← onRequest httpCallback w' context.request conn
      return ⟨conn, refused, some context.request, closeResponse⟩
    else return ⟨conn, refused, none, false⟩

/-! ### What a call leaves alone -/

section Frame

open TcpConnection

variable {c c' conn : TcpConnection} {w w' : WriteResult} {es : List Effect} {b : Bool}

theorem sendInLoop_frame {data : List UInt8} (h : c.sendInLoop data w = .ok (c', es)) :
    c'.state = c.state ∧ c'.inputBuffer = c.inputBuffer := by
  unfold sendInLoop at h
  split_ifs at h with hstate
  · cases h
    exact ⟨rfl, rfl⟩
  obtain ⟨c₁, n, fault, q, hfirst⟩ : ∃ c₁ n fault q, c.writeFirst data w = (c₁, n, fault, q) :=
    ⟨_, _, _, _, rfl⟩
  obtain ⟨rfl, -, -⟩ := writeFirst_spec hfirst
  simp only [hfirst] at h
  split_ifs at h
  · obtain ⟨⟨c₂, es₂⟩, hbuf, heq⟩ := bind_eq_ok.1 h
    obtain ⟨outputBuffer, -, rfl⟩ := bufferRest_eq_ok hbuf
    cases heq
    exact ⟨rfl, rfl⟩
  · cases h
    exact ⟨rfl, rfl⟩

theorem send_frame {buf : List UInt8} (h : c.send buf w = .ok (c', es)) :
    c'.state = c.state ∧ c'.inputBuffer = c.inputBuffer ∧ (c.state ≠ .kConnected → c' = c) := by
  unfold send at h
  split_ifs at h with hstate
  · obtain ⟨hs, hb⟩ := sendInLoop_frame h
    exact ⟨hs, hb, fun hne => absurd hstate hne⟩
  · cases h
    exact ⟨rfl, rfl, fun _ => rfl⟩

theorem sendBuffer_frame {buf buf' : Buffer} (h : c.sendBuffer buf w = .ok (c', es, buf')) :
    c'.state = c.state ∧ c'.inputBuffer = c.inputBuffer ∧ (c.state ≠ .kConnected → c' = c) := by
  unfold sendBuffer at h
  split_ifs at h with hstate
  · obtain ⟨data, -, h⟩ := bind_eq_ok.1 h
    obtain ⟨⟨c₁, es₁⟩, hsend, heq⟩ := bind_eq_ok.1 h
    cases heq
    obtain ⟨hs, hb⟩ := sendInLoop_frame hsend
    exact ⟨hs, hb, fun hne => absurd hstate hne⟩
  · cases h
    exact ⟨rfl, rfl, fun _ => rfl⟩

theorem shutdown_frame (c : TcpConnection) : c.shutdown.state ≠ .kConnected ∧
    c.shutdown.inputBuffer = c.inputBuffer ∧ (c.state ≠ .kConnected → c.shutdown = c) := by
  unfold shutdown
  split_ifs with hstate
  · unfold shutdownInLoop
    split_ifs <;> exact ⟨by simp [setState], rfl, fun hne => absurd hstate hne⟩
  · exact ⟨hstate, rfl, fun _ => rfl⟩

theorem handleWrite_frame (c : TcpConnection) (w : WriteResult) :
    (c.handleWrite w).1.inputBuffer = c.inputBuffer ∧ (c.handleWrite w).1.state = c.state := by
  have hdata : (c.handleWriteData w).1.inputBuffer = c.inputBuffer ∧
      (c.handleWriteData w).1.state = c.state := by
    unfold handleWriteData
    simp only
    split_ifs <;> exact ⟨rfl, rfl⟩
  unfold handleWrite shutdownInLoop
  simp only
  split_ifs <;> exact hdata

/-- After a 400 response the connection is no longer connected. -/
theorem badRequest_spec (h : badRequest w conn = .ok (c, b)) :
    c.inputBuffer = conn.inputBuffer ∧ c.state ≠ .kConnected ∧
      b = decide (conn.state = .kConnected) ∧ (conn.state ≠ .kConnected → c = conn) := by
  obtain ⟨⟨c₁, es⟩, hsend, heq⟩ := bind_eq_ok.1 h
  cases heq
  obtain ⟨-, hb, hsame⟩ := send_frame hsend
  obtain ⟨hs', hb', hsame'⟩ := shutdown_frame c₁
  refine ⟨hb'.trans hb, hs', rfl, fun hne => ?_⟩
  obtain rfl := hsame hne
  exact hsame' hne

/-- After a response that closes it the connection is no longer connected. -/
theorem onRequest_spec {httpCallback : HttpCallback} {req : HttpRequest}
    (h : onRequest httpCallback w req conn = .ok (c, b)) :
    c.inputBuffer = conn.inputBuffer ∧ (b = true → c.state ≠ .kConnected) ∧
      (conn.state ≠ .kConnected → c = conn ∧ b = false) ∧
      ((httpCallback req (.new true)).closeConnection = false →
        c.state = conn.state ∧ b = false) := by
  obtain ⟨buf, -, h⟩ := bind_eq_ok.1 h
  obtain ⟨⟨c₁, es, buf'⟩, hsend, h⟩ := bind_eq_ok.1 h
  obtain ⟨hs, hb, hsame⟩ := sendBuffer_frame hsend
  obtain ⟨hs', hb', hsame'⟩ := shutdown_frame c₁
  simp only at h
  split_ifs at h with hclose
  · cases h
    refine ⟨hb'.trans hb, fun _ => hs', fun hne => ?_, fun hopen => ?_⟩
    · obtain rfl := hsame hne
      exact ⟨hsame' hne, by simp [hne]⟩
    · simp [hopen] at hclose
  · cases h
    exact ⟨hb, by simp, fun hne => ⟨hsame hne, rfl⟩, fun _ => ⟨hs, rfl⟩⟩

/-- What a call of `onMessage` does, by the parse of the readable bytes. -/
structure Reaction (httpCallback : HttpCallback) (conn : TcpConnection) (q : Scan) (h : Handled) :
    Prop where
  wf : h.conn.inputBuffer.Wf
  readable : h.conn.inputBuffer.readable = q.bytes
  /-- The callback is given a whole request. -/
  request : h.request.map (·.setReceiveTime 0) =
    if q.context.state = .kGotAll then some q.context.request else none
  /-- A connected connection is told when the parse returns false. -/
  badRequest : h.badRequest = (!q.ok && decide (conn.state = .kConnected))
  told : h.badRequest = true ∨ h.closeResponse = true → h.conn.state ≠ .kConnected
  /-- Nothing is sent unless the connection is connected. -/
  unsent : conn.state ≠ .kConnected →
    h.conn = { conn with inputBuffer := h.conn.inputBuffer } ∧ h.closeResponse = false
  /-- A callback that keeps connections open keeps this one. -/
  connected : q.ok = true → (∀ req resp, (httpCallback req resp).closeConnection = false) →
    h.conn.state = conn.state

/-- **What a call of `onMessage` does.** -/
theorem onMessage_spec {httpCallback : HttpCallback} {fuel : ℕ} {t : ℤ} {h : Handled}
    (hwf : conn.inputBuffer.Wf) (hret : onMessage httpCallback fuel t w w' conn = some (.ok h)) :
    ∃ q, Parses ⟨new, conn.inputBuffer.readable, false⟩ q ∧ Reaction httpCallback conn q h := by
  obtain ⟨⟨ok, context, inputBuffer⟩, hparse, hbody⟩ := Option.bind_eq_some_iff.1 hret
  obtain ⟨hparses, hwf'⟩ := parses_of_parseRequest hwf hparse
  refine ⟨_, hparses, ?_⟩
  obtain ⟨⟨conn₁, b⟩, hbad, htail⟩ := bind_eq_ok.1 (Option.some.inj hbody)
  simp only [gotAll_iff] at htail
  rcases hparses.of_new.1 with ⟨hok, hline, -⟩ | ⟨hok, -⟩
  · -- the parse returns false
    subst hok
    obtain ⟨hbuf, hclosed, hb, hsame⟩ := badRequest_spec hbad
    have hnot : context.state ≠ .kGotAll := fun hall => by cases hline.symm.trans hall
    rw [if_neg hnot] at htail
    obtain rfl := Except.ok.inj htail
    refine ⟨hbuf ▸ hwf', by rw [hbuf], by simp [hnot], by simp [hb], fun _ => hclosed,
      fun hne => ⟨?_, rfl⟩, by simp⟩
    obtain rfl := hsame hne
    rfl
  · subst hok
    cases hbad
    split_ifs at htail with hall
    · -- a whole request
      obtain ⟨⟨c, b⟩, hserve, heq⟩ := bind_eq_ok.1 htail
      cases heq
      obtain ⟨hbuf, htold, hunsent, hopen⟩ := onRequest_spec hserve
      refine ⟨hbuf ▸ hwf', by rw [hbuf], by simp [hall], by simp, by simpa using htold,
        fun hne => ?_, fun _ hkeep => (hopen (hkeep _ _)).1⟩
      obtain ⟨rfl, rfl⟩ := hunsent hne
      exact ⟨rfl, rfl⟩
    · cases htail
      -- a part of a request
      exact ⟨hwf', rfl, by simp [hall], by simp, by simp, fun _ => ⟨rfl, rfl⟩, fun _ _ => rfl⟩

end Frame

/-! ### Sessions -/

/-- A connection and what the server has done on it. -/
structure Session where
  conn : TcpConnection
  /-- The requests given to `httpCallback_`. -/
  requests : List HttpRequest
  /-- The number of 400 responses sent. -/
  badRequests : ℕ
  /-- The number of responses with `closeConnection()` sent. -/
  closeResponses : ℕ
  /-- A call of `onMessage` does not return. -/
  hung : Bool

/-- What drives a session. -/
inductive Action where
  /-- Bytes arrive; `onMessage` sends with the results `w` and `w'`. -/
  | read (bytes : List UInt8) (receiveTime : ℤ) (w w' : WriteResult)
  | event (e : TcpConnection.Event)

namespace Session

/-- A session of a connection that is just established. -/
def start (wc hw : Bool) (mark : ℕ) : Session where
  conn := .established wc hw mark
  requests := []
  badRequests := 0
  closeResponses := 0
  hung := false

/-- The session after a call of `onMessage`. -/
def after (s : Session) (h : Handled) : Session where
  conn := h.conn
  requests := s.requests ++ h.request.toList
  badRequests := s.badRequests + h.badRequest.toNat
  closeResponses := s.closeResponses + h.closeResponse.toNat
  hung := s.hung

/-- A call of `onMessage`, which returns or does not. -/
inductive Message (httpCallback : HttpCallback) (s : Session) (t : ℤ) (w w' : WriteResult) :
    Session → Prop
  | handled {fuel : ℕ} {h : Handled}
      (hret : onMessage httpCallback fuel t w w' s.conn = some (.ok h)) :
      Message httpCallback s t w w' (s.after h)
  | hangs (h : ∀ fuel, onMessage httpCallback fuel t w w' s.conn = none) :
      Message httpCallback s t w w' { s with hung := true }

/-- The events besides reads: no user code sends. -/
def Silent : TcpConnection.Event → Prop
  | .handleRead (.data []) | .handleRead (.error _) | .handleWrite _ | .handleClose
  | .connectDestroyed => True
  | _ => False

/-- The runs of a session. -/
def lts (httpCallback : HttpCallback) : LTS Session Action where
  step s a s' := s.hung = false ∧
    match a with
    | .read bytes t w w' =>
      bytes ≠ [] ∧ (TcpConnection.Event.handleRead (.data bytes)).Legal s.conn ∧
        ∃ conn, s.conn.handleRead (.data bytes) = .ok (conn, [.messageCallback]) ∧
          Message httpCallback { s with conn } t w w' s'
    | .event e =>
      Silent e ∧ e.Legal s.conn ∧
        ∃ conn es, s.conn.handle e = .ok (conn, es) ∧ s' = { s with conn }

/-! ### Playing a list of actions -/

instance : DecidablePred Silent
  | .handleRead (.data []) | .handleRead (.error _) | .handleWrite _ | .handleClose
  | .connectDestroyed => inferInstanceAs (Decidable True)
  | .handleRead (.data (_ :: _)) | .send _ _ | .sendBuffer _ _ | .sendInLoop _ _ | .shutdown
  | .setDisconnecting | .shutdownInLoop => inferInstanceAs (Decidable False)

/-- The session after an action, if it is legal and has a result within `fuel` iterations of the
parser. -/
def perform (httpCallback : HttpCallback) (fuel : ℕ) (s : Session) : Action → Option Session
  | .read bytes t w w' =>
    if s.hung = false ∧ bytes ≠ [] ∧
        (TcpConnection.Event.handleRead (.data bytes)).Legal s.conn then
      match s.conn.handleRead (.data bytes) with
      | .ok (conn, [.messageCallback]) =>
        match onMessage httpCallback fuel t w w' conn with
        | some (.ok d) => some (s.after d)
        | _ => none
      | _ => none
    else none
  | .event e =>
    if s.hung = false ∧ Silent e ∧ e.Legal s.conn then
      match s.conn.handle e with
      | .ok (conn, _) => some { s with conn }
      | .error _ => none
    else none

theorem step_of_perform {httpCallback : HttpCallback} {fuel : ℕ} {s s' : Session} {a : Action}
    (h : s.perform httpCallback fuel a = some s') : (lts httpCallback).step s a s' := by
  cases a with
  | read bytes t w w' =>
    rw [perform] at h
    split_ifs at h with hlegal
    split at h
    · rename_i conn hread
      split at h
      · rename_i d hret
        cases h
        exact ⟨hlegal.1, hlegal.2.1, hlegal.2.2, conn, hread, .handled hret⟩
      · cases h
    · cases h
  | event e =>
    rw [perform] at h
    split_ifs at h with hlegal
    split at h
    · rename_i conn es hok
      cases h
      exact ⟨hlegal.1, hlegal.2.1, hlegal.2.2, conn, es, hok, rfl⟩
    · cases h

theorem run_of_perform {httpCallback : HttpCallback} {fuel : ℕ} {s s' : Session}
    {actions : List Action} (h : actions.foldlM (perform httpCallback fuel) s = some s') :
    ∃ tr, (lts httpCallback).Run s tr s' ∧ tr.map Prod.snd = actions := by
  induction actions generalizing s with
  | nil =>
    cases h
    exact ⟨[], .nil, rfl⟩
  | cons a actions ih =>
    rw [List.foldlM_cons] at h
    obtain ⟨s₁, hone, hrest⟩ := Option.bind_eq_some_iff.1 h
    obtain ⟨tr, hrun, rfl⟩ := ih hrest
    exact ⟨_, .cons (step_of_perform hone) hrun, rfl⟩

/-! ### What a step does -/

variable {httpCallback : HttpCallback} {s s' : Session} {bytes : List UInt8} {t : ℤ}
  {w w' : WriteResult}

theorem handleRead_data {conn conn' : TcpConnection} {es : List Effect}
    (hwf : conn.inputBuffer.Wf) (h : conn.handleRead (.data bytes) = .ok (conn', es))
    (hne : bytes ≠ []) :
    ∃ inputBuffer, conn' = { conn with inputBuffer } ∧ inputBuffer.Wf ∧
      inputBuffer.readable = conn.inputBuffer.readable ++ bytes := by
  obtain ⟨⟨n, errno, inputBuffer⟩, hread, h⟩ := bind_eq_ok.1 h
  obtain ⟨rfl, rfl, hwf', hread'⟩ := hwf.readFd_data hread
  have hpos : (0 : ℤ) < bytes.length := Int.natCast_pos.2 (List.length_pos_iff.2 hne)
  simp only [if_pos hpos] at h
  cases h
  exact ⟨inputBuffer, rfl, hwf', hread'⟩

/-- **What a read does.**  The parse of the readable bytes ends, and decides what is done; or it
does not end, and the call of `onMessage` does not return. -/
theorem read_cases (hwf : s.conn.inputBuffer.Wf)
    (h : (lts httpCallback).step s (.read bytes t w w') s') :
    (∃ q d, Parses ⟨new, s.conn.inputBuffer.readable ++ bytes, false⟩ q ∧
        Reaction httpCallback s.conn q d ∧ s' = s.after d) ∨
      (∃ inputBuffer : Buffer, inputBuffer.Wf ∧
        s' = { s with conn := { s.conn with inputBuffer }, hung := true } ∧
        ¬ ∃ q, Parses ⟨new, s.conn.inputBuffer.readable ++ bytes, false⟩ q) := by
  obtain ⟨-, hne, -, conn, hread, hmessage⟩ := h
  obtain ⟨inputBuffer, rfl, hwf', hbytes⟩ := handleRead_data hwf hread hne
  cases hmessage with
  | handled hret =>
    obtain ⟨q, hparses, hr⟩ := onMessage_spec (by exact hwf') hret
    rw [hbytes] at hparses
    exact .inl ⟨q, _, hparses, ⟨hr.wf, hr.readable, hr.request, hr.badRequest, hr.told, hr.unsent,
      hr.connected⟩, rfl⟩
  | hangs hret =>
    refine .inr ⟨inputBuffer, hwf', rfl, fun ⟨q, hparses⟩ => ?_⟩
    rw [← hbytes] at hparses
    obtain ⟨fuel, c, buf, hparse, -⟩ := parseRequest_of_parses (c := new) (t := t) hwf' hparses
    have := hret fuel
    simp [onMessage, hparse] at this

/-- The other events neither connect the connection nor add to its input buffer. -/
theorem event_frame {e : TcpConnection.Event} (hwf : s.conn.inputBuffer.Wf)
    (h : (lts httpCallback).step s (.event e) s') :
    s'.conn.inputBuffer.Wf ∧ (s.conn.state ≠ .kConnected → s'.conn.state ≠ .kConnected) ∧
      s' = { s with conn := s'.conn } := by
  obtain ⟨-, hsilent, -, conn, es, hok, rfl⟩ := h
  cases e with
  | send | sendBuffer | sendInLoop | shutdown | setDisconnecting | shutdownInLoop =>
    exact hsilent.elim
  | handleRead r =>
    obtain ⟨⟨n, errno, inputBuffer⟩, hread, hok⟩ := bind_eq_ok.1 hok
    have hwf' : inputBuffer.Wf := by
      cases r with
      | data bytes => exact (hwf.readFd_data hread).2.2.1
      | error errno => cases hread; exact hwf
    simp only at hok
    split_ifs at hok <;> cases hok
    · exact ⟨hwf', id, rfl⟩
    · exact ⟨hwf', by simp [TcpConnection.setState], rfl⟩
    · exact ⟨hwf', id, rfl⟩
  | handleWrite w =>
    obtain rfl : (s.conn.handleWrite w).1 = conn := congrArg Prod.fst (Except.ok.inj hok)
    obtain ⟨hbuf, hstate⟩ := handleWrite_frame s.conn w
    exact ⟨hbuf ▸ hwf, by simp [hstate], rfl⟩
  | handleClose =>
    cases hok
    exact ⟨hwf, by simp [TcpConnection.setState], rfl⟩
  | connectDestroyed =>
    obtain rfl : s.conn.connectDestroyed.1 = conn := congrArg Prod.fst (Except.ok.inj hok)
    unfold TcpConnection.connectDestroyed
    split_ifs
    · exact ⟨hwf, by simp [TcpConnection.setState], rfl⟩
    · exact ⟨hwf, id, rfl⟩

/-- Every step keeps the input buffer well formed. -/
theorem wf_step {a : Action} (hwf : s.conn.inputBuffer.Wf) (h : (lts httpCallback).step s a s') :
    s'.conn.inputBuffer.Wf := by
  cases a with
  | event e => exact (event_frame hwf h).1
  | read bytes t w w' =>
    rcases read_cases hwf h with ⟨q, d, -, hd, rfl⟩ | ⟨inputBuffer, hwf', rfl, -⟩
    · exact hd.wf
    · exact hwf'

end Session

end HttpServer

end TinyNetwork
