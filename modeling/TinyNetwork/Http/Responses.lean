import TinyNetwork.Http.Closing
import TinyNetwork.Http.KeepAlive
import TinyNetwork.Http.Segmentation
import TinyNetwork.Net.Emits

/-!
# The response stream

What an HTTP connection has written, followed by what it has buffered, is a sequence of whole
responses: those of the callback, in the order of the requests, and perhaps a 400 response behind
them.  How the kernel cuts the writes does not show in it.

## Main results

* `Answered.step` : one step keeps the stream a sequence of whole responses.
* `responses_in_order` : the response stream of every run without a write fault of the peer and with
  less than `2 ^ 31` bytes pending.
* `responses_decoded` : a client finds the responses of the callback in it.
* `single_response` : with a callback that does not touch `closeConnection_` at most one request is
  answered.
-/

namespace TinyNetwork

open HttpContext TcpConnection

namespace HttpServer

/-- The response that `onRequest` sends. -/
def response (httpCallback : HttpCallback) (req : HttpRequest) : HttpResponse :=
  httpCallback req (.new true)

/-- What `appendToBuffer` writes of it. -/
def responseText (httpCallback : HttpCallback) (req : HttpRequest) : List UInt8 :=
  (response httpCallback req).pieces.flatten

/-- The 400 response of `onMessage`. -/
def badRequestText : List UInt8 := ascii "HTTP/1.1 400 Bad Request\r\n\r\n"

/-! ### What is sent -/

section Emits

variable {c c' conn : TcpConnection} {bytes : List UInt8} {w w' : WriteResult} {b : Bool}
  {httpCallback : HttpCallback} {req : HttpRequest}

theorem badRequest_emits (h : Emits c bytes) (hconn : c.state = .kConnected)
    (hw : w.isFault = false) (hb : badRequest w c = .ok (c', b)) :
    Emits c' (bytes ++ badRequestText) := by
  obtain ⟨⟨c₁, es⟩, hsend, heq⟩ := bind_eq_ok.1 hb
  cases heq
  exact (h.send hconn hw hsend).shutdown

/-- `onRequest` sends the whole response. -/
theorem onRequest_emits (h : Emits c bytes) (hconn : c.state = .kConnected)
    (hw : w.isFault = false) (hr : onRequest httpCallback w req c = .ok (c', b)) :
    Emits c' (bytes ++ responseText httpCallback req) ∧
      b = (response httpCallback req).closeConnection := by
  obtain ⟨buf, hbuf, hr⟩ := bind_eq_ok.1 hr
  obtain ⟨⟨c₁, es, buf'⟩, hsend, hr⟩ := bind_eq_ok.1 hr
  obtain ⟨hwf, hread⟩ := HttpResponse.appendToBuffer_eq_ok Buffer.wf_empty hbuf
  have htext : buf.readable = responseText httpCallback req := by
    rw [hread, Buffer.readable_empty]
    rfl
  have hemits := h.send hconn hw (htext ▸ sendBuffer_eq_ok hwf hsend)
  simp only at hr
  split_ifs at hr with hclose
  · cases hr
    exact ⟨hemits.shutdown, by simp [response, hclose, hconn]⟩
  · cases hr
    exact ⟨hemits, by simpa [response] using hclose⟩

/-- The bytes that a call of `onMessage` sends on a connected connection. -/
inductive Reply (httpCallback : HttpCallback) (d : Handled) : List UInt8 → Prop
  | silent (hrequest : d.request = none) (hbad : d.badRequest = false) : Reply httpCallback d []
  | refused (hrequest : d.request = none) (hbad : d.badRequest = true) :
      Reply httpCallback d badRequestText
  | answered {req : HttpRequest} (hrequest : d.request = some req) (hbad : d.badRequest = false)
      (hclose : d.closeResponse = (response httpCallback req).closeConnection) :
      Reply httpCallback d (responseText httpCallback req)

/-- **What a call of `onMessage` sends.** -/
theorem onMessage_emits {fuel : ℕ} {t : ℤ} {d : Handled} (hwf : conn.inputBuffer.Wf)
    (h : Emits conn bytes) (hconn : conn.state = .kConnected) (hw : w.isFault = false)
    (hw' : w'.isFault = false) (hret : onMessage httpCallback fuel t w w' conn = some (.ok d)) :
    ∃ reply, Reply httpCallback d reply ∧ Emits d.conn (bytes ++ reply) := by
  obtain ⟨⟨ok, context, inputBuffer⟩, hparse, hbody⟩ := Option.bind_eq_some_iff.1 hret
  obtain ⟨hparses, -⟩ := parses_of_parseRequest hwf hparse
  obtain ⟨⟨conn₁, b⟩, hbad, htail⟩ := bind_eq_ok.1 (Option.some.inj hbody)
  simp only [gotAll_iff] at htail
  have hsame : Emits { conn with inputBuffer } bytes := ⟨h.wf, h.stream⟩
  rcases hparses.of_new.1 with ⟨hok, hline, -⟩ | ⟨hok, -⟩
  · -- the parse returns false
    subst hok
    have hnot : context.state ≠ .kGotAll := fun hall => by cases hline.symm.trans hall
    rw [if_neg hnot] at htail
    obtain rfl := Except.ok.inj htail
    obtain ⟨-, -, hb, -⟩ := badRequest_spec hbad
    exact ⟨_, .refused rfl (by simpa [hconn] using hb), badRequest_emits hsame hconn hw hbad⟩
  · subst hok
    cases hbad
    split_ifs at htail with hall
    · -- a whole request
      obtain ⟨⟨c, b⟩, hserve, heq⟩ := bind_eq_ok.1 htail
      cases heq
      obtain ⟨hemits, hclose⟩ := onRequest_emits hsame hconn hw' hserve
      exact ⟨_, .answered rfl rfl hclose, hemits⟩
    · cases htail
      exact ⟨[], .silent rfl rfl, by rw [List.append_nil]; exact hsame⟩

end Emits

namespace Session

variable {httpCallback : HttpCallback} {s s' : Session} {a : Action} {served : List HttpRequest}

/-- The response to the request closes the connection. -/
def Closes (httpCallback : HttpCallback) (req : HttpRequest) : Prop :=
  (response httpCallback req).closeConnection = true

/-- No write of the action fails with `EPIPE` or `ECONNRESET`, and less than `2 ^ 31` bytes are
pending. -/
def Clean (s : Session) (a : Action) : Prop :=
  s.conn.outputBuffer.readableBytes < 2 ^ 31 ∧ match a with
    | .read _ _ w w' => w.isFault = false ∧ w'.isFault = false
    | .event _ => True

instance (s : Session) (a : Action) : Decidable (s.Clean a) := by
  unfold Clean
  cases a <;> infer_instance

/-- The requests in `served` have been answered, and nothing else has been sent but a 400 response
at the end. -/
structure Answered (httpCallback : HttpCallback) (s : Session) (served : List HttpRequest) :
    Prop where
  input : s.conn.inputBuffer.Wf
  emits : Emits s.conn (served.flatMap (responseText httpCallback) ++
    if 0 < s.badRequests then badRequestText else [])
  /-- They are the first of the requests, and all of them while the connection is connected. -/
  requests : served <+: s.requests
  connected : s.conn.state = .kConnected → served = s.requests ∧ s.badRequests = 0 ∧
    ∀ req ∈ served, ¬ Closes httpCallback req
  /-- A response that closes the connection is the last one. -/
  last : ∀ req ∈ served.dropLast, ¬ Closes httpCallback req
  refused : s.badRequests ≤ 1
  refusedLast : 0 < s.badRequests → ∀ req ∈ served, ¬ Closes httpCallback req

theorem answered_start {wc hw : Bool} {mark : ℕ} :
    Answered httpCallback (start wc hw mark) [] where
  input := Buffer.wf_empty
  emits := emits_established
  requests := List.nil_prefix
  connected := fun _ => ⟨rfl, rfl, nofun⟩
  last := nofun
  refused := Nat.zero_le 1
  refusedLast := nofun

/-- A step that sends nothing and calls no callback. -/
theorem Answered.congr (h : Answered httpCallback s served) {conn : TcpConnection}
    (hwf : conn.inputBuffer.Wf) (hemits : ∀ bytes, Emits s.conn bytes → Emits conn bytes)
    (hstate : s.conn.state ≠ .kConnected → conn.state ≠ .kConnected) :
    Answered httpCallback { s with conn } served :=
  ⟨hwf, hemits _ h.emits, h.requests, fun hconn => h.connected (by_contra fun hne =>
    hstate hne hconn), h.last, h.refused, h.refusedLast⟩

/-- The events other than reads are events of the channel. -/
theorem Silent.ofChannel {e : Event} (h : Silent e) : e.OfChannel := by
  cases e with
  | send | sendBuffer | sendInLoop | shutdown | setDisconnecting | shutdownInLoop => exact h.elim
  | _ => trivial

/-- What a call of `onMessage` answers on a connected connection. -/
theorem Answered.reply (h : Answered httpCallback s served) (hconn : s.conn.state = .kConnected)
    {d : Handled} {reply : List UInt8} (hwf : d.conn.inputBuffer.Wf)
    (hreply : Reply httpCallback d reply)
    (hemits : Emits d.conn (served.flatMap (responseText httpCallback) ++ reply))
    (htold : d.badRequest = true ∨ d.closeResponse = true → d.conn.state ≠ .kConnected) :
    ∃ served', Answered httpCallback (s.after d) served' := by
  obtain ⟨rfl, hbad₀, hopen⟩ := h.connected hconn
  cases hreply with
  | silent hrequest hbad =>
    have hrequests : (s.after d).requests = s.requests := by simp [after, hrequest]
    have hcount : (s.after d).badRequests = 0 := by simp [after, hbad, hbad₀]
    refine ⟨s.requests, hwf, ?_, hrequests ▸ List.prefix_rfl,
      fun _ => ⟨hrequests.symm, hcount, hopen⟩, h.last, by omega, by omega⟩
    rw [hcount]
    exact hemits
  | refused hrequest hbad =>
    have hrequests : (s.after d).requests = s.requests := by simp [after, hrequest]
    have hcount : (s.after d).badRequests = 1 := by simp [after, hbad, hbad₀]
    refine ⟨s.requests, hwf, ?_, hrequests ▸ List.prefix_rfl,
      fun hconn => absurd hconn (htold (.inl hbad)), h.last, hcount.le, fun _ => hopen⟩
    rw [hcount]
    exact hemits
  | @answered req hrequest hbad hclose =>
    have hrequests : (s.after d).requests = s.requests ++ [req] := by simp [after, hrequest]
    have hcount : (s.after d).badRequests = 0 := by simp [after, hbad, hbad₀]
    refine ⟨s.requests ++ [req], hwf, ?_, hrequests ▸ List.prefix_rfl, fun hconn => ?_, ?_,
      by omega, by omega⟩
    · rw [hcount, show (s.after d).conn = d.conn from rfl]
      simpa using hemits
    · -- the response has not closed the connection
      refine ⟨hrequests.symm, hcount, fun req' hreq' => ?_⟩
      rcases List.mem_append.1 hreq' with hreq' | hreq'
      · exact hopen req' hreq'
      · obtain rfl := List.mem_singleton.1 hreq'
        exact fun hcloses => htold (.inr (hclose.trans hcloses)) hconn
    · rw [List.dropLast_concat]
      exact hopen

/-- A call of `onMessage` on a connection that is not connected sends nothing. -/
theorem Answered.unsent (h : Answered httpCallback s served) (hconn : s.conn.state ≠ .kConnected)
    {d : Handled} (hwf : d.conn.inputBuffer.Wf)
    (hsame : d.conn = { s.conn with inputBuffer := d.conn.inputBuffer })
    (hbad : d.badRequest = false) : Answered httpCallback (s.after d) served := by
  have hcount : (s.after d).badRequests = s.badRequests := by simp [after, hbad]
  have hstate : d.conn.state ≠ .kConnected := by rwa [hsame]
  refine ⟨hwf, ?_, h.requests.trans (List.prefix_append _ _), fun hc => absurd hc hstate, h.last,
    hcount ▸ h.refused, hcount ▸ h.refusedLast⟩
  rw [hcount]
  exact h.emits.congr (show d.conn.outputBuffer = _ by rw [hsame])
    (show d.conn.socket.written = _ by rw [hsame])

/-- **One step keeps the stream a sequence of whole responses.** -/
theorem Answered.step (h : Answered httpCallback s served) (hclean : s.Clean a)
    (hst : (lts httpCallback).step s a s') : ∃ served', Answered httpCallback s' served' := by
  cases a with
  | event e =>
    obtain ⟨hwf, hstate, -⟩ := event_frame h.input hst
    obtain ⟨-, hsilent, hlegal, conn, es, hok, rfl⟩ := hst
    exact ⟨served, h.congr hwf (fun _ he => he.event hsilent.ofChannel hlegal hclean.1 hok) hstate⟩
  | read bytes t w w' =>
    obtain ⟨-, hne, -, conn, hread, hmessage⟩ := hst
    obtain ⟨inputBuffer, rfl, hwf, -⟩ := handleRead_data h.input hread hne
    have hread' : Answered httpCallback { s with conn := { s.conn with inputBuffer } } served :=
      h.congr hwf (fun _ he => ⟨he.wf, he.stream⟩) id
    cases hmessage with
    | hangs => exact ⟨served, ⟨hwf, hread'.emits, h.requests, h.connected, h.last, h.refused,
        h.refusedLast⟩⟩
    | handled hret =>
      obtain ⟨q, -, hreaction⟩ := onMessage_spec (by exact hwf) hret
      by_cases hconn : s.conn.state = .kConnected
      · have hemits := hread'.emits
        rw [show ({ s with conn := { s.conn with inputBuffer } } : Session).badRequests = 0 from
          (h.connected hconn).2.1] at hemits
        obtain ⟨reply, hreply, hemits'⟩ :=
          onMessage_emits (by exact hwf) hemits hconn hclean.2.1 hclean.2.2 hret
        exact hread'.reply hconn hreaction.wf hreply (by simpa using hemits') hreaction.told
      · have hbad := hreaction.badRequest
        rw [decide_eq_false hconn, Bool.and_false] at hbad
        exact ⟨served, hread'.unsent hconn hreaction.wf (hreaction.unsent hconn).1 hbad⟩

/-- The texts of the responses, one after the other. -/
theorem flatMap_responseText (served : List HttpRequest) :
    served.flatMap (responseText httpCallback) =
      ((served.map (response httpCallback)).flatMap HttpResponse.pieces).flatten := by
  induction served with
  | nil => rfl
  | cons req served ih =>
    simp only [List.flatMap_cons, List.map_cons, List.flatten_append, ih]
    rfl

/-! ### Runs -/

variable {wc hw : Bool} {mark : ℕ} {tr : List (Session × Action)}

/-- The session after a clean action, as in `perform`. -/
def performClean (httpCallback : HttpCallback) (fuel : ℕ) (s : Session) (a : Action) :
    Option Session :=
  if s.Clean a then s.perform httpCallback fuel a else none

theorem run_of_performClean {fuel : ℕ} {actions : List Action}
    (h : actions.foldlM (performClean httpCallback fuel) s = some s') :
    ∃ tr, (lts httpCallback).Run s tr s' ∧ ∀ p ∈ tr, p.1.Clean p.2 := by
  induction actions generalizing s with
  | nil =>
    cases h
    exact ⟨[], .nil, by simp⟩
  | cons a actions ih =>
    rw [List.foldlM_cons] at h
    obtain ⟨s₁, hone, hrest⟩ := Option.bind_eq_some_iff.1 h
    unfold performClean at hone
    split_ifs at hone with hclean
    obtain ⟨tr, hrun, hall⟩ := ih hrest
    exact ⟨_, .cons (step_of_perform hone) hrun, List.forall_mem_cons.2 ⟨hclean, hall⟩⟩

/-- **The response stream.**  In every run of calls that return, without a write that fails with
`EPIPE` or `ECONNRESET` and with less than `2 ^ 31` bytes pending, what has been written, followed
by what is pending, is a sequence of whole responses: the callback's, in the order of the requests,
as long as none of them closes the connection; and perhaps one 400 response behind them. -/
theorem responses_in_order (h : (lts httpCallback).Run (start wc hw mark) tr s)
    (hclean : ∀ p ∈ tr, p.1.Clean p.2) : ∃ served, Answered httpCallback s served :=
  (h.invariant_of (I := fun s => ∃ served, Answered httpCallback s served) ⟨[], answered_start⟩
    (fun _ _ _ ⟨_, hI⟩ hC hst => hI.step hC hst) hclean).2

/-- A callback that keeps the connection open and tells the client what it has asked for. -/
def tellPath : HttpCallback := fun req resp => { keepAlive req resp with body := req.path.take 16 }

/-- A run in which two requests arrive in two reads, the first of which goes on into the second
request, and the kernel takes the responses in three parts. -/
theorem exists_two : ∃ tr s, (lts tellPath).Run (start false false 0) tr s ∧
    (∀ p ∈ tr, p.1.Clean p.2) ∧ s.requests.map HttpRequest.path = [[47], [47, 97]] ∧
      s.badRequests = 0 ∧ s.conn.state = .kConnected := by
  have hplay : ([.read (getRequest.render ++ getOther.render.take 9) 0 (.accepted 0)
      (.accepted 20), .event (.handleWrite (.accepted 5)),
      .read (getOther.render.drop 9) 0 (.accepted 0) (.accepted 0),
      .event (.handleWrite (.accepted 70))].foldlM (performClean tellPath 10)
        (start false false 0)).map (fun s => (s.requests.map HttpRequest.path, s.badRequests,
          s.conn.state)) = some ([[47], [47, 97]], 0, .kConnected) := by
    decide +kernel
  obtain ⟨s, hplay, hs⟩ := Option.map_eq_some_iff.1 hplay
  simp only [Prod.mk.injEq] at hs
  obtain ⟨tr, hrun, hclean⟩ := run_of_performClean hplay
  exact ⟨tr, s, hrun, hclean, hs⟩

/-- Two requests are answered, one after the other. -/
theorem responses_in_order_get : ∃ tr s, (lts tellPath).Run (start false false 0) tr s ∧
    s.requests.map HttpRequest.path = [[47], [47, 97]] ∧ Answered tellPath s s.requests := by
  obtain ⟨tr, s, hrun, hclean, hpaths, -, hconn⟩ := exists_two
  obtain ⟨served, hI⟩ := responses_in_order hrun hclean
  obtain rfl := (hI.connected hconn).1
  exact ⟨tr, s, hrun, hpaths, hI⟩

/-- **A client finds the responses.**  The run is clean as above and no request was refused.  The
callback keeps the connection open; its status messages and headers hold no CR and no LF, the names
of the headers no colon, and the bodies are shorter than `2 ^ 31` bytes.  Then the responses are
found again in the stream, in order. -/
theorem responses_decoded (hkeep : ∀ req, (response httpCallback req).KeepsAlive ∧
      (response httpCallback req).body.length < 2 ^ 31)
    (h : (lts httpCallback).Run (start wc hw mark) tr s) (hclean : ∀ p ∈ tr, p.1.Clean p.2)
    (hbad : s.badRequests = 0) : ∃ served, served <+: s.requests ∧
      (s.conn.state = .kConnected → served = s.requests) ∧
        HttpResponse.decode served.length (s.conn.socket.written ++ s.conn.outputBuffer.readable) =
          some (served.map fun req => (response httpCallback req).decoded) := by
  obtain ⟨served, hI⟩ := responses_in_order h hclean
  refine ⟨served, hI.requests, fun hconn => (hI.connected hconn).1, ?_⟩
  have hstream := hI.emits.stream
  rw [hbad, if_neg (lt_irrefl 0), List.append_nil] at hstream
  have hkeeps : ∀ r ∈ served.map (response httpCallback), r.KeepsAlive ∧
      r.body.length < 2 ^ 31 := by
    intro r hr
    obtain ⟨req, -, rfl⟩ := List.mem_map.1 hr
    exact hkeep req
  rw [hstream, flatMap_responseText, HttpResponse.decode_pieces hkeeps (by simp), List.map_map]
  rfl

/-- The responses to two requests are found, the path of each in its body. -/
theorem responses_decoded_get : ∃ s : Session,
    s.requests.map HttpRequest.path = [[47], [47, 97]] ∧
      (HttpResponse.decode 2 (s.conn.socket.written ++ s.conn.outputBuffer.readable)).map
        (List.map HttpResponse.Decoded.body) = some [[47], [47, 97]] := by
  obtain ⟨tr, s, hrun, hclean, hpaths, hbad, hconn⟩ := exists_two
  have hkeep (req : HttpRequest) : (response tellPath req).KeepsAlive ∧
      (response tellPath req).body.length < 2 ^ 31 := by
    refine ⟨⟨rfl, ?_, ?_, ?_⟩, ?_⟩
    · show (13 : UInt8) ∉ ([] : List UInt8) ∧ (10 : UInt8) ∉ ([] : List UInt8)
      decide
    · exact fun header hmem => nomatch hmem
    · exact fun header hmem => nomatch hmem
    · exact (List.length_take_le _ _).trans_lt (by decide)
  obtain ⟨served, -, hserved, hdecode⟩ := responses_decoded hkeep hrun hclean hbad
  obtain rfl := hserved hconn
  have hlen : s.requests.length = 2 := by
    rw [← List.length_map (f := HttpRequest.path), hpaths]
    rfl
  rw [hlen] at hdecode
  refine ⟨s, hpaths, ?_⟩
  have hbodies : s.requests.map (fun req => (response tellPath req).decoded.body) =
      (s.requests.map HttpRequest.path).map (List.take 16) := by
    rw [List.map_map]
    rfl
  rw [hdecode, Option.map_some, List.map_map]
  exact congrArg some (hbodies.trans (by rw [hpaths]; rfl))

/-- **One response.**  `onRequest` asks for a response that closes the connection.  In a run that is
clean as above a callback that does not open it again has one request answered at most, and none if
a request was refused. -/
theorem single_response (hclose : ∀ req resp, resp.closeConnection = true →
      (httpCallback req resp).closeConnection = true)
    (h : (lts httpCallback).Run (start wc hw mark) tr s) (hclean : ∀ p ∈ tr, p.1.Clean p.2) :
    ∃ served, Answered httpCallback s served ∧ served.length + s.badRequests ≤ 1 := by
  obtain ⟨served, hI⟩ := responses_in_order h hclean
  have hcloses (req : HttpRequest) : Closes httpCallback req := hclose req _ rfl
  refine ⟨served, hI, ?_⟩
  have hdrop : served.dropLast = [] :=
    List.eq_nil_iff_forall_not_mem.2 fun req hreq => hI.last req hreq (hcloses req)
  have hlen : served.length - 1 = 0 := by rw [← List.length_dropLast, hdrop, List.length_nil]
  rcases Nat.eq_zero_or_pos s.badRequests with hzero | hpos
  · omega
  · have hnil : served = [] := List.eq_nil_iff_forall_not_mem.2 fun req hreq =>
      hI.refusedLast hpos req hreq (hcloses req)
    have := hI.refused
    rw [hnil, List.length_nil]
    omega

/-- `defaultHttpCallback` is given two requests, and only the first one is answered. -/
theorem single_response_get : ∃ s : Session, s.requests.length = 2 ∧
    s.conn.socket.written.length = 20 ∧ ∃ served,
      Answered defaultHttpCallback s served ∧ served.length + s.badRequests ≤ 1 := by
  have hplay : ([.read get 0 (.accepted 0) (.accepted 20),
      .read get 0 (.accepted 0) (.accepted 45)].foldlM (performClean defaultHttpCallback 10)
        (start false false 0)).map (fun s => (s.requests.length, s.conn.socket.written.length)) =
          some (2, 20) := by
    decide +kernel
  obtain ⟨s, hplay, hs⟩ := Option.map_eq_some_iff.1 hplay
  obtain ⟨hlen, hwritten⟩ := Prod.ext_iff.1 hs
  obtain ⟨tr, hrun, hclean⟩ := run_of_performClean hplay
  exact ⟨s, hlen, hwritten, single_response (fun _ _ _ => rfl) hrun hclean⟩

end Session

end HttpServer

end TinyNetwork
