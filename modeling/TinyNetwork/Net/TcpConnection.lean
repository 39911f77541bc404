import TinyNetwork.Net.Buffer
import TinyNetwork.Net.Channel

/-!
# `TcpConnection`

The functions of a connection as its loop thread runs them.  What `::write` and `::readv` return
is an argument.  A function returns the connection and, in order, the tasks it queues and the
callbacks it calls; a function that hits a fault in a buffer has no result.

## Main results

* `sendInLoop_spec` : a message is split into the bytes written at once and the bytes buffered.
* `handleWrite_spec` : what a write event takes out of the output buffer, and what it leaves of
  the interest in events.
-/

namespace TinyNetwork

open Lp64

/-- `enum StateE`. -/
inductive StateE where
  | kDisconnected
  | kConnecting
  | kConnected
  | kDisconnecting
  deriving DecidableEq, Repr

/-- What has been done to the descriptor of a connection. -/
structure Socket where
  /-- The bytes `::write` has accepted. -/
  written : List UInt8
  /-- For every call of `shutdownWrite`, the readable bytes of `outputBuffer_` at the call. -/
  shutdownWrites : List ℕ
  deriving DecidableEq, Repr

/-- The tasks that go through the queue of the loop. -/
inductive Task where
  /-- `sendInLoop`, bound to its message. -/
  | sendInLoop (message : List UInt8)
  | shutdownInLoop
  | writeComplete
  | highWaterMark (len : ℕ)
  /-- A task of the program around the connection. -/
  | user
  deriving DecidableEq, Repr

/-- What a function of the connection does outside of it. -/
inductive Effect where
  | queueInLoop (task : Task)
  | connectionCallback (connected : Bool)
  | messageCallback
  | closeCallback
  deriving DecidableEq, Repr

/-- `class TcpConnection`. -/
structure TcpConnection where
  state : StateE
  socket : Socket
  channel : Channel
  /-- `writeCompleteCallback_` is set. -/
  writeCompleteCallback : Bool
  /-- `highWaterMarkCallback_` is set. -/
  highWaterMarkCallback : Bool
  highWaterMark : ℕ
  inputBuffer : Buffer
  outputBuffer : Buffer
  deriving DecidableEq, Repr

/-- The faults of the peer that make `sendInLoop` drop the rest of a message. -/
def WriteResult.isFault : WriteResult → Bool
  | .error .pipe | .error .connReset => true
  | _ => false

namespace TcpConnection

/-- The constructor. -/
def create : TcpConnection where
  state := .kConnecting
  socket := ⟨[], []⟩
  channel := .create
  writeCompleteCallback := false
  highWaterMarkCallback := false
  highWaterMark := 64 * 1024 * 1024
  inputBuffer := .empty
  outputBuffer := .empty

def setState (c : TcpConnection) (state : StateE) : TcpConnection := { c with state }

/-- The first part of `sendInLoop`, a `::write` when nothing is pending: the connection, `nwrote`,
`faultError` and what is queued. -/
def writeFirst (c : TcpConnection) (data : List UInt8) (w : WriteResult) :
    TcpConnection × ℕ × Bool × List Effect :=
  if !c.channel.isWriting && c.outputBuffer.readableBytes == 0 then
    match w with
    | .accepted n =>
      ({ c with socket.written := c.socket.written ++ data.take n }, n, false,
        if data.length - n = 0 ∧ c.writeCompleteCallback then
          [.queueInLoop .writeComplete] else [])
    | .error e => (c, 0, e == .pipe || e == .connReset, [])
  else (c, 0, false, [])

/-- What `sendInLoop` queues before it appends the rest of a message. -/
def warnOfRest (c : TcpConnection) (rest : List UInt8) : List Effect :=
  let oldLen := c.outputBuffer.readableBytes
  if c.highWaterMark ≤ addSize oldLen rest.length ∧ oldLen < c.highWaterMark ∧
      c.highWaterMarkCallback then
    [.queueInLoop (.highWaterMark (addSize oldLen rest.length))] else []

/-- The last part of `sendInLoop`: the rest of the message goes into the output buffer. -/
def bufferRest (c : TcpConnection) (rest : List UInt8) :
    Except Fault (TcpConnection × List Effect) := do
  let effects := c.warnOfRest rest
  let outputBuffer ← c.outputBuffer.append rest
  let channel := if !c.channel.isWriting then c.channel.enableWriting else c.channel
  return ({ c with outputBuffer, channel }, effects)

/-- `sendInLoop(data, len)` when `::write`, if it is called, returns `w`. -/
def sendInLoop (c : TcpConnection) (data : List UInt8) (w : WriteResult) :
    Except Fault (TcpConnection × List Effect) :=
  if c.state = .kDisconnected then .ok (c, [])
  else
    let (c, nwrote, faultError, queued) := c.writeFirst data w
    let rest := data.drop nwrote
    if !faultError && 0 < rest.length then do
      let (c, effects) ← c.bufferRest rest
      return (c, queued ++ effects)
    else .ok (c, queued)

/-- `send(const std::string &)` on the loop thread. -/
def send (c : TcpConnection) (buf : List UInt8) (w : WriteResult) :
    Except Fault (TcpConnection × List Effect) :=
  if c.state = .kConnected then c.sendInLoop buf w else .ok (c, [])

/-- `send(Buffer *)` on the loop thread. -/
def sendBuffer (c : TcpConnection) (buf : Buffer) (w : WriteResult) :
    Except Fault (TcpConnection × List Effect × Buffer) :=
  if c.state = .kConnected then do
    let data ← Vec.read buf.buffer buf.readIndex buf.readableBytes
    let (c, effects) ← c.sendInLoop data w
    return (c, effects, buf.retrieveAll)
  else .ok (c, [], buf)

def shutdownInLoop (c : TcpConnection) : TcpConnection :=
  if !c.channel.isWriting then
    { c with
      socket.shutdownWrites := c.socket.shutdownWrites ++ [c.outputBuffer.readableBytes] }
  else c

/-- `shutdown()` on the loop thread. -/
def shutdown (c : TcpConnection) : TcpConnection :=
  if c.state = .kConnected then (c.setState .kDisconnecting).shutdownInLoop else c

def connectEstablished (c : TcpConnection) : TcpConnection × List Effect :=
  ({ c.setState .kConnected with channel := c.channel.enableReading },
    [.connectionCallback true])

def connectDestroyed (c : TcpConnection) : TcpConnection × List Effect :=
  if c.state = .kConnected then
    let c := { c.setState .kDisconnected with channel := c.channel.disableAll }
    ({ c with channel := c.channel.remove }, [.connectionCallback false])
  else ({ c with channel := c.channel.remove }, [])

def handleClose (c : TcpConnection) : TcpConnection × List Effect :=
  ({ c.setState .kDisconnected with channel := c.channel.disableAll },
    [.connectionCallback false, .closeCallback])

/-- `handleRead(receiveTime)` when `::readv` returns `r`. -/
def handleRead (c : TcpConnection) (r : ReadResult) :
    Except Fault (TcpConnection × List Effect) := do
  let (n, _, inputBuffer) ← c.inputBuffer.readFd r
  let c := { c with inputBuffer }
  if 0 < n then return (c, [.messageCallback])
  else if n = 0 then return c.handleClose
  else return (c, [])

/-- `handleWrite()` up to the test of `state_`; the flag tells whether the test is reached. -/
def handleWriteData (c : TcpConnection) (w : WriteResult) : TcpConnection × List Effect × Bool :=
  if c.channel.isWriting then
    let (n, _) := c.outputBuffer.writeFd w
    let taken := c.outputBuffer.readable.take w.count
    let c := { c with socket.written := c.socket.written ++ taken }
    if 0 < n then
      let c := { c with outputBuffer := c.outputBuffer.retrieve (toInt n) }
      if c.outputBuffer.readableBytes = 0 then
        ({ c with channel := c.channel.disableWriting },
          if c.writeCompleteCallback then [.queueInLoop .writeComplete] else [], true)
      else (c, [], false)
    else (c, [], false)
  else (c, [], false)

/-- `handleWrite()` when `::write`, if it is called, returns `w`. -/
def handleWrite (c : TcpConnection) (w : WriteResult) : TcpConnection × List Effect :=
  let (c, effects, drained) := c.handleWriteData w
  if drained && c.state == .kDisconnecting then (c.shutdownInLoop, effects) else (c, effects)

/-! ### Sending -/

variable {c c' : TcpConnection} {data rest : List UInt8} {w : WriteResult} {es : List Effect}

/-- What `sendInLoop` does with a message on a connection that is not disconnected: a first part
`sent` is written at once, unless something is pending, and the rest goes to the end of the output
buffer; or the write fails for good and the message is dropped. -/
inductive Sent (c : TcpConnection) (data : List UInt8) (w : WriteResult) :
    TcpConnection → Prop
  | split {c' : TcpConnection} {sent rest : List UInt8} (hdata : data = sent ++ rest)
      (hstate : c'.state = c.state)
      (hfin : c'.socket.shutdownWrites = c.socket.shutdownWrites)
      (hreading : c'.channel.isReading = c.channel.isReading)
      (hwritten : c'.socket.written = c.socket.written ++ sent)
      (hfirst : sent ≠ [] → c.channel.isWriting = false ∧ c.outputBuffer.readable = [])
      (hwf : c'.outputBuffer.Wf)
      (hreadable : c'.outputBuffer.readable = c.outputBuffer.readable ++ rest)
      (hwriting : c'.channel.isWriting = (c.channel.isWriting || !rest.isEmpty))
      (hreg : c.channel.Registered → c'.channel.Registered) : Sent c data w c'
  | dropped (hw : w.isFault) : Sent c data w c

theorem bufferRest_eq_ok (h : c.bufferRest rest = .ok (c', es)) :
    ∃ outputBuffer, c.outputBuffer.append rest = .ok outputBuffer ∧
      c' = { c with
        outputBuffer
        channel := if !c.channel.isWriting then c.channel.enableWriting else c.channel } := by
  obtain ⟨outputBuffer, happ, heq⟩ := bind_eq_ok.1 h
  cases heq
  exact ⟨outputBuffer, happ, rfl⟩

theorem bufferRest_spec (hwf : c.outputBuffer.Wf) (h : c.bufferRest rest = .ok (c', es)) :
    c'.state = c.state ∧ c'.socket = c.socket ∧
      c'.channel.isReading = c.channel.isReading ∧ c'.channel.isWriting = true ∧
      c'.outputBuffer.Wf ∧ c'.outputBuffer.readable = c.outputBuffer.readable ++ rest ∧
      (c.channel.Registered → c'.channel.Registered) := by
  obtain ⟨outputBuffer, happ, rfl⟩ := bufferRest_eq_ok h
  obtain ⟨hwf', hread⟩ := hwf.append happ
  cases hw : c.channel.isWriting with
  | true => simp [hwf', hread, hw]
  | false => simpa [hwf', hread] using fun hreg => hreg.enableWriting

theorem writeFirst_spec {n : ℕ} {fault : Bool} {q : List Effect}
    (h : c.writeFirst data w = (c', n, fault, q)) :
    c' = { c with socket.written := c.socket.written ++ data.take n } ∧
      (0 < n → c.channel.isWriting = false ∧ c.outputBuffer.readableBytes = 0) ∧
      (fault = true → w.isFault ∧ n = 0) := by
  unfold writeFirst at h
  split_ifs at h with hfirst
  · have hidle : c.channel.isWriting = false ∧ c.outputBuffer.readableBytes = 0 := by
      simpa using hfirst
    cases w with
    | accepted m =>
      cases h
      exact ⟨rfl, fun _ => hidle, by simp⟩
    | error e =>
      cases h
      refine ⟨by simp, by simp, fun hfault => ⟨?_, rfl⟩⟩
      cases e <;> simp_all [WriteResult.isFault]
  · cases h
    exact ⟨by simp, by simp, by simp⟩

/-- **What `sendInLoop` does.** -/
theorem sendInLoop_spec (hwf : c.outputBuffer.Wf) (hstate : c.state ≠ .kDisconnected)
    (h : c.sendInLoop data w = .ok (c', es)) : Sent c data w c' := by
  rw [sendInLoop, if_neg hstate] at h
  obtain ⟨c₁, n, fault, q, hfirst⟩ : ∃ c₁ n fault q, c.writeFirst data w = (c₁, n, fault, q) :=
    ⟨_, _, _, _, rfl⟩
  obtain ⟨rfl, hidle, hfault⟩ := writeFirst_spec hfirst
  have hsent : data.take n ≠ [] → c.channel.isWriting = false ∧ c.outputBuffer.readable = [] := by
    intro hne
    obtain ⟨hw, hb⟩ := hidle (Nat.pos_of_ne_zero (by rintro rfl; simp at hne))
    exact ⟨hw, hwf.readable_eq_nil_iff.2 hb⟩
  simp only [hfirst] at h
  split_ifs at h with hrest
  · -- the rest is buffered
    obtain ⟨⟨c₂, es₂⟩, hbuf, heq⟩ := bind_eq_ok.1 h
    cases heq
    obtain ⟨hs, hsock, hr, hwr, hwf', hread, hreg⟩ := bufferRest_spec (by exact hwf) hbuf
    have hne : (data.drop n).isEmpty = false := by
      rw [List.isEmpty_eq_false_iff, ← List.length_pos_iff]
      simpa using (Bool.and_eq_true_iff.1 hrest).2
    exact .split (List.take_append_drop n data).symm hs (by rw [hsock]) hr (by rw [hsock]) hsent
      hwf' hread (by simp [hwr, hne]) hreg
  · cases h
    cases fault with
    | true =>
      obtain ⟨hw, rfl⟩ := hfault rfl
      have hdropped : Sent c data w c := .dropped hw
      simpa using hdropped
    | false =>
      have hnil : data.drop n = [] := by
        by_contra hne
        exact hrest (by simpa using List.length_pos_iff.2 hne)
      exact .split (List.take_append_drop n data).symm rfl rfl rfl rfl hsent hwf (by simp [hnil])
        (by simp [hnil]) id

/-- `send(Buffer *)` sends the readable bytes of the buffer and empties it. -/
theorem sendBuffer_eq_ok {buf buf' : Buffer} (hbuf : buf.Wf)
    (h : c.sendBuffer buf w = .ok (c', es, buf')) : c.send buf.readable w = .ok (c', es) := by
  unfold sendBuffer at h
  unfold send
  split_ifs at h ⊢
  · obtain ⟨data, hread, h⟩ := bind_eq_ok.1 h
    obtain ⟨⟨c₁, es₁⟩, hsend, heq⟩ := bind_eq_ok.1 h
    cases heq
    have := hbuf.write_le; have := hbuf.read_le
    rw [Vec.read_of_le (by rw [hbuf.readableBytes_eq]; omega), hbuf.readableBytes_eq] at hread
    cases hread
    exact hsend
  · cases h
    rfl

/-! ### Draining the output buffer -/

/-- What `handleWrite` does: nothing, or it takes `n` bytes that `::write` accepted out of the
output buffer. -/
inductive Drained (c : TcpConnection) (w : WriteResult) : TcpConnection → Prop
  | idle (h : c.channel.isWriting = true → ∀ n, w = .accepted n → n = 0) : Drained c w c
  | taken {c' : TcpConnection} {n : ℕ} (hw : w = .accepted n) (hpos : 0 < n)
      (hwriting : c.channel.isWriting = true) (hwriting' : c'.channel.isWriting = true)
      (hstate : c'.state = c.state)
      (hfin : c'.socket.shutdownWrites = c.socket.shutdownWrites)
      (hwritten : c'.socket.written = c.socket.written ++ c.outputBuffer.readable.take n)
      (hwf : c'.outputBuffer.Wf)
      (hreadable : c'.outputBuffer.readable = c.outputBuffer.readable.drop (toSize (toInt n)))
      (hreading : c'.channel.isReading =
        (c.channel.isReading && !c'.outputBuffer.readable.isEmpty))
      (hreg : c.channel.Registered → c'.channel.Registered) : Drained c w c'

theorem shutdownInLoop_of_isWriting (h : c.channel.isWriting = true) : c.shutdownInLoop = c := by
  simp [shutdownInLoop, h]

/-- The part of `handleWrite` before the test of `state_`; `disableWriting` keeps the write
interest. -/
theorem handleWriteData_spec (hwf : c.outputBuffer.Wf) :
    Drained c w (c.handleWriteData w).1 ∧
      ((c.handleWriteData w).2.2 = true → (c.handleWriteData w).1.channel.isWriting = true) := by
  unfold handleWriteData
  by_cases hwriting : c.channel.isWriting = true
  swap
  · simp only [if_neg hwriting]
    exact ⟨.idle fun h => absurd h hwriting, by simp⟩
  cases w with
  | error e =>
    simp only [if_pos hwriting, Buffer.writeFd, WriteResult.count]
    refine ⟨?_, by simp⟩
    simpa using Drained.idle (c := c) (by simp)
  | accepted n =>
    simp only [if_pos hwriting, WriteResult.count]
    by_cases hpos : 0 < (c.outputBuffer.writeFd (.accepted n)).1
    · have hn : 0 < n := Int.natCast_pos.1 hpos
      have hread := hwf.readable_retrieve (toInt n)
      have hwf' := hwf.retrieve (toInt n)
      have hnil :
          (c.outputBuffer.retrieve (toInt (c.outputBuffer.writeFd (.accepted n)).1)).readable
            = [] ↔ _ := hwf'.readable_eq_nil_iff
      simp only [if_pos hpos]
      by_cases hempty : (c.outputBuffer.retrieve
          (toInt (c.outputBuffer.writeFd (.accepted n)).1)).readableBytes = 0
      · simp only [if_pos hempty]
        refine ⟨.taken rfl hn hwriting ?_ rfl rfl rfl hwf' hread ?_ ?_, fun _ => ?_⟩
        · simpa using hwriting
        · simpa using fun _ => hnil.2 hempty
        · exact fun hreg => hreg.disableWriting hwriting
        · simpa using hwriting
      · simp only [if_neg hempty]
        refine ⟨.taken rfl hn hwriting hwriting rfl rfl rfl hwf' hread ?_ id, by simp⟩
        simpa using fun _ => mt hnil.1 hempty
    · obtain rfl : n = 0 := Nat.eq_zero_of_not_pos (mt Int.natCast_pos.2 hpos)
      simp only [if_neg hpos]
      refine ⟨?_, by simp⟩
      simpa using Drained.idle (c := c) (w := .accepted 0) (by simp)

/-- **What `handleWrite` does.**  As the write interest stays, the `shutdownInLoop` at the end does
nothing. -/
theorem handleWrite_spec (hwf : c.outputBuffer.Wf) : Drained c w (c.handleWrite w).1 := by
  obtain ⟨hdrained, hwriting⟩ := handleWriteData_spec (w := w) hwf
  simp only [handleWrite]
  split_ifs with hstate
  · rw [shutdownInLoop_of_isWriting (hwriting (Bool.and_eq_true_iff.1 hstate).1)]
    exact hdrained
  · exact hdrained

/-! ### Opening -/

/-- A connection that has been established, with its options set before. -/
def established (writeCompleteCallback highWaterMarkCallback : Bool) (highWaterMark : ℕ) :
    TcpConnection :=
  (connectEstablished
    { create with writeCompleteCallback, highWaterMarkCallback, highWaterMark }).1

end TcpConnection

end TinyNetwork
