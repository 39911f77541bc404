import TinyNetwork.Net.Shared

/-!
# The life of a connection

A connection from its creation to the end of `connectDestroyed`.  The loop thread runs the functions
of the connection and the callbacks of the program inside them; other threads call `send(Buffer *)`
and `shutdown()`.  Every load and every store of `state_` is a step of its own, on the loop thread
as well.

`Core` is what the steps of the loop thread are about: the connection, where the thread stands, what
is left of the dispatch of the channel, and the callbacks called so far.  `Lifecycle.lts` puts it
together with the loop and the other threads.

## Main results

* `Core.handleClose_eq`, `Core.connectDestroyed_eq`, `Core.sendInLoop_eq`, `Core.shutdown_eq` : the
  steps of an undisturbed function make up the function of `TcpConnection`.
* `Core.dispatched` : what a callback of the channel does.
* `core_step` : a step of the system leaves the core alone or is a step of the core.
-/

namespace TinyNetwork

namespace TcpConnection

/-- `sendInLoop(data, len)` behind the test of `state_`. -/
def sendInLoopRest (c : TcpConnection) (data : List UInt8) (w : WriteResult) :
    Except Fault (TcpConnection × List Effect) :=
  let (c, nwrote, faultError, queued) := c.writeFirst data w
  let rest := data.drop nwrote
  if !faultError && 0 < rest.length then do
    let (c, effects) ← c.bufferRest rest
    return (c, queued ++ effects)
  else .ok (c, queued)

section

variable {c c' : TcpConnection} {data : List UInt8} {w : WriteResult} {effects : List Effect}

theorem sendInLoop_eq :
    c.sendInLoop data w =
      if c.state = .kDisconnected then .ok (c, []) else c.sendInLoopRest data w := rfl

@[simp] theorem state_setState {state : StateE} : (c.setState state).state = state := rfl

@[simp] theorem state_writeFirst : (c.writeFirst data w).1.state = c.state := by
  unfold writeFirst
  split_ifs
  · cases w <;> rfl
  · rfl

@[simp] theorem channel_writeFirst : (c.writeFirst data w).1.channel = c.channel := by
  unfold writeFirst
  split_ifs
  · cases w <;> rfl
  · rfl

/-- Behind the test `sendInLoop` leaves `state_` alone and at most enables writing. -/
theorem sendInLoopRest_eq_ok (h : c.sendInLoopRest data w = .ok (c', effects)) :
    c'.state = c.state ∧ (c'.channel = c.channel ∨ c'.channel = c.channel.enableWriting) := by
  simp only [sendInLoopRest] at h
  split_ifs at h
  · obtain ⟨⟨c₁, effects₁⟩, hbuf, heq⟩ := bind_eq_ok.1 h
    cases heq
    obtain ⟨outputBuffer, -, rfl⟩ := bufferRest_eq_ok hbuf
    refine ⟨state_writeFirst, ?_⟩
    simp only [channel_writeFirst]
    split_ifs
    · exact .inr rfl
    · exact .inl rfl
  · cases h
    exact ⟨state_writeFirst, .inl channel_writeFirst⟩

@[simp] theorem state_handleWriteData : (c.handleWriteData w).1.state = c.state := by
  unfold handleWriteData
  split_ifs <;> try rfl
  simp only
  split_ifs <;> rfl

/-- Without the write interest `handleWrite` does nothing. -/
theorem handleWriteData_of_not_isWriting (h : c.channel.isWriting = false) :
    c.handleWriteData w = (c, [], false) := by
  simp [handleWriteData, h]

/-- With it, `handleWrite` at most disables writing. -/
theorem channel_handleWriteData :
    (c.handleWriteData w).1.channel = c.channel ∨
      (c.handleWriteData w).1.channel = c.channel.disableWriting := by
  unfold handleWriteData
  split
  · simp only
    split
    · split
      · exact .inr rfl
      · exact .inl rfl
    · exact .inl rfl
  · exact .inl rfl

@[simp] theorem state_shutdownInLoop : c.shutdownInLoop.state = c.state := by
  unfold shutdownInLoop
  split_ifs <;> rfl

@[simp] theorem channel_shutdownInLoop : c.shutdownInLoop.channel = c.channel := by
  unfold shutdownInLoop
  split_ifs <;> rfl

end

end TcpConnection

namespace Lifecycle

open TcpConnection Shared

/-! ### The steps of the loop thread -/

/-- A callback of the channel that `handleEventWithGuard` has still to call. -/
inductive Handler where
  | close | error | read | write
  deriving DecidableEq, Repr

/-- `EPOLLIN`, `EPOLLPRI`, `EPOLLOUT`, `EPOLLERR` and `EPOLLHUP`. -/
def EPOLLIN : BitVec 32 := 0x001
def EPOLLPRI : BitVec 32 := 0x002
def EPOLLOUT : BitVec 32 := 0x004
def EPOLLERR : BitVec 32 := 0x008
def EPOLLHUP : BitVec 32 := 0x010

/-- What `handleEventWithGuard` calls, in order. -/
def handlers (revents : BitVec 32) : List Handler :=
  (if revents &&& EPOLLHUP ≠ 0 ∧ revents &&& EPOLLIN = 0 then [.close] else []) ++
  (if revents &&& EPOLLERR ≠ 0 then [.error] else []) ++
  (if revents &&& (EPOLLIN ||| EPOLLPRI) ≠ 0 then [.read] else []) ++
  (if revents &&& EPOLLOUT ≠ 0 then [.write] else [])

/-- What follows a callback of the program. -/
inductive Frame where
  /-- The call of `closeCallback_` in `handleClose`. -/
  | closeCallback
  /-- `channel_->remove()` in `connectDestroyed`. -/
  | remove
  deriving DecidableEq, Repr

/-- Where the loop thread stands. -/
inductive Pc where
  /-- In no function of the connection, or in a callback of the program. -/
  | user
  /-- In `connectEstablished`, after the store. -/
  | established
  /-- Before the load in `sendInLoop`. -/
  | sending (message : List UInt8)
  /-- After it. -/
  | writing (message : List UInt8)
  /-- In `shutdown`, after the load. -/
  | closing
  | shutdownInLoop
  /-- In `handleWrite`, before the load. -/
  | finishing
  /-- In `handleClose`, after the store. -/
  | handleClose
  /-- In `connectDestroyed`, after a load that found `kConnected`. -/
  | destroying
  /-- In `connectDestroyed`, after the store. -/
  | disabling
  /-- In `connectDestroyed`, after a load that found another state. -/
  | removing
  deriving DecidableEq

/-- The functions of the connection that are called from outside. -/
inductive Entry where
  | connectEstablished
  | send (message : List UInt8)
  | sendInLoop (message : List UInt8)
  | shutdown
  | shutdownInLoop
  | connectDestroyed
  deriving DecidableEq

/-- The functors of the library. -/
def Entry.Queued : Entry → Prop
  | .connectEstablished | .sendInLoop _ | .shutdownInLoop | .connectDestroyed => True
  | _ => False

/-- What is called on the loop thread without the queue: by callbacks, by `newConnection` and by
`~TcpServer`. -/
def Entry.Called : Entry → Prop
  | .connectEstablished | .send _ | .shutdown | .connectDestroyed => True
  | _ => False

/-- A connection as its loop thread sees it. -/
structure Core where
  conn : TcpConnection
  pc : Pc
  /-- What follows the callbacks that are running, innermost first. -/
  frames : List Frame
  /-- What is left of the dispatch of the channel. -/
  active : List Handler
  /-- The callbacks called so far. -/
  log : List Effect
  /-- `connectEstablished` has been called. -/
  begun : Bool
  /-- `handleClose` has stored `kDisconnected`. -/
  closed : Bool
  /-- A call of `connectDestroyed` has returned. -/
  destroyed : Bool

namespace Core

variable (c : Core)

/-- `connected()`. -/
def connected : Bool := c.conn.state = .kConnected

/-- The call of a callback. -/
def callback (effect : Effect) : Core := { c with log := c.log ++ [effect] }

/-- The store in `handleClose`. -/
def storeClosed : Core :=
  { c with conn := c.conn.setState .kDisconnected, pc := .handleClose, closed := true }

/-- `channel_->remove()`, the end of `connectDestroyed`. -/
def removeChannel : Core :=
  { c with conn.channel := c.conn.channel.remove, destroyed := true }

/-- The call of a function, up to its first access to `state_`. -/
def enter : Entry → Core
  | .connectEstablished =>
    { c with conn := c.conn.setState .kConnected, pc := .established, begun := true }
  | .send message => if c.connected then { c with pc := .sending message } else c
  | .sendInLoop message => { c with pc := .sending message }
  | .shutdown => if c.connected then { c with pc := .closing } else c
  | .shutdownInLoop => { c with pc := .shutdownInLoop }
  | .connectDestroyed => { c with pc := if c.connected then .destroying else .removing }

/-- The next callback of the channel, when `::readv` and `::write`, if they are called, return `r`
and `w`. -/
def dispatch (r : ReadResult) (w : WriteResult) : Option Core :=
  match c.active with
  | [] => none
  | .close :: active => some { c with active }.storeClosed
  | .error :: active => some { c with active }
  | .read :: active =>
    match c.conn.inputBuffer.readFd r with
    | .error _ => none
    | .ok (n, _, inputBuffer) =>
      let c := { c with active, conn.inputBuffer := inputBuffer }
      if 0 < n then some (c.callback .messageCallback)
      else if n = 0 then some c.storeClosed
      else some c
  | .write :: active =>
    let (conn, _, drained) := c.conn.handleWriteData w
    some { c with active, conn, pc := if drained then .finishing else .user }

/-- The next step inside a function. -/
def advance (w : WriteResult) : Option Core :=
  match c.pc with
  | .user => none
  | .established =>
    let c := { c with conn.channel := c.conn.channel.enableReading, pc := .user }
    some (c.callback (.connectionCallback c.connected))
  | .sending message =>
    some { c with pc := if c.conn.state = .kDisconnected then .user else .writing message }
  | .writing message =>
    match c.conn.sendInLoopRest message w with
    | .error _ => none
    | .ok (conn, _) => some { c with conn, pc := .user }
  | .closing => some { c with conn := c.conn.setState .kDisconnecting, pc := .shutdownInLoop }
  | .shutdownInLoop => some { c with conn := c.conn.shutdownInLoop, pc := .user }
  | .finishing =>
    some { c with pc := if c.conn.state = .kDisconnecting then .shutdownInLoop else .user }
  | .handleClose =>
    let c := { c with
      conn.channel := c.conn.channel.disableAll, pc := .user, frames := .closeCallback :: c.frames }
    some (c.callback (.connectionCallback c.connected))
  | .destroying => some { c with conn := c.conn.setState .kDisconnected, pc := .disabling }
  | .disabling =>
    let c := { c with
      conn.channel := c.conn.channel.disableAll, pc := .user, frames := .remove :: c.frames }
    some (c.callback (.connectionCallback c.connected))
  | .removing => some { c with pc := .user }.removeChannel

/-- What follows a callback that returns. -/
def leave : Option Core :=
  match c.frames with
  | [] => none
  | .closeCallback :: frames => some ({ c with frames }.callback .closeCallback)
  | .remove :: frames => some { c with frames }.removeChannel

/-! ### Undisturbed functions -/

variable {c : Core} {w : WriteResult}

theorem handleClose_eq :
    (c.storeClosed.advance w).bind leave =
      some { c with
        conn := c.conn.handleClose.1
        pc := .user
        log := c.log ++ c.conn.handleClose.2
        closed := true } := by
  simp [storeClosed, advance, leave, callback, connected, TcpConnection.handleClose, setState]

theorem connectDestroyed_eq_of_connected (h : c.conn.state = .kConnected) :
    (((c.enter .connectDestroyed).advance w).bind (advance · w)).bind leave =
      some { c with
        conn := c.conn.connectDestroyed.1
        pc := .user
        log := c.log ++ c.conn.connectDestroyed.2
        destroyed := true } := by
  simp [enter, advance, leave, callback, connected, removeChannel, TcpConnection.connectDestroyed,
    setState, h]

theorem connectDestroyed_eq_of_ne (h : c.conn.state ≠ .kConnected) :
    (c.enter .connectDestroyed).advance w =
      some { c with
        conn := c.conn.connectDestroyed.1
        pc := .user
        log := c.log ++ c.conn.connectDestroyed.2
        destroyed := true } := by
  simp [enter, advance, connected, removeChannel, TcpConnection.connectDestroyed, h]

theorem shutdown_eq (h : c.conn.state = .kConnected) :
    ((c.enter .shutdown).advance w).bind (advance · w) =
      some { c with conn := c.conn.shutdown, pc := .user } := by
  simp [enter, advance, connected, TcpConnection.shutdown, h]

theorem sendInLoop_eq {message : List UInt8} {conn : TcpConnection} {effects : List Effect}
    (hstate : c.conn.state ≠ .kDisconnected)
    (h : c.conn.sendInLoop message w = .ok (conn, effects)) :
    ((c.enter (.sendInLoop message)).advance w).bind (advance · w) =
      some { c with conn, pc := .user } := by
  rw [TcpConnection.sendInLoop_eq, if_neg hstate] at h
  simp [enter, advance, hstate, h]

@[simp] theorem destroyed_enter {e : Entry} : (c.enter e).destroyed = c.destroyed := by
  cases e <;> simp only [enter] <;> split_ifs <;> rfl

@[simp] theorem log_enter {e : Entry} : (c.enter e).log = c.log := by
  cases e <;> simp only [enter] <;> split_ifs <;> rfl

/-! ### Callbacks of the channel -/

/-- The next callback is `handleClose`, or a `handleRead` that finds the end of file. -/
def Closes (c : Core) (r : ReadResult) : Prop :=
  c.active.head? = some .close ∨ c.active.head? = some .read ∧ r = .data []

/-- The next callback is a `handleRead` that finds data. -/
def Delivers (c : Core) (r : ReadResult) : Prop :=
  c.active.head? = some .read ∧ ∃ b bytes, r = .data (b :: bytes)

/-- What a callback of the channel does. -/
inductive Dispatched (c : Core) (r : ReadResult) (w : WriteResult) : Core → Prop
  | closes {active : List Handler} {inputBuffer : Buffer} (h : c.Closes r) :
      Dispatched c r w { c with active, conn.inputBuffer := inputBuffer }.storeClosed
  | delivers {active : List Handler} {inputBuffer : Buffer} (h : c.Delivers r) :
      Dispatched c r w
        ({ c with active, conn.inputBuffer := inputBuffer }.callback .messageCallback)
  | fails {active : List Handler} (hcloses : ¬ c.Closes r) (hdelivers : ¬ c.Delivers r) :
      Dispatched c r w { c with active }
  | writes {active : List Handler} (hcloses : ¬ c.Closes r) (hdelivers : ¬ c.Delivers r) :
      Dispatched c r w { c with
        active
        conn := (c.conn.handleWriteData w).1
        pc := if (c.conn.handleWriteData w).2.2 then .finishing else .user }

theorem dispatched {c' : Core} {r : ReadResult} (h : c.dispatch r w = some c') :
    Dispatched c r w c' := by
  unfold dispatch at h
  split at h
  · cases h
  · rename_i active hactive
    cases h
    exact @Dispatched.closes c r w active c.conn.inputBuffer (.inl (by rw [hactive]; rfl))
  · rename_i active hactive
    cases h
    exact .fails (by simp [Closes, hactive]) (by simp [Delivers, hactive])
  · rename_i active hactive
    cases r with
    | error e =>
      cases h
      exact .fails (by simp [Closes, hactive]) (by simp [Delivers])
    | data bytes =>
      split at h
      · cases h
      · rename_i n e inputBuffer hread
        rw [Buffer.readFd_count hread] at h
        cases bytes with
        | nil =>
          cases h
          exact .closes (.inr ⟨by rw [hactive]; rfl, rfl⟩)
        | cons b bytes =>
          rw [if_pos (by simp)] at h
          cases h
          exact .delivers ⟨by rw [hactive]; rfl, b, bytes, rfl⟩
  · rename_i active hactive
    cases h
    exact .writes (by simp [Closes, hactive]) (by simp [Delivers, hactive])

/-- A connection before `connectEstablished`. -/
def create (conn : TcpConnection) : Core where
  conn
  pc := .user
  frames := []
  active := []
  log := []
  begun := false
  closed := false
  destroyed := false

end Core

/-- The steps of a core. -/
inductive CoreAct where
  | poll (revents : BitVec 32)
  | enter (e : Entry)
  | dispatch (r : ReadResult) (w : WriteResult)
  | advance (w : WriteResult)
  | leave
  /-- The store of a `shutdown` of another thread. -/
  | store

/-- The steps of a core.  `connectEstablished` is called first, and once; the channel is reported
only if it is registered, and dispatched after the callbacks of the handler before have returned. -/
inductive CoreStep (c : Core) : CoreAct → Core → Prop
  | poll {revents : BitVec 32} (hpc : c.pc = .user) (hframes : c.frames = [])
      (hreg : revents ≠ 0 → c.conn.channel.interest.isSome) :
      CoreStep c (.poll revents) { c with active := handlers revents }
  | enter {e : Entry} (hpc : c.pc = .user)
      (hbegun : c.begun = false ↔ e = .connectEstablished) : CoreStep c (.enter e) (c.enter e)
  | dispatch {r : ReadResult} {w : WriteResult} {c' : Core} (hpc : c.pc = .user)
      (hframes : c.frames = []) (hr : (Event.handleRead r).Legal c.conn)
      (hw : (Event.handleWrite w).Legal c.conn) (h : c.dispatch r w = some c') :
      CoreStep c (.dispatch r w) c'
  | advance {w : WriteResult} {c' : Core}
      (hw : ∀ message, c.pc = .writing message → w.Legal message.length)
      (h : c.advance w = some c') : CoreStep c (.advance w) c'
  | leave {c' : Core} (hpc : c.pc = .user) (h : c.leave = some c') : CoreStep c .leave c'
  | store : CoreStep c .store { c with conn := c.conn.setState .kDisconnecting }

/-! ### The system -/

/-- A functor in the queue: one of the library, or one of the program. -/
abbrev Job := Option Entry

/-- The connection, its loop and the other threads. -/
structure State (T : Type*) where
  loop : EventLoop.State T Job
  core : Core
  call : T → CallerPc

/-- The steps of the threads. -/
inductive Act (T : Type*) where
  | loop (a : EventLoop.Act T Job)
  | poll (wake : Bool) (revents : BitVec 32)
  | functor (e : Entry)
  | inline (e : Entry)
  | dispatch (r : ReadResult) (w : WriteResult)
  | advance (w : WriteResult)
  | leave
  | beginSend (t : T) (message : List UInt8)
  | endSend (t : T)
  | beginShutdown (t : T)
  | storeShutdown (t : T)
  | endShutdown (t : T)
  /-- The push of `connectDestroyed`, by `removeConnectionInLoop` or by `~TcpServer`. -/
  | queueDestroyed (t : Option T)

variable {T : Type*}

/-- The loop actions that do not involve the connection. -/
def Plain : EventLoop.Act T Job → Prop
  | .queueInLoop _ job | .runInLoop _ job | .startFunctor job => job = none
  | .pollReturn _ => False
  | _ => True

/-- The loop actions that follow each other in `loop()`. -/
def Control : EventLoop.Act T Job → Prop
  | .queueInLoop _ _ | .runInLoop _ _ | .queueWakeup _ | .quit _ | .quitWakeup _ => False
  | _ => True

/-- The loop actions by which another thread begins a call. -/
def Begins (t : T) : EventLoop.Act T Job → Prop
  | .queueInLoop t' _ | .runInLoop t' _ | .quit t' => t' = some t
  | _ => False

/-- A connection that `newConnection` has created: the loop has at most its `connectEstablished` to
run. -/
structure Created (s : State T) : Prop where
  core : ∃ writeCompleteCallback highWaterMarkCallback highWaterMark, s.core = .create
    { TcpConnection.create with writeCompleteCallback, highWaterMarkCallback, highWaterMark }
  queue : ∀ e, some e ∈ s.loop.queue → e = .connectEstablished
  call : ∀ t, s.call t = .idle

section Lts

variable [DecidableEq T]

/-- The steps of the threads.  The program gets hold of a connection in its first callback. -/
inductive Step (s : State T) : Act T → State T → Prop
  | loop {a loop} (ha : Plain a) (hcontrol : Control a → s.core.pc = .user ∧ s.core.frames = [])
      (hend : a = .endEvents → s.core.active = []) (hcall : ∀ t, Begins t a → s.call t = .idle)
      (h : EventLoop.Step s.loop a loop) : Step s (.loop a) { s with loop }
  | poll {wake revents loop core} (h : EventLoop.Step s.loop (.pollReturn wake) loop)
      (hcore : CoreStep s.core (.poll revents) core) :
      Step s (.poll wake revents) { s with loop, core }
  | functor {e loop core} (he : e.Queued) (hframes : s.core.frames = [])
      (h : EventLoop.Step s.loop (.startFunctor (some e)) loop)
      (hcore : CoreStep s.core (.enter e) core) : Step s (.functor e) { s with loop, core }
  | inline {e core} (he : e.Called)
      (hloop : s.loop.pc.RunsCallback ∨ s.loop.pc = .outside ∧ e = .connectDestroyed)
      (hcall : s.loop.call none = .idle) (hcore : CoreStep s.core (.enter e) core) :
      Step s (.inline e) { s with core }
  | dispatch {r w wake core} (hloop : s.loop.pc = .handling wake)
      (hcall : s.loop.call none = .idle) (hcore : CoreStep s.core (.dispatch r w) core) :
      Step s (.dispatch r w) { s with core }
  | advance {w core} (hcall : s.loop.call none = .idle)
      (hcore : CoreStep s.core (.advance w) core) : Step s (.advance w) { s with core }
  | leave {core} (hcall : s.loop.call none = .idle) (hcore : CoreStep s.core .leave core) :
      Step s .leave { s with core }
  | beginSend {t message} (hcall : s.call t = .idle) (hloop : s.loop.call (some t) = .idle)
      (hseen : s.core.log ≠ []) (hstate : s.core.conn.state = .kConnected) :
      Step s (.beginSend t message)
        { s with call := Function.update s.call t (.sending message) }
  | endSend {t message loop} (hcall : s.call t = .sending message)
      (h : EventLoop.Step s.loop (.runInLoop (some t) (some (.sendInLoop message))) loop) :
      Step s (.endSend t) { s with loop, call := Function.update s.call t .idle }
  | beginShutdown {t} (hcall : s.call t = .idle) (hloop : s.loop.call (some t) = .idle)
      (hseen : s.core.log ≠ []) (hstate : s.core.conn.state = .kConnected) :
      Step s (.beginShutdown t) { s with call := Function.update s.call t .closing }
  | storeShutdown {t core} (hcall : s.call t = .closing) (hcore : CoreStep s.core .store core) :
      Step s (.storeShutdown t) { s with core, call := Function.update s.call t .closed }
  | endShutdown {t loop} (hcall : s.call t = .closed)
      (h : EventLoop.Step s.loop (.runInLoop (some t) (some .shutdownInLoop)) loop) :
      Step s (.endShutdown t) { s with loop, call := Function.update s.call t .idle }
  | queueDestroyed {t loop} (hcall : ∀ t', t = some t' → s.call t' = .idle)
      (h : EventLoop.Step s.loop (.queueInLoop t (some .connectDestroyed)) loop) :
      Step s (.queueDestroyed t) { s with loop }

/-- The connection, its loop and the other threads. -/
def lts (T : Type*) [DecidableEq T] : LTS (State T) (Act T) where
  step := Step

end Lts

/-- What a step of the system does to the core. -/
def Act.onCore : Act T → Option CoreAct
  | .poll _ revents => some (.poll revents)
  | .functor e | .inline e => some (.enter e)
  | .dispatch r w => some (.dispatch r w)
  | .advance w => some (.advance w)
  | .leave => some .leave
  | .storeShutdown _ => some .store
  | _ => none

variable [DecidableEq T] {s s' s₀ : State T} {a : Act T}

/-- **A step of the system** leaves the core alone or is a step of the core. -/
theorem core_step (h : Step s a s') :
    match a.onCore with
    | none => s'.core = s.core
    | some b => CoreStep s.core b s'.core := by
  cases h with
  | poll _ hcore | functor _ _ _ hcore | inline _ _ _ hcore | dispatch _ _ hcore
  | advance _ hcore | leave _ hcore | storeShutdown _ hcore => exact hcore
  | loop | beginSend | endSend | beginShutdown | endShutdown | queueDestroyed => rfl

/-! ### An established connection -/

/-- A loop about to run the `connectEstablished` of a connection. -/
def establishing : State Unit where
  loop := { EventLoop.init with pc := .running none [some .connectEstablished] }
  core := .create .create
  call := fun _ => .idle

/-- The loop in the callback of `connectEstablished`. -/
def establishedUp : State Unit where
  loop := { EventLoop.init with pc := .running (some (some .connectEstablished)) [] }
  core :=
    { Core.create TcpConnection.create.connectEstablished.1 with
      log := TcpConnection.create.connectEstablished.2, begun := true }
  call := fun _ => .idle

theorem created_establishing : Created establishing where
  core := ⟨_, _, _, rfl⟩
  queue := by simp [establishing, EventLoop.State.queue, EventLoop.State.batch, EventLoop.init]
  call _ := rfl

theorem reachableBy_establishedUp {C : State Unit → Act Unit → Prop}
    (henter : C establishing (.functor .connectEstablished))
    (hadvance : ∀ s, s.core.destroyed = false → C s (.advance (.accepted 0))) :
    (lts Unit).ReachableBy C establishing establishedUp :=
  (LTS.ReachableBy.refl : (lts Unit).ReachableBy C establishing establishing)
    |>.tail (.functor (e := .connectEstablished) trivial rfl (.startFunctor rfl)
      (.enter rfl (by decide))) henter
    |>.tail (.advance (w := .accepted 0) rfl (.advance nofun rfl)) (hadvance _ rfl)

end Lifecycle

end TinyNetwork
