import TinyNetwork.Net.Lifecycle
import TinyNetwork.Net.TcpServer

/-!
# A server and its loops

`TcpServer`, the connections it has made, and the loops these run on: the base loop and any number
of IO loops.  Each loop polls, dispatches the channels that `poll` has reported, one callback after
the other, and runs a batch of functors; the steps of different loops interleave.  The program calls
a connection from the callbacks on the loop of the connection.  A loop that has quit takes no more
steps.

A `TcpConnectionPtr` is kept in `connections_` and in the functors that are bound to one.  The weak
pointer in a channel can be locked as long as there is one of these.

## Main results

* `State.Held` : the strong references to a connection.
* `lts` : the steps of the loops.
-/

namespace TinyNetwork

namespace ServerLoops

open TcpConnection Lifecycle

/-- What a loop has in its queue. -/
inductive Functor where
  /-- A task of the server, bound to a `TcpConnectionPtr`. -/
  | server (task : TcpServer.Task)
  /-- A task that the connection `conn` has queued. -/
  | connection (conn : ℕ) (task : Task)
  /-- A task of the program. -/
  | user
  deriving DecidableEq

/-- The connection that a functor holds a `TcpConnectionPtr` to.  `sendInLoop` and `shutdownInLoop`
are bound to a plain pointer. -/
def Functor.holds : Functor → Option ℕ
  | .server (.connectEstablished conn) | .server (.removeConnectionInLoop conn)
  | .server (.connectDestroyed conn) => some conn
  | .connection conn .writeComplete | .connection conn (.highWaterMark _) => some conn
  | .connection _ _ | .user => none

/-- A channel that `poll` reports. -/
inductive Active where
  | wakeupChannel
  | acceptChannel
  /-- The channel of a connection, with its `revents_`. -/
  | connection (conn : ℕ) (revents : BitVec 32)
  deriving DecidableEq

/-- Where an iteration of `loop()` stands. -/
inductive Phase where
  /-- Before the return of `poll`. -/
  | polling
  /-- From there to the end of the last `handleEvent`. -/
  | dispatching
  /-- In the batch of `doPendingFunctors`. -/
  | functors
  deriving DecidableEq

/-- A loop and what its thread is about. -/
structure Loop where
  phase : Phase
  /-- The rest of `activeChannels_` that has not been dispatched in this iteration. -/
  activeChannels : List Active
  /-- The callbacks that the `handleEvent` which is running has still to call, on its connection. -/
  handling : List (ℕ × Handler)
  /-- The callbacks that the function which is running has still to call. -/
  calls : List (ℕ × Effect)
  /-- A callback of the program is running. -/
  inCallback : Bool
  /-- The functor that is running. -/
  functor : Option Functor
  /-- The rest of the batch. -/
  functors : List Functor
  pendingFunctors : List Functor

/-- A loop that has just entered `loop()`. -/
def Loop.init : Loop where
  phase := .polling
  activeChannels := []
  handling := []
  calls := []
  inCallback := false
  functor := none
  functors := []
  pendingFunctors := []

/-- The functors that are still to run. -/
def Loop.queue (lp : Loop) : List Functor := lp.functors ++ lp.pendingFunctors

/-- The thread is in no function and in no callback of the program. -/
def Loop.Idle (lp : Loop) : Prop := lp.calls = [] ∧ lp.inCallback = false

/-- The tasks that a function of the connection `conn` has queued. -/
def queued (conn : ℕ) (effects : List Effect) : List Functor :=
  effects.filterMap fun
    | .queueInLoop task => some (.connection conn task)
    | _ => none

/-- The callbacks that it has still to call. -/
def called (conn : ℕ) (effects : List Effect) : List (ℕ × Effect) :=
  effects.filterMap fun
    | .queueInLoop _ => none
    | effect => some (conn, effect)

/-- The server, its connections and their loops. -/
structure State (L : Type*) where
  server : TcpServer L
  conn : ℕ → TcpConnection
  loops : L → Loop
  /-- The connections that `connectDestroyed` has been called for, in order. -/
  destroyed : List ℕ

/-- What the program calls on a connection. -/
def FromProgram : Event → Prop
  | .send _ _ | .sendBuffer _ _ | .shutdown => True
  | _ => False

/-- What the callbacks of the channel run, when `::readv` and `::write`, if they are called, return
`r` and `w`; `handleError` only logs. -/
def eventOf (r : ReadResult) (w : WriteResult) : Handler → Option Event
  | .close => some .handleClose
  | .error => none
  | .read => some (.handleRead r)
  | .write => some (.handleWrite w)

namespace State

variable {L : Type*}

/-- A server that has been started, and its loops. -/
def init (loop : L) (listenAddr : InetAddress) (name : List UInt8) (loops : List L) : State L where
  server := .create loop listenAddr name loops
  conn := fun _ => .create
  loops := fun _ => .init
  destroyed := []

variable (s : State L)

/-- The connection has been made, and runs on the loop `l`. -/
def On (conn : ℕ) (l : L) : Prop := ∃ c, s.server.made[conn]? = some c ∧ c.ioLoop = l

/-- There is a strong reference to the connection: its entry in `connections_`, or a functor that
is queued or running. -/
def Held (conn : ℕ) : Prop :=
  (∃ name, s.server.connections name = some conn) ∨
    ∃ l, ∃ f ∈ (s.loops l).functor.toList ++ (s.loops l).queue, f.holds = some conn

/-- The channel of the connection is in the poller of its loop, or registered with epoll. -/
def InPoller (conn : ℕ) : Prop :=
  (s.conn conn).channel.index ≠ .kNew ∨ (s.conn conn).channel.interest.isSome

/-- What `poll` may report to the loop `l`. -/
def Reported (l : L) : Active → Prop
  | .wakeupChannel => True
  | .acceptChannel => l = s.server.loop
  | .connection conn _ => s.On conn l ∧ (s.conn conn).channel.interest.isSome

variable [DecidableEq L]

def setLoop (l : L) (lp : Loop) : State L := { s with loops := Function.update s.loops l lp }

def setConn (conn : ℕ) (c : TcpConnection) : State L :=
  { s with conn := Function.update s.conn conn c }

/-- `queueInLoop(f)` of the loop `l`. -/
def queueInLoop (l : L) (f : Functor) : State L :=
  s.setLoop l { s.loops l with pendingFunctors := (s.loops l).pendingFunctors ++ [f] }

/-- A function of a connection has run on the loop `l`: the connection behind it, and what it
queues and calls. -/
def perform (l : L) (conn : ℕ) (p : TcpConnection × List Effect) : State L :=
  (s.setConn conn p.1).setLoop l { s.loops l with
    pendingFunctors := (s.loops l).pendingFunctors ++ queued conn p.2
    calls := called conn p.2 ++ (s.loops l).calls }

/-- A callback of the program begins. -/
def enterCallback (l : L) : State L := s.setLoop l { s.loops l with inCallback := true }

/-- `removeConnectionInLoop(conn)`; `connectDestroyed` is queued, also in the loop that is
running.  Only the thread of the base loop reads `connections_`, and between the `erase` and the
push it has the `TcpConnectionPtr` it has been called with. -/
def removeConnectionInLoop (conn : ℕ) : Option (State L) :=
  match s.server.removeConnectionInLoop conn with
  | some (server, ioLoop, task) =>
    some ({ s with server }.queueInLoop ioLoop (.server task))
  | none => none

/-- A task of the server, run on the loop `l`. -/
def runTask (l : L) : TcpServer.Task → Option (State L)
  | .connectEstablished conn => some (s.perform l conn (s.conn conn).connectEstablished)
  | .removeConnectionInLoop conn => s.removeConnectionInLoop conn
  | .connectDestroyed conn =>
    some ({ s with destroyed := s.destroyed ++ [conn] }.perform l conn
      (s.conn conn).connectDestroyed)

/-- `runInLoop(task)` of the loop `target`, called on the loop `l`. -/
def runInLoop (l target : L) (task : TcpServer.Task) : Option (State L) :=
  if l = target then s.runTask l task else some (s.queueInLoop target (.server task))

/-- `newConnection(sockfd, peerAddr)` on the loop `l`. -/
def newConnection (l : L) (writeCompleteCallback : Bool) (sockfd : ℤ)
    (localAddr peerAddr : InetAddress) : Option (State L) :=
  match s.server.newConnection sockfd localAddr peerAddr with
  | some (server, ioLoop, task) =>
    ({ s with server }.setConn s.server.made.length
      { TcpConnection.create with writeCompleteCallback }).runInLoop l ioLoop task
  | none => none

/-- `removeConnection(conn)`, which a connection calls on its loop. -/
def removeConnection (l : L) (conn : ℕ) : Option (State L) :=
  s.runInLoop l s.server.loop (.removeConnectionInLoop conn)

/-- An event of a connection, on the loop `l`. -/
def handle (l : L) (conn : ℕ) (e : Event) : Option (State L) :=
  match (s.conn conn).handle e with
  | .ok p => some (s.perform l conn p)
  | .error _ => none

/-- A functor, run on the loop `l`. -/
def runFunctor (l : L) (w : WriteResult) : Functor → Option (State L)
  | .server task => s.runTask l task
  | .connection conn (.sendInLoop message) => s.handle l conn (.sendInLoop message w)
  | .connection conn .shutdownInLoop => s.handle l conn .shutdownInLoop
  | .connection _ _ | .user => some (s.enterCallback l)

end State

/-- The steps of the loops. -/
inductive Act (L : Type*) where
  | poll (l : L) (active : List Active)
  | wakeup (l : L)
  | accept (l : L) (writeCompleteCallback : Bool) (sockfd : ℤ) (localAddr peerAddr : InetAddress)
  | acceptFails (l : L)
  /-- `handleEvent`; the flag tells whether `tie_.lock()` has a result. -/
  | handleEvent (l : L) (conn : ℕ) (guard : Bool)
  | handle (l : L) (r : ReadResult) (w : WriteResult)
  | callback (l : L)
  | closeCallback (l : L)
  | call (l : L) (conn : ℕ) (e : Event)
  | setCallbacks (l : L) (conn : ℕ) (writeComplete highWater : Bool) (highWaterMark : ℕ)
  | leave (l : L)
  | queueUser (l : L)
  | swap (l : L)
  | functor (l : L) (f : Functor) (w : WriteResult)
  | finish (l : L)
  | endFunctors (l : L)

variable {L : Type*} [DecidableEq L]

/-- The steps of the loops. -/
inductive Step (s : State L) : Act L → State L → Prop
  | poll {l : L} {active : List Active} (hphase : (s.loops l).phase = .polling)
      (hactive : ∀ a ∈ active, s.Reported l a) :
      Step s (.poll l active)
        (s.setLoop l { s.loops l with phase := .dispatching, activeChannels := active })
  | wakeup {l : L} {active : List Active} (hidle : (s.loops l).Idle)
      (hhandling : (s.loops l).handling = [])
      (hactive : (s.loops l).activeChannels = .wakeupChannel :: active) :
      Step s (.wakeup l) (s.setLoop l { s.loops l with activeChannels := active })
  | accept {l : L} {active : List Active} {writeCompleteCallback : Bool} {sockfd : ℤ}
      {localAddr peerAddr : InetAddress} {s' : State L} (hidle : (s.loops l).Idle)
      (hhandling : (s.loops l).handling = [])
      (hactive : (s.loops l).activeChannels = .acceptChannel :: active)
      (h : (s.setLoop l { s.loops l with activeChannels := active }).newConnection l
        writeCompleteCallback sockfd localAddr peerAddr = some s') :
      Step s (.accept l writeCompleteCallback sockfd localAddr peerAddr) s'
  | acceptFails {l : L} {active : List Active} (hidle : (s.loops l).Idle)
      (hhandling : (s.loops l).handling = [])
      (hactive : (s.loops l).activeChannels = .acceptChannel :: active) :
      Step s (.acceptFails l) (s.setLoop l { s.loops l with activeChannels := active })
  | handleEvent {l : L} {active : List Active} {conn : ℕ} {revents : BitVec 32} {guard : Bool}
      (hidle : (s.loops l).Idle) (hhandling : (s.loops l).handling = [])
      (hactive : (s.loops l).activeChannels = .connection conn revents :: active)
      (hguard : guard = true ↔ s.Held conn) :
      Step s (.handleEvent l conn guard) (s.setLoop l { s.loops l with
        activeChannels := active
        handling := if guard then (handlers revents).map (conn, ·) else [] })
  | handleError {l : L} {conn : ℕ} {handler : Handler} {handling : List (ℕ × Handler)}
      {r : ReadResult} {w : WriteResult} (hidle : (s.loops l).Idle)
      (hhandling : (s.loops l).handling = (conn, handler) :: handling)
      (he : eventOf r w handler = none) :
      Step s (.handle l r w) (s.setLoop l { s.loops l with handling })
  | handle {l : L} {conn : ℕ} {handler : Handler} {handling : List (ℕ × Handler)}
      {r : ReadResult} {w : WriteResult} {e : Event} {s' : State L} (hidle : (s.loops l).Idle)
      (hhandling : (s.loops l).handling = (conn, handler) :: handling)
      (he : eventOf r w handler = some e) (hlegal : e.Legal (s.conn conn))
      (h : (s.setLoop l { s.loops l with handling }).handle l conn e = some s') :
      Step s (.handle l r w) s'
  | callback {l : L} {conn : ℕ} {effect : Effect} {calls : List (ℕ × Effect)}
      (hcallback : (s.loops l).inCallback = false)
      (hcalls : (s.loops l).calls = (conn, effect) :: calls) (heffect : effect ≠ .closeCallback) :
      Step s (.callback l) (s.setLoop l { s.loops l with calls, inCallback := true })
  | closeCallback {l : L} {conn : ℕ} {calls : List (ℕ × Effect)} {s' : State L}
      (hcallback : (s.loops l).inCallback = false)
      (hcalls : (s.loops l).calls = (conn, .closeCallback) :: calls)
      (h : (s.setLoop l { s.loops l with calls }).removeConnection l conn = some s') :
      Step s (.closeCallback l) s'
  | call {l : L} {conn : ℕ} {e : Event} {s' : State L} (hcallback : (s.loops l).inCallback = true)
      (hon : s.On conn l) (he : FromProgram e) (hlegal : e.Legal (s.conn conn))
      (h : s.handle l conn e = some s') : Step s (.call l conn e) s'
  | setCallbacks {l : L} {conn : ℕ} {writeCompleteCallback highWaterMarkCallback : Bool}
      {highWaterMark : ℕ} (hcallback : (s.loops l).inCallback = true) (hon : s.On conn l) :
      Step s (.setCallbacks l conn writeCompleteCallback highWaterMarkCallback highWaterMark)
        (s.setConn conn { s.conn conn with
          writeCompleteCallback
          highWaterMarkCallback
          highWaterMark })
  | leave {l : L} (hcallback : (s.loops l).inCallback = true) :
      Step s (.leave l) (s.setLoop l { s.loops l with inCallback := false })
  | queueUser {l : L} : Step s (.queueUser l) (s.queueInLoop l .user)
  | swap {l : L} (hphase : (s.loops l).phase = .dispatching) (hidle : (s.loops l).Idle)
      (hhandling : (s.loops l).handling = []) (hactive : (s.loops l).activeChannels = []) :
      Step s (.swap l) (s.setLoop l { s.loops l with
        phase := .functors
        functors := (s.loops l).pendingFunctors
        pendingFunctors := [] })
  | functor {l : L} {f : Functor} {functors : List Functor} {w : WriteResult} {s' : State L}
      (hphase : (s.loops l).phase = .functors) (hfunctor : (s.loops l).functor = none)
      (hfunctors : (s.loops l).functors = f :: functors)
      (h : (s.setLoop l { s.loops l with functor := some f, functors }).runFunctor l w f =
        some s') :
      Step s (.functor l f w) s'
  | finish {l : L} (hphase : (s.loops l).phase = .functors) (hidle : (s.loops l).Idle) :
      Step s (.finish l) (s.setLoop l { s.loops l with functor := none })
  | endFunctors {l : L} (hphase : (s.loops l).phase = .functors)
      (hfunctor : (s.loops l).functor = none) (hfunctors : (s.loops l).functors = []) :
      Step s (.endFunctors l) (s.setLoop l { s.loops l with phase := .polling })

/-- The server and its loops. -/
def lts (L : Type*) [DecidableEq L] : LTS (State L) (Act L) where
  step := Step

end ServerLoops

end TinyNetwork
