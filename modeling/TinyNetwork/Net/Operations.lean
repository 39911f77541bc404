import TinyNetwork.Net.Custody
import TinyNetwork.Poller.EpollPoller

/-!
# What a server asks of its pollers

The functions of a connection change their channel by the functions of `Channel`, which go to the
poller of the connection's loop.  For every step of the loops these calls are listed as the source
makes them.

## Main results

* `TcpConnection.foldl_ops` : the channel of a connection changes by the calls that are listed.
* `ServerLoops.history` : the calls that the thread of a loop has made in a run.
* `ServerLoops.Inv.operates` : what a step does to the channels.
-/

namespace TinyNetwork

open EpollPoller (Op)

namespace TcpConnection

variable {c c' : TcpConnection} {data : List UInt8} {w : WriteResult} {e : Event}
  {effects : List Effect}

/-- The calls in `sendInLoop(data, len)`: `enableWriting` for the rest of a message. -/
def sendInLoopOps (c : TcpConnection) (data : List UInt8) (w : WriteResult) : List Op :=
  if c.state = .kDisconnected then []
  else
    let (c, nwrote, faultError, _) := c.writeFirst data w
    if !faultError && 0 < (data.drop nwrote).length && !c.channel.isWriting then [.enableWriting]
    else []

namespace Event

/-- The calls that a function of the connection makes. -/
def ops (c : TcpConnection) : Event → List Op
  | .send buf w => if c.state = .kConnected then c.sendInLoopOps buf w else []
  | .sendBuffer buf w => if c.state = .kConnected then c.sendInLoopOps buf.readable w else []
  | .sendInLoop message w => c.sendInLoopOps message w
  | .shutdown | .setDisconnecting | .shutdownInLoop => []
  -- the end of file is passed on to `handleClose`
  | .handleRead (.data []) => [.disableAll]
  | .handleRead _ => []
  | .handleWrite w => if (c.handleWriteData w).2.2 then [.disableWriting] else []
  | .handleClose => [.disableAll]
  | .connectDestroyed => if c.state = .kConnected then [.disableAll, .remove] else [.remove]

end Event

theorem foldl_sendInLoopOps (h : c.sendInLoop data w = .ok (c', effects)) : c'.channel =
    (c.sendInLoopOps data w).foldl (fun ch op => op.onChannel ch) c.channel := by
  unfold sendInLoop at h
  unfold sendInLoopOps
  split_ifs at h ⊢ with hstate
  · cases h
    rfl
  obtain ⟨c₁, n, fault, q, hfirst⟩ : ∃ c₁ n fault q, c.writeFirst data w = (c₁, n, fault, q) :=
    ⟨_, _, _, _, rfl⟩
  have hchannel : c₁.channel = c.channel := by
    have hsame : (c.writeFirst data w).1.channel = c.channel := channel_writeFirst
    rwa [hfirst] at hsame
  simp only [hfirst] at h ⊢
  split_ifs at h with hrest
  · obtain ⟨⟨c₂, effects₂⟩, hbuf, heq⟩ := bind_eq_ok.1 h
    cases heq
    obtain ⟨outputBuffer, -, rfl⟩ := bufferRest_eq_ok hbuf
    rw [hrest, hchannel]
    cases c.channel.isWriting <;> rfl
  · cases h
    rw [Bool.not_eq_true] at hrest
    rw [hrest]
    exact hchannel

theorem foldl_send (h : c.send data w = .ok (c', effects)) : c'.channel =
    ((Event.send data w).ops c).foldl (fun ch op => op.onChannel ch) c.channel := by
  unfold send at h
  unfold Event.ops
  split_ifs at h ⊢
  · exact foldl_sendInLoopOps h
  · cases h
    rfl

/-- The write event disables writing, or leaves the channel alone. -/
theorem foldl_handleWriteData : (c.handleWriteData w).1.channel =
    ((Event.handleWrite w).ops c).foldl (fun ch op => op.onChannel ch) c.channel := by
  unfold Event.ops handleWriteData
  split
  · simp only
    split
    · split <;> rfl
    · rfl
  · rfl

theorem foldl_handleRead {r : ReadResult} (h : c.handleRead r = .ok (c', effects)) : c'.channel =
    ((Event.handleRead r).ops c).foldl (fun ch op => op.onChannel ch) c.channel := by
  obtain ⟨⟨n, errno, inputBuffer⟩, hread, h⟩ := bind_eq_ok.1 h
  cases r with
  | data bytes =>
    obtain rfl := Buffer.readFd_count hread
    cases bytes with
    | nil =>
      cases h
      rfl
    | cons b bytes =>
      simp only [if_pos (show (0 : ℤ) < ((b :: bytes).length : ℕ) by simp)] at h
      cases h
      rfl
  | error errno =>
    cases hread
    cases h
    rfl

/-- **The channel of a connection changes by the calls that are listed.** -/
theorem foldl_ops (hlegal : e.Legal c) (h : c.handle e = .ok (c', effects)) : c'.channel =
    (e.ops c).foldl (fun ch op => op.onChannel ch) c.channel := by
  cases e with
  | send buf w => exact foldl_send h
  | sendBuffer buf w =>
    obtain ⟨⟨c₁, effects₁, buf'⟩, hsend, heq⟩ := bind_eq_ok.1 h
    cases heq
    exact foldl_send (sendBuffer_eq_ok hlegal.1 hsend)
  | sendInLoop message w => exact foldl_sendInLoopOps h
  | shutdown =>
    cases h
    exact quiet_shutdown.channel
  | setDisconnecting =>
    cases h
    exact quiet_setDisconnecting.channel
  | shutdownInLoop =>
    cases h
    exact channel_shutdownInLoop
  | handleRead r => exact foldl_handleRead h
  | handleWrite w =>
    obtain rfl : (c.handleWrite w).1 = c' := congrArg Prod.fst (Except.ok.inj h)
    rw [← foldl_handleWriteData]
    simp only [handleWrite]
    split_ifs
    · exact channel_shutdownInLoop
    · rfl
  | handleClose =>
    cases h
    rfl
  | connectDestroyed =>
    obtain rfl : c.connectDestroyed.1 = c' := congrArg Prod.fst (Except.ok.inj h)
    unfold connectDestroyed Event.ops
    split_ifs <;> rfl

end TcpConnection

namespace ServerLoops

open TcpConnection Lifecycle

variable {L : Type*}

section Operations

variable [DecidableEq L]

/-- The calls in a step of the loops, each with the connection whose channel it is made on. -/
def State.operations (s : State L) : Act L → List (Op × ℕ)
  | .accept l _ sockfd localAddr peerAddr =>
    match s.server.newConnection sockfd localAddr peerAddr with
    -- `connectEstablished` runs at once if the base loop is given the connection
    | some (_, ioLoop, _) => if l = ioLoop then [(.enableReading, s.server.made.length)] else []
    | none => []
  | .handle l r w =>
    match (s.loops l).handling with
    | (conn, handler) :: _ =>
      match eventOf r w handler with
      | some e => (e.ops (s.conn conn)).map (·, conn)
      | none => []
    | [] => []
  | .call _ conn e => (e.ops (s.conn conn)).map (·, conn)
  | .functor _ f w =>
    match f with
    | .server (.connectEstablished conn) => [(.enableReading, conn)]
    | .server (.removeConnectionInLoop _) => []
    | .server (.connectDestroyed conn) =>
      (Event.connectDestroyed.ops (s.conn conn)).map (·, conn)
    | .connection conn (.sendInLoop message) =>
      ((s.conn conn).sendInLoopOps message w).map (·, conn)
    | .connection _ _ | .user => []
  | _ => []

/-- The calls that the thread of the loop `l` has made in a run. -/
def history (l : L) (tr : List (State L × Act L)) : List (Op × ℕ) :=
  tr.flatMap fun p => if p.2.loop = l then p.1.operations p.2 else []

end Operations

/-- What a step does to the channels: some calls on the channel of one connection, which is
referenced and on the loop that takes the step. -/
inductive Operates (s : State L) (l : L) (ops : List (Op × ℕ)) (s' : State L) : Prop
  | made {conn : ℕ} {own : List Op} (hops : ops = own.map (·, conn))
      (hmade : s'.server.made = s.server.made)
      (hother : ∀ i, i ≠ conn → (s'.conn i).channel = (s.conn i).channel)
      (hself : (s'.conn conn).channel =
        own.foldl (fun c op => op.onChannel c) (s.conn conn).channel)
      (hon : own ≠ [] → s.On conn l ∧ s.Held conn) : Operates s l ops s'
  /-- A new connection. -/
  | new {c : TcpServer.Connection L} {own : List Op}
      (hops : ops = own.map (·, s.server.made.length))
      (hmade : s'.server.made = s.server.made ++ [c])
      (hother : ∀ i, i ≠ s.server.made.length → (s'.conn i).channel = (s.conn i).channel)
      (hself : (s'.conn s.server.made.length).channel =
        own.foldl (fun c op => op.onChannel c) Channel.create)
      (hon : own ≠ [] → c.ioLoop = l) : Operates s l ops s'

section Operates

variable [DecidableEq L] {s s' : State L} {a : Act L} {l : L} {erased : Set ℕ} {conn : ℕ}

omit [DecidableEq L] in
/-- A step that changes no channel. -/
theorem Operates.nothing (hmade : s'.server.made = s.server.made)
    (hchannel : ∀ i, (s'.conn i).channel = (s.conn i).channel) : Operates s l [] s' :=
  @Operates.made _ _ _ _ _ 0 [] rfl hmade (fun i _ => hchannel i) (hchannel 0)
    fun h => absurd rfl h

/-- A function of a connection that is referenced. -/
theorem Operates.perform {s₀ : State L} {p : TcpConnection × List Effect} (own : List Op)
    (hmade : s₀.server.made = s.server.made) (hconn : s₀.conn = s.conn)
    (hchannel : p.1.channel = own.foldl (fun c op => op.onChannel c) (s.conn conn).channel)
    (hon : own ≠ [] → s.On conn l ∧ s.Held conn) :
    Operates s l (own.map (·, conn)) (s₀.perform l conn p) := by
  refine @Operates.made _ _ _ _ _ conn own rfl hmade (fun i hne => ?_) ?_ hon
  · rw [State.conn_perform, if_neg hne, hconn]
  · rw [State.conn_perform, if_pos rfl, hchannel]

/-- Only a call on a connected connection goes to a poller. -/
theorem FromProgram.connected_of_ops {c : TcpConnection} {e : Event} (he : FromProgram e)
    (hne : e.ops c ≠ []) : c.state = .kConnected := by
  cases e with
  | send | sendBuffer =>
    by_contra hstate
    exact hne (if_neg hstate)
  | shutdown => exact absurd rfl hne
  | _ => exact he.elim

/-- `newConnection` registers a connection of its own loop at once. -/
theorem operates_accept {lp : Loop} {writeCompleteCallback : Bool} {sockfd : ℤ}
    {localAddr peerAddr : InetAddress}
    (hs : (s.setLoop l lp).newConnection l writeCompleteCallback sockfd localAddr peerAddr =
      some s') :
    Operates s l (s.operations (.accept l writeCompleteCallback sockfd localAddr peerAddr)) s' := by
  unfold State.newConnection at hs
  split at hs
  · rename_i server ioLoop task hnew
    have hnew' : s.server.newConnection sockfd localAddr peerAddr =
      some (server, ioLoop, task) := hnew
    obtain ⟨-, -, -, -, -, hmade, -, rfl⟩ := TcpServer.newConnection_eq hnew'
    simp only [State.operations, hnew']
    unfold State.runInLoop at hs
    split_ifs at hs ⊢ with heq
    · cases hs
      refine @Operates.new _ _ _ _ _ _ [.enableReading] rfl hmade (fun i hne => ?_) ?_
        fun _ => heq.symm
      · rw [State.conn_perform]
        exact congrArg _ ((if_neg hne).trans (State.conn_setConn.trans (if_neg hne)))
      · rw [State.conn_perform, if_pos rfl]
        exact congrArg (fun c => c.connectEstablished.1.channel)
          (State.conn_setConn.trans (if_pos rfl))
    · cases hs
      refine @Operates.new _ _ _ _ _ _ [] rfl hmade (fun i hne => ?_) ?_ fun h => absurd rfl h
      · exact congrArg _ (State.conn_setConn.trans (if_neg hne))
      · exact congrArg _ (State.conn_setConn.trans (if_pos rfl))
  · cases hs

theorem Inv.operates_functor (hI : Inv erased s) {f : Functor} {functors : List Functor}
    {w : WriteResult} (hfunctors : (s.loops l).functors = f :: functors)
    (hs : (s.setLoop l { s.loops l with functor := some f, functors }).runFunctor l w f = some s') :
    Operates s l (s.operations (.functor l f w)) s' := by
  have hmem : f ∈ (s.loops l).queue := by simp [Loop.queue, hfunctors]
  have hallowed := (hI.loops l).queue _ hmem
  have hheld {conn : ℕ} (hholds : f.holds = some conn) : s.Held conn :=
    .inr ⟨l, f, List.mem_append_right _ hmem, hholds⟩
  cases f with
  | server task =>
    cases task with
    | connectEstablished conn =>
      cases hs
      exact .perform [.enableReading] rfl rfl rfl fun _ => ⟨hallowed.1, hheld rfl⟩
    | removeConnectionInLoop conn =>
      obtain ⟨c, -, rfl⟩ := State.removeConnectionInLoop_eq hs
      exact .nothing rfl fun _ => rfl
    | connectDestroyed conn =>
      cases hs
      exact .perform _ rfl rfl (foldl_ops (e := .connectDestroyed) trivial rfl)
        fun _ => ⟨hallowed.1, hheld rfl⟩
  | connection conn task =>
    cases task with
    | sendInLoop message => exact hallowed.elim
    | shutdownInLoop => exact hallowed.elim
    | writeComplete | highWaterMark _ | user =>
      cases hs
      exact .nothing rfl fun _ => rfl
  | user =>
    cases hs
    exact .nothing rfl fun _ => rfl

/-- **What a step does to the channels.** -/
theorem Inv.operates (hI : Inv erased s) (hst : (lts L).step s a s') :
    Operates s a.loop (s.operations a) s' := by
  cases hst with
  | poll | wakeup | acceptFails | handleEvent | callback | leave | queueUser | swap | finish
  | endFunctors => exact .nothing rfl fun _ => rfl
  | accept hidle hhandling hactive hs => exact operates_accept hs
  | handleError hidle hhandling he =>
    simp only [State.operations, hhandling, he]
    exact .nothing rfl fun _ => rfl
  | @handle l conn handler handling r w e s' hidle hhandling he hlegal hs =>
    obtain ⟨hon, hindex⟩ := (hI.loops l).dispatching conn (by simp [Loop.dispatching, hhandling])
    obtain ⟨p, hp, rfl⟩ := State.handle_eq hs
    simp only [State.operations, hhandling, he]
    exact .perform _ rfl rfl (foldl_ops hlegal hp) fun _ => ⟨hon, hI.held hon hindex⟩
  | @closeCallback l conn calls s' hcallback hcalls hs =>
    unfold State.removeConnection State.runInLoop at hs
    split_ifs at hs
    · obtain ⟨c, -, rfl⟩ := State.removeConnectionInLoop_eq hs
      exact .nothing rfl fun _ => rfl
    · cases hs
      exact .nothing rfl fun _ => rfl
  | call hcallback hon he hlegal hs =>
    obtain ⟨p, hp, rfl⟩ := State.handle_eq hs
    refine .perform _ rfl rfl (foldl_ops hlegal hp) fun hne => ⟨hon, hI.held hon ?_⟩
    exact (hI.consistent _).connected (he.connected_of_ops hne)
  | setCallbacks hcallback hon =>
    refine .nothing rfl fun i => ?_
    rw [State.conn_setConn]
    split_ifs with heq
    · rw [heq]
    · rfl
  | functor hphase hfunctor hfunctors hs => exact hI.operates_functor hfunctors hs

end Operates

end ServerLoops

end TinyNetwork
