import TinyNetwork.Net.ServerLoops

/-!
# No event for a dead connection

The channel of a connection is in the poller from `connectEstablished` to `connectDestroyed`.  In
between the connection is kept alive by its entry in `connections_` or, once the entry has been
erased, by the `connectDestroyed` that is queued on its loop.  As this one is queued and never run
at once, it does not run while the loop dispatches.

## Main results

* `Inv` : what holds in all reachable states.
* `dispatch_alive` : a connection whose channel may be dispatched has a strong reference, and
  `connectDestroyed` only runs in the batch of its loop.
-/

namespace TinyNetwork

namespace Channel

variable {c : Channel}

theorem index_update_ne : c.update.index ≠ .kNew := by
  unfold update
  split
  · simp
  · simp
  · rename_i hindex
    split_ifs
    · simp
    · simp [hindex]

/-- The kernel holds a mask only for an added channel. -/
def Tracked (c : Channel) : Prop := c.index ≠ .kAdded → c.interest = none

theorem tracked_update : c.update.Tracked := by
  intro hindex
  unfold update at hindex ⊢
  split at hindex
  · exact absurd rfl hindex
  · exact absurd rfl hindex
  · rename_i hadded
    split_ifs at hindex ⊢
    · rfl
    · exact absurd hadded hindex

theorem Tracked.remove (h : c.Tracked) : c.remove.Tracked := by
  intro _
  simp only [Channel.remove]
  split_ifs with hadded
  · rfl
  · exact h hadded

end Channel

namespace ServerLoops

open TcpConnection Lifecycle
open Shared (Notifies notifies_handle notifies_handleWriteData)

/-! ### The functions of a connection -/

/-- What is said of a connection at any time: its channel is in the poller while it is connected,
and not before. -/
structure Consistent (c : TcpConnection) : Prop where
  connecting : c.state = .kConnecting → c.channel.index = .kNew
  connected : c.state = .kConnected → c.channel.index ≠ .kNew
  disconnecting : c.state = .kDisconnecting → c.channel.index ≠ .kNew
  tracked : c.channel.Tracked

/-- The functions between `connectEstablished` and `connectDestroyed` leave the channel in the
poller or out of it, and never undo a close. -/
structure Follows (c c' : TcpConnection) : Prop where
  connecting : c'.state = .kConnecting ↔ c.state = .kConnecting
  disconnected : c.state = .kDisconnected → c'.state = .kDisconnected
  index : c'.channel.index = .kNew ↔ c.channel.index = .kNew
  tracked : c.channel.Tracked → c'.channel.Tracked

/-- These functions queue callbacks of the program, and call `closeCallback_` on a closed
connection only. -/
structure Harmless (c' : TcpConnection) (effects : List Effect) : Prop where
  queue : Notifies effects
  close : .closeCallback ∈ effects → c'.state = .kDisconnected

section

variable {c c' : TcpConnection} {effects : List Effect} {data : List UInt8} {w : WriteResult}
  {r : ReadResult} {e : Event} {handler : Handler}

theorem Follows.refl : Follows c c := ⟨.rfl, id, .rfl, id⟩

theorem Follows.of_eq (hstate : c'.state = c.state) (hchannel : c'.channel = c.channel) :
    Follows c c' :=
  ⟨by rw [hstate], fun h => hstate.trans h, by rw [hchannel], fun h => hchannel ▸ h⟩

theorem Follows.of_update {channel : Channel} (hstate : c'.state = c.state)
    (hchannel : c'.channel = channel.update) (h : c.channel.index ≠ .kNew) : Follows c c' := by
  refine ⟨by rw [hstate], fun hd => hstate.trans hd, ?_, fun _ => ?_⟩
  · exact iff_of_false (hchannel ▸ Channel.index_update_ne) h
  · exact hchannel ▸ Channel.tracked_update

theorem Follows.consistent (h : Follows c c') (hc : Consistent c) : Consistent c' := by
  -- a state between the connect and the close was one before
  have hup (hne : c'.state ≠ .kConnecting) (hne' : c'.state ≠ .kDisconnected) :
      c'.channel.index ≠ .kNew := by
    rw [Ne, h.index]
    cases hstate : c.state with
    | kDisconnected => exact absurd (h.disconnected hstate) hne'
    | kConnecting => exact absurd (h.connecting.2 hstate) hne
    | kConnected => exact hc.connected hstate
    | kDisconnecting => exact hc.disconnecting hstate
  refine ⟨fun hs => h.index.2 (hc.connecting (h.connecting.1 hs)), fun hs => ?_, fun hs => ?_,
    h.tracked hc.tracked⟩
  · exact hup (by simp [hs]) (by simp [hs])
  · exact hup (by simp [hs]) (by simp [hs])

theorem harmless_nil : Harmless c [] := ⟨Shared.notifies_nil, by simp⟩

theorem Harmless.of_notMem (hqueue : Notifies effects) (hclose : .closeCallback ∉ effects) :
    Harmless c effects := ⟨hqueue, fun h => absurd h hclose⟩

theorem closeCallback_notMem_writeFirst : .closeCallback ∉ (c.writeFirst data w).2.2.2 := by
  unfold writeFirst
  split_ifs
  · cases w with
    | accepted n =>
      simp only
      split_ifs <;> simp
    | error e => simp
  · simp

theorem closeCallback_notMem_send (h : c.send data w = .ok (c', effects)) :
    .closeCallback ∉ effects := by
  unfold send at h
  split_ifs at h with hstate
  · rw [sendInLoop_eq, if_neg (by simp [hstate])] at h
    simp only [sendInLoopRest] at h
    split_ifs at h
    · obtain ⟨⟨c₂, effects₂⟩, hbuf, heq⟩ := bind_eq_ok.1 h
      obtain ⟨outputBuffer, -, heq₂⟩ := bind_eq_ok.1 hbuf
      cases heq
      cases heq₂
      rw [List.mem_append, not_or]
      refine ⟨closeCallback_notMem_writeFirst, ?_⟩
      unfold warnOfRest
      split_ifs <;> simp
    · cases h
      exact closeCallback_notMem_writeFirst
  · cases h
    simp

theorem closeCallback_notMem_handleWriteData : .closeCallback ∉ (c.handleWriteData w).2.1 := by
  unfold handleWriteData
  split
  · simp only
    split
    · split
      · split_ifs <;> simp
      · simp
    · simp
  · simp

/-- `send` at most enables writing, on a connection that is in the poller. -/
theorem follows_send (hc : Consistent c) (h : c.send data w = .ok (c', effects)) :
    Follows c c' := by
  unfold send at h
  split_ifs at h with hstate
  · rw [sendInLoop_eq, if_neg (by simp [hstate])] at h
    obtain ⟨hs, hchannel | hchannel⟩ := sendInLoopRest_eq_ok h
    · exact .of_eq hs hchannel
    · exact .of_update hs hchannel (hc.connected hstate)
  · cases h
    exact .refl

/-- A call of the program. -/
theorem FromProgram.follows (he : FromProgram e) (hlegal : e.Legal c) (hc : Consistent c)
    (h : c.handle e = .ok (c', effects)) : Follows c c' ∧ Harmless c' effects := by
  cases e with
  | send buf w =>
    exact ⟨follows_send hc h, .of_notMem (Shared.notifies_send h) (closeCallback_notMem_send h)⟩
  | sendBuffer buf w =>
    obtain ⟨⟨c₁, effects₁, buf'⟩, hsend, heq⟩ := bind_eq_ok.1 h
    cases heq
    have hsend := sendBuffer_eq_ok hlegal.1 hsend
    exact ⟨follows_send hc hsend,
      .of_notMem (Shared.notifies_send hsend) (closeCallback_notMem_send hsend)⟩
  | shutdown =>
    cases h
    refine ⟨?_, harmless_nil⟩
    unfold shutdown
    split_ifs with hstate
    · refine ⟨?_, ?_, ?_, ?_⟩
      · simp [hstate]
      · simp [hstate]
      · simp [setState]
      · simp [setState]
    · exact .refl
  | _ => exact he.elim

/-- `handleClose` on a connection that is in the poller. -/
theorem follows_handleClose (hc : Consistent c) (h : c.channel.index ≠ .kNew) :
    Follows c c.handleClose.1 ∧ Harmless c.handleClose.1 c.handleClose.2 := by
  refine ⟨⟨?_, fun _ => rfl, ?_, ?_⟩, ?_, fun _ => rfl⟩
  · exact iff_of_false (by simp [handleClose, setState]) fun hs => h (hc.connecting hs)
  · exact iff_of_false Channel.index_update_ne h
  · exact fun _ => Channel.tracked_update
  · intro task hmem
    simp [handleClose] at hmem

/-- A callback of a channel that is in the poller. -/
theorem follows_event (he : eventOf r w handler = some e) (hc : Consistent c)
    (hindex : c.channel.index ≠ .kNew) (h : c.handle e = .ok (c', effects)) :
    Follows c c' ∧ Harmless c' effects := by
  cases handler with
  | error => cases he
  | close =>
    cases he
    cases h
    exact follows_handleClose hc hindex
  | read =>
    cases he
    obtain ⟨⟨n, errno, inputBuffer⟩, -, h⟩ := bind_eq_ok.1 h
    simp only at h
    split_ifs at h
    · cases h
      exact ⟨.of_eq rfl rfl, .of_notMem (by intro task hmem; simp at hmem) (by simp)⟩
    · cases h
      -- the peer has closed its side
      obtain ⟨hclose, hharmless⟩ := follows_handleClose (c := { c with inputBuffer })
        ⟨hc.connecting, hc.connected, hc.disconnecting, hc.tracked⟩ hindex
      exact ⟨⟨hclose.connecting, hclose.disconnected, hclose.index, hclose.tracked⟩, hharmless⟩
    · cases h
      exact ⟨.of_eq rfl rfl, harmless_nil⟩
  | write =>
    cases he
    have hdata : Follows c (c.handleWriteData w).1 := by
      rcases channel_handleWriteData (c := c) (w := w) with hchannel | hchannel
      · exact .of_eq state_handleWriteData hchannel
      · exact .of_update state_handleWriteData hchannel hindex
    have hharmless (c' : TcpConnection) : Harmless c' (c.handleWriteData w).2.1 :=
      .of_notMem notifies_handleWriteData closeCallback_notMem_handleWriteData
    simp only [TcpConnection.handle, handleWrite, Except.ok.injEq] at h
    split_ifs at h
    · cases h
      -- the last write of a shutdown
      refine ⟨⟨?_, ?_, ?_, ?_⟩, hharmless _⟩
      · simp
      · simp
      · simpa using hdata.index
      · simpa using hdata.tracked
    · cases h
      exact ⟨hdata, hharmless _⟩

theorem consistent_connectEstablished : Consistent c.connectEstablished.1 where
  connecting := nofun
  connected _ := Channel.index_update_ne
  disconnecting := nofun
  tracked := Channel.tracked_update

theorem harmless_connectEstablished (c' : TcpConnection) :
    Harmless c' c.connectEstablished.2 := by
  refine .of_notMem (fun task hmem => ?_) ?_
  · simp [connectEstablished] at hmem
  · simp [connectEstablished]

/-- `connectDestroyed` of a closed connection only takes the channel out of the poller. -/
theorem connectDestroyed_of_closed (hstate : c.state = .kDisconnected) :
    c.connectDestroyed = ({ c with channel := c.channel.remove }, []) := by
  simp [connectDestroyed, hstate]

theorem consistent_remove (hstate : c.state = .kDisconnected) (hc : Consistent c) :
    Consistent { c with channel := c.channel.remove } where
  connecting _ := rfl
  connected h := by simp [hstate] at h
  disconnecting h := by simp [hstate] at h
  tracked := hc.tracked.remove

theorem consistent_create {writeCompleteCallback : Bool} :
    Consistent { TcpConnection.create with writeCompleteCallback } where
  connecting _ := rfl
  connected := nofun
  disconnecting := nofun
  tracked _ := rfl

end

/-! ### The invariant -/

/-- The connection of a channel. -/
def Active.conn : Active → Option ℕ
  | .connection conn _ => some conn
  | _ => none

/-- The connections whose channels are still to be dispatched, or are being dispatched. -/
def Loop.dispatching (lp : Loop) : List ℕ :=
  lp.activeChannels.filterMap Active.conn ++ lp.handling.map Prod.fst

variable {L : Type*}

/-- The connection has been made, and `handleClose` has run on it. -/
def State.Closed (s : State L) (conn : ℕ) : Prop :=
  conn < s.server.made.length ∧ (s.conn conn).state = .kDisconnected

/-- What the queue of the loop `l` may hold: a connection is established once, before anything else
happens to it, and is destroyed behind its close, both on its own loop. -/
def State.Allowed (s : State L) (l : L) : Functor → Prop
  | .server (.connectEstablished conn) => s.On conn l ∧ (s.conn conn).state = .kConnecting
  | .server (.removeConnectionInLoop conn) => s.Closed conn
  | .server (.connectDestroyed conn) => s.On conn l ∧ s.Closed conn
  | .connection _ task => Shared.Task.Foreign task
  | .user => True

/-- What holds of every loop `l`. -/
structure LoopInv (s : State L) (l : L) (lp : Loop) : Prop where
  queue : ∀ f ∈ lp.queue, s.Allowed l f
  once : ∀ conn, lp.queue.count (.server (.connectEstablished conn)) ≤ 1
  calls : ∀ conn, (conn, .closeCallback) ∈ lp.calls → s.Closed conn
  dispatching : ∀ conn ∈ lp.dispatching, s.On conn l ∧ (s.conn conn).channel.index ≠ .kNew
  idle : lp.phase ≠ .dispatching → lp.activeChannels = [] ∧ lp.handling = []
  batch : lp.phase ≠ .functors → lp.functors = []

/-- What holds in every reachable state.  The connections in `erased` have lost their entry in
`connections_`; they are out of the poller, or the functor that takes them out is queued. -/
structure Inv (erased : Set ℕ) (s : State L) : Prop where
  table : TcpServer.Table erased s.server
  consistent : ∀ conn, Consistent (s.conn conn)
  loops : ∀ l, LoopInv s l (s.loops l)
  erased : ∀ conn ∈ erased, (s.conn conn).state = .kDisconnected ∧
    ((s.conn conn).channel.index = .kNew ∨
      ∃ l, .server (.connectDestroyed conn) ∈ (s.loops l).queue)

section Basic

variable {s s' : State L} {l l' : L} {lp lp' : Loop} {conn : ℕ} {erased : Set ℕ}

theorem State.On.lt (h : s.On conn l) : conn < s.server.made.length := by
  obtain ⟨c, hc, -⟩ := h
  exact (List.getElem?_eq_some_iff.1 hc).1

theorem State.On.unique (h : s.On conn l) (h' : s.On conn l') : l = l' := by
  obtain ⟨c, hc, rfl⟩ := h
  obtain ⟨c', hc', rfl⟩ := h'
  rw [Option.some.inj (hc.symm.trans hc')]

/-- A change of the connections that undoes no close, establishes none whose `connectEstablished`
is queued, and takes none out of the poller that is to be dispatched. -/
theorem LoopInv.mono (h : LoopInv s l lp) (hon : ∀ conn, s.On conn l → s'.On conn l)
    (hlen : s.server.made.length ≤ s'.server.made.length)
    (hconnecting : ∀ conn, .server (.connectEstablished conn) ∈ lp.queue →
      (s'.conn conn).state = .kConnecting)
    (hclosed : ∀ conn, s.Closed conn → (s'.conn conn).state = .kDisconnected)
    (hindex : ∀ conn ∈ lp.dispatching, (s'.conn conn).channel.index ≠ .kNew) :
    LoopInv s' l lp := by
  have hclosed' (conn : ℕ) (hc : s.Closed conn) : s'.Closed conn :=
    ⟨hc.1.trans_le hlen, hclosed conn hc⟩
  refine ⟨fun f hf => ?_, h.once, fun conn hcall => hclosed' conn (h.calls conn hcall),
    fun conn hmem => ⟨hon conn (h.dispatching conn hmem).1, hindex conn hmem⟩, h.idle, h.batch⟩
  have hallowed := h.queue f hf
  cases f with
  | server task =>
    cases task with
    | connectEstablished conn => exact ⟨hon conn hallowed.1, hconnecting conn hf⟩
    | removeConnectionInLoop conn => exact hclosed' conn hallowed
    | connectDestroyed conn => exact ⟨hon conn hallowed.1, hclosed' conn hallowed.2⟩
  | connection conn task => exact hallowed
  | user => trivial

theorem LoopInv.congr (h : LoopInv s l lp) (hserver : s'.server = s.server)
    (hconn : s'.conn = s.conn) : LoopInv s' l lp := by
  refine h.mono (fun conn => ?_) (by rw [hserver]) (fun conn hmem => ?_) (fun conn hc => ?_)
    fun conn hmem => ?_
  · simp only [State.On, hserver, imp_self]
  · rw [hconn]
    exact (h.queue _ hmem).2
  · rw [hconn]
    exact hc.2
  · rw [hconn]
    exact (h.dispatching conn hmem).2

/-- A loop that goes on, without new functors, calls and channels. -/
theorem LoopInv.shrink (h : LoopInv s l lp) (hqueue : lp'.queue.Sublist lp.queue)
    (hcalls : lp'.calls ⊆ lp.calls) (hdispatching : lp'.dispatching ⊆ lp.dispatching)
    (hidle : lp'.phase ≠ .dispatching → lp'.activeChannels = [] ∧ lp'.handling = [])
    (hbatch : lp'.phase ≠ .functors → lp'.functors = []) : LoopInv s l lp' where
  queue f hf := h.queue f (hqueue.subset hf)
  once conn := (hqueue.count_le _).trans (h.once conn)
  calls conn hmem := h.calls conn (hcalls hmem)
  dispatching conn hmem := h.dispatching conn (hdispatching hmem)
  idle := hidle
  batch := hbatch

theorem Loop.queue_push {fs : List Functor} {calls : List (ℕ × Effect)} :
    ({ lp with pendingFunctors := lp.pendingFunctors ++ fs, calls } : Loop).queue =
      lp.queue ++ fs := (List.append_assoc ..).symm

/-- A loop with more functors and other calls. -/
theorem LoopInv.push (h : LoopInv s l lp) {fs : List Functor} {calls : List (ℕ × Effect)}
    (hfs : ∀ f ∈ fs, s.Allowed l f)
    (honce : ∀ conn, (lp.queue ++ fs).count (.server (.connectEstablished conn)) ≤ 1)
    (hcalls : ∀ conn, (conn, .closeCallback) ∈ calls → s.Closed conn) :
    LoopInv s l { lp with pendingFunctors := lp.pendingFunctors ++ fs, calls } where
  queue f hf := by
    rw [Loop.queue_push, List.mem_append] at hf
    exact hf.elim (h.queue f) (hfs f)
  once conn := by
    rw [Loop.queue_push]
    exact honce conn
  calls := hcalls
  dispatching := h.dispatching
  idle := h.idle
  batch := h.batch

end Basic

/-! ### Changes of the state -/

section Changes

variable {s s' : State L} {l : L} {lp : Loop} {conn : ℕ} {c : TcpConnection} {erased : Set ℕ}

/-- A connection changes. -/
theorem Inv.setConn (h : Inv erased s) (hc : Consistent c)
    (hconnecting : ∀ l, .server (.connectEstablished conn) ∈ (s.loops l).queue →
      c.state = .kConnecting)
    (hclosed : s.Closed conn → c.state = .kDisconnected ∧
      ((s.conn conn).channel.index = .kNew → c.channel.index = .kNew))
    (hindex : ∀ l, conn ∈ (s.loops l).dispatching → c.channel.index ≠ .kNew) :
    Inv erased (s.setConn conn c) := by
  have hconn (i : ℕ) : (s.setConn conn c).conn i = if i = conn then c else s.conn i := by
    simp only [State.setConn, Function.update_apply]
  refine ⟨h.table, fun i => ?_, fun l => ?_, fun i hmem => ?_⟩
  · rw [hconn]
    split_ifs
    · exact hc
    · exact h.consistent i
  · have hl := h.loops l
    refine hl.mono (fun _ => id) le_rfl (fun i hqueue => ?_) (fun i hi => ?_) fun i hmem => ?_
    · rw [hconn]
      split_ifs with heq
      · exact hconnecting l (heq ▸ hqueue)
      · exact (hl.queue _ hqueue).2
    · rw [hconn]
      split_ifs with heq
      · exact (hclosed (heq ▸ hi)).1
      · exact hi.2
    · rw [hconn]
      split_ifs with heq
      · exact hindex l (heq ▸ hmem)
      · exact (hl.dispatching i hmem).2
  · obtain ⟨hstate, hgone⟩ := h.erased i hmem
    rw [hconn]
    split_ifs with heq
    · subst heq
      obtain ⟨hstate', hnew⟩ := hclosed ⟨h.table.removed_lt i hmem, hstate⟩
      exact ⟨hstate', hgone.imp_left hnew⟩
    · exact ⟨hstate, hgone⟩

/-- A connection runs one of its functions between `connectEstablished` and `connectDestroyed`. -/
theorem Inv.follows (h : Inv erased s) (hc : Follows (s.conn conn) c) :
    Inv erased (s.setConn conn c) := by
  refine h.setConn (hc.consistent (h.consistent conn)) (fun l hqueue => ?_) (fun hclosed => ?_)
    fun l hmem => ?_
  · exact hc.connecting.2 ((h.loops l).queue _ hqueue).2
  · exact ⟨hc.disconnected hclosed.2, hc.index.2⟩
  · exact fun hnew => ((h.loops l).dispatching conn hmem).2 (hc.index.1 hnew)

theorem count_queued {effects : List Effect} {task : TcpServer.Task} :
    (queued conn effects).count (.server task) = 0 := by
  rw [List.count_eq_zero]
  intro hmem
  obtain ⟨effect, -, heq⟩ := List.mem_filterMap.1 hmem
  cases effect <;> cases heq

/-- The server changes: connections are made, and entries are erased. -/
theorem Inv.setServer {server : TcpServer L} {erased' : Set ℕ} (h : Inv erased s)
    (htable : TcpServer.Table erased' server) (hmade : s.server.made <+: server.made)
    (herased : ∀ conn ∈ erased', conn ∈ erased ∨ (s.conn conn).state = .kDisconnected ∧
      ∃ l, .server (.connectDestroyed conn) ∈ (s.loops l).queue) :
    Inv erased' { s with server } := by
  refine ⟨htable, h.consistent, fun l => ?_, fun conn hmem => ?_⟩
  · have hl := h.loops l
    refine hl.mono ?_ hmade.length_le (fun conn hqueue => (hl.queue _ hqueue).2)
      (fun conn hclosed => hclosed.2) fun conn hmem => (hl.dispatching conn hmem).2
    rintro conn ⟨c, hc, hloop⟩
    obtain ⟨rest, hrest⟩ := hmade
    refine ⟨c, ?_, hloop⟩
    rw [← hrest, List.getElem?_append_left (List.getElem?_eq_some_iff.1 hc).1]
    exact hc
  · rcases herased conn hmem with hmem | ⟨hstate, hqueue⟩
    · exact h.erased conn hmem
    · exact ⟨hstate, .inr hqueue⟩

variable [DecidableEq L]

/-- A loop goes on; a `connectDestroyed` leaves its queue when it has run. -/
theorem Inv.setLoop (h : Inv erased s) (hlp : LoopInv s l lp)
    (hdestroy : ∀ conn, .server (.connectDestroyed conn) ∈ (s.loops l).queue →
      (s.conn conn).channel.index = .kNew ∨ .server (.connectDestroyed conn) ∈ lp.queue) :
    Inv erased (s.setLoop l lp) := by
  refine ⟨h.table, h.consistent, fun l' => ?_, fun conn hmem => ?_⟩
  · have hl' : LoopInv s l' (Function.update s.loops l lp l') := by
      rw [Function.update_apply]
      split_ifs with heq
      · exact heq ▸ hlp
      · exact h.loops l'
    exact hl'.congr rfl rfl
  · obtain ⟨hstate, hnew | ⟨l', hqueue⟩⟩ := h.erased conn hmem
    · exact ⟨hstate, .inl hnew⟩
    · refine ⟨hstate, ?_⟩
      by_cases heq : l' = l
      · subst heq
        refine (hdestroy conn hqueue).imp id fun hin => ⟨l', ?_⟩
        simpa [State.setLoop] using hin
      · exact .inr ⟨l', by simpa [State.setLoop, heq] using hqueue⟩

/-- A loop goes on with the same queue. -/
theorem Inv.setLoop_of_queue (h : Inv erased s) (hlp : LoopInv s l lp)
    (hqueue : lp.queue = (s.loops l).queue) : Inv erased (s.setLoop l lp) :=
  h.setLoop hlp fun _ hmem => .inr (hqueue ▸ hmem)

/-- What a function queues and what it has still to call. -/
theorem Inv.effects {p : TcpConnection × List Effect} (h : Inv erased (s.setConn conn p.1))
    (hlt : conn < s.server.made.length) (hp : Harmless p.1 p.2) :
    Inv erased (s.perform l conn p) := by
  have hl := h.loops l
  refine h.setLoop (hl.push (fun f hf => ?_) (fun i => ?_) fun i hcall => ?_) fun i hmem => .inr ?_
  · obtain ⟨effect, heffect, heq⟩ := List.mem_filterMap.1 hf
    cases effect with
    | queueInLoop task =>
      cases heq
      exact hp.queue task heffect
    | _ => cases heq
  · rw [List.count_append, count_queued]
    exact hl.once i
  · rcases List.mem_append.1 hcall with hcall | hcall
    · obtain ⟨effect, heffect, heq⟩ := List.mem_filterMap.1 hcall
      cases effect with
      | closeCallback =>
        cases heq
        refine ⟨hlt, ?_⟩
        simpa [State.setConn] using hp.close heffect
      | _ => cases heq
    · exact hl.calls i hcall
  · exact Loop.queue_push ▸ List.mem_append_left _ hmem

/-- A functor is queued. -/
theorem Inv.queueInLoop {f : Functor} (h : Inv erased s) (hf : s.Allowed l f)
    (honce : ∀ conn, f = .server (.connectEstablished conn) → f ∉ (s.loops l).queue) :
    Inv erased (s.queueInLoop l f) := by
  have hl := h.loops l
  refine h.setLoop (hl.push (fun f' hf' => List.mem_singleton.1 hf' ▸ hf) (fun conn => ?_) hl.calls)
    fun i hmem => .inr (Loop.queue_push ▸ List.mem_append_left _ hmem)
  rw [List.count_append, List.count_singleton]
  split_ifs with heq
  · have heq := beq_iff_eq.1 heq
    rw [← heq, List.count_eq_zero.2 (honce conn heq)]
  · exact hl.once conn

/-- An event of a connection on the loop `l`. -/
theorem Inv.handle {e : Event} (h : Inv erased s) (hlt : conn < s.server.made.length)
    (he : ∀ c effects, (s.conn conn).handle e = .ok (c, effects) →
      Follows (s.conn conn) c ∧ Harmless c effects)
    (hs : s.handle l conn e = some s') : Inv erased s' := by
  unfold State.handle at hs
  split at hs
  · rename_i p hp
    cases hs
    obtain ⟨hfollows, hharmless⟩ := he p.1 p.2 hp
    exact (h.follows hfollows).effects hlt hharmless
  · cases hs

/-- `connectEstablished`, when none is queued any more. -/
theorem Inv.connectEstablished (h : Inv erased s) (hlt : conn < s.server.made.length)
    (hstate : (s.conn conn).state = .kConnecting)
    (hnone : ∀ l, .server (.connectEstablished conn) ∉ (s.loops l).queue) :
    Inv erased (s.perform l conn (s.conn conn).connectEstablished) := by
  refine Inv.effects ?_ hlt (harmless_connectEstablished _)
  refine h.setConn consistent_connectEstablished (fun l hqueue => absurd hqueue (hnone l))
    (fun hclosed => ?_) fun l hmem => Channel.index_update_ne
  rw [hclosed.2] at hstate
  cases hstate

/-- `removeConnectionInLoop` of a closed connection. -/
theorem Inv.removeConnectionInLoop (h : Inv erased s) (hclosed : s.Closed conn)
    (hs : s.removeConnectionInLoop conn = some s') : Inv (insert conn erased) s' := by
  unfold State.removeConnectionInLoop at hs
  split at hs
  · rename_i server ioLoop task hremove
    cases hs
    have htable := h.table.removeConnectionInLoop hremove
    obtain ⟨c, hc, rfl, rfl, rfl⟩ := TcpServer.removeConnectionInLoop_eq hremove
    -- the functor is queued on the state with the old table
    have hqueue : Inv erased (s.queueInLoop c.ioLoop (.server (.connectDestroyed conn))) :=
      h.queueInLoop ⟨⟨c, hc, rfl⟩, hclosed⟩ nofun
    refine hqueue.setServer htable List.prefix_rfl fun i hmem => ?_
    refine (Set.mem_insert_iff.1 hmem).symm.imp id ?_
    rintro rfl
    refine ⟨hclosed.2, c.ioLoop, ?_⟩
    simp [State.queueInLoop, State.setLoop, Loop.queue]
  · cases hs

/-- `removeConnection` of a closed connection. -/
theorem Inv.removeConnection (h : Inv erased s) (hclosed : s.Closed conn)
    (hs : s.removeConnection l conn = some s') : ∃ erased', Inv erased' s' := by
  unfold State.removeConnection State.runInLoop at hs
  split_ifs at hs
  · exact ⟨_, h.removeConnectionInLoop hclosed hs⟩
  · cases hs
    exact ⟨_, h.queueInLoop hclosed nofun⟩

/-- `newConnection`: the connection enters the table, and is established on its loop. -/
theorem Inv.newConnection {writeCompleteCallback : Bool} {sockfd : ℤ}
    {localAddr peerAddr : InetAddress} (h : Inv erased s)
    (hs : s.newConnection l writeCompleteCallback sockfd localAddr peerAddr = some s') :
    Inv erased s' := by
  unfold State.newConnection at hs
  split at hs
  · rename_i server ioLoop task hnew
    have htable := h.table.newConnection hnew
    obtain ⟨-, -, -, -, -, hmade, -, rfl⟩ := TcpServer.newConnection_eq hnew
    set conn := s.server.made.length
    -- nothing is known of the new connection yet
    have hunmade (l : L) : ¬ s.On conn l := fun hon => lt_irrefl _ hon.lt
    have hnone (l : L) : .server (.connectEstablished conn) ∉ (s.loops l).queue :=
      fun hmem => hunmade l ((h.loops l).queue _ hmem).1
    have hfresh : Inv erased
        (s.setConn conn { TcpConnection.create with writeCompleteCallback }) := by
      refine h.setConn consistent_create (fun l hmem => absurd hmem (hnone l))
        (fun hclosed => absurd hclosed.1 (lt_irrefl _)) fun l hmem => ?_
      exact absurd ((h.loops l).dispatching _ hmem).1 (hunmade l)
    have hserver := hfresh.setServer htable ⟨_, hmade.symm⟩ fun _ hmem => .inl hmem
    have hget : server.made[conn]? =
        some ⟨ioLoop, s.server.connName, sockfd, localAddr, peerAddr⟩ := by
      rw [hmade, List.getElem?_append_right le_rfl, Nat.sub_self]
      rfl
    have hon : ∃ c, server.made[conn]? = some c ∧ c.ioLoop = ioLoop := ⟨_, hget, rfl⟩
    have hstate : (Function.update s.conn conn
        { TcpConnection.create with writeCompleteCallback } conn).state = .kConnecting := by
      rw [Function.update_self]
      rfl
    unfold State.runInLoop at hs
    split_ifs at hs
    · cases hs
      exact hserver.connectEstablished (State.On.lt hon) hstate hnone
    · cases hs
      refine hserver.queueInLoop ⟨hon, hstate⟩ fun i heq => ?_
      exact hnone ioLoop
  · cases hs

/-- The thread goes on inside a handler or a functor. -/
theorem Inv.inside {calls : List (ℕ × Effect)} {inCallback : Bool} {functor : Option Functor}
    (h : Inv erased s) (hcalls : calls ⊆ (s.loops l).calls) :
    Inv erased (s.setLoop l { s.loops l with calls, inCallback, functor }) := by
  have hl := h.loops l
  exact h.setLoop_of_queue (hl.shrink (.refl _) hcalls (fun _ => id) hl.idle hl.batch) rfl

end Changes

/-! ### Steps -/

section Steps

variable [DecidableEq L] {s s' : State L} {l : L} {lp : Loop} {conn : ℕ} {a : Act L}
  {f : Functor} {functors : List Functor} {w : WriteResult} {erased : Set ℕ}

/-- A functor that is no `connectDestroyed` leaves the batch. -/
theorem Inv.start (h : Inv erased s) (hphase : (s.loops l).phase = .functors)
    (hfunctors : (s.loops l).functors = f :: functors)
    (hf : ∀ conn, f ≠ .server (.connectDestroyed conn)) :
    Inv erased (s.setLoop l { s.loops l with functor := some f, functors }) := by
  have hl := h.loops l
  have hqueue : (s.loops l).queue = f :: (functors ++ (s.loops l).pendingFunctors) := by
    rw [Loop.queue, hfunctors]
    rfl
  refine h.setLoop (hl.shrink ?_ (fun _ => id) (fun _ => id) hl.idle fun hne => absurd hphase hne)
    fun conn hmem => .inr ?_
  · rw [hqueue]
    exact List.sublist_cons_self ..
  · rw [hqueue] at hmem
    exact (List.mem_cons.1 hmem).resolve_left fun heq => hf conn heq.symm

/-- `connectEstablished`, which is queued once, leaves the batch and runs. -/
theorem Inv.runEstablished (h : Inv erased s) (hphase : (s.loops l).phase = .functors)
    (hfunctors : (s.loops l).functors = .server (.connectEstablished conn) :: functors) :
    Inv erased ((s.setLoop l { s.loops l with
      functor := some (.server (.connectEstablished conn)), functors }).perform l conn
        (s.conn conn).connectEstablished) := by
  have hl := h.loops l
  have hmem : .server (.connectEstablished conn) ∈ (s.loops l).queue := by
    simp [Loop.queue, hfunctors]
  obtain ⟨hon, hstate⟩ := hl.queue _ hmem
  refine (h.start hphase hfunctors nofun).connectEstablished hon.lt hstate fun l' hmem' => ?_
  by_cases heq : l' = l
  · -- on its own loop it was queued once, and that one is running
    subst heq
    have honce := hl.once conn
    rw [Loop.queue, hfunctors, List.cons_append, List.count_cons_self] at honce
    have hpos := List.count_pos_iff.2 hmem'
    simp only [State.setLoop, Function.update_self, Loop.queue] at hpos
    omega
  · -- and it is queued on no other loop
    have hmem' : .server (.connectEstablished conn) ∈ (s.loops l').queue := by
      simpa [State.setLoop, heq] using hmem'
    exact heq (((h.loops l').queue _ hmem').1.unique hon)

/-- `connectDestroyed` leaves the batch and runs.  Its loop dispatches nothing meanwhile. -/
theorem Inv.runDestroyed (h : Inv erased s) (hphase : (s.loops l).phase = .functors)
    (hfunctors : (s.loops l).functors = .server (.connectDestroyed conn) :: functors) :
    Inv erased ((s.setLoop l { s.loops l with
      functor := some (.server (.connectDestroyed conn)), functors }).perform l conn
        (s.conn conn).connectDestroyed) := by
  have hl := h.loops l
  have hqueue : (s.loops l).queue =
      .server (.connectDestroyed conn) :: (functors ++ (s.loops l).pendingFunctors) := by
    rw [Loop.queue, hfunctors]
    rfl
  -- the connection has been closed, so there is no callback in `connectDestroyed`
  obtain ⟨hon, hclosed⟩ := hl.queue (.server (.connectDestroyed conn)) (by simp [hqueue])
  rw [connectDestroyed_of_closed hclosed.2]
  have hconn : Inv erased (s.setConn conn
      { s.conn conn with channel := (s.conn conn).channel.remove }) := by
    refine h.setConn (consistent_remove hclosed.2 (h.consistent conn)) (fun l' hmem => ?_)
      (fun _ => ⟨hclosed.2, fun _ => rfl⟩) fun l' hmem => ?_
    · have hstate := ((h.loops l').queue _ hmem).2
      rw [hclosed.2] at hstate
      cases hstate
    · -- only its own loop could dispatch it, and that one runs its batch
      obtain rfl := ((h.loops l').dispatching conn hmem).1.unique hon
      obtain ⟨hactive, hhandling⟩ := hl.idle (by simp [hphase])
      simp [Loop.dispatching, hactive, hhandling] at hmem
  have hl' := hconn.loops l
  refine Inv.effects (s := s.setLoop l _) (hconn.setLoop (hl'.shrink ?_ (fun _ => id) (fun _ => id)
    hl'.idle fun hne => absurd hphase hne) fun i hmem => ?_) hclosed.1 harmless_nil
  · exact hqueue ▸ List.sublist_cons_self ..
  · by_cases heq : i = conn
    · subst heq
      left
      simp [State.setConn, Channel.remove]
    · right
      have hmem' : .server (.connectDestroyed i) ∈ (s.loops l).queue := hmem
      rw [hqueue, List.mem_cons] at hmem'
      exact hmem'.resolve_left (by simpa using heq)

/-- The functors of a batch. -/
theorem Inv.runFunctor (h : Inv erased s) (hphase : (s.loops l).phase = .functors)
    (hfunctors : (s.loops l).functors = f :: functors)
    (hs : (s.setLoop l { s.loops l with functor := some f, functors }).runFunctor l w f =
      some s') : ∃ erased', Inv erased' s' := by
  have hallowed := (h.loops l).queue f (by simp [Loop.queue, hfunctors])
  have henter {s : State L} (h : Inv erased s) : Inv erased (s.enterCallback l) :=
    h.inside fun _ => id
  cases f with
  | server task =>
    cases task with
    | connectEstablished conn =>
      cases hs
      exact ⟨_, h.runEstablished hphase hfunctors⟩
    | removeConnectionInLoop conn =>
      exact ⟨_, (h.start hphase hfunctors nofun).removeConnectionInLoop hallowed hs⟩
    | connectDestroyed conn =>
      cases hs
      have hI := h.runDestroyed hphase hfunctors
      exact ⟨_, hI.table, hI.consistent, fun l => (hI.loops l).congr rfl rfl, hI.erased⟩
  | connection conn task =>
    cases task with
    | sendInLoop message => exact hallowed.elim
    | shutdownInLoop => exact hallowed.elim
    | writeComplete | highWaterMark _ | user =>
      cases hs
      exact ⟨_, henter (h.start hphase hfunctors nofun)⟩
  | user =>
    cases hs
    exact ⟨_, henter (h.start hphase hfunctors nofun)⟩

/-- A channel that the loop is done with. -/
theorem Inv.next {active : List Active} {x : Active} (h : Inv erased s)
    (hactive : (s.loops l).activeChannels = x :: active) :
    Inv erased (s.setLoop l { s.loops l with activeChannels := active }) := by
  have hl := h.loops l
  refine h.setLoop_of_queue (hl.shrink (.refl _) (fun _ => id) (fun i => ?_) (fun hphase => ?_)
    hl.batch) rfl
  · simp only [Loop.dispatching, hactive, List.mem_append]
    refine Or.imp_left fun hmem => ?_
    exact ((List.sublist_cons_self x active).filterMap _).subset hmem
  · have hnil := (hl.idle hphase).1
    rw [hactive] at hnil
    cases hnil

/-- A callback of the channel leaves what is to be handled. -/
theorem Inv.handling {handler : Handler} {handling : List (ℕ × Handler)} (h : Inv erased s)
    (hhandling : (s.loops l).handling = (conn, handler) :: handling) :
    Inv erased (s.setLoop l { s.loops l with handling }) := by
  have hl := h.loops l
  refine h.setLoop_of_queue (hl.shrink (.refl _) (fun _ => id) (fun i => ?_) (fun hphase => ?_)
    hl.batch) rfl
  · simp only [Loop.dispatching, hhandling, List.mem_append, List.map_cons]
    exact Or.imp_right (List.mem_cons_of_mem _)
  · have hnil := (hl.idle hphase).2
    rw [hhandling] at hnil
    cases hnil

/-- `poll` reports channels that are in the poller. -/
theorem Inv.poll {active : List Active} (h : Inv erased s) (hphase : (s.loops l).phase = .polling)
    (hactive : ∀ x ∈ active, s.Reported l x) :
    Inv erased
      (s.setLoop l { s.loops l with phase := .dispatching, activeChannels := active }) := by
  have hl := h.loops l
  obtain ⟨-, hhandling⟩ := hl.idle (by simp [hphase])
  refine h.setLoop_of_queue ⟨hl.queue, hl.once, hl.calls, fun conn hmem => ?_,
    fun hne => absurd rfl hne, fun _ => hl.batch (by simp [hphase])⟩ rfl
  simp only [Loop.dispatching, hhandling, List.map_nil, List.append_nil,
    List.mem_filterMap] at hmem
  obtain ⟨x, hx, heq⟩ := hmem
  have hreported := hactive x hx
  cases x with
  | connection conn' revents =>
    cases heq
    refine ⟨hreported.1, fun hnew => ?_⟩
    have hnone := (h.consistent conn).tracked (by simp [hnew])
    have hsome := hreported.2
    rw [hnone] at hsome
    cases hsome
  | _ => cases heq

/-- `handleEvent` calls the callbacks of the channel on the connection that is taken out. -/
theorem Inv.handleEvent {active : List Active} {revents : BitVec 32} {guard : Bool}
    (h : Inv erased s) (hactive : (s.loops l).activeChannels = .connection conn revents :: active) :
    Inv erased (s.setLoop l { s.loops l with
      activeChannels := active
      handling := if guard then (handlers revents).map (conn, ·) else [] }) := by
  have hl := h.loops l
  have hconn : (Active.connection conn revents).conn = some conn := rfl
  have hfst : ∀ x ∈ if guard then (handlers revents).map (conn, ·) else [], x.1 = conn := by
    intro x hx
    split_ifs at hx
    · obtain ⟨handler, -, rfl⟩ := List.mem_map.1 hx
      rfl
    · cases hx
  refine h.setLoop_of_queue (hl.shrink (.refl _) (fun _ => id) (fun i hmem => ?_)
    (fun hphase => ?_) hl.batch) rfl
  · rw [Loop.dispatching, hactive, List.filterMap_cons_some hconn]
    refine List.mem_append_left _ (List.mem_cons.2 ?_)
    refine (List.mem_append.1 hmem).symm.imp (fun hmem => ?_) id
    obtain ⟨x, hx, rfl⟩ := List.mem_map.1 hmem
    exact hfst x hx
  · have hnil := (hl.idle hphase).1
    rw [hactive] at hnil
    cases hnil

/-- The batch is taken from the queue when all channels have been dispatched. -/
theorem Inv.swap (h : Inv erased s) (hphase : (s.loops l).phase = .dispatching)
    (hhandling : (s.loops l).handling = []) (hactive : (s.loops l).activeChannels = []) :
    Inv erased (s.setLoop l { s.loops l with
      phase := .functors
      functors := (s.loops l).pendingFunctors
      pendingFunctors := [] }) := by
  have hl := h.loops l
  have hqueue : (s.loops l).queue = (s.loops l).pendingFunctors ++ [] := by
    rw [Loop.queue, hl.batch (by simp [hphase]), List.nil_append, List.append_nil]
  refine h.setLoop_of_queue (hl.shrink ?_ (fun _ => id) (fun _ => id)
    (fun _ => ⟨hactive, hhandling⟩) fun hne => absurd rfl hne) hqueue.symm
  exact hqueue ▸ .refl _

/-- **A step** keeps the invariant. -/
theorem Inv.step (h : Inv erased s) (hst : (lts L).step s a s') : ∃ erased', Inv erased' s' := by
  cases hst with
  | poll hphase hactive => exact ⟨_, h.poll hphase hactive⟩
  | wakeup _ _ hactive | acceptFails _ _ hactive => exact ⟨_, h.next hactive⟩
  | accept _ _ hactive hs => exact ⟨_, (h.next hactive).newConnection hs⟩
  | handleEvent _ _ hactive => exact ⟨_, h.handleEvent hactive⟩
  | handleError _ hhandling => exact ⟨_, h.handling hhandling⟩
  | @handle l conn handler handling r w e s' hidle hhandling he hlegal hs =>
    obtain ⟨hon, hindex⟩ := (h.loops l).dispatching conn (by simp [Loop.dispatching, hhandling])
    exact ⟨_, (h.handling hhandling).handle hon.lt
      (fun c effects hc => follows_event he (h.consistent conn) hindex hc) hs⟩
  | callback _ hcalls => exact ⟨_, h.inside (hcalls ▸ List.subset_cons_self ..)⟩
  | @closeCallback l conn calls s' hcallback hcalls hs =>
    have hclosed : s.Closed conn := (h.loops l).calls conn (by simp [hcalls])
    have hI : Inv erased (s.setLoop l { s.loops l with calls }) :=
      h.inside (hcalls ▸ List.subset_cons_self ..)
    exact hI.removeConnection hclosed hs
  | call hcallback hon he hlegal hs =>
    exact ⟨_, h.handle hon.lt (fun c effects hc => he.follows hlegal (h.consistent _) hc) hs⟩
  | setCallbacks => exact ⟨_, h.follows (.of_eq rfl rfl)⟩
  | leave | finish => exact ⟨_, h.inside fun _ => id⟩
  | queueUser => exact ⟨_, h.queueInLoop trivial nofun⟩
  | swap hphase _ hhandling hactive => exact ⟨_, h.swap hphase hhandling hactive⟩
  | functor hphase hfunctor hfunctors hs => exact h.runFunctor hphase hfunctors hs
  | @endFunctors l hphase hfunctor hfunctors =>
    have hl := h.loops l
    have hidle := hl.idle (by simp [hphase])
    exact ⟨_, h.setLoop_of_queue (hl.shrink (.refl _) (fun _ => id) (fun _ => id)
      (fun _ => hidle) fun _ => hfunctors) rfl⟩

theorem destroyed_removeConnectionInLoop (hs : s.removeConnectionInLoop conn = some s') :
    s'.destroyed = s.destroyed := by
  unfold State.removeConnectionInLoop at hs
  split at hs <;> cases hs
  rfl

theorem destroyed_handle {e : Event} (hs : s.handle l conn e = some s') :
    s'.destroyed = s.destroyed := by
  unfold State.handle at hs
  split at hs <;> cases hs
  rfl

/-- The calls of `connectDestroyed`. -/
theorem destroyed_step (hst : (lts L).step s a s') : s'.destroyed = s.destroyed ∨
    ∃ conn l functors, s'.destroyed = s.destroyed ++ [conn] ∧ (s.loops l).phase = .functors ∧
      (s.loops l).functors = .server (.connectDestroyed conn) :: functors := by
  cases hst with
  | poll | wakeup | acceptFails | handleEvent | handleError | callback | setCallbacks | leave
  | queueUser | swap | finish | endFunctors => exact .inl rfl
  | handle _ _ _ _ hs | call _ _ _ _ hs => exact .inl (destroyed_handle hs :)
  | accept _ _ _ hs =>
    left
    unfold State.newConnection at hs
    split at hs
    · rename_i hnew
      obtain ⟨-, -, -, -, -, -, -, rfl⟩ := TcpServer.newConnection_eq hnew
      unfold State.runInLoop at hs
      split_ifs at hs <;> cases hs <;> rfl
    · cases hs
  | closeCallback _ _ hs =>
    left
    unfold State.removeConnection State.runInLoop at hs
    split_ifs at hs
    · exact (destroyed_removeConnectionInLoop hs :)
    · cases hs
      rfl
  | @functor l f functors w s' hphase hfunctor hfunctors hs =>
    cases f with
    | server task =>
      cases task with
      | connectEstablished conn =>
        cases hs
        exact .inl rfl
      | removeConnectionInLoop conn => exact .inl (destroyed_removeConnectionInLoop hs :)
      | connectDestroyed conn =>
        cases hs
        exact .inr ⟨conn, l, functors, rfl, hphase, hfunctors⟩
    | connection conn task =>
      cases task with
      | sendInLoop message => exact .inl (destroyed_handle hs :)
      | shutdownInLoop =>
        have hs : (s.setLoop l _).handle l conn .shutdownInLoop = some s' := hs
        exact .inl (destroyed_handle hs :)
      | writeComplete | highWaterMark _ | user =>
        cases hs
        exact .inl rfl
    | user =>
      cases hs
      exact .inl rfl

end Steps

/-! ### What may be dispatched is alive -/

section Alive

variable {s : State L} {l : L} {conn : ℕ} {erased : Set ℕ} {loop : L}
  {listenAddr : InetAddress} {name : List UInt8} {loops : List L}

theorem Inv.init : Inv ∅ (State.init loop listenAddr name loops) where
  table := .create loop listenAddr name loops
  consistent _ := consistent_create
  loops l := ⟨by simp [State.init, Loop.init, Loop.queue],
    by simp [State.init, Loop.init, Loop.queue], by simp [State.init, Loop.init],
    by simp [State.init, Loop.init, Loop.dispatching], fun _ => ⟨rfl, rfl⟩, fun _ => rfl⟩
  erased := by simp

/-- A connection in the poller has its entry, or its `connectDestroyed` is queued. -/
theorem Inv.held (h : Inv erased s) (hon : s.On conn l)
    (hindex : (s.conn conn).channel.index ≠ .kNew) : s.Held conn := by
  obtain ⟨c, hc, -⟩ := hon
  by_cases hmem : conn ∈ erased
  · -- the entry has gone, but the channel has not been taken out of the poller
    obtain ⟨l', hqueue⟩ := (h.erased conn hmem).2.resolve_left hindex
    exact .inr ⟨l', _, List.mem_append_right _ hqueue, rfl⟩
  · exact .inl ⟨c.name, (h.table.connections_iff _ _).2 ⟨⟨c, hc, rfl⟩, hmem⟩⟩

variable [DecidableEq L]

/-- What is said of a state: what may be dispatched is alive. -/
structure Alive (s : State L) : Prop where
  /-- A connection whose channel is in the poller has a strong reference. -/
  registered : ∀ conn l, s.On conn l → s.InPoller conn → s.Held conn
  /-- So has a connection that the loop has still to dispatch; it is one of its own. -/
  active : ∀ l conn revents, .connection conn revents ∈ (s.loops l).activeChannels →
    s.On conn l ∧ s.Held conn
  /-- `tie_.lock()` has a result. -/
  locks : ∀ l conn guard s', (lts L).step s (.handleEvent l conn guard) s' → guard = true
  /-- `connectDestroyed` is called, if at all, in the batch of the loop of the connection, when
  all that `poll` has reported has been dispatched. -/
  destroyed : ∀ a s', (lts L).step s a s' → s'.destroyed = s.destroyed ∨
    ∃ conn l, s'.destroyed = s.destroyed ++ [conn] ∧ s.On conn l ∧
      (s.loops l).phase = .functors ∧ (s.loops l).activeChannels = []

/-- **No event is dispatched to a dead connection**, whatever the loops do. -/
theorem dispatch_alive (h : (lts L).Reachable (State.init loop listenAddr name loops) s) :
    Alive s := by
  obtain ⟨erased, hI⟩ : ∃ erased, Inv erased s :=
    h.invariant (I := fun s => ∃ erased, Inv erased s) ⟨∅, .init⟩
      fun s a s' ⟨erased, hI⟩ hst => hI.step hst
  have hactive (l : L) (conn : ℕ) (revents : BitVec 32)
      (hmem : .connection conn revents ∈ (s.loops l).activeChannels) :
      s.On conn l ∧ s.Held conn := by
    have hdispatching : conn ∈ (s.loops l).dispatching :=
      List.mem_append_left _ (List.mem_filterMap.2 ⟨_, hmem, rfl⟩)
    obtain ⟨hon, hindex⟩ := (hI.loops l).dispatching conn hdispatching
    exact ⟨hon, hI.held hon hindex⟩
  refine ⟨fun conn l hon hin => ?_, hactive, fun l conn guard s' hst => ?_, fun a s' hst => ?_⟩
  · refine hI.held hon fun hnew => ?_
    have hnone := (hI.consistent conn).tracked (by simp [hnew])
    rcases hin with hin | hin
    · exact hin hnew
    · simp [hnone] at hin
  · cases hst with
    | handleEvent hidle hhandling hchannels hguard =>
      exact hguard.2 (hactive l conn _ (hchannels ▸ List.mem_cons_self)).2
  · refine (destroyed_step hst).imp id ?_
    rintro ⟨conn, l, functors, hdestroyed, hphase, hfunctors⟩
    have hl := hI.loops l
    have hqueue : .server (.connectDestroyed conn) ∈ (s.loops l).queue := by
      simp [Loop.queue, hfunctors]
    exact ⟨conn, l, hdestroyed, (hl.queue _ hqueue).1, hphase, (hl.idle (by simp [hphase])).1⟩

/-- A connection on an IO loop, and the `poll` that reports its close. -/
theorem dispatch_alive_hangup : ∃ s : State Bool, Alive s ∧ s.Held 0 ∧
    .connection 0 EPOLLHUP ∈ (s.loops true).activeChannels := by
  have h₀ : (lts Bool).Reachable (State.init false ⟨(127, 0, 0, 1), 80⟩ (ascii "EchoServer") [true])
      _ := .refl
  -- the base loop accepts a connection
  have h₁ := h₀.tail (show (lts Bool).step _ (.poll false [.acceptChannel]) _ from
    .poll rfl fun x hx => by cases List.mem_singleton.1 hx; rfl)
  have h₂ := h₁.tail (show (lts Bool).step _
    (.accept false false 5 ⟨(127, 0, 0, 1), 80⟩ ⟨(127, 0, 0, 1), 81⟩) _ from
    .accept ⟨rfl, rfl⟩ rfl rfl rfl)
  -- the IO loop establishes it
  have h₃ := h₂.tail (show (lts Bool).step _ (.poll true []) _ from .poll rfl nofun)
  have h₄ := h₃.tail (show (lts Bool).step _ (.swap true) _ from .swap rfl ⟨rfl, rfl⟩ rfl rfl)
  have h₅ := h₄.tail (show (lts Bool).step _
    (.functor true (.server (.connectEstablished 0)) (.accepted 0)) _ from .functor rfl rfl rfl rfl)
  have h₆ := h₅.tail (show (lts Bool).step _ (.callback true) _ from .callback rfl rfl nofun)
  have h₇ := h₆.tail (show (lts Bool).step _ (.leave true) _ from .leave rfl)
  have h₈ := h₇.tail (show (lts Bool).step _ (.finish true) _ from .finish rfl ⟨rfl, rfl⟩)
  have h₉ := h₈.tail (show (lts Bool).step _ (.endFunctors true) _ from .endFunctors rfl rfl rfl)
  -- and is told of a hangup
  have h₁₀ := h₉.tail (show (lts Bool).step _ (.poll true [.connection 0 EPOLLHUP]) _ from
    .poll rfl fun x hx => by cases List.mem_singleton.1 hx; exact ⟨⟨_, rfl, rfl⟩, rfl⟩)
  have hmem : .connection 0 EPOLLHUP ∈ [Active.connection 0 EPOLLHUP] := List.mem_singleton_self _
  exact ⟨_, dispatch_alive h₁₀, ((dispatch_alive h₁₀).active true 0 EPOLLHUP hmem).2, hmem⟩

end Alive

end ServerLoops

end TinyNetwork
