import TinyNetwork.Net.Custody

/-!
# Connections are released

A connection leaves the server in three stages: `closeCallback_` is called on its loop,
`removeConnectionInLoop` takes its entry out of `connections_` on the base loop, and
`connectDestroyed` takes its channel out of the poller on its own loop again.  Each stage leads to
the next one through a queue.

## Main results

* `Accounted.step` : a closed connection is always in one of the stages.
* `released` : when the loops have nothing more to do, a closed connection has no reference, no
  entry and no channel left, and every other one has all of them.
-/

namespace TinyNetwork

namespace ServerLoops

open TcpConnection Lifecycle

variable {L : Type*}

/-- `closeCallback_` of the connection is still to be called. -/
def State.Closing (s : State L) (conn : ℕ) : Prop :=
  ∃ l, (conn, .closeCallback) ∈ (s.loops l).calls

/-- The task of the server is in a queue. -/
def State.Queues (s : State L) (task : TcpServer.Task) : Prop :=
  ∃ l, .server task ∈ (s.loops l).queue

/-- The stages in which a closed connection leaves the server. -/
inductive State.Leaving (s : State L) (conn : ℕ) : Prop
  | closing (h : s.Closing conn)
  | removing (h : s.Queues (.removeConnectionInLoop conn))
  | erased (hentry : ∀ name, s.server.connections name ≠ some conn)
      (h : s.Queues (.connectDestroyed conn) ∨ conn ∈ s.destroyed)

/-- Every connection that has been made is accounted for. -/
structure Accounted (s : State L) : Prop where
  connecting : ∀ conn < s.server.made.length, (s.conn conn).state = .kConnecting →
    s.Queues (.connectEstablished conn)
  leaving : ∀ conn, s.Closed conn → s.Leaving conn
  destroyed : ∀ conn ∈ s.destroyed, s.Closed conn ∧ (s.conn conn).channel.index = .kNew

/-- What is on its way in `s` is on its way in `s'`, but for the task `gone` and the call
`closed`. -/
structure Kept (gone : Option TcpServer.Task) (closed : Option ℕ) (s s' : State L) : Prop where
  closing : ∀ conn, s.Closing conn → s'.Closing conn ∨ closed = some conn
  queues : ∀ task, s.Queues task → s'.Queues task ∨ gone = some task

section Kept

variable [DecidableEq L] {s s' : State L} {l : L} {lp : Loop} {gone : Option TcpServer.Task}
  {closed : Option ℕ} {conn : ℕ} {f : Functor}

theorem Kept.setLoop (h : Goes gone closed (s.loops l) lp) :
    Kept gone closed s (s.setLoop l lp) where
  closing conn := by
    rintro ⟨l', hmem⟩
    by_cases heq : l' = l
    · subst heq
      refine (h.closing conn hmem).imp_left fun hin => ⟨l', ?_⟩
      rwa [State.loops_setLoop, if_pos rfl]
    · exact .inl ⟨l', by rwa [State.loops_setLoop, if_neg heq]⟩
  queues task := by
    rintro ⟨l', hmem⟩
    by_cases heq : l' = l
    · subst heq
      refine (h.tasks task hmem).imp_left fun hin => ⟨l', ?_⟩
      rwa [State.loops_setLoop, if_pos rfl]
    · exact .inl ⟨l', by rwa [State.loops_setLoop, if_neg heq]⟩

/-- A function of a connection adds to what is on its way. -/
theorem Kept.perform {p : TcpConnection × List Effect} (h : Kept gone closed s s') :
    Kept gone closed s (s'.perform l conn p) where
  closing i hi := (h.closing i hi).imp_left fun ⟨l', hmem⟩ => ⟨l', by
    rw [State.loops_perform]
    split_ifs with heq
    · exact List.mem_append_right _ (heq ▸ hmem)
    · exact hmem⟩
  queues task ht := (h.queues task ht).imp_left fun ⟨l', hmem⟩ => ⟨l', by
    rw [State.loops_perform]
    split_ifs with heq
    · rw [Loop.queue_push]
      exact List.mem_append_left _ (heq ▸ hmem)
    · exact hmem⟩

/-- So does a push. -/
theorem Kept.queueInLoop (h : Kept gone closed s s') :
    Kept gone closed s (s'.queueInLoop l f) where
  closing i hi := (h.closing i hi).imp_left fun ⟨l', hmem⟩ => ⟨l', by
    rw [State.loops_queueInLoop]
    split_ifs with heq
    · exact heq ▸ hmem
    · exact hmem⟩
  queues task ht := (h.queues task ht).imp_left fun ⟨l', hmem⟩ => ⟨l', by
    rw [State.loops_queueInLoop]
    split_ifs with heq
    · rw [Loop.queue_push]
      exact List.mem_append_left _ (heq ▸ hmem)
    · exact hmem⟩

theorem State.queues_queueInLoop {task : TcpServer.Task} :
    (s.queueInLoop l (.server task)).Queues task :=
  ⟨l, by
    rw [State.loops_queueInLoop, if_pos rfl, Loop.queue_push]
    exact List.mem_concat_self⟩

omit [DecidableEq L] in
/-- A connection goes on leaving, unless the step is about one of its stages. -/
theorem State.Leaving.kept (h : s.Leaving conn) (hkept : Kept gone closed s s')
    (hclosed : closed ≠ some conn) (hremove : gone ≠ some (.removeConnectionInLoop conn))
    (hdestroy : gone = some (.connectDestroyed conn) → conn ∈ s'.destroyed)
    (hentry : (∀ name, s.server.connections name ≠ some conn) →
      ∀ name, s'.server.connections name ≠ some conn)
    (hdestroyed : conn ∈ s.destroyed → conn ∈ s'.destroyed) : s'.Leaving conn := by
  cases h with
  | closing h => exact .closing ((hkept.closing conn h).resolve_right hclosed)
  | removing h => exact .removing ((hkept.queues _ h).resolve_right hremove)
  | erased hnone h =>
    refine .erased (hentry hnone) ?_
    rcases h with h | h
    · exact (hkept.queues _ h).imp_right hdestroy
    · exact .inr (hdestroyed h)

end Kept

/-! ### Steps -/

section Step

variable [DecidableEq L] {s s' : State L} {a : Act L} {l : L} {lp : Loop} {conn : ℕ}
  {erased : Set ℕ} {gone : Option TcpServer.Task} {closed : Option ℕ}

theorem mem_called {p : TcpConnection × List Effect} (h : .closeCallback ∈ p.2) :
    (s.perform l conn p).Closing conn := by
  refine ⟨l, ?_⟩
  rw [State.loops_perform, if_pos rfl]
  exact List.mem_append_left _ (List.mem_filterMap.2 ⟨.closeCallback, h, rfl⟩)

/-- A function of a connection between `connectEstablished` and `connectDestroyed`. -/
theorem Accounted.runs {p : TcpConnection × List Effect} (h : Accounted s)
    (hgoes : Goes none none (s.loops l) lp) (hfollows : Follows (s.conn conn) p.1)
    (hlast : Announced (s.conn conn) p) :
    Accounted ((s.setLoop l lp).perform l conn p) := by
  have hkept : Kept none none s ((s.setLoop l lp).perform l conn p) :=
    (Kept.setLoop hgoes).perform
  refine ⟨fun i hlt hstate => ?_, fun i hclosed => ?_, fun i hmem => ?_⟩
  · -- nothing leaves a queue
    refine (hkept.queues _ (h.connecting i hlt ?_)).resolve_right nofun
    rw [State.conn_perform] at hstate
    split_ifs at hstate with heq
    · exact heq ▸ hfollows.connecting.1 hstate
    · exact hstate
  · obtain ⟨hlt, hstate⟩ := hclosed
    have hleaving (hstate : (s.conn i).state = .kDisconnected) :=
      (h.leaving i ⟨hlt, hstate⟩).kept hkept nofun nofun nofun id id
    rw [State.conn_perform] at hstate
    split_ifs at hstate with heq
    · -- it was closed before, or it has just been closed
      subst heq
      rcases hlast hstate with hbefore | hcall
      · exact hleaving hbefore
      · exact .closing (mem_called hcall)
    · exact hleaving hstate
  · obtain ⟨hclosed, hindex⟩ := h.destroyed i hmem
    refine ⟨⟨hclosed.1, ?_⟩, ?_⟩
    · rw [State.conn_perform]
      split_ifs with heq
      · exact hfollows.disconnected (heq ▸ hclosed.2)
      · exact hclosed.2
    · rw [State.conn_perform]
      split_ifs with heq
      · exact hfollows.index.2 (heq ▸ hindex)
      · exact hindex

/-- `connectEstablished` leaves the queue and runs. -/
theorem Accounted.establishes (h : Accounted s)
    (hgoes : Goes (some (.connectEstablished conn)) none (s.loops l) lp)
    (hstate : (s.conn conn).state = .kConnecting) :
    Accounted ((s.setLoop l lp).perform l conn (s.conn conn).connectEstablished) := by
  have hkept : Kept (some (.connectEstablished conn)) none s
      ((s.setLoop l lp).perform l conn (s.conn conn).connectEstablished) :=
    (Kept.setLoop hgoes).perform
  have hself : ((s.setLoop l lp).perform l conn (s.conn conn).connectEstablished).conn conn =
      (s.conn conn).connectEstablished.1 := State.conn_perform.trans (if_pos rfl)
  have hother (i : ℕ) (hne : i ≠ conn) :
      ((s.setLoop l lp).perform l conn (s.conn conn).connectEstablished).conn i = s.conn i :=
    State.conn_perform.trans (if_neg hne)
  refine ⟨fun i hlt hconnecting => ?_, fun i hclosed => ?_, fun i hmem => ?_⟩
  · -- `conn` is connected now
    have hne : i ≠ conn := by
      rintro rfl
      rw [hself] at hconnecting
      cases hconnecting
    rw [hother i hne] at hconnecting
    refine (hkept.queues _ (h.connecting i hlt hconnecting)).resolve_right fun heq => ?_
    cases heq
    exact hne rfl
  · have hne : i ≠ conn := by
      rintro rfl
      have hdisconnected := hclosed.2
      rw [hself] at hdisconnected
      cases hdisconnected
    have hclosed' : s.Closed i := ⟨hclosed.1, hother i hne ▸ hclosed.2⟩
    exact (h.leaving i hclosed').kept hkept nofun nofun nofun id id
  · obtain ⟨hclosed, hindex⟩ := h.destroyed i hmem
    have hne : i ≠ conn := by
      rintro rfl
      cases hstate.symm.trans hclosed.2
    rw [State.Closed, hother i hne]
    exact ⟨hclosed, hindex⟩

/-- `connectDestroyed` leaves the queue and runs. -/
theorem Accounted.destroys (h : Accounted s)
    (hgoes : Goes (some (.connectDestroyed conn)) none (s.loops l) lp) (hclosed : s.Closed conn) :
    Accounted ({ s.setLoop l lp with destroyed := s.destroyed ++ [conn] }.perform l conn
      (s.conn conn).connectDestroyed) := by
  have hkept : Kept (some (.connectDestroyed conn)) none s
      ({ s.setLoop l lp with destroyed := s.destroyed ++ [conn] }.perform l conn
        (s.conn conn).connectDestroyed) := by
    refine Kept.perform ⟨(Kept.setLoop hgoes).closing, (Kept.setLoop hgoes).queues⟩
  rw [connectDestroyed_of_closed hclosed.2] at hkept ⊢
  set p : TcpConnection × List Effect :=
    ({ s.conn conn with channel := (s.conn conn).channel.remove }, [])
  set s' := ({ s.setLoop l lp with destroyed := s.destroyed ++ [conn] } : State L).perform l conn p
  have hself : s'.conn conn = p.1 := State.conn_perform.trans (if_pos rfl)
  have hother (i : ℕ) (hne : i ≠ conn) : s'.conn i = s.conn i :=
    State.conn_perform.trans (if_neg hne)
  -- `connectDestroyed` of a closed connection only removes the channel
  have hstate (i : ℕ) : (s'.conn i).state = (s.conn i).state := by
    by_cases heq : i = conn
    · rw [heq, hself]
    · rw [hother i heq]
  refine ⟨fun i hlt hconnecting => ?_, fun i hclosed => ?_, fun i hmem => ?_⟩
  · exact (hkept.queues _ (h.connecting i hlt (hstate i ▸ hconnecting))).resolve_right (by simp)
  · have hclosed' : s.Closed i := ⟨hclosed.1, hstate i ▸ hclosed.2⟩
    refine (h.leaving i hclosed').kept hkept nofun (by simp) (fun heq => ?_) id
      (List.mem_append_left _)
    cases heq
    exact List.mem_concat_self
  · by_cases heq : i = conn
    · subst heq
      exact ⟨⟨hclosed.1, (hstate i).trans hclosed.2⟩, by rw [hself]; rfl⟩
    · have hold : i ∈ s.destroyed := by
        rcases List.mem_append.1 hmem with hmem | hmem
        · exact hmem
        · exact absurd (List.mem_singleton.1 hmem) heq
      obtain ⟨hclosed', hindex⟩ := h.destroyed i hold
      exact ⟨⟨hclosed'.1, (hstate i).trans hclosed'.2⟩, by rw [hother i heq]; exact hindex⟩

omit [DecidableEq L] in
/-- A step that changes no connection and makes none. -/
theorem Accounted.of_kept (h : Accounted s) (hkept : Kept gone closed s s')
    (hgone : ∀ conn, gone ≠ some (.connectEstablished conn)) (hconn : s'.conn = s.conn)
    (hmade : s'.server.made = s.server.made) (hdestroyed : s'.destroyed = s.destroyed)
    (hleaving : ∀ conn, s.Closed conn → s.Leaving conn → s'.Leaving conn) : Accounted s' := by
  refine ⟨fun i hlt hconnecting => ?_, fun i hclosed => ?_, fun i hmem => ?_⟩
  · rw [hmade] at hlt
    rw [hconn] at hconnecting
    exact (hkept.queues _ (h.connecting i hlt hconnecting)).resolve_right (hgone i)
  · rw [State.Closed, hmade, hconn] at hclosed
    exact hleaving i hclosed (h.leaving i hclosed)
  · rw [State.Closed, hmade, hconn]
    exact h.destroyed i (hdestroyed ▸ hmem)

/-- `removeConnectionInLoop` erases the entry, and `connectDestroyed` is queued. -/
theorem Accounted.erases (h : Accounted s) (hI : Inv erased s)
    (hgoes : Goes gone closed (s.loops l) lp)
    (hgone : ∀ task ∈ gone, task = .removeConnectionInLoop conn) (hclosed : ∀ i ∈ closed, i = conn)
    (hs : (s.setLoop l lp).removeConnectionInLoop conn = some s') : Accounted s' := by
  obtain ⟨c, hc, rfl⟩ := State.removeConnectionInLoop_eq hs
  have hentry : Kept gone closed s ({ s.setLoop l lp with
      server := { s.server with
        connections := Function.update s.server.connections c.name none } }) :=
    ⟨(Kept.setLoop hgoes).closing, (Kept.setLoop hgoes).queues⟩
  have hkept : Kept gone closed s _ :=
    hentry.queueInLoop (l := c.ioLoop) (f := .server (.connectDestroyed conn))
  refine h.of_kept hkept (fun i heq => ?_) rfl rfl rfl fun i hi hleaving => ?_
  · cases hgone _ heq
  · by_cases heq : i = conn
    · subst heq
      refine .erased (fun name hname => ?_) (.inl State.queues_queueInLoop)
      -- the entry was under the name of the connection
      simp only [State.queueInLoop, State.setLoop, Function.update_apply] at hname
      split_ifs at hname with hne
      obtain ⟨⟨c', hc', hname'⟩, -⟩ := (hI.table.connections_iff _ _).1 hname
      obtain rfl := Option.some.inj (hc.symm.trans hc')
      exact hne hname'.symm
    · refine hleaving.kept hkept (fun h => heq (hclosed i h)) (fun h => ?_) (fun h => ?_)
        (fun hnone name hname => ?_) id
      · cases hgone _ h
        exact heq rfl
      · cases hgone _ h
      · simp only [State.queueInLoop, State.setLoop, Function.update_apply] at hname
        split_ifs at hname
        exact hnone name hname

/-- A new connection is established, or its `connectEstablished` is queued. -/
theorem Accounted.accepts {wc : Bool} {sockfd : ℤ} {localAddr peerAddr : InetAddress}
    (h : Accounted s) (hgoes : Goes none none (s.loops l) lp)
    (hs : (s.setLoop l lp).newConnection l wc sockfd localAddr peerAddr = some s') :
    Accounted s' := by
  obtain ⟨server, ioLoop, hloop, hmade, hconns, hcases⟩ := State.newConnection_eq hs
  set n := s.server.made.length with hn
  have hlen : server.made.length = n + 1 := by simp [hmade, hn, State.setLoop]
  have hentry : ∀ i, i ≠ n → (∀ name, s.server.connections name ≠ some i) →
      ∀ name, server.connections name ≠ some i := by
    intro i hne hnone name hname
    simp only [hconns, State.setLoop, Function.update_apply] at hname
    split_ifs at hname with heq
    · exact hne (Option.some.inj hname).symm
    · exact hnone name hname
  -- what is common to the two cases
  obtain ⟨hkept, hserver, hdestroyed, hother, hnew⟩ : Kept none none s s' ∧ s'.server = server ∧
      s'.destroyed = s.destroyed ∧ (∀ i, i ≠ n → s'.conn i = s.conn i) ∧
      (s'.conn n).state ≠ .kDisconnected ∧
      ((s'.conn n).state = .kConnecting → s'.Queues (.connectEstablished n)) := by
    have hkept' : Kept none none s
        ({ s.setLoop l lp with server }.setConn n (fresh wc)) :=
      ⟨(Kept.setLoop hgoes).closing, (Kept.setLoop hgoes).queues⟩
    rcases hcases with ⟨-, rfl⟩ | ⟨-, rfl⟩
    · refine ⟨hkept'.perform, rfl, rfl, fun i hne => ?_, ?_⟩
      · rw [State.conn_perform]
        exact (if_neg hne).trans (State.conn_setConn.trans (if_neg hne))
      · have hself : (State.perform ({ s.setLoop l lp with server }.setConn n (fresh wc)) l n
            (fresh wc).connectEstablished).conn n = (fresh wc).connectEstablished.1 :=
          State.conn_perform.trans (if_pos rfl)
        rw [show (s.setLoop l lp).server.made.length = n from rfl, hself]
        exact ⟨by simp [connectEstablished], fun hstate => by simp [connectEstablished] at hstate⟩
    · refine ⟨hkept'.queueInLoop, rfl, rfl, fun i hne => ?_, ?_⟩
      · exact State.conn_setConn.trans (if_neg hne)
      · have hself : (State.queueInLoop ({ s.setLoop l lp with server }.setConn n (fresh wc)) ioLoop
            (.server (.connectEstablished n))).conn n = fresh wc :=
          State.conn_setConn.trans (if_pos rfl)
        rw [show (s.setLoop l lp).server.made.length = n from rfl, hself]
        exact ⟨by simp [fresh, create], fun _ => State.queues_queueInLoop⟩
  refine ⟨fun i hlt hstate => ?_, fun i hclosed => ?_, fun i hmem => ?_⟩
  · rw [hserver, hlen] at hlt
    by_cases heq : i = n
    · subst heq
      exact hnew.2 hstate
    · rw [hother i heq] at hstate
      exact (hkept.queues _ (h.connecting i (by omega) hstate)).resolve_right (by simp)
  · have heq : i ≠ n := by
      rintro rfl
      exact hnew.1 hclosed.2
    have hlt := hclosed.1
    rw [hserver, hlen] at hlt
    have hclosed' : s.Closed i := ⟨by omega, hother i heq ▸ hclosed.2⟩
    refine (h.leaving i hclosed').kept hkept (by simp) (by simp) (by simp) ?_
      fun hmem => hdestroyed ▸ hmem
    rw [hserver]
    exact hentry i heq
  · obtain ⟨hclosed, hindex⟩ := h.destroyed i (hdestroyed ▸ hmem)
    have hlt : i < n := hclosed.1
    rw [State.Closed, hother i hlt.ne, hserver, hlen]
    exact ⟨⟨by omega, hclosed.2⟩, hindex⟩

/-- **A closed connection is always in one of its stages.** -/
theorem Accounted.step (h : Accounted s) (hI : Inv erased s) (hdoes : Does s a s') :
    Accounted s' := by
  cases hdoes with
  | goes hgoes =>
    refine h.of_kept (.setLoop hgoes) nofun rfl rfl rfl fun i _ hleaving => ?_
    exact hleaving.kept (.setLoop hgoes) nofun nofun nofun id id
  | runs hgoes hactive hon hindex hfollows hharmless hlast =>
    exact h.runs hgoes hfollows hlast
  | establishes hgoes hactive hfunctor hmem =>
    exact h.establishes hgoes ((hI.loops _).queue _ hmem).2
  | destroys hgoes hactive hphase hnone hfunctor hmem =>
    exact h.destroys hgoes ((hI.loops _).queue _ hmem).2
  | @configures conn c hon hstate hchannel =>
    have hstate' (i : ℕ) : ((s.setConn conn c).conn i).state = (s.conn i).state ∧
        ((s.setConn conn c).conn i).channel = (s.conn i).channel := by
      rw [State.conn_setConn]
      split_ifs with heq
      · subst heq
        exact ⟨hstate, hchannel⟩
      · exact ⟨rfl, rfl⟩
    have hkept : Kept none none s (s.setConn conn c) := ⟨fun _ => .inl, fun _ => .inl⟩
    refine ⟨fun i hlt hconnecting => ?_, fun i hclosed => ?_, fun i hmem => ?_⟩
    · exact h.connecting i hlt ((hstate' i).1.symm.trans hconnecting)
    · have hclosed' : s.Closed i := ⟨hclosed.1, (hstate' i).1.symm.trans hclosed.2⟩
      exact (h.leaving i hclosed').kept hkept nofun nofun nofun id id
    · obtain ⟨hclosed, hindex⟩ := h.destroyed i hmem
      exact ⟨⟨hclosed.1, (hstate' i).1.trans hclosed.2⟩, (hstate' i).2 ▸ hindex⟩
  | accepts ha hgoes hactive haccept hphase hs => exact h.accepts hgoes hs
  | @asks lp conn hgoes hactive hcall hne =>
    have hkept : Kept none (some conn) s _ := (Kept.setLoop hgoes).queueInLoop
      (l := s.server.loop) (f := .server (.removeConnectionInLoop conn))
    refine h.of_kept hkept nofun rfl rfl rfl fun i _ hleaving => ?_
    by_cases heq : i = conn
    · subst heq
      -- its `closeCallback_` has been called, and its removal is queued
      exact .removing State.queues_queueInLoop
    · exact hleaving.kept hkept (by simpa using Ne.symm heq) nofun nofun id id
  | erases hgoes hactive hgone hclosed hfrom hs => exact h.erases hI hgoes hgone hclosed hs

end Step

/-! ### At rest -/

/-- The loops have nothing to do but to wait for events. -/
def State.AtRest (s : State L) : Prop :=
  ∀ l, (s.loops l).calls = [] ∧ (s.loops l).functor = none ∧ (s.loops l).queue = []

/-- The server, the poller and the references agree on whether a connection is open. -/
structure Settled (s : State L) (conn : ℕ) : Prop where
  entry : (∃ name, s.server.connections name = some conn) ↔ (s.conn conn).state ≠ .kDisconnected
  held : s.Held conn ↔ (s.conn conn).state ≠ .kDisconnected
  poller : s.InPoller conn ↔ (s.conn conn).state ≠ .kDisconnected
  destroyed : conn ∈ s.destroyed ↔ (s.conn conn).state = .kDisconnected

section Rest

variable {s : State L} {conn : ℕ} {erased : Set ℕ} {task : TcpServer.Task} {loop : L}
  {listenAddr : InetAddress} {name : List UInt8} {loops : List L}

theorem State.AtRest.not_queues (h : s.AtRest) : ¬ s.Queues task := by
  rintro ⟨l, hmem⟩
  rw [(h l).2.2] at hmem
  cases hmem

theorem State.AtRest.not_closing (h : s.AtRest) : ¬ s.Closing conn := by
  rintro ⟨l, hmem⟩
  rw [(h l).1] at hmem
  cases hmem

/-- A connection that is open has its entry. -/
theorem Inv.entry (hI : Inv erased s) (hlt : conn < s.server.made.length)
    (hopen : (s.conn conn).state ≠ .kDisconnected) :
    ∃ name, s.server.connections name = some conn :=
  ⟨_, (hI.table.connections_iff _ _).2
    ⟨⟨_, List.getElem?_eq_getElem hlt, rfl⟩, fun hmem => hopen (hI.erased conn hmem).1⟩⟩

/-- At rest all stages of a close are over. -/
theorem Accounted.over (h : Accounted s) (hrest : s.AtRest) (hclosed : s.Closed conn) :
    (∀ name, s.server.connections name ≠ some conn) ∧ conn ∈ s.destroyed := by
  cases h.leaving conn hclosed with
  | closing h => exact absurd h hrest.not_closing
  | removing h => exact absurd h hrest.not_queues
  | erased hentry h => exact ⟨hentry, h.resolve_left hrest.not_queues⟩

theorem Accounted.settled (h : Accounted s) (hI : Inv erased s) (hrest : s.AtRest)
    (hlt : conn < s.server.made.length) : Settled s conn := by
  have hentry : (∃ name, s.server.connections name = some conn) ↔
      (s.conn conn).state ≠ .kDisconnected := by
    refine ⟨fun ⟨name, hname⟩ hstate => ?_, hI.entry hlt⟩
    exact (h.over hrest ⟨hlt, hstate⟩).1 name hname
  refine ⟨hentry, ?_, ?_, fun hmem => (h.destroyed conn hmem).1.2, fun hstate => ?_⟩
  · -- at rest no functor holds anything
    rw [State.Held, ← hentry, or_iff_left]
    rintro ⟨l, f, hf, -⟩
    rw [(hrest l).2.1, (hrest l).2.2] at hf
    cases hf
  · constructor
    · intro hin hstate
      have hnew := (h.destroyed conn (h.over hrest ⟨hlt, hstate⟩).2).2
      have hnone := (hI.consistent conn).tracked (by simp [hnew])
      rcases hin with hin | hin
      · exact hin hnew
      · simp [hnone] at hin
    · intro hopen
      left
      cases hstate : (s.conn conn).state with
      | kDisconnected => exact absurd hstate hopen
      | kConnecting => exact absurd (h.connecting conn hlt hstate) hrest.not_queues
      | kConnected => exact (hI.consistent conn).connected hstate
      | kDisconnecting => exact (hI.consistent conn).disconnecting hstate
  · exact (h.over hrest ⟨hlt, hstate⟩).2

theorem accounted_init : Accounted (State.init loop listenAddr name loops) where
  connecting conn hlt := by simp [State.init, TcpServer.create] at hlt
  leaving conn hclosed := by simp [State.Closed, State.init, TcpServer.create] at hclosed
  destroyed conn hmem := by simp [State.init] at hmem

variable [DecidableEq L]

theorem Accounted.reachable (h : (lts L).Reachable (State.init loop listenAddr name loops) s) :
    ∃ erased, Inv erased s ∧ Accounted s :=
  h.invariant (I := fun s => ∃ erased, Inv erased s ∧ Accounted s) ⟨∅, .init, accounted_init⟩
    fun s a s' ⟨erased, hI, hA⟩ hst => by
      obtain ⟨erased', hI'⟩ := hI.step hst
      exact ⟨erased', hI', hA.step hI (hI.does hst)⟩

/-- **No connection is leaked.**  Whatever the loops of a server do, a connection that has been
closed is always in one of the stages in which it leaves the server; and when the loops are at rest,
it has left: it has no entry, no strong reference and no channel in a poller, while every other
connection has all of them. -/
theorem released (h : (lts L).Reachable (State.init loop listenAddr name loops) s) :
    (∀ conn, s.Closed conn → s.Leaving conn) ∧
      (s.AtRest → ∀ conn < s.server.made.length, Settled s conn) := by
  obtain ⟨erased, hI, hA⟩ := Accounted.reachable h
  exact ⟨hA.leaving, fun hrest conn hlt => hA.settled hI hrest hlt⟩

/-- What is asked of the `accept` of a run: the descriptor 5, which no connection that is still
referenced has. -/
def AcceptsFive (s : State L) (a : Act L) : Prop :=
  ∀ l wc sockfd localAddr peerAddr, a = .accept l wc sockfd localAddr peerAddr →
    sockfd = 5 ∧ ∀ conn c, s.Held conn → s.server.made[conn]? = some c → c.sockfd ≠ 5

/-- A loop that waits accepts a connection. -/
theorem exists_accept {C : State Unit → Act Unit → Prop} (hC : ∀ s a, AcceptsFive s a → C s a)
    {s : State Unit} (hrest : s.AtRest) (hphase : (s.loops ()).phase = .polling)
    (hidle : (s.loops ()).inCallback = false) (hhandling : (s.loops ()).handling = [])
    (hid : s.server.nextConnId + 1 < 2 ^ 31)
    (hfree : ∀ conn c, s.Held conn → s.server.made[conn]? = some c → c.sockfd ≠ 5) :
    ∃ s' : State Unit, (lts Unit).ReachableBy C s s' ∧
      s'.server.made.map TcpServer.Connection.sockfd =
        s.server.made.map TcpServer.Connection.sockfd ++ [5] ∧
      s'.On s.server.made.length () ∧ (s'.conn s.server.made.length).channel.index ≠ .kNew := by
  set lp : Loop := { s.loops () with phase := .dispatching, activeChannels := [.acceptChannel] }
  set addr : InetAddress := ⟨(127, 0, 0, 1), 81⟩
  have hpoll : (lts Unit).step s (.poll () [.acceptChannel]) (s.setLoop () lp) :=
    .poll hphase fun x hx => by cases List.mem_singleton.1 hx; rfl
  have hheld (conn : ℕ) (h : (s.setLoop () lp).Held conn) : s.Held conn := by
    refine h.imp_right ?_
    rintro ⟨l, f, hf, hmem⟩
    refine ⟨(), f, ?_, hmem⟩
    rw [State.loops_setLoop, if_pos rfl] at hf
    exact hf
  obtain ⟨server, ioLoop, task, hnew⟩ : ∃ server ioLoop task,
      s.server.newConnection 5 addr addr = some (server, ioLoop, task) := by
    cases hnew : s.server.newConnection 5 addr addr with
    | some r => exact ⟨_, _, _, rfl⟩
    | none =>
      unfold TcpServer.newConnection at hnew
      simp only at hnew
      split_ifs at hnew
  obtain ⟨-, -, -, -, -, -, -, rfl⟩ := TcpServer.newConnection_eq hnew
  obtain ⟨s', hs'⟩ : ∃ s', ((s.setLoop () lp).setLoop ()
      { (s.setLoop () lp).loops () with activeChannels := [] }).newConnection () false 5 addr addr =
        some s' := by
    unfold State.newConnection
    simp only [State.setLoop, hnew]
    exact ⟨_, rfl⟩
  have haccept : (lts Unit).step (s.setLoop () lp) (.accept () false 5 addr addr) s' := by
    refine .accept ⟨?_, ?_⟩ ?_ ?_ hs' <;> rw [State.loops_setLoop, if_pos rfl]
    · exact (hrest ()).1
    · exact hidle
    · exact hhandling
  have hfive : AcceptsFive s (.poll () [.acceptChannel]) := by
    intro l wc fd la pa heq
    cases heq
  refine ⟨s', .tail (.tail .refl hpoll (hC _ _ hfive)) haccept (hC _ _ fun l wc fd la pa heq => ?_),
    ?_⟩
  · cases heq
    exact ⟨rfl, fun conn c h => hfree conn c (hheld conn h)⟩
  · obtain ⟨server, ioLoop, -, hmade, -, ⟨-, rfl⟩ | ⟨hne, -⟩⟩ := State.newConnection_eq hs'
    · have hmade' : server.made = s.server.made ++ [⟨ioLoop, s.server.connName, 5, addr, addr⟩] :=
        hmade
      refine ⟨(congrArg _ hmade').trans List.map_append,
        ⟨⟨ioLoop, s.server.connName, 5, addr, addr⟩, ?_, rfl⟩, ?_⟩
      · exact (congrArg (·[s.server.made.length]?) hmade').trans List.getElem?_concat_length
      · rw [State.conn_perform]
        split_ifs with heq
        · simp [connectEstablished, fresh, create, Channel.create, Channel.enableReading,
            Channel.update]
        · exact absurd rfl heq
    · exact absurd rfl hne

/-- A connection is accepted, hung up and released on the base loop. -/
theorem exists_closed {C : State Unit → Act Unit → Prop} (hC : ∀ s a, AcceptsFive s a → C s a) :
    ∃ s : State Unit,
      (lts Unit).ReachableBy C (.init () ⟨(127, 0, 0, 1), 80⟩ (ascii "EchoServer") []) s ∧
      s.AtRest ∧ s.Closed 0 ∧ s.server.made.map TcpServer.Connection.sockfd = [5] ∧
      s.server.nextConnId = 2 ∧ (s.loops ()).phase = .polling ∧
      (s.loops ()).inCallback = false ∧ (s.loops ()).handling = [] := by
  have h₀ : (lts Unit).ReachableBy C
      (.init () ⟨(127, 0, 0, 1), 80⟩ (ascii "EchoServer") []) _ := .refl
  have h₁ := h₀.tail (show (lts Unit).step _ (.poll () [.acceptChannel]) _ from
    .poll rfl fun x hx => by cases List.mem_singleton.1 hx; rfl) (hC _ _ nofun)
  have h₂ := h₁.tail (show (lts Unit).step _
    (.accept () false 5 ⟨(127, 0, 0, 1), 80⟩ ⟨(127, 0, 0, 1), 81⟩) _ from
    .accept ⟨rfl, rfl⟩ rfl rfl rfl) (hC _ _ fun l wc sockfd localAddr peerAddr heq => by
      cases heq
      exact ⟨rfl, fun conn c _ hc => nomatch hc⟩)
  have h₃ := h₂.tail (show (lts Unit).step _ (.callback ()) _ from .callback rfl rfl nofun)
    (hC _ _ nofun)
  have h₄ := h₃.tail (show (lts Unit).step _ (.leave ()) _ from .leave rfl) (hC _ _ nofun)
  have h₅ := h₄.tail (show (lts Unit).step _ (.swap ()) _ from .swap rfl ⟨rfl, rfl⟩ rfl rfl)
    (hC _ _ nofun)
  have h₆ := h₅.tail (show (lts Unit).step _ (.endFunctors ()) _ from .endFunctors rfl rfl rfl)
    (hC _ _ nofun)
  -- the peer hangs up
  have h₇ := h₆.tail (show (lts Unit).step _ (.poll () [.connection 0 EPOLLHUP]) _ from
    .poll rfl fun x hx => by cases List.mem_singleton.1 hx; exact ⟨⟨_, rfl, rfl⟩, rfl⟩)
    (hC _ _ nofun)
  obtain ⟨erased, hI, -⟩ := exists_inv h₇.reachable
  have hdispatching := ((hI.loops ()).dispatching 0 (List.mem_singleton_self _))
  have h₈ := h₇.tail (show (lts Unit).step _ (.handleEvent () 0 true) _ from
    .handleEvent ⟨rfl, rfl⟩ rfl rfl (iff_of_true rfl (hI.held hdispatching.1 hdispatching.2)))
    (hC _ _ nofun)
  have h₉ := h₈.tail (show (lts Unit).step _ (.handle () (.data []) (.accepted 0)) _ from
    .handle ⟨rfl, rfl⟩ rfl rfl trivial rfl) (hC _ _ nofun)
  have h₁₀ := h₉.tail (show (lts Unit).step _ (.callback ()) _ from .callback rfl rfl nofun)
    (hC _ _ nofun)
  have h₁₁ := h₁₀.tail (show (lts Unit).step _ (.leave ()) _ from .leave rfl) (hC _ _ nofun)
  -- and the connection leaves the server
  have h₁₂ := h₁₁.tail (show (lts Unit).step _ (.closeCallback ()) _ from
    .closeCallback rfl rfl rfl) (hC _ _ nofun)
  have h₁₃ := h₁₂.tail (show (lts Unit).step _ (.swap ()) _ from .swap rfl ⟨rfl, rfl⟩ rfl rfl)
    (hC _ _ nofun)
  have h₁₄ := h₁₃.tail (show (lts Unit).step _
    (.functor () (.server (.connectDestroyed 0)) (.accepted 0)) _ from .functor rfl rfl rfl rfl)
    (hC _ _ nofun)
  have h₁₅ := h₁₄.tail (show (lts Unit).step _ (.finish ()) _ from .finish rfl ⟨rfl, rfl⟩)
    (hC _ _ nofun)
  have h₁₆ := h₁₅.tail (show (lts Unit).step _ (.endFunctors ()) _ from .endFunctors rfl rfl rfl)
    (hC _ _ nofun)
  exact ⟨_, h₁₆, fun _ => ⟨rfl, rfl, rfl⟩, ⟨Nat.one_pos, rfl⟩, rfl, rfl, rfl, rfl, rfl⟩

/-- The next connection is given the descriptor of one that has been released. -/
theorem exists_hangup {C : State Unit → Act Unit → Prop} (hC : ∀ s a, AcceptsFive s a → C s a) :
    ∃ s s' : State Unit,
      (lts Unit).ReachableBy C (.init () ⟨(127, 0, 0, 1), 80⟩ (ascii "EchoServer") []) s ∧
      s.AtRest ∧ s.Closed 0 ∧ (lts Unit).ReachableBy C s s' ∧
      s'.server.made.map TcpServer.Connection.sockfd = [5, 5] ∧ s'.On 1 () ∧
      (s'.conn 1).channel.index ≠ .kNew := by
  obtain ⟨s, h, hrest, hclosed, hmade, hid, hphase, hidle, hhandling⟩ := exists_closed hC
  obtain ⟨erased, hI, hA⟩ := Accounted.reachable h.reachable
  have hsettled := hA.settled hI hrest hclosed.1
  have hlen : s.server.made.length = 1 := by simpa using congrArg List.length hmade
  obtain ⟨s', hrun, hmade', hon, hindex⟩ := exists_accept hC hrest hphase hidle hhandling
    (by rw [hid]; norm_num) fun conn c hheld hc => by
      -- the connection that had the descriptor has no reference any more
      have hlt := (List.getElem?_eq_some_iff.1 hc).1
      obtain rfl : conn = 0 := by omega
      exact absurd hclosed.2 (hsettled.held.1 hheld)
  rw [hlen] at hon hindex
  exact ⟨s, s', h, hrest, hclosed, hrun, by rw [hmade', hmade]; rfl, hon, hindex⟩

/-- A connection is accepted, hung up and released on the base loop. -/
theorem released_hangup : ∃ s : State Unit, s.AtRest ∧ s.Closed 0 ∧ Settled s 0 := by
  obtain ⟨s, h, hrest, hclosed, -⟩ := exists_closed (C := fun _ _ => True) fun _ _ _ => trivial
  exact ⟨s, hrest, hclosed, (released h.reachable).2 hrest 0 hclosed.1⟩

end Rest

end ServerLoops

end TinyNetwork
