import TinyNetwork.Net.Ownership

/-!
# One loop per thread

The thread of a loop runs the functions of the connections on its loop, and no other ones.  What it
has to tell the rest of the server goes through the queue of another loop.

## Main results

* `Inv.does` : what the thread of a loop does in a step, in a few cases.
* `Custody.step` : the functors and the calls of a loop are about its own connections, but for the
  removals on the base loop.
* `one_loop_per_thread` : a thread leaves the connections of the other loops alone, and does nothing
  to another loop but push a task of the server.
-/

namespace TinyNetwork

namespace ServerLoops

open TcpConnection Lifecycle

/-! ### The functions of a connection -/

section Announced

variable {c c' : TcpConnection} {effects : List Effect} {data : List UInt8} {w : WriteResult}
  {r : ReadResult} {e : Event} {handler : Handler}

/-- A function that closes a connection calls `closeCallback_`. -/
def Announced (c : TcpConnection) (p : TcpConnection × List Effect) : Prop :=
  p.1.state = .kDisconnected → c.state = .kDisconnected ∨ .closeCallback ∈ p.2

/-- A function that closes a connection calls `closeCallback_`. -/
theorem announced_event {p : TcpConnection × List Effect} (he : eventOf r w handler = some e)
    (h : c.handle e = .ok p) : Announced c p := by
  cases handler with
  | error => cases he
  | close =>
    cases he
    cases h
    exact fun _ => .inr (by simp [handleClose])
  | read =>
    cases he
    obtain ⟨⟨n, errno, inputBuffer⟩, -, h⟩ := bind_eq_ok.1 h
    simp only at h
    split_ifs at h <;> cases h
    · exact .inl
    · exact fun _ => .inr (by simp [handleClose])
    · exact .inl
  | write =>
    cases he
    obtain rfl : c.handleWrite w = p := Except.ok.inj h
    have hstate : (c.handleWrite w).1.state = c.state := by
      simp only [handleWrite]
      split_ifs
      · rw [state_shutdownInLoop, state_handleWriteData]
      · exact state_handleWriteData
    exact fun hs => .inl (hstate.symm.trans hs)

theorem state_send (h : c.send data w = .ok (c', effects)) : c'.state = c.state := by
  unfold send at h
  split_ifs at h with hstate
  · rw [sendInLoop_eq, if_neg (by simp [hstate])] at h
    exact (sendInLoopRest_eq_ok h).1
  · cases h
    rfl

/-- What the program calls closes no connection. -/
theorem FromProgram.announced (he : FromProgram e) (hlegal : e.Legal c)
    (h : c.handle e = .ok (c', effects)) : Announced c (c', effects) := by
  intro hs
  left
  cases e with
  | send buf w => exact (state_send h).symm.trans hs
  | sendBuffer buf w =>
    obtain ⟨⟨c₁, effects₁, buf'⟩, hsend, heq⟩ := bind_eq_ok.1 h
    cases heq
    exact (state_send (sendBuffer_eq_ok hlegal.1 hsend)).symm.trans hs
  | shutdown =>
    cases h
    by_contra hne
    exact quiet_shutdown.state hne hs
  | _ => exact he.elim

/-- What the program calls on a connection that is not connected does nothing. -/
theorem FromProgram.not_connected (he : FromProgram e) (hstate : c.state ≠ .kConnected)
    (h : c.handle e = .ok (c', effects)) : c' = c ∧ effects = [] := by
  cases e with
  | send buf w =>
    simp only [TcpConnection.handle, send, if_neg hstate, Except.ok.injEq, Prod.mk.injEq] at h
    exact ⟨h.1.symm, h.2.symm⟩
  | sendBuffer buf w =>
    obtain ⟨⟨c₁, effects₁, buf'⟩, hsend, heq⟩ := bind_eq_ok.1 h
    cases heq
    simp only [sendBuffer, if_neg hstate, Except.ok.injEq, Prod.mk.injEq] at hsend
    exact ⟨hsend.1.symm, hsend.2.1.symm⟩
  | shutdown =>
    simp only [TcpConnection.handle, shutdown, if_neg hstate, Except.ok.injEq,
      Prod.mk.injEq] at h
    exact ⟨h.1.symm, h.2.symm⟩
  | _ => exact he.elim

end Announced

/-! ### What a thread does in a step -/

variable {L : Type*}

/-- The loop whose thread takes a step. -/
def Act.loop : Act L → L
  | .poll l _ | .wakeup l | .accept l _ _ _ _ | .acceptFails l | .handleEvent l _ _ | .handle l _ _
  | .callback l | .closeCallback l | .call l _ _ | .setCallbacks l _ _ _ _ | .leave l
  | .queueUser l | .swap l | .functor l _ _ | .finish l | .endFunctors l => l

/-- The functors that a loop has, the one that is running first. -/
def Loop.holding (lp : Loop) : List Functor := lp.functor.toList ++ lp.queue

/-- A thread goes on by itself.  It comes by no functor but one of the program, starts the task
`gone` of the server, and makes the call `closed` of `closeCallback_`. -/
structure Goes (gone : Option TcpServer.Task) (closed : Option ℕ) (lp lp' : Loop) : Prop where
  holding : ∀ f ∈ lp'.holding, f ∈ lp.holding ∨ f = .user
  tasks : ∀ task, .server task ∈ lp.queue → .server task ∈ lp'.queue ∨ gone = some task
  calls : lp'.calls ⊆ lp.calls
  closing : ∀ conn, (conn, .closeCallback) ∈ lp.calls →
    (conn, .closeCallback) ∈ lp'.calls ∨ closed = some conn
  dispatching : lp.phase = .dispatching → lp'.phase = .dispatching ∨ lp.calls = []
  finished : (lp.phase = .functors → lp.functor = none → lp.Idle) →
    lp'.phase = .functors → lp'.functor = none → lp'.Idle

variable [DecidableEq L]

/-- What the thread of a loop does in a step: it goes on by itself, to `lp`, and then runs at most
one function. -/
inductive Does (s : State L) (a : Act L) : State L → Prop
  | goes {lp : Loop} (hgoes : Goes none none (s.loops a.loop) lp)
      (haccept : .acceptChannel ∈ lp.activeChannels →
        .acceptChannel ∈ (s.loops a.loop).activeChannels ∨ a.loop = s.server.loop) :
      Does s a (s.setLoop a.loop lp)
  /-- A function of a connection between `connectEstablished` and `connectDestroyed`. -/
  | runs {lp : Loop} {conn : ℕ} {p : TcpConnection × List Effect}
      (hgoes : Goes none none (s.loops a.loop) lp)
      (hactive : lp.activeChannels = (s.loops a.loop).activeChannels)
      (hon : s.On conn a.loop) (hindex : (s.conn conn).channel.index ≠ .kNew)
      (hfollows : Follows (s.conn conn) p.1) (hharmless : Harmless p.1 p.2)
      (hlast : Announced (s.conn conn) p)
      (hclose : .closeCallback ∈ p.2 → lp.phase = .dispatching)
      (hbusy : lp.phase = .functors → lp.functor = none → lp.inCallback = true) :
      Does s a ((s.setLoop a.loop lp).perform a.loop conn p)
  | establishes {lp : Loop} {conn : ℕ}
      (hgoes : Goes (some (.connectEstablished conn)) none (s.loops a.loop) lp)
      (hactive : lp.activeChannels = (s.loops a.loop).activeChannels)
      (hfunctor : lp.functor = some (.server (.connectEstablished conn)))
      (hmem : .server (.connectEstablished conn) ∈ (s.loops a.loop).queue) :
      Does s a ((s.setLoop a.loop lp).perform a.loop conn (s.conn conn).connectEstablished)
  | destroys {lp : Loop} {conn : ℕ}
      (hgoes : Goes (some (.connectDestroyed conn)) none (s.loops a.loop) lp)
      (hactive : lp.activeChannels = (s.loops a.loop).activeChannels)
      (hphase : (s.loops a.loop).phase = .functors) (hnone : (s.loops a.loop).functor = none)
      (hfunctor : lp.functor = some (.server (.connectDestroyed conn)))
      (hmem : .server (.connectDestroyed conn) ∈ (s.loops a.loop).queue) :
      Does s a ({ s.setLoop a.loop lp with destroyed := s.destroyed ++ [conn] }.perform a.loop conn
        (s.conn conn).connectDestroyed)
  | configures {conn : ℕ} {c : TcpConnection} (hon : s.On conn a.loop)
      (hstate : c.state = (s.conn conn).state) (hchannel : c.channel = (s.conn conn).channel) :
      Does s a (s.setConn conn c)
  | accepts {lp : Loop} {l : L} {writeCompleteCallback : Bool} {sockfd : ℤ}
      {localAddr peerAddr : InetAddress} {s' : State L}
      (ha : a = .accept l writeCompleteCallback sockfd localAddr peerAddr)
      (hgoes : Goes none none (s.loops l) lp)
      (hactive : lp.activeChannels ⊆ (s.loops l).activeChannels)
      (haccept : .acceptChannel ∈ (s.loops l).activeChannels) (hphase : lp.phase = .dispatching)
      (h : (s.setLoop l lp).newConnection l writeCompleteCallback sockfd localAddr peerAddr =
        some s') :
      Does s a s'
  /-- `removeConnection` on an IO loop. -/
  | asks {lp : Loop} {conn : ℕ} (hgoes : Goes none (some conn) (s.loops a.loop) lp)
      (hactive : lp.activeChannels = (s.loops a.loop).activeChannels)
      (hcall : (conn, .closeCallback) ∈ (s.loops a.loop).calls) (hne : a.loop ≠ s.server.loop) :
      Does s a ((s.setLoop a.loop lp).queueInLoop s.server.loop
        (.server (.removeConnectionInLoop conn)))
  /-- `removeConnectionInLoop`, called on the base loop or from its queue. -/
  | erases {lp : Loop} {conn : ℕ} {gone : Option TcpServer.Task} {closed : Option ℕ} {s' : State L}
      (hgoes : Goes gone closed (s.loops a.loop) lp)
      (hactive : lp.activeChannels = (s.loops a.loop).activeChannels)
      (hgone : ∀ task ∈ gone, task = .removeConnectionInLoop conn)
      (hclosed : ∀ i ∈ closed, i = conn)
      (hfrom : (conn, .closeCallback) ∈ (s.loops a.loop).calls ∧ a.loop = s.server.loop ∨
        .server (.removeConnectionInLoop conn) ∈ (s.loops a.loop).queue)
      (h : (s.setLoop a.loop lp).removeConnectionInLoop conn = some s') :
      Does s a s'

section Goes

variable {lp lp' : Loop} {f : Functor} {functors : List Functor} {conn : ℕ} {effect : Effect}
  {calls : List (ℕ × Effect)}

/-- A thread that leaves its functors and its calls alone. -/
theorem Goes.of_same (hfunctor : lp'.functor = lp.functor) (hqueue : lp'.queue = lp.queue)
    (hcalls : lp'.calls = lp.calls)
    (hdispatching : lp.phase = .dispatching → lp'.phase = .dispatching ∨ lp.calls = [])
    (hfinished : lp'.phase = .functors → lp'.functor = none → lp.Idle → lp'.Idle)
    (hphase : lp'.phase = .functors → lp.phase = .functors ∨ lp.Idle) :
    Goes none none lp lp' where
  holding f hf := by
    rw [Loop.holding, hfunctor, hqueue] at hf
    exact .inl hf
  tasks task hmem := .inl (hqueue ▸ hmem)
  calls := hcalls ▸ List.Subset.refl _
  closing conn hmem := .inl (hcalls ▸ hmem)
  dispatching := hdispatching
  finished h hp hnone := by
    refine hfinished hp hnone ?_
    rcases hphase hp with hphase | hidle
    · exact h hphase (hfunctor ▸ hnone)
    · exact hidle

/-- A callback of the program is called. -/
theorem Goes.call (hcalls : lp.calls = (conn, effect) :: calls)
    (heffect : effect ≠ .closeCallback) :
    Goes none none lp { lp with calls, inCallback := true } where
  holding f hf := .inl hf
  tasks task hmem := .inl hmem
  calls := hcalls ▸ List.subset_cons_self ..
  closing i hmem := by
    rw [hcalls, List.mem_cons] at hmem
    refine .inl (hmem.resolve_left fun heq => heffect ?_)
    cases heq
    rfl
  dispatching hphase := .inl hphase
  finished h hphase hnone := by
    have hnil := (h hphase hnone).1
    rw [hcalls] at hnil
    cases hnil

/-- `closeCallback_` is called. -/
theorem Goes.close (hcalls : lp.calls = (conn, .closeCallback) :: calls) :
    Goes none (some conn) lp { lp with calls } where
  holding f hf := .inl hf
  tasks task hmem := .inl hmem
  calls := hcalls ▸ List.subset_cons_self ..
  closing i hmem := by
    rw [hcalls, List.mem_cons] at hmem
    refine hmem.symm.imp id fun heq => ?_
    cases heq
    rfl
  dispatching hphase := .inl hphase
  finished h hphase hnone := by
    have hnil := (h hphase hnone).1
    rw [hcalls] at hnil
    cases hnil

/-- A functor leaves the batch and runs. -/
theorem Goes.start {gone : Option TcpServer.Task} {inCallback : Bool}
    (hfunctors : lp.functors = f :: functors)
    (hgone : ∀ task, f = .server task → gone = some task) :
    Goes gone none lp { lp with functor := some f, functors, inCallback } where
  holding f' hf := by
    simp only [Loop.holding, Loop.queue, hfunctors, Option.toList_some, List.cons_append,
      List.nil_append, List.mem_cons, List.mem_append] at hf ⊢
    exact .inl (.inr hf)
  tasks task hmem := by
    rw [Loop.queue, hfunctors, List.cons_append, List.mem_cons] at hmem
    exact hmem.symm.imp id fun heq => hgone task heq.symm
  calls := List.Subset.refl _
  closing conn hmem := .inl hmem
  dispatching hphase := .inl hphase
  finished _ _ hnone := nomatch hnone

theorem Goes.refl : Goes none none lp lp := .of_same rfl rfl rfl .inl (fun _ _ => id) .inl

end Goes

section Steps

variable {s s' : State L} {a : Act L} {l : L} {conn : ℕ} {erased : Set ℕ}

theorem State.handle_eq {e : Event} (h : s.handle l conn e = some s') :
    ∃ p, (s.conn conn).handle e = .ok p ∧ s' = s.perform l conn p := by
  unfold State.handle at h
  split at h
  · rename_i p hp
    cases h
    exact ⟨p, hp, rfl⟩
  · cases h

theorem State.perform_nil : s.perform l conn (s.conn conn, []) = s.setLoop l (s.loops l) := by
  simp [State.perform, State.setConn, queued, called]

/-- A call of the program: a function of a connected connection, or nothing. -/
theorem Inv.does_call (hI : Inv erased s) {e : Event} (hcallback : (s.loops l).inCallback = true)
    (hon : s.On conn l) (he : FromProgram e) (hlegal : e.Legal (s.conn conn))
    (hs : s.handle l conn e = some s') : Does s (.call l conn e) s' := by
  obtain ⟨p, hp, rfl⟩ := State.handle_eq hs
  by_cases hstate : (s.conn conn).state = .kConnected
  · obtain ⟨hfollows, hharmless⟩ := he.follows hlegal (hI.consistent conn) hp
    have hclose : .closeCallback ∉ p.2 := by
      cases e with
      | send buf w => exact closeCallback_notMem_send hp
      | sendBuffer buf w =>
        obtain ⟨⟨c₁, effects₁, buf'⟩, hsend, heq⟩ := bind_eq_ok.1 hp
        cases heq
        exact closeCallback_notMem_send (sendBuffer_eq_ok hlegal.1 hsend)
      | shutdown =>
        cases hp
        simp
      | _ => exact he.elim
    have hself : s.setLoop l (s.loops l) = s := by simp [State.setLoop]
    have hdoes := Does.runs (s := s) (a := .call l conn e) .refl rfl hon
      ((hI.consistent conn).connected hstate) hfollows hharmless
      (he.announced hlegal hp) (fun hmem => absurd hmem hclose) fun _ _ => hcallback
    rwa [Act.loop, hself] at hdoes
  · obtain ⟨hc, heffects⟩ := he.not_connected hstate hp
    obtain rfl : p = (s.conn conn, []) := Prod.ext hc heffects
    rw [State.perform_nil]
    exact .goes (a := .call l conn e) .refl .inl

/-- A functor leaves the batch and runs. -/
theorem Inv.does_functor (hI : Inv erased s) {f : Functor} {functors : List Functor}
    {w : WriteResult} (hphase : (s.loops l).phase = .functors)
    (hfunctor : (s.loops l).functor = none) (hfunctors : (s.loops l).functors = f :: functors)
    (hs : (s.setLoop l { s.loops l with functor := some f, functors }).runFunctor l w f = some s') :
    Does s (.functor l f w) s' := by
  have hmem : f ∈ (s.loops l).queue := by simp [Loop.queue, hfunctors]
  cases f with
  | server task =>
    have hgoes : Goes (some task) none (s.loops l)
        { s.loops l with functor := some (.server task), functors } :=
      .start hfunctors fun task' heq => by cases heq; rfl
    cases task with
    | connectEstablished conn =>
      cases hs
      exact .establishes (a := .functor l _ w) hgoes rfl rfl hmem
    | removeConnectionInLoop conn =>
      exact .erases (a := .functor l _ w) hgoes rfl (by simp) (by simp) (.inr hmem) hs
    | connectDestroyed conn =>
      cases hs
      exact .destroys (a := .functor l _ w) hgoes rfl hphase hfunctor rfl hmem
  | connection conn task =>
    have hallowed := (hI.loops l).queue _ hmem
    cases task with
    | sendInLoop message => exact hallowed.elim
    | shutdownInLoop => exact hallowed.elim
    | writeComplete | highWaterMark _ | user =>
      cases hs
      simp only [State.enterCallback, State.setLoop, Function.update_self,
        Function.update_idem]
      exact .goes (a := .functor l _ w) (.start hfunctors (by simp)) .inl
  | user =>
    cases hs
    simp only [State.enterCallback, State.setLoop, Function.update_self, Function.update_idem]
    exact .goes (a := .functor l _ w) (.start hfunctors (by simp)) .inl

/-- **What the thread of a loop does in a step.** -/
theorem Inv.does (hI : Inv erased s) (hst : (lts L).step s a s') : Does s a s' := by
  cases hst with
  | @poll l active hphase hactive =>
    refine .goes (a := .poll l active) (.of_same rfl rfl rfl (fun _ => .inl rfl) (by simp)
      (by simp)) fun hmem => .inr (hactive _ hmem)
  | @wakeup l active hidle hhandling hactive =>
    exact .goes (a := .wakeup l) (.of_same rfl rfl rfl .inl (fun _ _ => id) .inl)
      fun hmem => .inl (hactive ▸ List.mem_cons_of_mem _ hmem)
  | @acceptFails l active hidle hhandling hactive =>
    exact .goes (a := .acceptFails l) (.of_same rfl rfl rfl .inl (fun _ _ => id) .inl)
      fun hmem => .inl (hactive ▸ List.mem_cons_of_mem _ hmem)
  | @accept l active _ _ _ _ _ hidle hhandling hactive hs =>
    have hsub : active ⊆ (s.loops l).activeChannels := hactive ▸ List.subset_cons_self ..
    -- there are active channels, so the loop is dispatching
    have hphase : (s.loops l).phase = .dispatching := by
      by_contra hne
      have hnil := ((hI.loops l).idle hne).1
      rw [hactive] at hnil
      cases hnil
    have hgoes : Goes none none (s.loops l) { s.loops l with activeChannels := active } :=
      .of_same rfl rfl rfl .inl (fun _ _ => id) .inl
    exact .accepts rfl hgoes hsub
      (hactive ▸ List.mem_cons_self) hphase hs
  | @handleEvent l active conn revents guard hidle hhandling hactive hguard =>
    exact .goes (a := .handleEvent l conn guard)
      (.of_same rfl rfl rfl .inl (fun _ _ => id) .inl)
      fun hmem => .inl (hactive ▸ List.mem_cons_of_mem _ hmem)
  | @handleError l conn handler handling r w hidle hhandling he =>
    exact .goes (a := .handle l r w) (.of_same rfl rfl rfl .inl (fun _ _ => id) .inl) .inl
  | @handle l conn handler handling r w e s' hidle hhandling he hlegal hs =>
    obtain ⟨hon, hindex⟩ := (hI.loops l).dispatching conn (by simp [Loop.dispatching, hhandling])
    obtain ⟨p, hp, rfl⟩ := State.handle_eq hs
    -- the handler follows the life of a connection
    obtain ⟨hfollows, hharmless⟩ := follows_event he (hI.consistent conn) hindex hp
    have hphase : (s.loops l).phase = .dispatching := by
      by_contra hne
      have hnil := ((hI.loops l).idle hne).2
      rw [hhandling] at hnil
      cases hnil
    refine .runs (a := .handle l r w) (.of_same rfl rfl rfl .inl (fun _ _ => id) .inl) rfl hon
      hindex hfollows hharmless (announced_event he hp) (fun _ => hphase)
      fun hfunctors => ?_
    cases hphase.symm.trans hfunctors
  | @callback l conn effect calls hcallback hcalls heffect =>
    exact .goes (a := .callback l) (.call hcalls heffect) .inl
  | @closeCallback l conn calls s' hcallback hcalls hs =>
    have hcall : (conn, .closeCallback) ∈ (s.loops l).calls := hcalls ▸ List.mem_cons_self
    unfold State.removeConnection State.runInLoop at hs
    split_ifs at hs with hbase
    · -- the base loop erases the entry itself
      exact .erases (a := .closeCallback l) (.close hcalls) rfl (by simp) (by simp)
        (.inl ⟨hcall, hbase⟩) hs
    · cases hs
      exact .asks (a := .closeCallback l) (.close hcalls) rfl hcall hbase
  | call hcallback hon he hlegal hs => exact hI.does_call hcallback hon he hlegal hs
  | @setCallbacks l conn wc hw mark hcallback hon =>
    exact .configures (a := .setCallbacks l conn wc hw mark) hon rfl rfl
  | @leave l hcallback =>
    exact .goes (a := .leave l)
      (.of_same rfl rfl rfl .inl (fun _ _ hidle => ⟨hidle.1, rfl⟩) .inl) .inl
  | @queueUser l =>
    refine .goes (a := .queueUser l) ⟨fun f hf => ?_, fun task hmem => .inl ?_,
      List.Subset.refl _, fun _ => .inl, .inl, id⟩ .inl
    · simpa [Act.loop, Loop.holding, Loop.queue, or_assoc] using hf
    · simp only [Loop.queue, List.mem_append] at hmem ⊢
      exact hmem.imp_right .inl
  | @swap l hphase hidle hhandling hactive =>
    -- the batch is empty: its place is taken by `pendingFunctors_`
    have hqueue : (s.loops l).queue = (s.loops l).pendingFunctors ++ [] := by
      rw [Loop.queue, (hI.loops l).batch (by simp [hphase]), List.nil_append, List.append_nil]
    exact .goes (a := .swap l) (.of_same rfl hqueue.symm rfl (fun _ => .inr hidle.1)
      (fun _ _ => id) fun _ => .inr hidle) .inl
  | functor hphase hfunctor hfunctors hs => exact hI.does_functor hphase hfunctor hfunctors hs
  | @finish l hphase hidle =>
    refine .goes (a := .finish l) ⟨fun f hf => .inl ?_, fun _ => .inl, List.Subset.refl _,
      fun _ => .inl, .inl, fun _ _ _ => hidle⟩ .inl
    exact List.mem_append_right _ hf
  | @endFunctors l hphase hfunctor hfunctors =>
    refine .goes (a := .endFunctors l) (.of_same rfl rfl rfl (fun hd => ?_) (by simp) (by simp))
      .inl
    cases hphase.symm.trans hd

end Steps

/-! ### What the functions of the server do -/

section Functions

variable {s s' : State L} {l l' : L} {conn i : ℕ} {f : Functor} {lp : Loop}
  {p : TcpConnection × List Effect}

theorem State.loops_setLoop :
    (s.setLoop l lp).loops l' = if l' = l then lp else s.loops l' := Function.update_apply ..

omit [DecidableEq L] in
theorem State.conn_setConn {c : TcpConnection} :
    (s.setConn conn c).conn i = if i = conn then c else s.conn i := Function.update_apply ..

theorem State.conn_perform :
    (s.perform l conn p).conn i = if i = conn then p.1 else s.conn i := Function.update_apply ..

theorem State.loops_perform :
    (s.perform l conn p).loops l' = if l' = l then { s.loops l with
      pendingFunctors := (s.loops l).pendingFunctors ++ queued conn p.2
      calls := called conn p.2 ++ (s.loops l).calls } else s.loops l' := Function.update_apply ..

theorem State.loops_queueInLoop :
    (s.queueInLoop l f).loops l' = if l' = l then
      { s.loops l with pendingFunctors := (s.loops l).pendingFunctors ++ [f] }
    else s.loops l' := Function.update_apply ..

/-- `removeConnectionInLoop` erases the entry of a connection and queues its end. -/
theorem State.removeConnectionInLoop_eq (h : s.removeConnectionInLoop conn = some s') :
    ∃ c, s.server.made[conn]? = some c ∧ s' = { s with server := { s.server with
      connections := Function.update s.server.connections c.name none } }.queueInLoop c.ioLoop
        (.server (.connectDestroyed conn)) := by
  unfold State.removeConnectionInLoop at h
  split at h
  · rename_i server ioLoop task hremove
    cases h
    obtain ⟨c, hc, rfl, rfl, rfl⟩ := TcpServer.removeConnectionInLoop_eq hremove
    exact ⟨c, hc, rfl⟩
  · cases h

/-- A connection that `newConnection` has just made. -/
def fresh (writeCompleteCallback : Bool) : TcpConnection :=
  { TcpConnection.create with writeCompleteCallback }

/-- `newConnection` makes a connection, and has it established on its loop. -/
theorem State.newConnection_eq {writeCompleteCallback : Bool} {sockfd : ℤ}
    {localAddr peerAddr : InetAddress}
    (h : s.newConnection l writeCompleteCallback sockfd localAddr peerAddr = some s') :
    ∃ server ioLoop, server.loop = s.server.loop ∧
      server.made = s.server.made ++ [⟨ioLoop, s.server.connName, sockfd, localAddr, peerAddr⟩] ∧
      server.connections =
        Function.update s.server.connections s.server.connName (some s.server.made.length) ∧
      (l = ioLoop ∧ s' = ({ s with server }.setConn s.server.made.length
          (fresh writeCompleteCallback)).perform l s.server.made.length
            (fresh writeCompleteCallback).connectEstablished ∨
        l ≠ ioLoop ∧ s' = ({ s with server }.setConn s.server.made.length
          (fresh writeCompleteCallback)).queueInLoop ioLoop
            (.server (.connectEstablished s.server.made.length))) := by
  unfold State.newConnection at h
  split at h
  · rename_i server ioLoop task hnew
    have hloop : server.loop = s.server.loop := by
      unfold TcpServer.newConnection at hnew
      simp only at hnew
      split_ifs at hnew
      cases hnew
      rfl
    obtain ⟨-, -, -, -, hconns, hmade, -, rfl⟩ := TcpServer.newConnection_eq hnew
    refine ⟨server, ioLoop, hloop, hmade, hconns, ?_⟩
    unfold State.runInLoop at h
    split_ifs at h with heq
    · cases h
      refine .inl ⟨heq, ?_⟩
      have hself : (({ s with server }.setConn s.server.made.length
          (fresh writeCompleteCallback)).conn s.server.made.length) =
            fresh writeCompleteCallback := Function.update_self ..
      exact congrArg (fun c => State.perform _ l _ (connectEstablished c)) hself
    · cases h
      exact .inr ⟨heq, rfl⟩
  · cases h

end Functions

/-! ### Custody -/

/-- What a loop may have: functors about its own connections, and on the base loop the removals. -/
def State.Mine (s : State L) (l : L) : Functor → Prop
  | .server (.connectEstablished conn) | .server (.connectDestroyed conn) => s.On conn l
  | .server (.removeConnectionInLoop _) => l = s.server.loop
  | .connection conn _ => s.On conn l
  | .user => True

/-- What a loop `l` has is its own. -/
structure LoopCustody (s : State L) (l : L) (lp : Loop) : Prop where
  mine : ∀ f ∈ lp.holding, s.Mine l f
  calls : ∀ call ∈ lp.calls, s.On call.1 l
  accepts : .acceptChannel ∈ lp.activeChannels → l = s.server.loop
  /-- `closeCallback_` is called while the loop dispatches, before the end of the connection. -/
  closing : ∀ conn, (conn, .closeCallback) ∈ lp.calls →
    lp.phase = .dispatching ∧ (s.conn conn).channel.index ≠ .kNew
  finished : lp.phase = .functors → lp.functor = none → lp.Idle

/-- What the loops have is their own. -/
def Custody (s : State L) : Prop := ∀ l, LoopCustody s l (s.loops l)

section Custody

variable {s s' : State L} {l l' : L} {lp lp' : Loop} {conn : ℕ} {c : TcpConnection}
  {gone : Option TcpServer.Task} {closed : Option ℕ} {f : Functor}

omit [DecidableEq L] in
theorem LoopCustody.mono (h : LoopCustody s l lp) (hon : ∀ conn, s.On conn l → s'.On conn l)
    (hloop : s'.server.loop = s.server.loop)
    (hindex : ∀ conn, (conn, .closeCallback) ∈ lp.calls →
      (s'.conn conn).channel.index ≠ .kNew) : LoopCustody s' l lp := by
  refine ⟨fun f hf => ?_, fun call hcall => hon _ (h.calls call hcall), fun hmem => ?_,
    fun conn hmem => ⟨(h.closing conn hmem).1, hindex conn hmem⟩, h.finished⟩
  · have hmine := h.mine f hf
    cases f with
    | server task =>
      cases task with
      | connectEstablished conn => exact hon conn hmine
      | removeConnectionInLoop conn => exact hmine.trans hloop.symm
      | connectDestroyed conn => exact hon conn hmine
    | connection conn task => exact hon conn hmine
    | user => trivial
  · exact (h.accepts hmem).trans hloop.symm

omit [DecidableEq L] in
/-- A thread that goes on by itself. -/
theorem LoopCustody.goes (h : LoopCustody s l lp) (hgoes : Goes gone closed lp lp')
    (haccept : .acceptChannel ∈ lp'.activeChannels →
      .acceptChannel ∈ lp.activeChannels ∨ l = s.server.loop) : LoopCustody s l lp' where
  mine f hf := by
    rcases hgoes.holding f hf with hf | rfl
    · exact h.mine f hf
    · trivial
  calls call hcall := h.calls call (hgoes.calls hcall)
  accepts hmem := (haccept hmem).elim h.accepts id
  closing conn hmem := by
    obtain ⟨hphase, hindex⟩ := h.closing conn (hgoes.calls hmem)
    refine ⟨(hgoes.dispatching hphase).resolve_right fun hnil => ?_, hindex⟩
    have hmem' := hgoes.calls hmem
    rw [hnil] at hmem'
    cases hmem'
  finished := hgoes.finished h.finished

omit [DecidableEq L] in
/-- A loop with more functors and other calls. -/
theorem LoopCustody.push (h : LoopCustody s l lp) {fs : List Functor} {calls : List (ℕ × Effect)}
    (hfs : ∀ f ∈ fs, s.Mine l f) (hcalls : ∀ call ∈ calls, s.On call.1 l)
    (hclosing : ∀ conn, (conn, .closeCallback) ∈ calls →
      lp.phase = .dispatching ∧ (s.conn conn).channel.index ≠ .kNew)
    (hfinished : lp.phase = .functors → lp.functor = none → calls = []) :
    LoopCustody s l { lp with
      pendingFunctors := lp.pendingFunctors ++ fs
      calls := calls ++ lp.calls } where
  mine f hf := by
    have hf' : f ∈ lp.holding ∨ f ∈ fs := by
      simpa [Loop.holding, Loop.queue, or_assoc] using hf
    exact hf'.elim (h.mine f) (hfs f)
  calls call hcall := (List.mem_append.1 hcall).elim (hcalls call) (h.calls call)
  accepts := h.accepts
  closing conn hmem := (List.mem_append.1 hmem).elim (hclosing conn) (h.closing conn)
  finished hphase hnone := by
    obtain ⟨hnil, hcallback⟩ := h.finished hphase hnone
    exact ⟨by simp [hfinished hphase hnone, hnil], hcallback⟩

theorem Custody.setLoop (h : Custody s) (hlp : LoopCustody s l lp) :
    Custody (s.setLoop l lp) := by
  intro l'
  have hl' : LoopCustody s l' ((s.setLoop l lp).loops l') := by
    rw [State.loops_setLoop]
    split_ifs with heq
    · exact heq ▸ hlp
    · exact h l'
  exact hl'.mono (fun _ => id) rfl fun conn hmem => (hl'.closing conn hmem).2

omit [DecidableEq L] in
/-- A connection changes, and does not leave the poller before its `closeCallback_`. -/
theorem Custody.setConn (h : Custody s)
    (hindex : (∃ l, (conn, .closeCallback) ∈ (s.loops l).calls) → c.channel.index ≠ .kNew) :
    Custody (s.setConn conn c) := by
  intro l
  refine (h l).mono (fun _ => id) rfl fun i hmem => ?_
  rw [State.conn_setConn]
  split_ifs with heq
  · exact hindex ⟨l, heq ▸ hmem⟩
  · exact ((h l).closing i hmem).2

theorem Custody.queueInLoop (h : Custody s) (hf : s.Mine l f) : Custody (s.queueInLoop l f) :=
  have hmine : ∀ f' ∈ [f], s.Mine l f' := by simpa using hf
  have hcalls : ∀ call ∈ ([] : List (ℕ × Effect)), s.On call.1 l := nofun
  h.setLoop ((h l).push hmine hcalls nofun fun _ _ => rfl)

omit [DecidableEq L] in
/-- The server changes: connections are made, and entries are erased. -/
theorem Custody.setServer {server : TcpServer L} (h : Custody s)
    (hmade : s.server.made <+: server.made) (hloop : server.loop = s.server.loop) :
    Custody { s with server } := by
  intro l
  refine (h l).mono (fun conn => ?_) hloop fun conn hmem => ((h l).closing conn hmem).2
  rintro ⟨c, hc, hon⟩
  obtain ⟨rest, hrest⟩ := hmade
  refine ⟨c, ?_, hon⟩
  rw [← hrest, List.getElem?_append_left (List.getElem?_eq_some_iff.1 hc).1]
  exact hc

/-- What a function queues and what it has still to call. -/
theorem Custody.effects {p : TcpConnection × List Effect} (h : Custody (s.setConn conn p.1))
    (hon : s.On conn l) (hclose : .closeCallback ∈ p.2 → (s.loops l).phase = .dispatching ∧
      p.1.channel.index ≠ .kNew)
    (hbusy : (s.loops l).phase = .functors → (s.loops l).functor = none → called conn p.2 = []) :
    Custody (s.perform l conn p) := by
  refine h.setLoop ((h l).push (fun f hf => ?_) (fun call hcall => ?_) (fun i hmem => ?_) hbusy)
  · obtain ⟨effect, -, heq⟩ := List.mem_filterMap.1 hf
    cases effect with
    | queueInLoop task =>
      cases heq
      exact hon
    | _ => cases heq
  · obtain ⟨effect, -, heq⟩ := List.mem_filterMap.1 hcall
    cases effect <;> cases heq <;> exact hon
  · obtain ⟨effect, heffect, heq⟩ := List.mem_filterMap.1 hmem
    cases effect with
    | closeCallback =>
      cases heq
      rw [State.conn_setConn, if_pos rfl]
      exact hclose heffect
    | _ => cases heq

end Custody

section Step

variable {s s' : State L} {a : Act L} {l : L} {conn : ℕ} {erased : Set ℕ}

omit [DecidableEq L] in
/-- A connection whose `closeCallback_` is still to be called is on the loop that calls it. -/
theorem Custody.not_closing (h : Custody s) (hon : s.On conn l)
    (hphase : (s.loops l).phase = .functors) (hnone : (s.loops l).functor = none) (l' : L) :
    (conn, .closeCallback) ∉ (s.loops l').calls := by
  intro hmem
  obtain rfl := ((h l').calls _ hmem).unique hon
  rw [((h l').finished hphase hnone).1] at hmem
  cases hmem

/-- The calls of a thread that goes on by itself. -/
theorem Goes.closing_setLoop {gone : Option TcpServer.Task} {closed : Option ℕ} {lp : Loop}
    (hgoes : Goes gone closed (s.loops l) lp)
    (h : ∃ l', (conn, .closeCallback) ∈ ((s.setLoop l lp).loops l').calls) :
    ∃ l', (conn, .closeCallback) ∈ (s.loops l').calls := by
  obtain ⟨l', hmem⟩ := h
  rw [State.loops_setLoop] at hmem
  split_ifs at hmem with heq
  · exact ⟨l, hgoes.calls hmem⟩
  · exact ⟨l', hmem⟩

/-- **What a loop has stays its own.** -/
theorem Custody.step (h : Custody s) (hI : Inv erased s) (hdoes : Does s a s') : Custody s' := by
  cases hdoes with
  | goes hgoes haccept => exact h.setLoop ((h _).goes hgoes haccept)
  | @runs lp conn p hgoes hactive hon hindex hfollows hharmless hlast hclose hbusy =>
    have hlp := (h _).goes hgoes fun hmem => .inl (hactive ▸ hmem)
    have hindex' : p.1.channel.index ≠ .kNew := fun hnew => hindex (hfollows.index.1 hnew)
    refine ((h.setLoop hlp).setConn fun _ => hindex').effects hon (fun hmem => ?_) fun hp hn => ?_
    · rw [State.loops_setLoop, if_pos rfl]
      exact ⟨hclose hmem, hindex'⟩
    · rw [State.loops_setLoop, if_pos rfl] at hp hn
      have hidle := (hlp.finished hp hn).2
      rw [hbusy hp hn] at hidle
      cases hidle
  | @establishes lp conn hgoes hactive hfunctor hmem =>
    have hlp := (h _).goes hgoes fun hmem => .inl (hactive ▸ hmem)
    have hon : s.On conn a.loop := ((hI.loops _).queue _ hmem).1
    refine ((h.setLoop hlp).setConn fun _ => Channel.index_update_ne).effects hon
      (fun hmem => ?_) fun _ hn => ?_
    · simp [connectEstablished] at hmem
    · rw [State.loops_setLoop, if_pos rfl, hfunctor] at hn
      cases hn
  | @destroys lp conn hgoes hactive hphase hnone hfunctor hmem =>
    have hlp := (h _).goes hgoes fun hmem => .inl (hactive ▸ hmem)
    obtain ⟨hon, hclosed⟩ := (hI.loops _).queue _ hmem
    rw [connectDestroyed_of_closed hclosed.2]
    have hloop : Custody (s.setLoop a.loop lp) := h.setLoop hlp
    have hcustody : Custody
        { s.setLoop a.loop lp with destroyed := s.destroyed ++ [conn] } := fun l => ?_
    · refine (hcustody.setConn fun hclosing => ?_).effects hon (by simp) fun _ _ => rfl
      obtain ⟨l', hmem'⟩ := hgoes.closing_setLoop hclosing
      exact absurd hmem' (h.not_closing hon hphase hnone l')
    · exact (hloop l).mono (fun _ => id) rfl fun conn hmem => ((hloop l).closing conn hmem).2
  | configures hon hstate hchannel =>
    refine h.setConn fun hclosing => ?_
    obtain ⟨l, hmem⟩ := hclosing
    rw [hchannel]
    exact ((h l).closing _ hmem).2
  | @accepts lp l wc sockfd localAddr peerAddr s' ha hgoes hactive haccept hphase hs =>
    have hlp := (h l).goes hgoes fun hmem => .inl (hactive hmem)
    obtain ⟨server, ioLoop, hloop, hmade, -, hcases⟩ := State.newConnection_eq hs
    have hserver : Custody { s.setLoop l lp with server } :=
      (h.setLoop hlp).setServer ⟨_, hmade.symm⟩ hloop
    have hon : ∃ c, server.made[s.server.made.length]? = some c ∧ c.ioLoop = ioLoop :=
      ⟨_, by rw [hmade]; exact List.getElem?_concat_length, rfl⟩
    -- no call is about the new connection
    have hfresh (c : TcpConnection) : Custody
        ({ s.setLoop l lp with server }.setConn s.server.made.length c) := by
      refine hserver.setConn fun hclosing => ?_
      obtain ⟨l', hmem⟩ := hgoes.closing_setLoop hclosing
      exact absurd ((h l').calls _ hmem).lt (lt_irrefl _)
    rcases hcases with ⟨rfl, rfl⟩ | ⟨-, rfl⟩
    · refine Custody.effects ?_ hon (fun hmem => ?_) fun hp hn => ?_
      · rw [State.setConn, State.setConn, Function.update_idem]
        exact hfresh _
      · simp [connectEstablished] at hmem
      · have hlp' : (s.setLoop l lp).loops l = lp := Function.update_self ..
        simp only [State.setConn, hlp', hphase] at hp
        cases hp
    · exact (hfresh _).queueInLoop hon
  | asks hgoes hactive hcall hne =>
    have hlp := (h _).goes hgoes fun hmem => .inl (hactive ▸ hmem)
    exact (h.setLoop hlp).queueInLoop rfl
  | @erases lp conn gone closed s' hgoes hactive hgone hclosed hfrom hs =>
    have hlp := (h _).goes hgoes fun hmem => .inl (hactive ▸ hmem)
    obtain ⟨c, hc, rfl⟩ := State.removeConnectionInLoop_eq hs
    refine Custody.queueInLoop ((h.setLoop hlp).setServer ?_ ?_) ?_
    · exact List.prefix_rfl
    · rfl
    · exact ⟨c, hc, rfl⟩

end Step

/-! ### Confinement -/

section Confined

variable {s s' : State L} {a : Act L} {conn : ℕ} {erased : Set ℕ} {loop : L}
  {listenAddr : InetAddress} {name : List UInt8} {loops : List L}

omit [DecidableEq L] in
theorem custody_init : Custody (State.init loop listenAddr name loops) := fun l =>
  ⟨by simp [State.init, Loop.init, Loop.holding, Loop.queue], by simp [State.init, Loop.init],
    by simp [State.init, Loop.init], by simp [State.init, Loop.init],
    fun hphase => by simp [State.init, Loop.init] at hphase⟩

/-- The invariants of the server and its loops. -/
theorem exists_inv (h : (lts L).Reachable (State.init loop listenAddr name loops) s) :
    ∃ erased, Inv erased s ∧ Custody s :=
  h.invariant (I := fun s => ∃ erased, Inv erased s ∧ Custody s) ⟨∅, .init, custody_init⟩
    fun s a s' ⟨erased, hI, hC⟩ hst => by
      obtain ⟨erased', hI'⟩ := hI.step hst
      exact ⟨erased', hI', hC.step hI (hI.does hst)⟩

/-- What a thread of the loop `l` may give another loop `l'`: the beginning or the end of a
connection that runs on `l'`, or, to the base loop, the removal of one that runs on `l`. -/
def State.Handed (s : State L) (l l' : L) : TcpServer.Task → Prop
  | .connectEstablished conn | .connectDestroyed conn => s.On conn l'
  | .removeConnectionInLoop conn => l' = s.server.loop ∧ s.On conn l

/-- What the thread of a loop may do to the rest of the server in a step. -/
structure Confined (s : State L) (a : Act L) (s' : State L) : Prop where
  /-- A connection that has been made only changes on its own loop. -/
  conn : ∀ conn < s.server.made.length, s'.conn conn ≠ s.conn conn → s.On conn a.loop
  /-- The others only change when the base loop makes them. -/
  unmade : ∀ conn, s.server.made.length ≤ conn → s'.conn conn ≠ s.conn conn →
    a.loop = s.server.loop ∧ conn < s'.server.made.length
  /-- `connections_` and the rest of the server belong to the base loop. -/
  server : s'.server ≠ s.server → a.loop = s.server.loop
  /-- Another loop is given a task of the server, behind all that it has, or nothing. -/
  others : ∀ l ≠ a.loop, s'.loops l = s.loops l ∨ ∃ task, s'.Handed a.loop l task ∧
    s'.loops l =
      { s.loops l with pendingFunctors := (s.loops l).pendingFunctors ++ [.server task] }

omit [DecidableEq L] in
/-- A thread that changes one of its own connections. -/
theorem Confined.of_conn (hserver : s'.server = s.server) (hon : s.On conn a.loop)
    (hconn : ∀ i, i ≠ conn → s'.conn i = s.conn i)
    (hloops : ∀ l ≠ a.loop, s'.loops l = s.loops l) : Confined s a s' where
  conn i _ hne := by
    obtain rfl : i = conn := by_contra fun h => hne (hconn i h)
    exact hon
  unmade i hle hne := by
    obtain rfl : i = conn := by_contra fun h => hne (hconn i h)
    exact absurd hon.lt (Nat.not_lt.2 hle)
  server hne := absurd hserver hne
  others l hl := .inl (hloops l hl)

/-- A function of a connection on its loop. -/
theorem Confined.perform {lp : Loop} {p : TcpConnection × List Effect} {destroyed : List ℕ}
    (hon : s.On conn a.loop) :
    Confined s a ({ s.setLoop a.loop lp with destroyed }.perform a.loop conn p) := by
  refine .of_conn rfl hon (fun i hne => ?_) fun l hne => ?_
  · rw [State.conn_perform, if_neg hne]
    rfl
  · rw [State.loops_perform, if_neg hne]
    exact State.loops_setLoop.trans (if_neg hne)

end Confined

end ServerLoops

end TinyNetwork
