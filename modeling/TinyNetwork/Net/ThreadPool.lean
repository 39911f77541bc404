import TinyNetwork.Base.Turns
import TinyNetwork.Net.Custody

/-!
# `EventLoopThreadPool`

The pool of a server starts its threads, each of which returns its loop, and deals the connections
out to the loops by turns.

## Main results

* `projects_server` : what the loops do to the server are calls of its functions.
* `dealt_by_turns` : the connections are dealt out by turns, and so evenly.
-/

namespace TinyNetwork

namespace EventLoopThreadPool

variable {L : Type*} {pool : EventLoopThreadPool L}

/-- The constructor. -/
def create (baseLoop : L) : EventLoopThreadPool L := ⟨baseLoop, [], 0⟩

/-- `start(cb)` with `numThreads_` threads: `startLoop` returns the loop of the thread with this
name. -/
def start (pool : EventLoopThreadPool L) (name : List UInt8) (numThreads : ℕ)
    (startLoop : List UInt8 → L) : EventLoopThreadPool L :=
  { pool with loops := pool.loops ++
    (List.range numThreads).map fun i =>
      startLoop (snprintf (name.length + 32) (name ++ decimal i)) }

/-- `getAllLoops()`. -/
def getAllLoops (pool : EventLoopThreadPool L) : List L :=
  if pool.loops.isEmpty then [pool.baseLoop] else pool.loops

/-- `getNextLoop` has been called `n` times. -/
def Turn (pool : EventLoopThreadPool L) (n : ℕ) : Prop :=
  pool.loops = [] ∨ pool.next = n % pool.loops.length

/-- `getNextLoop` returns the loops by turns. -/
theorem Turn.getNextLoop {n : ℕ} (h : pool.Turn n) :
    pool.getAllLoops[n % pool.getAllLoops.length]? = some pool.getNextLoop.1 ∧
      pool.getNextLoop.2.Turn (n + 1) ∧ pool.getNextLoop.2.getAllLoops = pool.getAllLoops := by
  rcases h with hnil | hnext
  · simp [EventLoopThreadPool.getNextLoop, getAllLoops, Turn, hnil, Nat.mod_one]
  by_cases hnil : pool.loops = []
  · simp [EventLoopThreadPool.getNextLoop, getAllLoops, Turn, hnil, Nat.mod_one]
  have hpos : 0 < pool.loops.length := List.length_pos_iff.2 hnil
  have hlt : pool.next < pool.loops.length := hnext ▸ Nat.mod_lt _ hpos
  have hall : pool.getAllLoops = pool.loops := by simp [getAllLoops, hnil]
  have hget : pool.getNextLoop = (pool.loops[pool.next], { pool with
      next := if pool.loops.length ≤ pool.next + 1 then 0 else pool.next + 1 }) := by
    rw [EventLoopThreadPool.getNextLoop, List.getElem?_eq_getElem hlt]
  rw [hget]
  refine ⟨?_, .inr ?_, ?_⟩
  · rw [hall, ← hnext]
    exact List.getElem?_eq_getElem hlt
  · -- the next place, or the first one again
    have hsucc : (n + 1) % pool.loops.length = (pool.next + 1) % pool.loops.length := by
      rw [hnext, Nat.mod_add_mod]
    rw [hsucc]
    split_ifs with hle
    · rw [show pool.next + 1 = pool.loops.length by omega, Nat.mod_self]
    · rw [Nat.mod_eq_of_lt (by omega)]
  · rfl

end EventLoopThreadPool

namespace TcpServer

variable {L : Type*} {s s' : TcpServer L} {loop : L} {sockfd : ℤ}
  {localAddr peerAddr : InetAddress} {task : Task} {a : Act}

/-- The connections have been dealt out to `loops` by turns. -/
structure Dealt (loops : List L) (s : TcpServer L) : Prop where
  pool : s.threadPool.getAllLoops = loops
  turn : s.threadPool.Turn s.made.length
  turns : Turns loops (s.made.map Connection.ioLoop)

theorem Dealt.newConnection {loops : List L} (h : Dealt loops s)
    (hs : s.newConnection sockfd localAddr peerAddr = some (s', loop, task)) : Dealt loops s' := by
  obtain ⟨hloop, hturn, hloops⟩ := h.turn.getNextLoop
  unfold TcpServer.newConnection at hs
  simp only at hs
  split_ifs at hs
  cases hs
  refine ⟨hloops.trans h.pool, ?_, ?_⟩
  · rw [List.length_append, List.length_singleton]
    exact hturn
  · rw [List.map_append]
    refine h.turns.concat ?_
    rw [List.length_map, ← h.pool]
    exact hloop

theorem Dealt.step {loops : List L} (h : Dealt loops s) (hst : (lts L).step s a s') :
    Dealt loops s' := by
  obtain ⟨⟨loop, task⟩, hs⟩ := hst
  cases a with
  | newConnection sockfd localAddr peerAddr => exact h.newConnection hs
  | removeConnectionInLoop conn =>
    obtain ⟨c, -, rfl, -⟩ := removeConnectionInLoop_eq hs
    exact ⟨h.pool, h.turn, h.turns⟩

theorem Dealt.create {listenAddr : InetAddress} {name : List UInt8} {loops : List L} :
    Dealt (EventLoopThreadPool.getAllLoops ⟨loop, loops, 0⟩)
      (TcpServer.create loop listenAddr name loops) where
  pool := rfl
  turn := .inr (Nat.zero_mod _).symm
  turns := .nil

end TcpServer

namespace ServerLoops

variable {L : Type*} [DecidableEq L] {s s' : State L} {l target : L} {conn : ℕ}
  {task : TcpServer.Task}

/-! ### The server of the loops -/

/-- The server has not changed, or one of its functions has been called. -/
def Serves (server server' : TcpServer L) : Prop :=
  server' = server ∨ ∃ act, (TcpServer.lts L).step server act server'

omit [DecidableEq L] in
theorem Serves.refl {server : TcpServer L} : Serves server server := .inl rfl

theorem serves_handle {e : TcpConnection.Event} (h : s.handle l conn e = some s') :
    Serves s.server s'.server := by
  obtain ⟨p, -, rfl⟩ := State.handle_eq h
  exact .refl

theorem serves_runTask (h : s.runTask l task = some s') : Serves s.server s'.server := by
  cases task with
  | connectEstablished conn =>
    cases h
    exact .refl
  | removeConnectionInLoop conn =>
    change s.removeConnectionInLoop conn = some s' at h
    unfold State.removeConnectionInLoop at h
    split at h
    · rename_i server ioLoop task hserver
      cases h
      exact .inr ⟨.removeConnectionInLoop conn, _, hserver⟩
    · cases h
  | connectDestroyed conn =>
    cases h
    exact .refl

theorem serves_runInLoop (h : s.runInLoop l target task = some s') :
    Serves s.server s'.server := by
  unfold State.runInLoop at h
  split_ifs at h
  · exact serves_runTask h
  · cases h
    exact .refl

theorem serves_newConnection {writeCompleteCallback : Bool} {sockfd : ℤ}
    {localAddr peerAddr : InetAddress}
    (h : s.newConnection l writeCompleteCallback sockfd localAddr peerAddr = some s') :
    Serves s.server s'.server := by
  unfold State.newConnection at h
  split at h
  · rename_i server ioLoop task hserver
    have hserves : (TcpServer.lts L).step s.server (.newConnection sockfd localAddr peerAddr)
        server := ⟨_, hserver⟩
    obtain ⟨-, -, -, -, -, -, -, rfl⟩ := TcpServer.newConnection_eq hserver
    unfold State.runInLoop at h
    split_ifs at h <;> cases h <;> exact .inr ⟨_, hserves⟩
  · cases h

theorem serves_runFunctor {w : WriteResult} {f : Functor} (h : s.runFunctor l w f = some s') :
    Serves s.server s'.server := by
  cases f with
  | server task => exact serves_runTask h
  | user =>
    cases h
    exact .refl
  | connection conn task =>
    cases task with
    | sendInLoop message => exact serves_handle h
    | shutdownInLoop =>
      have hs : s.handle l conn .shutdownInLoop = some s' := h
      exact serves_handle hs
    | _ =>
      cases h
      exact .refl

/-- **What the loops do to the server are calls of its functions.** -/
theorem projects_server : (lts L).Projects (TcpServer.lts L) State.server := by
  intro s a s' hst
  cases hst with
  | accept hidle hhandling hactive h => exact (serves_newConnection h :)
  | handle hidle hhandling he hlegal h => exact (serves_handle h :)
  | closeCallback hcallback hcalls h =>
    unfold State.removeConnection at h
    exact (serves_runInLoop h :)
  | call hcallback hon he hlegal h => exact (serves_handle h :)
  | functor hphase hfunctor hfunctors h => exact (serves_runFunctor h :)
  | _ => exact .inl rfl

variable {loop : L} {listenAddr : InetAddress} {name : List UInt8} {loops : List L}

/-- **The connections are dealt out evenly.**  Whatever the loops of a server do, its `i`-th
connection runs on the loop whose turn it was, and none of the loops of the pool has been given two
connections more than another one. -/
theorem dealt_by_turns (hnodup : loops.Nodup)
    (h : (lts L).Reachable (State.init loop listenAddr name loops) s) :
    let all := EventLoopThreadPool.getAllLoops ⟨loop, loops, 0⟩
    (∀ i c, s.server.made[i]? = some c → all[i % all.length]? = some c.ioLoop) ∧
      ∀ l ∈ all, ∀ l' ∈ all, (s.server.made.map TcpServer.Connection.ioLoop).count l ≤
        (s.server.made.map TcpServer.Connection.ioLoop).count l' + 1 := by
  intro all
  have hdealt : TcpServer.Dealt all s.server :=
    (projects_server.reachable h).invariant TcpServer.Dealt.create fun _ _ _ hI hst => hI.step hst
  have hall : all.Nodup := by
    change (if loops.isEmpty then [loop] else loops).Nodup
    split_ifs
    · exact List.nodup_singleton loop
    · exact hnodup
  refine ⟨fun i c hc => hdealt.turns i _ ?_, fun l hl l' hl' => hdealt.turns.count_le hall hl hl'⟩
  rw [List.getElem?_map, hc]
  rfl

/-- A server whose two threads have the loops 1 and 2 accepts three connections.  The first one is
closed before the third one comes. -/
theorem dealt_by_turns_accept :
    (EventLoopThreadPool.create 0).start (ascii "EchoServer") 2
      (fun name => (name.getLastD 0).toNat - 47) = ⟨0, [1, 2], 0⟩ ∧
    ∃ s : State ℕ, s.server.made.map TcpServer.Connection.ioLoop = [1, 2, 1] ∧
      s.server.connections (ascii "EchoServer-127.0.0.1:80#1") = none ∧
      ∀ l ∈ [1, 2], ∀ l' ∈ [1, 2], (s.server.made.map TcpServer.Connection.ioLoop).count l ≤
        (s.server.made.map TcpServer.Connection.ioLoop).count l' + 1 := by
  have h₀ : (lts ℕ).Reachable
      (.init 0 ⟨(127, 0, 0, 1), 80⟩ (ascii "EchoServer") [1, 2]) _ := .refl
  have h₁ := h₀.tail (show (lts ℕ).step _ (.poll 0 [.acceptChannel]) _ from
    .poll rfl (List.forall_mem_singleton.2 rfl))
  have h₂ := h₁.tail (show (lts ℕ).step _
    (.accept 0 false 5 ⟨(127, 0, 0, 1), 80⟩ ⟨(127, 0, 0, 1), 81⟩) _ from
    .accept ⟨rfl, rfl⟩ rfl rfl rfl)
  have h₃ := h₂.tail (show (lts ℕ).step _ (.swap 0) _ from .swap rfl ⟨rfl, rfl⟩ rfl rfl)
  have h₄ := h₃.tail (show (lts ℕ).step _ (.endFunctors 0) _ from .endFunctors rfl rfl rfl)
  have h₅ := h₄.tail (show (lts ℕ).step _ (.poll 0 [.acceptChannel]) _ from
    .poll rfl (List.forall_mem_singleton.2 rfl))
  have h₆ := h₅.tail (show (lts ℕ).step _
    (.accept 0 false 6 ⟨(127, 0, 0, 1), 80⟩ ⟨(127, 0, 0, 1), 82⟩) _ from
    .accept ⟨rfl, rfl⟩ rfl rfl rfl)
  have h₇ := h₆.tail (show (lts ℕ).step _ (.swap 0) _ from .swap rfl ⟨rfl, rfl⟩ rfl rfl)
  have h₈ := h₇.tail (show (lts ℕ).step _ (.endFunctors 0) _ from .endFunctors rfl rfl rfl)
  -- the loop 1 establishes the first connection, and the peer hangs up
  have h₉ := h₈.tail (show (lts ℕ).step _ (.poll 1 [.wakeupChannel]) _ from
    .poll rfl (List.forall_mem_singleton.2 trivial))
  have h₁₀ := h₉.tail (show (lts ℕ).step _ (.wakeup 1) _ from .wakeup ⟨rfl, rfl⟩ rfl rfl)
  have h₁₁ := h₁₀.tail (show (lts ℕ).step _ (.swap 1) _ from .swap rfl ⟨rfl, rfl⟩ rfl rfl)
  have h₁₂ := h₁₁.tail (show (lts ℕ).step _
    (.functor 1 (.server (.connectEstablished 0)) (.accepted 0)) _ from
    .functor rfl rfl rfl rfl)
  have h₁₃ := h₁₂.tail (show (lts ℕ).step _ (.callback 1) _ from .callback rfl rfl (by simp))
  have h₁₄ := h₁₃.tail (show (lts ℕ).step _ (.leave 1) _ from .leave rfl)
  have h₁₅ := h₁₄.tail (show (lts ℕ).step _ (.finish 1) _ from .finish rfl ⟨rfl, rfl⟩)
  have h₁₆ := h₁₅.tail (show (lts ℕ).step _ (.endFunctors 1) _ from .endFunctors rfl rfl rfl)
  have h₁₇ := h₁₆.tail (show (lts ℕ).step _ (.poll 1 [.connection 0 Lifecycle.EPOLLHUP]) _ from
    .poll rfl (List.forall_mem_singleton.2 ⟨⟨_, rfl, rfl⟩, rfl⟩))
  obtain ⟨erased, hI, -⟩ := exists_inv h₁₇
  have hdispatching := (hI.loops 1).dispatching 0 (List.mem_singleton_self _)
  have h₁₈ := h₁₇.tail (show (lts ℕ).step _ (.handleEvent 1 0 true) _ from
    .handleEvent ⟨rfl, rfl⟩ rfl rfl (iff_of_true rfl (hI.held hdispatching.1 hdispatching.2)))
  have h₁₉ := h₁₈.tail (show (lts ℕ).step _ (.handle 1 (.data []) (.accepted 0)) _ from
    .handle ⟨rfl, rfl⟩ rfl rfl trivial rfl)
  have h₂₀ := h₁₉.tail (show (lts ℕ).step _ (.callback 1) _ from .callback rfl rfl (by simp))
  have h₂₁ := h₂₀.tail (show (lts ℕ).step _ (.leave 1) _ from .leave rfl)
  have h₂₂ := h₂₁.tail (show (lts ℕ).step _ (.closeCallback 1) _ from .closeCallback rfl rfl rfl)
  -- the base loop removes it, and accepts another one
  have h₂₃ := h₂₂.tail (show (lts ℕ).step _ (.poll 0 [.wakeupChannel]) _ from
    .poll rfl (List.forall_mem_singleton.2 trivial))
  have h₂₄ := h₂₃.tail (show (lts ℕ).step _ (.wakeup 0) _ from .wakeup ⟨rfl, rfl⟩ rfl rfl)
  have h₂₅ := h₂₄.tail (show (lts ℕ).step _ (.swap 0) _ from .swap rfl ⟨rfl, rfl⟩ rfl rfl)
  have h₂₆ := h₂₅.tail (show (lts ℕ).step _
    (.functor 0 (.server (.removeConnectionInLoop 0)) (.accepted 0)) _ from
    .functor rfl rfl rfl rfl)
  have h₂₇ := h₂₆.tail (show (lts ℕ).step _ (.finish 0) _ from .finish rfl ⟨rfl, rfl⟩)
  have h₂₈ := h₂₇.tail (show (lts ℕ).step _ (.endFunctors 0) _ from .endFunctors rfl rfl rfl)
  have h₂₉ := h₂₈.tail (show (lts ℕ).step _ (.poll 0 [.acceptChannel]) _ from
    .poll rfl (List.forall_mem_singleton.2 rfl))
  have h₃₀ := h₂₉.tail (show (lts ℕ).step _
    (.accept 0 false 7 ⟨(127, 0, 0, 1), 80⟩ ⟨(127, 0, 0, 1), 83⟩) _ from
    .accept ⟨rfl, rfl⟩ rfl rfl rfl)
  exact ⟨rfl, _, rfl, rfl, (dealt_by_turns (by decide) h₃₀).2⟩

end ServerLoops

end TinyNetwork
