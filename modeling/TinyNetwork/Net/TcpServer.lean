import TinyNetwork.Base.Decimal
import TinyNetwork.LTS.Basic

/-!
# `TcpServer`

The table of connections that a server keeps on its base loop.  A new connection gets a name from
the address of the server and a counter, and an entry under that name; the entry is erased when the
connection is removed.  The connections that have been made are kept in a list, and a
`TcpConnectionPtr` is a place in it.

## Main results

* `connName_eq` : the name of a connection is not cut.
* `connections_exact` : the table holds exactly the connections that have not been removed.
-/

namespace TinyNetwork

/-- `class InetAddress`, an IPv4 address, byte by byte, and a port. -/
structure InetAddress where
  ip : UInt8 × UInt8 × UInt8 × UInt8
  port : UInt16
  deriving DecidableEq, Repr

namespace InetAddress

/-- `toIp()`, what `inet_ntop` writes. -/
def toIp (addr : InetAddress) : List UInt8 :=
  decimal addr.ip.1.toNat ++ ascii "." ++ decimal addr.ip.2.1.toNat ++ ascii "." ++
    decimal addr.ip.2.2.1.toNat ++ ascii "." ++ decimal addr.ip.2.2.2.toNat

/-- `toIpPort()`. -/
def toIpPort (addr : InetAddress) : List UInt8 :=
  addr.toIp ++ ascii ":" ++ decimal addr.port.toNat

theorem length_decimal_byte (b : UInt8) : (decimal b.toNat).length ≤ 3 :=
  length_decimal_le (by decide) (b.toNat_lt.trans (by decide))

/-- An address and its port have at most 21 characters. -/
theorem length_toIpPort (addr : InetAddress) : addr.toIpPort.length ≤ 21 := by
  have hport : (decimal addr.port.toNat).length ≤ 5 :=
    length_decimal_le (by decide) (addr.port.toNat_lt.trans (by decide))
  have h₁ := length_decimal_byte addr.ip.1
  have h₂ := length_decimal_byte addr.ip.2.1
  have h₃ := length_decimal_byte addr.ip.2.2.1
  have h₄ := length_decimal_byte addr.ip.2.2.2
  have hdot : (ascii ".").length = 1 := rfl
  have hcolon : (ascii ":").length = 1 := rfl
  simp only [toIpPort, toIp, List.length_append, hdot, hcolon]
  omega

end InetAddress

/-- `class EventLoopThreadPool`. -/
structure EventLoopThreadPool (L : Type*) where
  baseLoop : L
  loops : List L
  next : ℕ

/-- `getNextLoop()`. -/
def EventLoopThreadPool.getNextLoop {L : Type*} (pool : EventLoopThreadPool L) :
    L × EventLoopThreadPool L :=
  match pool.loops[pool.next]? with
  | some loop =>
    let next := pool.next + 1
    (loop, { pool with next := if pool.loops.length ≤ next then 0 else next })
  | none => (pool.baseLoop, pool)

/-- What `newConnection` passes to the constructor of a connection. -/
structure TcpServer.Connection (L : Type*) where
  ioLoop : L
  name : List UInt8
  sockfd : ℤ
  localAddr : InetAddress
  peerAddr : InetAddress

/-- The tasks a server gives to its loops, each bound to a connection. -/
inductive TcpServer.Task where
  | connectEstablished (conn : ℕ)
  | removeConnectionInLoop (conn : ℕ)
  | connectDestroyed (conn : ℕ)
  deriving DecidableEq, Repr

/-- `class TcpServer`. -/
structure TcpServer (L : Type*) where
  loop : L
  ipPort : List UInt8
  name : List UInt8
  threadPool : EventLoopThreadPool L
  nextConnId : ℕ
  /-- `connections_`. -/
  connections : List UInt8 → Option ℕ
  /-- The connections that have been made. -/
  made : List (TcpServer.Connection L)

namespace TcpServer

variable {L : Type*}

/-- The constructor, once the thread pool has been started. -/
def create (loop : L) (listenAddr : InetAddress) (name : List UInt8) (loops : List L) :
    TcpServer L where
  loop := loop
  ipPort := listenAddr.toIpPort
  name := name
  threadPool := ⟨loop, loops, 0⟩
  nextConnId := 1
  connections := fun _ => none
  made := []

/-- The name of the next connection. -/
def connName (s : TcpServer L) : List UInt8 :=
  s.name ++ snprintf 64 (ascii "-" ++ s.ipPort ++ ascii "#" ++ decimal s.nextConnId)

/-- `newConnection(sockfd, peerAddr)` on a socket with the local address `localAddr`: the server,
and the loop that is to run `connectEstablished` of the new connection.  There is no result when
`++nextConnId_` leaves the range of `int`. -/
def newConnection (s : TcpServer L) (sockfd : ℤ) (localAddr peerAddr : InetAddress) :
    Option (TcpServer L × L × Task) :=
  let (ioLoop, threadPool) := s.threadPool.getNextLoop
  if s.nextConnId + 1 < 2 ^ 31 then
    some ({ s with
      threadPool
      nextConnId := s.nextConnId + 1
      connections := Function.update s.connections s.connName (some s.made.length)
      made := s.made ++ [⟨ioLoop, s.connName, sockfd, localAddr, peerAddr⟩] },
      ioLoop, .connectEstablished s.made.length)
  else none

/-- `removeConnectionInLoop(conn)`: the server, and the loop that `connectDestroyed` of the
connection is queued in. -/
def removeConnectionInLoop (s : TcpServer L) (conn : ℕ) : Option (TcpServer L × L × Task) :=
  match s.made[conn]? with
  | some c =>
    some ({ s with connections := Function.update s.connections c.name none },
      c.ioLoop, .connectDestroyed conn)
  | none => none

/-- The calls on the base loop. -/
inductive Act where
  | newConnection (sockfd : ℤ) (localAddr peerAddr : InetAddress)
  | removeConnectionInLoop (conn : ℕ)

/-- The calls on the base loop, in any order. -/
def lts (L : Type*) : LTS (TcpServer L) Act where
  step s a s' := ∃ request, match a with
    | .newConnection sockfd localAddr peerAddr =>
      s.newConnection sockfd localAddr peerAddr = some (s', request)
    | .removeConnectionInLoop conn => s.removeConnectionInLoop conn = some (s', request)

/-! ### Names -/

variable {s s' : TcpServer L} {sockfd : ℤ} {localAddr peerAddr : InetAddress} {conn : ℕ}
  {loop : L} {task : Task}

/-- The name of the connection with this number. -/
def fullName (s : TcpServer L) (n : ℕ) : List UInt8 :=
  s.name ++ (ascii "-" ++ s.ipPort ++ ascii "#" ++ decimal n)

theorem fullName_injective : Function.Injective s.fullName := by
  intro m n h
  exact decimal_injective (List.append_cancel_left (List.append_cancel_left h))

/-- **The name of a connection is not cut.** -/
theorem connName_eq (hip : s.ipPort.length ≤ 21) (hid : s.nextConnId < 2 ^ 31) :
    s.connName = s.fullName s.nextConnId := by
  have hnumber : (decimal s.nextConnId).length ≤ 10 :=
    length_decimal_le (by decide) (hid.trans (by decide))
  have hdash : (ascii "-").length = 1 := rfl
  have hhash : (ascii "#").length = 1 := rfl
  rw [connName, snprintf_of_lt, fullName]
  simp only [List.length_append, hdash, hhash]
  omega

theorem newConnection_eq (h : s.newConnection sockfd localAddr peerAddr = some (s', loop, task)) :
    s.nextConnId + 1 < 2 ^ 31 ∧ s'.nextConnId = s.nextConnId + 1 ∧ s'.ipPort = s.ipPort ∧
      s'.name = s.name ∧
      s'.connections = Function.update s.connections s.connName (some s.made.length) ∧
      s'.made = s.made ++ [⟨loop, s.connName, sockfd, localAddr, peerAddr⟩] ∧
      loop = s.threadPool.getNextLoop.1 ∧ task = .connectEstablished s.made.length := by
  unfold newConnection at h
  simp only at h
  split_ifs at h with hlt
  cases h
  exact ⟨hlt, rfl, rfl, rfl, rfl, rfl, rfl, rfl⟩

theorem removeConnectionInLoop_eq (h : s.removeConnectionInLoop conn = some (s', loop, task)) :
    ∃ c, s.made[conn]? = some c ∧
      s' = { s with connections := Function.update s.connections c.name none } ∧
      loop = c.ioLoop ∧ task = .connectDestroyed conn := by
  unfold removeConnectionInLoop at h
  split at h
  · rename_i c hc
    cases h
    exact ⟨c, hc, rfl, rfl, rfl⟩
  · cases h

/-! ### The table -/

/-- What holds whatever has been called: the names are numbered, and the table holds the
connections that are not in `removed`. -/
structure Table (removed : Set ℕ) (s : TcpServer L) : Prop where
  ipPort_le : s.ipPort.length ≤ 21
  nextConnId_eq : s.nextConnId = s.made.length + 1
  nextConnId_lt : s.nextConnId < 2 ^ 31
  name_eq : ∀ i c, s.made[i]? = some c → c.name = s.fullName (i + 1)
  connections_iff : ∀ name i, s.connections name = some i ↔
    (∃ c, s.made[i]? = some c ∧ c.name = name) ∧ i ∉ removed
  removed_lt : ∀ i ∈ removed, i < s.made.length

theorem Table.create (loop : L) (listenAddr : InetAddress) (name : List UInt8) (loops : List L) :
    Table ∅ (create loop listenAddr name loops) where
  ipPort_le := listenAddr.length_toIpPort
  nextConnId_eq := rfl
  nextConnId_lt := Nat.one_lt_two_pow (by decide)
  name_eq := fun i c h => by simp [TcpServer.create] at h
  connections_iff := fun name i => by simp [TcpServer.create]
  removed_lt := by simp

variable {removed : Set ℕ}

theorem Table.connName_eq (hT : Table removed s) : s.connName = s.fullName (s.made.length + 1) := by
  rw [TcpServer.connName_eq hT.ipPort_le hT.nextConnId_lt, hT.nextConnId_eq]

/-- The name of the next connection is new. -/
theorem Table.fresh (hT : Table removed s) : s.connections s.connName = none := by
  rw [Option.eq_none_iff_forall_ne_some]
  intro i hi
  obtain ⟨⟨c, hc, hname⟩, -⟩ := (hT.connections_iff _ _).1 hi
  rw [hT.name_eq i c hc, hT.connName_eq] at hname
  have heq := fullName_injective hname
  have hlt := (List.getElem?_eq_some_iff.1 hc).1
  omega

/-- A new connection enters the table under a name of its own. -/
theorem Table.newConnection (hT : Table removed s)
    (h : s.newConnection sockfd localAddr peerAddr = some (s', loop, task)) :
    Table removed s' := by
  obtain ⟨hlt, hid, hip, hname, hconns, hmade, -, -⟩ := newConnection_eq h
  have hfull : s'.fullName = s.fullName := by
    funext n
    simp only [fullName, hip, hname]
  have hlen : s'.made.length = s.made.length + 1 := by simp [hmade]
  -- the connections that have been made, and the new one
  have hget (i : ℕ) (c : Connection L) : s'.made[i]? = some c ↔
      s.made[i]? = some c ∨ i = s.made.length ∧
        c = ⟨loop, s.connName, sockfd, localAddr, peerAddr⟩ := by
    rw [hmade, List.getElem?_append]
    split_ifs with hi
    · constructor
      · exact .inl
      · rintro (h | ⟨rfl, -⟩)
        · exact h
        · exact absurd hi (lt_irrefl _)
    · have hnone : s.made[i]? = none := List.getElem?_eq_none (Nat.not_lt.1 hi)
      rw [hnone, List.getElem?_singleton]
      constructor
      · intro h
        split_ifs at h with hzero
        exact .inr ⟨by omega, (Option.some.inj h).symm⟩
      · rintro (h | ⟨rfl, rfl⟩)
        · cases h
        · simp
  refine ⟨hip ▸ hT.ipPort_le, by rw [hid, hlen, hT.nextConnId_eq], by omega, ?_, ?_, ?_⟩
  · intro i c hc
    rw [hfull]
    rcases (hget i c).1 hc with h | ⟨rfl, rfl⟩
    · exact hT.name_eq i c h
    · exact hT.connName_eq
  · intro name i
    rw [hconns, Function.update_apply]
    split_ifs with heq
    · -- the new name
      subst heq
      rw [Option.some.injEq]
      constructor
      · rintro rfl
        refine ⟨⟨_, (hget _ _).2 (.inr ⟨rfl, rfl⟩), rfl⟩, fun hmem => ?_⟩
        exact lt_irrefl _ (hT.removed_lt _ hmem)
      · rintro ⟨⟨c, hc, hname⟩, hmem⟩
        rcases (hget i c).1 hc with h | ⟨rfl, -⟩
        · have hold := (hT.connections_iff _ _).2 ⟨⟨c, h, hname⟩, hmem⟩
          rw [hT.fresh] at hold
          cases hold
        · rfl
    · -- any other name
      rw [hT.connections_iff]
      refine and_congr (exists_congr fun c => ?_) Iff.rfl
      constructor
      · rintro ⟨hc, hname⟩
        exact ⟨(hget i c).2 (.inl hc), hname⟩
      · rintro ⟨hc, hname⟩
        rcases (hget i c).1 hc with h | ⟨-, rfl⟩
        · exact ⟨h, hname⟩
        · exact absurd hname.symm heq
  · intro i hi
    have := hT.removed_lt i hi
    omega

/-- A removal erases the entry of its own connection, if it is still there. -/
theorem Table.removeConnectionInLoop (hT : Table removed s)
    (h : s.removeConnectionInLoop conn = some (s', loop, task)) :
    Table (insert conn removed) s' := by
  obtain ⟨c, hc, rfl, -, -⟩ := removeConnectionInLoop_eq h
  refine ⟨hT.ipPort_le, hT.nextConnId_eq, hT.nextConnId_lt, hT.name_eq, ?_, ?_⟩
  · intro name i
    simp only [Function.update_apply, Set.mem_insert_iff, not_or]
    split_ifs with heq
    · subst heq
      refine iff_of_false (by simp) ?_
      rintro ⟨⟨c', hc', hname⟩, hne, -⟩
      have hnumber : s.fullName (i + 1) = s.fullName (conn + 1) := by
        rw [← hT.name_eq i c' hc', ← hT.name_eq conn c hc, hname]
      exact hne (Nat.succ_injective (fullName_injective hnumber))
    · rw [hT.connections_iff]
      constructor
      · rintro ⟨⟨c', hc', rfl⟩, hmem⟩
        refine ⟨⟨c', hc', rfl⟩, ?_, hmem⟩
        rintro rfl
        exact heq (by rw [Option.some.inj (hc'.symm.trans hc)])
      · rintro ⟨hname, -, hmem⟩
        exact ⟨hname, hmem⟩
  · rintro i (rfl | hi)
    · exact (List.getElem?_eq_some_iff.1 hc).1
    · exact hT.removed_lt i hi

/-! ### Runs -/

variable {tr : List (TcpServer L × Act)} {a : Act}

/-- The connections that `removeConnectionInLoop` has been called for. -/
def removals (tr : List (TcpServer L × Act)) : Set ℕ :=
  {i | .removeConnectionInLoop i ∈ tr.map Prod.snd}

/-- The number of calls of `newConnection`. -/
def creations (tr : List (TcpServer L × Act)) : ℕ :=
  (tr.filter fun p => match p.2 with
    | .newConnection .. => true
    | .removeConnectionInLoop _ => false).length

theorem Table.step (hT : Table (removals tr) s) (h : (lts L).step s a s') :
    Table (removals (tr ++ [(s, a)])) s' := by
  have hremovals : removals (tr ++ [(s, a)]) =
      {i | i ∈ removals tr ∨ .removeConnectionInLoop i = a} := by
    ext i
    simp [removals]
  rw [hremovals]
  obtain ⟨⟨loop, task⟩, h⟩ := h
  cases a with
  | newConnection sockfd localAddr peerAddr =>
    simpa using hT.newConnection h
  | removeConnectionInLoop conn =>
    have hinsert : {i | i ∈ removals tr ∨ Act.removeConnectionInLoop i =
        .removeConnectionInLoop conn} = insert conn (removals tr) := by
      ext i
      simp [or_comm]
    rw [hinsert]
    exact hT.removeConnectionInLoop h

theorem length_made (h : (lts L).step s a s') : s'.made.length =
    s.made.length + creations [(s, a)] := by
  obtain ⟨⟨loop, task⟩, h⟩ := h
  cases a with
  | newConnection sockfd localAddr peerAddr =>
    obtain ⟨-, -, -, -, -, hmade, -⟩ := newConnection_eq h
    rw [hmade, List.length_append]
    rfl
  | removeConnectionInLoop conn =>
    obtain ⟨c, -, rfl, -⟩ := removeConnectionInLoop_eq h
    rfl

/-- What is said of the table behind a run. -/
structure Exact (tr : List (TcpServer L × Act)) (s : TcpServer L) : Prop where
  /-- All names are different. -/
  names_nodup : (s.made.map Connection.name).Nodup
  /-- No name has been cut. -/
  uncut : ∀ i c, s.made[i]? = some c → c.name = s.fullName (i + 1)
  /-- `newConnection` replaces no entry. -/
  fresh : s.connections s.connName = none
  /-- The table maps the names of the connections that have not been removed to them. -/
  connections_iff : ∀ name i, s.connections name = some i ↔
    (∃ c, s.made[i]? = some c ∧ c.name = name) ∧ .removeConnectionInLoop i ∉ tr.map Prod.snd
  /-- The next `newConnection` has a result. -/
  isSome : creations tr + 1 < 2 ^ 31 - 1 → ∀ sockfd localAddr peerAddr,
    (s.newConnection sockfd localAddr peerAddr).isSome = true

variable {listenAddr : InetAddress} {name : List UInt8} {loops : List L}

/-- **The connection table is exact**, after any calls on the base loop. -/
theorem connections_exact (h : (lts L).Run (create loop listenAddr name loops) tr s) :
    Exact tr s := by
  have hall : Table (removals tr) s ∧ s.made.length = creations tr := by
    induction h with
    | nil => exact ⟨by simpa [removals] using Table.create loop listenAddr name loops, rfl⟩
    | snoc _ hst ih =>
      refine ⟨ih.1.step hst, ?_⟩
      rw [length_made hst, ih.2, creations, creations, creations, List.filter_append,
        List.length_append]
  obtain ⟨hT, hlen⟩ := hall
  refine ⟨?_, hT.name_eq, hT.fresh, hT.connections_iff, fun hlt sockfd localAddr peerAddr => ?_⟩
  · rw [List.nodup_iff_injective_getElem]
    intro i j hij
    simp only [List.getElem_map] at hij
    have hname (k : Fin (s.made.map Connection.name).length) :
        (s.made.get ⟨k.1, by simpa using k.2⟩).name = s.fullName (k.1 + 1) :=
      hT.name_eq _ _ (List.getElem?_eq_getElem (by simpa using k.2))
    have heq := (hname i).symm.trans (hij.trans (hname j))
    exact Fin.ext (Nat.succ_injective (fullName_injective heq))
  · have hid := hT.nextConnId_eq
    have hnext : s.nextConnId + 1 < 2 ^ 31 := by omega
    simpa [newConnection] using hnext

/-- A connection is made, another one is made, and the first one is removed. -/
theorem connections_exact_removed : ∃ (tr : List (TcpServer Unit × Act)) (s : TcpServer Unit),
    Exact tr s ∧ s.made.length = 2 ∧ .removeConnectionInLoop 0 ∈ tr.map Prod.snd := by
  set addr : InetAddress := ⟨(127, 0, 0, 1), 80⟩
  have hnil : (lts Unit).Run (create () addr (ascii "EchoServer") []) [] _ := .nil
  obtain ⟨⟨s₁, r₁⟩, h₁⟩ := Option.isSome_iff_exists.1
    ((connections_exact hnil).isSome (by decide) 5 addr addr)
  have hrun₁ := hnil.snoc (l := .newConnection 5 addr addr) ⟨r₁, h₁⟩
  obtain ⟨⟨s₂, r₂⟩, h₂⟩ := Option.isSome_iff_exists.1
    ((connections_exact hrun₁).isSome (by decide) 6 addr addr)
  have hrun₂ := hrun₁.snoc (l := .newConnection 6 addr addr) ⟨r₂, h₂⟩
  obtain ⟨-, -, -, -, -, hmade₁, -⟩ := newConnection_eq h₁
  obtain ⟨-, -, -, -, -, hmade₂, -⟩ := newConnection_eq h₂
  have hget : s₂.made[0]? = s₁.made[0]? := by simp [hmade₂, hmade₁, create]
  obtain ⟨⟨s₃, r₃⟩, h₃⟩ : ∃ p, s₂.removeConnectionInLoop 0 = some p := by
    simp [removeConnectionInLoop, hget, hmade₁, create]
  obtain ⟨c, -, hs₃, -, -⟩ := removeConnectionInLoop_eq h₃
  refine ⟨_, s₃, connections_exact (hrun₂.snoc (l := .removeConnectionInLoop 0) ⟨r₃, h₃⟩), ?_, ?_⟩
  · rw [hs₃]
    simp [hmade₂, hmade₁, create]
  · simp

end TcpServer

end TinyNetwork
