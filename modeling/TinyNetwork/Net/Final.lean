import TinyNetwork.Net.Lifecycle

/-!
# Disconnection

What is left of a connection after `handleClose` has stored `kDisconnected`, or after
`connectDestroyed` has returned: `state_` should stay `kDisconnected`, and a destroyed channel
should stay out of the poller.

Three steps bring a connection back.  A `shutdown()` of another thread that has loaded `kConnected`
can store `kDisconnecting` over `kDisconnected`.  A `connectDestroyed` that starts in
`kDisconnecting` does not store `kDisconnected`.  A `handleClose` after `connectDestroyed` calls
`channel_->disableAll()`, and an update of a channel that is not in the poller adds it.

## Main results

* `Settled.step` : the invariant behind the others, kept by every step but these three.
* `disconnection_final` : in a run without these steps disconnection is final.
* `not_disconnection_final` : a run with a late store.
-/

namespace TinyNetwork

namespace Lifecycle

open TcpConnection

/-- Disconnection is final so far. -/
structure Final (c : Core) : Prop where
  state : c.closed = true ∨ c.destroyed = true → c.conn.state = .kDisconnected
  channel : c.destroyed = true →
    c.conn.channel.index = .kNew ∧ c.conn.channel.interest = none

namespace Core

/-- The step does not bring a disconnected connection back. -/
def Orderly (c : Core) : CoreAct → Prop
  | .store => c.conn.state ≠ .kDisconnected
  | .enter .connectDestroyed => c.conn.state ≠ .kDisconnecting
  | .dispatch r _ => c.destroyed = true → ¬ c.Closes r
  | _ => True

end Core

/-- The step does not bring a disconnected connection back. -/
def Orderly {T : Type*} (s : State T) (a : Act T) : Prop :=
  ∀ b, a.onCore = some b → s.core.Orderly b

/-! ### The invariant -/

namespace Pc

/-- The places that are only reached in `kDisconnected`. -/
@[simp] def Down : Pc → Prop
  | .handleClose | .disabling | .removing => True
  | _ => False

/-- The places before `channel_->disableAll()`. -/
@[simp] def Disabling : Pc → Prop
  | .handleClose | .disabling => True
  | _ => False

/-- The places that are only reached in another state. -/
@[simp] def Busy : Pc → Prop
  | .established | .writing _ | .closing | .destroying => True
  | _ => False

end Pc

/-- What holds of a connection as long as nothing brings it back. -/
structure Settled (c : Core) : Prop where
  tidy : c.conn.channel.Tidy
  fresh : c.begun = false → c.pc = .user ∧ c.frames = [] ∧ c.active = [] ∧
    c.conn.channel.interest = none ∧ c.closed = false ∧ c.destroyed = false
  begun : c.begun = true → c.conn.state ≠ .kConnecting
  down : c.closed = true ∨ c.destroyed = true ∨ c.frames ≠ [] ∨ c.pc.Down →
    c.conn.state = .kDisconnected
  busy : c.pc.Busy → c.conn.state ≠ .kDisconnected
  silent : c.conn.state = .kDisconnected → ¬ c.pc.Disabling → c.conn.channel.isWriting = false
  gone : c.destroyed = true →
    c.conn.channel.index = .kNew ∧ c.conn.channel.interest = none ∧ ¬ c.pc.Disabling

namespace Settled

variable {c c' : Core} {pc : Pc} {frames : List Frame} {active : List Handler}
  {log : List Effect} {conn : TcpConnection} {w : WriteResult}

theorem final (hI : Settled c) : Final c where
  state h := hI.down (h.elim .inl fun h => .inr (.inl h))
  channel h := ⟨(hI.gone h).1, (hI.gone h).2.1⟩

theorem of_create {conn : TcpConnection} (hstate : conn.state = .kConnecting)
    (hchannel : conn.channel = .create) : Settled (.create conn) where
  tidy := by
    show conn.channel.Tidy
    rw [hchannel]
    exact Channel.tidy_create
  fresh _ := ⟨rfl, rfl, rfl, by simp [Core.create, hchannel, Channel.create], rfl, rfl⟩
  begun h := nomatch h
  down h := by simp [Core.create] at h
  busy h := h.elim
  silent h := by simp [Core.create, hstate] at h
  gone h := nomatch h

theorem begun_of_pc (hI : Settled c) (h : c.pc ≠ .user) : c.begun = true :=
  Bool.not_eq_false _ ▸ fun hfresh => h (hI.fresh hfresh).1

theorem begun_of_frames (hI : Settled c) (h : c.frames ≠ []) : c.begun = true :=
  Bool.not_eq_false _ ▸ fun hfresh => h (hI.fresh hfresh).2.1

theorem begun_of_active (hI : Settled c) (h : c.active ≠ []) : c.begun = true :=
  Bool.not_eq_false _ ▸ fun hfresh => h (hI.fresh hfresh).2.2.1

/-- The loop thread moves on and leaves `state_` and the channel alone. -/
theorem move (hI : Settled c) (hbegun : c.begun = true) (hstate : conn.state = c.conn.state)
    (hchannel : conn.channel = c.conn.channel) (hframes : frames ≠ [] → c.frames ≠ [])
    (hdown : pc.Down → c.conn.state = .kDisconnected)
    (hbusy : pc.Busy → c.conn.state ≠ .kDisconnected)
    (hdisabling : pc.Disabling → c.destroyed = false) (hpc : ¬ c.pc.Disabling) :
    Settled { c with conn, pc, frames, active, log } where
  tidy := by simpa [hchannel] using hI.tidy
  fresh h := by simp [hbegun] at h
  begun h := by simpa [hstate] using hI.begun h
  down h := by
    rw [hstate]
    rcases h with h | h | h | h
    · exact hI.down (.inl h)
    · exact hI.down (.inr (.inl h))
    · exact hI.down (.inr (.inr (.inl (hframes h))))
    · exact hdown h
  busy h := by simpa [hstate] using hbusy h
  silent h _ := by
    simpa [hchannel] using hI.silent (by simpa [hstate] using h) hpc
  gone h := by
    obtain ⟨hindex, hinterest, -⟩ := hI.gone h
    rw [hchannel]
    refine ⟨hindex, hinterest, fun hd => ?_⟩
    rw [hdisabling hd] at h
    cases h

/-- The connection is not disconnected: its channel may change. -/
theorem work (hI : Settled c) (hbegun : c.begun = true) (hc : c.conn.state ≠ .kDisconnected)
    (hstate : conn.state = .kConnected ∨ conn.state = .kDisconnecting ∨ conn.state = c.conn.state)
    (htidy : conn.channel.Tidy) (hdown : ¬ pc.Down) :
    Settled { c with conn, pc, active, log } := by
  have hne : conn.state ≠ .kDisconnected := by
    rcases hstate with h | h | h <;> rw [h]
    · nofun
    · nofun
    · exact hc
  have hconnecting : conn.state ≠ .kConnecting := by
    rcases hstate with h | h | h <;> rw [h]
    · nofun
    · nofun
    · exact hI.begun hbegun
  refine ⟨htidy, fun h => by simp [hbegun] at h, fun _ => hconnecting, fun h => ?_, fun _ => hne,
    fun h => absurd h hne, fun h => absurd (hI.down (.inr (.inl h))) hc⟩
  rcases h with h | h | h | h
  · exact absurd (hI.down (.inl h)) hc
  · exact absurd (hI.down (.inr (.inl h))) hc
  · exact absurd (hI.down (.inr (.inr (.inl h)))) hc
  · exact absurd h hdown

/-- `channel_->disableAll()` and the call of `connectionCallback_`. -/
theorem disable {frame : Frame} (hI : Settled c) (hpc : c.pc.Disabling) :
    Settled { c with
      conn.channel := c.conn.channel.disableAll
      pc := .user
      frames := frame :: c.frames
      log } where
  tidy := Channel.tidy_update
  fresh h := by
    rw [(hI.fresh h).1] at hpc
    exact hpc.elim
  begun h := hI.begun h
  down _ := hI.down (.inr (.inr (.inr (by cases h : c.pc <;> simp_all))))
  busy h := h.elim
  silent _ _ := Channel.isWriting_disableAll _
  gone h := absurd hpc (hI.gone h).2.2

/-- The end of `connectDestroyed`. -/
theorem remove (hI : Settled c) (hbegun : c.begun = true) (hpc : ¬ c.pc.Disabling)
    (hstate : c.conn.state = .kDisconnected) :
    Settled { c with pc := .user, frames }.removeChannel where
  tidy _ := hI.tidy.remove
  fresh h := by simp [Core.removeChannel, hbegun] at h
  begun h := hI.begun h
  down _ := hstate
  busy h := h.elim
  silent h _ := hI.silent h hpc
  gone _ := ⟨rfl, hI.tidy.remove, id⟩

/-- The store in `handleClose`. -/
theorem close {inputBuffer : Buffer} (hI : Settled c) (hbegun : c.begun = true)
    (hdestroyed : c.destroyed = false) :
    Settled { c with active, conn.inputBuffer := inputBuffer }.storeClosed where
  tidy := hI.tidy
  fresh h := by simp [Core.storeClosed, hbegun] at h
  begun _ := nofun
  down _ := rfl
  busy h := h.elim
  silent _ h := (h trivial).elim
  gone h := by simp [Core.storeClosed, hdestroyed] at h

/-- The store of a `shutdown` of another thread. -/
theorem store (hI : Settled c) (hstate : c.conn.state ≠ .kDisconnected) :
    Settled { c with conn := c.conn.setState .kDisconnecting } where
  tidy := hI.tidy
  fresh := hI.fresh
  begun _ := nofun
  down h := absurd (hI.down h) hstate
  busy _ := nofun
  silent := nofun
  gone h := absurd (hI.down (.inr (.inl h))) hstate

/-- A callback of the channel. -/
theorem dispatch {r : ReadResult} (hI : Settled c) (hpc : c.pc = .user)
    (ho : c.destroyed = true → ¬ c.Closes r) (h : c.dispatch r w = some c') : Settled c' := by
  have hdisabling : ¬ c.pc.Disabling := by simp [hpc]
  have hbegun : c.begun = true := by
    refine hI.begun_of_active ?_
    rintro hnil
    simp [Core.dispatch, hnil] at h
  cases Core.dispatched h with
  | closes hcloses =>
    exact hI.close hbegun (Bool.not_eq_true _ ▸ fun hd => ho hd hcloses)
  | delivers | fails =>
    exact hI.move hbegun rfl rfl id (by simp [hpc]) (by simp [hpc]) (by simp [hpc]) hdisabling
  | writes =>
    by_cases hstate : c.conn.state = .kDisconnected
    · -- the channel is not writing any more
      rw [handleWriteData_of_not_isWriting (hI.silent hstate hdisabling)]
      exact hI.move hbegun rfl rfl id (by simp) (by simp) (by simp) hdisabling
    · refine hI.work hbegun hstate (.inr (.inr (by simp))) ?_ (by split_ifs <;> simp)
      rcases channel_handleWriteData (c := c.conn) (w := w) with hch | hch <;> rw [hch]
      · exact hI.tidy
      · exact Channel.tidy_update

/-- The call of a function. -/
theorem enter {e : Entry} (hI : Settled c) (hpc : c.pc = .user)
    (hbegun : c.begun = false ↔ e = .connectEstablished) (ho : c.Orderly (.enter e)) :
    Settled (c.enter e) := by
  by_cases he : e = .connectEstablished
  · subst he
    obtain ⟨-, hframes, hactive, hinterest, hclosed, hdestroyed⟩ := hI.fresh (hbegun.2 rfl)
    refine ⟨hI.tidy, nofun, nofun, fun h => ?_, nofun, nofun, fun h => ?_⟩
    · simp [Core.enter, hclosed, hdestroyed, hframes] at h
    · simp [Core.enter, hdestroyed] at h
  have hb : c.begun = true := Bool.not_eq_false _ ▸ mt hbegun.1 he
  have hdisabling : ¬ c.pc.Disabling := by simp [hpc]
  have hgo {pc : Pc} (hbusy : pc.Busy → c.conn.state ≠ .kDisconnected)
      (hdown : pc.Down → c.conn.state = .kDisconnected) (hdis : ¬ pc.Disabling) :
      Settled { c with pc } :=
    hI.move hb rfl rfl id hdown hbusy (fun h => absurd h hdis) hdisabling
  cases e with
  | connectEstablished => exact absurd rfl he
  | send message =>
    simp only [Core.enter]
    split_ifs
    · exact hgo (by simp) (by simp) (by simp)
    · exact hI
  | sendInLoop message => exact hgo (by simp) (by simp) (by simp)
  | shutdown =>
    simp only [Core.enter, Core.connected, decide_eq_true_eq]
    split_ifs with hstate
    · exact hgo (by simp [hstate]) (by simp) (by simp)
    · exact hI
  | shutdownInLoop => exact hgo (by simp) (by simp) (by simp)
  | connectDestroyed =>
    simp only [Core.enter, Core.connected, decide_eq_true_eq]
    split_ifs with hstate
    · exact hgo (by simp [hstate]) (by simp) (by simp)
    · refine hgo (by simp) (fun _ => ?_) (by simp)
      -- neither connected nor connecting nor, as the call is orderly, disconnecting
      have hbegun' := hI.begun hb
      have ho' : c.conn.state ≠ .kDisconnecting := ho
      cases hc : c.conn.state <;> simp_all

/-- A step inside a function. -/
theorem advance (hI : Settled c) (h : c.advance w = some c') : Settled c' := by
  have hb (hpc : c.pc ≠ .user) : c.begun = true := hI.begun_of_pc hpc
  cases hpc : c.pc with
  | user => simp [Core.advance, hpc] at h
  | established =>
    simp only [Core.advance, hpc, Option.some.injEq] at h
    subst h
    exact hI.work (hb (by simp [hpc])) (hI.busy (by simp [hpc])) (.inr (.inr rfl))
      Channel.tidy_update (by simp)
  | sending message =>
    simp only [Core.advance, hpc, Option.some.injEq] at h
    subst h
    refine hI.move (hb (by simp [hpc])) rfl rfl id ?_ ?_ ?_ (by simp [hpc]) <;> split_ifs <;>
      simp_all
  | writing message =>
    simp only [Core.advance, hpc] at h
    split at h
    · cases h
    · rename_i conn effects hrest
      cases h
      obtain ⟨hstate, hchannel⟩ := sendInLoopRest_eq_ok hrest
      refine hI.work (hb (by simp [hpc])) (hI.busy (by simp [hpc])) (.inr (.inr hstate)) ?_
        (by simp)
      rcases hchannel with hch | hch <;> rw [hch]
      · exact hI.tidy
      · exact Channel.tidy_update
  | closing =>
    simp only [Core.advance, hpc, Option.some.injEq] at h
    subst h
    exact hI.work (hb (by simp [hpc])) (hI.busy (by simp [hpc])) (.inr (.inl rfl)) hI.tidy
      (by simp)
  | shutdownInLoop =>
    simp only [Core.advance, hpc, Option.some.injEq] at h
    subst h
    exact hI.move (hb (by simp [hpc])) (by simp) (by simp) id (by simp) (by simp) (by simp)
      (by simp [hpc])
  | finishing =>
    simp only [Core.advance, hpc, Option.some.injEq] at h
    subst h
    refine hI.move (hb (by simp [hpc])) rfl rfl id ?_ ?_ ?_ (by simp [hpc]) <;> split_ifs <;> simp
  | handleClose | disabling =>
    simp only [Core.advance, hpc, Option.some.injEq] at h
    subst h
    exact hI.disable (by simp [hpc])
  | destroying =>
    simp only [Core.advance, hpc, Option.some.injEq] at h
    subst h
    have hbusy := hI.busy (by simp [hpc])
    refine ⟨hI.tidy, fun h => ?_, fun _ => by simp, fun _ => rfl, fun h => h.elim,
      fun _ h => (h trivial).elim,
      fun h => absurd (hI.down (.inr (.inl h))) hbusy⟩
    simp [hb (by simp [hpc])] at h
  | removing =>
    simp only [Core.advance, hpc, Option.some.injEq] at h
    subst h
    exact hI.remove (hb (by simp [hpc])) (by simp [hpc])
      (hI.down (.inr (.inr (.inr (by simp [hpc])))))

/-- The end of a callback of the program. -/
theorem leave (hI : Settled c) (hpc : c.pc = .user) (h : c.leave = some c') : Settled c' := by
  unfold Core.leave at h
  split at h
  · cases h
  · rename_i frames hframes
    cases h
    exact hI.move (hI.begun_of_frames (by simp [hframes])) rfl rfl (by simp [hframes])
      (by simp [hpc]) (by simp [hpc]) (by simp [hpc]) (by simp [hpc])
  · rename_i frames hframes
    cases h
    have hne : c.frames ≠ [] := by simp [hframes]
    have hremove : Settled { c with pc := .user, frames }.removeChannel :=
      hI.remove (hI.begun_of_frames hne) (by simp [hpc]) (hI.down (.inr (.inr (.inl hne))))
    rwa [← hpc] at hremove

/-- Every orderly step keeps the invariant. -/
theorem core_step {a : CoreAct} (hI : Settled c) (ho : c.Orderly a) (h : CoreStep c a c') :
    Settled c' := by
  cases h with
  | poll hpc hframes hreg =>
    by_cases hb : c.begun = true
    · exact hI.move hb rfl rfl id (by simp [hpc]) (by simp [hpc]) (by simp [hpc]) (by simp [hpc])
    · -- a channel that is not registered is not reported
      obtain ⟨-, -, hactive, hinterest, -⟩ := hI.fresh (Bool.eq_false_iff.2 hb)
      have hrevents := not_imp_comm.1 hreg (by simp [hinterest])
      rwa [hrevents, show handlers 0 = c.active from hactive.symm]
  | enter hpc hbegun => exact hI.enter hpc hbegun ho
  | dispatch hpc _ _ _ h => exact hI.dispatch hpc ho h
  | advance _ h => exact hI.advance h
  | leave hpc h => exact hI.leave hpc h
  | store => exact hI.store ho

end Settled

/-! ### Runs -/

section Runs

variable {T : Type*} {s s' s₀ : State T} {a : Act T} {tr : List (State T × Act T)}

theorem Created.settled (h : Created s₀) : Settled s₀.core := by
  obtain ⟨_, _, _, hcore⟩ := h.core
  rw [hcore]
  exact Settled.of_create rfl rfl

variable [DecidableEq T]

theorem Settled.step (hI : Settled s.core) (ho : Orderly s a) (h : Step s a s') :
    Settled s'.core := by
  have hcore := Lifecycle.core_step h
  cases ha : a.onCore with
  | none =>
    rw [ha] at hcore
    rwa [show s'.core = s.core from hcore]
  | some b =>
    rw [ha] at hcore
    exact hI.core_step (ho b ha) hcore

/-- **Disconnection is final** in every run whose steps are all orderly: no other thread stores
`kDisconnecting` over `kDisconnected`, no `connectDestroyed` starts in `kDisconnecting`, and no
`handleClose` is called after a `connectDestroyed`. -/
theorem disconnection_final (hcreated : Created s₀) (h : (lts T).Run s₀ tr s)
    (horderly : ∀ p ∈ tr, Orderly p.1 p.2) : (∀ p ∈ tr, Final p.1.core) ∧ Final s.core := by
  obtain ⟨hall, hlast⟩ := h.invariant_of (I := fun s => Settled s.core) hcreated.settled
    (fun s l s' hI ho hst => hI.step ho hst) horderly
  exact ⟨fun p hp => (hall p hp).final, hlast.final⟩

end Runs

/-- A step that does not concern the core is orderly. -/
theorem orderly_of_none {T : Type*} {s : State T} {a : Act T} (h : a.onCore = none) :
    Orderly s a := by
  intro b hb
  rw [h] at hb
  cases hb

/-- Another thread is in `shutdown`, after its load, when the peer closes the connection. -/
theorem closing_while_shutdown : ∃ s₀ s : State Unit,
    Created s₀ ∧ (lts Unit).ReachableBy Orderly s₀ s ∧ s.core.closed = true ∧
      s.call () = .closing := by
  have hup := reachableBy_establishedUp (C := Orderly) (by rintro _ ⟨⟩; trivial)
    fun _ _ => by rintro _ ⟨⟩; trivial
  have hload := hup
    |>.tail (.beginShutdown (t := ()) rfl rfl (by decide) rfl) (orderly_of_none rfl)
  have hpoll := hload
    |>.tail (.loop (a := .endFunctor) trivial (fun _ => ⟨rfl, rfl⟩) nofun nofun
      (.endFunctor rfl rfl)) (orderly_of_none rfl)
    |>.tail (.loop (a := .clearCalling) trivial (fun _ => ⟨rfl, rfl⟩) nofun nofun
      (.clearCalling rfl)) (orderly_of_none rfl)
    |>.tail (.loop (a := .test) trivial (fun _ => ⟨rfl, rfl⟩) nofun nofun
      (.test_poll rfl rfl)) (orderly_of_none rfl)
  have hclosed := hpoll
    |>.tail (@Step.poll _ _ _ false EPOLLHUP _ _ (.pollReturn rfl nofun)
      (.poll rfl rfl fun _ => rfl)) (by rintro _ ⟨⟩; trivial)
    |>.tail (.dispatch (r := .data []) (w := .accepted 0) rfl rfl
      (.dispatch rfl rfl (Nat.zero_le _) (Nat.zero_le _) rfl)) (by rintro _ ⟨⟩; nofun)
  exact ⟨_, _, created_establishing, hclosed, rfl, rfl⟩

theorem disconnection_final_closing : ∃ (s₀ s : State Unit) (tr : List (State Unit × Act Unit)),
    Created s₀ ∧ (lts Unit).Run s₀ tr s ∧ s.core.closed = true ∧
      (∀ p ∈ tr, Final p.1.core) ∧ Final s.core := by
  obtain ⟨s₀, s, hcreated, ⟨tr, hrun, horderly⟩, hclosed, -⟩ := closing_while_shutdown
  exact ⟨s₀, s, tr, hcreated, hrun, hclosed, disconnection_final hcreated hrun horderly⟩

/-- The other thread goes on and stores `kDisconnecting`. -/
theorem not_disconnection_final : ¬ ∀ (s₀ s : State Unit) (tr : List (State Unit × Act Unit)),
    Created s₀ → (lts Unit).Run s₀ tr s → (∀ p ∈ tr, Final p.1.core) ∧ Final s.core := by
  intro hall
  obtain ⟨s₀, s, hcreated, ⟨tr, hrun, -⟩, hclosed, hcall⟩ := closing_while_shutdown
  have hstate := (hall s₀ _ _ hcreated (hrun.snoc (.storeShutdown hcall .store))).2.state
    (.inl hclosed)
  cases hstate

end Lifecycle

end TinyNetwork
