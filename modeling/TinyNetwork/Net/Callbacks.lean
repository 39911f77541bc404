import TinyNetwork.Net.Lifecycle

/-!
# The callbacks of a connection

Over a whole life the program should see one `connectionCallback` with the connection up, any number
of `messageCallback`, one `connectionCallback` with the connection down, and after that at most the
`closeCallback`.

Two steps break this.  A `connectDestroyed` that starts in `kDisconnecting` does not tell that the
connection is down.  And after a `handleClose` the rest of the dispatch of the channel, or a later
one, can deliver data or call `handleClose` once more.

## Main results

* `Phase.step` : without such a step the callbacks follow the protocol.
* `Spoiled.step` : after such a step they never will.
* `callbacks_complete_iff` : at the end of the first `connectDestroyed` the callbacks are complete
  iff no such step has been taken.
-/

namespace TinyNetwork

namespace Lifecycle

open TcpConnection

/-! ### The protocol -/

/-- The callbacks of a connection that is up. -/
def upLog (n : ℕ) : List Effect :=
  .connectionCallback true :: List.replicate n .messageCallback

/-- The callbacks of a whole life. -/
def Complete (log : List Effect) : Prop :=
  ∃ n tail, log = upLog n ++ .connectionCallback false :: tail ∧
    (tail = [] ∨ tail = [.closeCallback])

/-- The step breaks the protocol: a `connectDestroyed` in `kDisconnecting` of a connection that has
not been reported down, or data or a second `handleClose` after a `handleClose`. -/
def Core.Breaks (c : Core) : CoreAct → Prop
  | .enter .connectDestroyed =>
    c.conn.state = .kDisconnecting ∧ c.closed = false ∧ .remove ∉ c.frames
  | .dispatch r _ => c.closed = true ∧ (c.Closes r ∨ c.Delivers r)
  | _ => False

/-- The step breaks the protocol. -/
def Breaks {T : Type*} (s : State T) (a : Act T) : Prop :=
  ∃ b, a.onCore = some b ∧ s.core.Breaks b

theorem upLog_succ (n : ℕ) : upLog (n + 1) = upLog n ++ [.messageCallback] := by
  simp [upLog, List.replicate_succ']

theorem Complete.mem {log : List Effect} (h : Complete log) : .connectionCallback false ∈ log := by
  obtain ⟨n, tail, rfl, -⟩ := h
  simp

theorem not_mem_upLog (n : ℕ) : .connectionCallback false ∉ upLog n := by
  simp [upLog, List.mem_replicate]

/-- After the connection is reported down there is no message and no second report. -/
theorem Complete.not_sublist {log : List Effect} {effect : Effect} (h : Complete log)
    (he : effect = .messageCallback ∨ effect = .connectionCallback false) :
    ¬ List.Sublist [.connectionCallback false, effect] log := by
  obtain ⟨n, tail, rfl, htail⟩ := h
  intro hsub
  obtain ⟨l₁, l₂, heq, hl₁, hl₂⟩ := List.sublist_append_iff.1 hsub
  cases l₁ with
  | nil =>
    obtain rfl : [_, _] = l₂ := heq
    have hmem := List.singleton_sublist.1 (List.cons_sublist_cons.1 hl₂)
    rcases htail with rfl | rfl <;> rcases he with rfl | rfl <;> simp at hmem
  | cons b l₁ =>
    obtain ⟨rfl, -⟩ := List.cons.inj heq
    exact not_mem_upLog n (hl₁.subset List.mem_cons_self)

/-! ### Runs that follow the protocol -/

namespace Pc

/-- The places outside of `connectEstablished`, `handleClose` and `connectDestroyed`. -/
@[simp] def Calm : Pc → Prop
  | .user | .sending _ | .writing _ | .closing | .shutdownInLoop | .finishing => True
  | _ => False

end Pc

/-- How far a connection is whose callbacks have followed the protocol. -/
inductive Phase (c : Core) : Prop
  | fresh (hbegun : c.begun = false) (hpc : c.pc = .user) (hframes : c.frames = [])
      (hclosed : c.closed = false) (hstate : c.conn.state = .kConnecting) (hlog : c.log = [])
      (hactive : c.active = []) (hinterest : c.conn.channel.interest = none)
  | establishing (hbegun : c.begun = true) (hpc : c.pc = .established) (hframes : c.frames = [])
      (hclosed : c.closed = false) (hstate : c.conn.state = .kConnected) (hlog : c.log = [])
  | up {n : ℕ} (hbegun : c.begun = true) (hpc : c.pc.Calm) (hframes : c.frames = [])
      (hclosed : c.closed = false)
      (hstate : c.conn.state = .kConnected ∨ c.conn.state = .kDisconnecting)
      (hlog : c.log = upLog n)
  | destroying {n : ℕ} (hbegun : c.begun = true) (hpc : c.pc = .destroying ∨ c.pc = .disabling)
      (hframes : c.frames = []) (hclosed : c.closed = false)
      (hstate : c.pc = .disabling → c.conn.state ≠ .kConnected) (hlog : c.log = upLog n)
  | closing {n : ℕ} (hbegun : c.begun = true) (hpc : c.pc = .handleClose) (hframes : c.frames = [])
      (hclosed : c.closed = true) (hstate : c.conn.state ≠ .kConnected) (hlog : c.log = upLog n)
  | down {n : ℕ} {tail : List Effect} (hbegun : c.begun = true) (hpc : c.pc.Calm ∨ c.pc = .removing)
      (hframes : c.frames = [.remove] ∧ tail = [] ∧ c.closed = false ∨
        c.frames = [.closeCallback] ∧ tail = [] ∧ c.closed = true ∨
        c.frames = [] ∧ tail = [.closeCallback] ∧ c.closed = true)
      (hstate : c.conn.state ≠ .kConnected)
      (hlog : c.log = upLog n ++ .connectionCallback false :: tail)

namespace Phase

variable {c c' : Core} {w : WriteResult}

/-- The loop thread moves on, quietly. -/
theorem move {pc : Pc} {active : List Handler} {conn : TcpConnection} (hP : Phase c)
    (hbegun : c.begun = true) (hpc : c.pc.Calm) (hpc' : pc.Calm)
    (hstate : conn.state = c.conn.state ∨ conn.state = .kDisconnecting) :
    Phase { c with conn, pc, active } := by
  cases hP with
  | fresh hfresh => simp [hfresh] at hbegun
  | establishing _ h | closing _ h => simp [h] at hpc
  | destroying _ h => rcases h with h | h <;> simp [h] at hpc
  | up _ _ hframes hclosed hst hlog =>
    refine .up hbegun hpc' hframes hclosed ?_ hlog
    rcases hstate with h | h
    · exact h ▸ hst
    · exact .inr h
  | down _ _ hframes hst hlog =>
    refine .down hbegun (.inl hpc') hframes ?_ hlog
    rcases hstate with h | h
    · exact h ▸ hst
    · simp [h]

/-- The store of a `shutdown` of another thread. -/
theorem store (hP : Phase c) (hlog : c.log ≠ []) :
    Phase { c with conn := c.conn.setState .kDisconnecting } := by
  cases hP with
  | fresh _ _ _ _ _ hnil | establishing _ _ _ _ _ hnil => exact absurd hnil hlog
  | up hbegun hpc hframes hclosed _ hlog =>
    exact .up hbegun hpc hframes hclosed (.inr rfl) hlog
  | destroying hbegun hpc hframes hclosed _ hlog =>
    exact .destroying hbegun hpc hframes hclosed (by simp) hlog
  | closing hbegun hpc hframes hclosed _ hlog =>
    exact .closing hbegun hpc hframes hclosed (by simp) hlog
  | down hbegun hpc hframes _ hlog => exact .down hbegun hpc hframes (by simp) hlog

theorem begun_of_active (hP : Phase c) (h : c.active ≠ []) : c.begun = true := by
  cases hP with
  | fresh _ _ _ _ _ _ hactive => exact absurd hactive h
  | _ => assumption

theorem begun_of_pc (hP : Phase c) (h : c.pc ≠ .user) : c.begun = true := by
  cases hP with
  | fresh _ hpc => exact absurd hpc h
  | _ => assumption

/-- A callback of the channel that does not break the protocol. -/
theorem dispatch {r : ReadResult} (hP : Phase c) (hpc : c.pc = .user) (hframes : c.frames = [])
    (hkeeps : ¬ c.Breaks (.dispatch r w)) (h : c.dispatch r w = some c') : Phase c' := by
  have hcalm : c.pc.Calm := by simp [hpc]
  have hbegun : c.begun = true := by
    refine hP.begun_of_active ?_
    rintro hnil
    simp [Core.dispatch, hnil] at h
  -- data and the end of file come to a connection that is up
  have hup (hmust : c.Closes r ∨ c.Delivers r) :
      ∃ n, c.closed = false ∧ c.log = upLog n ∧
        (c.conn.state = .kConnected ∨ c.conn.state = .kDisconnecting) := by
    have hclosed : c.closed ≠ true := fun hclosed => hkeeps ⟨hclosed, hmust⟩
    cases hP with
    | fresh hfresh => simp [hfresh] at hbegun
    | establishing _ h | closing _ h => simp [h] at hcalm
    | destroying _ h => rcases h with h | h <;> simp [h] at hcalm
    | up _ _ _ hclosed hst hlog => exact ⟨_, hclosed, hlog, hst⟩
    | down _ _ h =>
      rcases h with ⟨h, -⟩ | ⟨-, -, h⟩ | ⟨-, -, h⟩
      · simp [hframes] at h
      · exact absurd h hclosed
      · exact absurd h hclosed
  cases Core.dispatched h with
  | closes hcloses =>
    obtain ⟨n, -, hlog, -⟩ := hup (.inl hcloses)
    exact .closing hbegun rfl hframes rfl (by simp [Core.storeClosed]) hlog
  | delivers hdelivers =>
    obtain ⟨n, hclosed, hlog, hst⟩ := hup (.inr hdelivers)
    refine .up (n := n + 1) hbegun hcalm hframes hclosed hst ?_
    rw [upLog_succ, ← hlog]
    rfl
  | fails => exact hP.move hbegun hcalm hcalm (.inl rfl)
  | writes => exact hP.move hbegun hcalm (by split_ifs <;> simp) (.inl state_handleWriteData)

/-- The call of a function that does not break the protocol. -/
theorem enter {e : Entry} (hP : Phase c) (hpc : c.pc = .user)
    (hbegun : c.begun = false ↔ e = .connectEstablished) (hkeeps : ¬ c.Breaks (.enter e)) :
    Phase (c.enter e) := by
  by_cases he : e = .connectEstablished
  · subst he
    have hfresh := hbegun.2 rfl
    cases hP with
    | fresh _ _ hframes hclosed _ hlog =>
      exact .establishing rfl rfl hframes hclosed rfl hlog
    | establishing h | up h | destroying h | closing h | down h => simp [hfresh] at h
  -- any other function is called after `connectEstablished`
  have hb : c.begun = true := Bool.not_eq_false _ ▸ mt hbegun.1 he
  have hcalm : c.pc.Calm := by simp [hpc]
  have hgo {pc : Pc} (hpc' : pc.Calm) : Phase { c with pc } := hP.move hb hcalm hpc' (.inl rfl)
  cases e with
  | connectEstablished => exact absurd rfl he
  | send message =>
    simp only [Core.enter]
    split_ifs
    · exact hgo trivial
    · exact hP
  | sendInLoop message => exact hgo trivial
  | shutdown =>
    simp only [Core.enter]
    split_ifs
    · exact hgo trivial
    · exact hP
  | shutdownInLoop => exact hgo trivial
  | connectDestroyed =>
    simp only [Core.enter, Core.connected, decide_eq_true_eq]
    cases hP with
    | fresh hfresh => simp [hfresh] at hb
    | establishing _ h | closing _ h => simp [h] at hcalm
    | destroying _ h => rcases h with h | h <;> simp [h] at hcalm
    | up _ _ hframes hclosed hst hlog =>
      rcases hst with hst | hst
      · rw [if_pos hst]
        exact .destroying hb (.inl rfl) hframes hclosed (by simp) hlog
      · -- a `connectDestroyed` while the connection is shutting down
        exact absurd ⟨hst, hclosed, by simp [hframes]⟩ hkeeps
    | down _ _ hframes hst hlog =>
      rw [if_neg hst]
      exact .down hb (.inr rfl) hframes hst hlog

/-- What is left when `connectDestroyed` returns. -/
theorem complete (hP : Phase c) (hpc : c.pc = .removing ∨ .remove ∈ c.frames)
    (hcalm : c.pc.Calm ∨ c.pc = .removing) (hbegun : c.begun = true) : Complete c.log := by
  cases hP with
  | fresh hfresh => simp [hfresh] at hbegun
  | establishing _ h | closing _ h => simp [h] at hcalm
  | destroying _ h => rcases h with h | h <;> simp [h] at hcalm
  | up _ h hframes =>
    rcases hpc with hpc | hpc
    · simp [hpc] at h
    · simp [hframes] at hpc
  | @down n tail _ _ hframes _ hlog =>
    refine ⟨n, tail, hlog, ?_⟩
    rcases hframes with ⟨-, h, -⟩ | ⟨-, h, -⟩ | ⟨-, h, -⟩
    · exact .inl h
    · exact .inl h
    · exact .inr h

/-- A step inside a function, up to the end of `connectDestroyed`. -/
theorem advance (hP : Phase c) (h : c.advance w = some c') :
    Phase c' ∧ c'.destroyed = c.destroyed ∨ Complete c'.log ∧ c'.destroyed = true := by
  have hb (hpc : c.pc ≠ .user) : c.begun = true := hP.begun_of_pc hpc
  cases hpc : c.pc with
  | user => simp [Core.advance, hpc] at h
  | established =>
    simp only [Core.advance, hpc, Option.some.injEq] at h
    subst h
    cases hP with
    | establishing hbegun _ hframes hclosed hst hlog =>
      refine .inl ⟨.up (n := 0) hbegun trivial hframes hclosed (.inl hst) ?_, rfl⟩
      simp [Core.callback, Core.connected, hlog, hst, upLog]
    | fresh _ h | closing _ h => simp [hpc] at h
    | up _ h | destroying _ h | down _ h => simp [hpc] at h
  | sending message =>
    simp only [Core.advance, hpc, Option.some.injEq] at h
    subst h
    refine .inl ⟨hP.move (hb (by simp [hpc])) (by simp [hpc]) ?_ (.inl rfl), rfl⟩
    split_ifs <;> trivial
  | writing message =>
    simp only [Core.advance, hpc] at h
    split at h
    · cases h
    · rename_i conn effects hrest
      cases h
      exact .inl ⟨hP.move (hb (by simp [hpc])) (by simp [hpc]) trivial
        (.inl (sendInLoopRest_eq_ok hrest).1), rfl⟩
  | closing =>
    simp only [Core.advance, hpc, Option.some.injEq] at h
    subst h
    exact .inl ⟨hP.move (hb (by simp [hpc])) (by simp [hpc]) trivial (.inr rfl), rfl⟩
  | shutdownInLoop =>
    simp only [Core.advance, hpc, Option.some.injEq] at h
    subst h
    exact .inl ⟨hP.move (hb (by simp [hpc])) (by simp [hpc]) trivial (.inl (by simp)), rfl⟩
  | finishing =>
    simp only [Core.advance, hpc, Option.some.injEq] at h
    subst h
    refine .inl ⟨hP.move (hb (by simp [hpc])) (by simp [hpc]) ?_ (.inl rfl), rfl⟩
    split_ifs <;> trivial
  | handleClose =>
    simp only [Core.advance, hpc, Option.some.injEq] at h
    subst h
    cases hP with
    | @closing n hbegun _ hframes hclosed hst hlog =>
      -- `connectionCallback_` says that the connection is down
      refine .inl ⟨.down (n := n) hbegun (.inl trivial)
        (.inr (.inl ⟨?_, rfl, hclosed⟩)) hst ?_, rfl⟩
      · simp [Core.callback, hframes]
      · simp [Core.callback, Core.connected, hlog, hst]
    | fresh _ h | establishing _ h => simp [hpc] at h
    | up _ h | destroying _ h | down _ h => simp [hpc] at h
  | destroying =>
    simp only [Core.advance, hpc, Option.some.injEq] at h
    subst h
    cases hP with
    | destroying hbegun _ hframes hclosed _ hlog =>
      exact .inl ⟨.destroying hbegun (.inr rfl) hframes hclosed (by simp) hlog, rfl⟩
    | fresh _ h | establishing _ h | closing _ h => simp [hpc] at h
    | up _ h | down _ h => simp [hpc] at h
  | disabling =>
    simp only [Core.advance, hpc, Option.some.injEq] at h
    subst h
    cases hP with
    | @destroying n hbegun _ hframes hclosed hst hlog =>
      refine .inl ⟨.down (n := n) hbegun (.inl trivial)
        (.inl ⟨?_, rfl, hclosed⟩) (hst hpc) ?_, rfl⟩
      · simp [Core.callback, hframes]
      · simp [Core.callback, Core.connected, hlog, hst hpc]
    | fresh _ h | establishing _ h | closing _ h => simp [hpc] at h
    | up _ h | down _ h => simp [hpc] at h
  | removing =>
    simp only [Core.advance, hpc, Option.some.injEq] at h
    subst h
    have hcomplete := hP.complete (.inl hpc) (.inr hpc) (hb (by simp [hpc]))
    exact .inr ⟨hcomplete, rfl⟩

/-- The end of a callback of the program. -/
theorem leave (hP : Phase c) (hpc : c.pc = .user) (h : c.leave = some c') :
    Phase c' ∧ c'.destroyed = c.destroyed ∨ Complete c'.log ∧ c'.destroyed = true := by
  have hcalm : c.pc.Calm := by simp [hpc]
  have hb (hne : c.frames ≠ []) : c.begun = true := by
    cases hP with
    | fresh _ _ h => exact absurd h hne
    | _ => assumption
  unfold Core.leave at h
  split at h
  · cases h
  · rename_i frames hframes
    cases h
    have hbegun := hb (by simp [hframes])
    cases hP with
    | fresh _ _ h | establishing _ _ h | up _ _ h | destroying _ _ h | closing _ _ h =>
      simp [hframes] at h
    | @down n tail _ _ hfr hst hlog =>
      rcases hfr with ⟨h, -⟩ | ⟨h, htail, hclosed⟩ | ⟨h, -⟩
      · simp [hframes] at h
      · refine .inl ⟨.down (n := n) hbegun (.inl hcalm)
          (.inr (.inr ⟨?_, rfl, hclosed⟩)) hst ?_, rfl⟩
        · simpa [Core.callback, hframes] using h
        · simp [Core.callback, hlog, htail]
      · simp [hframes] at h
  · rename_i frames hframes
    cases h
    have hcomplete := hP.complete (.inr (by simp [hframes])) (.inl hcalm) (hb (by simp [hframes]))
    exact .inr ⟨hcomplete, rfl⟩

/-- **A step that does not break the protocol**, up to the end of `connectDestroyed`. -/
theorem step {a : CoreAct} (hP : Phase c) (hkeeps : ¬ c.Breaks a)
    (hstore : a = .store → c.log ≠ []) (h : CoreStep c a c') :
    Phase c' ∧ c'.destroyed = c.destroyed ∨ Complete c'.log ∧ c'.destroyed = true := by
  cases h with
  | poll hpc hframes hreg =>
    refine .inl ⟨?_, rfl⟩
    by_cases hb : c.begun = true
    · exact hP.move hb (by simp [hpc]) (by simp [hpc]) (.inl rfl)
    · cases hP with
      | fresh _ _ _ _ _ _ hactive hinterest =>
        have hrevents := not_imp_comm.1 hreg (by simp [hinterest])
        rw [hrevents, show handlers 0 = c.active from hactive.symm]
        exact .fresh ‹_› ‹_› ‹_› ‹_› ‹_› ‹_› ‹_› ‹_›
      | establishing h | up h | destroying h | closing h | down h => exact absurd h hb
  | enter hpc hbegun => exact .inl ⟨hP.enter hpc hbegun hkeeps, by simp⟩
  | dispatch hpc hframes _ _ h =>
    refine .inl ⟨hP.dispatch hpc hframes hkeeps h, ?_⟩
    cases Core.dispatched h <;> rfl
  | advance _ h => exact hP.advance h
  | leave hpc h => exact hP.leave hpc h
  | store => exact .inl ⟨hP.store (hstore rfl), rfl⟩

end Phase

/-! ### Runs that have broken it -/

/-- The callbacks can not become complete any more. -/
inductive Spoiled (c : Core) : Prop
  | silent (hpc : c.pc = .removing) (hlog : .connectionCallback false ∉ c.log)
  | again (hpc : c.pc = .handleClose) (hstate : c.conn.state ≠ .kConnected)
      (hlog : .connectionCallback false ∈ c.log)
  | twice {effect : Effect}
      (heffect : effect = .messageCallback ∨ effect = .connectionCallback false)
      (hlog : List.Sublist [.connectionCallback false, effect] c.log)

/-- Callbacks are only added to the log. -/
theorem log_grows {c c' : Core} {a : CoreAct} (h : CoreStep c a c') : c.log <+: c'.log := by
  cases h with
  | poll | store => exact List.prefix_rfl
  | enter => simp
  | dispatch _ _ _ _ h =>
    cases Core.dispatched h with
    | closes | fails | writes => exact List.prefix_rfl
    | delivers => exact List.prefix_append ..
  | advance _ h =>
    cases hpc : c.pc <;> simp only [Core.advance, hpc, Option.some.injEq, reduceCtorEq] at h
    case writing =>
      split at h
      · cases h
      · cases h
        exact List.prefix_rfl
    case established | handleClose | disabling =>
      subst h
      exact List.prefix_append ..
    all_goals
      subst h
      exact List.prefix_rfl
  | leave _ h =>
    unfold Core.leave at h
    split at h
    · cases h
    · cases h
      exact List.prefix_append ..
    · cases h
      exact List.prefix_rfl

/-- A step that breaks the protocol. -/
theorem Phase.spoil {c c' : Core} {a : CoreAct} (hP : Phase c) (hbreaks : c.Breaks a)
    (h : CoreStep c a c') : Spoiled c' ∧ c'.destroyed = c.destroyed := by
  cases h with
  | poll | advance | leave | store => exact hbreaks.elim
  | @enter e hpc hbegun =>
    refine ⟨?_, by simp⟩
    cases e with
    | connectDestroyed =>
      obtain ⟨hstate, hclosed, hremove⟩ := hbreaks
      cases hP with
      | fresh _ _ _ _ h => simp [h] at hstate
      | establishing _ h | closing _ h => simp [h] at hpc
      | destroying _ h => rcases h with h | h <;> simp [h] at hpc
      | @up n _ _ _ _ _ hlog =>
        -- no callback will say that the connection is down
        refine .silent (by simp [Core.enter, Core.connected, hstate]) ?_
        rw [Core.log_enter, hlog]
        exact not_mem_upLog n
      | down _ _ h => simp [hclosed] at h; simp [h] at hremove
    | _ => exact hbreaks.elim
  | dispatch hpc hframes _ _ h =>
    obtain ⟨hclosed, hmust⟩ := hbreaks
    -- a closed connection has been reported as down
    obtain ⟨n, tail, hlog⟩ : ∃ n tail, c.log = upLog n ++ .connectionCallback false :: tail := by
      cases hP with
      | fresh _ _ _ h | establishing _ _ _ h | up _ _ _ h | destroying _ _ _ h =>
        simp [hclosed] at h
      | closing _ h => simp [hpc] at h
      | down _ _ _ _ hlog => exact ⟨_, _, hlog⟩
    cases Core.dispatched h with
    | closes =>
      exact ⟨.again rfl (by simp [Core.storeClosed]) (by simp [Core.storeClosed, hlog]), rfl⟩
    | delivers =>
      refine ⟨.twice (.inl rfl) ?_, rfl⟩
      have hsub : List.Sublist [.connectionCallback false] c.log := by simp [hlog]
      exact hsub.append_right [.messageCallback]
    | fails hcloses hdelivers | writes hcloses hdelivers =>
      exact (hmust.elim hcloses hdelivers).elim

/-- A step after the protocol has been broken. -/
theorem Spoiled.step {c c' : Core} {a : CoreAct} (hS : Spoiled c) (hd : c.destroyed = false)
    (h : CoreStep c a c') :
    Spoiled c' ∧ c'.destroyed = false ∨ ¬ Complete c'.log ∧ c'.destroyed = true := by
  cases hS with
  | silent hpc hlog =>
    cases h with
    | poll hpc' | enter hpc' | dispatch hpc' | leave hpc' => simp [hpc] at hpc'
    | advance _ h =>
      simp only [Core.advance, hpc, Option.some.injEq] at h
      subst h
      exact .inr ⟨fun hcomplete => hlog hcomplete.mem, rfl⟩
    | store => exact .inl ⟨.silent hpc hlog, hd⟩
  | again hpc hstate hlog =>
    cases h with
    | poll hpc' | enter hpc' | dispatch hpc' | leave hpc' => simp [hpc] at hpc'
    | advance _ h =>
      simp only [Core.advance, hpc, Option.some.injEq] at h
      subst h
      refine .inl ⟨.twice (.inr rfl) ?_, hd⟩
      have hsub : List.Sublist [.connectionCallback false] c.log := List.singleton_sublist.2 hlog
      simpa [Core.callback, Core.connected, hstate] using
        hsub.append_right [.connectionCallback false]
    | store => exact .inl ⟨.again hpc (by simp) hlog, hd⟩
  | @twice effect heffect hlog =>
    -- the log only grows
    have hlog' := hlog.trans (log_grows h).sublist
    cases hd' : c'.destroyed with
    | false => exact .inl ⟨.twice heffect hlog', rfl⟩
    | true => exact .inr ⟨fun hcomplete => hcomplete.not_sublist heffect hlog', rfl⟩

/-! ### Whole lives -/

section Runs

variable {T : Type*} {s s' s₀ : State T} {a : Act T} {tr : List (State T × Act T)}

theorem Created.phase (h : Created s₀) : Phase s₀.core := by
  obtain ⟨_, _, _, hcore⟩ := h.core
  rw [hcore]
  exact .fresh rfl rfl rfl rfl rfl rfl rfl rfl

/-- The program does not know a connection before its first callback. -/
def Unseen (s : State T) : Prop := ∀ t, s.call t ≠ .idle → s.core.log ≠ []

theorem Created.unseen (h : Created s₀) : Unseen s₀ := fun t ht => absurd (h.call t) ht

variable [DecidableEq T]

theorem Unseen.step (hU : Unseen s) (h : Step s a s') : Unseen s' := by
  have hlog : s.core.log ≠ [] → s'.core.log ≠ [] := by
    have hcore := Lifecycle.core_step h
    intro hne
    cases ha : a.onCore with
    | none =>
      rw [ha] at hcore
      rwa [show s'.core = s.core from hcore]
    | some b =>
      rw [ha] at hcore
      exact (log_grows hcore).ne_nil hne
  cases h with
  | loop | poll | functor | inline | dispatch | advance | leave | queueDestroyed =>
    exact fun t ht => hlog (hU t ht)
  | beginSend _ _ hseen | beginShutdown _ _ hseen => exact fun _ _ => hseen
  | endSend hcall | storeShutdown hcall | endShutdown hcall =>
    exact fun _ _ => hlog (hU _ (by rw [hcall]; simp))

/-- What a step of the system does to the phase. -/
theorem phase_step (hP : Phase s.core) (hU : Unseen s) (h : Step s a s') (hkeeps : ¬ Breaks s a) :
    Phase s'.core ∧ s'.core.destroyed = s.core.destroyed ∨
      Complete s'.core.log ∧ s'.core.destroyed = true := by
  have hcore := Lifecycle.core_step h
  cases ha : a.onCore with
  | none =>
    rw [ha] at hcore
    rw [show s'.core = s.core from hcore]
    exact .inl ⟨hP, rfl⟩
  | some b =>
    rw [ha] at hcore
    refine hP.step (fun hb => hkeeps ⟨b, ha, hb⟩) ?_ hcore
    rintro rfl
    -- only another thread stores behind the back of the loop thread
    cases h with
    | storeShutdown hcall => exact hU _ (by rw [hcall]; simp)
    | _ => cases ha

/-- What a step of the system does to a broken protocol. -/
theorem spoiled_step (hS : Spoiled s.core) (hd : s.core.destroyed = false) (h : Step s a s') :
    Spoiled s'.core ∧ s'.core.destroyed = false ∨
      ¬ Complete s'.core.log ∧ s'.core.destroyed = true := by
  have hcore := Lifecycle.core_step h
  cases ha : a.onCore with
  | none =>
    rw [ha] at hcore
    rw [show s'.core = s.core from hcore]
    exact .inl ⟨hS, hd⟩
  | some b =>
    rw [ha] at hcore
    exact hS.step hd hcore

theorem spoil_step (hP : Phase s.core) (h : Step s a s') (hbreaks : Breaks s a) :
    Spoiled s'.core ∧ s'.core.destroyed = s.core.destroyed := by
  obtain ⟨b, ha, hb⟩ := hbreaks
  have hcore := Lifecycle.core_step h
  rw [ha] at hcore
  exact hP.spoil hb hcore

/-- How far a connection is that is not destroyed yet, and what is left of one that is. -/
theorem phase_or_spoiled (hcreated : Created s₀) (h : (lts T).Run s₀ tr s)
    (hbefore : ∀ p ∈ tr, p.1.core.destroyed = false) :
    ((∀ p ∈ tr, ¬ Breaks p.1 p.2) →
      Phase s.core ∧ s.core.destroyed = false ∨ Complete s.core.log ∧ s.core.destroyed = true) ∧
    ((∃ p ∈ tr, Breaks p.1 p.2) →
      Spoiled s.core ∧ s.core.destroyed = false ∨
        ¬ Complete s.core.log ∧ s.core.destroyed = true) := by
  induction h with
  | nil =>
    refine ⟨fun _ => .inl ⟨hcreated.phase, ?_⟩, by simp⟩
    obtain ⟨_, _, _, hcore⟩ := hcreated.core
    rw [hcore]
    rfl
  | @snoc tr s s' a hrun hst ih =>
    obtain ⟨hkeep, hspoil⟩ := ih fun p hp => hbefore p (List.mem_append_left _ hp)
    have hd : s.core.destroyed = false := hbefore (s, a) List.mem_concat_self
    have hU : Unseen s := (hrun.invariant hcreated.unseen fun _ _ _ hU hst => Unseen.step hU hst).2
    have hphase (hall : ∀ p ∈ tr, ¬ Breaks p.1 p.2) : Phase s.core := by
      rcases hkeep hall with ⟨hP, -⟩ | ⟨-, hd'⟩
      · exact hP
      · simp [hd] at hd'
    constructor
    · intro hall
      have hP := hphase fun p hp => hall p (List.mem_append_left _ hp)
      rw [← hd]
      exact phase_step hP hU hst (hall (s, a) List.mem_concat_self)
    · rintro ⟨p, hp, hbreaks⟩
      -- the protocol is broken by this step, or was broken before
      by_cases hall : ∀ p ∈ tr, ¬ Breaks p.1 p.2
      · rcases List.mem_append.1 hp with hp | hp
        · exact absurd hbreaks (hall p hp)
        · cases List.mem_singleton.1 hp
          obtain ⟨hS, hd'⟩ := spoil_step (hphase hall) hst hbreaks
          exact .inl ⟨hS, hd'.trans hd⟩
      · push Not at hall
        rcases hspoil hall with ⟨hS, -⟩ | ⟨-, hd'⟩
        · exact spoiled_step hS hd hst
        · simp [hd] at hd'

/-- **When the callbacks are complete.**  At the end of the first `connectDestroyed` of a connection
the program has seen the callbacks of a whole life iff no step has broken the protocol. -/
theorem callbacks_complete_iff (hcreated : Created s₀) (h : (lts T).Run s₀ tr s)
    (hbefore : ∀ p ∈ tr, p.1.core.destroyed = false) (hdestroyed : s.core.destroyed = true) :
    Complete s.core.log ↔ ∀ p ∈ tr, ¬ Breaks p.1 p.2 := by
  obtain ⟨hkeep, hspoil⟩ := phase_or_spoiled hcreated h hbefore
  constructor
  · intro hcomplete p hp hbreaks
    rcases hspoil ⟨p, hp, hbreaks⟩ with ⟨-, hd⟩ | ⟨hnot, -⟩
    · simp [hdestroyed] at hd
    · exact hnot hcomplete
  · intro hall
    rcases hkeep hall with ⟨-, hd⟩ | ⟨hcomplete, -⟩
    · simp [hdestroyed] at hd
    · exact hcomplete

end Runs

/-- The state is before the end of the first `connectDestroyed`. -/
abbrev Alive (s : State Unit) (_ : Act Unit) : Prop := s.core.destroyed = false

/-- The owner of the server destroys it in a callback of the loop thread. -/
theorem callbacks_complete_iff_destroyed :
    ∃ (s₀ s : State Unit) (tr : List (State Unit × Act Unit)),
      Created s₀ ∧ (lts Unit).Run s₀ tr s ∧ s.core.destroyed = true ∧
      (Complete s.core.log ↔ ∀ p ∈ tr, ¬ Breaks p.1 p.2) := by
  obtain ⟨tr, hrun, halive⟩ := reachableBy_establishedUp (C := Alive) rfl (fun _ h => h)
    |>.tail (.inline (e := .connectDestroyed) trivial (.inl trivial) rfl
      (.enter rfl (by decide))) rfl
    |>.tail (.advance (w := .accepted 0) rfl (.advance nofun rfl)) rfl
    |>.tail (.advance (w := .accepted 0) rfl (.advance nofun rfl)) rfl
    |>.tail (.leave rfl (.leave rfl rfl)) rfl
  exact ⟨_, _, tr, created_establishing, hrun, rfl,
    callbacks_complete_iff created_establishing hrun halive rfl⟩

/-- The program shuts the connection down in its first callback and stops the loop; then the server
is destroyed.  The program is never told that the connection is down. -/
theorem not_callbacks_complete : ¬ ∀ (s₀ s : State Unit) (tr : List (State Unit × Act Unit)),
    Created s₀ → (lts Unit).Run s₀ tr s → (∀ p ∈ tr, p.1.core.destroyed = false) →
      s.core.destroyed = true → Complete s.core.log := by
  intro hall
  have hshut := reachableBy_establishedUp (C := Alive) rfl (fun _ h => h)
    |>.tail (.inline (e := .shutdown) trivial (.inl trivial) rfl (.enter rfl (by decide))) rfl
    |>.tail (.advance (w := .accepted 0) rfl (.advance nofun rfl)) rfl
    |>.tail (.advance (w := .accepted 0) rfl (.advance nofun rfl)) rfl
  have hquit := hshut
    |>.tail (.loop (a := .quit none) trivial nofun nofun nofun
      (.quit ⟨rfl, fun _ => .inr ⟨_, _, rfl⟩⟩)) rfl
    |>.tail (.loop (a := .quitWakeup none) trivial nofun nofun nofun (.quitWakeup rfl)) rfl
    |>.tail (.loop (a := .endFunctor) trivial (fun _ => ⟨rfl, rfl⟩) nofun nofun
      (.endFunctor rfl rfl)) rfl
    |>.tail (.loop (a := .clearCalling) trivial (fun _ => ⟨rfl, rfl⟩) nofun nofun
      (.clearCalling rfl)) rfl
    |>.tail (.loop (a := .test) trivial (fun _ => ⟨rfl, rfl⟩) nofun nofun
      (.test_return rfl rfl)) rfl
  obtain ⟨tr, hrun, halive⟩ := hquit
    |>.tail (.inline (e := .connectDestroyed) trivial (.inr ⟨rfl, rfl⟩) rfl
      (.enter rfl (by decide))) rfl
    |>.tail (.advance (w := .accepted 0) rfl (.advance nofun rfl)) rfl
  have hmem := (hall _ _ tr created_establishing hrun halive rfl).mem
  exact absurd hmem (by decide)

end Lifecycle

end TinyNetwork
