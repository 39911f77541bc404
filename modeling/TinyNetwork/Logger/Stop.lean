import TinyNetwork.Logger.AsyncLogging

/-!
# Stopping the logger

`stop` clears `running_` and joins the backend thread.  The backend tests `running_` only between
two iterations and does not look at the front-end buffers again when it leaves the loop.  What was
appended before the store is written if an iteration has begun and its exchange is still to come,
and is left in the front-end buffers otherwise.

## Main results

* `Stopping.step` : after the store to `running_`, what the backend has written or is going to
  write only grows by the exchange of an iteration that had already begun.
* `handed_at_stop_iff` : everything appended before `stop` has been handed to the log file when
  `stop` returns iff an exchange was to come or the front-end buffers were empty.
-/

namespace TinyNetwork

namespace AsyncLogging

variable {SIZE : ℕ}

/-- An iteration has begun, and its exchange is to come. -/
@[simp] def BackendPc.WillExchange : BackendPc → Prop
  | .locking | .checking | .waiting | .exchanging => True
  | _ => False

/-- The bytes handed to the log file, or about to be. -/
def State.delivered (s : State SIZE) : List UInt8 := s.handed ++ contents s.unwritten

/-- `running_` has been cleared by `stop`. -/
structure Stopping (s : State SIZE) : Prop where
  running : s.running = false
  stop : s.stop ≠ .notCalled
  started : s.pc ≠ .notStarted

/-- What a step can still do for the lines appended, once `running_` is cleared. -/
inductive Delivery (s s' : State SIZE) : Prop
  | before (h : s.pc.WillExchange) (h' : s'.pc.WillExchange)
      (happended : s.appended <+: s'.appended)
  | exchange (h : s.pc.WillExchange) (h' : ¬ s'.pc.WillExchange)
      (hdelivered : s'.delivered = s.appended.flatten)
  | after (h : ¬ s.pc.WillExchange) (h' : ¬ s'.pc.WillExchange)
      (hdelivered : s'.delivered = s.delivered)

variable {s s' p : State SIZE} {a : Act SIZE}

/-- A step that leaves the backend alone. -/
theorem Delivery.same (hpc : s'.pc = s.pc) (hdelivered : s'.delivered = s.delivered)
    (happended : s.appended <+: s'.appended) : Delivery s s' := by
  by_cases h : s.pc.WillExchange
  · exact .before h (hpc ▸ h) happended
  · exact .after h (hpc ▸ h) hdelivered

/-- **One step after the store to `running_`.** -/
theorem Stopping.step (hS : Stopping s) (hI : Inv s) (h : Step s a s') :
    Stopping s' ∧ Delivery s s' := by
  obtain ⟨hrun, hstop, hstarted⟩ := hS
  cases h with
  | start hpc => exact absurd hpc hstarted
  | stop hnot => exact absurd hnot hstop
  | lockAppend => exact ⟨⟨hrun, hstop, hstarted⟩, .same rfl rfl List.prefix_rfl⟩
  | @append logline fresh s₁ hlock hfresh h =>
    -- an append adds to the front, which is not delivered
    obtain ⟨s₂, hok, happ⟩ := hI.append (hI.logline logline hlock) hfresh
    obtain rfl : s₂ = s₁ := Except.ok.inj (hok.symm.trans h)
    have hframe := happ.frame
    refine ⟨⟨?_, ?_, ?_⟩, .same ?_ ?_ ?_⟩
    · rw [hframe]; exact hrun
    · rw [hframe]; exact hstop
    · rw [hframe]; exact hstarted
    · rw [hframe]
    · rw [hframe]; rfl
    · simp only [happ.appended]; exact List.prefix_append _ _
  | test_loop hpc h => simp [hrun] at h
  | test_leave hpc h =>
    exact ⟨⟨hrun, hstop, by simp⟩, .after (by simp [hpc]) (by simp)
      (by simp [State.delivered, State.handed, State.unwritten, hpc])⟩
  | lock hpc | check_wait hpc | check_go hpc | wakeup hpc =>
    exact ⟨⟨hrun, hstop, by simp⟩, .before (by simp [hpc]) (by simp) List.prefix_rfl⟩
  | exchange hpc =>
    refine ⟨⟨hrun, hstop, by simp⟩, .exchange (by simp [hpc]) (by simp) ?_⟩
    rw [← hI.order]
    simp [State.delivered, State.handed, State.unwritten, State.front, State.exchange, hpc]
  | @write i s₁ hpc hi h =>
    obtain ⟨buffer, hok, hcontents⟩ := write_of_draining (hI.draining (by simp [hpc])) hpc hi
    obtain rfl : _ = s₁ := Except.ok.inj (hok.symm.trans h)
    refine ⟨⟨hrun, hstop, by simp⟩, .after (by simp [hpc]) (by simp) ?_⟩
    rw [State.delivered, State.delivered, hcontents]
    simp [State.handed, State.unwritten]
  | endWrites hpc hi =>
    refine ⟨⟨hrun, hstop, by simp⟩, .after (by simp [hpc]) (by simp) ?_⟩
    simp [State.delivered, State.handed, State.unwritten, hpc, List.drop_of_length_le hi]
  | @recycle s₁ hpc h =>
    obtain ⟨buffer₁, buffer₂, -, -, hok⟩ := recycle_of_draining (hI.draining (by simp [hpc]))
    obtain rfl : _ = s₁ := Except.ok.inj (hok.symm.trans h)
    refine ⟨⟨hrun, hstop, by simp⟩, .after (by simp [hpc]) (by simp) ?_⟩
    simp [State.delivered, State.handed, State.unwritten, hpc]
  | flush hpc =>
    exact ⟨⟨hrun, hstop, by simp⟩, .after (by simp [hpc]) (by simp)
      (by simp [State.delivered, State.handed, State.unwritten, hpc])⟩
  | notify | join =>
    exact ⟨⟨hrun, by simp, hstarted⟩, .same rfl rfl List.prefix_rfl⟩

/-- What the run up to now owes to the lines appended in the state `p`, in which `running_` was
cleared: if an exchange was to come, it is to come or has taken them all; otherwise nothing is
written but what was on its way. -/
structure Owed (p s : State SIZE) : Prop where
  early : p.pc.WillExchange →
    s.pc.WillExchange ∧ p.appended <+: s.appended ∨
      ¬ s.pc.WillExchange ∧ p.appended.flatten <+: s.delivered
  late : ¬ p.pc.WillExchange → ¬ s.pc.WillExchange ∧ s.delivered = p.delivered

theorem Owed.step (hO : Owed p s) (h : Delivery s s') : Owed p s' := by
  cases h with
  | before hpc hpc' happended =>
    refine ⟨fun hp => ?_, fun hp => absurd hpc (hO.late hp).1⟩
    rcases hO.early hp with ⟨-, hle⟩ | ⟨hnot, -⟩
    · exact .inl ⟨hpc', hle.trans happended⟩
    · exact absurd hpc hnot
  | exchange hpc hpc' hdelivered =>
    refine ⟨fun hp => ?_, fun hp => absurd hpc (hO.late hp).1⟩
    rcases hO.early hp with ⟨-, ⟨rest, hrest⟩⟩ | ⟨hnot, -⟩
    · refine .inr ⟨hpc', ?_⟩
      rw [hdelivered, ← hrest, List.flatten_append]
      exact List.prefix_append _ _
    · exact absurd hpc hnot
  | after hpc hpc' hdelivered =>
    refine ⟨fun hp => ?_, fun hp => ⟨hpc', hdelivered.trans (hO.late hp).2⟩⟩
    rcases hO.early hp with ⟨hnot, -⟩ | ⟨-, hle⟩
    · exact absurd hnot hpc
    · exact .inr ⟨hpc', hdelivered ▸ hle⟩

/-- The backend has ended when `stop` has returned. -/
theorem finished_of_returned (h : (lts SIZE).Reachable (init SIZE) s) :
    s.stop = .returned → s.pc = .finished := by
  refine (h.invariant (I := fun s => Inv s ∧ (s.stop = .returned → s.pc = .finished))
    ⟨inv_init, nofun⟩ ?_).2
  rintro s a s' ⟨hI, hfin⟩ h
  refine ⟨hI.step h, fun hret => ?_⟩
  cases h with
  | join _ hpc => exact hpc
  | lockAppend => exact hfin hret
  | @append logline fresh s₁ hlock hfresh h =>
    obtain ⟨s₂, hok, happ⟩ := hI.append (hI.logline logline hlock) hfresh
    obtain rfl : s₂ = s₁ := Except.ok.inj (hok.symm.trans h)
    have hframe := happ.frame
    rw [hframe] at hret ⊢
    exact hfin hret
  | stop | notify => cases hret
  | @write i s₁ hpc hi h =>
    obtain ⟨buffer, hok, -⟩ := write_of_draining (hI.draining (by simp [hpc])) hpc hi
    obtain rfl : _ = s₁ := Except.ok.inj (hok.symm.trans h)
    simp [hfin hret] at hpc
  | @recycle s₁ hpc h =>
    obtain ⟨buffer₁, buffer₂, -, -, hok⟩ := recycle_of_draining (hI.draining (by simp [hpc]))
    obtain rfl : _ = s₁ := Except.ok.inj (hok.symm.trans h)
    simp [hfin hret] at hpc
  | start hpc | test_loop hpc | test_leave hpc | lock hpc | check_wait hpc | check_go hpc
  | wakeup hpc | exchange hpc | endWrites hpc | flush hpc => simp [hfin hret] at hpc

/-! ### `stop` can return -/

/-- The threads can go on so that `stop` returns. -/
def Returns (s : State SIZE) : Prop := ∃ s', (lts SIZE).Reachable s s' ∧ s'.stop = .returned

theorem Returns.head (hI : Inv s) (hS : Stopping s) (h : Step s a s')
    (hnext : Inv s' → Stopping s' → Returns s') : Returns s := by
  obtain ⟨s'', hreach, hret⟩ := hnext (hI.step h) (hS.step hI h).1
  exact ⟨s'', .head h hreach, hret⟩

theorem returns_finished (hI : Inv s) (hS : Stopping s) (hpc : s.pc = .finished) : Returns s := by
  cases hstop : s.stop with
  | notCalled => exact absurd hstop hS.stop
  | stored =>
    refine .head hI hS (.notify hstop) fun hI hS => .head hI hS (.join rfl hpc) fun _ _ => ?_
    exact ⟨_, .refl, rfl⟩
  | joining => exact .head hI hS (.join hstop hpc) fun _ _ => ⟨_, .refl, rfl⟩
  | returned => exact ⟨s, .refl, hstop⟩

theorem returns_testing (hI : Inv s) (hS : Stopping s) (hpc : s.pc = .testing) : Returns s :=
  .head hI hS (.test_leave hpc hS.running) fun hI hS => .head hI hS (.flush rfl) fun hI hS =>
    returns_finished hI hS rfl

theorem returns_recycling (hI : Inv s) (hS : Stopping s) (hpc : s.pc = .recycling) :
    Returns s := by
  obtain ⟨buffer₁, buffer₂, -, -, hok⟩ := recycle_of_draining (hI.draining (by simp [hpc]))
  exact .head hI hS (.recycle hpc hok) fun hI hS => returns_testing hI hS rfl

theorem returns_writing (n : ℕ) {s : State SIZE} {i : ℕ} (hI : Inv s) (hS : Stopping s)
    (hpc : s.pc = .writing i) (hn : s.buffersToWrite.length ≤ i + n) : Returns s := by
  induction n generalizing s i with
  | zero => exact .head hI hS (.endWrites hpc hn) fun hI hS => returns_recycling hI hS rfl
  | succ n ih =>
    by_cases hi : i < s.buffersToWrite.length
    · obtain ⟨buffer, hok, -⟩ := write_of_draining (hI.draining (by simp [hpc])) hpc hi
      refine .head hI hS (.write hpc hi hok) fun hI hS => ih hI hS rfl ?_
      simp only
      omega
    · exact .head hI hS (.endWrites hpc (Nat.not_lt.1 hi)) fun hI hS => returns_recycling hI hS rfl

theorem returns_exchanging (hI : Inv s) (hS : Stopping s) (hpc : s.pc = .exchanging) :
    Returns s :=
  .head hI hS (.exchange hpc) fun hI hS => returns_writing _ hI hS rfl (Nat.le_add_left _ _)

/-- The mutex is released. -/
theorem returns_of_free (hI : Inv s) (hS : Stopping s) (hmutex : s.mutex ≠ .backend)
    (hfree : ∀ {s' : State SIZE}, Inv s' → Stopping s' → s'.mutex = .free → s'.pc = s.pc →
      Returns s') :
    Returns s := by
  cases hm : s.mutex with
  | free => exact hfree hI hS hm rfl
  | backend => exact absurd hm hmutex
  | append logline =>
    have hfresh : (zeroed SIZE).cur = 0 := rfl
    obtain ⟨s', hok, happ⟩ := hI.append (hI.logline logline hm) hfresh
    refine .head hI hS (.append hm rfl hok) fun hI hS => hfree hI hS rfl ?_
    rw [happ.frame]

/-- **`stop` never hangs for good**: once it has cleared `running_`, the threads can go on so that
it returns. -/
theorem returns_of_stopping (hI : Inv s) (hS : Stopping s) : Returns s := by
  have hmutex := hI.mutex
  have hwait {s : State SIZE} (hI : Inv s) (hS : Stopping s) (hm : s.mutex = .free)
      (hpc : s.pc = .waiting) : Returns s :=
    .head hI hS (.wakeup hpc hm) fun hI hS => returns_exchanging hI hS rfl
  have hcheck {s : State SIZE} (hI : Inv s) (hS : Stopping s) (hpc : s.pc = .checking) :
      Returns s := by
    by_cases hne : s.buffers = []
    · exact .head hI hS (.check_wait hpc hne) fun hI hS => hwait hI hS rfl rfl
    · exact .head hI hS (.check_go hpc hne) fun hI hS => returns_exchanging hI hS rfl
  cases hpc : s.pc with
  | notStarted => exact absurd hpc hS.started
  | testing => exact returns_testing hI hS hpc
  | locking =>
    refine returns_of_free hI hS (by simp [hmutex, hpc]) fun hI hS hm hpc' => ?_
    exact .head hI hS (.lock (hpc'.trans hpc) hm) fun hI hS => hcheck hI hS rfl
  | checking => exact hcheck hI hS hpc
  | waiting =>
    exact returns_of_free hI hS (by simp [hmutex, hpc]) fun hI hS hm hpc' =>
      hwait hI hS hm (hpc'.trans hpc)
  | exchanging => exact returns_exchanging hI hS hpc
  | writing i => exact returns_writing _ hI hS hpc (Nat.le_add_left _ _)
  | recycling => exact returns_recycling hI hS hpc
  | leaving => exact .head hI hS (.flush hpc) fun hI hS => returns_finished hI hS rfl
  | finished => exact returns_finished hI hS hpc

/-! ### What `stop` leaves behind -/

variable {tr : List (State SIZE × Act SIZE)}

/-- **What `stop` leaves behind.**  When `stop` has returned, everything that was appended before
it cleared `running_` has been handed to the log file iff an iteration had begun and its exchange
was still to come, or the front-end buffers were empty. -/
theorem handed_at_stop_iff (h : (lts SIZE).Run (init SIZE) tr s) (hret : s.stop = .returned)
    (hstop : (p, .stop) ∈ tr) :
    p.appended.flatten <+: s.handed ↔ p.pc.WillExchange ∨ p.front = [] := by
  obtain ⟨p', hreach, hst, hrest⟩ := h.exists_step hstop
  have hI : Inv p := inv_of_reachable hreach
  have hstopped : Inv s ∧ Stopping s ∧ Owed p s := by
    refine hrest.invariant (I := fun s => Inv s ∧ Stopping s ∧ Owed p s) ⟨hI.step hst, ?_⟩ ?_
    · cases hst with
      | stop _ hpc =>
        exact ⟨⟨rfl, by simp, hpc⟩, fun hp => .inl ⟨hp, List.prefix_rfl⟩, fun hp => ⟨hp, rfl⟩⟩
    · rintro s a s' ⟨hI, hS, hO⟩ hst
      obtain ⟨hS', hD⟩ := hS.step hI hst
      exact ⟨hI.step hst, hS', hO.step hD⟩
  obtain ⟨-, -, hO⟩ := hstopped
  have hpc := finished_of_returned h.reachable hret
  have hdelivered : s.delivered = s.handed := by simp [State.delivered, State.unwritten, hpc]
  rw [← hdelivered]
  -- an exchange is still to come, or nothing in front is written any more
  by_cases hp : p.pc.WillExchange
  · rcases hO.early hp with ⟨hwill, -⟩ | ⟨-, hle⟩
    · simp [hpc] at hwill
    · exact iff_of_true hle (.inl hp)
  · rw [(hO.late hp).2, ← hI.order, ← State.delivered]
    constructor
    · intro hle
      have := hle.length_le
      rw [List.length_append] at this
      exact .inr (List.length_eq_zero_iff.1 (by omega))
    · rintro (hwill | hnil)
      · exact absurd hwill hp
      · simp only [hnil, List.append_nil, List.prefix_rfl]

theorem run_stop {s₀ : State SIZE} {tr' : List (State SIZE × Act SIZE)}
    (h : (lts SIZE).Run s₀ tr p) (hstop : p.stop = .notCalled) (hpc : p.pc ≠ .notStarted)
    (hrest : (lts SIZE).Run { p with running := false, stop := .stored } tr' s) :
    ∃ tr, (lts SIZE).Run s₀ tr s ∧ (p, .stop) ∈ tr :=
  ⟨_, (h.snoc (Step.stop hstop hpc)).append hrest, List.mem_append_left _ List.mem_concat_self⟩

/-- `stop` returns without another iteration of the backend. -/
theorem run_leave (hpc : p.pc = .testing) :
    ∃ tr, (lts SIZE).Run { p with running := false, stop := .stored } tr
      { p with running := false, pc := .finished, stop := .returned } :=
  ⟨_, .snoc (.snoc (.snoc (.snoc .nil (.test_leave hpc rfl)) (.flush rfl)) (.notify rfl))
    (.join rfl rfl)⟩

/-- `stop` is called when an iteration has begun: a line appended before is written. -/
theorem handed_at_stop_iff_begun : ∃ tr p s, (lts kLargeBuffer).Run (init kLargeBuffer) tr s ∧
    (p, .stop) ∈ tr ∧ s.stop = .returned ∧ p.appended = [[104, 105, 10]] ∧
    p.appended.flatten <+: s.handed := by
  have h₀ : (lts kLargeBuffer).Run (init kLargeBuffer) _ _ := .snoc .nil (.start rfl)
  have h₁ := h₀.snoc (.test_loop rfl rfl)
  have h₂ := run_append [104, 105, 10] (zeroed _) h₁ rfl (by decide) rfl rfl
  have hI := (inv_of_reachable h₂.reachable).step (Step.stop rfl (by decide))
  obtain ⟨s, ⟨tr', hrest⟩, hret⟩ := returns_of_stopping hI ⟨rfl, by decide, by decide⟩
  obtain ⟨tr, h, hmem⟩ := run_stop h₂ rfl (by decide) hrest
  exact ⟨tr, _, s, h, hmem, hret, rfl, (handed_at_stop_iff h hret hmem).2 (.inl trivial)⟩

/-- `stop` is called before the backend thread has begun an iteration: a line is lost. -/
theorem not_handed_at_stop : ∃ tr p s, (lts kLargeBuffer).Run (init kLargeBuffer) tr s ∧
    (p, .stop) ∈ tr ∧ s.stop = .returned ∧ p.appended = [[104, 105, 10]] ∧
    ¬ p.appended.flatten <+: s.handed := by
  have h₀ : (lts kLargeBuffer).Run (init kLargeBuffer) _ _ := .snoc .nil (.start rfl)
  have h₁ := run_append [104, 105, 10] (zeroed _) h₀ rfl (by decide) rfl rfl
  obtain ⟨tr, h, hmem⟩ := run_stop h₁ rfl (by decide) (run_leave rfl).choose_spec
  exact ⟨tr, _, _, h, hmem, rfl, rfl, by simp [State.handed, init]⟩

end AsyncLogging

end TinyNetwork
