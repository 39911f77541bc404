import TinyNetwork.Net.EventLoop

/-!
# Telling the loop to quit

`quit` stores `quit_` and wakes the loop up if the caller is the loop's own thread.  The thread of
the loop stores `quit_ = false` when it enters `loop()`, which may be after another thread has got
hold of the loop, and tests `quit_` between two iterations, without looking at the queue again.

## Main results

* `EventLoop.quit_iff` : `quit_` stays set until `loop()` returns, and the loop is not left
  sleeping, iff no call precedes the entry of `loop()` and none of another thread ends while the
  loop sleeps.
* `EventLoop.due_step` : whether a functor is going to run before the next test of `quit_` does
  not change until that test.
* `EventLoop.executed_iff` : a functor pushed before a call of `quit` is executed before `loop()`
  returns iff the call finds it swapped out, or the swap still to come.
-/

namespace TinyNetwork

namespace EventLoop

variable {T F : Type*}

/-! ### The flag and the wakeup -/

/-- The calls of `quit` since `loop()` last returned. -/
structure Quits (T : Type*) where
  /-- Some call has stored `quit_`. -/
  called : Bool
  /-- The other threads whose call has stored `quit_` and is still to return. -/
  storing : T → Bool
  /-- The other threads whose call has returned. -/
  returned : T → Bool

namespace Quits

/-- No call. -/
def none : Quits T := ⟨false, fun _ => false, fun _ => false⟩

variable [DecidableEq T]

/-- The calls after a step. -/
def record (s : State T F) : Act T F → Quits T → Quits T
  | .quit t, q =>
    { q with
      called := true
      storing := fun t' => if t = some t' then true else q.storing t' }
  | .quitWakeup t, q =>
    { q with
      storing := fun t' => if t = some t' then false else q.storing t'
      returned := fun t' => if t = some t' ∧ q.storing t' then true else q.returned t' }
  -- `loop()` returns
  | .test, q => if s.quit then none else q
  | _, q => q

end Quits

section Thread

variable [DecidableEq T]

/-- The steps of the threads, with those of the loop's own thread outside `loop()`. -/
inductive ThreadStep (s : State T F) : Act T F → State T F → Prop
  | step {a s'} (h : Step s a s') : ThreadStep s a s'
  /-- A whole call of `quit`, which sees its own thread. -/
  | quitOutside (hpc : s.pc = .outside) :
      ThreadStep s (.quit none) { s.wakeup with quit := true }

/-- The loop and the threads around it, with the calls of `quit`. -/
def quitLts (T F : Type*) [DecidableEq T] : LTS (State T F × Quits T) (Act T F) :=
  LTS.withHistory ⟨ThreadStep⟩ Quits.record

/-- No call of `quit` is lost, and none leaves the loop sleeping. -/
structure Kept (p : State T F × Quits T) : Prop where
  quit : p.2.called = true → p.1.quit = true
  /-- The loop does not begin another iteration. -/
  test : p.2.called = true → ∀ s', Step p.1 .test s' → s'.pc = .outside
  awake : ∀ t, p.2.returned t = true → p.1.pc = .polling → 0 < p.1.counter

/-- A step that loses no call of `quit`: the flag is cleared before the first call, and a call of
another thread does not end while the loop sleeps and nothing is going to wake it. -/
def KeepsQuit (p : State T F × Quits T) : Act T F → Prop
  | .clearQuit => p.2.called = false
  | .quitWakeup (some t) => p.2.storing t = true → p.1.pc = .polling → 0 < p.1.counter
  | _ => True

/-- The records of single threads are records of calls. -/
structure Quits.Consistent (q : Quits T) : Prop where
  storing : ∀ t, q.storing t = true → q.called = true
  returned : ∀ t, q.returned t = true → q.called = true

variable {s s' : State T F} {q : Quits T} {a : Act T F}

theorem Quits.Consistent.record (hq : q.Consistent) (s : State T F) (a : Act T F) :
    (q.record s a).Consistent := by
  cases a with
  | quit t => exact ⟨fun _ _ => rfl, fun _ _ => rfl⟩
  | quitWakeup t =>
    refine ⟨fun t' h => ?_, fun t' h => ?_⟩
    · simp only [Quits.record] at h
      split_ifs at h
      exact hq.storing t' h
    · simp only [Quits.record] at h
      split_ifs at h with hret
      · exact hq.storing t' hret.2
      · exact hq.returned t' h
  | test =>
    simp only [Quits.record]
    split_ifs
    · exact ⟨by simp [Quits.none], by simp [Quits.none]⟩
    · exact hq
  | _ => exact hq

/-- A test that finds `quit_` set makes `loop()` return. -/
theorem outside_of_test (hquit : s.quit = true) (h : Step s .test s') : s'.pc = .outside := by
  cases h with
  | test_poll _ hfalse => simp [hquit] at hfalse
  | test_return => rfl

/-- Only the entry of `loop()` clears `quit_`. -/
theorem quit_step (h : ThreadStep s a s') (ha : a ≠ .clearQuit) (hquit : s.quit = true) :
    s'.quit = true := by
  cases h with
  | quitOutside => rfl
  | step h =>
    cases h with
    | clearQuit => exact absurd rfl ha
    | queueWakeup | quitWakeup =>
      simp only
      split_ifs <;> exact hquit
    | quit => rfl
    | _ => exact hquit

/-- A loop that is told to quit and sleeps was asleep before, and nothing has woken it. -/
theorem asleep_step (h : ThreadStep s a s') (hquit : s.quit = true) (hpc : s'.pc = .polling)
    (hcounter : s'.counter = 0) : s.pc = .polling ∧ s.counter = 0 := by
  have hwakeup (b : Bool) (h : (if b then s.wakeup else s).counter = 0) : s.counter = 0 := by
    cases b with
    | true => exact absurd h (Nat.ne_of_gt counter_wakeup)
    | false => exact h
  have hpc_if (b : Bool) (h : (if b then s.wakeup else s).pc = .polling) : s.pc = .polling := by
    cases b <;> exact h
  cases h with
  | quitOutside => exact absurd hcounter (Nat.ne_of_gt counter_wakeup)
  | step h =>
    cases h with
    | @queueWakeup t => exact ⟨hpc_if (s.needsWakeup t) hpc, hwakeup (s.needsWakeup t) hcounter⟩
    | @quitWakeup t => exact ⟨hpc_if (isInLoopThread t) hpc, hwakeup (isInLoopThread t) hcounter⟩
    | test_poll _ hfalse => simp [hquit] at hfalse
    | queueInLoop | runInLoop_inline | runInLoop_queue | quit => exact ⟨hpc, hcounter⟩
    | _ => simp at hpc

theorem Kept.of_quit (hquit : q.called = true → s.quit = true)
    (hawake : ∀ t, q.returned t = true → s.pc = .polling → 0 < s.counter) : Kept (s, q) :=
  ⟨hquit, fun hcalled _ hst => outside_of_test (hquit hcalled) hst, hawake⟩

theorem kept_init : Kept ((init : State T F), (Quits.none : Quits T)) :=
  .of_quit (by simp [Quits.none]) (by simp [Quits.none])

/-- A step that loses no call keeps the flag of those before. -/
theorem Kept.quit_record (hK : Kept (s, q)) (ha : KeepsQuit (s, q) a) (h : ThreadStep s a s') :
    (q.record s a).called = true → s'.quit = true := by
  intro hcalled
  cases a with
  | quit t =>
    cases h with
    | quitOutside => rfl
    | step h => cases h; rfl
  | clearQuit => exact absurd hcalled (by simp [Quits.record, show q.called = false from ha])
  | test =>
    by_cases hquit : s.quit = true
    · simp [Quits.record, hquit, Quits.none] at hcalled
    · simp only [Quits.record, hquit] at hcalled
      exact absurd (hK.quit hcalled) hquit
  | _ => exact quit_step h (by simp) (hK.quit hcalled)

/-- A step that loses no call leaves the loop awake, or about to be woken up. -/
theorem Kept.awake_record (hK : Kept (s, q)) (hq : q.Consistent) (ha : KeepsQuit (s, q) a)
    (h : ThreadStep s a s') :
    ∀ t, (q.record s a).returned t = true → s'.pc = .polling → 0 < s'.counter := by
  intro t ht hpc
  by_contra hpos
  have hcounter : s'.counter = 0 := by omega
  have hasleep (hcalled : q.called = true) : s.pc = .polling ∧ s.counter = 0 :=
    asleep_step h (hK.quit hcalled) hpc hcounter
  -- whether the call of `t` had returned before the step, or returns by it
  have hbefore : q.returned t = false := by
    by_contra hret
    obtain ⟨hpoll, hzero⟩ := hasleep (hq.returned t (by simpa using hret))
    have : 0 < s.counter := hK.awake t (by simpa using hret) hpoll
    omega
  cases a with
  | quitWakeup t' =>
    simp only [Quits.record, hbefore] at ht
    split_ifs at ht with hnow
    obtain ⟨rfl, hstoring⟩ := hnow
    obtain ⟨hpoll, hzero⟩ := hasleep (hq.storing t hstoring)
    have : 0 < s.counter := ha hstoring hpoll
    omega
  | test =>
    simp only [Quits.record] at ht
    split_ifs at ht
    · simp [Quits.none] at ht
    · simp [hbefore] at ht
  | _ => simp [Quits.record, hbefore] at ht

/-- A step that loses a call breaks what was promised at once. -/
theorem not_kept (ha : ¬ KeepsQuit (s, q) a) (h : ThreadStep s a s') :
    ¬ Kept (s', q.record s a) := by
  intro hK
  cases a with
  | clearQuit =>
    cases h with
    | step h =>
      cases h with
      | clearQuit =>
        have hcalled : q.called = true := by simpa [KeepsQuit] using ha
        exact absurd (hK.quit hcalled) (by simp)
  | quitWakeup t =>
    cases t with
    | none => exact ha trivial
    | some t =>
      obtain ⟨hstoring, hpoll, hzero⟩ :
          q.storing t = true ∧ s.pc = .polling ∧ ¬ 0 < s.counter := by
        simpa [KeepsQuit] using ha
      cases h with
      | step h =>
        cases h with
        | quitWakeup => exact hzero (hK.awake t (by simp [Quits.record, hstoring]) hpoll)
  | _ => exact ha trivial

/-- **When `quit` is not lost.**  In every state of a run of a loop and the threads around it: once
`quit()` has stored, `quit_` stays set until `loop()` returns and the loop begins no further
iteration, and once a call of another thread has returned the loop does not sleep with the
eventfd at zero; all this iff in the run `loop()` clears the flag only before the first call, and
no call of another thread ends while the loop sleeps with the eventfd at zero. -/
theorem quit_iff {p : State T F × Quits T} {tr : List ((State T F × Quits T) × Act T F)}
    (h : (quitLts T F).Run (init, Quits.none) tr p) :
    ((∀ r ∈ tr, Kept r.1) ∧ Kept p) ↔ ∀ r ∈ tr, KeepsQuit r.1 r.2 := by
  refine h.forall_iff (J := fun p => p.2.Consistent)
    ⟨by simp [Quits.none], by simp [Quits.none]⟩ kept_init ?_ ?_ ?_
  · rintro ⟨s, q⟩ a ⟨s', _⟩ hq ⟨-, rfl⟩
    exact hq.record s a
  · rintro ⟨s, q⟩ a ⟨s', _⟩ hq hK ha ⟨hst, rfl⟩
    exact .of_quit (hK.quit_record ha hst) (hK.awake_record hq ha hst)
  · rintro ⟨s, q⟩ a ⟨s', _⟩ - - ha ⟨hst, rfl⟩
    exact not_kept ha hst

theorem run_snoc {p₀ : State T F × Quits T} {tr : List ((State T F × Quits T) × Act T F)}
    (h : (quitLts T F).Run p₀ tr (s, q)) (hst : Step s a s') :
    (quitLts T F).Run p₀ (tr ++ [((s, q), a)]) (s', q.record s a) :=
  h.snoc ⟨.step hst, rfl⟩

/-- A whole call of `quit` by another thread. -/
theorem run_quit {t : T} {p₀ : State T F × Quits T} {tr : List ((State T F × Quits T) × Act T F)}
    (h : (quitLts T F).Run p₀ tr (s, q)) (hidle : s.call (some t) = .idle) :
    ∃ tr' p, (quitLts T F).Run p₀ (tr ++ tr') p ∧
      tr'.map Prod.snd = [.quit (some t), .quitWakeup (some t)] ∧
      p.1 = { s with quit := true } ∧ p.2.returned t = true ∧
      ((s.pc = .polling → 0 < s.counter) → ∀ r ∈ tr', KeepsQuit r.1 r.2) := by
  have h₁ := run_snoc h (.quit (t := some t) ⟨hidle, by simp [isInLoopThread]⟩)
  have h₂ := run_snoc h₁ (.quitWakeup (t := some t) (Function.update_self ..))
  refine ⟨_, _, by rwa [List.append_assoc] at h₂, rfl, ?_, ?_, fun hawake => ?_⟩
  · simp [isInLoopThread, ← hidle]
  · simp [Quits.record]
  · simp only [List.mem_cons, List.cons_append, List.nil_append, List.not_mem_nil, or_false,
      forall_eq_or_imp, forall_eq]
    exact ⟨trivial, fun _ => hawake⟩

/-- The loop has begun when another thread tells it to quit. -/
theorem quit_iff_testing : ∃ tr p, (quitLts Unit ℕ).Run (init, Quits.none) tr p ∧
    tr.map Prod.snd = [.enter, .clearQuit, .quit (some ()), .quitWakeup (some ())] ∧
    p.2.returned () = true ∧ p.1.pc = .testing ∧ (∀ r ∈ tr, Kept r.1) ∧ Kept p := by
  have h₀ : (quitLts Unit ℕ).Run (init, Quits.none) [] (init, Quits.none) := .nil
  have h₁ := run_snoc (run_snoc h₀ (.enter rfl)) (.clearQuit rfl)
  obtain ⟨tr, p, h, htr, hp, hret, hkeeps⟩ := run_quit (t := ()) h₁ rfl
  refine ⟨_, p, h, by simp [htr], hret, by rw [hp], (quit_iff h).2 fun r hr => ?_⟩
  rcases List.mem_append.1 hr with hr | hr
  · simp only [List.nil_append, List.cons_append, List.mem_cons, List.not_mem_nil, or_false] at hr
    rcases hr with rfl | rfl
    · trivial
    · rfl
  · exact hkeeps (by simp) r hr

/-- A call of another thread before the loop clears the flag is lost, and one that ends while the
loop sleeps leaves it sleeping. -/
theorem not_kept_quit :
    (∃ tr p, (quitLts Unit ℕ).Run (init, Quits.none) tr p ∧
      tr.map Prod.snd = [.quit (some ()), .quitWakeup (some ()), .enter, .clearQuit, .test] ∧
      p.2.returned () = true ∧ p.1.quit = false ∧ p.1.pc = .polling ∧ p.1.counter = 0) ∧
    ∃ tr p, (quitLts Unit ℕ).Run (init, Quits.none) tr p ∧
      tr.map Prod.snd = [.enter, .clearQuit, .test, .quit (some ()), .quitWakeup (some ())] ∧
      p.2.returned () = true ∧ p.1.pc = .polling ∧ p.1.counter = 0 := by
  have h₀ : (quitLts Unit ℕ).Run (init, Quits.none) [] (init, Quits.none) := .nil
  constructor
  · obtain ⟨tr, ⟨_, q⟩, h₁, htr, rfl, hret, -⟩ := run_quit (t := ()) h₀ rfl
    have h₂ := run_snoc (run_snoc (run_snoc h₁ (.enter rfl)) (.clearQuit rfl)) (.test_poll rfl rfl)
    exact ⟨_, _, h₂, by simp [htr], hret, rfl, rfl, rfl⟩
  · have h₁ := run_snoc (run_snoc (run_snoc h₀ (.enter rfl)) (.clearQuit rfl))
      (.test_poll rfl rfl)
    obtain ⟨tr, ⟨_, q⟩, h₂, htr, rfl, hret, -⟩ := run_quit (t := ()) h₁ rfl
    exact ⟨_, _, h₂, by simp [htr], hret, rfl, rfl⟩

end Thread

/-! ### The functors pushed before -/

/-- In `loop()`, after the flag is cleared. -/
@[simp] def LoopPc.InLoop : LoopPc F → Prop
  | .outside | .entered => False
  | _ => True

/-- The loop thread swaps `pendingFunctors_` before it tests `quit_` again. -/
@[simp] def LoopPc.SwapsBeforeTest : LoopPc F → Prop
  | .polling | .handling _ | .marking | .swapping => True
  | _ => False

/-- `loop()` returns by a step. -/
def Returns (p : State T F × Act T F) : Prop := p.2 = .test ∧ p.1.quit = true

/-- After the run `tr` to `s`, the functor pushed after `n` others is in `pendingFunctors_`, if it
has been pushed. -/
def Pending (n : ℕ) (tr : List (State T F × Act T F)) (s : State T F) : Prop :=
  (pushes tr).length ≤ n + s.pendingFunctors.length

/-- After the run `tr` to `s`, the functor pushed after `n` others has been executed, is in the
batch, or is swapped out before the next test of `quit_`. -/
def Due (n : ℕ) (tr : List (State T F × Act T F)) (s : State T F) : Prop :=
  s.pc.SwapsBeforeTest ∨ n < (executed tr).length + s.batch.length

section Owed

variable [DecidableEq T] {s s' : State T F} {a : Act T F} {tr : List (State T F × Act T F)} {n : ℕ}

theorem length_queue (h : (lts T F).Run init tr s) :
    (executed tr).length + (s.batch.length + s.pendingFunctors.length) = (pushes tr).length := by
  have hq := congrArg List.length (executed_append_queue h)
  simpa [State.queue, State.batch, init] using hq

/-- A functor is due if it is not pending, or the swap is to come. -/
theorem due_iff (h : (lts T F).Run init tr s) :
    Due n tr s ↔ s.pc.SwapsBeforeTest ∨ ¬ Pending n tr s := by
  have := length_queue h
  refine or_congr_right ?_
  unfold Pending
  omega

/-- **A functor stays due, or not due, up to the next test of `quit_`.** -/
theorem due_step (h : (lts T F).Run init tr s) (hn : n < (pushes tr).length) (hst : Step s a s')
    (hpc : s.pc.InLoop) (ha : a ≠ .test) :
    s'.pc.InLoop ∧ (Due n (tr ++ [(s, a)]) s' ↔ Due n tr s) := by
  have hlen := length_queue h
  have hexec : (executed (tr ++ [(s, a)])).length = (executed tr).length + a.started.length := by
    simp [executed]
  unfold Due
  rw [hexec]
  cases hst with
  | test_poll | test_return => exact absurd rfl ha
  | @queueWakeup t =>
    cases hw : s.needsWakeup t <;> exact ⟨hpc, Iff.rfl⟩
  | @quitWakeup t =>
    cases hw : isInLoopThread t <;> exact ⟨hpc, Iff.rfl⟩
  | queueInLoop | runInLoop_inline | runInLoop_queue | quit => exact ⟨hpc, Iff.rfl⟩
  | enter hpc' | clearQuit hpc' => simp [hpc'] at hpc
  | pollReturn hpc' | handleRead hpc' | endEvents hpc' | setCalling hpc' => simp [hpc']
  | swap hpc' =>
    -- all that is queued goes into the batch
    refine ⟨trivial, iff_of_true (.inr ?_) (.inl (by simp [hpc']))⟩
    simp only [State.batch, hpc', List.length_nil] at hlen
    simp only [Act.started, State.batch, List.length_nil]
    omega
  | startFunctor hpc' =>
    refine ⟨trivial, ?_⟩
    simp only [LoopPc.SwapsBeforeTest, hpc', State.batch, Act.started, List.length_cons,
      List.length_nil, false_or]
    omega
  | endFunctor hpc' | clearCalling hpc' => simp [hpc', State.batch, Act.started]

/-- Once the loop is told to quit, a functor stays due, or not due, until `loop()` returns. -/
theorem due_run {tr' : List (State T F × Act T F)} (h : (lts T F).Run init tr s)
    (hn : n < (pushes tr).length) (hloop : s.pc.InLoop) (hquit : s.quit = true)
    (hrest : (lts T F).Run s tr' s') (hrun : ∀ p ∈ tr', ¬ Returns p) :
    s'.pc.InLoop ∧ s'.quit = true ∧ (Due n (tr ++ tr') s' ↔ Due n tr s) := by
  induction hrest with
  | nil => exact ⟨hloop, hquit, by rw [List.append_nil]⟩
  | @snoc tr' s₁ s₂ a hrest hst ih =>
    obtain ⟨hloop₁, hquit₁, hdue⟩ := ih fun p hp => hrun p (List.mem_append_left _ hp)
    have ha : a ≠ .test := by
      rintro rfl
      exact hrun _ List.mem_concat_self ⟨rfl, hquit₁⟩
    have hclear : a ≠ .clearQuit := by
      rintro rfl
      cases hst with
      | clearQuit hpc => simp [hpc] at hloop₁
    have hn' : n < (pushes (tr ++ tr')).length := by
      simp only [pushes, List.flatMap_append, List.length_append] at hn ⊢
      omega
    obtain ⟨hloop₂, hstep⟩ := due_step (h.append hrest) hn' hst hloop₁ ha
    rw [← List.append_assoc]
    exact ⟨hloop₂, quit_step (.step hst) hclear hquit₁, hstep.trans hdue⟩

/-- **Which functors run before `loop()` returns.**  Let a functor be pushed, and let a thread then
call `quit` while the loop runs.  At its next test `loop()` returns, and the functor has been
executed by then iff the call of `quit` found it swapped out, or found the loop between the test of
`quit_` and the swap. -/
theorem executed_iff {t : Option T} {cb : F} {s₁ s₂ s₃ : State T F}
    {tr₁ tr₂ tr₃ : List (State T F × Act T F)}
    (h : (lts T F).Run init
      (tr₁ ++ (s₁, a) :: tr₂ ++ (s₂, .quit t) :: tr₃ ++ [(s₃, .test)]) s)
    (ha : a.pushed = [cb]) (hloop : s₂.pc.InLoop) (hrun : ∀ p ∈ tr₃, ¬ Returns p) :
    Returns (s₃, (.test : Act T F)) ∧
      ((executed (tr₁ ++ (s₁, a) :: tr₂ ++ (s₂, .quit t) :: tr₃))[(pushes tr₁).length]? = some cb ↔
        s₂.pc.SwapsBeforeTest ∨ ¬ Pending (pushes tr₁).length (tr₁ ++ (s₁, a) :: tr₂) s₂) := by
  obtain ⟨s', hbody, hlast⟩ := h.split
  obtain ⟨rfl, s'', htest, -⟩ := hlast.uncons
  obtain ⟨s₂', hpre, hpost⟩ := hbody.split
  obtain ⟨rfl, s₄, hquit, hrest⟩ := hpost.uncons
  generalize hA : tr₁ ++ (s₁, a) :: tr₂ = A at hpre hbody ⊢
  have hpushes : pushes A = pushes tr₁ ++ cb :: pushes tr₂ := by
    simp [← hA, pushes, ha]
  have hn : (pushes tr₁).length < (pushes A).length := by
    simp [hpushes]
  -- the call of `quit` leaves the functor where it is
  have hstart := hpre.snoc hquit
  obtain ⟨hloop₄, hdue₄⟩ := due_step hpre hn hquit hloop (by simp)
  have hset : s₄.quit = true := by cases hquit; rfl
  have hn₄ : (pushes tr₁).length < (pushes (A ++ [(s₂, .quit t)])).length := by
    simpa [pushes, Act.pushed] using hn
  obtain ⟨-, hset₃, hdue⟩ := due_run hstart hn₄ hloop₄ hset hrest hrun
  rw [List.append_assoc, List.singleton_append] at hdue
  -- at the test nothing is left of the batch
  have hpc : s₃.pc = .testing := by cases htest <;> assumption
  have hexec : Due (pushes tr₁).length (A ++ (s₂, .quit t) :: tr₃) s₃ ↔
      (pushes tr₁).length < (executed (A ++ (s₂, .quit t) :: tr₃)).length := by
    simp [Due, hpc, State.batch]
  refine ⟨⟨rfl, hset₃⟩, ?_⟩
  rw [← due_iff hpre, ← hdue₄, ← hdue, hexec]
  constructor
  · intro hget
    exact (List.getElem?_eq_some_iff.1 hget).1
  · intro hlt
    have hprefix : executed (A ++ (s₂, .quit t) :: tr₃) <+:
        pushes (A ++ (s₂, .quit t) :: tr₃) := ⟨s₃.queue, executed_append_queue hbody⟩
    have hall : (pushes (A ++ (s₂, .quit t) :: tr₃))[(pushes tr₁).length]? = some cb := by
      rw [pushes, List.flatMap_append, ← pushes, hpushes, List.append_assoc,
        List.getElem?_append_right (Nat.le_refl _), Nat.sub_self]
      rfl
    rw [← hall, List.getElem?_eq_getElem hlt,
      List.getElem?_eq_getElem (Nat.lt_of_lt_of_le hlt hprefix.length_le), hprefix.getElem hlt]

/-- Another thread pushes a functor and wakes the loop up. -/
theorem run_queueInLoop {s₀ : State T F} (t : T) (cb : F) (h : (lts T F).Run s₀ tr s)
    (hidle : s.call (some t) = .idle) :
    (lts T F).Run s₀ (tr ++ [(s, .queueInLoop (some t) cb)] ++
      [({ s.push cb with call := Function.update s.call (some t) .pushed },
        .queueWakeup (some t))]) { (s.push cb).wakeup with call := s.call } := by
  have hpush : (lts T F).step s (.queueInLoop (some t) cb) _ :=
    Step.queueInLoop ⟨hidle, by simp [isInLoopThread]⟩
  have h₂ := (h.snoc hpush).snoc (.queueWakeup (t := some t) (Function.update_self ..))
  simpa [State.needsWakeup, isInLoopThread, State.wakeup, State.push, ← hidle] using h₂

/-- Another thread tells the loop to quit. -/
theorem run_quitCall {s₀ : State T F} (t : T) (h : (lts T F).Run s₀ tr s)
    (hidle : s.call (some t) = .idle) :
    (lts T F).Run s₀ (tr ++ [(s, .quit (some t))] ++
      [({ s with quit := true, call := Function.update s.call (some t) .quitStored },
        .quitWakeup (some t))]) { s with quit := true } := by
  have h₁ := h.snoc (.quit (t := some t) ⟨hidle, by simp [isInLoopThread]⟩)
  have h₂ := h₁.snoc (.quitWakeup (t := some t) (Function.update_self ..))
  simpa [isInLoopThread, ← hidle] using h₂

/-- A loop that sleeps is given a functor and then told to quit: it executes the functor. -/
theorem executed_iff_polling : ∃ tr s, (lts Unit ℕ).Run init tr s ∧
    tr.map Prod.snd = [.enter, .clearQuit, .test, .queueInLoop (some ()) 7,
      .queueWakeup (some ()), .quit (some ()), .quitWakeup (some ()), .pollReturn true,
      .handleRead, .endEvents, .setCalling, .swap, .startFunctor 7, .endFunctor, .clearCalling] ∧
    Returns (s, (.test : Act Unit ℕ)) ∧ (executed tr)[0]? = some 7 := by
  have h₀ : (lts Unit ℕ).Run init _ _ := .snoc (.snoc .nil (.enter rfl)) (.clearQuit rfl)
  have h₁ := run_queueInLoop () 7 (h₀.snoc (.test_poll rfl rfl)) rfl
  have h₂ := run_quitCall () h₁ rfl
  have hpoll (s : State Unit ℕ) (h : s.pc = .polling) (hc : 0 < s.counter) :
      (lts Unit ℕ).step s (.pollReturn true) _ := Step.pollReturn h fun _ => hc
  have h₃ := ((h₂.snoc (hpoll _ rfl Nat.one_pos)).snoc (.handleRead rfl rfl)).snoc
    (.endEvents rfl rfl)
  have h₄ := (((h₃.snoc (.setCalling rfl)).snoc (.swap rfl)).snoc (.startFunctor rfl)).snoc
    (.endFunctor rfl rfl)
  have h₅ := (h₄.snoc (.clearCalling rfl)).snoc (.test_return rfl rfl)
  have hmain := executed_iff (t := some ()) (show (lts Unit ℕ).Run init
    ([_, _, _] ++ (_, .queueInLoop (some ()) 7) :: [_] ++ (_, .quit (some ())) ::
      [_, _, _, _, _, _, _, _, _] ++ [(_, .test)]) _ from h₅) rfl trivial (by simp [Returns])
  exact ⟨_, _, h₄.snoc (.clearCalling rfl), rfl, hmain.1, hmain.2.2 (.inl trivial)⟩

/-- A loop is given a functor and told to quit while it runs a batch: it does not execute it. -/
theorem not_executed_running : ∃ tr s, (lts Unit ℕ).Run init tr s ∧
    tr.map Prod.snd = [.enter, .clearQuit, .test, .pollReturn false, .endEvents, .setCalling, .swap,
      .queueInLoop (some ()) 7, .queueWakeup (some ()), .quit (some ()), .quitWakeup (some ()),
      .clearCalling, .test] ∧ s.pc = .outside ∧ s.pendingFunctors = [7] ∧ executed tr = [] := by
  have h₀ : (lts Unit ℕ).Run init _ _ := .snoc (.snoc .nil (.enter rfl)) (.clearQuit rfl)
  have hpoll (s : State Unit ℕ) (h : s.pc = .polling) :
      (lts Unit ℕ).step s (.pollReturn false) _ := Step.pollReturn h (by simp)
  have h₁ := ((h₀.snoc (.test_poll rfl rfl)).snoc (hpoll _ rfl)).snoc (.endEvents rfl rfl)
  have h₂ := run_queueInLoop () 7 ((h₁.snoc (.setCalling rfl)).snoc (.swap rfl)) rfl
  have h₃ := (run_quitCall () h₂ rfl).snoc (.clearCalling rfl)
  exact ⟨_, _, h₃.snoc (.test_return rfl rfl), rfl, rfl, rfl, rfl⟩

end Owed

end EventLoop

end TinyNetwork
