import Mathlib
import TinyNetwork.LTS.Basic

/-!
# The event loop and its task queue

`EventLoop::loop` polls, handles the active channels and runs the functors other threads (or its
own handlers) have queued.  `EventLoop.lts T F` interleaves the loop thread with any number of
other threads `T` that call `queueInLoop`, `runInLoop` and `quit`, one atomic action at a time:
the push under `mutex_`, the write and the read of the eventfd, the return of the poll, the swap,
the start of a functor and the stores to the flags.  Functors are values of an arbitrary type
`F`; what a functor does to the loop is a sequence of further steps of the loop thread.

## Main results

* `EventLoop.step_queue` : a step changes the batch and `pendingFunctors_` only by taking the
  functor it starts from the front and adding the functor it pushes at the end.
* `EventLoop.Inv.step` : the invariant behind the wakeups.
* `EventLoop.no_lost_wakeup_fifo` : a loop blocked in the poll with functors pending is going to
  be woken up, and functors run at most once and in the order of the pushes.
-/

namespace TinyNetwork

namespace EventLoop

/-- Where the loop thread stands. -/
inductive LoopPc (F : Type*) where
  /-- Not in `loop()`. -/
  | outside
  /-- After `looping_ = true`, before `quit_ = false`. -/
  | entered
  /-- Before the test of `quit_`. -/
  | testing
  /-- Blocked in `poller_->poll`. -/
  | polling
  /-- Handling the active channels; `wake` tells that the wakeup channel is still to come. -/
  | handling (wake : Bool)
  /-- In `doPendingFunctors`, before `callingPendingFunctors_ = true`. -/
  | marking
  /-- Before the swap under `mutex_`. -/
  | swapping
  /-- Running the batch: the functor that is running, if any, and those after it. -/
  | running (functor : Option F) (functors : List F)

/-- Where a call to `queueInLoop` or `quit` stands. -/
inductive CallPc where
  | idle
  /-- After the push of `queueInLoop`, before its wakeup. -/
  | pushed
  /-- After the store of `quit`, before its wakeup. -/
  | quitStored
  deriving DecidableEq

/-- The loop as all threads see it.  The threads are `Option T`, the loop's own is `none`. -/
structure State (T F : Type*) where
  looping : Bool
  quit : Bool
  callingPendingFunctors : Bool
  pendingFunctors : List F
  /-- The counter of the eventfd `wakeupFd_`. -/
  counter : ℕ
  pc : LoopPc F
  call : Option T → CallPc

/-- The atomic actions of the threads. -/
inductive Act (T F : Type*) where
  /-- The push of `queueInLoop`. -/
  | queueInLoop (t : Option T) (cb : F)
  /-- `runInLoop`, up to the push when it comes to that. -/
  | runInLoop (t : Option T) (cb : F)
  /-- The end of `queueInLoop`: the test and the wakeup. -/
  | queueWakeup (t : Option T)
  /-- The store of `quit`. -/
  | quit (t : Option T)
  /-- The end of `quit`: the test and the wakeup. -/
  | quitWakeup (t : Option T)
  | enter
  | clearQuit
  | test
  | pollReturn (wake : Bool)
  | handleRead
  | endEvents
  | setCalling
  | swap
  | startFunctor (functor : F)
  | endFunctor
  | clearCalling

variable {T F : Type*}

/-- A loop that has been constructed. -/
def init : State T F where
  looping := false
  quit := false
  callingPendingFunctors := false
  pendingFunctors := []
  counter := 0
  pc := .outside
  call := fun _ => .idle

/-- `isInLoopThread()` of the calling thread. -/
def isInLoopThread (t : Option T) : Bool := t.isNone

/-- The largest value of an eventfd counter. -/
def maxCounter : ℕ := 2 ^ 64 - 2

namespace State

variable (s : State T F)

/-- `wakeup`: a write of 1 to the eventfd, which fails when the counter is at its maximum. -/
def wakeup : State T F :=
  { s with counter := if s.counter < maxCounter then s.counter + 1 else s.counter }

/-- `handleRead`: a read of the eventfd takes the whole counter, and fails when it is 0. -/
def handleRead : State T F := { s with counter := 0 }

/-- The push of `queueInLoop`. -/
def push (cb : F) : State T F := { s with pendingFunctors := s.pendingFunctors ++ [cb] }

/-- The test of `queueInLoop` that decides on the wakeup. -/
def needsWakeup (t : Option T) : Bool := !isInLoopThread t || s.callingPendingFunctors

/-- A thread can make a call: the other threads at any time, the loop thread from a handler or a
functor; a thread makes one call at a time. -/
def MayCall (t : Option T) : Prop :=
  s.call t = .idle ∧
    (isInLoopThread t → (∃ wake, s.pc = .handling wake) ∨ ∃ f fs, s.pc = .running (some f) fs)

/-- The functors swapped out and not yet started. -/
def batch : List F :=
  match s.pc with
  | .running _ functors => functors
  | _ => []

/-- The functors that are still to be started, in order. -/
def queue : List F := s.batch ++ s.pendingFunctors

end State

section Lts

variable [DecidableEq T]

/-- The steps of the threads. -/
inductive Step (s : State T F) : Act T F → State T F → Prop
  | queueInLoop {t cb} (hcall : s.MayCall t) :
      Step s (.queueInLoop t cb) { s.push cb with call := Function.update s.call t .pushed }
  | runInLoop_inline {t cb} (hcall : s.MayCall t) (hin : isInLoopThread t) :
      Step s (.runInLoop t cb) s
  | runInLoop_queue {t cb} (hcall : s.MayCall t) (hin : ¬ isInLoopThread t) :
      Step s (.runInLoop t cb) { s.push cb with call := Function.update s.call t .pushed }
  | queueWakeup {t} (hcall : s.call t = .pushed) :
      Step s (.queueWakeup t)
        { (if s.needsWakeup t then s.wakeup else s) with
          call := Function.update s.call t .idle }
  | quit {t} (hcall : s.MayCall t) :
      Step s (.quit t) { s with quit := true, call := Function.update s.call t .quitStored }
  | quitWakeup {t} (hcall : s.call t = .quitStored) :
      Step s (.quitWakeup t)
        { (if isInLoopThread t then s.wakeup else s) with
          call := Function.update s.call t .idle }
  | enter (hpc : s.pc = .outside) : Step s .enter { s with looping := true, pc := .entered }
  | clearQuit (hpc : s.pc = .entered) : Step s .clearQuit { s with quit := false, pc := .testing }
  | test_poll (hpc : s.pc = .testing) (hquit : s.quit = false) :
      Step s .test { s with pc := .polling }
  | test_return (hpc : s.pc = .testing) (hquit : s.quit = true) :
      Step s .test { s with looping := false, pc := .outside }
  /-- The poll returns after an event or a time-out; it reports the eventfd only if readable. -/
  | pollReturn {wake} (hpc : s.pc = .polling) (hwake : wake = true → 0 < s.counter) :
      Step s (.pollReturn wake) { s with pc := .handling wake }
  | handleRead (hpc : s.pc = .handling true) (hcall : s.call none = .idle) :
      Step s .handleRead { s.handleRead with pc := .handling false }
  | endEvents (hpc : s.pc = .handling false) (hcall : s.call none = .idle) :
      Step s .endEvents { s with pc := .marking }
  | setCalling (hpc : s.pc = .marking) :
      Step s .setCalling { s with callingPendingFunctors := true, pc := .swapping }
  | swap (hpc : s.pc = .swapping) :
      Step s .swap { s with pendingFunctors := [], pc := .running none s.pendingFunctors }
  | startFunctor {f fs} (hpc : s.pc = .running none (f :: fs)) :
      Step s (.startFunctor f) { s with pc := .running (some f) fs }
  | endFunctor {f fs} (hpc : s.pc = .running (some f) fs) (hcall : s.call none = .idle) :
      Step s .endFunctor { s with pc := .running none fs }
  | clearCalling (hpc : s.pc = .running none []) :
      Step s .clearCalling { s with callingPendingFunctors := false, pc := .testing }

/-- The loop and the threads around it. -/
def lts (T F : Type*) [DecidableEq T] : LTS (State T F) (Act T F) where
  step := Step

end Lts

namespace Act

/-- The functor an action pushes. -/
def pushed : Act T F → List F
  | .queueInLoop _ cb => [cb]
  | .runInLoop t cb => if isInLoopThread t then [] else [cb]
  | _ => []

/-- The functor of the queue an action starts. -/
def started : Act T F → List F
  | .startFunctor f => [f]
  | _ => []

end Act

/-- The functors pushed in the course of a run, in order. -/
def pushes (tr : List (State T F × Act T F)) : List F := tr.flatMap fun p => p.2.pushed

/-- The functors executed in the course of a run, in order. -/
def executed (tr : List (State T F × Act T F)) : List F := tr.flatMap fun p => p.2.started

/-! ### The queue -/

section Queue

variable {s s' s₀ : State T F} {a : Act T F} {tr : List (State T F × Act T F)}

theorem queue_push {cb : F} : (s.push cb).queue = s.queue ++ [cb] :=
  (List.append_assoc _ _ _).symm

theorem queue_wakeup_if (b : Bool) : (if b then s.wakeup else s).queue = s.queue := by
  cases b <;> rfl

variable [DecidableEq T]

/-- A step takes the functor it starts from the front of the queue and adds the functor it pushes
at the end. -/
theorem step_queue (h : Step s a s') : s.queue ++ a.pushed = a.started ++ s'.queue := by
  cases h with
  | queueInLoop => exact (queue_push (s := s)).symm
  | runInLoop_inline _ hin => simp [Act.pushed, Act.started, hin]
  | runInLoop_queue _ hin =>
    simp only [Act.pushed, hin, Act.started]
    exact (queue_push (s := s)).symm
  | @queueWakeup t =>
    exact (List.append_nil _).trans (queue_wakeup_if (s.needsWakeup t)).symm
  | @quitWakeup t => exact (List.append_nil _).trans (queue_wakeup_if (isInLoopThread t)).symm
  | quit => simp [Act.pushed, Act.started, State.queue, State.batch]
  | _ => simp_all [Act.pushed, Act.started, State.queue, State.batch, State.handleRead]

/-- Along a run the executed functors and the queue make up the push sequence. -/
theorem executed_append_queue (h : (lts T F).Run s₀ tr s) :
    executed tr ++ s.queue = s₀.queue ++ pushes tr := by
  induction h with
  | nil => simp [executed, pushes]
  | @snoc tr s s' a _ hst ih =>
    calc executed (tr ++ [(s, a)]) ++ s'.queue
        = executed tr ++ (a.started ++ s'.queue) := by simp [executed]
      _ = executed tr ++ s.queue ++ a.pushed := by rw [← step_queue hst, List.append_assoc]
      _ = s₀.queue ++ pushes (tr ++ [(s, a)]) := by rw [ih]; simp [pushes]

end Queue

/-! ### Wakeups -/

/-- The loop thread is past the poll and will swap `pendingFunctors_` before the next one. -/
@[simp] def LoopPc.SwapsNext : LoopPc F → Prop
  | .handling _ | .marking | .swapping => True
  | _ => False

/-- The places between the stores to `callingPendingFunctors_`. -/
@[simp] def LoopPc.Calling : LoopPc F → Prop
  | .swapping | .running _ _ => True
  | _ => False

/-- The places where the loop thread runs code that can call the loop. -/
@[simp] def LoopPc.RunsCallback : LoopPc F → Prop
  | .handling _ | .running (some _) _ => True
  | _ => False

/-- Whoever pushed the pending functors has woken the loop up or is about to, or the loop thread
swaps before it polls again. -/
def State.Noticed (s : State T F) : Prop :=
  0 < s.counter ∨ (∃ t, s.call (some t) = .pushed) ∨ s.pc.SwapsNext ∨
    s.callingPendingFunctors = true ∧ s.call none = .pushed

/-- The invariant of the loop. -/
structure Inv (s : State T F) : Prop where
  calling : s.callingPendingFunctors = true ↔ s.pc.Calling
  call : s.call none ≠ .idle → s.pc.RunsCallback
  noticed : s.pendingFunctors ≠ [] → s.Noticed

theorem counter_wakeup {s : State T F} : 0 < s.wakeup.counter := by
  simp only [State.wakeup]
  split_ifs with h
  · omega
  · simp only [maxCounter] at h; omega

theorem runsCallback_of_mayCall {s : State T F} {t : Option T} (h : s.MayCall t)
    (ht : t = none) : s.pc.RunsCallback := by
  subst ht
  obtain ⟨wake, hpc⟩ | ⟨f, fs, hpc⟩ := h.2 rfl <;> rw [hpc] <;> trivial

theorem inv_init : Inv (init : State T F) where
  calling := by simp [init, LoopPc.Calling]
  call := by simp [init]
  noticed := by simp [init]

namespace Inv

variable {s s' : State T F} {a : Act T F}

/-- The loop thread moves on, leaving the queue, the counter and the calls alone. -/
theorem move {pc : LoopPc F} {looping quit : Bool} (hI : Inv s)
    (hc : pc.Calling ↔ s.pc.Calling) (hr : s.call none ≠ .idle → pc.RunsCallback)
    (hs : s.pc.SwapsNext → pc.SwapsNext) :
    Inv { s with looping := looping, quit := quit, pc := pc } where
  calling := hI.calling.trans hc.symm
  call := hr
  noticed := fun hp => by
    rcases hI.noticed hp with h | h | h | h
    · exact .inl h
    · exact .inr (.inl h)
    · exact .inr (.inr (.inl (hs h)))
    · exact .inr (.inr (.inr h))

theorem call_idle (hI : Inv s) (hpc : ¬ s.pc.RunsCallback) : s.call none = .idle :=
  by_contra fun h => hpc (hI.call h)

variable [DecidableEq T]

/-- A thread that starts a call leaves the other calls alone. -/
theorem noticed_update {t : Option T} {c : CallPc} (h : s.Noticed) (ht : s.call t = .idle) :
    ({ s with call := Function.update s.call t c } : State T F).Noticed := by
  have hkeep : ∀ t', s.call t' = .pushed → Function.update s.call t c t' = .pushed := by
    rintro t' ht'
    rw [Function.update_of_ne (by rintro rfl; simp [ht] at ht')]
    exact ht'
  rcases h with h | ⟨t', h⟩ | h | ⟨hc, h⟩
  · exact .inl h
  · exact .inr (.inl ⟨t', hkeep _ h⟩)
  · exact .inr (.inr (.inl h))
  · exact .inr (.inr (.inr ⟨hc, hkeep _ h⟩))

theorem call_update {t : Option T} {c : CallPc} (hI : Inv s) (ht : s.MayCall t) :
    Function.update s.call t c none ≠ .idle → s.pc.RunsCallback := by
  intro hne
  by_cases h : t = none
  · exact runsCallback_of_mayCall ht h
  · rw [Function.update_of_ne (Ne.symm h)] at hne
    exact hI.call hne

/-- A push is noticed: by its own wakeup to come, or by the swap to come. -/
theorem push {t : Option T} {cb : F} (hI : Inv s) (ht : s.MayCall t) :
    Inv { s.push cb with call := Function.update s.call t .pushed } where
  calling := hI.calling
  call := hI.call_update ht
  noticed := fun _ => by
    cases t with
    | some t => exact .inr (.inl ⟨t, Function.update_self ..⟩)
    | none =>
      have hpc := ht.2 rfl
      rcases hpc with ⟨wake, hpc⟩ | ⟨f, fs, hpc⟩
      · exact .inr (.inr (.inl (by simp [hpc, State.push])))
      · refine .inr (.inr (.inr ⟨hI.calling.2 (by rw [hpc]; trivial), ?_⟩))
        simp

/-- The end of a call keeps what was noticed: a wakeup left out was not needed. -/
theorem call_end {t : Option T} {b : Bool} (hI : Inv s)
    (hb : s.call t = .pushed → b = s.needsWakeup t) :
    Inv { (if b then s.wakeup else s) with call := Function.update s.call t .idle } := by
  have hcall : Function.update s.call t .idle none ≠ .idle → s.pc.RunsCallback := by
    intro hne
    by_cases h : t = none
    · subst h; simp at hne
    · rw [Function.update_of_ne (Ne.symm h)] at hne
      exact hI.call hne
  cases b with
  | true => exact ⟨hI.calling, hcall, fun _ => .inl counter_wakeup⟩
  | false =>
    refine ⟨hI.calling, hcall, fun hp => ?_⟩
    have hkeep : ∀ t', s.call t' = .pushed →
        (s.needsWakeup t' = true) → Function.update s.call t .idle t' = .pushed := by
      intro t' ht' hw
      rw [Function.update_of_ne (by rintro rfl; simp [← hb ht'] at hw)]
      exact ht'
    rcases hI.noticed hp with h | ⟨t', h⟩ | h | ⟨hc, h⟩
    · exact .inl h
    · exact .inr (.inl ⟨t', hkeep _ h (by simp [State.needsWakeup, isInLoopThread])⟩)
    · exact .inr (.inr (.inl h))
    · exact .inr (.inr (.inr ⟨hc, hkeep _ h (by simp [State.needsWakeup, hc])⟩))

/-- Every step of every thread keeps the invariant. -/
theorem step (hI : Inv s) (h : Step s a s') : Inv s' := by
  cases h with
  | queueInLoop hcall => exact hI.push hcall
  | runInLoop_inline => exact hI
  | runInLoop_queue hcall => exact hI.push hcall
  | queueWakeup => exact hI.call_end fun _ => rfl
  | quit hcall =>
    exact ⟨hI.calling, hI.call_update hcall,
      fun hp => noticed_update (hI.noticed hp) hcall.1⟩
  | quitWakeup hcall =>
    refine hI.call_end ?_
    intro h
    simp [hcall] at h
  | enter hpc | clearQuit hpc | test_poll hpc _ | test_return hpc _ =>
    have hidle := hI.call_idle (by simp [hpc])
    exact hI.move (by simp [hpc]) (fun h => absurd hidle h) (by simp [hpc])
  | pollReturn hpc _ => exact hI.move (by simp [hpc]) (by simp) (by simp)
  | handleRead hpc hcall =>
    exact ⟨by simpa [hpc, State.handleRead] using hI.calling, by simp,
      fun _ => .inr (.inr (.inl trivial))⟩
  | endEvents hpc hcall => exact hI.move (by simp [hpc]) (fun h => absurd hcall h) (by simp)
  | setCalling hpc =>
    have hidle := hI.call_idle (by simp [hpc])
    exact ⟨by simp, fun h => absurd hidle h, fun _ => .inr (.inr (.inl trivial))⟩
  | swap hpc =>
    have hidle := hI.call_idle (by simp [hpc])
    exact ⟨by simpa [hpc] using hI.calling, fun h => absurd hidle h, by simp⟩
  | startFunctor hpc => exact hI.move (by simp [hpc]) (by simp) (by simp [hpc])
  | endFunctor hpc hcall =>
    exact hI.move (by simp [hpc]) (fun h => absurd hcall h) (by simp [hpc])
  | clearCalling hpc =>
    have hidle := hI.call_idle (by simp [hpc])
    refine ⟨by simp, fun h => absurd hidle h, fun hp => ?_⟩
    rcases hI.noticed hp with h | h | h | ⟨_, h⟩
    · exact .inl h
    · exact .inr (.inl h)
    · simp [hpc] at h
    · simp [hidle] at h

end Inv

section Main

variable [DecidableEq T] {s : State T F} {tr : List (State T F × Act T F)}

/-- **No lost wakeup, tasks run at most once and in order.**  In every state of every run of the
loop and the threads around it: when the loop thread is blocked in the poll and functors are
pending, the counter of the eventfd is positive or another thread is between its push and its
wakeup; and the executed functors, the rest of the batch and the pending functors are the pushed
functors, in push order. -/
theorem no_lost_wakeup_fifo (h : (lts T F).Run init tr s) :
    (s.pc = .polling → s.pendingFunctors ≠ [] →
      0 < s.counter ∨ ∃ t, s.call (some t) = .pushed) ∧
    executed tr ++ s.batch ++ s.pendingFunctors = pushes tr ∧ executed tr <+: pushes tr := by
  have hI : Inv s := (h.invariant inv_init fun _ _ _ hI hst => Inv.step hI hst).2
  have hq : executed tr ++ s.batch ++ s.pendingFunctors = pushes tr := by
    simpa [State.queue, State.batch, init] using executed_append_queue h
  refine ⟨fun hpc hp => ?_, hq, s.batch ++ s.pendingFunctors, by rw [← hq, List.append_assoc]⟩
  rcases hI.noticed hp with h | h | h | ⟨_, h⟩
  · exact .inl h
  · exact .inr h
  · simp [hpc] at h
  · simp [hI.call_idle (by simp [hpc])] at h

/-- Another thread pushes 7 while the loop thread is blocked in the poll.  In the batch 7 pushes 8,
and the loop thread polls again with 8 pending. -/
theorem no_lost_wakeup_fifo_polling :
    ∃ (s : State Unit ℕ) (tr : List (State Unit ℕ × Act Unit ℕ)),
      (lts Unit ℕ).Run init tr s ∧ s.pc = .polling ∧ s.pendingFunctors = [8] ∧
      executed tr = [7] ∧ pushes tr = [7, 8] ∧
      (0 < s.counter ∨ ∃ t, s.call (some t) = .pushed) ∧
      executed tr ++ s.batch ++ s.pendingFunctors = pushes tr := by
  have hpolling : (lts Unit ℕ).Run init _ _ :=
    .snoc (.snoc (.snoc .nil (.enter rfl)) (.clearQuit rfl)) (.test_poll rfl rfl)
  have hpushed := hpolling.snoc (show Step _ (.queueInLoop (some ()) 7) _ from
    Step.queueInLoop ⟨rfl, fun h => absurd h Bool.false_ne_true⟩)
  have hwoken := (hpushed.snoc (Step.queueWakeup (t := some ()) rfl)).snoc
    (show Step _ (.pollReturn true) _ from Step.pollReturn rfl fun _ => Nat.one_pos)
  have hswapped := (((hwoken.snoc (Step.handleRead rfl rfl)).snoc (Step.endEvents rfl rfl)).snoc
    (Step.setCalling rfl)).snoc (Step.swap rfl)
  have hstarted := hswapped.snoc (Step.startFunctor rfl)
  have hqueued := (hstarted.snoc (show Step _ (.queueInLoop none 8) _ from
    Step.queueInLoop ⟨rfl, fun _ => .inr ⟨_, _, rfl⟩⟩)).snoc (Step.queueWakeup (t := none) rfl)
  have hrun := ((hqueued.snoc (Step.endFunctor rfl rfl)).snoc (Step.clearCalling rfl)).snoc
    (Step.test_poll rfl rfl)
  have hmain := no_lost_wakeup_fifo hrun
  exact ⟨_, _, hrun, rfl, rfl, rfl, rfl, hmain.1 rfl (List.cons_ne_nil _ _), hmain.2.1⟩

end Main

end EventLoop

end TinyNetwork
