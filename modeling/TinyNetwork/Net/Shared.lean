import TinyNetwork.Net.EventLoop
import TinyNetwork.Net.Interest

/-!
# A connection shared between threads

`Shared.lts T` is a connection, the loop it belongs to and any number of other threads `T` that
call `send(Buffer *)` and `shutdown()` on it.  The loop thread handles events and runs batches of
functors as in `EventLoop.lts`; what it does to the buffers and the channel of the connection
between two accesses to shared data is one step.  The accesses to `state_` and to the queue of
the loop are steps of their own.

The state keeps, for every thread, the messages its calls were to send, and the messages whose
`sendInLoop` has run.

## Main results

* `Shared.step_effects` : the tasks a connection queues itself are notifications.
* `Shared.Sequenced.step` : the messages of a thread run in the order of its calls.
-/

namespace TinyNetwork

open TcpConnection

namespace Shared

/-- A functor in the queue of the loop, with the thread that queued it. -/
abbrev Job (T : Type*) := Option T × Task

/-- What the loop thread still has to do in the current function of the connection. -/
inductive Todo where
  | queueInLoop (task : Task)
  /-- The end of `handleWrite`, from the test of `state_` on. -/
  | finishWrite

/-- Where a call of another thread stands. -/
inductive CallerPc where
  | idle
  /-- In `send`, after the test of `state_`, with the contents of the buffer. -/
  | sending (message : List UInt8)
  /-- In `shutdown`, after the test of `state_`. -/
  | closing
  /-- In `shutdown`, after the store to `state_`. -/
  | closed

/-- The message a call is about to queue. -/
def CallerPc.message : CallerPc → List (List UInt8)
  | .sending message => [message]
  | _ => []

/-- The connection, its loop and the threads. -/
structure State (T : Type*) where
  loop : EventLoop.State T (Job T)
  conn : TcpConnection
  todo : List Todo
  call : T → CallerPc
  /-- For every thread, the messages of its calls to `send` that found `state_ == kConnected`. -/
  sent : Option T → List (List UInt8)
  /-- The messages whose `sendInLoop` has run, with the threads that sent them. -/
  ran : List (Option T × List UInt8)

/-- The steps of the threads. -/
inductive Act (T : Type*) where
  | loop (a : EventLoop.Act T (Job T))
  | startSend (w : WriteResult)
  | startShutdown
  | todo
  | event (e : Event)
  | beginSend (t : T) (buf : Buffer)
  | endSend (t : T)
  | beginShutdown (t : T)
  | storeShutdown (t : T)
  | endShutdown (t : T)

/-- What a function leaves to do: the tasks to queue. -/
def todoOf (effects : List Effect) : List Todo :=
  effects.filterMap fun
    | .queueInLoop task => some (.queueInLoop task)
    | _ => none

/-- The task is the program's own, neither a `sendInLoop` nor a `shutdownInLoop`. -/
def Task.Foreign : Task → Prop
  | .sendInLoop _ | .shutdownInLoop => False
  | _ => True

variable {T : Type*}

/-- The loop actions that involve the connection are made together with it. -/
def Plain : EventLoop.Act T (Job T) → Prop
  | .queueInLoop _ job | .runInLoop _ job | .startFunctor job => Task.Foreign job.2
  | _ => True

/-- The loop actions that end a handler or a functor. -/
def Ends : EventLoop.Act T (Job T) → Prop
  | .handleRead | .endEvents | .endFunctor => True
  | _ => False

/-- The loop actions by which the thread `t` begins a call. -/
def Calls (t : Option T) : EventLoop.Act T (Job T) → Prop
  | .queueInLoop t' _ | .runInLoop t' _ | .quit t' => t' = t
  | _ => False

/-- The loop thread is in user code or about to handle an event. -/
def State.Ready (s : State T) : Prop :=
  s.loop.pc.RunsCallback ∧ s.loop.call none = .idle ∧ s.todo = []

/-- The calls the loop thread makes itself, and the events of the channel. -/
def Direct : Event → Prop
  | .send _ _ | .sendBuffer _ _ | .shutdown | .handleRead _ | .handleClose
  | .connectDestroyed => True
  | _ => False

/-- The message a call of the loop thread sends. -/
def messageOf (c : TcpConnection) : Event → List (List UInt8)
  | .send buf _ => if c.state = .kConnected then [buf] else []
  | .sendBuffer buf _ => if c.state = .kConnected then [buf.readable] else []
  | _ => []

section Lts

variable [DecidableEq T]

/-- The messages a call of the thread `t` was to send, with one more. -/
def State.record (s : State T) (t : Option T) (messages : List (List UInt8)) :
    Option T → List (List UInt8) :=
  Function.update s.sent t (s.sent t ++ messages)

/-- The steps of the threads. -/
inductive Step (s : State T) : Act T → State T → Prop
  | loop {a loop} (ha : Plain a) (hend : Ends a → s.todo = [])
      (hcall : ∀ t, Calls (some t) a → s.call t = .idle) (h : EventLoop.Step s.loop a loop) :
      Step s (.loop a) { s with loop }
  | startSend {t message w loop conn effects}
      (h : EventLoop.Step s.loop (.startFunctor (t, .sendInLoop message)) loop)
      (htodo : s.todo = []) (hw : w.Legal message.length)
      (hconn : s.conn.sendInLoop message w = .ok (conn, effects)) :
      Step s (.startSend w)
        { s with loop, conn, todo := todoOf effects, ran := s.ran ++ [(t, message)] }
  | startShutdown {t loop} (htodo : s.todo = [])
      (h : EventLoop.Step s.loop (.startFunctor (t, .shutdownInLoop)) loop) :
      Step s .startShutdown { s with loop, conn := s.conn.shutdownInLoop }
  | queueInLoop {task todo loop} (htodo : s.todo = .queueInLoop task :: todo)
      (h : EventLoop.Step s.loop (.queueInLoop none (none, task)) loop) :
      Step s .todo { s with loop, todo }
  | finishWrite {todo} (htodo : s.todo = .finishWrite :: todo)
      (hcall : s.loop.call none = .idle) :
      Step s .todo { s with
        conn := if s.conn.state = .kDisconnecting then s.conn.shutdownInLoop else s.conn
        todo }
  | event {e conn effects} (hready : s.Ready) (he : Direct e) (hlegal : e.Legal s.conn)
      (hconn : s.conn.handle e = .ok (conn, effects)) :
      Step s (.event e) { s with
        conn
        todo := todoOf effects
        sent := s.record none (messageOf s.conn e)
        ran := s.ran ++ (messageOf s.conn e).map fun message => (none, message) }
  | handleWrite {w conn effects drained} (hready : s.Ready)
      (hlegal : (Event.handleWrite w).Legal s.conn)
      (hconn : s.conn.handleWriteData w = (conn, effects, drained)) :
      Step s (.event (.handleWrite w)) { s with
        conn
        todo := todoOf effects ++ if drained then [.finishWrite] else [] }
  | beginSend {t buf message buf'} (hcall : s.call t = .idle)
      (hloop : s.loop.call (some t) = .idle) (hstate : s.conn.state = .kConnected) (hbuf : buf.Wf)
      (hread : buf.retrieveAllAsString = .ok (message, buf')) :
      Step s (.beginSend t buf) { s with
        call := Function.update s.call t (.sending message)
        sent := s.record (some t) [message] }
  | endSend {t message loop} (hcall : s.call t = .sending message)
      (h : EventLoop.Step s.loop (.runInLoop (some t) (some t, .sendInLoop message)) loop) :
      Step s (.endSend t) { s with loop, call := Function.update s.call t .idle }
  | beginShutdown {t} (hcall : s.call t = .idle) (hloop : s.loop.call (some t) = .idle)
      (hstate : s.conn.state = .kConnected) :
      Step s (.beginShutdown t) { s with call := Function.update s.call t .closing }
  | storeShutdown {t} (hcall : s.call t = .closing) :
      Step s (.storeShutdown t) { s with
        conn := s.conn.setState .kDisconnecting
        call := Function.update s.call t .closed }
  | endShutdown {t loop} (hcall : s.call t = .closed)
      (h : EventLoop.Step s.loop (.runInLoop (some t) (some t, .shutdownInLoop)) loop) :
      Step s (.endShutdown t) { s with loop, call := Function.update s.call t .idle }

/-- The connection, its loop and the threads. -/
def lts (T : Type*) [DecidableEq T] : LTS (State T) (Act T) where
  step := Step

end Lts

/-! ### The messages of a thread -/

section Messages

variable [DecidableEq T]

/-- The message a job sends for the thread `t`. -/
def messageBy (t : Option T) : Job T → Option (List UInt8)
  | (t', .sendInLoop message) => if t' = t then some message else none
  | _ => none

/-- The messages of the thread `t` in the queue of the loop. -/
def queuedBy (loop : EventLoop.State T (Job T)) (t : Option T) : List (List UInt8) :=
  loop.queue.filterMap (messageBy t)

/-- The messages of the thread `t` among those whose `sendInLoop` has run. -/
def ranBy (ran : List (Option T × List UInt8)) (t : Option T) : List (List UInt8) :=
  ran.filterMap fun p => if p.1 = t then some p.2 else none

/-- The message the thread `t` is about to queue. -/
def inFlight (call : T → CallerPc) : Option T → List (List UInt8)
  | none => []
  | some t => (call t).message

/-- The messages of a thread are run, queued and in flight in the order of its calls. -/
structure Sequenced (s : State T) : Prop where
  order : ∀ t, ranBy s.ran t ++ queuedBy s.loop t ++ inFlight s.call t = s.sent t
  /-- The loop thread sends without the queue. -/
  own : queuedBy s.loop none = []
  todo : ∀ task, .queueInLoop task ∈ s.todo → Task.Foreign task

variable {s : State T} {loop loop' : EventLoop.State T (Job T)} {t t' : Option T}

theorem messageBy_foreign {job : Job T} (h : Task.Foreign job.2) : messageBy t job = none := by
  obtain ⟨t', task⟩ := job
  cases task <;> first | rfl | exact h.elim

/-- What a step of the loop does to the messages in its queue. -/
theorem queuedBy_step {a : EventLoop.Act T (Job T)} (h : EventLoop.Step loop a loop')
    (t : Option T) : queuedBy loop t ++ a.pushed.filterMap (messageBy t) =
      a.started.filterMap (messageBy t) ++ queuedBy loop' t := by
  rw [queuedBy, ← List.filterMap_append, EventLoop.step_queue h, List.filterMap_append, queuedBy]

/-- A step of the loop alone leaves the messages in its queue alone. -/
theorem queuedBy_plain {a : EventLoop.Act T (Job T)} (ha : Plain a)
    (h : EventLoop.Step loop a loop') (t : Option T) : queuedBy loop' t = queuedBy loop t := by
  have hq := queuedBy_step h t
  have hmsg : a.pushed.filterMap (messageBy t) = [] ∧ a.started.filterMap (messageBy t) = [] := by
    cases a with
    | runInLoop t' job =>
      have := messageBy_foreign (t := t) ha
      simp only [EventLoop.Act.pushed, EventLoop.Act.started]
      split_ifs <;> simp [this]
    | queueInLoop t' job | startFunctor job =>
      have := messageBy_foreign (t := t) ha
      simp [EventLoop.Act.pushed, EventLoop.Act.started, this]
    | _ => simp [EventLoop.Act.pushed, EventLoop.Act.started]
  rw [hmsg.1, hmsg.2, List.append_nil, List.nil_append] at hq
  exact hq.symm

/-- Taking a job from the queue. -/
theorem queuedBy_start {job : Job T} (h : EventLoop.Step loop (.startFunctor job) loop')
    (t : Option T) : queuedBy loop t = (messageBy t job).toList ++ queuedBy loop' t := by
  have hq := queuedBy_step h t
  simp only [EventLoop.Act.pushed, EventLoop.Act.started, List.filterMap_nil,
    List.append_nil] at hq
  rw [hq]
  cases hm : messageBy t job <;> simp [hm]

/-- Adding a job to the queue. -/
theorem queuedBy_push {a : EventLoop.Act T (Job T)} {job : Job T}
    (h : EventLoop.Step loop a loop') (hpush : a.pushed = [job]) (hstart : a.started = [])
    (t : Option T) : queuedBy loop' t = queuedBy loop t ++ (messageBy t job).toList := by
  have hq := queuedBy_step h t
  rw [hpush, hstart, List.filterMap_nil, List.nil_append] at hq
  rw [← hq]
  cases hm : messageBy t job <;> simp [hm]

theorem ranBy_append {ran ran' : List (Option T × List UInt8)} :
    ranBy (ran ++ ran') t = ranBy ran t ++ ranBy ran' t := List.filterMap_append

theorem ranBy_map {messages : List (List UInt8)} :
    ranBy (messages.map fun message => (t', message)) t = if t' = t then messages else [] := by
  split_ifs with h
  · simp [ranBy, h, List.filterMap_map]
  · simp [ranBy, h, List.filterMap_map]

theorem inFlight_update {call : T → CallerPc} {t₀ : T} {pc : CallerPc} :
    inFlight (Function.update call t₀ pc) t =
      if t = some t₀ then pc.message else inFlight call t := by
  cases t with
  | none => rfl
  | some t =>
    simp only [inFlight, Function.update_apply, Option.some.injEq]
    split_ifs <;> rfl

theorem record_apply {messages : List (List UInt8)} :
    s.record t' messages t = s.sent t ++ if t = t' then messages else [] := by
  simp only [State.record, Function.update_apply]
  split_ifs with h
  · rw [h]
  · rw [List.append_nil]

end Messages

/-! ### What a connection queues -/

/-- The effects queue no `sendInLoop` and no `shutdownInLoop`. -/
def Notifies (effects : List Effect) : Prop :=
  ∀ task, .queueInLoop task ∈ effects → Task.Foreign task

section Notifies

variable {c c' : TcpConnection} {data : List UInt8} {w : WriteResult} {effects : List Effect}

theorem Notifies.todo (h : Notifies effects) {task : Task}
    (htask : .queueInLoop task ∈ todoOf effects) : Task.Foreign task := by
  obtain ⟨effect, hmem, heq⟩ := List.mem_filterMap.1 htask
  cases effect with
  | queueInLoop task' =>
    cases heq
    exact h _ hmem
  | _ => cases heq

theorem notifies_nil : Notifies [] := fun _ h => nomatch h

theorem notifies_ite {p : Prop} [Decidable p] {task : Task} (h : Task.Foreign task) :
    Notifies (if p then [.queueInLoop task] else []) := by
  split_ifs
  · intro task' hmem
    cases List.mem_singleton.1 hmem
    exact h
  · exact notifies_nil

theorem Notifies.append {effects' : List Effect} (h : Notifies effects)
    (h' : Notifies effects') : Notifies (effects ++ effects') :=
  fun task hmem => (List.mem_append.1 hmem).elim (h task) (h' task)

theorem notifies_writeFirst : Notifies (c.writeFirst data w).2.2.2 := by
  unfold writeFirst
  split_ifs
  · cases w with
    | accepted n => exact notifies_ite trivial
    | error e => exact notifies_nil
  · exact notifies_nil

theorem notifies_bufferRest {rest : List UInt8} (h : c.bufferRest rest = .ok (c', effects)) :
    Notifies effects := by
  obtain ⟨outputBuffer, -, heq⟩ := bind_eq_ok.1 h
  cases heq
  exact notifies_ite trivial

theorem notifies_sendInLoop (h : c.sendInLoop data w = .ok (c', effects)) :
    Notifies effects := by
  unfold sendInLoop at h
  split_ifs at h
  · cases h
    exact notifies_nil
  · simp only at h
    split_ifs at h
    · obtain ⟨⟨c₂, effects₂⟩, hbuf, heq⟩ := bind_eq_ok.1 h
      cases heq
      exact notifies_writeFirst.append (notifies_bufferRest hbuf)
    · cases h
      exact notifies_writeFirst

theorem notifies_handleWriteData : Notifies (c.handleWriteData w).2.1 := by
  unfold handleWriteData
  split
  · simp only
    split
    · split
      · exact notifies_ite trivial
      · exact notifies_nil
    · exact notifies_nil
  · exact notifies_nil

theorem notifies_send (h : c.send data w = .ok (c', effects)) : Notifies effects := by
  unfold send at h
  split_ifs at h
  · exact notifies_sendInLoop h
  · cases h
    exact notifies_nil

/-- The tasks a connection queues itself are notifications. -/
theorem notifies_handle {e : Event} (he : Direct e) (hlegal : e.Legal c)
    (h : c.handle e = .ok (c', effects)) : Notifies effects := by
  cases e with
  | send buf w => exact notifies_send h
  | sendBuffer buf w =>
    obtain ⟨⟨c₁, effects₁, buf'⟩, hsend, heq⟩ := bind_eq_ok.1 h
    cases heq
    exact notifies_send (sendBuffer_eq_ok hlegal.1 hsend)
  | shutdown =>
    cases h
    exact notifies_nil
  | handleRead r =>
    obtain ⟨⟨n, errno, inputBuffer⟩, -, h⟩ := bind_eq_ok.1 h
    simp only at h
    split_ifs at h <;> cases h <;> intro task hmem <;> simp at hmem
  | handleClose =>
    cases h
    intro task hmem
    simp at hmem
  | connectDestroyed =>
    simp only [handle, connectDestroyed] at h
    split_ifs at h <;> cases h <;> intro task hmem <;> simp at hmem
  | _ => exact he.elim

end Notifies

/-! ### Order -/

section Order

variable [DecidableEq T] {s s' : State T} {a : Act T} {t : Option T}

/-- A thread that goes on with a call, without queueing a message. -/
theorem Sequenced.advance {t₀ : T} {pc : CallerPc} {loop : EventLoop.State T (Job T)}
    {conn : TcpConnection} (hI : Sequenced s) (hcall : (s.call t₀).message = [])
    (hpc : pc.message = []) (hloop : ∀ t, queuedBy loop t = queuedBy s.loop t) :
    Sequenced { s with loop, conn, call := Function.update s.call t₀ pc } := by
  refine ⟨fun t => ?_, (hloop none).trans hI.own, hI.todo⟩
  simp only [hloop, inFlight_update, ← hI.order t]
  split_ifs with h
  · rw [h, inFlight, hcall, hpc]
  · rfl

theorem todo_handleWrite {c : TcpConnection} {w : WriteResult} {drained : Bool} {task : Task}
    (h : .queueInLoop task ∈ todoOf (c.handleWriteData w).2.1 ++
      if drained then [.finishWrite] else []) : Task.Foreign task := by
  rcases List.mem_append.1 h with h | h
  · exact notifies_handleWriteData.todo h
  · cases drained <;> simp at h

/-- Every step keeps the messages of every thread in order. -/
theorem Sequenced.step (hI : Sequenced s) (h : Step s a s') : Sequenced s' := by
  have horder := hI.order
  have hown := hI.own
  cases h with
  | loop ha _ _ h =>
    have hq := queuedBy_plain ha h
    exact ⟨fun t => by simp only [hq t, horder t], (hq none).trans hown, hI.todo⟩
  | @startSend t' message w loop conn effects h htodo hw hconn =>
    have hq := queuedBy_start h
    refine ⟨fun t => ?_, ?_, fun task => (notifies_sendInLoop hconn).todo⟩
    · -- the message goes from the queue to what has run
      have hmessage : ranBy [(t', message)] t = (messageBy t (t', .sendInLoop message)).toList := by
        by_cases ht : t' = t <;> simp [ranBy, messageBy, ht]
      rw [← horder t, hq t, ranBy_append, hmessage, List.append_assoc (ranBy s.ran t)]
    · exact (List.append_eq_nil_iff.1 ((hq none).symm.trans hown)).2
  | startShutdown htodo h =>
    have hq := queuedBy_start h
    refine ⟨fun t => ?_, ?_, hI.todo⟩
    · simpa [hq t, messageBy] using horder t
    · exact (List.append_eq_nil_iff.1 ((hq none).symm.trans hown)).2
  | @queueInLoop task todo loop htodo h =>
    -- a task of the loop itself carries no message
    have hforeign (t : Option T) : messageBy t (none, task) = none :=
      messageBy_foreign (hI.todo task (by simp [htodo]))
    have hq (t : Option T) : queuedBy loop t = queuedBy s.loop t := by
      rw [queuedBy_push h rfl rfl t, hforeign t, Option.toList_none, List.append_nil]
    exact ⟨fun t => by simp only [hq t, horder t], (hq none).trans hown,
      fun task' hmem => hI.todo task' (by simp [htodo, hmem])⟩
  | finishWrite htodo hcall =>
    exact ⟨horder, hown, fun task h => hI.todo task (by simp [htodo, h])⟩
  | event hready he hlegal hconn =>
    refine ⟨fun t => ?_, hown, fun task => (notifies_handle he hlegal hconn).todo⟩
    simp only [ranBy_append, ranBy_map, record_apply, ← horder t]
    by_cases ht : t = none
    · simp [ht, hown, inFlight]
    · simp [ht, Ne.symm ht]
  | @handleWrite w conn effects drained hready hlegal hconn =>
    refine ⟨horder, hown, fun task hmem => ?_⟩
    have heffects : (s.conn.handleWriteData w).2.1 = effects := by rw [hconn]
    exact todo_handleWrite (heffects ▸ hmem)
  | @beginSend t' buf message buf' hcall hloop hstate hbuf hread =>
    refine ⟨fun t => ?_, hown, hI.todo⟩
    -- the message is in flight until it is queued
    simp only [inFlight_update, record_apply, ← horder t]
    split_ifs with ht
    · simp [ht, inFlight, hcall, CallerPc.message]
    · rw [List.append_nil]
  | @endSend t' message loop hcall h =>
    have hq := queuedBy_push h rfl rfl
    refine ⟨fun t => ?_, by simp [hq none, hown, messageBy], hI.todo⟩
    rw [← horder t, hq t, inFlight_update]
    split_ifs with ht
    · simp [ht, inFlight, hcall, CallerPc.message, messageBy]
    · simp [messageBy, Ne.symm ht]
  | beginShutdown hcall => exact hI.advance (by rw [hcall]; rfl) rfl fun _ => rfl
  | storeShutdown hcall => exact hI.advance (by rw [hcall]; rfl) rfl fun _ => rfl
  | endShutdown hcall h =>
    refine hI.advance (by rw [hcall]; rfl) rfl fun t => ?_
    simpa [messageBy] using queuedBy_push h rfl rfl t

end Order

end Shared

end TinyNetwork
