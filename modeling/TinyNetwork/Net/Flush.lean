import TinyNetwork.Net.OutputStream

/-!
# Half-closing a connection shared between threads

A message that another thread sends waits in the queue of the loop.  `shutdownInLoop` does not look
at the queue: when it finds the channel not writing, it calls `shutdownWrite` at once.

`Shared.flushing T` runs a shared connection together with a history: which calls of `send` had
returned when a call of `shutdown()` began, and which messages had run while the connection was
open.

## Main results

* `Shared.output_step` : a step writes at the end of the output, or it calls `shutdownWrite`.
* `History.Inv.step` : the messages that ran while the connection was open are written or pending.
* `History.flushed` : when `shutdownWrite` is called, what was sent before has been written, if it
  has run.
-/

namespace TinyNetwork

open Lp64 TcpConnection

namespace Shared

/-! ### What a step does to the output -/

/-- More is written, and `shutdownWrite` is not called. -/
structure Grows (c c' : TcpConnection) : Prop where
  wf : c'.outputBuffer.Wf
  written : c.socket.written <+: c'.socket.written
  shutdownWrites : c'.socket.shutdownWrites = c.socket.shutdownWrites

section Grows

variable {c c' : TcpConnection} {data : List UInt8} {w : WriteResult} {es : List Effect}

theorem grows_of_eq (hwf : c.outputBuffer.Wf) (hb : c'.outputBuffer = c.outputBuffer)
    (hsocket : c'.socket = c.socket) : Grows c c' :=
  ⟨hb ▸ hwf, by rw [hsocket], by rw [hsocket]⟩

theorem Grows.sendInLoop (hwf : c.outputBuffer.Wf) (h : c.sendInLoop data w = .ok (c', es)) :
    Grows c c' := by
  by_cases hstate : c.state = .kDisconnected
  · rw [TcpConnection.sendInLoop, if_pos hstate] at h
    cases h
    exact grows_of_eq hwf rfl rfl
  cases sendInLoop_spec hwf hstate h with
  | split _ _ hfin _ hwritten _ hwf' => exact ⟨hwf', ⟨_, hwritten.symm⟩, hfin⟩
  | dropped => exact grows_of_eq hwf rfl rfl

theorem Grows.send (hwf : c.outputBuffer.Wf) (h : c.send data w = .ok (c', es)) : Grows c c' := by
  unfold TcpConnection.send at h
  split_ifs at h
  · exact Grows.sendInLoop hwf h
  · cases h
    exact grows_of_eq hwf rfl rfl

theorem Grows.drained (hwf : c.outputBuffer.Wf) (h : Drained c w c') : Grows c c' := by
  cases h with
  | idle => exact grows_of_eq hwf rfl rfl
  | taken _ _ _ _ _ hfin hwritten hwf' => exact ⟨hwf', ⟨_, hwritten.symm⟩, hfin⟩

/-- The calls and events other than `shutdown`. -/
theorem Grows.handle {e : Event} (hwf : c.outputBuffer.Wf) (he : Direct e) (hlegal : e.Legal c)
    (hne : e ≠ .shutdown) (h : c.handle e = .ok (c', es)) : Grows c c' := by
  cases e with
  | send buf w => exact Grows.send hwf h
  | sendBuffer buf w =>
    obtain ⟨⟨c₁, es₁, buf'⟩, hsend, heq⟩ := bind_eq_ok.1 h
    cases heq
    exact Grows.send hwf (sendBuffer_eq_ok hlegal.1 hsend)
  | shutdown => exact absurd rfl hne
  | handleRead r =>
    obtain ⟨⟨n, errno, inputBuffer⟩, -, h⟩ := bind_eq_ok.1 h
    simp only at h
    split_ifs at h <;> cases h <;> exact grows_of_eq hwf rfl rfl
  | handleClose =>
    cases h
    exact grows_of_eq hwf rfl rfl
  | connectDestroyed =>
    simp only [TcpConnection.handle, connectDestroyed] at h
    split_ifs at h <;> cases h <;> exact grows_of_eq hwf rfl rfl
  | _ => exact he.elim

end Grows

variable {T : Type*}

/-- The actions that call `shutdownWrite`: a `shutdownInLoop` that finds the channel not writing. -/
def State.Shuts (s : State T) : Act T → Prop
  | .startShutdown => s.conn.channel.isWriting = false
  | .todo => (∃ todo, s.todo = .finishWrite :: todo) ∧ s.conn.state = .kDisconnecting ∧
      s.conn.channel.isWriting = false
  | .event .shutdown => s.conn.state = .kConnected ∧ s.conn.channel.isWriting = false
  | _ => False

/-- What is done to the output of a connection: more is written, or `shutdownWrite` is called. -/
inductive Output (shuts : Prop) (c c' : TcpConnection) : Prop
  | grows (hshuts : ¬ shuts) (h : Grows c c')
  | shuts (hshuts : shuts) (hwriting : c.channel.isWriting = false)
      (hb : c'.outputBuffer = c.outputBuffer) (hwritten : c'.socket.written = c.socket.written)
      (hfin : c'.socket.shutdownWrites =
        c.socket.shutdownWrites ++ [c.outputBuffer.readableBytes])

/-- What was written stays written. -/
theorem Output.written {shuts : Prop} {c c' : TcpConnection} (h : Output shuts c c') :
    c.socket.written <+: c'.socket.written := by
  cases h with
  | grows _ h => exact h.written
  | shuts _ _ _ hwritten => rw [hwritten]

theorem Output.wf {shuts : Prop} {c c' : TcpConnection} (hwf : c.outputBuffer.Wf)
    (h : Output shuts c c') : c'.outputBuffer.Wf := by
  cases h with
  | grows _ h => exact h.wf
  | shuts _ _ hb => rwa [hb]

section Steps

variable [DecidableEq T] {s s' : State T} {a : Act T} {c : TcpConnection}

theorem shutdownInLoop_of_not_isWriting (h : c.channel.isWriting = false) :
    c.shutdownInLoop = { c with
      socket.shutdownWrites :=
        c.socket.shutdownWrites ++ [c.outputBuffer.readableBytes] } := by
  rw [shutdownInLoop, h]
  rfl

/-- **A step writes at the end of the output, or it calls `shutdownWrite`.** -/
theorem output_step (hwf : s.conn.outputBuffer.Wf) (h : Step s a s') :
    Output (s.Shuts a) s.conn s'.conn := by
  -- a step that does not touch the output
  have hsame (hshuts : ¬ s.Shuts a) (hconn : s'.conn = s.conn) :
      Output (s.Shuts a) s.conn s'.conn :=
    .grows hshuts (by rw [hconn]; exact grows_of_eq hwf rfl rfl)
  cases h with
  | loop | beginSend | endSend | beginShutdown | endShutdown => exact hsame id rfl
  | startSend _ _ _ hconn => exact .grows id (Grows.sendInLoop hwf hconn)
  | storeShutdown => exact .grows id (grows_of_eq hwf rfl rfl)
  | startShutdown =>
    cases hwriting : s.conn.channel.isWriting with
    | true =>
      -- bytes are pending, and the write side stays open
      refine hsame (fun hshuts => ?_) (shutdownInLoop_of_isWriting hwriting)
      exact absurd (hwriting.symm.trans hshuts) (by decide)
    | false =>
      simp only [shutdownInLoop_of_not_isWriting hwriting]
      exact .shuts hwriting hwriting rfl rfl rfl
  | queueInLoop htodo =>
    refine hsame (fun ⟨⟨todo, hfinish⟩, _⟩ => ?_) rfl
    rw [htodo] at hfinish
    cases hfinish
  | @finishWrite todo htodo =>
    -- the last write of a shutdown that was waiting for it
    by_cases hshuts : s.conn.state = .kDisconnecting ∧ s.conn.channel.isWriting = false
    · rw [if_pos hshuts.1, shutdownInLoop_of_not_isWriting hshuts.2]
      exact .shuts ⟨⟨todo, htodo⟩, hshuts⟩ hshuts.2 rfl rfl rfl
    · refine hsame (fun h => hshuts h.2) ?_
      simp only
      split_ifs with hstate
      · exact shutdownInLoop_of_isWriting (by simpa [hstate] using hshuts)
      · rfl
  | @event e conn effects hready he hlegal hconn =>
    by_cases hne : e = .shutdown
    · subst hne
      cases hconn
      by_cases hshuts : s.conn.state = .kConnected ∧ s.conn.channel.isWriting = false
      · simp only [TcpConnection.shutdown, if_pos hshuts.1]
        have hwriting : (s.conn.setState .kDisconnecting).channel.isWriting = false := hshuts.2
        rw [shutdownInLoop_of_not_isWriting hwriting]
        exact .shuts hshuts hshuts.2 rfl rfl rfl
      · refine .grows hshuts ?_
        simp only [TcpConnection.shutdown]
        split_ifs with hstate
        · have hwriting : s.conn.channel.isWriting = true := by simpa [hstate] using hshuts
          rw [shutdownInLoop_of_isWriting (c := s.conn.setState .kDisconnecting) hwriting]
          exact grows_of_eq hwf rfl rfl
        · exact grows_of_eq hwf rfl rfl
    · refine .grows (fun hshuts => ?_) (Grows.handle hwf he hlegal hne hconn)
      cases e <;> first | exact hne rfl | exact hshuts
  | @handleWrite w conn effects drained hready hlegal hconn =>
    have hdrained := (handleWriteData_spec (w := w) hwf).1
    rw [hconn] at hdrained
    exact .grows id (Grows.drained hwf hdrained)

end Steps

/-! ### Calls and their history -/

/-- What the threads do: a step of the shared connection, or a call of `shutdown()` by another
thread that does not find `kConnected` and returns. -/
inductive Move (T : Type*) where
  | step (a : Act T)
  | idleShutdown (t : T)

/-- A shared connection with the history of its calls. -/
structure History (T : Type*) where
  state : State T
  /-- For every other thread, how many of its messages were sent by calls that have returned. -/
  returned : T → ℕ
  /-- For every thread, how many of its messages were sent by calls that had returned when a
  call of `shutdown()` began. -/
  covered : Option T → ℕ
  /-- The messages that ran before `shutdownWrite` was called and before `connectDestroyed` found
  `kConnected`. -/
  opened : List (Option T × List UInt8)
  /-- `connectDestroyed` has found `kConnected`. -/
  destroyed : Bool
  /-- It found bytes pending. -/
  lost : Bool

namespace History

/-- A history that begins in a state. -/
def start (s₀ : State T) : History T where
  state := s₀
  returned := fun _ => 0
  covered := fun _ => 0
  opened := []
  destroyed := false
  lost := false

/-- For every thread, how many of its messages were sent by calls that have returned; a call on the
loop thread sends in one step. -/
def ended (h : History T) : Option T → ℕ
  | none => (h.state.sent none).length
  | some t => h.returned t

/-- What is covered after a move that may begin a call of `shutdown()`. -/
def covers (h : History T) : Move T → Option T → ℕ
  | .step (.event .shutdown) | .step (.beginShutdown _) | .idleShutdown _ => h.ended
  | _ => h.covered

/-- Does `connectDestroyed` find `kConnected` in the move? -/
def destroys (h : History T) : Move T → Bool
  | .step (.event .connectDestroyed) => h.state.conn.state = .kConnected
  | _ => false

/-- `shutdownWrite` has not been called, and the connection has not been destroyed while
connected. -/
def Open (h : History T) : Prop :=
  h.state.conn.socket.shutdownWrites = [] ∧ h.destroyed = false

variable [DecidableEq T]

/-- The calls that have returned after a move. -/
def returns (h : History T) : Move T → T → ℕ
  | .step (.loop (.queueWakeup (some t))) =>
    Function.update h.returned t (h.state.sent (some t)).length
  | _ => h.returned

/-- The history after a move to the state `s'`. -/
def next (h : History T) (m : Move T) (s' : State T) : History T where
  state := s'
  returned := h.returns m
  covered := h.covers m
  opened :=
    if s'.conn.socket.shutdownWrites = [] ∧ ¬ (h.destroyed || h.destroys m) then s'.ran
    else h.opened
  destroyed := h.destroyed || h.destroys m
  lost := h.lost || h.destroys m && h.state.conn.outputBuffer.readableBytes != 0

end History

/-- The peer neither closes nor resets the connection: nothing reports its end, and a write only
fails for good after `shutdownWrite`.  No `::write` takes more than the kernel allows. -/
def Present (s : State T) : Move T → Prop
  | .step (.event .handleClose) | .step (.event (.handleRead (.data []))) => False
  | .step (.startSend w) | .step (.event (.send _ w)) | .step (.event (.sendBuffer _ w)) =>
    w.isFault → s.conn.socket.shutdownWrites ≠ []
  | .step (.event (.handleWrite w)) => w.count ≤ WriteResult.maxTransfer
  | _ => True

/-- The moves that call `shutdownWrite`. -/
def Move.Shuts (s : State T) : Move T → Prop
  | .step a => s.Shuts a
  | .idleShutdown _ => False

theorem isWriting_of_shuts {s : State T} {m : Move T} (hshuts : m.Shuts s) :
    s.conn.channel.isWriting = false := by
  cases m with
  | idleShutdown => exact hshuts.elim
  | step a =>
    cases a with
    | startShutdown => exact hshuts
    | todo => exact hshuts.2.2
    | event e =>
      cases e with
      | shutdown => exact hshuts.2
      | _ => exact hshuts.elim
    | _ => exact hshuts.elim

section Moves

variable [DecidableEq T]

/-- A move of the threads. -/
inductive Moves (s : State T) : Move T → State T → Prop
  | step {a s'} (h : Step s a s') : Moves s (.step a) s'
  | idleShutdown {t} (hcall : s.call t = .idle) (hloop : s.loop.call (some t) = .idle)
      (hstate : s.conn.state ≠ .kConnected) : Moves s (.idleShutdown t) s

/-- The runs of a shared connection whose peer stays, with their history. -/
def flushing (T : Type*) [DecidableEq T] : LTS (History T) (Move T) where
  step h m h' := Present h.state m ∧ ∃ s', Moves h.state m s' ∧ h' = h.next m s'

end Moves

/-! ### The output of an open connection -/

/-- The messages that have run are written or pending, and pending bytes are waited for. -/
structure Whole (c : TcpConnection) (messages : List (List UInt8)) : Prop where
  stream : Stream c messages
  writing : c.outputBuffer.readable ≠ [] → c.channel.isWriting = true

section Whole

variable {c c' : TcpConnection} {messages : List (List UInt8)} {data : List UInt8}
  {w : WriteResult} {es : List Effect}

theorem Whole.quiet (hI : Whole c messages) (h : Quiet c c') : Whole c' messages :=
  ⟨hI.stream.quiet h, by rw [h.outputBuffer, h.channel]; exact hI.writing⟩

theorem Whole.sendInLoop (hI : Whole c messages) (hw : w.isFault = false)
    (h : c.sendInLoop data w = .ok (c', es)) : Whole c' (messages ++ [data]) := by
  refine ⟨hI.stream.sendInLoop hw h, fun hne => ?_⟩
  cases sendInLoop_spec hI.stream.wf hI.stream.state h with
  | dropped hfault => simp [hw] at hfault
  | @split _ sent rest _ _ _ _ _ _ _ hread hwriting =>
    rw [hread] at hne
    rw [hwriting, Bool.or_eq_true]
    by_cases hrest : rest = []
    · rw [hrest, List.append_nil] at hne
      exact .inl (hI.writing hne)
    · exact .inr (by simpa using hrest)

theorem Whole.send (hI : Whole c messages) (hw : w.isFault = false)
    (h : c.send data w = .ok (c', es)) :
    Whole c' (messages ++ if c.state = .kConnected then [data] else []) := by
  unfold TcpConnection.send at h
  split_ifs at h ⊢
  · exact hI.sendInLoop hw h
  · cases h
    simpa using hI

theorem Whole.drained (hI : Whole c messages) (hcount : w.count < 2 ^ 31)
    (h : Drained c w c') : Whole c' messages := by
  refine ⟨hI.stream.drained hcount h, ?_⟩
  cases h with
  | idle => exact hI.writing
  | taken _ _ _ hwriting => exact fun _ => hwriting

/-- `connectDestroyed` in another state than `kConnected` only removes the channel. -/
theorem Whole.connectDestroyed (hI : Whole c messages) (hstate : c.state ≠ .kConnected) :
    Whole c.connectDestroyed.1 messages := by
  rw [TcpConnection.connectDestroyed, if_neg hstate]
  exact ⟨hI.stream.congr hI.stream.state rfl rfl, hI.writing⟩

end Whole

section Steps

variable {s s' : State T} {a : Act T}

/-- A write does not fail for good before `shutdownWrite` is called. -/
theorem isFault_eq_false {w : WriteResult} (h : w.isFault → s.conn.socket.shutdownWrites ≠ [])
    (hfin : s.conn.socket.shutdownWrites = []) : w.isFault = false := by
  cases hw : w.isFault with
  | true => exact absurd hfin (h hw)
  | false => rfl

/-- A step keeps the output of a connection that is not half-closed before the step, unless
it destroys a connected one. -/
theorem Whole.step [DecidableEq T] (hI : Whole s.conn (s.ran.map Prod.snd))
    (hpresent : Present s (.step a))
    (hfin : s.conn.socket.shutdownWrites = [])
    (hdestroy : a = .event .connectDestroyed → s.conn.state ≠ .kConnected) (h : Step s a s') :
    Whole s'.conn (s'.ran.map Prod.snd) := by
  cases h with
  | loop | queueInLoop | beginSend | endSend | beginShutdown | endShutdown => exact hI
  | startSend h htodo hw hconn =>
    rw [List.map_append]
    exact hI.sendInLoop (isFault_eq_false hpresent hfin) hconn
  | startShutdown => exact hI.quiet quiet_shutdownInLoop
  | finishWrite =>
    simp only
    split_ifs
    · exact hI.quiet quiet_shutdownInLoop
    · exact hI
  | @event e conn effects hready he hlegal hconn =>
    have hmessages : (s.ran ++ (messageOf s.conn e).map fun message =>
        ((none : Option T), message)).map Prod.snd = s.ran.map Prod.snd ++ messageOf s.conn e := by
      simp [Function.comp_def]
    simp only [hmessages]
    -- an event that sends nothing
    have hquiet (hmessage : messageOf s.conn e = []) (hq : Quiet s.conn conn) :
        Whole conn (s.ran.map Prod.snd ++ messageOf s.conn e) := by
      rw [hmessage, List.append_nil]
      exact hI.quiet hq
    cases e with
    | send buf w => exact hI.send (isFault_eq_false hpresent hfin) hconn
    | sendBuffer buf w =>
      obtain ⟨⟨c₁, es₁, buf'⟩, hsend, heq⟩ := bind_eq_ok.1 hconn
      cases heq
      exact hI.send (isFault_eq_false hpresent hfin) (sendBuffer_eq_ok hlegal.1 hsend)
    | shutdown =>
      cases hconn
      exact hquiet rfl quiet_shutdown
    | handleRead r =>
      -- the peer has not closed its side
      have hopen : (Event.handleRead r).KeepsOpen := by
        cases r with
        | data bytes => cases bytes with
          | nil => exact hpresent.elim
          | cons => trivial
        | error => trivial
      exact hquiet rfl (quiet_handleRead hopen hconn)
    | handleClose => exact hpresent.elim
    | connectDestroyed =>
      obtain rfl : s.conn.connectDestroyed.1 = conn := congrArg Prod.fst (Except.ok.inj hconn)
      rw [show messageOf s.conn .connectDestroyed = [] from rfl, List.append_nil]
      exact hI.connectDestroyed (hdestroy rfl)
    | _ => exact he.elim
  | @handleWrite w conn effects drained hready hlegal hconn =>
    have hdrained := (handleWriteData_spec (w := w) hI.stream.wf).1
    rw [hconn] at hdrained
    exact hI.drained (Nat.lt_of_le_of_lt hpresent (by decide)) hdrained
  | storeShutdown => exact hI.quiet quiet_setState

end Steps

/-! ### Runs -/

namespace History

/-- The messages that ran while the connection was open are written, or pending as long as it
is. -/
structure Inv (h : History T) [DecidableEq T] : Prop where
  sequenced : Sequenced h.state
  wf : h.state.conn.outputBuffer.Wf
  opened : h.opened <+: h.state.ran
  written : h.lost = false → ¬ h.Open →
    (h.opened.map Prod.snd).flatten <+: h.state.conn.socket.written
  whole : h.Open → Whole h.state.conn (h.state.ran.map Prod.snd) ∧ h.opened = h.state.ran
  lost : h.lost = true → h.destroyed = true

variable [DecidableEq T] {h h' : History T} {m : Move T} {s₀ : State T}

theorem inv_start (h₀ : Established s₀) : Inv (start s₀) where
  sequenced := h₀.sequenced
  wf := h₀.stream.wf
  opened := List.nil_prefix
  written _ _ := List.nil_prefix
  whole _ := by
    refine ⟨⟨h₀.stream, fun hne => ?_⟩, h₀.ran.symm⟩
    obtain ⟨wc, hw, mark, hconn⟩ := h₀.conn
    refine absurd ?_ hne
    rw [start, hconn]
    exact Buffer.readable_empty
  lost h := by cases h

/-- The messages that have run stay in their order. -/
theorem ran_moves {s s' : State T} (hst : Moves s m s') : s.ran <+: s'.ran := by
  cases hst with
  | step hst => cases hst <;> first | exact List.prefix_rfl | exact List.prefix_append _ _
  | idleShutdown => exact List.prefix_rfl

theorem output_moves {s s' : State T} (hwf : s.conn.outputBuffer.Wf) (hst : Moves s m s') :
    Output (m.Shuts s) s.conn s'.conn := by
  cases hst with
  | step hst => exact output_step hwf hst
  | idleShutdown => exact .grows id (grows_of_eq hwf rfl rfl)

theorem opened_next (h : History T) (m : Move T) (s' : State T) :
    ((h.next m s').Open → (h.next m s').opened = s'.ran) ∧
      (¬ (h.next m s').Open → (h.next m s').opened = h.opened) := by
  simp only [Open, next]
  constructor <;> intro hopen
  · rw [if_pos ⟨hopen.1, by simp [hopen.2]⟩]
  · rw [if_neg fun hif => hopen ⟨hif.1, by simpa using hif.2⟩]

/-- A connection that is open after a move was open before it. -/
theorem open_of_next {s' : State T} (hout : Output (m.Shuts h.state) h.state.conn s'.conn)
    (hopen : (h.next m s').Open) : h.Open ∧ h.destroys m = false := by
  obtain ⟨hfin, hdestroyed⟩ := hopen
  simp only [next, Bool.or_eq_false_iff] at hfin hdestroyed
  refine ⟨⟨?_, hdestroyed.1⟩, hdestroyed.2⟩
  cases hout with
  | grows _ hgrows => rw [← hgrows.shutdownWrites, hfin]
  | shuts _ _ _ _ hfin' => simp [hfin'] at hfin

theorem Whole.moves {s s' : State T} (hI : Whole s.conn (s.ran.map Prod.snd))
    (hpresent : Present s m) (hfin : s.conn.socket.shutdownWrites = [])
    (hdestroy : m = .step (.event .connectDestroyed) → s.conn.state ≠ .kConnected)
    (hst : Moves s m s') : Whole s'.conn (s'.ran.map Prod.snd) := by
  cases hst with
  | step hst => exact Whole.step hI hpresent hfin (fun ha => hdestroy (by rw [ha])) hst
  | idleShutdown => exact hI

/-- A move that ends the time in which the connection is open leaves nothing pending, unless bytes
are lost. -/
theorem pending_of_shut {s' : State T} (hI : Inv h) (hopen : h.Open)
    (hout : Output (m.Shuts h.state) h.state.conn s'.conn) (hshut : ¬ (h.next m s').Open)
    (hlost : (h.next m s').lost = false) :
    h.state.conn.outputBuffer.readable = [] := by
  obtain ⟨hwhole, -⟩ := hI.whole hopen
  cases hdestroys : h.destroys m with
  | true =>
    have hbytes : h.state.conn.outputBuffer.readableBytes = 0 := by
      simpa [next, hdestroys] using (Bool.or_eq_false_iff.1 hlost).2
    exact hI.wf.readable_eq_nil_iff.2 hbytes
  | false =>
    by_contra hne
    cases hout with
    | grows _ hgrows =>
      exact hshut ⟨hgrows.shutdownWrites.trans hopen.1, by simp [next, hopen.2, hdestroys]⟩
    | shuts _ hwriting => simp [hwhole.writing hne] at hwriting

/-- **A move keeps the invariant.** -/
theorem Inv.step (hI : Inv h) (hst : (flushing T).step h m h') : Inv h' := by
  obtain ⟨hpresent, s', hmoves, rfl⟩ := hst
  have hout := output_moves hI.wf hmoves
  obtain ⟨hopened, hshut⟩ := opened_next h m s'
  refine ⟨?_, hout.wf hI.wf, ?_, fun hlost hnot => ?_, fun hopen => ?_, fun hlost => ?_⟩
  · cases hmoves with
    | step hst => exact hI.sequenced.step hst
    | idleShutdown => exact hI.sequenced
  · by_cases hopen : (h.next m s').Open
    · rw [hopened hopen]
      exact List.prefix_rfl
    · rw [hshut hopen]
      exact hI.opened.trans (ran_moves hmoves)
  · rw [hshut hnot]
    refine List.IsPrefix.trans ?_ hout.written
    by_cases hopen : h.Open
    · -- the connection was open until this move: everything that has run is written
      obtain ⟨hwhole, heq⟩ := hI.whole hopen
      have hstream := hwhole.stream.stream
      rw [pending_of_shut hI hopen hout hnot hlost, List.append_nil] at hstream
      rw [heq, hstream]
    · exact hI.written (Bool.or_eq_false_iff.1 hlost).1 hopen
  · obtain ⟨hwas, hdestroys⟩ := open_of_next hout hopen
    refine ⟨?_, hopened hopen⟩
    refine Whole.moves (hI.whole hwas).1 hpresent hwas.1 (fun hm hstate => ?_) hmoves
    simp [destroys, hm, hstate] at hdestroys
  · simp only [next, Bool.or_eq_true, Bool.and_eq_true] at hlost ⊢
    exact hlost.imp hI.lost And.left

/-! ### What is flushed -/

/-- The message `i` of the thread `t` has run, and every byte of it has been accepted. -/
def Accepted (s : State T) (t : Option T) (i : ℕ) (message : List UInt8) : Prop :=
  ∃ pre post, s.ran = pre ++ (t, message) :: post ∧ (ranBy pre t).length = i ∧
    (pre.map Prod.snd).flatten ++ message <+: s.conn.socket.written

/-- A call of `send` that found `kConnected` sent the bytes `message`, the message `i` of its
thread, and had returned when a call of `shutdown()` began. -/
structure Covered (h : History T) (m : Move T) (t : Option T) (i : ℕ) (message : List UInt8) :
    Prop where
  lt : i < h.covers m t
  sent : (h.state.sent t)[i]? = some message
  ne_nil : message ≠ []

/-- If the move calls `shutdownWrite`, then what was sent before has been accepted. -/
def Flushed (h : History T) (m : Move T) : Prop :=
  m.Shuts h.state → ∀ t i message, h.Covered m t i message → Accepted h.state t i message

/-- If the move calls `shutdownWrite`, then what was sent before has run, while the connection was
open. -/
def InOrder (h : History T) (m : Move T) : Prop :=
  m.Shuts h.state → h.lost = false ∧
    ∀ t i message, h.Covered m t i message → i < (ranBy h.opened t).length

theorem ranBy_cons {p : Option T × List UInt8} {ran : List (Option T × List UInt8)}
    {t : Option T} :
    ranBy (p :: ran) t = if p.1 = t then p.2 :: ranBy ran t else ranBy ran t := by
  by_cases ht : p.1 = t <;> simp [ranBy, ht]

/-- A message of a thread that has run stands behind those that ran before. -/
theorem exists_split_ranBy {ran : List (Option T × List UInt8)} {t : Option T} {i : ℕ}
    {message : List UInt8} (h : (ranBy ran t)[i]? = some message) :
    ∃ pre post, ran = pre ++ (t, message) :: post ∧ (ranBy pre t).length = i := by
  induction ran generalizing i with
  | nil => simp [ranBy] at h
  | cons p ran ih =>
    obtain ⟨t', message'⟩ := p
    rw [ranBy_cons] at h
    by_cases ht : t' = t
    · rw [if_pos (by exact ht)] at h
      subst ht
      cases i with
      | zero =>
        cases h
        exact ⟨[], ran, rfl, rfl⟩
      | succ i =>
        obtain ⟨pre, post, rfl, hlen⟩ := ih h
        refine ⟨(t', message') :: pre, post, rfl, ?_⟩
        rw [ranBy_cons, if_pos rfl, List.length_cons, hlen]
    · rw [if_neg (by exact ht)] at h
      obtain ⟨pre, post, rfl, hlen⟩ := ih h
      refine ⟨(t', message') :: pre, post, rfl, ?_⟩
      rw [ranBy_cons, if_neg (by exact ht), hlen]

/-- When the channel is not writing, what ran while the connection was open has been written. -/
theorem Inv.opened_written (hI : Inv h) (hlost : h.lost = false)
    (hwriting : h.state.conn.channel.isWriting = false) :
    (h.opened.map Prod.snd).flatten <+: h.state.conn.socket.written := by
  by_cases hopen : h.Open
  · obtain ⟨hwhole, heq⟩ := hI.whole hopen
    have hnil : h.state.conn.outputBuffer.readable = [] := by
      by_contra hne
      simp [hwhole.writing hne] at hwriting
    have hstream := hwhole.stream.stream
    rw [hnil, List.append_nil] at hstream
    rw [heq, hstream]
  · exact hI.written hlost hopen

/-- A move that calls `shutdownWrite` in order does so after everything sent before. -/
theorem Inv.flushed (hI : Inv h) (horder : InOrder h m) : Flushed h m := by
  intro hshuts t i message hcovered
  obtain ⟨hlost, hran⟩ := horder hshuts
  have hlt := hran t i message hcovered
  obtain ⟨rest, hopened⟩ := hI.opened
  have hsent := hcovered.sent
  rw [← hI.sequenced.order t, ← hopened, ranBy_append, List.append_assoc, List.append_assoc,
    List.getElem?_append_left hlt] at hsent
  obtain ⟨pre, post, hsplit, hlen⟩ := exists_split_ranBy hsent
  refine ⟨pre, post ++ rest, by rw [← hopened, hsplit, List.append_assoc]; rfl, hlen, ?_⟩
  refine List.IsPrefix.trans ?_ (hI.opened_written hlost (isWriting_of_shuts hshuts))
  rw [hsplit, List.map_append, List.flatten_append, List.map_cons, List.flatten_cons,
    ← List.append_assoc]
  exact List.prefix_append _ _

/-- As long as the connection is open, a message that has not run has not been accepted. -/
theorem Inv.inOrder (hI : Inv h) (hopen : h.Open) (hflushed : Flushed h m) : InOrder h m := by
  intro hshuts
  refine ⟨?_, fun t i message hcovered => ?_⟩
  · cases hlost : h.lost with
    | false => rfl
    | true => exact absurd (hopen.2.symm.trans (hI.lost hlost)) (by decide)
  · obtain ⟨pre, post, hran, hlen, -⟩ := hflushed hshuts t i message hcovered
    rw [(hI.whole hopen).2, hran, ranBy_append, List.length_append, hlen, ranBy_cons, if_pos rfl,
      List.length_cons]
    omega

/-- **Data sent before a shutdown is flushed before the end of the stream**, in every run of an
established connection, its loop and the other threads in which every call of `shutdownWrite` is in
order; on a connection that is open until then, only if it is. -/
theorem flushed_of_inOrder {tr : List (History T × Move T)} (h₀ : Established s₀)
    (hrun : (flushing T).Run (start s₀) tr h) :
    ((∀ q ∈ tr, InOrder q.1 q.2) → ∀ q ∈ tr, Flushed q.1 q.2) ∧
      ∀ q ∈ tr, q.1.Open → (Flushed q.1 q.2 ↔ InOrder q.1 q.2) := by
  obtain ⟨hall, -⟩ := hrun.invariant (I := fun h => Inv h) (inv_start h₀)
    fun _ _ _ hI hst => hI.step hst
  constructor
  · intro horder q hq
    exact (hall q hq).flushed (horder q hq)
  · intro q hq hopen
    exact ⟨(hall q hq).inOrder hopen, (hall q hq).flushed⟩

/-- A buffer that holds one byte. -/
def oneByte : Buffer := ⟨[0, 0, 0, 0, 0, 0, 0, 0, 1], 8, 9⟩

/-- A connection without callbacks, the loop thread in a handler. -/
def quiet : State Unit := { handling with conn := established false false 0 }

theorem established_quiet : Established quiet :=
  ⟨⟨_, _, _, rfl⟩, by simp [quiet, handling, EventLoop.init, EventLoop.State.queue,
    EventLoop.State.batch], rfl, fun _ => rfl, fun _ => rfl, rfl⟩

/-- Another thread sends one byte; the loop thread writes it and then calls `shutdown()`. -/
theorem flushed_of_inOrder_sent : ∃ tr h, (flushing Unit).Run (start quiet) tr h ∧
    h.state.conn.socket = ⟨[1], [0]⟩ ∧ (∀ q ∈ tr, InOrder q.1 q.2) ∧
    ∀ q ∈ tr, Flushed q.1 q.2 := by
  have hbegin : (flushing Unit).Run (start quiet) _ _ :=
    LTS.Run.nil.snoc (l := Move.step (Act.beginSend () oneByte))
      ⟨trivial, _, .step (.beginSend rfl rfl rfl (by decide) rfl), rfl⟩
  have hend := hbegin.snoc (l := Move.step (Act.endSend ()))
    ⟨trivial, _, .step (.endSend rfl (.runInLoop_queue ⟨rfl, nofun⟩ nofun)), rfl⟩
  have hwakeup := hend.snoc (l := Move.step (Act.loop (.queueWakeup (some ()))))
    ⟨trivial, _, .step (.loop trivial (fun h => h.elim) nofun (.queueWakeup rfl)), rfl⟩
  have hevents := hwakeup.snoc (l := Move.step (Act.loop .endEvents))
    ⟨trivial, _, .step (.loop trivial (fun _ => rfl) nofun (.endEvents rfl rfl)), rfl⟩
  have hcalling := hevents.snoc (l := Move.step (Act.loop .setCalling))
    ⟨trivial, _, .step (.loop trivial (fun h => h.elim) nofun (.setCalling rfl)), rfl⟩
  have hswap := hcalling.snoc (l := Move.step (Act.loop .swap))
    ⟨trivial, _, .step (.loop trivial (fun h => h.elim) nofun (.swap rfl)), rfl⟩
  have hsend := hswap.snoc (l := Move.step (Act.startSend (.accepted 1)))
    ⟨nofun, _, .step (.startSend (.startFunctor rfl) rfl (Nat.le_refl 1) rfl), rfl⟩
  have hshutdown := hsend.snoc (l := Move.step (Act.event .shutdown))
    ⟨trivial, _, .step (.event ⟨trivial, rfl, rfl⟩ trivial trivial rfl), rfl⟩
  refine ⟨_, _, hshutdown, rfl, ?order, (flushed_of_inOrder established_quiet hshutdown).1 ?order⟩
  intro q hq hshuts
  rcases List.mem_append.1 hq with hq | hq
  · -- only the last move calls `shutdownWrite`
    simp only [List.nil_append, List.cons_append, List.mem_cons, List.not_mem_nil, or_false] at hq
    rcases hq with rfl | rfl | rfl | rfl | rfl | rfl | rfl <;> exact hshuts.elim
  · obtain rfl := List.mem_singleton.1 hq
    refine ⟨rfl, fun t i message hcovered => ?_⟩
    cases t with
    | none => exact absurd hcovered.lt (Nat.not_lt_zero i)
    | some t => exact hcovered.lt

/-- Another thread sends one byte, and its call returns; then the loop thread calls `shutdown()` in
a handler: the message is still in the queue when `shutdownWrite` is called. -/
theorem not_flushed : ∃ tr h, (flushing Unit).Run (start handling) tr h ∧
    tr.map Prod.snd = [.step (.beginSend () oneByte), .step (.endSend ()),
      .step (.loop (.queueWakeup (some ()))), .step (.event .shutdown)] ∧
    ¬ ∀ q ∈ tr, Flushed q.1 q.2 := by
  have hbegin : (flushing Unit).Run (start handling) _ _ :=
    LTS.Run.nil.snoc (l := Move.step (Act.beginSend () oneByte))
      ⟨trivial, _, .step (.beginSend rfl rfl rfl (by decide) rfl), rfl⟩
  have hend := hbegin.snoc (l := Move.step (Act.endSend ()))
    ⟨trivial, _, .step (.endSend rfl (.runInLoop_queue ⟨rfl, nofun⟩ nofun)), rfl⟩
  have hwakeup := hend.snoc (l := Move.step (Act.loop (.queueWakeup (some ()))))
    ⟨trivial, _, .step (.loop trivial (fun h => h.elim) nofun (.queueWakeup rfl)), rfl⟩
  have hshutdown := hwakeup.snoc (l := Move.step (Act.event .shutdown))
    ⟨trivial, _, .step (.event ⟨trivial, rfl, rfl⟩ trivial trivial rfl), rfl⟩
  refine ⟨_, _, hshutdown, rfl, ?_⟩
  intro hall
  have hflushed := hall _ List.mem_concat_self
  obtain ⟨pre, post, hran, -⟩ :=
    hflushed ⟨rfl, rfl⟩ (some ()) 0 [1] ⟨Nat.zero_lt_one, rfl, by decide⟩
  simp [start, next, handling] at hran

end History

end Shared

end TinyNetwork
