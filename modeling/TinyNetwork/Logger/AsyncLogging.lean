import TinyNetwork.Base.Vec
import TinyNetwork.LTS.Basic
import TinyNetwork.Logger.FixedBuffer

/-!
# `AsyncLogging`

Any number of threads append log lines to the front-end buffers under `mutex_`.  The backend
thread exchanges the front-end buffers for empty ones under the mutex, hands the full ones to the
log file and recycles two of them.  `stop` clears `running_` and waits for the backend to end.

`AsyncLogging.lts SIZE` interleaves these threads; the code between taking and releasing the mutex
is one step, the code of the backend outside of it is cut at the writes.  A buffer pointer that
was moved from is `none`.

## Main results

* `AsyncLogging.Inv.step` : every step of every thread keeps the invariant.
* `AsyncLogging.recycle_of_inv` : there are always enough buffers to recycle.
* `AsyncLogging.double_buffering` : no null pointer, no empty vector, and no byte lost, repeated
  or reordered.
-/

namespace TinyNetwork

namespace AsyncLogging

/-- `std::unique_ptr<Buffer>`. -/
abbrev BufferPtr (SIZE : ℕ) := Option (FixedBuffer SIZE)

/-- Who holds `mutex_`. -/
inductive Mutex where
  | free
  /-- A call of `append` with this line. -/
  | append (logline : List UInt8)
  | backend
  deriving DecidableEq

/-- Where the backend thread stands. -/
inductive BackendPc where
  | notStarted
  /-- Before the test of `running_`. -/
  | testing
  /-- In the body of the loop, before the lock. -/
  | locking
  /-- Holding the mutex, before the test of `buffers_`. -/
  | checking
  /-- In `cond_.wait_for`. -/
  | waiting
  /-- Holding the mutex, before the exchange. -/
  | exchanging
  /-- Before the write of the buffer at this index. -/
  | writing (i : ℕ)
  /-- After the writes. -/
  | recycling
  /-- Behind the loop. -/
  | leaving
  | finished
  deriving DecidableEq

/-- Where the call of `stop` stands. -/
inductive StopPc where
  | notCalled
  /-- After the store to `running_`. -/
  | stored
  /-- After `notify_one`. -/
  | joining
  | returned
  deriving DecidableEq

/-- The logger and its threads. -/
structure State (SIZE : ℕ) where
  running : Bool
  mutex : Mutex
  currentBuffer : BufferPtr SIZE
  nextBuffer : BufferPtr SIZE
  buffers : List (BufferPtr SIZE)
  pc : BackendPc
  newBuffer1 : BufferPtr SIZE
  newBuffer2 : BufferPtr SIZE
  buffersToWrite : List (BufferPtr SIZE)
  /-- The buffers handed to `LogFile::append`, as they were then. -/
  output : List (FixedBuffer SIZE)
  stop : StopPc
  /-- The lines appended, in the order of the lock. -/
  appended : List (List UInt8)

variable {SIZE : ℕ}

/-- `new Buffer` followed by `bzero`. -/
def zeroed (SIZE : ℕ) : FixedBuffer SIZE :=
  (FixedBuffer.create (List.replicate SIZE 0) (FixedBuffer.length_zeros SIZE)).bzero

/-- The constructor. -/
def init (SIZE : ℕ) : State SIZE where
  running := false
  mutex := .free
  currentBuffer := some (zeroed SIZE)
  nextBuffer := some (zeroed SIZE)
  buffers := []
  pc := .notStarted
  newBuffer1 := none
  newBuffer2 := none
  buffersToWrite := []
  output := []
  stop := .notCalled
  appended := []

namespace State

variable (s : State SIZE)

/-- The body of `append(logline, len)`; `fresh` is what `new Buffer` yields, if it is called. -/
def append (logline : List UInt8) (fresh : FixedBuffer SIZE) : Except Fault (State SIZE) :=
  match s.currentBuffer with
  | none => .error .nullPointer
  | some current =>
    if logline.length < current.avail then
      .ok { s with
        currentBuffer := some (current.append logline)
        appended := s.appended ++ [logline] }
    else
      let buffers := s.buffers ++ [some current]
      match s.nextBuffer with
      | some next =>
        .ok { s with
          currentBuffer := some (next.append logline)
          nextBuffer := none
          buffers
          appended := s.appended ++ [logline] }
      | none =>
        .ok { s with
          currentBuffer := some (fresh.append logline)
          buffers
          appended := s.appended ++ [logline] }

/-- The exchange of the buffers under the mutex. -/
def exchange : State SIZE :=
  let buffers := s.buffers ++ [s.currentBuffer]
  { s with
    currentBuffer := s.newBuffer1
    newBuffer1 := none
    buffersToWrite := buffers
    buffers := s.buffersToWrite
    nextBuffer := if s.nextBuffer.isNone then s.newBuffer2 else s.nextBuffer
    newBuffer2 := if s.nextBuffer.isNone then none else s.newBuffer2 }

/-- `output.append(buffer->data(), buffer->length())` for the buffer at index `i`. -/
def write (i : ℕ) : Except Fault (State SIZE) :=
  match s.buffersToWrite[i]? with
  | some (some buffer) => .ok { s with output := s.output ++ [buffer] }
  | some none => .error .nullPointer
  | none => .error .outOfRange

/-- `p = std::move(v.back()); v.pop_back(); p->reset();`. -/
def takeBack (v : List (BufferPtr SIZE)) :
    Except Fault (FixedBuffer SIZE × List (BufferPtr SIZE)) :=
  match v.getLast? with
  | some (some buffer) => .ok (buffer.reset, v.dropLast)
  | some none => .error .nullPointer
  | none => .error .emptyVector

/-- Give a backend buffer back, if it is missing. -/
def refill (p : BufferPtr SIZE) (v : List (BufferPtr SIZE)) :
    Except Fault (BufferPtr SIZE × List (BufferPtr SIZE)) :=
  match p with
  | some buffer => .ok (some buffer, v)
  | none => do
    let (buffer, v) ← takeBack v
    return (some buffer, v)

/-- The end of an iteration: keep two buffers and give them back. -/
def recycle : Except Fault (State SIZE) := do
  let buffersToWrite := if 2 < s.buffersToWrite.length then s.buffersToWrite.take 2
    else s.buffersToWrite
  let (newBuffer1, buffersToWrite) ← refill s.newBuffer1 buffersToWrite
  let (newBuffer2, _) ← refill s.newBuffer2 buffersToWrite
  return { s with newBuffer1, newBuffer2, buffersToWrite := [] }

end State

/-- The steps of the threads. -/
inductive Act (SIZE : ℕ) where
  | start
  /-- A call of `append` takes the mutex. -/
  | lockAppend (logline : List UInt8)
  | append (fresh : FixedBuffer SIZE)
  | test
  | lock
  | check
  | wakeup
  | exchange
  | write
  | endWrites
  | recycle
  | flush
  | stop
  | notify
  | join

/-- The steps of the threads. -/
inductive Step (s : State SIZE) : Act SIZE → State SIZE → Prop
  | start (hpc : s.pc = .notStarted) :
      Step s .start { s with
        running := true
        pc := .testing
        newBuffer1 := some (zeroed SIZE)
        newBuffer2 := some (zeroed SIZE)
        buffersToWrite := [] }
  | lockAppend {logline} (hmutex : s.mutex = .free) (hlen : logline.length < SIZE) :
      Step s (.lockAppend logline) { s with mutex := .append logline }
  | append {logline fresh s'} (hmutex : s.mutex = .append logline) (hfresh : fresh.cur = 0)
      (h : s.append logline fresh = .ok s') :
      Step s (.append fresh) { s' with mutex := .free }
  | test_loop (hpc : s.pc = .testing) (hrun : s.running = true) :
      Step s .test { s with pc := .locking }
  | test_leave (hpc : s.pc = .testing) (hrun : s.running = false) :
      Step s .test { s with pc := .leaving }
  | lock (hpc : s.pc = .locking) (hmutex : s.mutex = .free) :
      Step s .lock { s with mutex := .backend, pc := .checking }
  | check_wait (hpc : s.pc = .checking) (hempty : s.buffers = []) :
      Step s .check { s with mutex := .free, pc := .waiting }
  | check_go (hpc : s.pc = .checking) (hne : s.buffers ≠ []) :
      Step s .check { s with pc := .exchanging }
  /-- The end of the wait, by a notification, a time-out or neither. -/
  | wakeup (hpc : s.pc = .waiting) (hmutex : s.mutex = .free) :
      Step s .wakeup { s with mutex := .backend, pc := .exchanging }
  | exchange (hpc : s.pc = .exchanging) :
      Step s .exchange { s.exchange with mutex := .free, pc := .writing 0 }
  | write {i s'} (hpc : s.pc = .writing i) (hi : i < s.buffersToWrite.length)
      (h : s.write i = .ok s') : Step s .write { s' with pc := .writing (i + 1) }
  | endWrites {i} (hpc : s.pc = .writing i) (hi : s.buffersToWrite.length ≤ i) :
      Step s .endWrites { s with pc := .recycling }
  | recycle {s'} (hpc : s.pc = .recycling) (h : s.recycle = .ok s') :
      Step s .recycle { s' with pc := .testing }
  | flush (hpc : s.pc = .leaving) : Step s .flush { s with pc := .finished }
  | stop (hstop : s.stop = .notCalled) (hpc : s.pc ≠ .notStarted) :
      Step s .stop { s with running := false, stop := .stored }
  | notify (hstop : s.stop = .stored) : Step s .notify { s with stop := .joining }
  | join (hstop : s.stop = .joining) (hpc : s.pc = .finished) :
      Step s .join { s with stop := .returned }

/-- The logger and its threads. -/
def lts (SIZE : ℕ) : LTS (State SIZE) (Act SIZE) where
  step := Step

/-! ### The bytes -/

/-- The bytes a buffer pointer holds. -/
def acceptedOf : BufferPtr SIZE → List UInt8
  | some buffer => buffer.accepted
  | none => []

/-- The bytes a vector of buffers holds. -/
def contents (v : List (BufferPtr SIZE)) : List UInt8 := v.flatMap acceptedOf

namespace State

variable (s : State SIZE)

/-- The bytes accepted in the buffers handed to the log file. -/
def handed : List UInt8 := s.output.flatMap FixedBuffer.accepted

/-- The buffers the backend still has to write. -/
def unwritten : List (BufferPtr SIZE) :=
  match s.pc with
  | .writing i => s.buffersToWrite.drop i
  | _ => []

/-- The bytes in the front-end buffers. -/
def front : List UInt8 := contents s.buffers ++ acceptedOf s.currentBuffer

end State

/-! ### The invariant -/

/-- In the loop, before the exchange. -/
@[simp] def BackendPc.BeforeExchange : BackendPc → Prop
  | .testing | .locking | .checking | .waiting | .exchanging => True
  | _ => False

/-- In the loop, after the exchange. -/
@[simp] def BackendPc.AfterExchange : BackendPc → Prop
  | .writing _ | .recycling => True
  | _ => False

/-- In the loop, with the mutex. -/
@[simp] def BackendPc.HoldsMutex : BackendPc → Prop
  | .checking | .exchanging => True
  | _ => False

/-- A buffer, if there is one, is empty. -/
def Empty (p : BufferPtr SIZE) : Prop := ∀ buffer ∈ p, buffer.cur = 0

/-- The backend has two empty buffers to exchange, and nothing to write. -/
structure Ready (s : State SIZE) : Prop where
  newBuffer1 : s.newBuffer1 ≠ none ∧ Empty s.newBuffer1
  newBuffer2 : s.newBuffer2 ≠ none ∧ Empty s.newBuffer2
  buffersToWrite : s.buffersToWrite = []

/-- The backend has buffers to write, as many as it needs to recycle. -/
structure Draining (s : State SIZE) : Prop where
  newBuffer1 : Empty s.newBuffer1
  newBuffer2 : Empty s.newBuffer2
  buffersToWrite : none ∉ s.buffersToWrite
  nonempty : s.buffersToWrite ≠ []
  /-- The second buffer was given away because the front end had filled two. -/
  two : s.newBuffer2 = none → 2 ≤ s.buffersToWrite.length

/-- The invariant of the logger. -/
structure Inv (s : State SIZE) : Prop where
  mutex : s.mutex = .backend ↔ s.pc.HoldsMutex
  logline : ∀ logline, s.mutex = .append logline → logline.length < SIZE
  currentBuffer : s.currentBuffer ≠ none
  nextBuffer : Empty s.nextBuffer
  buffers : none ∉ s.buffers
  /-- The front end gives its second buffer away only when it has filled the first. -/
  filled : s.nextBuffer = none → s.buffers ≠ []
  ready : s.pc.BeforeExchange → Ready s
  draining : s.pc.AfterExchange → Draining s
  order : s.handed ++ contents s.unwritten ++ s.front = s.appended.flatten

@[simp] theorem contents_nil : contents ([] : List (BufferPtr SIZE)) = [] := rfl

@[simp] theorem contents_append (v w : List (BufferPtr SIZE)) :
    contents (v ++ w) = contents v ++ contents w := List.flatMap_append

@[simp] theorem contents_singleton (p : BufferPtr SIZE) : contents [p] = acceptedOf p := by
  simp [contents]

theorem contents_cons (p : BufferPtr SIZE) (v : List (BufferPtr SIZE)) :
    contents (p :: v) = acceptedOf p ++ contents v := rfl

theorem Empty.accepted {p : BufferPtr SIZE} (h : Empty p) : acceptedOf p = [] := by
  cases p with
  | none => rfl
  | some buffer => simp [acceptedOf, FixedBuffer.accepted, h buffer rfl]

theorem empty_zeroed : Empty (some (zeroed SIZE)) := by
  intro buffer h
  cases h
  rfl

theorem inv_init : Inv (init SIZE) where
  mutex := by simp [init]
  logline := by simp [init]
  currentBuffer := by simp [init]
  nextBuffer := empty_zeroed
  buffers := by simp [init]
  filled := by simp [init]
  ready := by simp [init]
  draining := by simp [init]
  order := by simp [init, State.handed, State.unwritten, State.front, empty_zeroed.accepted]

variable {s s' : State SIZE} {logline : List UInt8} {fresh : FixedBuffer SIZE}

/-! ### Appending -/

/-- An empty buffer accepts every line shorter than its size. -/
theorem accepted_append_of_cur {buffer : FixedBuffer SIZE} (h : buffer.cur = 0)
    (hlen : logline.length < SIZE) : (buffer.append logline).accepted = logline := by
  rw [FixedBuffer.accepted_append_of_lt (by simpa [FixedBuffer.avail, h] using hlen)]
  simp [FixedBuffer.accepted, h]

/-- What a call of `append` does to the front-end buffers. -/
structure Appended (s : State SIZE) (logline : List UInt8) (s' : State SIZE) : Prop where
  currentBuffer : s'.currentBuffer ≠ none
  nextBuffer : Empty s'.nextBuffer
  buffers : none ∉ s'.buffers
  filled : s'.nextBuffer = none → s'.buffers ≠ []
  front : s'.front = s.front ++ logline
  appended : s'.appended = s.appended ++ [logline]
  /-- The rest of the state is left alone. -/
  frame : s' = { s with
    currentBuffer := s'.currentBuffer
    nextBuffer := s'.nextBuffer
    buffers := s'.buffers
    appended := s'.appended }

/-- `append` never meets a null pointer, and adds its line whole, at the end. -/
theorem Inv.append (hI : Inv s) (hlen : logline.length < SIZE) (hfresh : fresh.cur = 0) :
    ∃ s', s.append logline fresh = .ok s' ∧ Appended s logline s' := by
  obtain ⟨current, hcurrent⟩ := Option.ne_none_iff_exists'.1 hI.currentBuffer
  unfold State.append
  rw [hcurrent]
  simp only
  split_ifs with havail
  · refine ⟨_, rfl, by simp, hI.nextBuffer, hI.buffers, hI.filled, ?_, rfl, rfl⟩
    simp [State.front, hcurrent, acceptedOf, FixedBuffer.accepted_append_of_lt havail]
  · have hbuffers : none ∉ s.buffers ++ [some current] := by simp [hI.buffers]
    cases hnext : s.nextBuffer with
    | some next =>
      refine ⟨_, rfl, by simp, by simp [Empty], hbuffers, by simp, ?_, rfl, rfl⟩
      have := accepted_append_of_cur (hI.nextBuffer next hnext) hlen
      simp [State.front, hcurrent, acceptedOf, this]
    | none =>
      refine ⟨_, rfl, by simp, by simp [Empty], hbuffers, by simp, ?_, rfl, rfl⟩
      have := accepted_append_of_cur hfresh hlen
      simp [State.front, hcurrent, acceptedOf, this]

/-! ### Recycling -/

section Recycle

variable {v : List (BufferPtr SIZE)} {p : BufferPtr SIZE}

theorem takeBack_of_ne_nil (hne : v ≠ []) (hv : none ∉ v) :
    ∃ buffer, State.takeBack v = .ok (buffer, v.dropLast) ∧ buffer.cur = 0 := by
  have hlast := List.getLast?_eq_getLast_of_ne_nil hne
  cases hp : v.getLast hne with
  | none => exact absurd (hp ▸ List.getLast_mem hne) hv
  | some buffer => exact ⟨buffer.reset, by simp [State.takeBack, hlast, hp], rfl⟩

theorem refill_of_ne_nil (hp : Empty p) (hne : p = none → v ≠ []) (hv : none ∉ v) :
    ∃ buffer v', State.refill p v = .ok (some buffer, v') ∧ buffer.cur = 0 ∧ none ∉ v' ∧
      v.length ≤ v'.length + 1 := by
  cases p with
  | some buffer => exact ⟨buffer, v, rfl, hp buffer rfl, hv, Nat.le_succ _⟩
  | none =>
    obtain ⟨buffer, htake, hcur⟩ := takeBack_of_ne_nil (hne rfl) hv
    refine ⟨buffer, v.dropLast, bind_eq_ok.2 ⟨_, htake, rfl⟩, hcur, fun h => ?_, ?_⟩
    · exact hv (List.dropLast_subset _ h)
    · rw [List.length_dropLast]; omega

/-- There are always enough buffers to recycle: the last one written replaces the first backend
buffer, and if the second one was given away another one was written. -/
theorem recycle_of_draining {s : State SIZE} (h : Draining s) :
    ∃ buffer₁ buffer₂, buffer₁.cur = 0 ∧ buffer₂.cur = 0 ∧ s.recycle = .ok { s with
      newBuffer1 := some buffer₁
      newBuffer2 := some buffer₂
      buffersToWrite := [] } := by
  obtain ⟨v, hv⟩ : ∃ v, v = if 2 < s.buffersToWrite.length then s.buffersToWrite.take 2
      else s.buffersToWrite := ⟨_, rfl⟩
  have hsub : ∀ p ∈ v, p ∈ s.buffersToWrite := by
    rw [hv]
    split_ifs
    · exact fun p hp => List.mem_of_mem_take hp
    · exact fun p hp => hp
  have hlen : min 2 s.buffersToWrite.length ≤ v.length := by
    rw [hv]
    split_ifs
    · exact Nat.le_of_eq List.length_take.symm
    · exact Nat.min_le_right _ _
  have hpos := List.length_pos_iff.2 h.nonempty
  have hne : v ≠ [] := List.length_pos_iff.1 (by omega)
  obtain ⟨buffer₁, v₁, hrefill₁, hcur₁, hv₁, hlen₁⟩ := refill_of_ne_nil h.newBuffer1
    (fun _ => hne) fun hnone => h.buffersToWrite (hsub none hnone)
  have hne₁ : s.newBuffer2 = none → v₁ ≠ [] := fun hnone => by
    have := h.two hnone
    exact List.length_pos_iff.1 (by omega)
  obtain ⟨buffer₂, v₂, hrefill₂, hcur₂, -, -⟩ := refill_of_ne_nil h.newBuffer2 hne₁ hv₁
  refine ⟨buffer₁, buffer₂, hcur₁, hcur₂, ?_⟩
  simp only [State.recycle, ← hv]
  exact bind_eq_ok.2 ⟨_, hrefill₁, bind_eq_ok.2 ⟨_, hrefill₂, rfl⟩⟩

end Recycle

/-! ### The steps -/

/-- The exchange hands the front-end buffers to the backend, and leaves empty ones. -/
theorem Inv.exchange (hI : Inv s) (hready : Ready s) (hpc : s.unwritten = []) :
    Inv { s.exchange with mutex := .free, pc := .writing 0 } where
  mutex := by simp
  logline := by simp
  currentBuffer := hready.newBuffer1.1
  nextBuffer := by
    simp only [State.exchange]
    split_ifs
    · exact hready.newBuffer2.2
    · exact hI.nextBuffer
  buffers := by simp [State.exchange, hready.buffersToWrite]
  filled := by
    simp only [State.exchange]
    split_ifs with hnext
    · exact fun h => absurd h hready.newBuffer2.1
    · intro h; simp [h] at hnext
  ready := by simp
  draining := fun _ => by
    refine ⟨by simp [State.exchange, Empty], ?_, ?_, by simp [State.exchange], ?_⟩
    · simp only [State.exchange]
      split_ifs
      · simp [Empty]
      · exact hready.newBuffer2.2
    · simp [State.exchange, hI.buffers, Ne.symm hI.currentBuffer]
    · simp only [State.exchange]
      split_ifs with hnext
      · have := List.length_pos_iff.2 (hI.filled (Option.isNone_iff_eq_none.1 hnext))
        intro _
        rw [List.length_append, List.length_singleton]
        omega
      · exact fun h => absurd h hready.newBuffer2.1
  order := by
    have := hI.order
    rw [hpc, State.front] at this
    simpa [State.handed, State.unwritten, State.front, State.exchange, hready.buffersToWrite,
      hready.newBuffer1.2.accepted] using this

/-- A write takes the next buffer from those to be written. -/
theorem write_of_draining {i : ℕ} (h : Draining s) (hpc : s.pc = .writing i)
    (hi : i < s.buffersToWrite.length) :
    ∃ buffer, s.write i = .ok { s with output := s.output ++ [buffer] } ∧
      contents s.unwritten = buffer.accepted ++ contents (s.buffersToWrite.drop (i + 1)) := by
  have hget : s.buffersToWrite[i]? = some s.buffersToWrite[i] := List.getElem?_eq_getElem hi
  cases hp : s.buffersToWrite[i] with
  | none => exact absurd (hp ▸ List.getElem_mem hi) h.buffersToWrite
  | some buffer =>
    refine ⟨buffer, by simp [State.write, hget, hp], ?_⟩
    rw [State.unwritten, hpc]
    simp only
    rw [List.drop_eq_getElem_cons hi, contents_cons, hp]
    rfl

/-- A step that touches no buffer. -/
theorem Inv.move {running : Bool} {mutex : Mutex} {pc : BackendPc} {stop : StopPc} (hI : Inv s)
    (hmutex : mutex = .backend ↔ pc.HoldsMutex)
    (hlogline : ∀ logline, mutex = .append logline → logline.length < SIZE)
    (hready : pc.BeforeExchange → Ready s) (hdraining : pc.AfterExchange → Draining s)
    (hunwritten : contents ({ s with pc } : State SIZE).unwritten = contents s.unwritten) :
    Inv { s with running, mutex, pc, stop } where
  mutex := hmutex
  logline := hlogline
  currentBuffer := hI.currentBuffer
  nextBuffer := hI.nextBuffer
  buffers := hI.buffers
  filled := hI.filled
  ready := fun h => ⟨(hready h).1, (hready h).2, (hready h).3⟩
  draining := fun h =>
    ⟨(hdraining h).1, (hdraining h).2, (hdraining h).3, (hdraining h).4, (hdraining h).5⟩
  order := by
    rw [← hI.order, ← hunwritten]
    rfl

theorem Inv.start (hI : Inv s) (hpc : s.pc = .notStarted) : Inv { s with
    running := true
    pc := .testing
    newBuffer1 := some (zeroed SIZE)
    newBuffer2 := some (zeroed SIZE)
    buffersToWrite := [] } where
  mutex := by simpa [hpc] using hI.mutex
  logline := hI.logline
  currentBuffer := hI.currentBuffer
  nextBuffer := hI.nextBuffer
  buffers := hI.buffers
  filled := hI.filled
  ready := fun _ => ⟨⟨by simp, empty_zeroed⟩, ⟨by simp, empty_zeroed⟩, rfl⟩
  draining := by simp
  order := by simpa [State.handed, State.unwritten, State.front, hpc] using hI.order

/-- The end of a call of `append`. -/
theorem Inv.appended (hI : Inv s) (hlock : s.mutex = .append logline)
    (h : Appended s logline s') : Inv { s' with mutex := .free } := by
  have hframe := h.frame
  obtain ⟨hcurrent, hnext, hbuffers, hfilled, hfront, happended, -⟩ := h
  have hmutex := hI.mutex
  rw [hlock] at hmutex
  refine ⟨?_, by simp, hcurrent, hnext, hbuffers, hfilled, ?_, ?_, ?_⟩
  · rw [hframe]
    simpa using hmutex
  · rw [hframe]
    exact fun h => ⟨(hI.ready h).1, (hI.ready h).2, (hI.ready h).3⟩
  · rw [hframe]
    exact fun h => ⟨(hI.draining h).1, (hI.draining h).2, (hI.draining h).3, (hI.draining h).4,
      (hI.draining h).5⟩
  · have hhanded : s'.handed = s.handed := by rw [hframe]; rfl
    have hunwritten : s'.unwritten = s.unwritten := by rw [hframe]; rfl
    calc s'.handed ++ contents s'.unwritten ++ s'.front
        = s.handed ++ contents s.unwritten ++ s.front ++ logline := by
          rw [hhanded, hunwritten, hfront, List.append_assoc _ s.front]
      _ = s'.appended.flatten := by rw [hI.order, happended]; simp

/-- The end of a write. -/
theorem Inv.written {i : ℕ} {buffer : FixedBuffer SIZE} (hI : Inv s) (hpc : s.pc = .writing i)
    (hcontents : contents s.unwritten =
      buffer.accepted ++ contents (s.buffersToWrite.drop (i + 1))) :
    Inv { s with output := s.output ++ [buffer], pc := .writing (i + 1) } where
  mutex := by simpa [hpc] using hI.mutex
  logline := hI.logline
  currentBuffer := hI.currentBuffer
  nextBuffer := hI.nextBuffer
  buffers := hI.buffers
  filled := hI.filled
  ready := by simp
  draining := fun _ => by
    have h := hI.draining (by simp [hpc])
    exact ⟨h.1, h.2, h.3, h.4, h.5⟩
  order := by
    have := hI.order
    rw [hcontents] at this
    simpa [State.handed, State.unwritten, State.front] using this

/-- The end of an iteration. -/
theorem Inv.recycled {buffer₁ buffer₂ : FixedBuffer SIZE} (hI : Inv s) (hpc : s.pc = .recycling)
    (h₁ : buffer₁.cur = 0) (h₂ : buffer₂.cur = 0) : Inv { s with
      newBuffer1 := some buffer₁
      newBuffer2 := some buffer₂
      buffersToWrite := []
      pc := .testing } where
  mutex := by simpa [hpc] using hI.mutex
  logline := hI.logline
  currentBuffer := hI.currentBuffer
  nextBuffer := hI.nextBuffer
  buffers := hI.buffers
  filled := hI.filled
  ready := fun _ => ⟨⟨by simp, by simp [Empty, h₁]⟩, ⟨by simp, by simp [Empty, h₂]⟩, rfl⟩
  draining := by simp
  order := by simpa [State.handed, State.unwritten, State.front, hpc] using hI.order

/-- **Every step of every thread keeps the invariant.** -/
theorem Inv.step {a : Act SIZE} (hI : Inv s) (h : Step s a s') : Inv s' := by
  have hmutex := hI.mutex
  have hready := hI.ready
  have hlogline := hI.logline
  -- what a step that moves no buffer leaves unwritten
  have hself : contents ({ s with pc := s.pc } : State SIZE).unwritten = contents s.unwritten := rfl
  cases h with
  | start hpc => exact hI.start hpc
  | lockAppend hfree hlen =>
    exact hI.move (by simpa [hfree] using hmutex) (by simpa using hlen) hready hI.draining hself
  | @append logline fresh s₁ hlock hfresh h =>
    obtain ⟨s₂, hok, happ⟩ := hI.append (hlogline logline hlock) hfresh
    obtain rfl : s₂ = s₁ := Except.ok.inj (hok.symm.trans h)
    exact hI.appended hlock happ
  | test_loop hpc hrun =>
    simp only [hpc, BackendPc.HoldsMutex, BackendPc.BeforeExchange] at hmutex hready
    exact hI.move (by simpa using hmutex) hlogline (by simpa using hready) (by simp)
      (by simp [State.unwritten, hpc])
  | test_leave hpc hrun =>
    simp only [hpc, BackendPc.HoldsMutex] at hmutex
    exact hI.move (by simpa using hmutex) hlogline (by simp) (by simp)
      (by simp [State.unwritten, hpc])
  | lock hpc hfree =>
    simp only [hpc, BackendPc.BeforeExchange] at hready
    exact hI.move (by simp) (by simp) (by simpa using hready) (by simp)
      (by simp [State.unwritten, hpc])
  | check_wait hpc hempty =>
    simp only [hpc, BackendPc.BeforeExchange] at hready
    exact hI.move (by simp) (by simp) (by simpa using hready) (by simp)
      (by simp [State.unwritten, hpc])
  | check_go hpc hne =>
    simp only [hpc, BackendPc.HoldsMutex, BackendPc.BeforeExchange] at hmutex hready
    exact hI.move (by simpa using hmutex) hlogline (by simpa using hready) (by simp)
      (by simp [State.unwritten, hpc])
  | wakeup hpc hfree =>
    simp only [hpc, BackendPc.BeforeExchange] at hready
    exact hI.move (by simp) (by simp) (by simpa using hready) (by simp)
      (by simp [State.unwritten, hpc])
  | exchange hpc => exact hI.exchange (hready (by simp [hpc])) (by simp [State.unwritten, hpc])
  | @write i s₁ hpc hi h =>
    obtain ⟨buffer, hok, hcontents⟩ := write_of_draining (hI.draining (by simp [hpc])) hpc hi
    obtain rfl : _ = s₁ := Except.ok.inj (hok.symm.trans h)
    exact hI.written hpc hcontents
  | endWrites hpc hi =>
    have hdraining := hI.draining (by simp [hpc])
    simp only [hpc, BackendPc.HoldsMutex] at hmutex
    exact hI.move (by simpa using hmutex) hlogline (by simp) (fun _ => hdraining)
      (by simp [State.unwritten, hpc, List.drop_of_length_le hi])
  | @recycle s₁ hpc h =>
    obtain ⟨buffer₁, buffer₂, h₁, h₂, hok⟩ := recycle_of_draining (hI.draining (by simp [hpc]))
    obtain rfl : _ = s₁ := Except.ok.inj (hok.symm.trans h)
    exact hI.recycled hpc h₁ h₂
  | flush hpc =>
    simp only [hpc, BackendPc.HoldsMutex] at hmutex
    exact hI.move (by simpa using hmutex) hlogline (by simp) (by simp)
      (by simp [State.unwritten, hpc])
  | stop hstop hpc => exact hI.move hmutex hlogline hready hI.draining hself
  | notify hstop => exact hI.move hmutex hlogline hready hI.draining hself
  | join hstop hpc => exact hI.move hmutex hlogline hready hI.draining hself

/-! ### Runs -/

/-- No access of the threads to the buffers faults: the mutex is only free with a current buffer in
place, an iteration begins with both backend buffers, and neither a call of `append` nor a write
nor the recycling meets a null pointer or an empty vector. -/
structure Sound (s : State SIZE) : Prop where
  currentBuffer : s.mutex = .free → s.currentBuffer ≠ none
  iteration : s.pc = .locking → s.newBuffer1 ≠ none ∧ s.newBuffer2 ≠ none
  append : ∀ logline fresh, s.mutex = .append logline → fresh.cur = 0 →
    ∃ s', s.append logline fresh = .ok s'
  write : ∀ i, s.pc = .writing i → i < s.buffersToWrite.length → ∃ s', s.write i = .ok s'
  recycle : s.pc = .recycling → ∃ s', s.recycle = .ok s'

theorem Inv.sound (hI : Inv s) : Sound s where
  currentBuffer := fun _ => hI.currentBuffer
  iteration := fun hpc =>
    have hready := hI.ready (by simp [hpc])
    ⟨hready.newBuffer1.1, hready.newBuffer2.1⟩
  append := fun logline fresh hlock hfresh => by
    obtain ⟨s', hok, -⟩ := hI.append (hI.logline logline hlock) hfresh
    exact ⟨s', hok⟩
  write := fun i hpc hi => by
    obtain ⟨buffer, hok, -⟩ := write_of_draining (hI.draining (by simp [hpc])) hpc hi
    exact ⟨_, hok⟩
  recycle := fun hpc => by
    obtain ⟨buffer₁, buffer₂, -, -, hok⟩ := recycle_of_draining (hI.draining (by simp [hpc]))
    exact ⟨_, hok⟩

theorem inv_of_reachable (h : (lts SIZE).Reachable (init SIZE) s) : Inv s :=
  h.invariant inv_init fun _ _ _ hI hst => hI.step hst

/-- **Double buffering.**  In every reachable state no access to the buffers faults, and the bytes
accepted in the buffers handed to the log file, in those the backend still has to write, in
`buffers_` and in `currentBuffer_` are the lines appended, in the order of the lock. -/
theorem double_buffering (h : (lts SIZE).Reachable (init SIZE) s) :
    Sound s ∧ s.handed ++ contents s.unwritten ++ contents s.buffers ++
      acceptedOf s.currentBuffer = s.appended.flatten := by
  have hI := inv_of_reachable h
  refine ⟨hI.sound, ?_⟩
  rw [List.append_assoc _ (contents s.buffers)]
  exact hI.order

/-- A whole call of `append`, from a state with the mutex free. -/
theorem run_append {s₀ : State SIZE} {tr : List (State SIZE × Act SIZE)} (logline : List UInt8)
    (fresh : FixedBuffer SIZE) (h : (lts SIZE).Run s₀ tr s) (hmutex : s.mutex = .free)
    (hlen : logline.length < SIZE) (hfresh : fresh.cur = 0)
    (hok : ({ s with mutex := .append logline } : State SIZE).append logline fresh = .ok s') :
    (lts SIZE).Run s₀ (tr ++ [(s, .lockAppend logline)] ++
      [({ s with mutex := .append logline }, .append fresh)]) { s' with mutex := .free } :=
  (h.snoc (Step.lockAppend hmutex hlen)).snoc (Step.append rfl hfresh hok)

/-- Lines that do not fit send two buffers to `buffers_`.  The backend exchanges them, a line is
appended while it writes, and two of the three buffers written are recycled. -/
theorem double_buffering_full :
    ∃ s, (lts 4).Reachable (init 4) s ∧ s.pc = .testing ∧
      s.output.map FixedBuffer.accepted = [[1, 2, 3], [4, 5], [6, 7]] ∧ s.newBuffer2.isSome ∧
      acceptedOf s.currentBuffer = [8] ∧ Sound s ∧
      s.handed ++ contents s.unwritten ++ contents s.buffers ++ acceptedOf s.currentBuffer =
        [1, 2, 3, 4, 5, 6, 7, 8] := by
  have hstart : (lts 4).Run (init 4) _ _ := LTS.Run.nil.snoc (Step.start rfl)
  have hone := run_append [1, 2, 3] (zeroed 4) hstart rfl (by decide) rfl rfl
  have htwo := run_append [4, 5] (zeroed 4) hone rfl (by decide) rfl rfl
  have hthree := run_append [6, 7] (zeroed 4) htwo rfl (by decide) rfl rfl
  have hlocked := (hthree.snoc (Step.test_loop rfl rfl)).snoc (Step.lock rfl rfl)
  have hexchanged := (hlocked.snoc (Step.check_go rfl (List.cons_ne_nil _ _))).snoc
    (Step.exchange rfl)
  have hwritten := hexchanged.snoc (Step.write rfl (by decide) rfl)
  have hfour := run_append [8] (zeroed 4) hwritten rfl (by decide) rfl rfl
  have hall := (hfour.snoc (Step.write rfl (by decide) rfl)).snoc
    (Step.write rfl (by decide) rfl)
  have hrun := (hall.snoc (Step.endWrites rfl (by decide))).snoc (Step.recycle rfl rfl)
  obtain ⟨hsound, horder⟩ := double_buffering hrun.reachable
  exact ⟨_, hrun.reachable, rfl, rfl, rfl, rfl, hsound, horder⟩

end AsyncLogging

end TinyNetwork
