import TinyNetwork.Logger.Stop

/-!
# What the log file is given

The backend gives the log file `length()` bytes of every buffer it writes, and `length()` is the
size of the buffer.  `append` always leaves a byte of a buffer free, so what is given of a buffer
is never what it has accepted: stale bytes of an earlier use follow it.

## Main results

* `Room.step` : no buffer in use is ever full.
* `exact_iff` : the log file holds exactly what was logged as long as no buffer is written.
-/

namespace TinyNetwork

namespace AsyncLogging

variable {SIZE : ℕ}

namespace State

variable (s : State SIZE)

/-- The bytes passed to the log file, `buffer->length()` from `buffer->data()` on for every
buffer. -/
def passed : List UInt8 := s.output.flatMap fun buffer => buffer.data.take buffer.length

end State

/-- The log file has been given what was logged, and nothing else. -/
structure Exact (s : State SIZE) : Prop where
  passed_isPrefix : s.passed <+: s.appended.flatten
  /-- When no line is left in a buffer that is still to be written, all of them are there. -/
  passed_eq : s.front = [] → contents s.unwritten = [] → s.passed = s.appended.flatten
  length_eq : ∀ buffer ∈ s.output, buffer.length = buffer.accepted.length

/-- The buffers that hold lines have a free byte. -/
structure Room (s : State SIZE) : Prop where
  currentBuffer : ∀ buffer ∈ s.currentBuffer, buffer.cur < SIZE
  buffers : ∀ buffer, some buffer ∈ s.buffers → buffer.cur < SIZE
  buffersToWrite : ∀ buffer, some buffer ∈ s.buffersToWrite → buffer.cur < SIZE

variable {s s' : State SIZE} {a : Act SIZE} {logline : List UInt8} {fresh : FixedBuffer SIZE}

theorem room_init (hSIZE : 0 < SIZE) : Room (init SIZE) where
  currentBuffer := by
    intro buffer hmem
    cases Option.mem_some_iff.1 hmem
    exact hSIZE
  buffers := by simp [init]
  buffersToWrite := by simp [init]

/-- `append` leaves a byte free, since it takes a line only if there is more room than needed. -/
theorem cur_append_lt {buffer : FixedBuffer SIZE} (h : buffer.cur < SIZE) :
    (buffer.append logline).cur < SIZE := by
  unfold FixedBuffer.append
  split_ifs with havail
  · show buffer.cur + logline.length < SIZE
    unfold FixedBuffer.avail at havail
    omega
  · exact h

theorem Empty.cur_lt {p : BufferPtr SIZE} (h : Empty p) (hSIZE : 0 < SIZE) :
    ∀ buffer ∈ p, buffer.cur < SIZE := by
  intro buffer hmem
  rw [h buffer hmem]
  exact hSIZE

/-- A call of `append` leaves a byte of every buffer free. -/
theorem Room.append (hR : Room s) (hI : Inv s) (hSIZE : 0 < SIZE) (hfresh : fresh.cur = 0)
    (h : s.append logline fresh = .ok s') : Room s' := by
  obtain ⟨current, hcurrent⟩ := Option.ne_none_iff_exists'.1 hI.currentBuffer
  have hroom : current.cur < SIZE := hR.currentBuffer current hcurrent
  have hbuffers : ∀ buffer, some buffer ∈ s.buffers ++ [some current] → buffer.cur < SIZE := by
    intro buffer hmem
    rcases List.mem_append.1 hmem with hmem | hmem
    · exact hR.buffers buffer hmem
    · cases Option.some.inj (List.mem_singleton.1 hmem)
      exact hroom
  unfold State.append at h
  rw [hcurrent] at h
  simp only at h
  -- the line goes to the current buffer, to the second one or to a new one
  split_ifs at h with havail
  · cases h
    exact ⟨by simpa using cur_append_lt hroom, hR.buffers, hR.buffersToWrite⟩
  · cases hnext : s.nextBuffer with
    | some next =>
      rw [hnext] at h
      cases h
      have hcur := hI.nextBuffer.cur_lt hSIZE next hnext
      exact ⟨by simpa using cur_append_lt hcur, hbuffers, hR.buffersToWrite⟩
    | none =>
      rw [hnext] at h
      cases h
      have hcur : fresh.cur < SIZE := hfresh.symm ▸ hSIZE
      exact ⟨by simpa using cur_append_lt hcur, hbuffers, hR.buffersToWrite⟩

/-- The exchange moves the buffers that hold lines, and puts an empty one in front. -/
theorem Room.exchange (hR : Room s) (hready : Ready s) (hSIZE : 0 < SIZE) : Room s.exchange where
  currentBuffer := hready.newBuffer1.2.cur_lt hSIZE
  buffers := by simp [State.exchange, hready.buffersToWrite]
  buffersToWrite := by
    intro buffer hmem
    rcases List.mem_append.1 hmem with hmem | hmem
    · exact hR.buffers buffer hmem
    · exact hR.currentBuffer buffer (List.mem_singleton.1 hmem).symm

/-- **No buffer in use is ever full.** -/
theorem Room.step (hR : Room s) (hI : Inv s) (hSIZE : 0 < SIZE) (h : Step s a s') : Room s' := by
  cases h with
  | start => exact ⟨hR.currentBuffer, hR.buffers, by simp⟩
  | append hlock hfresh h =>
    obtain ⟨hcurrent, hbuffers, hwrite⟩ := hR.append hI hSIZE hfresh h
    exact ⟨hcurrent, hbuffers, hwrite⟩
  | exchange hpc =>
    obtain ⟨hcurrent, hbuffers, hwrite⟩ := hR.exchange (hI.ready (by simp [hpc])) hSIZE
    exact ⟨hcurrent, hbuffers, hwrite⟩
  | @write i s₁ hpc hi h =>
    obtain ⟨buffer, hok, -⟩ := write_of_draining (hI.draining (by simp [hpc])) hpc hi
    obtain rfl : _ = s₁ := Except.ok.inj (hok.symm.trans h)
    exact ⟨hR.currentBuffer, hR.buffers, hR.buffersToWrite⟩
  | @recycle s₁ hpc h =>
    obtain ⟨buffer₁, buffer₂, -, -, hok⟩ := recycle_of_draining (hI.draining (by simp [hpc]))
    obtain rfl : _ = s₁ := Except.ok.inj (hok.symm.trans h)
    exact ⟨hR.currentBuffer, hR.buffers, by simp⟩
  | lockAppend | test_loop | test_leave | lock | check_wait | check_go | wakeup | endWrites | flush
  | stop | notify | join => exact ⟨hR.currentBuffer, hR.buffers, hR.buffersToWrite⟩

/-! ### The log file -/

/-- The log file is exact as soon as it was given of every buffer what the buffer had accepted. -/
theorem exact_of_length (hI : Inv s)
    (h : ∀ buffer ∈ s.output, buffer.length = buffer.accepted.length) : Exact s := by
  have hpassed : s.passed = s.handed := by
    refine List.flatMap_congr fun buffer hmem => ?_
    have hlen : (buffer.data.take buffer.length).length = buffer.length :=
      List.length_take.trans (Nat.min_eq_left (Nat.le_of_eq buffer.length_data.symm))
    exact (FixedBuffer.accepted_isPrefix.eq_of_length
      ((h buffer hmem).symm.trans hlen.symm)).symm
  refine ⟨?_, fun hfront hunwritten => ?_, h⟩
  · rw [hpassed, ← hI.order, List.append_assoc]
    exact List.prefix_append _ _
  · rw [hpassed, ← hI.order, hfront, hunwritten, List.append_nil, List.append_nil]

/-- A step other than a write passes nothing to the log file. -/
theorem output_eq (hI : Inv s) (h : Step s a s') (ha : a ≠ .write) : s'.output = s.output := by
  cases h with
  | @append logline fresh s₁ hlock hfresh h =>
    obtain ⟨s₂, hok, happ⟩ := hI.append (hI.logline logline hlock) hfresh
    obtain rfl : s₂ = s₁ := Except.ok.inj (hok.symm.trans h)
    rw [happ.frame]
  | write => exact absurd rfl ha
  | @recycle s₁ hpc h =>
    obtain ⟨buffer₁, buffer₂, -, -, hok⟩ := recycle_of_draining (hI.draining (by simp [hpc]))
    obtain rfl : _ = s₁ := Except.ok.inj (hok.symm.trans h)
    rfl
  | start | lockAppend | test_loop | test_leave | lock | check_wait | check_go | wakeup | exchange
  | endWrites | flush | stop | notify | join => rfl

/-- A write passes more bytes than its buffer has accepted. -/
theorem not_exact_of_write (hR : Room s) (hI : Inv s) (h : Step s .write s') : ¬ Exact s' := by
  cases h with
  | @write i s₁ hpc hi h =>
    intro hE
    cases hbuffer : s.buffersToWrite[i] with
    | none => exact (hI.draining (by simp [hpc])).buffersToWrite (hbuffer ▸ List.getElem_mem hi)
    | some buffer =>
      have hcur : buffer.cur < SIZE := hR.buffersToWrite buffer (hbuffer ▸ List.getElem_mem hi)
      have hwrite : s.write i = .ok { s with output := s.output ++ [buffer] } := by
        simp [State.write, List.getElem?_eq_getElem hi, hbuffer]
      obtain rfl : _ = s₁ := Except.ok.inj (hwrite.symm.trans h)
      have hlen : SIZE = buffer.accepted.length := hE.length_eq buffer List.mem_concat_self
      rw [FixedBuffer.accepted, List.length_take] at hlen
      omega

/-- **When the log file is exact.**  In a run of the logger the log file holds in every state
exactly what was logged, iff the backend writes no buffer in the run. -/
theorem exact_iff {tr : List (State SIZE × Act SIZE)} (hSIZE : 0 < SIZE)
    (h : (lts SIZE).Run (init SIZE) tr s) :
    ((∀ p ∈ tr, Exact p.1) ∧ Exact s) ↔ ∀ p ∈ tr, p.2 ≠ .write := by
  refine h.forall_iff (J := fun s => Inv s ∧ Room s) (C := fun _ a => a ≠ .write)
    ⟨inv_init, room_init hSIZE⟩ (exact_of_length inv_init (by simp [init])) ?_ ?_ ?_
  · rintro s a s' ⟨hI, hR⟩ hst
    exact ⟨hI.step hst, hR.step hI hSIZE hst⟩
  · rintro s a s' ⟨hI, -⟩ hE ha hst
    refine exact_of_length (hI.step hst) ?_
    rw [output_eq hI hst ha]
    exact hE.length_eq
  · rintro s a s' ⟨hI, hR⟩ - ha hst
    obtain rfl : a = .write := not_not.1 ha
    exact not_exact_of_write hR hI hst

/-- A line is appended, and the backend takes its buffer out of the front end. -/
theorem run_exchanged : ∃ tr s, (lts kLargeBuffer).Run (init kLargeBuffer) tr s ∧
    (∀ p ∈ tr, p.2 ≠ .write) ∧ s.appended = [[104, 105, 10]] ∧ s.pc = .writing 0 ∧
    s.output = [] ∧ s.buffersToWrite.length = 1 := by
  have h₀ : (lts kLargeBuffer).Run (init kLargeBuffer) _ _ := .snoc .nil (.start rfl)
  have h₁ := run_append [104, 105, 10] (zeroed _) h₀ rfl (by decide) rfl rfl
  have h₂ := (h₁.snoc (.test_loop rfl rfl)).snoc (.lock rfl rfl)
  have h₃ := (h₂.snoc (.check_wait rfl rfl)).snoc (.wakeup rfl rfl)
  exact ⟨_, _, h₃.snoc (.exchange rfl), by simp, rfl, rfl, rfl, rfl⟩

/-- Until the backend writes the buffer, the log file, still empty, is exact. -/
theorem exact_iff_exchanged : ∃ tr s, (lts kLargeBuffer).Run (init kLargeBuffer) tr s ∧
    s.appended = [[104, 105, 10]] ∧ s.pc = .writing 0 ∧ (∀ p ∈ tr, Exact p.1) ∧ Exact s := by
  obtain ⟨tr, s, h, hwrite, happended, hpc, -, -⟩ := run_exchanged
  exact ⟨tr, s, h, happended, hpc, (exact_iff (by decide) h).2 hwrite⟩

/-- The first buffer written is passed whole. -/
theorem length_passed (h : s.output = []) (buffer : FixedBuffer SIZE) :
    ({ s with output := s.output ++ [buffer] } : State SIZE).passed.length = SIZE := by
  simp [State.passed, h, FixedBuffer.length, buffer.length_data]

/-- Three bytes are logged, and the log file is given four million. -/
theorem not_exact_written : ∃ s, (lts kLargeBuffer).Reachable (init kLargeBuffer) s ∧
    s.appended = [[104, 105, 10]] ∧ s.passed.length = 4000000 ∧ ¬ Exact s := by
  obtain ⟨tr, s, h, -, happended, hpc, houtput, hone⟩ := run_exchanged
  have hI : Inv s := inv_of_reachable h.reachable
  obtain ⟨buffer, hok, -⟩ := write_of_draining (hI.draining (by simp [hpc])) hpc (by omega)
  have hlen := length_passed houtput buffer
  refine ⟨_, (h.snoc (.write hpc (by omega) hok)).reachable, happended, hlen, fun hE => ?_⟩
  have hle := hE.passed_isPrefix.length_le
  have happ : s.appended.flatten.length = 3 := by rw [happended]; rfl
  exact absurd (hlen.symm.trans_le (hle.trans_eq happ)) (by decide)

end AsyncLogging

end TinyNetwork
