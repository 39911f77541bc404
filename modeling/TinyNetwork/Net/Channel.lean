import Mathlib

/-!
# `Channel`

The events a file descriptor is registered for.  A channel keeps its mask in `events_`; every
change is followed by `update()`, which goes through the loop to `EpollPoller::updateChannel` and
from there to `epoll_ctl`.  `interest` is what the kernel holds for the descriptor.

## Main results

* `Channel.isWriting_disableWriting`, `Channel.isReading_disableWriting` : `disableWriting` keeps
  the write interest and drops the read interest.
* `Channel.registered_update` : an update registers the mask of the channel with the kernel.
* `Channel.awaitsWrite_disableWriting` : so it does with the write interest of any channel.
-/

namespace TinyNetwork

/-- What `EpollPoller` keeps in the `index_` of a channel. -/
inductive ChannelIndex where
  /-- Not in the poller. -/
  | kNew
  /-- In the poller and registered with epoll. -/
  | kAdded
  /-- In the poller, taken out of epoll. -/
  | kDeleted
  deriving DecidableEq, Repr

/-- `class Channel`. -/
structure Channel where
  events : BitVec 32
  index : ChannelIndex
  /-- The mask `epoll` holds for the descriptor, if it is in the interest list. -/
  interest : Option (BitVec 32)
  deriving DecidableEq, Repr

namespace Channel

def kNoneEvent : BitVec 32 := 0

/-- `EPOLLIN | EPOLLPRI`. -/
def kReadEvent : BitVec 32 := 0x001 ||| 0x002

/-- `EPOLLOUT`. -/
def kWriteEvent : BitVec 32 := 0x004

/-- The constructor. -/
def create : Channel := ⟨0, .kNew, none⟩

def isNoneEvent (c : Channel) : Bool := c.events == kNoneEvent

def isWriting (c : Channel) : Bool := c.events &&& kWriteEvent != 0

def isReading (c : Channel) : Bool := c.events &&& kReadEvent != 0

/-- `update()`: `EpollPoller::updateChannel` and its `epoll_ctl`. -/
def update (c : Channel) : Channel :=
  match c.index with
  | .kNew | .kDeleted => { c with index := .kAdded, interest := some c.events }
  | .kAdded =>
    if c.isNoneEvent then { c with index := .kDeleted, interest := none }
    else { c with interest := some c.events }

/-- `remove()`: `EpollPoller::removeChannel`. -/
def remove (c : Channel) : Channel :=
  { c with
    index := .kNew
    interest := if c.index = .kAdded then none else c.interest }

def enableReading (c : Channel) : Channel := update { c with events := c.events ||| kReadEvent }

def disableReading (c : Channel) : Channel :=
  update { c with events := c.events &&& ~~~kReadEvent }

def enableWriting (c : Channel) : Channel := update { c with events := c.events ||| kWriteEvent }

/-- The mask is not complemented here. -/
def disableWriting (c : Channel) : Channel :=
  update { c with events := c.events &&& kWriteEvent }

def disableAll (c : Channel) : Channel := update { c with events := c.events &&& kNoneEvent }

/-! ### The mask -/

variable (c : Channel)

@[simp] theorem events_update : c.update.events = c.events := by
  unfold update
  split
  · rfl
  · rfl
  · split_ifs <;> rfl

theorem write_and_read : kWriteEvent &&& kReadEvent = 0#32 := by decide

@[simp] theorem isWriting_enableWriting : c.enableWriting.isWriting = true := by
  simp only [enableWriting, isWriting, events_update, bne_iff_ne]
  intro h
  have hbit : ((c.events ||| kWriteEvent) &&& kWriteEvent).getLsbD 2 = false := by rw [h]; rfl
  simp [kWriteEvent] at hbit

@[simp] theorem isReading_enableWriting : c.enableWriting.isReading = c.isReading := by
  simp only [enableWriting, isReading, events_update, BitVec.and_or_distrib_right,
    write_and_read, BitVec.or_zero]

@[simp] theorem isReading_enableReading : c.enableReading.isReading = true := by
  simp only [enableReading, isReading, events_update, bne_iff_ne]
  intro h
  have hbit : ((c.events ||| kReadEvent) &&& kReadEvent).getLsbD 0 = false := by rw [h]; rfl
  simp [kReadEvent] at hbit

@[simp] theorem isWriting_enableReading : c.enableReading.isWriting = c.isWriting := by
  simp only [enableReading, isWriting, events_update, BitVec.and_or_distrib_right,
    BitVec.and_comm kReadEvent, write_and_read, BitVec.or_zero]

/-- The missing complement keeps the interest that was to go. -/
@[simp] theorem isWriting_disableWriting : c.disableWriting.isWriting = c.isWriting := by
  simp only [disableWriting, isWriting, events_update, BitVec.and_assoc, BitVec.and_self]

/-- The missing complement drops the interest that was to stay. -/
@[simp] theorem isReading_disableWriting : c.disableWriting.isReading = false := by
  simp only [disableWriting, isReading, events_update, BitVec.and_assoc, write_and_read,
    BitVec.and_zero]
  rfl

@[simp] theorem isWriting_disableAll : c.disableAll.isWriting = false := by
  simp [disableAll, isWriting, kNoneEvent]

@[simp] theorem isWriting_remove : c.remove.isWriting = c.isWriting := rfl

/-! ### Registration -/

/-- The channel is added, and the kernel holds its mask. -/
def Registered (c : Channel) : Prop := c.index = .kAdded ∧ c.interest = some c.events

variable {c : Channel}

theorem isNoneEvent_of_isWriting (h : c.isWriting = true) : c.isNoneEvent = false := by
  simp only [isWriting, bne_iff_ne] at h
  simp only [isNoneEvent, beq_eq_false_iff_ne]
  intro hnone
  simp [hnone, kNoneEvent] at h

/-- An update of an added channel that is still interested in something registers its mask. -/
theorem registered_update (hindex : c.index = .kAdded) (h : c.isNoneEvent = false) :
    c.update.Registered := by
  simp [update, hindex, h, Registered]

theorem Registered.enableWriting (h : c.Registered) : c.enableWriting.Registered :=
  registered_update h.1 (isNoneEvent_of_isWriting
    (by simpa only [Channel.enableWriting, isWriting, events_update] using
      c.isWriting_enableWriting))

theorem Registered.disableWriting (h : c.Registered) (hw : c.isWriting = true) :
    c.disableWriting.Registered :=
  registered_update h.1 (isNoneEvent_of_isWriting
    (by simpa only [Channel.disableWriting, isWriting, events_update] using
      c.isWriting_disableWriting.trans hw))

/-- A channel that is not added has no entry in epoll. -/
def Tidy (c : Channel) : Prop := c.index ≠ .kAdded → c.interest = none

theorem tidy_create : create.Tidy := fun _ => rfl

theorem tidy_update : c.update.Tidy := by
  unfold Channel.update
  split
  · exact fun h => absurd rfl h
  · exact fun h => absurd rfl h
  · rename_i hindex
    split_ifs
    · exact fun _ => rfl
    · exact fun h => absurd hindex h

theorem Tidy.remove (h : c.Tidy) : c.remove.interest = none := by
  simp only [Channel.remove]
  split_ifs with hindex
  · rfl
  · exact h hindex

/-- The kernel holds the write interest for the descriptor. -/
def AwaitsWrite (c : Channel) : Prop :=
  ∃ mask, c.interest = some mask ∧ mask &&& kWriteEvent ≠ 0

theorem Registered.awaitsWrite (h : c.Registered) (hw : c.isWriting = true) : c.AwaitsWrite :=
  ⟨c.events, h.2, by simpa [isWriting] using hw⟩

/-- The update of a channel that is writing registers its write interest, whatever its `index_`
was. -/
theorem awaitsWrite_disableWriting (hw : c.isWriting = true) : c.disableWriting.AwaitsWrite := by
  have hwriting : isWriting { c with events := c.events &&& kWriteEvent } = true := by
    simpa only [disableWriting, isWriting, events_update] using c.isWriting_disableWriting.trans hw
  refine ⟨c.events &&& kWriteEvent, ?_, by simpa [isWriting] using hwriting⟩
  have hnone := isNoneEvent_of_isWriting hwriting
  unfold disableWriting update
  cases hindex : c.index with
  | kNew => simp only
  | kDeleted => simp only
  | kAdded =>
    simp only [hindex] at hnone ⊢
    simp [hnone]

theorem registered_enableReading_create : create.enableReading.Registered := ⟨rfl, rfl⟩

end Channel

end TinyNetwork
