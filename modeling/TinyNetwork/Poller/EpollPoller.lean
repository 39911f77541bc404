import TinyNetwork.LTS.Basic
import TinyNetwork.Net.Channel

/-!
# `EpollPoller`

A poller keeps its channels in three places: the index of each channel, the map `channels_` from
descriptors to channels, and the interest list of the kernel.  Here are the two operations that
change them, for any number of channels; `fd` is the descriptor of each.

## Main results

* `Inv.perform` : every operation on a channel keeps the three places in step.
* `matches_kernel` : the bookkeeping is right after every sequence of operations, none of which
  aborts.
* `channel_perform` : what `Channel` says of a single descriptor holds among any number of them.
* `unregistered_iff` : when a channel without interest is never in the interest list.
-/

namespace TinyNetwork

/-- The operations of `epoll_ctl`. -/
inductive EpollOp where
  | add | mod | del
  deriving DecidableEq, Repr

/-- `epoll_event` : a mask and a pointer to a channel. -/
structure EpollEvent (κ : Type*) where
  events : BitVec 32
  ptr : κ

/-- The interest list of the kernel. -/
abbrev InterestList (κ : Type*) := ℤ → Option (EpollEvent κ)

/-- `epoll_ctl(op, fd, &event)` on an open descriptor; it fails with `EEXIST` or `ENOENT`. -/
def InterestList.ctl {κ : Type*} (l : InterestList κ) (op : EpollOp) (fd : ℤ)
    (event : EpollEvent κ) : Option (InterestList κ) :=
  match op, l fd with
  | .add, none => some (Function.update l fd (some event))
  | .mod, some _ => some (Function.update l fd (some event))
  | .del, some _ => some (Function.update l fd none)
  | _, _ => none

/-- A poller and the channels that use it. -/
structure EpollPoller (κ : Type*) where
  /-- `channels_`. -/
  channels : ℤ → Option κ
  interest : InterestList κ
  /-- `events_` of every channel. -/
  events : κ → BitVec 32
  /-- `index_` of every channel. -/
  index : κ → ChannelIndex
  /-- Every call of `epoll_ctl`, and whether the descriptor was in the interest list. -/
  issued : List (EpollOp × Bool)

namespace EpollPoller

/-- A poller to which no channel has been added. -/
def init {κ : Type*} : EpollPoller κ where
  channels := fun _ => none
  interest := fun _ => none
  events := fun _ => Channel.kNoneEvent
  index := fun _ => .kNew
  issued := []

section Operations

variable {κ : Type*} [DecidableEq κ] (fd : κ → ℤ)

/-- `channel->set_index(idx)`. -/
def setIndex (c : κ) (idx : ChannelIndex) (p : EpollPoller κ) : EpollPoller κ :=
  { p with index := Function.update p.index c idx }

/-- `events_ = events`. -/
def setEvents (c : κ) (events : BitVec 32) (p : EpollPoller κ) : EpollPoller κ :=
  { p with events := Function.update p.events c events }

/-- `update(operation, channel)`, unless `LOG_FATAL` aborts. -/
def update (operation : EpollOp) (c : κ) (p : EpollPoller κ) : Option (EpollPoller κ) :=
  let q := { p with issued := p.issued ++ [(operation, (p.interest (fd c)).isSome)] }
  match p.interest.ctl operation (fd c) ⟨p.events c, c⟩ with
  | some interest => some { q with interest }
  | none =>
    -- `LOG_ERROR` or `LOG_FATAL`
    if operation = .del then some q else none

/-- `updateChannel(channel)`. -/
def updateChannel (c : κ) (p : EpollPoller κ) : Option (EpollPoller κ) :=
  match p.index c with
  | .kNew =>
    let p := { p with channels := Function.update p.channels (fd c) (some c) }
    update fd .add c (p.setIndex c .kAdded)
  | .kDeleted => update fd .add c (p.setIndex c .kAdded)
  | .kAdded =>
    if p.events c = Channel.kNoneEvent then do
      let p ← update fd .del c p
      return p.setIndex c .kDeleted
    else update fd .mod c p

/-- `removeChannel(channel)`. -/
def removeChannel (c : κ) (p : EpollPoller κ) : Option (EpollPoller κ) := do
  let p := { p with channels := Function.update p.channels (fd c) none }
  let p ← (if p.index c = .kAdded then update fd .del c p else some p)
  return p.setIndex c .kNew

/-- The functions of a channel that go to its poller. -/
inductive Op where
  | enableReading | disableReading | enableWriting | disableWriting | disableAll | remove
  deriving DecidableEq, Repr

/-- A call of one of them. -/
def perform (p : EpollPoller κ) : Op × κ → Option (EpollPoller κ)
  | (.enableReading, c) => updateChannel fd c (p.setEvents c (p.events c ||| Channel.kReadEvent))
  | (.disableReading, c) =>
    updateChannel fd c (p.setEvents c (p.events c &&& ~~~Channel.kReadEvent))
  | (.enableWriting, c) => updateChannel fd c (p.setEvents c (p.events c ||| Channel.kWriteEvent))
  | (.disableWriting, c) => updateChannel fd c (p.setEvents c (p.events c &&& Channel.kWriteEvent))
  | (.disableAll, c) => updateChannel fd c (p.setEvents c (p.events c &&& Channel.kNoneEvent))
  | (.remove, c) => removeChannel fd c p

end Operations

/-! ### The bookkeeping -/

variable {κ : Type*} (fd : κ → ℤ)

/-- `ADD` only for an absent descriptor, `MOD` and `DEL` only for a present one. -/
def LegalCall (call : EpollOp × Bool) : Prop := call.2 = (call.1 != .add)

/-- The bookkeeping matches the kernel. -/
structure Bookkept (p : EpollPoller κ) : Prop where
  added_iff : ∀ c, p.index c = .kAdded ↔ (p.interest (fd c)).isSome
  registered : ∀ c, p.index c = .kAdded → p.interest (fd c) = some ⟨p.events c, c⟩
  channels_iff : ∀ c, p.channels (fd c) = some c ↔ p.index c = .kAdded ∨ p.index c = .kDeleted
  legal : ∀ call ∈ p.issued, LegalCall call

/-- What a channel and the kernel hold for its descriptor. -/
def channel (p : EpollPoller κ) (c : κ) : Channel where
  events := p.events c
  index := p.index c
  interest := (p.interest (fd c)).map (·.events)

/-- The function of `Channel` on a single descriptor. -/
def Op.onChannel : Op → Channel → Channel
  | .enableReading => Channel.enableReading
  | .disableReading => Channel.disableReading
  | .enableWriting => Channel.enableWriting
  | .disableWriting => Channel.disableWriting
  | .disableAll => Channel.disableAll
  | .remove => Channel.remove

/-- What the three places say of one channel. -/
structure At (c : κ) (p : EpollPoller κ) : Prop where
  interest : p.interest (fd c) = if p.index c = .kAdded then some ⟨p.events c, c⟩ else none
  channels : p.channels (fd c) = if p.index c = .kNew then none else some c

/-- The three places are in step. -/
structure Inv (p : EpollPoller κ) : Prop where
  at_all : ∀ c, At fd c p
  legal : ∀ call ∈ p.issued, LegalCall call

/-- An operation on the channel `c` that keeps its places in step, and those of all others. -/
structure Changed (c : κ) (p p' : EpollPoller κ) : Prop where
  here : At fd c p'
  index : ∀ c', c' ≠ c → p'.index c' = p.index c'
  events : ∀ c', c' ≠ c → p'.events c' = p.events c'
  interest : ∀ n, n ≠ fd c → p'.interest n = p.interest n
  channels : ∀ n, n ≠ fd c → p'.channels n = p.channels n
  legal : ∀ call ∈ p'.issued, call ∈ p.issued ∨ LegalCall call

variable {fd} {p p' : EpollPoller κ} {c : κ} {e : BitVec 32}

theorem Inv.bookkept (h : Inv fd p) : Bookkept fd p where
  added_iff := fun c => by
    rw [(h.at_all c).interest]
    split_ifs with hadded <;> simp [hadded]
  registered := fun c hadded => by rw [(h.at_all c).interest, if_pos hadded]
  channels_iff := fun c => by
    rw [(h.at_all c).channels]
    cases p.index c <;> simp
  legal := h.legal

theorem inv_init : Inv fd (init : EpollPoller κ) where
  at_all := fun _ => ⟨rfl, rfl⟩
  legal := fun _ h => nomatch h

/-- Two channels have two descriptors, so that what one does the other does not see. -/
theorem Inv.changed (hfd : Function.Injective fd) (hI : Inv fd p) (h : Changed fd c p p') :
    Inv fd p' := by
  refine ⟨fun c' => ?_, fun call hcall => (h.legal call hcall).elim (hI.legal call) id⟩
  by_cases hc : c' = c
  · exact hc ▸ h.here
  · have hne : fd c' ≠ fd c := fun heq => hc (hfd heq)
    obtain ⟨hinterest, hchannels⟩ := hI.at_all c'
    exact ⟨by rw [h.interest _ hne, h.index _ hc, h.events _ hc, hinterest],
      by rw [h.channels _ hne, h.index _ hc, hchannels]⟩

/-- A legal `epoll_ctl` succeeds. -/
theorem update_of_legal {op : EpollOp} (h : LegalCall (op, (p.interest (fd c)).isSome)) :
    update fd op c p = some { p with
      interest := Function.update p.interest (fd c)
        (if op = .del then none else some ⟨p.events c, c⟩)
      issued := p.issued ++ [(op, (p.interest (fd c)).isSome)] } := by
  unfold update InterestList.ctl
  cases op <;> cases hfd : p.interest (fd c) <;> simp_all [LegalCall]

variable [DecidableEq κ]

/-- An operation that writes to the places of one channel only, and keeps them in step. -/
theorem changed_of {i : ChannelIndex} {v : Option (EpollEvent κ)} {m : Option κ}
    {calls : List (EpollOp × Bool)} (hindex : p'.index = Function.update p.index c i)
    (hevents : p'.events = Function.update p.events c e)
    (hinterest : p'.interest = Function.update p.interest (fd c) v)
    (hchannels : p'.channels = Function.update p.channels (fd c) m)
    (hissued : p'.issued = p.issued ++ calls) (hcalls : ∀ call ∈ calls, LegalCall call)
    (hv : v = if i = .kAdded then some ⟨e, c⟩ else none)
    (hm : m = if i = .kNew then none else some c) : Changed fd c p p' where
  here := by
    refine ⟨?_, ?_⟩
    · rw [hinterest, hindex, hevents, Function.update_self, Function.update_self,
        Function.update_self, hv]
    · rw [hchannels, hindex, Function.update_self, Function.update_self, hm]
  index := fun c' hc => by rw [hindex, Function.update_of_ne hc]
  events := fun c' hc => by rw [hevents, Function.update_of_ne hc]
  interest := fun n hn => by rw [hinterest, Function.update_of_ne hn]
  channels := fun n hn => by rw [hchannels, Function.update_of_ne hn]
  legal := fun call hmem => by
    rw [hissued] at hmem
    exact (List.mem_append.1 hmem).imp_right (hcalls call)

/-- `updateChannel` registers the new mask, or takes a channel without interest out of epoll. -/
theorem Inv.updateChannel (hI : Inv fd p) (c : κ) (e : BitVec 32) :
    ∃ p', updateChannel fd c (p.setEvents c e) = some p' ∧ Changed fd c p p' ∧
      p'.channel fd c = Channel.update { p.channel fd c with events := e } := by
  obtain ⟨hinterest, hchannels⟩ := hI.at_all c
  have hself : p.channels = Function.update p.channels (fd c) (p.channels (fd c)) :=
    (Function.update_eq_self _ _).symm
  unfold EpollPoller.updateChannel
  cases hidx : p.index c with
  | kNew =>
    rw [hidx] at hinterest
    have hcall : LegalCall (.add, (p.interest (fd c)).isSome) := by rw [hinterest]; rfl
    simp only [setEvents, hidx]
    rw [update_of_legal (by exact hcall)]
    refine ⟨_, rfl, changed_of rfl rfl rfl rfl rfl
        (List.forall_mem_singleton.2 hcall) (by simp [setIndex]) rfl, ?_⟩
    simp [channel, Channel.update, setIndex, hidx]
  | kDeleted =>
    rw [hidx] at hinterest hchannels
    have hcall : LegalCall (.add, (p.interest (fd c)).isSome) := by rw [hinterest]; rfl
    simp only [setEvents, hidx]
    rw [update_of_legal (by exact hcall)]
    refine ⟨_, rfl, changed_of rfl rfl rfl hself rfl
        (List.forall_mem_singleton.2 hcall) (by simp [setIndex]) hchannels, ?_⟩
    simp [channel, Channel.update, setIndex, hidx]
  | kAdded =>
    rw [hidx] at hinterest hchannels
    have hadded : p.index = Function.update p.index c .kAdded := by
      rw [← hidx, Function.update_eq_self]
    simp only [setEvents, hidx, Function.update_self]
    by_cases hnone : e = Channel.kNoneEvent
    · have hcall : LegalCall (.del, (p.interest (fd c)).isSome) := by rw [hinterest]; rfl
      rw [if_pos hnone, update_of_legal (by exact hcall)]
      refine ⟨_, rfl, changed_of rfl rfl rfl hself rfl
          (List.forall_mem_singleton.2 hcall) rfl hchannels, ?_⟩
      simp [channel, Channel.update, Channel.isNoneEvent, setIndex, hidx, hnone]
    · have hcall : LegalCall (.mod, (p.interest (fd c)).isSome) := by rw [hinterest]; rfl
      rw [if_neg hnone, update_of_legal (by exact hcall)]
      refine ⟨_, rfl, changed_of hadded rfl rfl hself rfl
          (List.forall_mem_singleton.2 hcall) (by simp) hchannels, ?_⟩
      simp [channel, Channel.update, Channel.isNoneEvent, hidx, hnone]

/-- `removeChannel` takes a channel out of epoll and out of the map. -/
theorem Inv.removeChannel (hI : Inv fd p) (c : κ) :
    ∃ p', removeChannel fd c p = some p' ∧ Changed fd c p p' ∧
      p'.channel fd c = (p.channel fd c).remove := by
  obtain ⟨hinterest, hchannels⟩ := hI.at_all c
  have hself : p.interest = Function.update p.interest (fd c) (p.interest (fd c)) :=
    (Function.update_eq_self _ _).symm
  have hevents : p.events = Function.update p.events c (p.events c) :=
    (Function.update_eq_self _ _).symm
  unfold EpollPoller.removeChannel
  by_cases hadded : p.index c = .kAdded
  · rw [if_pos hadded] at hinterest
    have hcall : LegalCall (.del, (p.interest (fd c)).isSome) := by rw [hinterest]; rfl
    simp only [hadded, if_true]
    rw [update_of_legal (by exact hcall)]
    refine ⟨_, rfl, changed_of rfl hevents rfl rfl rfl
        (List.forall_mem_singleton.2 hcall) rfl rfl, ?_⟩
    simp [channel, Channel.remove, setIndex, hadded]
  · rw [if_neg hadded] at hinterest
    simp only [hadded, if_false]
    refine ⟨_, rfl, changed_of rfl hevents hself rfl (List.append_nil _).symm (by simp)
        hinterest rfl, ?_⟩
    simp [channel, Channel.remove, setIndex, hadded]

/-- **Every operation keeps the bookkeeping in step**, and none aborts. -/
theorem Inv.perform (hI : Inv fd p) (op : Op × κ) :
    ∃ p', perform fd p op = some p' ∧ Changed fd op.2 p p' ∧
      p'.channel fd op.2 = op.1.onChannel (p.channel fd op.2) := by
  obtain ⟨o, c⟩ := op
  cases o with
  | remove => exact hI.removeChannel c
  | enableReading | disableReading | enableWriting | disableWriting | disableAll =>
    exact hI.updateChannel c _

theorem Inv.run (hfd : Function.Injective fd) (hI : Inv fd p) (ops : List (Op × κ)) :
    ∃ p', ops.foldlM (EpollPoller.perform fd) p = some p' ∧ Inv fd p' := by
  induction ops generalizing p with
  | nil => exact ⟨p, rfl, hI⟩
  | cons op ops ih =>
    obtain ⟨p₁, hone, hchanged, -⟩ := hI.perform op
    obtain ⟨p', hrest, hI'⟩ := ih (hI.changed hfd hchanged)
    exact ⟨p', by rw [List.foldlM_cons, hone]; exact hrest, hI'⟩

/-- **What `Channel` says of a single descriptor** holds among any number of them: an operation does
to its channel what `Channel` says, and nothing to the others. -/
theorem channel_perform (hfd : Function.Injective fd) (hI : Inv fd p) {op : Op × κ}
    (h : EpollPoller.perform fd p op = some p') (c : κ) :
    p'.channel fd c =
      if c = op.2 then op.1.onChannel (p.channel fd c) else p.channel fd c := by
  obtain ⟨p₁, hone, hchanged, hchannel⟩ := hI.perform op
  obtain rfl := Option.some.inj (h.symm.trans hone)
  by_cases hc : c = op.2
  · rw [if_pos hc, hc, hchannel]
  · have hne : fd c ≠ fd op.2 := fun heq => hc (hfd heq)
    rw [if_neg hc, channel, hchanged.events c hc, hchanged.index c hc, hchanged.interest _ hne]
    rfl

/-- **Poller bookkeeping matches the kernel.**  After every sequence of operations on channels with
distinct descriptors: none of them has aborted, an index is `kAdded` iff the descriptor is in the
interest list, with the mask of its channel and a pointer to it, `channels_` maps the descriptor to
the channel iff the index is not `kNew`, and every `epoll_ctl` was legal. -/
theorem matches_kernel (hfd : Function.Injective fd) (ops : List (Op × κ)) :
    ∃ p, ops.foldlM (EpollPoller.perform fd) init = some p ∧ Bookkept fd p := by
  obtain ⟨p, hrun, hI⟩ := inv_init.run hfd ops
  exact ⟨p, hrun, hI.bookkept⟩

/-- Two channels, one of which is removed after it lost its interest. -/
theorem matches_kernel_pair : ∃ p, [(Op.enableReading, 5), (.enableWriting, 7), (.disableAll, 5),
    (.remove, 5), (.disableReading, 7)].foldlM (EpollPoller.perform (fun n : ℕ => (n : ℤ))) init =
      some p ∧ Bookkept (fun n : ℕ => (n : ℤ)) p :=
  matches_kernel (fun _ _ h => Int.ofNat_inj.1 h) _

/-! ### Channels without interest -/

/-- The calls of a run. -/
def ops (fd : κ → ℤ) : LTS (EpollPoller κ) (Op × κ) where
  step p op p' := perform fd p op = some p'

/-- A channel without interest is not in the interest list. -/
def Unregistered (fd : κ → ℤ) (p : EpollPoller κ) : Prop :=
  ∀ c, p.events c = Channel.kNoneEvent → p.interest (fd c) = none

/-- The mask that an operation leaves. -/
def Op.mask (events : BitVec 32) : Op → BitVec 32
  | .enableReading => events ||| Channel.kReadEvent
  | .disableReading => events &&& ~~~Channel.kReadEvent
  | .enableWriting => events ||| Channel.kWriteEvent
  | .disableWriting => events &&& Channel.kWriteEvent
  | .disableAll => events &&& Channel.kNoneEvent
  | .remove => events

/-- An operation that leaves the mask empty is called on a channel that is registered. -/
def Op.Guarded (o : Op) (c : Channel) : Prop :=
  o ≠ .remove → o.mask c.events = Channel.kNoneEvent → c.index = .kAdded

/-- An update takes a channel without interest out of epoll only if its index says that it is in;
else it is added. -/
theorem interest_update_iff {c : Channel} :
    (c.events = Channel.kNoneEvent → c.update.interest = none) ↔
      (c.events = Channel.kNoneEvent → c.index = .kAdded) := by
  refine forall_congr' fun hnone => ?_
  unfold Channel.update
  cases hidx : c.index <;> simp [Channel.isNoneEvent, hnone]

theorem Op.onChannel_eq {o : Op} (h : o ≠ .remove) (ch : Channel) :
    o.onChannel ch = Channel.update { ch with events := o.mask ch.events } := by
  cases o with
  | remove => exact absurd rfl h
  | _ => rfl

/-- What an operation leaves of a channel that is not registered without interest. -/
theorem Op.guarded_iff {o : Op} {ch : Channel}
    (h : ch.events = Channel.kNoneEvent → ch.interest = none) :
    ((o.onChannel ch).events = Channel.kNoneEvent → (o.onChannel ch).interest = none) ↔
      o.Guarded ch := by
  by_cases hremove : o = .remove
  · subst hremove
    refine iff_of_true (fun hnone => ?_) fun hne => absurd rfl hne
    simp only [Op.onChannel, Channel.remove, h hnone, ite_self]
  · rw [onChannel_eq hremove, Channel.events_update, interest_update_iff, Guarded,
      forall_prop_of_true hremove]

omit [DecidableEq κ] in
theorem unregistered_channel : Unregistered fd p ↔
    ∀ c, (p.channel fd c).events = Channel.kNoneEvent → (p.channel fd c).interest = none :=
  forall_congr' fun _ => forall_congr' fun _ => Option.map_eq_none_iff.symm

/-- **No interest means not registered**, in every state of a run, iff no operation of the run
leaves the mask of an unregistered channel empty. -/
theorem unregistered_iff {tr : List (EpollPoller κ × (Op × κ))} (hfd : Function.Injective fd)
    (h : (ops fd).Run init tr p) :
    ((∀ x ∈ tr, Unregistered fd x.1) ∧ Unregistered fd p) ↔
      ∀ x ∈ tr, x.2.1.Guarded (x.1.channel fd x.2.2) := by
  refine h.forall_iff (I := Unregistered fd) (J := Inv fd)
    (C := fun p op => op.1.Guarded (p.channel fd op.2)) inv_init (fun _ _ => rfl) ?_ ?_ ?_
  · intro p op p' hI hstep
    obtain ⟨p₁, hone, hchanged, -⟩ := hI.perform op
    obtain rfl := Option.some.inj (hone.symm.trans hstep)
    exact hI.changed hfd hchanged
  · intro p op p' hI hun hguard hstep
    rw [unregistered_channel] at hun ⊢
    intro c
    rw [channel_perform hfd hI hstep]
    split_ifs with hc
    · subst hc
      exact (Op.guarded_iff (hun _)).2 hguard
    · exact hun c
  · intro p op p' hI hun hguard hstep hun'
    rw [unregistered_channel] at hun hun'
    have hself := hun' op.2
    rw [channel_perform hfd hI hstep, if_pos rfl] at hself
    exact hguard ((Op.guarded_iff (hun _)).1 hself)

/-- A channel that is enabled once and disabled once. -/
theorem unregistered_iff_cycle : ∃ p p₁,
    (ops (fun n : ℕ => (n : ℤ))).Run init [(init, (.enableReading, 5)), (p₁, (.disableAll, 5))] p ∧
      (∀ x ∈ [(init, (Op.enableReading, 5)), (p₁, (Op.disableAll, 5))],
        Unregistered (fun n : ℕ => (n : ℤ)) x.1) ∧ Unregistered (fun n : ℕ => (n : ℤ)) p := by
  have hfd : Function.Injective (fun n : ℕ => (n : ℤ)) := fun _ _ h => Int.ofNat_inj.1 h
  obtain ⟨p₁, hone, hchanged, hchannel⟩ :=
    (show Inv (fun n : ℕ => (n : ℤ)) init from inv_init).perform (Op.enableReading, 5)
  obtain ⟨p, htwo, -⟩ := (inv_init.changed hfd hchanged).perform (Op.disableAll, 5)
  have hrun : (ops (fun n : ℕ => (n : ℤ))).Run init _ p := .snoc (.snoc .nil hone) htwo
  refine ⟨p, p₁, hrun, (unregistered_iff hfd hrun).2 ?_⟩
  simp only [List.nil_append, List.cons_append, List.forall_mem_cons]
  refine ⟨?_, ?_, by simp⟩
  · intro _
    decide
  · rw [hchannel]
    exact fun _ _ => rfl

/-- Disabling a channel that was never enabled registers it. -/
theorem not_unregistered : ¬ ∀ (tr : List (EpollPoller ℕ × (Op × ℕ))) (p : EpollPoller ℕ),
    (ops (fun n : ℕ => (n : ℤ))).Run init tr p → tr ≠ [] →
      Unregistered (fun n : ℕ => (n : ℤ)) p := by
  intro hall
  obtain ⟨p, hone, -, hchannel⟩ := (show Inv (fun n : ℕ => (n : ℤ)) init from inv_init).perform
    (Op.disableAll, 5)
  have hun := unregistered_channel.1 (hall _ p (LTS.Run.nil.snoc hone) (by simp)) 5
  rw [hchannel] at hun
  have hinterest := hun rfl
  cases hinterest

end EpollPoller

end TinyNetwork
