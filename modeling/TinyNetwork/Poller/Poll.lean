import TinyNetwork.Base.Lp64
import TinyNetwork.Base.Sys
import TinyNetwork.Base.Vec
import TinyNetwork.Poller.EpollPoller

/-!
# `EpollPoller::poll`

`poll` hands the channels that `epoll_wait` reports to the event loop, and doubles its array when
it is full.  The result of `epoll_wait` is stored in a `size_t`, where -1 is the largest number:
it is never less than 0, and the branch for errors is never taken.

## Main results

* `Polling.fillActiveChannels_eq` : the ready channels are appended in order.
* `Polling.poll_error` : a failure is taken for a number of events, of which there are none.
* `Polling.poll_ready` : what `poll` makes of ready channels.
* `Polling.handled_iff` : exactly when all results of a run are delivered or reported.
-/

namespace TinyNetwork

open Lp64

variable {κ : Type}

/-- What `epoll_wait` returns. -/
inductive WaitResult (κ : Type) where
  /-- It returns -1 and sets `errno`. -/
  | error (errno : Errno)
  /-- It writes these entries to the array and returns their number. -/
  | ready (entries : List (EpollEvent κ))

namespace WaitResult

def value : WaitResult κ → ℤ
  | error _ => -1
  | ready entries => entries.length

/-- The entries written to the array. -/
def written : WaitResult κ → List (EpollEvent (Option κ))
  | error _ => []
  | ready entries => entries.map fun e => ⟨e.events, some e.ptr⟩

def errno : WaitResult κ → Option Errno
  | error errno => some errno
  | ready _ => none

end WaitResult

/-- What `poll` logs. -/
inductive PollLog where
  /-- `LOG_DEBUG << "timeout"`. -/
  | timeout
  /-- `LOG_ERROR << "EPollPoller::poll() failed"`. -/
  | failed
  deriving DecidableEq

/-- The part of an `EpollPoller` that `poll` uses; a null pointer to a channel is `none`. -/
structure Polling (κ : Type) where
  events : List (EpollEvent (Option κ))
  logged : List PollLog

/-- What `poll` changes outside of the poller: `activeChannels`, and `revents_` of every channel. -/
structure Activity (κ : Type) where
  activeChannels : List κ
  revents : κ → BitVec 32

namespace Polling

def kInitEventListSize : ℕ := 16

/-- A new element of `events_`. -/
def noEvent : EpollEvent (Option κ) := ⟨0, none⟩

/-- The constructor. -/
def init : Polling κ := ⟨List.replicate kInitEventListSize noEvent, []⟩

/-- The size of the array as `epoll_wait` is given it. -/
def maxevents (p : Polling κ) : ℤ := toInt p.events.length

variable [DecidableEq κ]

/-- A pass of the loop of `fillActiveChannels`. -/
def fill (events : List (EpollEvent (Option κ))) (a : Activity κ) (i : ℕ) :
    Except Fault (Activity κ) :=
  match events[i]? with
  | none => .error .outOfRange
  | some ⟨_, none⟩ => .error .nullPointer
  | some ⟨mask, some channel⟩ =>
    .ok ⟨a.activeChannels ++ [channel], Function.update a.revents channel mask⟩

def fillActiveChannels (p : Polling κ) (numEvents : ℤ) (a : Activity κ) :
    Except Fault (Activity κ) :=
  (List.range numEvents.toNat).foldlM (fill p.events) a

def poll (p : Polling κ) (a : Activity κ) (result : WaitResult κ) :
    Except Fault (Polling κ × Activity κ) :=
  let numEvents : ℕ := toSize result.value
  let saveErrno := result.errno
  let p := { p with events := result.written ++ p.events.drop result.written.length }
  if numEvents > 0 then do
    let a ← p.fillActiveChannels (toInt numEvents) a
    if numEvents = p.events.length then do
      let events ← Vec.resize p.events (p.events.length * 2) noEvent
      return ({ p with events }, a)
    else return (p, a)
  else if numEvents = 0 then return ({ p with logged := p.logged ++ [.timeout] }, a)
  else if saveErrno ≠ some .intr then return ({ p with logged := p.logged ++ [.failed] }, a)
  else return (p, a)

/-- `epoll_wait` reports no more entries than the array has, and their number is an `int`. -/
def Legal (p : Polling κ) (result : WaitResult κ) : Prop :=
  result.value ≤ p.events.length ∧ result.value < 2 ^ 31

/-- The channels are told their masks, one after the other. -/
def report (revents : κ → BitVec 32) (entries : List (EpollEvent κ)) : κ → BitVec 32 :=
  entries.foldl (fun r e => Function.update r e.ptr e.events) revents

/-- The results of `epoll_wait` that `poll` is given, with what it is to change. -/
def polls (κ : Type) [DecidableEq κ] : LTS (Polling κ) (Activity κ × WaitResult κ) where
  step p l p' := Legal p l.2 ∧ ∃ a', poll p l.1 l.2 = .ok (p', a')

/-- A result is delivered, or reported as an error. -/
structure Handled (p : Polling κ) (a : Activity κ) (result : WaitResult κ) (p' : Polling κ)
    (a' : Activity κ) : Prop where
  channels : ∀ entries, result = .ready entries →
    a'.activeChannels = a.activeChannels ++ entries.map EpollEvent.ptr
  revents : ∀ entries, result = .ready entries → a'.revents = report a.revents entries
  size : ∀ entries, result = .ready entries → p'.events.length =
    if entries.length = p.events.length then 2 * p.events.length else p.events.length
  timeout : ∀ entries, result = .ready entries →
    p'.logged = p.logged ++ if entries = [] then [.timeout] else []
  error : ∀ errno, result = .error errno → a' = a ∧ p'.events = p.events
  logged : ∀ errno, result = .error errno →
    p'.logged = p.logged ++ if errno = .intr then [] else [.failed]
  maxevents : 0 < p'.maxevents

/-- No error but an interruption, and no array of 2 ^ 30 entries that is full. -/
def Manageable (p : Polling κ) : WaitResult κ → Prop
  | .error errno => errno = .intr
  | .ready entries => ¬ (entries.length = p.events.length ∧ p.events.length = 2 ^ 30)

/-- The size of the array is a power of two that never passes 2 ^ 31. -/
def Inv (p : Polling κ) : Prop := ∃ k, 4 ≤ k ∧ k ≤ 31 ∧ p.events.length = 2 ^ k

variable {p p' : Polling κ} {a a' : Activity κ} {result : WaitResult κ}
  {entries : List (EpollEvent κ)} {errno : Errno}

/-! ### What is reported -/

theorem report_concat (revents : κ → BitVec 32) (entries : List (EpollEvent κ))
    (e : EpollEvent κ) : report revents (entries ++ [e]) =
      Function.update (report revents entries) e.ptr e.events := by
  rw [report, List.foldl_append]
  rfl

/-- The ready channels are appended in order. -/
theorem fillActiveChannels_eq {rest : List (EpollEvent (Option κ))}
    (hevents : p.events = (WaitResult.ready entries).written ++ rest) :
    p.fillActiveChannels entries.length a =
      .ok ⟨a.activeChannels ++ entries.map EpollEvent.ptr, report a.revents entries⟩ := by
  have hprefix : ∀ n ≤ entries.length, (List.range n).foldlM (fill p.events) a =
      .ok ⟨a.activeChannels ++ (entries.take n).map EpollEvent.ptr,
        report a.revents (entries.take n)⟩ := by
    intro n hn
    induction n with
    | zero =>
      rw [List.take_zero, List.map_nil, List.append_nil]
      rfl
    | succ n ih =>
      have hentry : p.events[n]? = some ⟨entries[n].events, some entries[n].ptr⟩ := by
        rw [hevents, List.getElem?_append_left (by rw [WaitResult.written, List.length_map]; omega),
          WaitResult.written, List.getElem?_map, List.getElem?_eq_getElem hn]
        rfl
      rw [List.range_succ, List.foldlM_append, ih (by omega), List.take_succ_eq_append_getElem hn,
        List.map_append, report_concat, ← List.append_assoc]
      show (List.foldlM (fill p.events) _ [n]) = _
      rw [List.foldlM_cons, fill, hentry]
      rfl
  rw [fillActiveChannels, Int.toNat_natCast, hprefix _ le_rfl, List.take_length]

/-! ### The results of `poll` -/

/-- **A failure is taken for a number of events**, of which there are none. -/
theorem poll_error (hI : Inv p) : poll p a (.error errno) = .ok (p, a) := by
  obtain ⟨k, -, hk, hlen⟩ := hI
  have hsize : p.events.length < toSize (-1) := by
    have hle : 2 ^ k ≤ 2 ^ 31 := Nat.pow_le_pow_right (by decide) hk
    rw [hlen]
    exact hle.trans_lt (by decide)
  have hpos : toSize (-1) > 0 := by decide
  have hnone : (toInt (toSize (-1))).toNat = 0 := by decide
  unfold poll
  simp only [WaitResult.value, WaitResult.written, List.length_nil, List.drop_zero,
    List.nil_append, if_pos hpos, if_neg hsize.ne', fillActiveChannels, hnone]
  rfl

theorem poll_timeout :
    poll p a (.ready []) = .ok ({ p with logged := p.logged ++ [.timeout] }, a) := rfl

/-- What `poll` makes of ready channels. -/
theorem poll_ready (hI : Inv p) (hlegal : Legal p (.ready entries)) (hne : entries ≠ []) :
    ∃ events, poll p a (.ready entries) = .ok ({ p with events },
        ⟨a.activeChannels ++ entries.map EpollEvent.ptr, report a.revents entries⟩) ∧
      events.length =
        if entries.length = p.events.length then 2 * p.events.length else p.events.length := by
  obtain ⟨k, -, hk, hlen⟩ := hI
  have hmax : 2 ^ k ≤ 2 ^ 31 := Nat.pow_le_pow_right (by decide) hk
  obtain ⟨hfits, hint⟩ := hlegal
  have hpos : 0 < entries.length := List.length_pos_iff.2 hne
  simp only [WaitResult.value] at hfits hint
  have hsize : toSize entries.length = entries.length := toSize_natCast (by omega)
  have hround : toInt (entries.length : ℤ) = entries.length := toInt_of_lt (by omega) hint
  have hwritten : ((WaitResult.ready entries).written ++
      p.events.drop (WaitResult.ready entries).written.length).length = p.events.length := by
    rw [List.length_append, List.length_drop, WaitResult.written, List.length_map]
    omega
  set events := (WaitResult.ready entries).written ++
    p.events.drop (WaitResult.ready entries).written.length with hevents
  unfold poll
  simp only [WaitResult.value, hsize, hround, ← hevents]
  rw [if_pos hpos, fillActiveChannels_eq rfl, hwritten]
  by_cases hfull : entries.length = p.events.length
  · refine ⟨events.take (p.events.length * 2) ++
      List.replicate (p.events.length * 2 - events.length) noEvent, ?_, ?_⟩
    · refine bind_eq_ok.2 ⟨_, rfl, ?_⟩
      rw [if_pos hfull, Vec.resize_of_le (by unfold Vec.maxSize; omega)]
      rfl
    · rw [if_pos hfull, List.length_append, List.length_replicate, List.length_take, hwritten]
      omega
  · refine ⟨events, ?_, ?_⟩
    · refine bind_eq_ok.2 ⟨_, rfl, ?_⟩
      rw [if_neg hfull]
      rfl
    · rw [if_neg hfull, hwritten]

omit [DecidableEq κ] in
theorem inv_init : Inv (init : Polling κ) := ⟨4, le_rfl, by decide, List.length_replicate⟩

/-- No result stops the poller. -/
theorem exists_poll (hI : Inv p) (hlegal : Legal p result) (a : Activity κ) :
    ∃ p' a', poll p a result = .ok (p', a') := by
  cases result with
  | error errno => exact ⟨_, _, poll_error hI⟩
  | ready entries =>
    by_cases hne : entries = []
    · subst hne
      exact ⟨_, _, poll_timeout⟩
    · obtain ⟨events, hpoll, -⟩ := poll_ready (a := a) hI hlegal hne
      exact ⟨_, _, hpoll⟩

/-- Every result keeps the size a power of two. -/
theorem Inv.poll (hI : Inv p) (hlegal : Legal p result) (hpoll : poll p a result = .ok (p', a')) :
    Inv p' := by
  cases result with
  | error errno =>
    obtain ⟨rfl, -⟩ := Prod.mk.inj (Except.ok.inj ((poll_error hI).symm.trans hpoll))
    exact hI
  | ready entries =>
    by_cases hne : entries = []
    · subst hne
      obtain ⟨rfl, -⟩ := Prod.mk.inj (Except.ok.inj (poll_timeout.symm.trans hpoll))
      exact hI
    · obtain ⟨events, heq, hsize⟩ := poll_ready (a := a) hI hlegal hne
      obtain ⟨rfl, -⟩ := Prod.mk.inj (Except.ok.inj (heq.symm.trans hpoll))
      obtain ⟨k, hlow, hhigh, hlen⟩ := hI
      by_cases hfull : entries.length = p.events.length
      · -- the number of events is an `int`, so the array has less than 2 ^ 31
        have hint : (p.events.length : ℤ) < 2 ^ 31 := by
          rw [← hfull]
          exact hlegal.2
        have hk : k < 31 := by
          rw [hlen] at hint
          exact (Nat.pow_lt_pow_iff_right (a := 2) (by decide)).1 (by exact_mod_cast hint)
        refine ⟨k + 1, by omega, hk, ?_⟩
        rw [hsize, if_pos hfull, hlen, Nat.pow_succ, Nat.mul_comm]
      · exact ⟨k, hlow, hhigh, by rw [hsize, if_neg hfull, hlen]⟩

/-! ### Delivered or reported -/

omit [DecidableEq κ] in
theorem maxevents_pos_iff (hI : Inv p) : 0 < p.maxevents ↔ p.events.length < 2 ^ 31 := by
  obtain ⟨k, -, hhigh, hlen⟩ := hI
  have hle : 2 ^ k ≤ 2 ^ 31 := Nat.pow_le_pow_right (by decide) hhigh
  have hpos : 0 < 2 ^ k := Nat.two_pow_pos k
  rw [maxevents, hlen, toInt_eq]
  omega

/-- A failure of `epoll_wait` is reported, except that it has been interrupted. -/
theorem handled_error_iff (hI : Inv p) (hsmall : p.events.length < 2 ^ 31) :
    Handled p a (.error errno) p a ↔ errno = .intr := by
  constructor
  · intro h
    by_contra hfailed
    have hlogged := h.logged errno rfl
    rw [if_neg (show ¬ errno = .intr from hfailed)] at hlogged
    exact absurd (List.self_eq_append_right.1 hlogged) (List.cons_ne_nil _ _)
  · rintro rfl
    refine ⟨nofun, nofun, nofun, nofun, fun _ _ => ⟨rfl, rfl⟩, ?_, (maxevents_pos_iff hI).2 hsmall⟩
    rintro errno ⟨⟩
    rw [if_pos rfl, List.append_nil]

/-- A timeout leaves the array alone. -/
theorem handled_timeout (hI : Inv p) (hsmall : p.events.length < 2 ^ 31) :
    Handled p a (.ready []) { p with logged := p.logged ++ [.timeout] } a := by
  have hpos : p.events.length ≠ 0 := by
    obtain ⟨k, -, -, hlen⟩ := hI
    exact hlen ▸ (Nat.two_pow_pos k).ne'
  refine ⟨?_, ?_, ?_, ?_, nofun, nofun, (maxevents_pos_iff hI).2 hsmall⟩
  · rintro entries ⟨⟩
    exact (List.append_nil _).symm
  · rintro entries ⟨⟩
    rfl
  · rintro entries ⟨⟩
    exact (if_neg hpos.symm).symm
  · rintro entries ⟨⟩
    rfl

omit [DecidableEq κ] in
/-- A full array grows to a size that is not converted right only if it had 2 ^ 30 elements. -/
theorem maxevents_pos_iff_manageable {events : List (EpollEvent (Option κ))} (hI : Inv p)
    (hI' : Inv { p with events }) (hsmall : p.events.length < 2 ^ 31)
    (hsize : events.length =
      if entries.length = p.events.length then 2 * p.events.length else p.events.length) :
    0 < maxevents { p with events } ↔ Manageable p (.ready entries) := by
  obtain ⟨k, -, -, hlen⟩ := hI
  rw [maxevents_pos_iff hI', Manageable, hsize]
  split_ifs with hfull
  · have hpow : 2 * p.events.length < 2 ^ 31 ↔ p.events.length ≠ 2 ^ 30 := by
      have hle : p.events.length ≤ 2 ^ 30 := by
        rw [hlen] at hsmall ⊢
        have hk : k < 31 := (Nat.pow_lt_pow_iff_right (a := 2) (by decide)).1 hsmall
        exact Nat.pow_le_pow_right (by decide) (by omega)
      omega
    rw [hpow]
    exact ⟨fun hneq hboth => hneq hboth.2, fun hnot hsize => hnot ⟨hfull, hsize⟩⟩
  · exact iff_of_true hsmall fun hboth => hfull hboth.1

/-- A result is delivered or reported exactly when it is manageable. -/
theorem handled_iff_manageable (hI : Inv p) (hsmall : p.events.length < 2 ^ 31)
    (hlegal : Legal p result) (hpoll : poll p a result = .ok (p', a')) :
    Handled p a result p' a' ↔ Manageable p result := by
  have hI' := hI.poll hlegal hpoll
  cases result with
  | error errno =>
    obtain ⟨rfl, rfl⟩ := Prod.mk.inj (Except.ok.inj ((poll_error hI).symm.trans hpoll))
    exact handled_error_iff hI hsmall
  | ready entries =>
    by_cases hne : entries = []
    · subst hne
      obtain ⟨rfl, rfl⟩ := Prod.mk.inj (Except.ok.inj (poll_timeout.symm.trans hpoll))
      refine iff_of_true (handled_timeout hI hsmall) fun hfull => ?_
      obtain ⟨k, -, -, hlen⟩ := hI
      exact absurd (hfull.1.trans hlen) (Nat.two_pow_pos k).ne
    · obtain ⟨events, heq, hsize⟩ := poll_ready (a := a) hI hlegal hne
      obtain ⟨rfl, rfl⟩ := Prod.mk.inj (Except.ok.inj (heq.symm.trans hpoll))
      -- all that can go wrong is the conversion of the new size
      rw [← maxevents_pos_iff_manageable hI hI' hsmall hsize]
      constructor
      · exact fun h => h.maxevents
      · intro hmaxevents
        refine ⟨?_, ?_, ?_, ?_, nofun, nofun, hmaxevents⟩
        · rintro entries ⟨⟩
          rfl
        · rintro entries ⟨⟩
          rfl
        · rintro entries ⟨⟩
          exact hsize
        · rintro entries ⟨⟩
          rw [if_neg hne, List.append_nil]

omit [DecidableEq κ] in
theorem small_init : Inv (init : Polling κ) ∧ (init : Polling κ).events.length < 2 ^ 31 :=
  ⟨inv_init, List.length_replicate.trans_lt (by decide)⟩

/-- The size stays small as long as it is given to `epoll_wait` as a positive number. -/
theorem small_of_handled (hI : Inv p) (hlegal : Legal p result)
    (hpoll : poll p a result = .ok (p', a')) (h : Handled p a result p' a') :
    Inv p' ∧ p'.events.length < 2 ^ 31 :=
  ⟨hI.poll hlegal hpoll, (maxevents_pos_iff (hI.poll hlegal hpoll)).1 h.maxevents⟩

/-- **All results of a run are delivered or reported** exactly when all of them are manageable.
No result stops the poller. -/
theorem handled_iff {tr : List (Polling κ × (Activity κ × WaitResult κ))}
    (h : (polls κ).Run init tr p) :
    (∀ a result, Legal p result → ∃ p' a', poll p a result = .ok (p', a')) ∧
      ((∀ x ∈ tr, ∃ p' a', poll x.1 x.2.1 x.2.2 = .ok (p', a') ∧
          Handled x.1 x.2.1 x.2.2 p' a') ↔
        ∀ x ∈ tr, Manageable x.1 x.2.2) := by
  have hI := h.invariant (I := Inv) inv_init fun p l p' hI hstep => by
    obtain ⟨hlegal, a', hpoll⟩ := hstep
    exact hI.poll hlegal hpoll
  have hstep : ∀ x ∈ tr, Legal x.1 x.2.2 ∧
      ∃ p' a', poll x.1 x.2.1 x.2.2 = .ok (p', a') := by
    intro x hx
    obtain ⟨p', -, ⟨hlegal, a', hpoll⟩, -⟩ := h.exists_step hx
    exact ⟨hlegal, p', a', hpoll⟩
  -- either side keeps the number of entries below `2 ^ 31`, along the run
  refine ⟨fun a result hlegal => exists_poll hI.2 hlegal a, fun hhandled => ?_, fun hmanage => ?_⟩
  · have hsmall := h.invariant_of (I := fun p => Inv p ∧ p.events.length < 2 ^ 31)
      (C := fun p l => ∃ p' a', poll p l.1 l.2 = .ok (p', a') ∧ Handled p l.1 l.2 p' a')
      small_init (fun p l p' hp hC hst => by
        obtain ⟨hlegal, a', hpoll⟩ := hst
        obtain ⟨p₁, a₁, hpoll₁, hhandled₁⟩ := hC
        obtain ⟨rfl, rfl⟩ := Prod.mk.inj (Except.ok.inj (hpoll.symm.trans hpoll₁))
        exact small_of_handled hp.1 hlegal hpoll hhandled₁) hhandled
    intro x hx
    obtain ⟨p', a', hpoll, hx'⟩ := hhandled x hx
    obtain ⟨hIx, hsmallx⟩ := hsmall.1 x hx
    exact (handled_iff_manageable hIx hsmallx (hstep x hx).1 hpoll).1 hx'
  · have hsmall := h.invariant_of (I := fun p => Inv p ∧ p.events.length < 2 ^ 31)
      (C := fun p l => Manageable p l.2) small_init (fun p l p' hp hC hst => by
        obtain ⟨hlegal, a', hpoll⟩ := hst
        exact small_of_handled hp.1 hlegal hpoll
          ((handled_iff_manageable hp.1 hp.2 hlegal hpoll).2 hC)) hmanage
    intro x hx
    obtain ⟨hlegal, p', a', hpoll⟩ := hstep x hx
    obtain ⟨hIx, hsmallx⟩ := hsmall.1 x hx
    exact ⟨p', a', hpoll, (handled_iff_manageable hIx hsmallx hlegal hpoll).2 (hmanage x hx)⟩

/-! ### A failure -/

/-- Nothing is active, and no channel has been told a mask. -/
def idle : Activity ℕ := ⟨[], fun _ => 0⟩

/-- One channel is readable, and the next call is interrupted. -/
theorem handled_iff_interrupted : ∃ p p₁ : Polling ℕ,
    (polls ℕ).Run init
      [(init, (idle, .ready [⟨1, 5⟩])), (p₁, (idle, .error .intr))] p ∧
    ∀ x ∈ [(init, (idle, WaitResult.ready [⟨1, 5⟩])), (p₁, (idle, .error .intr))],
      ∃ p' a', poll x.1 x.2.1 x.2.2 = .ok (p', a') ∧ Handled x.1 x.2.1 x.2.2 p' a' := by
  have hlegal : Legal (init : Polling ℕ) (.ready [⟨1, 5⟩]) := by
    constructor <;> decide
  obtain ⟨p₁, a₁, hone⟩ := exists_poll inv_init hlegal idle
  have hI₁ : Inv p₁ := inv_init.poll hlegal hone
  have hlegal₁ : Legal p₁ (.error .intr) := by
    constructor
    · exact (by decide : (-1 : ℤ) ≤ 0).trans (Int.natCast_nonneg _)
    · decide
  have hfirst : (polls ℕ).Run init [(init, (idle, .ready [⟨1, 5⟩]))] p₁ :=
    .snoc .nil (show (polls ℕ).step init (idle, .ready [⟨1, 5⟩]) p₁ from ⟨hlegal, a₁, hone⟩)
  have hrun := hfirst.snoc
    (show (polls ℕ).step p₁ (idle, .error .intr) p₁ from ⟨hlegal₁, idle, poll_error hI₁⟩)
  refine ⟨p₁, p₁, hrun, (handled_iff hrun).2.2 ?_⟩
  refine List.forall_mem_cons.2 ⟨fun hfull => absurd hfull.1 (by decide), ?_⟩
  exact List.forall_mem_singleton.2 rfl

/-- `EBADF` is not reported. -/
theorem not_handled_failed : ∃ p : Polling ℕ,
    (polls ℕ).Run init [(init, (idle, .error (.other 9)))] p ∧ p.logged = [] ∧
      ¬ ∃ p' a', poll init idle (.error (.other 9)) = .ok (p', a') ∧
        Handled init idle (.error (.other 9)) p' a' := by
  have hlegal : Legal (init : Polling ℕ) (.error (.other 9)) := by
    constructor <;> decide
  have hpoll : poll init idle (.error (.other 9)) = .ok (init, idle) := poll_error inv_init
  refine ⟨init, .snoc .nil ⟨hlegal, idle, hpoll⟩, rfl, ?_⟩
  rintro ⟨p', a', hpoll', hhandled⟩
  have hmanage := (handled_iff_manageable inv_init small_init.2 hlegal hpoll').1 hhandled
  exact absurd hmanage nofun

end Polling

end TinyNetwork
