import TinyNetwork.Poller.EpollPoller

/-!
# Descriptors that are used again

The kernel gives the descriptor of a connection that has gone to the next one.  A poller keeps the
channels of both by the same number, in `channels_` and in the interest list.  It still keeps the
books right if a channel is only used while no other channel with its descriptor is in the poller.

## Main results

* `Exact.perform` : an operation on a channel whose descriptor is free does what `Channel` says.
* `Exact.run` : so do several ones.
-/

namespace TinyNetwork

namespace EpollPoller

variable {κ : Type*}

/-- What a poller has of a channel. -/
def view (p : EpollPoller κ) (c : κ) : Channel where
  events := p.events c
  index := p.index c
  interest := if p.index c = .kAdded then some (p.events c) else none

/-- No other channel with the descriptor of `c` is in the poller. -/
def Free (fd : κ → ℤ) (p : EpollPoller κ) (c : κ) : Prop :=
  ∀ c', fd c' = fd c → p.index c' ≠ .kNew → c' = c

/-- The interest list and `channels_` hold the channels that are in the poller, and nothing else. -/
structure Exact (fd : κ → ℤ) (p : EpollPoller κ) : Prop where
  interest_iff : ∀ n e, p.interest n = some e ↔
    fd e.ptr = n ∧ p.index e.ptr = .kAdded ∧ e.events = p.events e.ptr
  channels_iff : ∀ n c, p.channels n = some c ↔ fd c = n ∧ p.index c ≠ .kNew
  legal : ∀ call ∈ p.issued, LegalCall call

variable {fd fd' : κ → ℤ} {p p' : EpollPoller κ} {c : κ}

theorem exact_init : Exact fd (init : EpollPoller κ) where
  interest_iff n e := by simp [init]
  channels_iff n c := by simp [init]
  legal := nofun

/-- Two channels in the poller have two descriptors. -/
theorem Exact.free (h : Exact fd p) (hin : p.index c ≠ .kNew) : Free fd p c := by
  intro c' hfd hin'
  have hc := (h.channels_iff _ _).2 ⟨rfl, hin⟩
  have hc' := (h.channels_iff _ _).2 ⟨hfd, hin'⟩
  exact Option.some.inj (hc'.symm.trans hc)

/-- A channel whose descriptor is free is in step with the two maps. -/
theorem Exact.at_free (h : Exact fd p) (hfree : Free fd p c) : At fd c p where
  interest := by
    split_ifs with hadded
    · exact (h.interest_iff _ _).2 ⟨rfl, hadded, rfl⟩
    · rw [Option.eq_none_iff_forall_ne_some]
      intro e he
      obtain ⟨hfd, hptr, -⟩ := (h.interest_iff _ _).1 he
      rw [hfree e.ptr hfd (by simp [hptr])] at hptr
      exact hadded hptr
  channels := by
    split_ifs with hnew
    · rw [Option.eq_none_iff_forall_ne_some]
      intro c' hc'
      obtain ⟨hfd, hin⟩ := (h.channels_iff _ _).1 hc'
      rw [hfree c' hfd hin] at hin
      exact hin hnew
    · exact (h.channels_iff _ _).2 ⟨rfl, hnew⟩

theorem channel_of_at (h : At fd c p) : p.channel fd c = p.view c := by
  rw [channel, h.interest, view]
  split_ifs <;> rfl

section Operations

variable [DecidableEq κ]

/-- An operation on a channel only looks at its own descriptor. -/
theorem perform_congr (h : fd c = fd' c) (op : Op) :
    perform fd p (op, c) = perform fd' p (op, c) := by
  cases op <;> simp only [perform, updateChannel, removeChannel, update, h]

/-- The channels that are not in the poller, but for `c`, are given a descriptor that is none. -/
def redirect (fd : κ → ℤ) (p : EpollPoller κ) (c c' : κ) : ℤ :=
  if c' = c ∨ p.index c' ≠ .kNew then fd c' else -1

theorem redirect_self : redirect fd p c c = fd c := if_pos (.inl rfl)

theorem Exact.inv_redirect (h : Exact fd p) (hfd : ∀ c, 0 ≤ fd c) (hfree : Free fd p c) :
    Inv (redirect fd p c) p where
  at_all c' := by
    by_cases hc' : c' = c ∨ p.index c' ≠ .kNew
    · have hfree' : Free fd p c' := by
        rcases hc' with rfl | hin
        · exact hfree
        · exact h.free hin
      obtain ⟨hinterest, hchannels⟩ := h.at_free hfree'
      have hsame : redirect fd p c c' = fd c' := if_pos hc'
      exact ⟨by rw [hsame, hinterest], by rw [hsame, hchannels]⟩
    · -- nothing is kept under the number that is none
      have hnone : redirect fd p c c' = -1 := if_neg hc'
      have hnew : p.index c' = .kNew := not_not.1 (not_or.1 hc').2
      refine ⟨?_, ?_⟩
      · rw [hnone, hnew, if_neg nofun, Option.eq_none_iff_forall_ne_some]
        intro e he
        have := (h.interest_iff _ _).1 he
        have := hfd e.ptr
        omega
      · rw [hnone, if_pos hnew, Option.eq_none_iff_forall_ne_some]
        intro c₁ hc₁
        have := (h.channels_iff _ _).1 hc₁
        have := hfd c₁
        omega
  legal := h.legal

/-- **An operation on a channel whose descriptor is free** does not abort, does to the channel what
`Channel` says and nothing to the others, and keeps the two maps right. -/
theorem Exact.perform (h : Exact fd p) (hfd : ∀ c, 0 ≤ fd c) (hfree : Free fd p c) (op : Op) :
    ∃ p', EpollPoller.perform fd p (op, c) = some p' ∧ Exact fd p' ∧
      p'.view c = op.onChannel (p.view c) ∧ ∀ c', c' ≠ c → p'.view c' = p.view c' := by
  -- as if the channels outside the poller had no descriptor
  obtain ⟨p', hop, hchanged, hchannel⟩ := (h.inv_redirect hfd hfree).perform (op, c)
  have hhere : At fd c p' := by
    obtain ⟨hinterest, hchannels⟩ := hchanged.here
    rw [redirect_self] at hinterest hchannels
    exact ⟨hinterest, hchannels⟩
  have hself (q : EpollPoller κ) : q.channel (redirect fd p c) c = q.channel fd c := by
    rw [channel, channel, redirect_self]
  have hview : p'.view c = op.onChannel (p.view c) := by
    rw [← channel_of_at hhere, ← channel_of_at (h.at_free hfree), ← hself, ← hself]
    exact hchannel
  have hother (c' : κ) (hne : c' ≠ c) : p'.index c' = p.index c' ∧ p'.events c' = p.events c' :=
    ⟨hchanged.index c' hne, hchanged.events c' hne⟩
  have hne_of (n : ℤ) (hn : n ≠ fd c) : n ≠ redirect fd p c c := by rwa [redirect_self]
  refine ⟨p', (perform_congr redirect_self.symm op).trans hop, ⟨fun n e => ?_, fun n c' => ?_, ?_⟩,
    hview, fun c' hne => ?_⟩
  · by_cases hn : n = fd c
    · subst hn
      rw [hhere.interest]
      constructor
      · intro he
        split_ifs at he with hadded
        cases he
        exact ⟨rfl, hadded, rfl⟩
      · rintro ⟨hfd', hadded, hevents⟩
        -- no other channel with this descriptor is registered
        obtain rfl : e.ptr = c := by
          by_contra hne
          exact hne (hfree e.ptr hfd' (by rw [← (hother _ hne).1, hadded]; simp))
        rw [if_pos hadded, ← hevents]
    · rw [hchanged.interest n (hne_of n hn), h.interest_iff]
      refine and_congr_right fun hfd' => ?_
      have hne : e.ptr ≠ c := by
        rintro rfl
        exact hn hfd'.symm
      rw [(hother _ hne).1, (hother _ hne).2]
  · by_cases hn : n = fd c
    · subst hn
      rw [hhere.channels]
      constructor
      · intro hc'
        split_ifs at hc' with hnew
        cases hc'
        exact ⟨rfl, hnew⟩
      · rintro ⟨hfd', hin⟩
        -- no other channel with this descriptor is in the map
        obtain rfl : c' = c := by
          by_contra hne
          exact hne (hfree c' hfd' (by rwa [← (hother _ hne).1]))
        rw [if_neg hin]
    · rw [hchanged.channels n (hne_of n hn), h.channels_iff]
      refine and_congr_right fun hfd' => ?_
      have hne : c' ≠ c := by
        rintro rfl
        exact hn hfd'.symm
      rw [(hother _ hne).1]
  · exact fun call hcall => (hchanged.legal call hcall).elim (h.legal call) id
  · rw [view, view, (hother c' hne).1, (hother c' hne).2]

/-- Several operations on a channel whose descriptor is free. -/
theorem Exact.run (h : Exact fd p) (hfd : ∀ c, 0 ≤ fd c) (hfree : Free fd p c) (ops : List Op) :
    ∃ p', (ops.map (·, c)).foldlM (EpollPoller.perform fd) p = some p' ∧ Exact fd p' ∧
      p'.view c = ops.foldl (fun ch op => op.onChannel ch) (p.view c) ∧
      ∀ c', c' ≠ c → p'.view c' = p.view c' := by
  induction ops generalizing p with
  | nil => exact ⟨p, rfl, h, rfl, fun _ _ => rfl⟩
  | cons op ops ih =>
    obtain ⟨p₁, hone, h₁, hview₁, hother₁⟩ := h.perform hfd hfree op
    have hfree₁ : Free fd p₁ c := fun c' hfd' hin => by
      by_contra hne
      have hindex : p₁.index c' = p.index c' := congrArg Channel.index (hother₁ c' hne)
      exact hne (hfree c' hfd' (hindex ▸ hin))
    obtain ⟨p', hrest, h', hview, hother⟩ := ih h₁ hfree₁
    refine ⟨p', ?_, h', ?_, fun c' hne => (hother c' hne).trans (hother₁ c' hne)⟩
    · rw [List.map_cons, List.foldlM_cons, hone]
      exact hrest
    · rw [hview, hview₁, List.foldl_cons]

end Operations

end EpollPoller

end TinyNetwork
