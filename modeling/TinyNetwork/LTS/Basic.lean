import Mathlib

/-!
# Transition systems and their runs

The concurrent parts of the library (the event loop with its task queue, a connection with its
callers, the logging front end with its backend) are given a semantics as a *labelled transition
system*.  A run keeps its history: `A.Run s₀ tr s` says that `s` is reached from `s₀` by the
steps `tr`, each recorded with the state it was taken in and its label.

## Main results

* `LTS.Run.invariant`, `LTS.Reachable.invariant` : what every step preserves holds all along a
  run.
* `LTS.Run.invariant_of` : the same for steps that satisfy a side condition.
* `LTS.Run.forall_iff` : if every step that satisfies `C` keeps `I` and every step that violates
  `C` breaks it, then `I` holds all along a run iff every step of the run satisfies `C`.
* `LTS.Projects.reachable` : a component of a larger system only takes its own steps.
-/

namespace TinyNetwork

/-- A labelled transition system with states `S` and labels `L`. -/
structure LTS (S : Type*) (L : Type*) where
  /-- `step s l s'` : the system can move from `s` to `s'` performing `l`. -/
  step : S → L → S → Prop

namespace LTS

variable {S L S' L' : Type*} (A : LTS S L)

/-- `Run s₀ tr s` : the steps `tr` lead from `s₀` to `s`; a step is recorded as the state it was
taken in and its label. -/
inductive Run (s₀ : S) : List (S × L) → S → Prop
  | nil : Run s₀ [] s₀
  | snoc {tr : List (S × L)} {s s' : S} {l : L} :
      Run s₀ tr s → A.step s l s' → Run s₀ (tr ++ [(s, l)]) s'

/-- `s` is reachable from `s₀`. -/
def Reachable (s₀ s : S) : Prop := ∃ tr, A.Run s₀ tr s

/-- `s` is reached from `s₀` by steps that satisfy `C`. -/
def ReachableBy (C : S → L → Prop) (s₀ s : S) : Prop :=
  ∃ tr, A.Run s₀ tr s ∧ ∀ p ∈ tr, C p.1 p.2

/-- `f` reads a component of the states of `A`: every step of `A` either leaves the component
alone or is a step of `B` on it. -/
def Projects (B : LTS S' L') (f : S → S') : Prop :=
  ∀ s l s', A.step s l s' → f s' = f s ∨ ∃ l', B.step (f s) l' (f s')

/-- `A` with a history: `record` notes every step in a component of its own. -/
def withHistory {H : Type*} (record : S → L → H → H) : LTS (S × H) L where
  step p l p' := A.step p.1 l p'.1 ∧ p'.2 = record p.1 l p.2

variable {A} {s₀ s s' : S} {l : L} {tr : List (S × L)}

/-- A run can be extended at its beginning. -/
theorem Run.cons {s'' : S} (hst : A.step s l s') (h : A.Run s' tr s'') :
    A.Run s ((s, l) :: tr) s'' := by
  induction h with
  | nil => exact Run.nil.snoc hst
  | snoc _ hst' ih => exact .snoc ih hst'

/-- Runs compose. -/
theorem Run.append {s'' : S} {tr' : List (S × L)} (h : A.Run s tr s') (h' : A.Run s' tr' s'') :
    A.Run s (tr ++ tr') s'' := by
  induction h' with
  | nil => rwa [List.append_nil]
  | snoc _ hst ih => rw [← List.append_assoc]; exact ih.snoc hst

/-- A run can be cut between any two of its steps. -/
theorem Run.split {tr' : List (S × L)} (h : A.Run s₀ (tr ++ tr') s) :
    ∃ s₁, A.Run s₀ tr s₁ ∧ A.Run s₁ tr' s := by
  induction tr' using List.reverseRecOn generalizing s with
  | nil => exact ⟨s, by rwa [List.append_nil] at h, .nil⟩
  | append_singleton tr' p ih =>
    rw [← List.append_assoc] at h
    generalize htr : tr ++ tr' ++ [p] = tr'' at h
    cases h with
    | nil => simp at htr
    | snoc hrun hst =>
      obtain ⟨rfl, hp⟩ := List.append_inj' htr rfl
      cases List.singleton_inj.1 hp
      obtain ⟨s₁, hpre, hpost⟩ := ih hrun
      exact ⟨s₁, hpre, hpost.snoc hst⟩

/-- The first step of a run. -/
theorem Run.uncons {p : S × L} (h : A.Run s₀ (p :: tr) s) :
    p.1 = s₀ ∧ ∃ s₁, A.step s₀ p.2 s₁ ∧ A.Run s₁ tr s := by
  obtain ⟨s₁, hone, hrest⟩ := (show A.Run s₀ ([p] ++ tr) s from h).split
  generalize htr : [p] = tr' at hone
  cases hone with
  | nil => simp at htr
  | @snoc tr₁ s' s'' l hrun hst =>
    obtain ⟨hnil, hp⟩ := List.append_inj' (show [] ++ [p] = tr₁ ++ [(s', l)] from htr) rfl
    subst hnil
    cases List.singleton_inj.1 hp
    generalize htr : ([] : List (S × L)) = tr' at hrun
    cases hrun with
    | nil => exact ⟨rfl, s₁, hst, hrest⟩
    | snoc => simp at htr

theorem Run.reachable (h : A.Run s₀ tr s) : A.Reachable s₀ s := ⟨tr, h⟩

/-- All states of a run satisfy a predicate that holds initially and that every step satisfying
`C` preserves, if all steps of the run satisfy `C`. -/
theorem Run.invariant_of {I : S → Prop} {C : S → L → Prop} (h : A.Run s₀ tr s) (h₀ : I s₀)
    (hstep : ∀ s l s', I s → C s l → A.step s l s' → I s') (hC : ∀ p ∈ tr, C p.1 p.2) :
    (∀ p ∈ tr, I p.1) ∧ I s := by
  induction h with
  | nil => exact ⟨by simp, h₀⟩
  | snoc hrun hst ih =>
    obtain ⟨hpre, hlast⟩ := ih fun p hp => hC p (List.mem_append_left _ hp)
    refine ⟨fun p hp => ?_, hstep _ _ _ hlast (hC _ List.mem_concat_self) hst⟩
    rcases List.mem_append.1 hp with hp | hp
    · exact hpre p hp
    · rw [List.mem_singleton.1 hp]; exact hlast

/-- All states of a run satisfy every inductive invariant. -/
theorem Run.invariant {I : S → Prop} (h : A.Run s₀ tr s) (h₀ : I s₀)
    (hstep : ∀ s l s', I s → A.step s l s' → I s') : (∀ p ∈ tr, I p.1) ∧ I s :=
  h.invariant_of (C := fun _ _ => True) h₀ (fun s l s' hI _ => hstep s l s' hI)
    fun _ _ => trivial

/-- **Exact step conditions.**  Let `J` be an invariant.  If under `J` a step from an `I`-state
leads to an `I`-state exactly when it satisfies `C`, then `I` holds in every state of a run iff
every step of the run satisfies `C`. -/
theorem Run.forall_iff {I J : S → Prop} {C : S → L → Prop} (h : A.Run s₀ tr s) (hJ₀ : J s₀)
    (hI₀ : I s₀) (hJ : ∀ s l s', J s → A.step s l s' → J s')
    (hkeep : ∀ s l s', J s → I s → C s l → A.step s l s' → I s')
    (hbreak : ∀ s l s', J s → I s → ¬ C s l → A.step s l s' → ¬ I s') :
    ((∀ p ∈ tr, I p.1) ∧ I s) ↔ ∀ p ∈ tr, C p.1 p.2 := by
  induction h with
  | nil => simpa using hI₀
  | @snoc tr s s' l hrun hst ih =>
    have hJs : J s := (hrun.invariant hJ₀ hJ).2
    simp only [List.mem_append, List.mem_singleton, or_imp, forall_and, forall_eq]
    constructor
    · rintro ⟨⟨hpre, hlast⟩, hs'⟩
      exact ⟨ih.1 ⟨hpre, hlast⟩, by_contra fun hc => hbreak _ _ _ hJs hlast hc hst hs'⟩
    · rintro ⟨hpre, hc⟩
      obtain ⟨hall, hlast⟩ := ih.2 hpre
      exact ⟨⟨hall, hlast⟩, hkeep _ _ _ hJs hlast hc hst⟩

namespace Reachable

theorem refl : A.Reachable s₀ s₀ := ⟨[], .nil⟩

theorem tail (h : A.Reachable s₀ s) (hst : A.step s l s') : A.Reachable s₀ s' := by
  obtain ⟨tr, hrun⟩ := h
  exact ⟨_, hrun.snoc hst⟩

theorem head {s'' : S} (hst : A.step s l s') (h : A.Reachable s' s'') : A.Reachable s s'' := by
  obtain ⟨tr, hrun⟩ := h
  exact ⟨_, hrun.cons hst⟩

/-- Reachable states satisfy every inductive invariant. -/
theorem invariant {I : S → Prop} (h : A.Reachable s₀ s) (h₀ : I s₀)
    (hstep : ∀ s l s', I s → A.step s l s' → I s') : I s := by
  obtain ⟨tr, hrun⟩ := h
  exact (hrun.invariant h₀ hstep).2

end Reachable

namespace ReachableBy

variable {C : S → L → Prop}

theorem refl : A.ReachableBy C s₀ s₀ := ⟨[], .nil, by simp⟩

theorem reachable (h : A.ReachableBy C s₀ s) : A.Reachable s₀ s := by
  obtain ⟨tr, hrun, -⟩ := h
  exact ⟨tr, hrun⟩

theorem trans {s'' : S} (h : A.ReachableBy C s₀ s') (h' : A.ReachableBy C s' s'') :
    A.ReachableBy C s₀ s'' := by
  obtain ⟨tr, hrun, hall⟩ := h
  obtain ⟨tr', hrun', hall'⟩ := h'
  refine ⟨_, hrun.append hrun', fun p hp => ?_⟩
  exact (List.mem_append.1 hp).elim (hall p) (hall' p)

theorem tail (h : A.ReachableBy C s₀ s) (hst : A.step s l s') (hC : C s l) :
    A.ReachableBy C s₀ s' := by
  obtain ⟨tr, hrun, hall⟩ := h
  refine ⟨_, hrun.snoc hst, fun p hp => ?_⟩
  rcases List.mem_append.1 hp with hp | hp
  · exact hall p hp
  · rwa [List.mem_singleton.1 hp]

end ReachableBy

/-- A run can be cut at every step. -/
theorem Run.exists_step {p : S × L} (h : A.Run s₀ tr s) (hp : p ∈ tr) :
    ∃ s', A.Reachable s₀ p.1 ∧ A.step p.1 p.2 s' ∧ A.Reachable s' s := by
  induction h with
  | nil => simp at hp
  | @snoc tr s s' l hrun hst ih =>
    rcases List.mem_append.1 hp with hp | hp
    · obtain ⟨s₁, hpre, hmid, hpost⟩ := ih hp
      exact ⟨s₁, hpre, hmid, hpost.tail hst⟩
    · cases List.mem_singleton.1 hp
      exact ⟨s', hrun.reachable, hst, .refl⟩

/-- A component of a reachable state is a reachable state of the component. -/
theorem Projects.reachable {B : LTS S' L'} {f : S → S'} (hf : A.Projects B f)
    (h : A.Reachable s₀ s) : B.Reachable (f s₀) (f s) := by
  refine h.invariant (I := fun s => B.Reachable (f s₀) (f s)) .refl ?_
  rintro s l s' hs hst
  rcases hf s l s' hst with heq | ⟨l', hl'⟩
  · rwa [heq]
  · exact hs.tail hl'

end LTS

end TinyNetwork
