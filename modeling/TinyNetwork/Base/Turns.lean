import Mathlib.Data.Int.CardIntervalMod
import Mathlib.Data.List.Count

/-!
# Turns

A list is filled by turns when the places of a second list are taken one after the other, and
again from the first when all have been taken.

## Main results

* `Turns.count_eq` : how often a place has been taken.
* `Turns.count_le` : no place has been taken more than once more often than another one.
-/

namespace TinyNetwork

variable {α : Type*} {places xs : List α} {x : α}

/-- The elements of `xs` are those of `places`, by turns. -/
def Turns (places xs : List α) : Prop :=
  ∀ i y, xs[i]? = some y → places[i % places.length]? = some y

theorem Turns.nil : Turns places [] := fun i y h => by simp at h

/-- It is the turn of `x`. -/
theorem Turns.concat (h : Turns places xs) (hx : places[xs.length % places.length]? = some x) :
    Turns places (xs ++ [x]) := by
  intro i y hy
  rw [List.getElem?_append] at hy
  split_ifs at hy with hi
  · exact h i y hy
  · rw [List.getElem?_singleton] at hy
    split_ifs at hy with hzero
    obtain rfl := Option.some.inj hy
    obtain rfl : i = xs.length := by omega
    exact hx

/-- What has been filled by turns was so before its last element. -/
theorem Turns.of_concat (h : Turns places (xs ++ [x])) :
    Turns places xs ∧ places[xs.length % places.length]? = some x := by
  refine ⟨fun i y hy => h i y ?_, h _ _ List.getElem?_concat_length⟩
  have hi := (List.getElem?_eq_some_iff.1 hy).1
  rw [List.getElem?_append_left hi]
  exact hy

variable [DecidableEq α]

/-- A place is taken at the indices that are congruent to its own. -/
theorem Turns.count_eq (h : Turns places xs) (hnodup : places.Nodup) {k : ℕ}
    (hk : k < places.length) :
    xs.count places[k] = xs.length.count (· ≡ k [MOD places.length]) := by
  induction xs using List.reverseRecOn with
  | nil => rfl
  | append_singleton xs x ih =>
    obtain ⟨hxs, hx⟩ := h.of_concat
    have hlt : xs.length % places.length < places.length := Nat.mod_lt _ (Nat.zero_lt_of_lt hk)
    have hx' : x = places[xs.length % places.length] := by
      rw [List.getElem?_eq_getElem hlt] at hx
      exact (Option.some.inj hx).symm
    have hturn : x = places[k] ↔ xs.length ≡ k [MOD places.length] := by
      rw [hx', hnodup.getElem_inj_iff, Nat.ModEq, Nat.mod_eq_of_lt hk]
    rw [List.count_append, ih hxs, List.length_append, List.length_singleton, Nat.count_succ,
      List.count_singleton]
    simp only [beq_iff_eq, hturn]

/-- **Turns are fair.** -/
theorem Turns.count_le (h : Turns places xs) (hnodup : places.Nodup) {l l' : α}
    (hl : l ∈ places) (hl' : l' ∈ places) : xs.count l ≤ xs.count l' + 1 := by
  obtain ⟨k, hk, rfl⟩ := List.getElem_of_mem hl
  obtain ⟨k', hk', rfl⟩ := List.getElem_of_mem hl'
  have hpos : 0 < places.length := Nat.zero_lt_of_lt hk
  rw [h.count_eq hnodup hk, h.count_eq hnodup hk', Nat.count_modEq_card _ hpos,
    Nat.count_modEq_card _ hpos]
  split_ifs <;> omega

end TinyNetwork
