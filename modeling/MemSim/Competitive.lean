import Mathlib.Data.Finset.Card
import Mathlib.Data.List.Basic
import Mathlib.Data.Nat.Find

/-!
# Counting misses

Two machines run over the same requests.  One misses each item at most once in a
stretch of at most `size` different items.  The other has only `size'` places, so that
it misses what a stretch has beyond those.  This bounds the misses of the first machine
by those of the second, whatever the second one knows about the requests to come.
-/

set_option autoImplicit false

namespace Requests

variable {α : Type} [DecidableEq α]

/-- The items requested from number `first` on, before number `last`. -/
def window (requests : List α) (first last : Nat) : Finset α :=
  ((requests.take last).drop first).toFinset

/-- Each item of a stretch of few items is missed at most once. -/
def Conservative (size : Nat) (requests : List α) (misses : Nat → Nat) : Prop :=
  ∀ first last, first ≤ last → last ≤ requests.length →
    (window requests first last).card ≤ size →
      misses last ≤ misses first + (window requests first last).card

/-- The first request is missed.  After the first request of a stretch, its items are in
the places of the machine, or are missed. -/
structure Demanding (size : Nat) (requests : List α) (misses : Nat → Nat) : Prop where
  monotone : ∀ earlier later, earlier ≤ later → later ≤ requests.length →
    misses earlier ≤ misses later
  begins : requests ≠ [] → 0 < misses 1
  beyond : ∀ first last, first < last → last ≤ requests.length →
    (window requests first last).card + misses (first + 1) ≤ size + misses last

variable {size size' first last : Nat} {requests : List α} {misses misses' : Nat → Nat}

theorem card_window_succ (bound : first < requests.length) :
    (window requests first (first + 1)).card = 1 := by
  have one : (requests.take (first + 1)).drop first = [requests[first]] := by
    rw [List.take_succ_eq_append_getElem bound, List.drop_left' (by simp; omega)]
  rw [window, one]
  rfl

theorem exists_longest (positive : 0 < size) (bound : first < requests.length) :
    ∃ last ≤ requests.length, first < last ∧ (window requests first last).card ≤ size ∧
      (last < requests.length → size < (window requests first (last + 1)).card) := by
  let few := fun last => first ≤ last ∧ (window requests first last).card ≤ size
  have one : few (first + 1) :=
    ⟨Nat.le_succ _, by rw [card_window_succ bound]; exact positive⟩
  obtain ⟨last, within, ⟨after, fits⟩, longest⟩ : ∃ last ≤ requests.length, few last ∧
      ∀ later, last < later → later ≤ requests.length → ¬ few later :=
    ⟨Nat.findGreatest few requests.length, Nat.findGreatest_le _,
      Nat.findGreatest_spec bound one, fun later => Nat.findGreatest_is_greatest⟩
  refine ⟨last, within, ?_, fits, ?_⟩
  · apply Nat.lt_of_not_le
    intro stuck
    exact longest (first + 1) (by omega) bound one
  · intro more
    apply Nat.lt_of_not_le
    intro small
    exact longest (last + 1) (Nat.lt_succ_self _) more ⟨by omega, small⟩

section Compare
variable (conservative : Conservative size requests misses)
  (demanding : Demanding size' requests misses') (positive : 0 < size) (fewer : size' ≤ size)
include conservative demanding positive fewer

/-- From the first request of a stretch on.  The second machine misses at least
`size - size' + 1` times while the first one misses `size` times. -/
theorem Conservative.stretches (bound : first < requests.length) :
    (size - size' + 1) * misses requests.length + size * misses' (first + 1) ≤
      (size - size' + 1) * misses first +
        size * (misses' requests.length + (size - size' + 1)) := by
  generalize left : requests.length - first = length
  induction length using Nat.strong_induction_on generalizing first with
  | _ length ih =>
      obtain ⟨last, within, moved, fits, full⟩ := exists_longest positive bound
      have counted := conservative first last (Nat.le_of_lt moved) within fits
      have scaled : (size - size' + 1) * misses last ≤
          (size - size' + 1) * misses first + size * (size - size' + 1) := by
        rw [Nat.mul_comm size, ← Nat.mul_add]
        exact Nat.mul_le_mul_left _ (by omega)
      rcases Nat.eq_or_lt_of_le within with rfl | more
      · have grows := demanding.monotone (first + 1) requests.length bound (Nat.le_refl _)
        have scaled' := Nat.mul_le_mul_left size grows
        rw [Nat.mul_add]
        omega
      · have missed := demanding.beyond first (last + 1) (by omega) more
        have beyond : misses' (first + 1) + (size - size' + 1) ≤ misses' (last + 1) := by
          have wide := full more
          omega
        have scaled' := Nat.mul_le_mul_left size beyond
        have rest := ih (requests.length - last) (by omega) more rfl
        rw [Nat.mul_add] at scaled'
        omega

theorem Conservative.competitive :
    (size - size' + 1) * misses requests.length ≤
      (size - size' + 1) * misses 0 + size * (misses' requests.length + (size - size')) := by
  rcases Nat.eq_zero_or_pos requests.length with empty | some'
  · rw [empty]
    exact Nat.le_add_right _ _
  · have stretches := conservative.stretches demanding positive fewer some'
    have begins := demanding.begins (List.ne_nil_of_length_pos some')
    have scaled := Nat.mul_le_mul_left size begins
    have split : size * (misses' requests.length + (size - size' + 1)) =
        size * (misses' requests.length + (size - size')) + size * Nat.succ 0 := by
      rw [← Nat.mul_add]
      rfl
    rw [Nat.zero_add] at stretches
    omega

end Compare

end Requests
