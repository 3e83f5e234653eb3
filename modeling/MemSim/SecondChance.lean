import Mathlib.Data.Finset.Card
import Mathlib.Data.List.Rotate
import MemSim.DemandPaging

/-!
# The second-chance strategy

The reference for the Clock policy: one bit for each frame and a hand.  An
access to the page in a frame sets the bit of the frame.  To choose a victim,
the frames behind the hand are inspected in turn; set bits that are passed are
cleared, and the first frame whose bit is clear is given up.
-/

set_option autoImplicit false

namespace MemSim

/-! ## Going round -/

/-- The numbers below `size` in cyclic order, from `start` on. -/
def around (size start : Nat) : List Nat :=
  (List.range size).map fun index => (start + index) % size

section Around
variable {size start : Nat}

theorem around_step (bound : start < size) :
    ∃ rest, around size start = start :: rest ∧
      around size ((start + 1) % size) = rest ++ [start] := by
  obtain ⟨count, rfl⟩ := Nat.exists_eq_succ_of_ne_zero (Nat.ne_of_gt (Nat.zero_lt_of_lt bound))
  refine ⟨(List.range count).map fun index => (start + 1 + index) % (count + 1), ?_, ?_⟩
  · simp only [around, List.range_succ_eq_map, List.map_cons, List.map_map, Nat.add_zero,
      Nat.mod_eq_of_lt bound, List.cons.injEq, true_and]
    refine List.map_congr_left fun index _ => ?_
    simp only [Function.comp_apply]
    congr 1
    omega
  · simp only [around, List.range_succ, List.map_append, List.map_cons, List.map_nil]
    congr 1
    · refine List.map_congr_left fun index _ => ?_
      rw [Nat.mod_add_mod]
    · rw [Nat.mod_add_mod, Nat.add_assoc, Nat.add_comm 1 count, Nat.add_mod_right,
        Nat.mod_eq_of_lt bound]

theorem around_zero : around size 0 = List.range size := by
  refine (List.map_congr_left fun index member => ?_).trans (List.map_id _)
  rw [Nat.zero_add, Nat.mod_eq_of_lt (List.mem_range.mp member), id]

theorem around_isRotated_zero (bound : start < size) : around size 0 ~r around size start := by
  induction start with
  | zero => exact List.IsRotated.refl _
  | succ start ih =>
      have before : start < size := by omega
      obtain ⟨rest, here, next⟩ := around_step before
      rw [Nat.mod_eq_of_lt bound] at next
      refine (ih before).trans ?_
      rw [here, next]
      exact (List.isRotated_append : [start] ++ rest ~r rest ++ [start])

theorem around_isRotated {start' : Nat} (bound : start < size) (bound' : start' < size) :
    around size start ~r around size start' :=
  (around_isRotated_zero bound).symm.trans (around_isRotated_zero bound')

theorem mem_around (bound : start < size) {index : Nat} : index ∈ around size start ↔ index < size := by
  rw [← (around_isRotated_zero bound).mem_iff, around_zero, List.mem_range]

end Around

/-! ## The strategy -/

/-- `hand` is the frame loaded last. -/
structure SecondChance where
  bit : Nat → Bool
  hand : Nat

namespace SecondChance

/-- Inspect frames from `frame` on: the first one whose bit is clear, and the
bits left.  After `size` steps every bit is clear. -/
def sweep (size : Nat) (bit : Nat → Bool) : (steps frame : Nat) → Nat × (Nat → Bool)
  | 0, frame => (frame, bit)
  | steps + 1, frame =>
      if bit frame then sweep size (Function.update bit frame false) steps ((frame + 1) % size)
      else (frame, bit)

def strategy : Strategy SecondChance where
  start := ⟨fun _ => false, 0⟩
  hit := fun machine frame => { machine with bit := Function.update machine.bit frame true }
  load := fun machine frame => ⟨Function.update machine.bit frame true, frame⟩
  victim := fun size machine =>
    let found := sweep size machine.bit size ((machine.hand + 1) % size)
    (found.1, { machine with bit := found.2 })

def bitsSet (size : Nat) (bit : Nat → Bool) : Finset Nat :=
  (Finset.range size).filter fun frame => bit frame = true

theorem card_bitsSet_le (size : Nat) (bit : Nat → Bool) : (bitsSet size bit).card ≤ size :=
  (Finset.card_filter_le _ _).trans_eq (Finset.card_range size)

theorem card_bitsSet_clear {size frame : Nat} {bit : Nat → Bool} (bound : frame < size)
    (isSet : bit frame = true) :
    (bitsSet size (Function.update bit frame false)).card + 1 = (bitsSet size bit).card := by
  have member : frame ∈ bitsSet size bit := by simp [bitsSet, bound, isSet]
  have erased : bitsSet size (Function.update bit frame false) = (bitsSet size bit).erase frame := by
    ext other
    by_cases same : other = frame
    · simp [bitsSet, same]
    · simp [bitsSet, same]
  rw [erased, Finset.card_erase_of_mem member]
  have positive := Finset.card_pos.mpr ⟨frame, member⟩
  omega

theorem clear_of_card_zero {size frame : Nat} {bit : Nat → Bool} (bound : frame < size)
    (none' : (bitsSet size bit).card = 0) : bit frame = false := by
  have empty := Finset.card_eq_zero.mp none'
  cases isSet : bit frame with
  | false => rfl
  | true =>
      have member : frame ∈ bitsSet size bit := by simp [bitsSet, bound, isSet]
      rw [empty] at member
      simp at member

theorem sweep_spec {size : Nat} {bit : Nat → Bool} {steps frame : Nat} (bound : frame < size)
    (enough : (bitsSet size bit).card ≤ steps) :
    (sweep size bit steps frame).1 < size ∧
      (sweep size bit steps frame).2 (sweep size bit steps frame).1 = false := by
  induction steps generalizing bit frame with
  | zero =>
      have none' : (bitsSet size bit).card = 0 := Nat.le_zero.mp enough
      exact ⟨bound, clear_of_card_zero bound none'⟩
  | succ steps ih =>
      simp only [sweep]
      split
      · rename_i isSet
        have fewer := card_bitsSet_clear bound isSet
        exact ih (Nat.mod_lt _ (by omega)) (by omega)
      · rename_i clear
        exact ⟨bound, by simpa using clear⟩

end SecondChance

end MemSim
