import Mathlib.Data.Fintype.Card
import Mathlib.Data.Fintype.EquivFin
import Mathlib.Data.Nat.ModEq
import Mathlib.Data.Nat.Prime.Basic
import Mathlib.Tactic.Ring

/-!
# Probing in growing steps

A probe sequence starts at some bucket, and the width of its steps grows by one
each time.  In a table whose size is a power of two it comes to every bucket
once before it comes to any bucket again; then it comes to them in the opposite
order, and back to the start with the last of twice as many steps.
-/

set_option autoImplicit false

namespace MemSim

/-- The sum of the first `step` step widths. -/
def triangle : Nat → Nat
  | 0 => 0
  | step + 1 => triangle step + (step + 1)

theorem two_mul_triangle (step : Nat) : 2 * triangle step = step * (step + 1) := by
  induction step with
  | zero => rfl
  | succ step ih =>
      rw [triangle, Nat.mul_add, ih]
      ring

theorem two_mul_triangle_add (step width : Nat) :
    2 * triangle (step + width) = 2 * triangle step + width * (2 * step + width + 1) := by
  rw [two_mul_triangle, two_mul_triangle]
  ring

theorem pow_dvd_of_dvd_mul {bits width factor : Nat} (odd : width % 2 ≠ factor % 2)
    (dvd : 2 ^ bits ∣ width * factor) : 2 ^ bits ∣ width ∨ 2 ^ bits ∣ factor := by
  have coprime {number : Nat} (isOdd : number % 2 = 1) : Nat.Coprime (2 ^ bits) number :=
    Nat.Coprime.pow_left _ ((Nat.coprime_two_left).mpr (Nat.odd_iff.mpr isOdd))
  rcases Nat.mod_two_eq_zero_or_one width with even | isOdd
  · have isOdd : factor % 2 = 1 := by omega
    exact .inl ((coprime isOdd).dvd_of_dvd_mul_right dvd)
  · exact .inr ((coprime isOdd).dvd_of_dvd_mul_left dvd)

def probe (size start step : Nat) : Nat := (start + triangle step) % size

section Probe
variable {size start : Nat}

theorem probe_lt (positive : 0 < size) (step : Nat) : probe size start step < size :=
  Nat.mod_lt _ positive

theorem probe_zero : probe size start 0 = start % size := rfl

theorem probe_succ (step : Nat) :
    probe size start (step + 1) = (probe size start step + (step + 1)) % size := by
  rw [probe, probe, triangle, Nat.mod_add_mod, Nat.add_assoc]

variable {bits : Nat} (isPow : size = 2 ^ bits)
include isPow

/-- No bucket is visited twice in `size` steps. -/
theorem probe_ne {step width : Nat} (moves : 0 < width) (bound : step + width < size) :
    probe size start step ≠ probe size start (step + width) := by
  intro same
  have congruent : start + triangle step ≡ start + triangle (step + width) [MOD size] := same
  have cancelled := Nat.ModEq.add_left_cancel' start congruent
  have twice : 2 * triangle step ≡ 2 * triangle (step + width) [MOD 2 * size] :=
    Nat.ModEq.mul_left' 2 cancelled
  rw [two_mul_triangle_add] at twice
  have dvd := (Nat.modEq_iff_dvd' (Nat.le_add_right _ _)).mp twice
  rw [Nat.add_sub_cancel_left] at dvd
  have power : 2 * size = 2 ^ (bits + 1) := by rw [isPow]; ring
  rw [power] at dvd
  rcases pow_dvd_of_dvd_mul (by omega) dvd with here | here
  · have := Nat.le_of_dvd moves here
    omega
  · have := Nat.le_of_dvd (by omega) here
    omega

theorem probe_injOn : Set.InjOn (probe size start) (Set.Iio size) := by
  intro step bound other otherBound same
  rcases Nat.lt_trichotomy step other with before | rfl | behind
  · obtain ⟨width, rfl⟩ := Nat.exists_eq_add_of_lt before
    exact absurd same (probe_ne isPow (Nat.succ_pos width) otherBound)
  · rfl
  · obtain ⟨width, rfl⟩ := Nat.exists_eq_add_of_lt behind
    exact absurd same.symm (probe_ne isPow (Nat.succ_pos width) bound)

/-- Every bucket is visited in `size` steps. -/
theorem exists_probe {bucket : Nat} (bound : bucket < size) :
    ∃ step < size, probe size start step = bucket := by
  have positive : 0 < size := Nat.zero_lt_of_lt bound
  let visit : Fin size → Fin size := fun step => ⟨probe size start step, probe_lt positive _⟩
  have injective : Function.Injective visit := by
    intro step other same
    exact Fin.ext (probe_injOn isPow step.isLt other.isLt (congrArg Fin.val same))
  obtain ⟨step, visits⟩ := Finite.surjective_of_injective injective ⟨bucket, bound⟩
  exact ⟨step, step.isLt, congrArg Fin.val visits⟩

/-- The sequence comes back to its start after the last of `2 * size - 1` steps. -/
theorem probe_returns (positive : 0 < size) : probe size start (2 * size - 1) = start % size := by
  have twice : 2 * triangle (2 * size - 1) = 2 * (size * (2 * size - 1)) := by
    rw [two_mul_triangle]
    obtain ⟨count, rfl⟩ : ∃ count, size = count + 1 := ⟨size - 1, by omega⟩
    rw [show 2 * (count + 1) - 1 = 2 * count + 1 from by omega]
    ring
  rw [probe, Nat.eq_of_mul_eq_mul_left (by decide) twice, Nat.add_mul_mod_self_left]

end Probe

end MemSim
