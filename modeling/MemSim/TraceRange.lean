import MemSim.Policies
import MemSim.Simulation
import MemSim.Trace

/-!
# Where accepted accesses lead

The reader checks the page offset of an address against the size of a simulated
frame, and nothing else.  This file relates its check to the two consumers of
the address: the byte index in physical memory and the page table indices.
-/

set_option autoImplicit false

namespace MemSim

open Exec

/-! ## The byte in physical memory -/

theorem physIndex_eq {frame virtualAddress : Nat} (bound : virtualAddress < 2 ^ 63) :
    physIndex frame virtualAddress = (frame * 16 + virtualAddress % 4096 : Nat) := by
  have small : toOffT virtualAddress = (virtualAddress : Int) := by
    unfold toOffT
    apply Int.bmod_eq_of_le
    · omega
    · omega
  have remainder : Int.tmod (virtualAddress : Int) ((4096 : Nat) : Int) =
      ((virtualAddress % 4096 : Nat) : Int) := Int.ofNat_tmod _ _ |>.symm
  simp only [physIndex, small, pageSize_eq, simulatedFrameSize_eq, remainder]
  omega

/-- The access to a byte of frame `frame`: its index lies in the frame, the access
succeeds, and no byte outside the frame changes. -/
def StaysInFrame (env : Env) (policy : Policy) (frame : Nat) (access : MemAccess) : Prop :=
  (((frame * 16 : Nat) : Int) ≤ physIndex frame access.virtualAddress ∧
    physIndex frame access.virtualAddress < (frame * 16 + 16 : Nat)) ∧
  ∀ world : World policy.State, ∃ found after,
    (accessMemory env policy frame access).run world = .ok found after ∧
    ∀ index, ¬ (frame * 16 ≤ index ∧ index < frame * 16 + 16) →
      after.storage.physmem index = world.storage.physmem index

variable (env : Env) (policy : Policy)

theorem run_accessMemory {frame index : Nat} {access : MemAccess}
    (here : physIndex frame access.virtualAddress = (index : Int))
    (bound : index < env.memsize * 16) (world : World policy.State) :
    (accessMemory env policy frame access).run world =
      if access.type.isWrite then
        .ok none (world.setStorage { world.storage with
          physmem := Function.update world.storage.physmem index access.value })
      else .ok (some (world.storage.physmem index)) world := by
  have inside : decide (0 ≤ physIndex frame access.virtualAddress ∧
      physIndex frame access.virtualAddress < (env.memsize * simulatedFrameSize : Nat)) = true := by
    rw [here, simulatedFrameSize_eq]
    simp only [decide_eq_true_eq]
    omega
  simp only [accessMemory, EStateM.run_bind, inside, run_require_true]
  rw [here]
  split <;> rfl

/-- The reader lets one page offset through that does not belong to the frame. -/
theorem accepted_access_stays_in_frame_iff {trace : Trace} {access : MemAccess}
    (accepted : Accepts trace access) (address : access.virtualAddress < 2 ^ 48)
    {frame : Nat} (inMemory : frame < env.memsize) :
    StaysInFrame env policy frame access ↔
      access.virtualAddress % pageSize ≠ simulatedFrameSize := by
  have offset := (accepts_bounds accepted).2
  have index : physIndex frame access.virtualAddress =
      (frame * 16 + access.virtualAddress % 4096 : Nat) := physIndex_eq (by omega)
  simp only [pageSize_eq, simulatedFrameSize_eq] at offset ⊢
  constructor
  · rintro ⟨⟨-, upper⟩, -⟩
    rw [index] at upper
    omega
  · intro apart
    refine ⟨⟨by rw [index]; omega, by rw [index]; omega⟩, ?_⟩
    intro world
    have run := run_accessMemory env policy index (by omega) world
    by_cases writes : access.type.isWrite = true
    · rw [if_pos writes] at run
      refine ⟨_, _, run, ?_⟩
      intro other outside
      have apart' : other ≠ frame * 16 + access.virtualAddress % 4096 := by omega
      simp [World.setStorage, Function.update_of_ne apart']
    · rw [if_neg writes] at run
      exact ⟨_, _, run, fun _ _ => rfl⟩

/-- The lines `L 1005 0` and `S 10 1`: a load inside page 1 and a store to offset 16 of
page 0. -/
def loadLine : List Char := ['L', ' ', '1', '0', '0', '5', ' ', '0', '\n']

def storeLine : List Char := ['S', ' ', '1', '0', ' ', '1', '\n']

theorem accepts_loadLine : Accepts (traceCreate loadLine) ⟨.load, 0x1005, 0⟩ := ⟨_, rfl⟩

theorem accepts_storeLine : Accepts (traceCreate storeLine) ⟨.store, 16, 1⟩ := ⟨_, rfl⟩

theorem load_stays_in_frame_iff :
    StaysInFrame (Env.ideal 2) policyRR 1 ⟨.load, 0x1005, 0⟩ ↔
      0x1005 % pageSize ≠ simulatedFrameSize :=
  accepted_access_stays_in_frame_iff (Env.ideal 2) policyRR accepts_loadLine
    (by decide) (by decide)

theorem accepted_store_leaves_frame :
    ¬ ∀ trace access, Accepts trace access → access.virtualAddress < 2 ^ 48 →
      ∀ frame < (Env.ideal 1).memsize, StaysInFrame (Env.ideal 1) policyRR frame access := by
  intro claim
  obtain ⟨⟨-, upper⟩, -⟩ := claim _ _ accepts_storeLine (by decide) 0 (by decide)
  exact absurd upper (by decide)

/-! ## The page table indices -/

/-- The three indices of an address fit the tables, and no other accepted page
has the same three. -/
def IndicesInRange (access : MemAccess) : Prop :=
  (allocateIndex1 access.virtualAddress < ptesCount ∧
    allocateIndex2 access.virtualAddress < ptesCount ∧
    allocateIndex3 access.virtualAddress < ptesCount) ∧
  ∀ trace' access', Accepts trace' access' →
    allocateIndex1 access'.virtualAddress = allocateIndex1 access.virtualAddress →
    allocateIndex2 access'.virtualAddress = allocateIndex2 access.virtualAddress →
    allocateIndex3 access'.virtualAddress = allocateIndex3 access.virtualAddress →
    pageNumber access'.virtualAddress = pageNumber access.virtualAddress

theorem pageNumber_of_indices {first second : Nat}
    (same1 : allocateIndex1 first = allocateIndex1 second)
    (same2 : allocateIndex2 first = allocateIndex2 second)
    (same3 : allocateIndex3 first = allocateIndex3 second) :
    pageNumber first = pageNumber second := by
  simp only [allocateIndex1, allocateIndex2, allocateIndex3, pageNumber, pageSize_eq] at *
  omega

/-- The reader never looks at the bits above the 48 of a virtual address. -/
theorem accepted_indices_in_range_iff {trace : Trace} {access : MemAccess}
    (_accepted : Accepts trace access) :
    IndicesInRange access ↔ access.virtualAddress < 2 ^ vaddrBits := by
  have index1 : allocateIndex1 access.virtualAddress < ptesCount ↔
      access.virtualAddress < 2 ^ vaddrBits := by
    simp only [allocateIndex1, ptesCount_eq, vaddrBits]
    omega
  constructor
  · rintro ⟨⟨inRange, -, -⟩, -⟩
    exact index1.mp inRange
  · intro address
    refine ⟨⟨index1.mpr address, Nat.mod_lt _ (by decide), Nat.mod_lt _ (by decide)⟩, ?_⟩
    intro _ access' _ same1 same2 same3
    exact pageNumber_of_indices same1 same2 same3

theorem load_indices_in_range_iff :
    IndicesInRange ⟨.load, 0x1005, 0⟩ ↔ 0x1005 < 2 ^ vaddrBits :=
  accepted_indices_in_range_iff accepts_loadLine

/-- The line `L 1000000000000 0`, a load from address 2^48. -/
def loadHighLine : List Char :=
  ['L', ' ', '1', '0', '0', '0', '0', '0', '0', '0', '0', '0', '0', '0', '0', ' ', '0', '\n']

theorem accepts_loadHighLine : Accepts (traceCreate loadHighLine) ⟨.load, 2 ^ 48, 0⟩ := ⟨_, rfl⟩

theorem accepted_load_out_of_range :
    ¬ ∀ trace access, Accepts trace access → IndicesInRange access := by
  intro claim
  obtain ⟨⟨inRange, -, -⟩, -⟩ := claim _ _ accepts_loadHighLine
  exact absurd inRange (by decide)

end MemSim
