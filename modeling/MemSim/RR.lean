import MemSim.RoundRobin
import MemSim.StrategyRefinement

/-!
# The RR policy

The static variable of the policy is the frame that round robin gives up next.
The policy sets no reference bit.
-/

set_option autoImplicit false

namespace MemSim

open Exec

/-- The states between accesses. -/
structure RRSettled (size loaded turn : Nat) (state : PolicyState Nat) : Prop where
  own : state.own = turn
  bound : turn < size
  idle : state.Idle
  bits : state.Bits loaded fun _ => false

/-- The states in which a page is about to be put into the frame. -/
structure RRAwaiting (size loaded turn frame : Nat) (state : PolicyState Nat) : Prop where
  own : state.own = turn
  bound : turn < size
  idle : state.Idle
  bits : ∀ other < loaded, other ≠ frame → state.Bit other false
  clear : ∀ bit, state.Bit frame bit → bit = false

section Implements
variable {size loaded turn frame : Nat} {state after : PolicyState Nat}

theorem RRSettled.unmoved (settled : RRSettled size loaded turn state)
    (unmoved : state.Unmoved loaded after) : RRSettled size loaded turn after where
  own := unmoved.own.trans settled.own
  bound := settled.bound
  idle := unmoved.idle settled.idle
  bits := unmoved.bits settled.bits

theorem RRSettled.next (settled : RRSettled size loaded turn state)
    (unowned : (state.frames loaded).pte = none) :
    RRAwaiting size (loaded + 1) turn loaded state where
  own := settled.own
  bound := settled.bound
  idle := settled.idle
  bits := by
    intro other inUse apart
    exact settled.bits other (by omega)
  clear := by
    intro bit held
    obtain ⟨addr, entry, owner, -⟩ := held
    rw [unowned] at owner
    contradiction

theorem RRSettled.evict (settled : RRSettled size size turn state) : ∃ after,
    (rrEvict size).run state = .ok turn after ∧
      RRAwaiting size size ((turn + 1) % size) turn after ∧
      ∀ bit, after.Bit turn bit → bit = false := by
  have clear : ∀ bit, state.Bit turn bit → bit = false :=
    fun bit held => held.unique (settled.bits turn settled.bound)
  refine ⟨state.setOwn ((state.own + 1) % size), ?_, ?_, clear⟩
  · rw [← settled.own]
    rfl
  · refine ⟨congrArg (fun own => (own + 1) % size) settled.own, ?_, settled.idle, ?_, clear⟩
    · exact Nat.mod_lt _ (Nat.zero_lt_of_lt settled.bound)
    · exact fun other inUse _ => settled.bits other inUse

theorem RRAwaiting.load (awaiting : RRAwaiting size loaded turn frame state)
    (moved : state.Moved loaded frame after) : RRSettled size loaded turn after := by
  obtain ⟨idle, here⟩ := moved.idle awaiting.idle awaiting.clear
  refine ⟨moved.own.trans awaiting.own, awaiting.bound, idle, ?_⟩
  intro other inUse
  by_cases same : other = frame
  · rw [same]
    exact here
  · exact moved.bit other inUse same false (awaiting.bits other inUse same)

theorem rr_implements (env : Env) :
    Implements env policyRR RoundRobin.strategy (RRSettled env.memsize)
      (RRAwaiting env.memsize) where
  unmoved := fun settled unmoved => settled.unmoved unmoved
  hit := fun settled _ _ => ⟨_, rfl, settled⟩
  next := fun settled _ unowned => settled.next unowned
  evict := by
    intro turn state settled
    obtain ⟨after, run, awaiting, clear⟩ := settled.evict
    exact ⟨after, run, settled.bound, awaiting, clear⟩
  load := fun awaiting _ moved => ⟨_, rfl, awaiting.load moved⟩

end Implements

end MemSim
