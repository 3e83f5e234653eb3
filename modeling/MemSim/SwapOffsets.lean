import MemSim.PolicyContract

/-!
# The offsets of pages on swap

What is true of the offset of every page that is on swap stays true in a
translation if it is true of the result of the page-out.
-/

set_option autoImplicit false

namespace MemSim

open Exec

/-- Every page on swap has a good offset. -/
def World.Offsets {σ : Type} (good : Int → Prop) (world : World σ) : Prop :=
  ∀ pte entry, world.heap.pte pte = some entry → entry.onSwap = true → good entry.swapOffset

section Steps
variable {env : Env} {policy : Policy} {root : Addr} {access : MemAccess}
  {world after : World policy.State} {frame : Nat} {good : Int → Prop}

theorem World.Offsets.called (onSwap : world.Offsets good) {state : PolicyState policy.State}
    (only : world.policyState.OnlyReference state) (event : Event) :
    ((world.setPolicyState state).record event).Offsets good := by
  intro pte entry here there
  have onlyHeap : world.heap.OnlyReference state.heap := only.heap
  obtain ⟨reference, old⟩ := onlyHeap.symm.entry here
  have kept := onSwap pte _ old
  exact kept there

theorem World.Offsets.setPte (onSwap : world.Offsets good) {pte : Addr} {entry : PTE}
    (fine : entry.onSwap = true → good entry.swapOffset) :
    (world.setHeap (world.heap.setPte pte entry)).Offsets good := by
  intro other found here there
  rcases Heap.pte_setPte_eq_some.mp here with ⟨-, rfl⟩ | ⟨-, old⟩
  · exact fine there
  · exact onSwap other found old there

theorem World.Offsets.allocated (onSwap : world.Offsets good) {heap : Heap} {page pte : Nat}
    (allocated : world.heap.Allocated heap (· = root) root page pte) :
    (world.setHeap heap).Offsets good := by
  intro other entry here there
  rcases allocated.grown.cases here with ⟨old, found, same⟩ | ⟨-, same⟩
  · rw [same] at there ⊢
    exact onSwap other old found there
  · rw [same] at there
    contradiction

theorem Obtains.onSwap (obtains : Obtains env policy world frame after)
    (onSwap : world.Offsets good)
    (fine : findFreeFrom world.frames 0 env.memsize = none →
      ∀ record, .handled record ∈ after.log → good record.result) : after.Offsets good := by
  cases obtains with
  | free found => exact onSwap
  | @evicted state victim entry result storage found evict bound owner here valid number pageOut =>
      have only : world.policyState.OnlyReference state :=
        keeps_ok (policy.evict_keeps env.memsize) evict
      have slot : good result :=
        fine found _ (List.mem_append_right _ (List.mem_singleton_self _))
      exact (onSwap.called only (.evicted (some frame))).setPte fun _ => slot

theorem Translates.onSwap (translates : Translates env policy root access world frame after)
    (onSwap : world.Offsets good)
    (fine : findFreeFrom world.frames 0 env.memsize = none →
      ∀ record, .handled record ∈ after.log → good record.result) : after.Offsets good := by
  cases translates with
  | @hit pte entry leaf here valid =>
      have counted : world.countHit.Offsets good := onSwap
      exact counted.setPte fun there => onSwap pte entry here there
  | @miss heap pte _ old entry obtained storage allocated here invalid obtains there same fills =>
      have counted : ((world.setHeap heap).countMiss).Offsets good := onSwap.allocated allocated
      have obtainedOnSwap := obtains.onSwap counted fine
      have loadedOnSwap : (obtained.afterLoad pte entry frame storage).Offsets good :=
        obtainedOnSwap.setPte fun there => absurd there Bool.false_ne_true
      exact loadedOnSwap.setPte fun there => absurd there Bool.false_ne_true

end Steps

end MemSim
