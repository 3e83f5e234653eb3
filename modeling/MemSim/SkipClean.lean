import MemSim.FlatMemory

/-!
# Clean pages are in sync with swap

A page in memory that is not dirty has a copy on swap.  Writing it out when it is
evicted changes neither the swap file nor the bitmap, so that an eviction could
skip the write: runs come out the same.
-/

set_option autoImplicit false

namespace MemSim

open Exec

/-! ## Storage that differs in the traffic only -/

/-- Only the position in the swap file and the number of system calls differ. -/
structure Storage.SameBytes (storage other : Storage) : Prop where
  physmem : other.physmem = storage.physmem
  swapmap : other.swapmap = storage.swapmap
  data : other.file.data = storage.file.data
  size : other.file.size = storage.file.size
  errno : other.errno = storage.errno

theorem Storage.SameBytes.symm {first second : Storage} (same : first.SameBytes second) :
    second.SameBytes first where
  physmem := same.physmem.symm
  swapmap := same.swapmap.symm
  data := same.data.symm
  size := same.size.symm
  errno := same.errno.symm

theorem Storage.SameBytes.trans {first second third : Storage} (left : first.SameBytes second)
    (right : second.SameBytes third) : first.SameBytes third where
  physmem := right.physmem.trans left.physmem
  swapmap := right.swapmap.trans left.swapmap
  data := right.data.trans left.data
  size := right.size.trans left.size
  errno := right.errno.trans left.errno

section Calls
variable {env : Env} (succeeds : ∀ call, env.io call = .success)
include succeeds

theorem mirrors_swapPageIn (frame : Nat) (offset : Int) :
    Mirrors Storage.SameBytes (fun _ => True) (swapPageIn env frame offset)
      (swapPageIn env frame offset) := by
  intro storage other _ same
  by_cases slot : offset = invalidSwap
  · rw [slot]
    exact ⟨rfl, same⟩
  · rw [run_swapPageIn_succeeds succeeds frame slot, run_swapPageIn_succeeds succeeds frame slot,
      same.size]
    split
    · exact ⟨rfl, same.physmem, same.swapmap, same.data, same.size, rfl⟩
    · split
      · refine ⟨rfl, ?_, same.swapmap, same.data, same.size, same.errno⟩
        simp only [Storage.read, SwapFile.seek, same.physmem, same.data]
      · exact ⟨rfl, same.physmem, same.swapmap, same.data, same.size, same.errno⟩

theorem mirrors_swapWritePage (frame : Nat) (offset : Int) :
    Mirrors Storage.SameBytes (fun _ => True) (swapWritePage env frame offset)
      (swapWritePage env frame offset) := by
  intro storage other _ same
  by_cases slot : offset = invalidSwap
  · rw [slot]
    exact ⟨rfl, same⟩
  · rw [run_swapWritePage_succeeds succeeds frame slot,
      run_swapWritePage_succeeds succeeds frame slot]
    split
    · exact ⟨rfl, same.physmem, same.swapmap, same.data, same.size, rfl⟩
    · split
      · refine ⟨rfl, same.physmem, same.swapmap, ?_, ?_, same.errno⟩
        · simp only [SwapFile.write, SwapFile.seek, same.physmem, same.data]
        · simp only [SwapFile.write, SwapFile.seek, same.size]
      · exact ⟨rfl, same.physmem, same.swapmap, same.data, same.size, same.errno⟩

theorem mirrors_swapPageOut (frame : Nat) (offset : Int) :
    Mirrors Storage.SameBytes (fun _ => True) (swapPageOut env frame offset)
      (swapPageOut env frame offset) := by
  apply mirrors_ite
  · intro _
    have alloc : Mirrors _ (fun _ => True) bitmapAlloc bitmapAlloc := mirrors_self _
    apply mirrors_seq
    · exact mirrors_onPart alloc (fun _ _ => trivial)
        (fun _ _ same => same.swapmap) (fun _ _ _ _ same sameMap =>
          ⟨same.physmem, sameMap, same.data, same.size, same.errno⟩)
    · intro found
      cases found with
      | none => exact mirrors_pure _
      | some idx => exact mirrors_swapWritePage succeeds frame _
  · intro _
    exact mirrors_swapWritePage succeeds frame offset

end Calls

/-! ## A clean page is on swap already -/

section Clean
variable {env : Env} {root : Addr} {pages : Finset Nat}

theorem PageStore.Holds.clean_pageOut {contents : Contents} {store : PageStore} {page : Nat}
    {entry : PTE} (holds : store.Holds contents) (slots : store.Slots pages)
    (framed : store.Framed env) (succeeds : ∀ call, env.io call = .success)
    (small : env.memsize ≤ 2 ^ 28) (here : store.entry page = some entry)
    (valid : entry.valid = true) (clean : entry.dirty = false) :
    ∃ after, (swapPageOut env entry.frameNumber entry.swapOffset).run store.storage =
      .ok entry.swapOffset after ∧ store.storage.SameBytes after := by
  obtain ⟨slot, inSlot⟩ := holds.clean page entry here valid clean
  obtain ⟨idx, -, offset, -, inFile⟩ := slots.slot page entry here slot
  have inMemory := framed.bound page entry here valid
  have index := @swapFrameIndex_small entry.frameNumber (by omega)
  have natural : ¬ entry.swapOffset < 0 := by omega
  have inRange : swapFrameIndex entry.frameNumber + 16 ≤ env.memsize * 16 := by
    rw [index, simulatedFrameSize_eq]
    omega
  rw [swapPageOut, if_neg slot, run_swapWritePage_succeeds succeeds _ slot, if_neg natural,
    if_pos inRange]
  refine ⟨_, rfl, rfl, rfl, ?_, ?_, rfl⟩
  · funext position
    simp only [SwapFile.write, SwapFile.seek]
    by_cases inside : entry.swapOffset.toNat ≤ position ∧ position < entry.swapOffset.toNat + 16
    · obtain ⟨byte, rfl⟩ := Nat.exists_eq_add_of_le inside.1
      have bound : byte < 16 := by omega
      rw [overwrite_inside bound, index, simulatedFrameSize_eq, inSlot byte bound]
      exact holds.inFrame page entry here valid byte bound
    · exact overwrite_outside inside
  · simp only [SwapFile.write, SwapFile.seek, offset, Int.toNat_natCast]
    exact Nat.max_eq_left inFile

/-- Between accesses and up to an eviction the storage holds the pages. -/
structure World.Synced {σ : Type} (env : Env) (root : Addr) (pages : Finset Nat)
    (world : World σ) : Prop where
  coherent : world.Coherent env root none
  slots : (world.pageStore root).Slots pages
  holds : ∃ contents, (world.pageStore root).Holds contents

variable {σ : Type} {world : World σ}

theorem World.Synced.called (synced : world.Synced env root pages)
    {state : PolicyState σ} (only : world.policyState.OnlyReference state) (event : Event) :
    ((world.setPolicyState state).record event).Synced env root pages := by
  have same : ((world.setPolicyState state).record event).pageStore root =
      world.pageStore root := pageStore_called only event
  refine ⟨(synced.coherent.setPolicyState only).record _, ?_, ?_⟩
  · rw [same]
    exact synced.slots
  · rw [same]
    exact synced.holds

theorem World.Synced.setStats (synced : world.Synced env root pages) (stats : MMStats) :
    (world.setStats stats).Synced env root pages :=
  ⟨synced.coherent.setStats stats, synced.slots, synced.holds⟩

theorem PageStore.Holds.created {contents : Contents} {store : PageStore} {page : Nat}
    (holds : store.Holds contents) (absent : store.entry page = none) :
    (store.set page PTE.initial).Holds contents where
  inFrame := by
    intro other found present valid
    rcases PageStore.set_eq_some.mp present with ⟨-, rfl⟩ | ⟨-, there⟩
    · contradiction
    · exact holds.inFrame other found there valid
  inSlot := by
    intro other found present invalid onSwap
    rcases PageStore.set_eq_some.mp present with ⟨-, rfl⟩ | ⟨-, there⟩
    · contradiction
    · exact holds.inSlot other found there invalid onSwap
  clean := by
    intro other found present valid
    rcases PageStore.set_eq_some.mp present with ⟨-, rfl⟩ | ⟨-, there⟩
    · contradiction
    · exact holds.clean other found there valid
  zero := by
    intro other unseen
    apply holds.zero
    intro found there
    by_cases same : other = page
    · rw [same, absent] at there
      contradiction
    · exact unseen found ((PageStore.set_other same).trans there)

theorem World.Synced.allocated (synced : world.Synced env root pages) {heap : Heap}
    {page pte : Nat} (member : page ∈ pages)
    (allocated : world.heap.Allocated heap (· = root) root page pte) :
    (world.setHeap heap).Synced env root pages := by
  refine ⟨synced.coherent.allocated allocated, ?_, ?_⟩
  · rcases pageStore_allocated synced.coherent.sound allocated with ⟨_, _, same⟩ | ⟨absent, same⟩
    · rw [same]
      exact synced.slots
    · rw [same]
      apply synced.slots.set member
      · intro old present
        rw [absent] at present
        contradiction
      · exact fun _ => rfl
  · obtain ⟨contents, holds⟩ := synced.holds
    rcases pageStore_allocated synced.coherent.sound allocated with ⟨_, _, same⟩ | ⟨absent, same⟩
    · exact ⟨contents, same ▸ holds⟩
    · exact ⟨contents, same ▸ holds.created absent⟩

theorem World.Synced.clean_pageOut (synced : world.Synced env root pages)
    (succeeds : ∀ call, env.io call = .success) (small : env.memsize ≤ 2 ^ 28) {pte : Addr}
    {entry : PTE} (here : world.heap.pte pte = some entry) (valid : entry.valid = true)
    (clean : entry.dirty = false) :
    ∃ after, (swapPageOut env entry.frameNumber entry.swapOffset).run world.storage =
      .ok entry.swapOffset after ∧ world.storage.SameBytes after := by
  obtain ⟨page, leaf⟩ := synced.coherent.leaf here valid
  obtain ⟨contents, holds⟩ := synced.holds
  have cleaned := @PageStore.Holds.clean_pageOut env pages contents _ page entry.eraseReference
    holds synced.slots synced.coherent.framed succeeds small (pageStore_entry leaf here)
  exact cleaned valid clean

end Clean

end MemSim
