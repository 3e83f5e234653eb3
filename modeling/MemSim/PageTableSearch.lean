import MemSim.PageTableWalk

/-!
# The run of `CSC369_PageTableSearch`

The search takes the index of the third level modulo 2^24 where the allocation
takes it modulo 2^12.  Its run is determined for every address: it stops out of
bounds exactly when the third-level table of the address exists and bits 24 to
35 of the address are not all zero.
-/

set_option autoImplicit false

namespace MemSim

open Exec

section Search
variable {heap : Heap} {isRoot : Addr → Prop} {root : Addr} {virtualAddress : Nat}

/-- The index the search uses at the third level. -/
def searchIndex3 (virtualAddress : Nat) : Nat := virtualAddress / 2 ^ 12 % 2 ^ 24

theorem searchIndex3_eq_iff : searchIndex3 virtualAddress = allocateIndex3 virtualAddress ↔
    virtualAddress / 2 ^ 24 % 2 ^ 12 = 0 := by
  simp only [searchIndex3, allocateIndex3]
  omega

theorem searchIndex3_lt_iff : searchIndex3 virtualAddress < ptesCount ↔
    virtualAddress / 2 ^ 24 % 2 ^ 12 = 0 := by
  simp only [searchIndex3, ptesCount_eq]
  omega

def Heap.innerTable (heap : Heap) (root virtualAddress : Nat) : Option Addr :=
  heap.trie.tableAt root [allocateIndex1 virtualAddress, allocateIndex2 virtualAddress]

theorem run_readEntry_slot (sound : heap.Sound isRoot) {table index : Nat}
    (inTable : ∃ ptes, heap.table table = some ptes) (bound : index < ptesCount) :
    (readEntry (some table) index).run heap = .ok (heap.trie.slot table index) heap := by
  obtain ⟨ptes, inTable⟩ := inTable
  obtain ⟨slots, array⟩ := sound.table_ptes inTable
  rw [run_readEntry inTable array bound, Heap.slot_eq inTable array]

theorem run_readEntry_outside (sound : heap.Sound isRoot) {table index : Nat}
    (inTable : ∃ ptes, heap.table table = some ptes) (bound : ptesCount ≤ index) :
    (readEntry (some table) index).run heap = .error .outOfBounds heap := by
  obtain ⟨ptes, inTable⟩ := inTable
  obtain ⟨slots, array⟩ := sound.table_ptes inTable
  exact run_readEntry_outOfBounds inTable array bound

theorem run_readChild_slot (sound : heap.Sound isRoot) {table index pte : Nat}
    (inSlot : heap.trie.slot table index = some pte) :
    (readChild (some pte)).run heap = .ok (heap.trie.child pte) heap := by
  obtain ⟨entry, here⟩ := sound.slot_pte inSlot
  exact run_readChild here

theorem pageTableSearch_spec (sound : heap.Sound isRoot) (rootHere : isRoot root)
    (bound : virtualAddress < 2 ^ 48) :
    (pageTableSearch (some root) virtualAddress).run heap =
      match heap.innerTable root virtualAddress with
      | none => .ok none heap
      | some table =>
          if searchIndex3 virtualAddress < ptesCount then
            .ok (heap.trie.slot table (searchIndex3 virtualAddress)) heap
          else .error .outOfBounds heap := by
  have bound1 : allocateIndex1 virtualAddress < ptesCount := by
    simp only [allocateIndex1, ptesCount_eq]
    omega
  have bound2 : allocateIndex2 virtualAddress < ptesCount := Nat.mod_lt _ (by decide)
  simp only [allocateIndex1] at bound1
  simp only [allocateIndex2] at bound2
  have read1 := run_readEntry_slot sound (sound.root_table rootHere) bound1
  have index3 : virtualAddress / 2 ^ 12 % 2 ^ 24 = searchIndex3 virtualAddress := rfl
  simp only [Heap.innerTable, Trie.tableAt, allocateIndex1, allocateIndex2]
  simp only [pageTableSearch, index3, Option.isSome_some, EStateM.run_bind, run_require_true, read1]
  cases slot1 : heap.trie.slot root (virtualAddress / 2 ^ 36) with
  | none => rfl
  | some pte1 =>
      simp only [Option.isNone_some, Bool.false_eq_true, if_false, EStateM.run_bind,
        run_readChild_slot sound slot1]
      cases child1 : heap.trie.child pte1 with
      | none => rfl
      | some table2 =>
          have read2 := run_readEntry_slot sound (sound.child_table child1) bound2
          simp only [Option.isNone_some, Bool.false_eq_true, if_false, EStateM.run_bind, read2]
          cases slot2 : heap.trie.slot table2 (virtualAddress / 2 ^ 24 % 2 ^ 12) with
          | none => rfl
          | some pte2 =>
              simp only [Option.isNone_some, Bool.false_eq_true, if_false, EStateM.run_bind,
                run_readChild_slot sound slot2]
              cases child2 : heap.trie.child pte2 with
              | none => rfl
              | some table3 =>
                  simp only [Option.isNone_some, Bool.false_eq_true, if_false, EStateM.run_bind]
                  by_cases bound3 : searchIndex3 virtualAddress < ptesCount
                  · have read3 := run_readEntry_slot sound (sound.child_table child2) bound3
                    simp only [bound3, if_true, read3]
                    cases slot3 : heap.trie.slot table3 (searchIndex3 virtualAddress) with
                    | none => rfl
                    | some pte3 =>
                        rw [slot3] at read3
                        exact read3
                  · have outside := run_readEntry_outside sound (sound.child_table child2)
                      (Nat.le_of_not_lt bound3)
                    simp only [bound3, if_false, outside]

end Search

end MemSim
