import Mathlib.Data.Finset.Card
import Mathlib.Data.Finset.Image
import MemSim.HeapBlocks

/-!
# The footprint of a page table

A page table holds one entry for each page that was allocated, and a directory entry
with a table below it for each region of 2^12 pages and each region of 2^24 pages.
An allocation requests what its page adds to them.
-/

set_option autoImplicit false

namespace MemSim

open Exec

/-! ## What a page table holds -/

/-- The entries on the path of a page, and the tables below the first two. -/
def pageNodes (page : Nat) : List (List Nat × Nat) :=
  [([], page / 2 ^ 24), ([page / 2 ^ 24], page / 2 ^ 12 % 2 ^ 12),
    ([page / 2 ^ 24, page / 2 ^ 12 % 2 ^ 12], page % 2 ^ 12)]

def pageTables (page : Nat) : List (List Nat) :=
  [[page / 2 ^ 24], [page / 2 ^ 24, page / 2 ^ 12 % 2 ^ 12]]

/-- The entries and tables below `root` are those of the pages. -/
structure Heap.Charted (heap : Heap) (root : Addr) (pages : Finset Nat) : Prop where
  node : ∀ path index, (heap.trie.nodeAt root path index).isSome = true ↔
    ∃ page ∈ pages, (path, index) ∈ pageNodes page
  table : ∀ path, (heap.trie.tableAt root path).isSome = true ↔
    path = [] ∨ ∃ page ∈ pages, path ∈ pageTables page

/-- The entries and tables that were added below `root`. -/
structure Heap.Adds (root : Addr) (before after : Heap) (nodes : List (List Nat × Nat))
    (tables : List (List Nat)) : Prop where
  node : ∀ path index, (after.trie.nodeAt root path index).isSome = true ↔
    (before.trie.nodeAt root path index).isSome = true ∨ (path, index) ∈ nodes
  table : ∀ path, (after.trie.tableAt root path).isSome = true ↔
    (before.trie.tableAt root path).isSome = true ∨ path ∈ tables

section Adds
variable {root : Addr} {first second third : Heap} {nodes nodes' : List (List Nat × Nat)}
  {tables tables' : List (List Nat)}

theorem Heap.Adds.trans (left : first.Adds root second nodes tables)
    (right : second.Adds root third nodes' tables') :
    first.Adds root third (nodes ++ nodes') (tables ++ tables') where
  node := by
    intro path index
    rw [right.node, left.node, List.mem_append, or_assoc]
  table := by
    intro path
    rw [right.table, left.table, List.mem_append, or_assoc]

theorem Heap.Charted.grow {pages : Finset Nat} {page : Nat}
    (charted : first.Charted root pages)
    (adds : first.Adds root second (pageNodes page) (pageTables page)) :
    second.Charted root (insert page pages) where
  node := by
    intro path index
    rw [adds.node, charted.node, Finset.exists_mem_insert, or_comm]
  table := by
    intro path
    rw [adds.table, charted.table, Finset.exists_mem_insert, or_assoc,
      @or_comm (path ∈ pageTables page)]

end Adds

section Levels
variable (env : Env) {heap after : Heap} {root : Addr} (sound : heap.Sound (· = root))

theorem Heap.Built.tableAt_kept {before after : Heap} (built : before.Built env root after)
    {path : List Nat} {table : Addr} (reached : before.trie.tableAt root path = some table) :
    after.trie.tableAt root path = some table := by
  induction built with
  | refl => exact reached
  | @tail middle _ _ step ih =>
      obtain ⟨sound, step⟩ := step
      cases step with
      | @entry _ table' ptes index pte slots _ inTable array empty answer =>
          obtain ⟨-, -, absent⟩ := granted_absent env sound answer
          have childless : middle.trie.child pte = none := by simp [Heap.trie, absent.1]
          have unused := (Heap.slot_eq inTable array).trans empty
          rw [Heap.trie_withEntry env sound inTable array answer,
            Trie.tableAt_fillSlot unused childless]
          exact ih
      | @table _ _ pte table' ptes entry found here below answer answer' =>
          obtain ⟨freshTable, freshPtes, -⟩ := Heap.granted_table env sound answer answer'
          have childless : middle.trie.child pte = none := by simp [Heap.trie, here, below]
          have empty : ∀ index, middle.trie.slot table' index = none := by
            intro index
            simp [Heap.trie, freshTable.2.1]
          rw [Heap.trie_withTable sound freshTable.2.1 freshPtes.2.2]
          exact Trie.tableAt_hangTable_of_some childless empty ih

include sound

theorem ensurePte_adds {path : List Nat} {table index : Nat}
    (reached : heap.trie.tableAt root path = some table)
    (inTable : ∃ ptes, heap.table table = some ptes) (bound : index < ptesCount)
    {result : Option Addr} (run : (ensurePte env (some table) index).run heap = .ok result after) :
    result = none ∨ ∃ pte, result = some pte ∧ after.Sound (· = root) ∧
      after.trie.nodeAt root path index = some pte ∧ heap.Adds root after [(path, index)] [] := by
  rcases ensurePte_spec env sound rfl reached inTable bound with
    ⟨pte, after', ext, run', -, -, sound', -, found, others, -, -, tables⟩ | ⟨after', ext, run', -⟩
  swap
  · cases run.symm.trans run'
    exact .inl rfl
  cases run.symm.trans run'
  refine .inr ⟨pte, rfl, sound', found, ⟨fun path' index' => ?_, fun path' => ?_⟩⟩
  · rw [List.mem_singleton, Prod.mk.injEq]
    by_cases same : path' = path ∧ index' = index
    · simp [same, found]
    · rw [others root path' index' rfl fun both => same both.2]
      simp [same]
  · rw [tables]
    simp

theorem ensureTable_adds {path : List Nat} {index pte : Nat}
    (found : heap.trie.nodeAt root path index = some pte) (directory : path.length < 2)
    {result : Option Addr} (run : (ensureTable env (some pte)).run heap = .ok result after) :
    result = none ∨ ∃ table, result = some table ∧ after.Sound (· = root) ∧
      after.trie.tableAt root (path ++ [index]) = some table ∧
        heap.Adds root after [] [path ++ [index]] := by
  rcases ensureTable_built env sound found directory run with
    rfl | ⟨table, rfl, built, sound', reached⟩
  · exact .inl rfl
  rcases ensureTable_spec env sound rfl found directory with
    ⟨table', after', ext, run', -, -, -, -, -, nodes, -, tables⟩ | ⟨after', ext, run', -⟩
  swap
  · cases run.symm.trans run'
  cases run.symm.trans run'
  refine .inr ⟨table, rfl, sound', reached, ⟨fun path' index' => ?_, fun path' => ?_⟩⟩
  · rw [nodes]
    simp
  · rw [List.mem_singleton]
    constructor
    · intro present
      obtain ⟨t, there⟩ := Option.isSome_iff_exists.mp present
      rcases tables root path' t rfl there with old | ⟨-, same⟩
      · exact .inl (Option.isSome_iff_exists.mpr ⟨t, old⟩)
      · exact .inr same
    · rintro (present | rfl)
      · obtain ⟨t, there⟩ := Option.isSome_iff_exists.mp present
        exact Option.isSome_iff_exists.mpr ⟨t, built.tableAt_kept env there⟩
      · rw [reached]
        rfl

theorem lowerTable_adds {virtualAddress : Nat} (bound : virtualAddress < 2 ^ 48) {table : Addr}
    (run : (lowerTable env (some root) virtualAddress).run heap = .ok (some table) after) :
    heap.Adds root after
      [([], allocateIndex1 virtualAddress),
        ([allocateIndex1 virtualAddress], allocateIndex2 virtualAddress)]
      [[allocateIndex1 virtualAddress],
        [allocateIndex1 virtualAddress, allocateIndex2 virtualAddress]] := by
  have bound1 : allocateIndex1 virtualAddress < ptesCount := by
    simp only [allocateIndex1, ptesCount_eq]
    omega
  have bound2 : allocateIndex2 virtualAddress < ptesCount := Nat.mod_lt _ (by decide)
  simp only [lowerTable] at run
  obtain ⟨pte1, heap1, run1, rest1⟩ := bind_ok_iff.mp run
  obtain ⟨table2, heap2, run2, rest2⟩ := bind_ok_iff.mp rest1
  rcases ensurePte_adds env sound (rfl : heap.trie.tableAt root [] = some root)
    (sound.root_table rfl) bound1 run1 with rfl | ⟨pte1, rfl, sound1, found1, adds1⟩
  · cases run2.symm.trans (ensureTable_none env heap1)
  obtain ⟨pte2, heap3, run3, run4⟩ := bind_ok_iff.mp rest2
  rcases ensureTable_adds env sound1 found1 (by simp) run2 with
    rfl | ⟨table2, rfl, sound2, reached2, adds2⟩
  · cases run3.symm.trans (ensurePte_none env _ heap2)
  have inTable : ∃ ptes, heap2.table table2 = some ptes := by
    obtain ⟨_, _, -, -, below⟩ := Trie.tableAt_concat_eq_some.mp reached2
    exact sound2.child_table below
  rcases ensurePte_adds env sound2 reached2 inTable bound2 run3 with
    rfl | ⟨pte2, rfl, sound3, found3, adds3⟩
  · cases run4.symm.trans (ensureTable_none env heap3)
  rcases ensureTable_adds env sound3 found3 (by simp) run4 with
    isNone | ⟨table3, -, -, -, adds4⟩
  · contradiction
  exact ((adds1.trans adds2).trans adds3).trans adds4

end Levels

/-! ## One allocation -/

def Heap.requests (heap : Heap) (root virtualAddress : Nat) : List Nat :=
  heap.pathRequests root virtualAddress ++
    heap.entryRequests root [allocateIndex1 virtualAddress, allocateIndex2 virtualAddress]
      (allocateIndex3 virtualAddress)

theorem allocateIndex_page (virtualAddress : Nat) :
    allocateIndex1 virtualAddress = pageNumber virtualAddress / 2 ^ 24 ∧
      allocateIndex2 virtualAddress = pageNumber virtualAddress / 2 ^ 12 % 2 ^ 12 ∧
      allocateIndex3 virtualAddress = pageNumber virtualAddress % 2 ^ 12 := by
  simp only [pageNumber, pageSize_eq, allocateIndex1, allocateIndex2, allocateIndex3]
  omega

section Allocation
variable (env : Env) {heap : Heap} {root : Addr}

theorem pageTableAllocate_requests (sound : heap.Sound (· = root)) {virtualAddress : Nat}
    (bound : virtualAddress < 2 ^ 48) :
    (∃ pte after, (pageTableAllocate env (some root) virtualAddress).run heap =
        .ok (some pte) after ∧ Granted env heap.tracker (heap.requests root virtualAddress) ∧
      after.tracker = heap.tracker.grant env (heap.requests root virtualAddress) ∧
      heap.Adds root after (pageNodes (pageNumber virtualAddress))
        (pageTables (pageNumber virtualAddress))) ∨
    (¬ Granted env heap.tracker (heap.requests root virtualAddress) ∧ ∀ pte after,
      (pageTableAllocate env (some root) virtualAddress).run heap ≠ .ok (some pte) after) := by
  have bound3 : allocateIndex3 virtualAddress < ptesCount := Nat.mod_lt _ (by decide)
  rw [run_pageTableAllocate, Heap.requests, granted_append]
  rcases lowerTable_spec env sound rfl bound with
    ⟨table, middle, ext, run, -, -, granted, tracker, extended⟩ | ⟨refused, after, ext, run, -⟩
  swap
  · refine .inr ⟨fun both => refused both.1, fun pte last returned => ?_⟩
    rcases run with run | run
    · rw [run_bind_of_ok run, ensurePte_none] at returned
      contradiction
    · rw [run_bind_of_error run] at returned
      contradiction
  have inTable : ∃ ptes, middle.table table = some ptes := by
    obtain ⟨_, _, -, -, below⟩ :=
      (@Trie.tableAt_concat_eq_some _ _ _ _ _ [_] _ _).mp extended.reached
    exact extended.sound.child_table below
  have sameRequests : middle.entryRequests root [allocateIndex1 virtualAddress,
      allocateIndex2 virtualAddress] (allocateIndex3 virtualAddress) =
        heap.entryRequests root [allocateIndex1 virtualAddress, allocateIndex2 virtualAddress]
          (allocateIndex3 virtualAddress) := by
    rw [Heap.entryRequests, Heap.entryRequests, extended.leaves root _ _ _ rfl]
  rw [run_bind_of_ok run, ← tracker]
  rcases ensurePte_spec env extended.sound rfl extended.reached inTable bound3 with
    ⟨pte, after, -, run', -⟩ | ⟨after, -, run', -⟩
  · obtain ⟨granted', tracker', -⟩ := ensurePte_requests env extended.sound extended.reached
      inTable bound3 run'
    rcases ensurePte_adds env extended.sound extended.reached inTable bound3 run' with
      isNone | ⟨_, -, -, -, adds⟩
    · contradiction
    refine .inl ⟨pte, after, run', ⟨granted, ?_⟩, ?_, ?_⟩
    · rw [← sameRequests]
      exact granted'.mp rfl
    · rw [Tracker.grant_append, ← tracker, ← sameRequests, tracker']
    · obtain ⟨first, second, third⟩ := allocateIndex_page virtualAddress
      rw [pageNodes, pageTables, ← first, ← second, ← third]
      exact (lowerTable_adds env sound bound run).trans adds
  · obtain ⟨granted', -, -⟩ := ensurePte_requests env extended.sound extended.reached inTable
      bound3 run'
    refine .inr ⟨fun both => ?_, fun pte last returned => ?_⟩
    · rw [← sameRequests] at both
      exact Bool.false_ne_true (granted'.mpr both.2)
    · cases run'.symm.trans returned

end Allocation

/-! ## The bytes -/

def tableBytes : Nat := sizeofPageTable + sizeofPtes

/-- The regions of `2 ^ width` pages that the pages lie in. -/
def regions (width : Nat) (pages : Finset Nat) : Finset Nat := pages.image (· / 2 ^ width)

/-- The bytes requested for the manager, its page table, and the pages. -/
def footprint (pages : Finset Nat) : Nat :=
  sizeofMM + tableBytes +
    ((regions 24 pages).card + (regions 12 pages).card) * (sizeofPte + tableBytes) +
    pages.card * sizeofPte

theorem card_regions_insert (width page : Nat) (pages : Finset Nat) :
    (regions width (insert page pages)).card =
      (regions width pages).card + if page / 2 ^ width ∈ regions width pages then 0 else 1 := by
  rw [regions, Finset.image_insert, Finset.card_insert_eq_ite]
  by_cases known : page / 2 ^ width ∈ regions width pages
  · rw [if_pos known]
    exact if_pos known
  · rw [if_neg known]
    exact if_neg known

theorem footprint_mono {pages pages' : Finset Nat} (subset : pages ⊆ pages') :
    footprint pages ≤ footprint pages' := by
  have wide := Finset.card_le_card (Finset.image_subset_image (f := (· / 2 ^ 24)) subset)
  have narrow := Finset.card_le_card (Finset.image_subset_image (f := (· / 2 ^ 12)) subset)
  have count := Finset.card_le_card subset
  have directory := Nat.mul_le_mul_right (sizeofPte + tableBytes) (Nat.add_le_add wide narrow)
  have leaves := Nat.mul_le_mul_right sizeofPte count
  unfold footprint regions
  omega

section Charted
variable {heap : Heap} {root : Addr} {pages : Finset Nat}

theorem Heap.Charted.entries_iff (charted : heap.Charted root pages) (page : Nat) :
    ((heap.trie.nodeAt root [] (page / 2 ^ 24)).isSome = true ↔
        page / 2 ^ 24 ∈ regions 24 pages) ∧
      ((heap.trie.nodeAt root [page / 2 ^ 24] (page / 2 ^ 12 % 2 ^ 12)).isSome = true ↔
        page / 2 ^ 12 ∈ regions 12 pages) ∧
      ((heap.trie.nodeAt root [page / 2 ^ 24, page / 2 ^ 12 % 2 ^ 12] (page % 2 ^ 12)).isSome =
        true ↔ page ∈ pages) := by
  rw [charted.node, charted.node, charted.node]
  simp only [pageNodes, regions, Finset.mem_image, List.mem_cons, Prod.mk.injEq,
    List.cons.injEq, List.not_mem_nil, List.nil_eq, reduceCtorEq, and_true, true_and, false_and,
    and_false, or_false, false_or]
  refine ⟨?_, ?_, ?_⟩
  · simp only [eq_comm]
  · constructor
    · rintro ⟨other, member, high, low⟩
      exact ⟨other, member, by omega⟩
    · rintro ⟨other, member, same⟩
      exact ⟨other, member, by omega, by omega⟩
  · constructor
    · rintro ⟨other, member, ⟨high, low⟩, last⟩
      rwa [show page = other from by omega]
    · intro member
      exact ⟨page, member, ⟨rfl, rfl⟩, rfl⟩

theorem Heap.Charted.tables_iff (charted : heap.Charted root pages) (page : Nat) :
    ((heap.trie.tableAt root [page / 2 ^ 24]).isSome = true ↔
        page / 2 ^ 24 ∈ regions 24 pages) ∧
      ((heap.trie.tableAt root [page / 2 ^ 24, page / 2 ^ 12 % 2 ^ 12]).isSome = true ↔
        page / 2 ^ 12 ∈ regions 12 pages) := by
  rw [charted.table, charted.table]
  simp only [pageTables, regions, Finset.mem_image, List.mem_cons, List.cons.injEq,
    List.not_mem_nil, reduceCtorEq, and_true, and_false, or_false, false_or]
  refine ⟨?_, ?_⟩
  · simp only [eq_comm]
  · constructor
    · rintro ⟨other, member, high, low⟩
      exact ⟨other, member, by omega⟩
    · rintro ⟨other, member, same⟩
      exact ⟨other, member, by omega, by omega⟩

theorem Heap.Charted.requests_sum (charted : heap.Charted root pages) (virtualAddress : Nat) :
    footprint pages + (heap.requests root virtualAddress).sum =
      footprint (insert (pageNumber virtualAddress) pages) := by
  obtain ⟨first, second, third⟩ := allocateIndex_page virtualAddress
  rw [Heap.requests, Heap.pathRequests, first, second, third]
  generalize pageNumber virtualAddress = page
  obtain ⟨entry1, entry2, entry3⟩ := charted.entries_iff page
  obtain ⟨table1, table2⟩ := charted.tables_iff page
  have count : (insert page pages).card = pages.card + if page ∈ pages then 0 else 1 := by
    rw [Finset.card_insert_eq_ite]
    split <;> rfl
  simp only [Heap.entryRequests, Heap.tableRequests, entry1, entry2, entry3, table1, table2,
    List.sum_append, footprint, card_regions_insert, count, Nat.add_mul]
  split <;> split <;> split <;> simp [tableBytes] <;> omega

end Charted

end MemSim
