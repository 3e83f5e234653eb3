import Mathlib.Logic.Relation
import MemSim.PolicyContract

/-!
# How a page table is built

A granted `CSC369_PageTableAllocate` is a sequence of single steps: an entry for
an empty slot, or a table below a directory entry.  What comes after it in a
translation changes fields of entries only.
-/

set_option autoImplicit false

namespace MemSim

open Exec Relation

variable (env : Env) {heap after : Heap} {root : Addr}

def Heap.withTable (heap : Heap) (pte : Addr) (entry : PTE) (table ptes : Addr) : Heap :=
  (((heap.setTracker ((heap.tracker.record sizeofPageTable (some table)).record sizeofPtes
    (some ptes))).setPtes ptes fun _ => none).setTable table ptes).setPte pte
      { entry with pageTable := some table }

/-- One granted step below `root`. -/
inductive Heap.BuildStep (root : Addr) (heap : Heap) : Heap → Prop where
  | entry {path : List Nat} {table ptes index pte : Addr} {slots : Nat → Option Addr} :
      heap.trie.tableAt root path = some table → heap.table table = some ptes →
      heap.ptes ptes = some slots → slots index = none →
      mallocAnswer env heap.tracker sizeofPte = some pte →
      Heap.BuildStep root heap (heap.withEntry ptes slots index pte)
  | table {path : List Nat} {index pte table ptes : Addr} {entry : PTE} :
      heap.trie.nodeAt root path index = some pte → heap.pte pte = some entry →
      entry.pageTable = none →
      mallocAnswer env heap.tracker sizeofPageTable = some table →
      mallocAnswer env (heap.tracker.record sizeofPageTable (some table)) sizeofPtes =
        some ptes →
      Heap.BuildStep root heap (heap.withTable pte entry table ptes)

def Heap.SoundStep (root : Addr) (before after : Heap) : Prop :=
  before.Sound (· = root) ∧ before.BuildStep env root after

/-- Steps below `root`, in sound heaps. -/
abbrev Heap.Built (root : Addr) : Heap → Heap → Prop := ReflTransGen (Heap.SoundStep env root)

theorem ensurePte_built (sound : heap.Sound (· = root)) {path : List Nat} {table index : Nat}
    (reached : heap.trie.tableAt root path = some table)
    (inTable : ∃ ptes, heap.table table = some ptes) (bound : index < ptesCount)
    {result : Option Addr} (run : (ensurePte env (some table) index).run heap = .ok result after) :
    result = none ∨ ∃ pte, result = some pte ∧ heap.Built env root after ∧
      after.Sound (· = root) ∧ after.trie.nodeAt root path index = some pte := by
  rcases ensurePte_spec env sound rfl reached inTable bound with
    ⟨pte, after', ext, run', -, -, sound', -, found, -⟩ | ⟨after', ext, run', -⟩
  swap
  · cases run.symm.trans run'
    exact .inl rfl
  cases run.symm.trans run'
  refine .inr ⟨pte, rfl, ?_, sound', found⟩
  obtain ⟨ptes, inTable⟩ := inTable
  obtain ⟨slots, array⟩ := sound.table_ptes inTable
  cases occupied : slots index with
  | some old =>
      cases run.symm.trans (run_ensurePte_present env inTable array bound occupied)
      exact .refl
  | none =>
      cases answer : mallocAnswer env heap.tracker sizeofPte with
      | none => cases run.symm.trans (run_ensurePte_refused env inTable array bound occupied answer)
      | some new =>
          cases run.symm.trans (run_ensurePte_created env inTable array bound occupied answer)
          exact .single ⟨sound, .entry reached inTable array occupied answer⟩

theorem ensureTable_built (sound : heap.Sound (· = root)) {path : List Nat} {index pte : Nat}
    (found : heap.trie.nodeAt root path index = some pte) (directory : path.length < 2)
    {result : Option Addr} (run : (ensureTable env (some pte)).run heap = .ok result after) :
    result = none ∨ ∃ table, result = some table ∧ heap.Built env root after ∧
      after.Sound (· = root) ∧ after.trie.tableAt root (path ++ [index]) = some table := by
  rcases ensureTable_spec env sound rfl found directory with
    ⟨table, after', ext, run', -, -, sound', -, reached, -⟩ | ⟨after', ext, run', -⟩
  swap
  · cases run.symm.trans run'
    exact .inl rfl
  cases run.symm.trans run'
  refine .inr ⟨table, rfl, ?_, sound', reached⟩
  obtain ⟨_, -, inSlot⟩ := Trie.nodeAt_eq_some.mp found
  obtain ⟨entry, here⟩ := sound.slot_pte inSlot
  cases below : entry.pageTable with
  | some old =>
      cases run.symm.trans (run_ensureTable_present env here below)
      exact .refl
  | none =>
      cases answer : mallocAnswer env heap.tracker sizeofPageTable with
      | none =>
          have create := run_pageTableCreate_of_none env answer
          cases run.symm.trans (run_ensureTable_refused env here below create rfl)
      | some new =>
          cases answer' : mallocAnswer env (heap.tracker.record sizeofPageTable (some new))
              sizeofPtes with
          | none =>
              have create := run_pageTableCreate_of_some_none env answer answer'
              cases run.symm.trans (run_ensureTable_refused env here below create rfl)
          | some ptes =>
              have create := run_pageTableCreate_of_some env answer answer'
              cases run.symm.trans (run_ensureTable_created env here below create rfl)
              exact .single ⟨sound, .table found here below answer answer'⟩

theorem pageTableAllocate_built (sound : heap.Sound (· = root)) {virtualAddress : Nat}
    (bound : virtualAddress < 2 ^ 48) {pte : Addr}
    (run : (pageTableAllocate env (some root) virtualAddress).run heap = .ok (some pte) after) :
    heap.Built env root after ∧ after.Sound (· = root) := by
  have bound1 : allocateIndex1 virtualAddress < ptesCount := by
    simp only [allocateIndex1, ptesCount_eq]
    omega
  have bound2 : allocateIndex2 virtualAddress < ptesCount := Nat.mod_lt _ (by decide)
  have bound3 : allocateIndex3 virtualAddress < ptesCount := Nat.mod_lt _ (by decide)
  have child : ∀ {heap : Heap} {path : List Nat} {index table : Nat}, heap.Sound (· = root) →
      heap.trie.tableAt root (path ++ [index]) = some table →
        ∃ ptes, heap.table table = some ptes := by
    intro heap path index table sound reached
    obtain ⟨_, _, -, -, below⟩ := Trie.tableAt_concat_eq_some.mp reached
    exact sound.child_table below
  rw [run_pageTableAllocate] at run
  obtain ⟨table3, heap4, upper, run5⟩ := bind_ok_iff.mp run
  simp only [lowerTable] at upper
  obtain ⟨pte1, heap1, run1, rest1⟩ := bind_ok_iff.mp upper
  obtain ⟨table2, heap2, run2, rest2⟩ := bind_ok_iff.mp rest1
  rcases ensurePte_built env sound (rfl : heap.trie.tableAt root [] = some root)
    (sound.root_table rfl) bound1 run1 with rfl | ⟨pte1, rfl, built1, sound1, found1⟩
  · cases run2.symm.trans (ensureTable_none env heap1)
  obtain ⟨pte2, heap3, run3, run4⟩ := bind_ok_iff.mp rest2
  rcases ensureTable_built env sound1 found1 (by simp) run2 with
    rfl | ⟨table2, rfl, built2, sound2, reached2⟩
  · cases run3.symm.trans (ensurePte_none env _ heap2)
  rcases ensurePte_built env sound2 reached2 (child sound2 reached2) bound2 run3 with
    rfl | ⟨pte2, rfl, built3, sound3, found3⟩
  · cases run4.symm.trans (ensureTable_none env heap3)
  rcases ensureTable_built env sound3 found3 (by simp) run4 with
    rfl | ⟨table3, rfl, built4, sound4, reached4⟩
  · cases run5.symm.trans (ensurePte_none env _ heap4)
  rcases ensurePte_built env sound4 reached4 (child sound4 reached4) bound3 run5 with
    isNone | ⟨pte3, -, built5, sound5, -⟩
  · contradiction
  exact ⟨((((built1.trans built2).trans built3).trans built4).trans built5), sound5⟩

/-! ## Translations -/

section Translations
variable {env} {policy : Policy} {world next : World policy.State} {access : MemAccess}
  {frame : Nat}

theorem mmGetFrameNumber_built (coherent : world.Coherent env root none)
    (run : (mmGetFrameNumber env policy access).run world = .ok frame next) :
    ∃ heap, world.heap.Built env root heap ∧ heap.SameShape next.heap ∧ next.mm = world.mm := by
  have split : (mmGetFrameNumber env policy access).run world =
      (onHeap (pageTableAllocate env (some root) access.virtualAddress) >>=
        mmUseEntry env policy (swapPageIn env) (mmHandleEviction env) access).run world := by
    simp only [mmGetFrameNumber, mmGetFrameNumberWith, EStateM.run_bind, EStateM.run_get,
      coherent.pageTable]
    rfl
  rw [split] at run
  obtain ⟨pte, middle, part, run⟩ := bind_ok_iff.mp run
  obtain ⟨heap, allocate, rfl⟩ := onPart_ok_iff.mp part
  cases pte with
  | none => contradiction
  | some pte =>
      have bound : access.virtualAddress < 2 ^ 48 := by
        by_contra wide
        have outside := pageTableAllocate_outside env coherent.sound rfl (Nat.le_of_not_lt wide)
        cases allocate.symm.trans outside
      obtain ⟨built, -⟩ := pageTableAllocate_built env coherent.sound bound allocate
      have updated := keeps_ok (updates_mmUseEntry env policy access (some pte)) run
      exact ⟨heap, built, updated.heap, updated.mm⟩

theorem translate_built (coherent : world.Coherent env root none)
    (run : (translate env policy access).run world = .ok frame next) :
    ∃ heap, world.heap.Built env root heap ∧ heap.SameShape next.heap ∧ next.mm = world.mm := by
  let rest : Nat → Exec (World policy.State) Nat := fun frameNumber => do
    let frame ← coremapGetFrame env frameNumber
    callPolicy (fun result => .referenced frame result.isSome) (policy.onRef env.memsize frame)
    pure frameNumber
  have split : translate env policy access = mmGetFrameNumber env policy access >>= rest := rfl
  rw [split] at run
  obtain ⟨frame', middle, numbered, run⟩ := bind_ok_iff.mp run
  obtain ⟨heap, built, same, manager⟩ := mmGetFrameNumber_built coherent numbered
  have updates : Updates (rest frame') :=
    updates_bind (updates_bind (updates_require _ _) fun _ => updates_pure _) fun _ =>
      updates_bind (updates_callPolicy (policy.onRef_keeps _ _)) fun _ => updates_pure _
  have updated := keeps_ok updates run
  exact ⟨heap, built, Heap.SameShape.trans _ _ _ same updated.heap, updated.mm.trans manager⟩

theorem Executes.built {β : Type} {step : MemAccess → Exec (World policy.State) β}
    (executes : Executes env policy step) (coherent : world.Coherent env root none) {value : β}
    (run : (step access).run world = .ok value next) :
    ∃ heap, world.heap.Built env root heap ∧ heap.SameShape next.heap ∧ next.mm = world.mm := by
  rcases executes access world with
    ⟨fault, stopped, translated, run'⟩ |
    ⟨frame, middle, translated, run' | ⟨value', physmem, run'⟩⟩
  · cases run.symm.trans run'
  · cases run.symm.trans run'
  · cases run.symm.trans run'
    obtain ⟨heap, built, same, manager⟩ := translate_built coherent translated
    exact ⟨heap, built, same, manager⟩

end Translations

end MemSim
