import MemSim.PageTableWalk

/-!
# `CSC369_PageTableDestroy`

Destroying a page table erases what belongs to its root: its tables, their
arrays and the entries in them.  The recursion is followed in the heap it
started from: as long as only such objects have been erased, every pointer the
code reads is the one that heap held.
-/

set_option autoImplicit false

namespace MemSim

open Exec

/-! ## Freeing a block -/

theorem csc369Free_ok {ptr : Option Addr} {tracker after : Tracker}
    (run : (csc369Free ptr).run tracker = .ok () after) :
    after.log = tracker.log ++ [.free ptr] ∧
      ∀ addr, ptr ≠ some addr → after.mallocMap addr = tracker.mallocMap addr := by
  simp only [csc369Free] at run
  obtain ⟨_, logged, step, run⟩ := bind_ok_iff.mp run
  simp only [EStateM.run_modify, EStateM.Result.ok.injEq] at step
  obtain ⟨-, rfl⟩ := step
  cases ptr with
  | none =>
      simp only [EStateM.run_pure, EStateM.Result.ok.injEq, true_and] at run
      subst run
      exact ⟨rfl, fun _ _ => rfl⟩
  | some p =>
      obtain ⟨_, _, step, run⟩ := bind_ok_iff.mp run
      simp only [EStateM.run_get, EStateM.Result.ok.injEq] at step
      obtain ⟨rfl, rfl⟩ := step
      split at run
      · simp at run
      · rename_i size known
        obtain ⟨_, _, step, run⟩ := bind_ok_iff.mp run
        obtain ⟨-, rfl⟩ := require_ok_iff.mp step
        obtain ⟨_, _, step, run⟩ := bind_ok_iff.mp run
        obtain ⟨-, rfl⟩ := require_ok_iff.mp step
        obtain ⟨_, _, step, run⟩ := bind_ok_iff.mp run
        obtain ⟨-, rfl⟩ := require_ok_iff.mp step
        obtain ⟨_, _, step, run⟩ := bind_ok_iff.mp run
        obtain ⟨-, rfl⟩ := require_ok_iff.mp step
        obtain ⟨_, _, step, run⟩ := bind_ok_iff.mp run
        simp only [EStateM.run_modify, EStateM.Result.ok.injEq, true_and] at step
        subst step
        obtain ⟨_, _, step, run⟩ := bind_ok_iff.mp run
        obtain ⟨-, rfl⟩ := require_ok_iff.mp step
        simp only [EStateM.run_modify, EStateM.Result.ok.injEq, true_and] at run
        subst run
        refine ⟨rfl, fun addr other => ?_⟩
        have apart : addr ≠ p := fun same => other (by rw [same])
        simp [Function.update_of_ne apart]

def Heap.Empty (heap : Heap) (addr : Addr) : Prop :=
  heap.pte addr = none ∧ heap.table addr = none ∧ heap.ptes addr = none

/-- Objects may be gone from the addresses `gone`, where blocks may have been
freed; every other object is as it was, and no request has been refused. -/
structure Heap.Pruned (before after : Heap) (gone : Addr → Prop) : Prop where
  pte : ∀ addr, after.pte addr = before.pte addr ∨ gone addr ∧ after.pte addr = none
  table : ∀ addr, after.table addr = before.table addr ∨ gone addr ∧ after.table addr = none
  ptes : ∀ addr, after.ptes addr = before.ptes addr ∨ gone addr ∧ after.ptes addr = none
  live : ∀ addr, ¬ gone addr → after.tracker.live addr = before.tracker.live addr
  log : ∃ ext, after.tracker.log = before.tracker.log ++ ext ∧ AllocationsSucceed ext

namespace Heap.Pruned

variable {first second third before after : Heap} {gone more : Addr → Prop}

theorem refl (heap : Heap) (gone : Addr → Prop) : heap.Pruned heap gone where
  pte := fun _ => .inl rfl
  table := fun _ => .inl rfl
  ptes := fun _ => .inl rfl
  live := fun _ _ => rfl
  log := ⟨[], by simp, allocationsSucceed_nil⟩

theorem trans (left : first.Pruned second gone) (right : second.Pruned third gone) :
    first.Pruned third gone where
  pte := by
    intro addr
    rcases right.pte addr with same | removed
    · rcases left.pte addr with same' | ⟨here, none'⟩
      · exact .inl (same.trans same')
      · exact .inr ⟨here, same.trans none'⟩
    · exact .inr removed
  table := by
    intro addr
    rcases right.table addr with same | removed
    · rcases left.table addr with same' | ⟨here, none'⟩
      · exact .inl (same.trans same')
      · exact .inr ⟨here, same.trans none'⟩
    · exact .inr removed
  ptes := by
    intro addr
    rcases right.ptes addr with same | removed
    · rcases left.ptes addr with same' | ⟨here, none'⟩
      · exact .inl (same.trans same')
      · exact .inr ⟨here, same.trans none'⟩
    · exact .inr removed
  live := fun addr kept => (right.live addr kept).trans (left.live addr kept)
  log := by
    obtain ⟨ext, log, succeed⟩ := left.log
    obtain ⟨ext', log', succeed'⟩ := right.log
    exact ⟨ext ++ ext', by rw [log', log, List.append_assoc],
      allocationsSucceed_append.mpr ⟨succeed, succeed'⟩⟩

theorem mono (pruned : before.Pruned after gone) (wider : ∀ addr, gone addr → more addr) :
    before.Pruned after more where
  pte := fun addr => (pruned.pte addr).imp_right fun removed => ⟨wider addr removed.1, removed.2⟩
  table := fun addr => (pruned.table addr).imp_right fun removed => ⟨wider addr removed.1, removed.2⟩
  ptes := fun addr => (pruned.ptes addr).imp_right fun removed => ⟨wider addr removed.1, removed.2⟩
  live := fun addr kept => pruned.live addr fun here => kept (wider addr here)
  log := pruned.log

theorem empty (pruned : before.Pruned after gone) {addr : Addr} (empty : before.Empty addr) :
    after.Empty addr := by
  refine ⟨?_, ?_, ?_⟩
  · rcases pruned.pte addr with same | removed
    · rw [same, empty.1]
    · exact removed.2
  · rcases pruned.table addr with same | removed
    · rw [same, empty.2.1]
    · exact removed.2
  · rcases pruned.ptes addr with same | removed
    · rw [same, empty.2.2]
    · exact removed.2

theorem pte_eq (pruned : before.Pruned after gone) {addr : Addr} {entry : PTE}
    (here : after.pte addr = some entry) : before.pte addr = some entry := by
  rcases pruned.pte addr with same | ⟨-, none'⟩
  · rw [← same, here]
  · rw [none'] at here
    contradiction

theorem table_eq (pruned : before.Pruned after gone) {addr ptes : Addr}
    (here : after.table addr = some ptes) : before.table addr = some ptes := by
  rcases pruned.table addr with same | ⟨-, none'⟩
  · rw [← same, here]
  · rw [none'] at here
    contradiction

theorem ptes_eq (pruned : before.Pruned after gone) {addr : Addr} {slots : Nat → Option Addr}
    (here : after.ptes addr = some slots) : before.ptes addr = some slots := by
  rcases pruned.ptes addr with same | ⟨-, none'⟩
  · rw [← same, here]
  · rw [none'] at here
    contradiction

theorem table_none (pruned : before.Pruned after gone) {addr : Addr}
    (absent : before.table addr = none) : after.table addr = none := by
  rcases pruned.table addr with same | removed
  · rw [same, absent]
  · exact removed.2

theorem ptes_none (pruned : before.Pruned after gone) {addr : Addr}
    (absent : before.ptes addr = none) : after.ptes addr = none := by
  rcases pruned.ptes addr with same | removed
  · rw [same, absent]
  · exact removed.2

end Heap.Pruned

theorem heapFree_ok {heap after : Heap} {addr : Addr}
    (run : (heapFree (some addr)).run heap = .ok () after) :
    heap.Pruned after (· = addr) ∧ after.Empty addr := by
  simp only [heapFree] at run
  obtain ⟨_, freed, step, run⟩ := bind_ok_iff.mp run
  obtain ⟨tracker, free, rfl⟩ := onPart_ok_iff.mp step
  simp only [EStateM.run_modify, EStateM.Result.ok.injEq, true_and] at run
  subst run
  obtain ⟨log, others⟩ := csc369Free_ok free
  refine ⟨⟨?_, ?_, ?_, ?_, ?_⟩, by simp [Heap.Empty, Heap.erase]⟩
  · intro other
    by_cases same : other = addr
    · exact .inr ⟨same, by simp [Heap.erase, same]⟩
    · exact .inl (by simp [Heap.erase, Heap.setTracker, Function.update_of_ne same])
  · intro other
    by_cases same : other = addr
    · exact .inr ⟨same, by simp [Heap.erase, same]⟩
    · exact .inl (by simp [Heap.erase, Heap.setTracker, Function.update_of_ne same])
  · intro other
    by_cases same : other = addr
    · exact .inr ⟨same, by simp [Heap.erase, same]⟩
    · exact .inl (by simp [Heap.erase, Heap.setTracker, Function.update_of_ne same])
  · intro other apart
    have kept := others other fun same => apart (Option.some.inj same).symm
    simp [Heap.erase, Heap.setTracker, Tracker.live, kept]
  · exact ⟨[.free (some addr)], log, by simp [AllocationsSucceed, AllocEvent.refused]⟩

/-! ## Reading back -/

theorem readTable_ok {heap after : Heap} {table ptes : Addr}
    (run : (readTable (some table)).run heap = .ok ptes after) :
    heap = after ∧ heap.table table = some ptes := by
  simp only [readTable] at run
  obtain ⟨_, _, step, run⟩ := bind_ok_iff.mp run
  simp only [EStateM.run_get, EStateM.Result.ok.injEq] at step
  obtain ⟨rfl, rfl⟩ := step
  split at run
  · simp at run
  · rename_i here
    simp only [EStateM.run_pure, EStateM.Result.ok.injEq] at run
    obtain ⟨rfl, rfl⟩ := run
    exact ⟨rfl, here⟩

theorem readEntry_ok {heap after : Heap} {table index : Addr} {pte : Option Addr}
    (run : (readEntry (some table) index).run heap = .ok pte after) :
    heap = after ∧ ∃ ptes slots, heap.table table = some ptes ∧ heap.ptes ptes = some slots ∧
      slots index = pte := by
  simp only [readEntry] at run
  obtain ⟨ptes, _, step, run⟩ := bind_ok_iff.mp run
  obtain ⟨rfl, inTable⟩ := readTable_ok step
  obtain ⟨slots, _, step, run⟩ := bind_ok_iff.mp run
  simp only [EStateM.run_pure, EStateM.Result.ok.injEq] at run
  obtain ⟨same, rfl⟩ := run
  simp only [readArray] at step
  obtain ⟨_, _, step', step⟩ := bind_ok_iff.mp step
  simp only [EStateM.run_get, EStateM.Result.ok.injEq] at step'
  obtain ⟨rfl, rfl⟩ := step'
  split at step
  · simp at step
  · rename_i here
    obtain ⟨_, _, guard, step⟩ := bind_ok_iff.mp step
    obtain ⟨-, rfl⟩ := require_ok_iff.mp guard
    simp only [EStateM.run_pure, EStateM.Result.ok.injEq] at step
    obtain ⟨rfl, rfl⟩ := step
    exact ⟨rfl, ptes, _, inTable, here, same⟩

theorem readChild_ok {heap after : Heap} {pte : Addr} {pageTable : Option Addr}
    (run : (readChild (some pte)).run heap = .ok pageTable after) :
    heap = after ∧ ∃ entry, heap.pte pte = some entry ∧ entry.pageTable = pageTable := by
  simp only [readChild] at run
  obtain ⟨entry, _, step, run⟩ := bind_ok_iff.mp run
  simp only [EStateM.run_pure, EStateM.Result.ok.injEq] at run
  obtain ⟨same, rfl⟩ := run
  simp only [readPte] at step
  obtain ⟨_, _, step', step⟩ := bind_ok_iff.mp step
  simp only [EStateM.run_get, EStateM.Result.ok.injEq] at step'
  obtain ⟨rfl, rfl⟩ := step'
  split at step
  · simp at step
  · rename_i here
    simp only [EStateM.run_pure, EStateM.Result.ok.injEq] at step
    obtain ⟨rfl, rfl⟩ := step
    exact ⟨rfl, _, here, same⟩

/-! ## What belongs to a table -/

/-- The objects below a table: the tables reached from it, their arrays and the
entries in their slots. -/
def Heap.Owned (heap : Heap) (root addr : Addr) : Prop :=
  ∃ path, heap.trie.tableAt root path = some addr ∨
    (∃ table, heap.trie.tableAt root path = some table ∧ heap.table table = some addr) ∨
    ∃ index, heap.trie.nodeAt root path index = some addr

section Owned
variable {heap : Heap} {table addr : Addr}

theorem Heap.Owned.self (heap : Heap) (table : Addr) : heap.Owned table table :=
  ⟨[], .inl rfl⟩

theorem Heap.Owned.array {ptes : Addr} (inTable : heap.table table = some ptes) :
    heap.Owned table ptes := ⟨[], .inr (.inl ⟨table, rfl, inTable⟩)⟩

theorem Heap.Owned.node {index pte : Nat} (inSlot : heap.trie.slot table index = some pte) :
    heap.Owned table pte :=
  ⟨[], .inr (.inr ⟨index, Trie.nodeAt_eq_some.mpr ⟨table, rfl, inSlot⟩⟩)⟩

theorem Heap.Owned.below {index pte next : Nat} (inSlot : heap.trie.slot table index = some pte)
    (hung : heap.trie.child pte = some next) (owned : heap.Owned next addr) :
    heap.Owned table addr := by
  have extend : ∀ {path last}, heap.trie.tableAt next path = some last →
      heap.trie.tableAt table (index :: path) = some last := fun reached =>
    Trie.tableAt_cons_eq_some.mpr ⟨pte, next, inSlot, hung, reached⟩
  obtain ⟨path, reached | ⟨last, reached, inTable⟩ | ⟨last, found⟩⟩ := owned
  · exact ⟨index :: path, .inl (extend reached)⟩
  · exact ⟨index :: path, .inr (.inl ⟨last, extend reached, inTable⟩)⟩
  · obtain ⟨inner, reached, inSlot'⟩ := Trie.nodeAt_eq_some.mp found
    exact ⟨index :: path, .inr (.inr ⟨last, Trie.nodeAt_eq_some.mpr ⟨inner, extend reached, inSlot'⟩⟩)⟩

/-- An object below a table is the table, its array, an entry in it, or below one
of its entries. -/
theorem Heap.Owned.cases (owned : heap.Owned table addr) :
    addr = table ∨ heap.table table = some addr ∨
      ∃ index pte, heap.trie.slot table index = some pte ∧
        (addr = pte ∨ ∃ next, heap.trie.child pte = some next ∧ heap.Owned next addr) := by
  obtain ⟨path, here⟩ := owned
  cases path with
  | nil =>
      rcases here with reached | ⟨last, reached, inTable⟩ | ⟨index, found⟩
      · exact .inl (Option.some.inj reached).symm
      · cases Option.some.inj reached
        exact .inr (.inl inTable)
      · obtain ⟨inner, reached, inSlot⟩ := Trie.nodeAt_eq_some.mp found
        cases Option.some.inj reached
        exact .inr (.inr ⟨index, addr, inSlot, .inl rfl⟩)
  | cons index path =>
      right
      right
      rcases here with reached | ⟨last, reached, inTable⟩ | ⟨last, found⟩
      · obtain ⟨pte, next, inSlot, hung, reached⟩ := Trie.tableAt_cons_eq_some.mp reached
        exact ⟨index, pte, inSlot, .inr ⟨next, hung, path, .inl reached⟩⟩
      · obtain ⟨pte, next, inSlot, hung, reached⟩ := Trie.tableAt_cons_eq_some.mp reached
        exact ⟨index, pte, inSlot, .inr ⟨next, hung, path, .inr (.inl ⟨last, reached, inTable⟩)⟩⟩
      · obtain ⟨inner, reached, inSlot'⟩ := Trie.nodeAt_eq_some.mp found
        obtain ⟨pte, next, inSlot, hung, reached⟩ := Trie.tableAt_cons_eq_some.mp reached
        exact ⟨index, pte, inSlot, .inr ⟨next, hung, path,
          .inr (.inr ⟨last, Trie.nodeAt_eq_some.mpr ⟨inner, reached, inSlot'⟩⟩)⟩⟩

end Owned

/-! ## The recursion -/

section Recursion
variable {start heap after : Heap} {gone : Addr → Prop}

theorem Heap.Pruned.slot_eq (pruned : start.Pruned heap gone) {table index : Addr}
    {pte : Option Addr} {middle : Heap}
    (run : (readEntry (some table) index).run heap = .ok pte middle) :
    heap = middle ∧ start.trie.slot table index = pte := by
  obtain ⟨same, ptes, slots, inTable, array, slot⟩ := readEntry_ok run
  refine ⟨same, ?_⟩
  rw [Heap.slot_eq (pruned.table_eq inTable) (pruned.ptes_eq array), slot]

theorem Heap.Pruned.child_eq (pruned : start.Pruned heap gone) {pte : Addr}
    {pageTable : Option Addr} {middle : Heap}
    (run : (readChild (some pte)).run heap = .ok pageTable middle) :
    heap = middle ∧ start.trie.child pte = pageTable := by
  obtain ⟨same, entry, here, child⟩ := readChild_ok run
  refine ⟨same, ?_⟩
  simp [Heap.trie, pruned.pte_eq here, child]

/-- What destroying a table does, as the induction over the depth needs it. -/
def Destroys (start : Heap) (destroy : Option Addr → Exec Heap Unit) : Prop :=
  ∀ {table : Addr} {gone : Addr → Prop} {heap after : Heap},
    (∀ addr, start.Owned table addr → gone addr) → start.Pruned heap gone →
    (destroy (some table)).run heap = .ok () after →
    heap.Pruned after gone ∧ ∀ addr, start.Owned table addr → after.Empty addr

/-- `CSC369_PTEDestroy` erases the entry and what is below it. -/
theorem pteDestroy_ok {destroy : Option Addr → Exec Heap Unit} (destroys : Destroys start destroy)
    {pte : Addr} (here : gone pte)
    (below : ∀ next, start.trie.child pte = some next → ∀ addr, start.Owned next addr → gone addr)
    (pruned : start.Pruned heap gone)
    (run : (pteDestroy destroy (some pte)).run heap = .ok () after) :
    heap.Pruned after gone ∧ after.Empty pte ∧
      ∀ next, start.trie.child pte = some next → ∀ addr, start.Owned next addr →
        after.Empty addr := by
  simp only [pteDestroy] at run
  obtain ⟨pageTable, _, step, run⟩ := bind_ok_iff.mp run
  obtain ⟨rfl, child⟩ := pruned.child_eq step
  have freed : ∀ {middle : Heap}, (heapFree (some pte)).run middle = .ok () after →
      middle.Pruned after gone ∧ after.Empty pte := by
    intro middle free
    obtain ⟨pruned, empty⟩ := heapFree_ok free
    exact ⟨pruned.mono fun addr same => same ▸ here, empty⟩
  cases pageTable with
  | none =>
      obtain ⟨prunedAfter, empty⟩ := freed run
      refine ⟨prunedAfter, empty, fun next hung => ?_⟩
      rw [child] at hung
      contradiction
  | some next =>
      simp only [Option.isSome_some, if_true] at run
      obtain ⟨_, middle, step, run⟩ := bind_ok_iff.mp run
      obtain ⟨prunedMiddle, emptyBelow⟩ := destroys (below next child) pruned step
      obtain ⟨prunedAfter, empty⟩ := freed run
      refine ⟨prunedMiddle.trans prunedAfter, empty, fun next' hung addr owned => ?_⟩
      rw [child] at hung
      cases Option.some.inj hung
      exact prunedAfter.empty (emptyBelow addr owned)

/-- One slot of the loop of `CSC369_PageTableDestroy`. -/
def destroySlot (destroy : Option Addr → Exec Heap Unit) (pageTable : Option Addr) (index : Nat) :
    Exec Heap Unit := do
  let pte ← readEntry pageTable index
  if pte.isSome then
    pteDestroy destroy pte

theorem destroySlots_ok {destroy : Option Addr → Exec Heap Unit} (destroys : Destroys start destroy)
    {table : Addr} (owned : ∀ addr, start.Owned table addr → gone addr) {first count : Nat}
    {heap : Heap} (pruned : start.Pruned heap gone)
    (run : (forRange (destroySlot destroy (some table)) first count).run heap = .ok () after) :
    heap.Pruned after gone ∧ ∀ index pte, first ≤ index → index < first + count →
      start.trie.slot table index = some pte → after.Empty pte ∧
        ∀ next, start.trie.child pte = some next → ∀ addr, start.Owned next addr →
          after.Empty addr := by
  induction count generalizing first heap with
  | zero =>
      simp only [forRange, EStateM.run_pure, EStateM.Result.ok.injEq, true_and] at run
      subst run
      exact ⟨Heap.Pruned.refl heap gone, by omega⟩
  | succ count ih =>
      simp only [forRange] at run
      obtain ⟨_, middle, step, run⟩ := bind_ok_iff.mp run
      have here : heap.Pruned middle gone ∧ ∀ pte, start.trie.slot table first = some pte →
          middle.Empty pte ∧ ∀ next, start.trie.child pte = some next →
            ∀ addr, start.Owned next addr → middle.Empty addr := by
        simp only [destroySlot] at step
        obtain ⟨pte, _, read, step⟩ := bind_ok_iff.mp step
        obtain ⟨rfl, slot⟩ := pruned.slot_eq read
        cases pte with
        | none =>
            simp only [Option.isSome_none, Bool.false_eq_true, if_false, EStateM.run_pure,
              EStateM.Result.ok.injEq, true_and] at step
            subst step
            refine ⟨Heap.Pruned.refl heap gone, fun pte inSlot => ?_⟩
            rw [slot] at inSlot
            contradiction
        | some pte =>
            simp only [Option.isSome_some, if_true] at step
            obtain ⟨prunedMiddle, empty, below⟩ := pteDestroy_ok destroys
              (owned _ (.node slot)) (fun next hung addr here => owned _ (.below slot hung here))
              pruned step
            refine ⟨prunedMiddle, fun other inSlot => ?_⟩
            rw [slot] at inSlot
            cases Option.some.inj inSlot
            exact ⟨empty, below⟩
      obtain ⟨prunedAfter, rest⟩ := ih (pruned.trans here.1) run
      refine ⟨here.1.trans prunedAfter, fun index pte lower upper inSlot => ?_⟩
      rcases Nat.eq_or_lt_of_le lower with rfl | later
      · obtain ⟨empty, below⟩ := here.2 pte inSlot
        exact ⟨prunedAfter.empty empty,
          fun next hung addr owned => prunedAfter.empty (below next hung addr owned)⟩
      · exact rest index pte later (by omega) inSlot

theorem pageTableDestroy_succ (depth : Nat) (table : Addr) :
    pageTableDestroy (depth + 1) (some table) = (do
      require true (.failed .pageTableNotNull)
      forRange (destroySlot (pageTableDestroy depth) (some table)) 0 ptesCount
      let ptes ← readTable (some table)
      heapFree (some ptes)
      heapFree (some table)) := rfl

theorem pageTableDestroy_destroys {isRoot : Addr → Prop} (sound : start.Sound isRoot)
    (depth : Nat) : Destroys start (pageTableDestroy depth) := by
  induction depth with
  | zero =>
      intro table gone heap after _ _ run
      contradiction
  | succ depth ih =>
      intro table gone heap after owned pruned run
      rw [pageTableDestroy_succ] at run
      obtain ⟨_, _, step, run⟩ := bind_ok_iff.mp run
      obtain ⟨-, rfl⟩ := require_ok_iff.mp step
      obtain ⟨_, heap1, step, run⟩ := bind_ok_iff.mp run
      obtain ⟨pruned1, slots⟩ := destroySlots_ok ih owned pruned step
      obtain ⟨ptes, _, step, run⟩ := bind_ok_iff.mp run
      obtain ⟨rfl, inTable⟩ := readTable_ok step
      have inTable : start.table table = some ptes := (pruned.trans pruned1).table_eq inTable
      obtain ⟨_, heap2, step, run⟩ := bind_ok_iff.mp run
      obtain ⟨pruned2, emptyPtes⟩ := heapFree_ok step
      obtain ⟨pruned3, emptyTable⟩ := heapFree_ok run
      have last : heap1.Pruned after gone :=
        (pruned2.mono fun addr same => owned addr (same ▸ .array inTable)).trans
          (pruned3.mono fun addr same => owned addr (same ▸ .self start table))
      refine ⟨pruned1.trans last, fun addr here => ?_⟩
      rcases here.cases with rfl | array | ⟨index, pte, inSlot, below⟩
      · exact emptyTable
      · cases Option.some.inj (inTable.symm.trans array)
        exact pruned3.empty emptyPtes
      · have bound := sound.slot_lt inSlot
        obtain ⟨empty, emptyBelow⟩ := slots index pte (Nat.zero_le _) (by omega) inSlot
        rcases below with rfl | ⟨next, hung, owned'⟩
        · exact last.empty empty
        · exact last.empty (emptyBelow next hung addr owned')

end Recursion

/-! ## The other page tables -/

section Others
variable {start after : Heap} {isRoot : Addr → Prop} {root : Addr}

/-- The table itself, its array, or an entry in one of its slots. -/
inductive Heap.Holds (heap : Heap) (table : Addr) : Addr → Prop where
  | self {ptes : Addr} : heap.table table = some ptes → Heap.Holds heap table table
  | array {ptes : Addr} : heap.table table = some ptes → Heap.Holds heap table ptes
  | node {index pte : Nat} : heap.trie.slot table index = some pte → Heap.Holds heap table pte

theorem Heap.Sound.holds_inj (sound : start.Sound isRoot) {table table' addr : Addr}
    (held : start.Holds table addr) (held' : start.Holds table' addr) : table = table' := by
  have notBoth : ∀ {addr a t}, start.table addr = some a → start.table t ≠ some addr := by
    intro addr a t inTable array
    obtain ⟨slots, there⟩ := sound.table_ptes array
    rw [sound.table_kind inTable] at there
    contradiction
  have notTable : ∀ {addr a t i}, start.table addr = some a →
      start.trie.slot t i ≠ some addr := by
    intro addr a t i inTable inSlot
    obtain ⟨entry, there⟩ := sound.slot_pte inSlot
    rw [(sound.pte_kind there).1] at inTable
    contradiction
  have notArray : ∀ {addr t t' i}, start.table t = some addr →
      start.trie.slot t' i ≠ some addr := by
    intro addr t t' i array inSlot
    obtain ⟨slots, here⟩ := sound.table_ptes array
    obtain ⟨entry, there⟩ := sound.slot_pte inSlot
    rw [(sound.pte_kind there).2] at here
    contradiction
  cases held with
  | self inTable =>
      cases held' with
      | self _ => rfl
      | array array => exact absurd array (notBoth inTable)
      | node inSlot => exact absurd inSlot (notTable inTable)
  | array array =>
      cases held' with
      | self inTable => exact absurd array (notBoth inTable)
      | array array' => exact sound.table_inj array array'
      | node inSlot => exact absurd inSlot (notArray array)
  | node inSlot =>
      cases held' with
      | self inTable => exact absurd inSlot (notTable inTable)
      | array array => exact absurd inSlot (notArray array)
      | node inSlot' => exact (sound.parents.slot_inj inSlot inSlot').1

theorem Heap.Sound.reached_table (sound : start.Sound isRoot) (rootHere : isRoot root)
    {path : List Nat} {table : Addr} (reached : start.trie.tableAt root path = some table) :
    ∃ ptes, start.table table = some ptes := by
  rcases List.eq_nil_or_concat path with rfl | ⟨front, index, rfl⟩
  · cases Option.some.inj reached
    exact sound.root_table rootHere
  · rw [List.concat_eq_append] at reached
    obtain ⟨_, pte, -, -, hung⟩ := Trie.tableAt_concat_eq_some.mp reached
    exact sound.child_table hung

theorem Heap.Sound.owned_holds (sound : start.Sound isRoot) (rootHere : isRoot root) {addr : Addr} :
    start.Owned root addr ↔
      ∃ path table, start.trie.tableAt root path = some table ∧ start.Holds table addr := by
  constructor
  · rintro ⟨path, reached | ⟨table, reached, inTable⟩ | ⟨index, found⟩⟩
    · obtain ⟨ptes, inTable⟩ := sound.reached_table rootHere reached
      exact ⟨path, addr, reached, .self inTable⟩
    · exact ⟨path, table, reached, .array inTable⟩
    · obtain ⟨table, reached, inSlot⟩ := Trie.nodeAt_eq_some.mp found
      exact ⟨path, table, reached, .node inSlot⟩
  · rintro ⟨path, table, reached, held⟩
    cases held with
    | self _ => exact ⟨path, .inl reached⟩
    | array inTable => exact ⟨path, .inr (.inl ⟨table, reached, inTable⟩)⟩
    | node inSlot => exact ⟨path, .inr (.inr ⟨_, Trie.nodeAt_eq_some.mpr ⟨table, reached, inSlot⟩⟩)⟩

theorem Heap.Sound.owned_held (sound : start.Sound isRoot) (rootHere : isRoot root)
    {table addr : Addr} (owned : start.Owned root addr) (held : start.Holds table addr) :
    ∃ path, start.trie.tableAt root path = some table := by
  obtain ⟨path, table', reached, held'⟩ := (sound.owned_holds rootHere).mp owned
  rw [sound.holds_inj held held']
  exact ⟨path, reached⟩

theorem Heap.Sound.owned_disjoint (sound : start.Sound isRoot) (rootHere : isRoot root)
    {root' : Addr} (rootThere : isRoot root') {addr : Addr} (owned : start.Owned root addr)
    (owned' : start.Owned root' addr) : root = root' := by
  obtain ⟨path, table, reached, held⟩ := (sound.owned_holds rootHere).mp owned
  obtain ⟨path', reached'⟩ := sound.owned_held rootThere owned' held
  exact (sound.parents.tableAt_inj rootHere rootThere reached reached').1

end Others

/-- With everything below one root erased, the rest of the heap is sound and
reads as before. -/
structure Heap.WithoutRoot (before after : Heap) (isRoot : Addr → Prop) (root : Addr) : Prop where
  sound : after.Sound fun other => isRoot other ∧ other ≠ root
  pte : ∀ addr, ¬ before.Owned root addr → after.pte addr = before.pte addr
  tables : ∀ other path table, after.trie.tableAt other path = some table →
    before.trie.tableAt other path = some table
  leaf : ∀ other, isRoot other → other ≠ root → ∀ page,
    after.leafAt other page = before.leafAt other page

section Without
variable {start after : Heap} {isRoot : Addr → Prop} {root : Addr}

section Facts
variable (sound : start.Sound isRoot) (rootHere : isRoot root)
  (pruned : start.Pruned after (start.Owned root))
  (empty : ∀ addr, start.Owned root addr → after.Empty addr)

include pruned in
theorem Heap.Pruned.kept {addr : Addr} (kept : ¬ start.Owned root addr) :
    after.pte addr = start.pte addr ∧ after.table addr = start.table addr ∧
      after.ptes addr = start.ptes addr := by
  refine ⟨?_, ?_, ?_⟩
  · exact (pruned.pte addr).resolve_right fun removed => kept removed.1
  · exact (pruned.table addr).resolve_right fun removed => kept removed.1
  · exact (pruned.ptes addr).resolve_right fun removed => kept removed.1

include sound rootHere in
theorem Heap.Sound.holds_kept {table addr : Addr} (kept : ¬ start.Owned root table)
    (held : start.Holds table addr) : ¬ start.Owned root addr := by
  intro owned
  obtain ⟨path, reached⟩ := sound.owned_held rootHere owned held
  exact kept ⟨path, .inl reached⟩

include sound rootHere in
theorem Heap.Sound.child_kept {pte table : Addr} (kept : ¬ start.Owned root pte)
    (hung : start.trie.child pte = some table) : ¬ start.Owned root table := by
  intro owned
  obtain ⟨ptes, inTable⟩ := sound.child_table hung
  obtain ⟨path, reached⟩ := sound.owned_held rootHere owned (.self inTable)
  rcases List.eq_nil_or_concat path with rfl | ⟨front, index, rfl⟩
  · cases Option.some.inj reached
    exact sound.parents.child_not_root hung rootHere
  · rw [List.concat_eq_append] at reached
    obtain ⟨inner, parent, reached, inSlot, hung'⟩ := Trie.tableAt_concat_eq_some.mp reached
    cases sound.parents.child_inj hung hung'
    exact kept ⟨front, .inr (.inr ⟨index, Trie.nodeAt_eq_some.mpr ⟨inner, reached, inSlot⟩⟩)⟩

include pruned empty in
theorem Heap.Pruned.slot_old {table index pte : Nat}
    (inSlot : after.trie.slot table index = some pte) :
    ¬ start.Owned root table ∧ start.trie.slot table index = some pte := by
  obtain ⟨ptes, slots, inTable, array, slot⟩ := Heap.slot_eq_some.mp inSlot
  refine ⟨fun owned => ?_, ?_⟩
  · rw [(empty table owned).2.1] at inTable
    contradiction
  · rw [Heap.slot_eq (pruned.table_eq inTable) (pruned.ptes_eq array), slot]

include sound rootHere pruned in
theorem Heap.Pruned.slot_new {table index pte : Nat} (kept : ¬ start.Owned root table)
    (inSlot : start.trie.slot table index = some pte) :
    after.trie.slot table index = some pte := by
  cases inTable : start.table table with
  | none =>
      simp [Heap.trie, inTable] at inSlot
  | some ptes =>
      obtain ⟨slots, array⟩ := sound.table_ptes inTable
      have keptArray := sound.holds_kept rootHere kept (.array inTable)
      have inTable' := (pruned.kept kept).2.1.trans inTable
      have array' := (pruned.kept keptArray).2.2.trans array
      rw [Heap.slot_eq inTable array] at inSlot
      rw [Heap.slot_eq inTable' array', inSlot]

include pruned empty in
theorem Heap.Pruned.child_old {pte table : Addr} (hung : after.trie.child pte = some table) :
    ¬ start.Owned root pte ∧ start.trie.child pte = some table := by
  cases here : after.pte pte with
  | none => simp [Heap.trie, here] at hung
  | some entry =>
      refine ⟨fun owned => ?_, ?_⟩
      · rw [(empty pte owned).1] at here
        contradiction
      · simpa [Heap.trie, here, pruned.pte_eq here] using hung

include pruned in
theorem Heap.Pruned.child_new {pte : Addr} (kept : ¬ start.Owned root pte) :
    after.trie.child pte = start.trie.child pte := by
  simp [Heap.trie, (pruned.kept kept).1]

include sound rootHere in
theorem Heap.Sound.root_kept {other : Addr} (otherHere : isRoot other) (apart : other ≠ root) :
    ¬ start.Owned root other := fun owned =>
  apart (sound.owned_disjoint rootHere otherHere owned (.self start other)).symm

include pruned empty in
theorem Heap.Pruned.walk_old {other table : Addr} {path : List Nat}
    (reached : after.trie.tableAt other path = some table) :
    start.trie.tableAt other path = some table := by
  refine (@Trie.tableAt_shared _ _ _ _ start.trie (fun _ => True) ?_ ?_ _ trivial _ _ reached).1
  · exact fun _ inSlot => (pruned.slot_old empty inSlot).2
  · exact fun _ _ hung => ⟨(pruned.child_old empty hung).2, trivial⟩

include sound rootHere pruned in
theorem Heap.Pruned.walk_new {other table : Addr} {path : List Nat}
    (kept : ¬ start.Owned root other) (reached : start.trie.tableAt other path = some table) :
    after.trie.tableAt other path = some table ∧ ¬ start.Owned root table := by
  refine @Trie.tableAt_shared _ _ _ _ after.trie (fun table => ¬ start.Owned root table) ?_ ?_ _
    kept _ _ reached
  · exact fun kept inSlot => pruned.slot_new sound rootHere kept inSlot
  · intro table index pte next kept inSlot hung
    have keptPte := sound.holds_kept rootHere kept (.node inSlot)
    exact ⟨(pruned.child_new keptPte).trans hung, sound.child_kept rootHere keptPte hung⟩

include sound rootHere pruned empty in
theorem Heap.Pruned.soundWithout : after.Sound fun other => isRoot other ∧ other ≠ root where
  pte_live := by
    intro addr entry here
    have kept : ¬ start.Owned root addr := by
      intro owned
      rw [(empty addr owned).1] at here
      contradiction
    rw [pruned.live addr kept]
    exact sound.pte_live (pruned.pte_eq here)
  table_live := by
    intro addr ptes here
    have kept : ¬ start.Owned root addr := by
      intro owned
      rw [(empty addr owned).2.1] at here
      contradiction
    rw [pruned.live addr kept]
    exact sound.table_live (pruned.table_eq here)
  ptes_live := by
    intro addr slots here
    have kept : ¬ start.Owned root addr := by
      intro owned
      rw [(empty addr owned).2.2] at here
      contradiction
    rw [pruned.live addr kept]
    exact sound.ptes_live (pruned.ptes_eq here)
  pte_kind := by
    intro addr entry here
    have kind := sound.pte_kind (pruned.pte_eq here)
    exact ⟨pruned.table_none kind.1, pruned.ptes_none kind.2⟩
  table_kind := fun here => pruned.ptes_none (sound.table_kind (pruned.table_eq here))
  table_ptes := by
    intro table ptes here
    have kept : ¬ start.Owned root table := by
      intro owned
      rw [(empty table owned).2.1] at here
      contradiction
    have old := pruned.table_eq here
    obtain ⟨slots, array⟩ := sound.table_ptes old
    have keptArray := sound.holds_kept rootHere kept (.array old)
    exact ⟨slots, (pruned.kept keptArray).2.2.trans array⟩
  table_inj := fun here there => sound.table_inj (pruned.table_eq here) (pruned.table_eq there)
  slot_pte := by
    intro table index pte inSlot
    obtain ⟨kept, old⟩ := pruned.slot_old empty inSlot
    obtain ⟨entry, here⟩ := sound.slot_pte old
    have keptPte := sound.holds_kept rootHere kept (.node old)
    exact ⟨entry, (pruned.kept keptPte).1.trans here⟩
  slot_lt := fun inSlot => sound.slot_lt (pruned.slot_old empty inSlot).2
  child_table := by
    intro pte table hung
    obtain ⟨kept, old⟩ := pruned.child_old empty hung
    obtain ⟨ptes, inTable⟩ := sound.child_table old
    have keptTable := sound.child_kept rootHere kept old
    exact ⟨ptes, (pruned.kept keptTable).2.1.trans inTable⟩
  root_table := by
    rintro other ⟨otherHere, apart⟩
    obtain ⟨ptes, inTable⟩ := sound.root_table otherHere
    have kept := sound.root_kept rootHere otherHere apart
    exact ⟨ptes, (pruned.kept kept).2.1.trans inTable⟩
  parents := by
    refine ⟨?_, ?_, ?_⟩
    · intro table table' i i' pte inSlot inSlot'
      exact sound.parents.slot_inj (pruned.slot_old empty inSlot).2
        (pruned.slot_old empty inSlot').2
    · intro pte pte' table hung hung'
      exact sound.parents.child_inj (pruned.child_old empty hung).2 (pruned.child_old empty hung').2
    · intro pte table hung otherHere
      exact sound.parents.child_not_root (pruned.child_old empty hung).2 otherHere.1
  leaf_childless := by
    rintro other i j k pte ⟨otherHere, apart⟩ found
    obtain ⟨table, reached, inSlot⟩ := Trie.nodeAt_eq_some.mp found
    have old := Trie.nodeAt_eq_some.mpr
      ⟨table, pruned.walk_old empty reached, (pruned.slot_old empty inSlot).2⟩
    have childless := sound.leaf_childless otherHere old
    cases hung : after.trie.child pte with
    | none => rfl
    | some next =>
        rw [(pruned.child_old empty hung).2] at childless
        contradiction

include sound rootHere pruned empty in
theorem Heap.Pruned.withoutRoot : start.WithoutRoot after isRoot root := by
  refine ⟨pruned.soundWithout sound rootHere empty, fun addr kept => (pruned.kept kept).1,
    fun _ _ _ reached => pruned.walk_old empty reached, ?_⟩
  · intro other otherHere apart page
    have kept := sound.root_kept rootHere otherHere apart
    refine Option.ext fun pte => ?_
    simp only [Heap.leafAt, Trie.nodeAt_eq_some]
    constructor
    · rintro ⟨table, reached, inSlot⟩
      exact ⟨table, pruned.walk_old empty reached, (pruned.slot_old empty inSlot).2⟩
    · rintro ⟨table, reached, inSlot⟩
      obtain ⟨reached', keptTable⟩ := pruned.walk_new sound rootHere kept reached
      exact ⟨table, reached', pruned.slot_new sound rootHere keptTable inSlot⟩

end Facts

/-- `CSC369_PageTableDestroy` of one of the page tables. -/
theorem pageTableDestroy_ok (sound : start.Sound isRoot) (rootHere : isRoot root) {depth : Nat}
    (run : (pageTableDestroy depth (some root)).run start = .ok () after) :
    start.WithoutRoot after isRoot root ∧
      ∃ ext, after.tracker.log = start.tracker.log ++ ext ∧ AllocationsSucceed ext := by
  obtain ⟨pruned, empty⟩ := pageTableDestroy_destroys sound depth (fun _ owned => owned)
    (Heap.Pruned.refl start _) run
  exact ⟨pruned.withoutRoot sound rootHere empty, pruned.log⟩

end Without

end MemSim
