import MemSim.PageTable
import MemSim.Trie

/-!
# The shape of the page tables in the heap

The tables and entries of a heap form tries.  `Heap.Sound` says that they are
well formed: every pointer leads to a live object of the right kind, every
object has one parent, and an entry of the third level has no table below it.
Each of the two building steps of `CSC369_PageTableAllocate` is shown to change
the trie by one slot or one hung table and to keep the heap sound.
-/

set_option autoImplicit false

namespace MemSim

open Exec

def Heap.trie (heap : Heap) : Trie Addr Nat Addr where
  slot := fun table index =>
    match heap.table table with
    | none => none
    | some ptes =>
        match heap.ptes ptes with
        | none => none
        | some slots => slots index
  child := fun pte =>
    match heap.pte pte with
    | none => none
    | some entry => entry.pageTable

structure Heap.Sound (heap : Heap) (isRoot : Addr → Prop) : Prop where
  pte_live : ∀ {addr entry}, heap.pte addr = some entry → heap.tracker.live addr = true
  table_live : ∀ {addr ptes}, heap.table addr = some ptes → heap.tracker.live addr = true
  ptes_live : ∀ {addr slots}, heap.ptes addr = some slots → heap.tracker.live addr = true
  pte_kind : ∀ {addr entry}, heap.pte addr = some entry →
    heap.table addr = none ∧ heap.ptes addr = none
  table_kind : ∀ {addr ptes}, heap.table addr = some ptes → heap.ptes addr = none
  table_ptes : ∀ {table ptes}, heap.table table = some ptes → ∃ slots, heap.ptes ptes = some slots
  table_inj : ∀ {table table' ptes}, heap.table table = some ptes →
    heap.table table' = some ptes → table = table'
  slot_pte : ∀ {table index pte}, heap.trie.slot table index = some pte →
    ∃ entry, heap.pte pte = some entry
  slot_lt : ∀ {table index pte}, heap.trie.slot table index = some pte → index < ptesCount
  child_table : ∀ {pte table}, heap.trie.child pte = some table →
    ∃ ptes, heap.table table = some ptes
  root_table : ∀ {table}, isRoot table → ∃ ptes, heap.table table = some ptes
  parents : heap.trie.OneParent isRoot
  leaf_childless : ∀ {root i j k pte}, isRoot root →
    heap.trie.nodeAt root [i, j] k = some pte → heap.trie.child pte = none

/-- What building may do to the entries: an entry keeps every field but the
pointer to a lower table, and a new one has the initial fields. -/
structure Heap.Grown (before after : Heap) : Prop where
  old : ∀ {addr entry}, before.pte addr = some entry →
    ∃ pageTable, after.pte addr = some { entry with pageTable := pageTable }
  new : ∀ {addr entry}, before.pte addr = none → after.pte addr = some entry →
    ∃ pageTable, entry = { PTE.initial with pageTable := pageTable }

theorem Heap.Grown.refl (heap : Heap) : heap.Grown heap where
  old := fun {_ entry} here => ⟨entry.pageTable, here⟩
  new := fun absent present => by rw [absent] at present; contradiction

theorem Heap.Grown.trans {first second third : Heap} (left : first.Grown second)
    (right : second.Grown third) : first.Grown third where
  old := by
    intro addr entry here
    obtain ⟨_, middle⟩ := left.old here
    obtain ⟨pageTable, last⟩ := right.old middle
    exact ⟨pageTable, last⟩
  new := by
    intro addr entry absent present
    cases middle : second.pte addr with
    | none => exact right.new middle present
    | some entry' =>
        obtain ⟨_, rfl⟩ := left.new absent middle
        obtain ⟨pageTable, last⟩ := right.old middle
        rw [present] at last
        exact ⟨pageTable, Option.some.inj last⟩

theorem Heap.empty_sound (isRoot : Addr → Prop) (none' : ∀ root, ¬ isRoot root) :
    Heap.empty.Sound isRoot where
  pte_live := fun here => by simp [Heap.empty] at here
  table_live := fun here => by simp [Heap.empty] at here
  ptes_live := fun here => by simp [Heap.empty] at here
  pte_kind := fun here => by simp [Heap.empty] at here
  table_kind := fun here => by simp [Heap.empty] at here
  table_ptes := fun here => by simp [Heap.empty] at here
  table_inj := fun here => by simp [Heap.empty] at here
  slot_pte := fun here => by simp [Heap.empty, Heap.trie] at here
  slot_lt := fun here => by simp [Heap.empty, Heap.trie] at here
  child_table := fun here => by simp [Heap.empty, Heap.trie] at here
  root_table := fun here => absurd here (none' _)
  parents :=
    { slot_inj := fun here => by simp [Heap.empty, Heap.trie] at here
      child_inj := fun here => by simp [Heap.empty, Heap.trie] at here
      child_not_root := fun _ => none' _ }
  leaf_childless := fun here => absurd here (none' _)

/-! ## Reads and writes in a sound heap -/

section Access
variable {heap : Heap}

theorem run_readPte {addr : Addr} {entry : PTE} (here : heap.pte addr = some entry) :
    (readPte (some addr)).run heap = .ok entry heap := by
  simp [readPte, here]

theorem run_writePte {addr : Addr} {entry : PTE} (here : heap.pte addr = some entry)
    (change : PTE → PTE) :
    (writePte (some addr) change).run heap = .ok () (heap.setPte addr (change entry)) := by
  simp [writePte, run_readPte here]

theorem run_pteGet {α : Type} (field : PTE → α) {addr : Addr} {entry : PTE}
    (here : heap.pte addr = some entry) :
    (pteGet field (some addr)).run heap = .ok (field entry) heap := by
  simp [pteGet, run_readPte here]

theorem run_pteSet (change : PTE → PTE) {addr : Addr} {entry : PTE}
    (here : heap.pte addr = some entry) :
    (pteSet change (some addr)).run heap = .ok () (heap.setPte addr (change entry)) := by
  simp [pteSet, run_writePte here]

theorem pteSet_ok {change : PTE → PTE} {addr : Addr} {after : Heap}
    (run : (pteSet change (some addr)).run heap = .ok () after) :
    ∃ entry, heap.pte addr = some entry ∧ after = heap.setPte addr (change entry) := by
  cases here : heap.pte addr with
  | none => simp [pteSet, writePte, readPte, here] at run
  | some entry =>
      rw [run_pteSet change here] at run
      cases run
      exact ⟨entry, rfl, rfl⟩

theorem run_readChild {addr : Addr} {entry : PTE} (here : heap.pte addr = some entry) :
    (readChild (some addr)).run heap = .ok (heap.trie.child addr) heap := by
  simp [readChild, run_readPte here, Heap.trie, here]

theorem run_writeChild {addr : Addr} {entry : PTE} (here : heap.pte addr = some entry)
    (pageTable : Option Addr) :
    (writeChild (some addr) pageTable).run heap =
      .ok () (heap.setPte addr { entry with pageTable := pageTable }) := by
  simp [writeChild, run_writePte here]

variable {table ptes index : Nat} {slots : Nat → Option Addr}

theorem Heap.slot_eq (inTable : heap.table table = some ptes)
    (array : heap.ptes ptes = some slots) : heap.trie.slot table index = slots index := by
  simp [Heap.trie, inTable, array]

theorem Heap.slot_eq_some {pte : Addr} : heap.trie.slot table index = some pte ↔
    ∃ ptes slots, heap.table table = some ptes ∧ heap.ptes ptes = some slots ∧
      slots index = some pte := by
  constructor
  · intro inSlot
    simp only [Heap.trie] at inSlot
    split at inSlot
    · contradiction
    · rename_i ptes inTable
      split at inSlot
      · contradiction
      · rename_i slots array
        exact ⟨ptes, slots, inTable, array, inSlot⟩
  · intro found
    obtain ⟨ptes, slots, inTable, array, occupied⟩ := found
    rw [Heap.slot_eq inTable array, occupied]

theorem run_readEntry (inTable : heap.table table = some ptes)
    (array : heap.ptes ptes = some slots) (bound : index < ptesCount) :
    (readEntry (some table) index).run heap = .ok (slots index) heap := by
  simp only [ptesCount_eq] at bound
  simp [readEntry, readTable, readArray, inTable, array, bound]

theorem run_readEntry_outOfBounds (inTable : heap.table table = some ptes)
    (array : heap.ptes ptes = some slots) (bound : ptesCount ≤ index) :
    (readEntry (some table) index).run heap = .error .outOfBounds heap := by
  simp only [ptesCount_eq] at bound
  simp [readEntry, readTable, readArray, inTable, array, Nat.not_lt.mpr bound]

theorem run_writeEntry (inTable : heap.table table = some ptes)
    (array : heap.ptes ptes = some slots) (bound : index < ptesCount) (pte : Option Addr) :
    (writeEntry (some table) index pte).run heap =
      .ok () (heap.setPtes ptes (Function.update slots index pte)) := by
  simp only [ptesCount_eq] at bound
  simp [writeEntry, readTable, readArray, inTable, array, bound]

end Access

/-! ## What a write does to the trie -/

section TrieEffects
variable {heap : Heap}

@[simp] theorem Heap.tracker_setTracker (tracker : Tracker) :
    (heap.setTracker tracker).tracker = tracker := rfl

theorem Heap.setTracker_setTracker (first second : Tracker) :
    (heap.setTracker first).setTracker second = heap.setTracker second := rfl

@[simp] theorem Heap.trie_setTracker (tracker : Tracker) :
    (heap.setTracker tracker).trie = heap.trie := rfl

theorem Heap.trie_setPte {addr : Addr} {entry : PTE}
    (same : entry.pageTable = heap.trie.child addr) :
    (heap.setPte addr entry).trie = heap.trie := by
  unfold Heap.trie Heap.setPte
  congr 1
  funext other
  by_cases here : other = addr
  · subst here
    simp [same, Heap.trie]
  · simp [Function.update_of_ne here]

theorem Heap.trie_hangTable {addr table : Addr} (entry : PTE) :
    (heap.setPte addr { entry with pageTable := some table }).trie =
      heap.trie.hangTable addr table := by
  unfold Heap.trie Heap.setPte Trie.hangTable
  congr 1
  funext other
  by_cases here : other = addr
  · subst here
    simp
  · simp [Function.update_of_ne here]

theorem Heap.trie_fillSlot {isRoot : Addr → Prop} (sound : heap.Sound isRoot)
    {table ptes index : Addr} {slots : Nat → Option Addr}
    (inTable : heap.table table = some ptes) (array : heap.ptes ptes = some slots) (pte : Addr) :
    (heap.setPtes ptes (Function.update slots index (some pte))).trie =
      heap.trie.fillSlot table index pte := by
  unfold Heap.trie Heap.setPtes Trie.fillSlot
  congr 1
  funext other i
  by_cases here : other = table
  · subst here
    by_cases there : i = index
    · subst there
      simp [inTable]
    · simp [inTable, array, there]
  · simp only [here, false_and, if_false]
    cases inOther : heap.table other with
    | none => rfl
    | some ptes' =>
        have apart : ptes' ≠ ptes := fun same => here (sound.table_inj (same ▸ inOther) inTable)
        simp [Function.update_of_ne apart]

theorem Heap.trie_newTable {isRoot : Addr → Prop} (sound : heap.Sound isRoot)
    {table ptes : Addr} (freshTable : heap.table table = none) (freshPtes : heap.ptes ptes = none) :
    ((heap.setPtes ptes fun _ => none).setTable table ptes).trie = heap.trie := by
  unfold Heap.trie Heap.setTable Heap.setPtes
  congr 1
  funext other i
  by_cases here : other = table
  · subst here
    simp [freshTable]
  · simp only [Function.update_of_ne here]
    cases inOther : heap.table other with
    | none => rfl
    | some ptes' =>
        have apart : ptes' ≠ ptes := by
          rintro rfl
          obtain ⟨slots, array⟩ := sound.table_ptes inOther
          rw [freshPtes] at array
          contradiction
        simp [Function.update_of_ne apart]

end TrieEffects

/-! ## Allocation keeps the heap sound -/

section Allocation
variable {heap : Heap} {isRoot : Addr → Prop}

theorem Heap.Sound.setTracker (sound : heap.Sound isRoot) {tracker : Tracker}
    (grows : ∀ addr, heap.tracker.live addr = true → tracker.live addr = true) :
    (heap.setTracker tracker).Sound isRoot where
  pte_live := fun here => grows _ (sound.pte_live here)
  table_live := fun here => grows _ (sound.table_live here)
  ptes_live := fun here => grows _ (sound.ptes_live here)
  pte_kind := sound.pte_kind
  table_kind := sound.table_kind
  table_ptes := sound.table_ptes
  table_inj := sound.table_inj
  slot_pte := sound.slot_pte
  slot_lt := sound.slot_lt
  child_table := sound.child_table
  root_table := sound.root_table
  parents := sound.parents
  leaf_childless := sound.leaf_childless

theorem Heap.Sound.absent (sound : heap.Sound isRoot) {addr : Addr}
    (fresh : heap.tracker.live addr = false) :
    heap.pte addr = none ∧ heap.table addr = none ∧ heap.ptes addr = none := by
  refine ⟨?_, ?_, ?_⟩
  · cases here : heap.pte addr with
    | none => rfl
    | some entry => rw [sound.pte_live here] at fresh; contradiction
  · cases here : heap.table addr with
    | none => rfl
    | some ptes => rw [sound.table_live here] at fresh; contradiction
  · cases here : heap.ptes addr with
    | none => rfl
    | some slots => rw [sound.ptes_live here] at fresh; contradiction

theorem Heap.Sound.newPte (sound : heap.Sound isRoot) {addr : Addr}
    (live : heap.tracker.live addr = true)
    (absent : heap.pte addr = none ∧ heap.table addr = none ∧ heap.ptes addr = none) :
    (heap.setPte addr PTE.initial).Sound isRoot := by
  have trieSame : (heap.setPte addr PTE.initial).trie = heap.trie :=
    Heap.trie_setPte (by simp [PTE.initial, Heap.trie, absent.1])
  refine ⟨?_, sound.table_live, sound.ptes_live, ?_, sound.table_kind, sound.table_ptes,
    sound.table_inj, ?_, ?_, ?_, sound.root_table, ?_, ?_⟩
  · intro other entry here
    by_cases same : other = addr
    · rw [same]
      exact live
    · exact sound.pte_live (by simpa [Heap.setPte, Function.update_of_ne same] using here)
  · intro other entry here
    by_cases same : other = addr
    · rw [same]
      exact ⟨absent.2.1, absent.2.2⟩
    · exact sound.pte_kind (by simpa [Heap.setPte, Function.update_of_ne same] using here)
  · intro table index pte inSlot
    rw [trieSame] at inSlot
    obtain ⟨entry, here⟩ := sound.slot_pte inSlot
    have apart : pte ≠ addr := by
      rintro rfl
      rw [absent.1] at here
      contradiction
    exact ⟨entry, by simpa [Heap.setPte, Function.update_of_ne apart] using here⟩
  · intro table index pte inSlot
    rw [trieSame] at inSlot
    exact sound.slot_lt inSlot
  · intro pte table below
    rw [trieSame] at below
    exact sound.child_table below
  · rw [trieSame]
    exact sound.parents
  · intro root i j k pte rootHere found
    rw [trieSame] at found ⊢
    exact sound.leaf_childless rootHere found

theorem Heap.Sound.setPte (sound : heap.Sound isRoot) {addr : Addr} {entry new : PTE}
    (here : heap.pte addr = some entry) (samePointer : new.pageTable = entry.pageTable) :
    (heap.setPte addr new).Sound isRoot := by
  have trieSame : (heap.setPte addr new).trie = heap.trie :=
    Heap.trie_setPte (by simp [Heap.trie, here, samePointer])
  have old : ∀ {other entry'}, (heap.setPte addr new).pte other = some entry' →
      ∃ before, heap.pte other = some before := by
    intro other entry' present
    by_cases same : other = addr
    · rw [same]
      exact ⟨entry, here⟩
    · exact ⟨entry', by simpa [Heap.setPte, Function.update_of_ne same] using present⟩
  refine ⟨?_, sound.table_live, sound.ptes_live, ?_, sound.table_kind, sound.table_ptes,
    sound.table_inj, ?_, ?_, ?_, sound.root_table, ?_, ?_⟩
  · intro other entry' present
    obtain ⟨before, there⟩ := old present
    exact sound.pte_live there
  · intro other entry' present
    obtain ⟨before, there⟩ := old present
    exact sound.pte_kind there
  · intro table index pte inSlot
    rw [trieSame] at inSlot
    obtain ⟨before, there⟩ := sound.slot_pte inSlot
    by_cases same : pte = addr
    · exact ⟨new, by simp [Heap.setPte, same]⟩
    · exact ⟨before, by simpa [Heap.setPte, Function.update_of_ne same] using there⟩
  · intro table index pte inSlot
    rw [trieSame] at inSlot
    exact sound.slot_lt inSlot
  · intro pte table below
    rw [trieSame] at below
    exact sound.child_table below
  · rw [trieSame]
    exact sound.parents
  · intro root i j k pte rootHere found
    rw [trieSame] at found ⊢
    exact sound.leaf_childless rootHere found

theorem Heap.Sound.fillSlot (sound : heap.Sound isRoot) {table ptes index pte : Addr}
    {slots : Nat → Option Addr} {entry : PTE} (inTable : heap.table table = some ptes)
    (array : heap.ptes ptes = some slots) (bound : index < ptesCount)
    (empty : heap.trie.slot table index = none) (here : heap.pte pte = some entry)
    (childless : heap.trie.child pte = none)
    (fresh : ∀ t i, heap.trie.slot t i ≠ some pte) :
    (heap.setPtes ptes (Function.update slots index (some pte))).Sound isRoot := by
  have trieNew : (heap.setPtes ptes (Function.update slots index (some pte))).trie =
      heap.trie.fillSlot table index pte := Heap.trie_fillSlot sound inTable array pte
  have arrays : ∀ {addr slots'},
      (heap.setPtes ptes (Function.update slots index (some pte))).ptes addr = some slots' →
      ∃ old, heap.ptes addr = some old := by
    intro addr slots' here'
    by_cases same : addr = ptes
    · rw [same]
      exact ⟨slots, array⟩
    · exact ⟨slots', by simpa [Heap.setPtes, Function.update_of_ne same] using here'⟩
  have noArray : ∀ {addr}, heap.ptes addr = none →
      (heap.setPtes ptes (Function.update slots index (some pte))).ptes addr = none := by
    intro addr none'
    have apart : addr ≠ ptes := by
      rintro rfl
      rw [array] at none'
      contradiction
    simpa [Heap.setPtes, Function.update_of_ne apart] using none'
  refine ⟨sound.pte_live, sound.table_live, ?_, ?_, ?_, ?_, sound.table_inj, ?_, ?_, ?_,
    sound.root_table, ?_, ?_⟩
  · intro addr slots' here'
    obtain ⟨old, oldHere⟩ := arrays here'
    exact sound.ptes_live oldHere
  · intro addr entry' here'
    exact ⟨(sound.pte_kind here').1, noArray (sound.pte_kind here').2⟩
  · intro addr ptes' here'
    exact noArray (sound.table_kind here')
  · intro table' ptes' here'
    by_cases same : ptes' = ptes
    · exact ⟨_, by simp [Heap.setPtes, same]; rfl⟩
    · obtain ⟨old, oldHere⟩ := sound.table_ptes here'
      exact ⟨old, by simpa [Heap.setPtes, Function.update_of_ne same] using oldHere⟩
  · intro table' index' pte' inSlot
    rw [trieNew] at inSlot
    by_cases same : table' = table ∧ index' = index
    · obtain ⟨rfl, rfl⟩ := same
      rw [Trie.fillSlot_slot_self] at inSlot
      cases Option.some.inj inSlot
      exact ⟨entry, here⟩
    · rw [Trie.fillSlot_slot_of_ne same] at inSlot
      exact sound.slot_pte inSlot
  · intro table' index' pte' inSlot
    rw [trieNew] at inSlot
    by_cases same : table' = table ∧ index' = index
    · rw [same.2]
      exact bound
    · rw [Trie.fillSlot_slot_of_ne same] at inSlot
      exact sound.slot_lt inSlot
  · intro pte' table' below
    rw [trieNew] at below
    exact sound.child_table below
  · rw [trieNew]
    exact sound.parents.fillSlot fresh
  · intro root i j k pte' rootHere found
    rw [trieNew, Trie.nodeAt_fillSlot empty childless] at found
    rw [trieNew]
    split at found
    · cases Option.some.inj found
      exact childless
    · exact sound.leaf_childless rootHere found

/-- A new table with its array of `NULL`s, at two empty live addresses. -/
theorem Heap.Sound.newTable (sound : heap.Sound isRoot) {table ptes : Addr}
    (apart : table ≠ ptes)
    (tableLive : heap.tracker.live table = true) (ptesLive : heap.tracker.live ptes = true)
    (tableAbsent : heap.pte table = none ∧ heap.table table = none ∧ heap.ptes table = none)
    (ptesAbsent : heap.pte ptes = none ∧ heap.table ptes = none ∧ heap.ptes ptes = none) :
    ((heap.setPtes ptes fun _ => none).setTable table ptes).Sound isRoot := by
  have trieSame := Heap.trie_newTable sound tableAbsent.2.1 ptesAbsent.2.2
  have oldTable : ∀ {addr ptes'}, heap.table addr = some ptes' →
      ((heap.setPtes ptes fun _ => none).setTable table ptes).table addr = some ptes' := by
    intro addr ptes' here
    have other : addr ≠ table := by
      rintro rfl
      rw [tableAbsent.2.1] at here
      contradiction
    simpa [Heap.setTable, Heap.setPtes, Function.update_of_ne other] using here
  refine ⟨sound.pte_live, ?_, ?_, ?_, ?_, ?_, ?_, ?_, ?_, ?_, ?_, ?_, ?_⟩
  · intro addr ptes' here
    by_cases same : addr = table
    · rw [same]
      exact tableLive
    · exact sound.table_live
        (by simpa [Heap.setTable, Heap.setPtes, Function.update_of_ne same] using here)
  · intro addr slots here
    by_cases same : addr = ptes
    · rw [same]
      exact ptesLive
    · exact sound.ptes_live
        (by simpa [Heap.setTable, Heap.setPtes, Function.update_of_ne same] using here)
  · intro addr entry here
    have here' : heap.pte addr = some entry := here
    have notTable : addr ≠ table := by
      rintro rfl
      rw [tableAbsent.1] at here'
      contradiction
    have notPtes : addr ≠ ptes := by
      rintro rfl
      rw [ptesAbsent.1] at here'
      contradiction
    simpa [Heap.setTable, Heap.setPtes, Function.update_of_ne notTable,
      Function.update_of_ne notPtes] using sound.pte_kind here'
  · intro addr ptes' here
    by_cases same : addr = table
    · subst same
      simpa [Heap.setTable, Heap.setPtes, Function.update_of_ne apart] using tableAbsent.2.2
    · have here' : heap.table addr = some ptes' := by
        simpa [Heap.setTable, Heap.setPtes, Function.update_of_ne same] using here
      have notPtes : addr ≠ ptes := by
        rintro rfl
        rw [ptesAbsent.2.1] at here'
        contradiction
      simpa [Heap.setTable, Heap.setPtes, Function.update_of_ne notPtes] using
        sound.table_kind here'
  · intro table' ptes' here
    by_cases same : table' = table
    · subst same
      have new : ptes' = ptes := by
        simpa [Heap.setTable, Heap.setPtes, eq_comm] using here
      exact ⟨fun _ => none, by simp [Heap.setTable, Heap.setPtes, new]⟩
    · have here' : heap.table table' = some ptes' := by
        simpa [Heap.setTable, Heap.setPtes, Function.update_of_ne same] using here
      obtain ⟨slots, array⟩ := sound.table_ptes here'
      have other : ptes' ≠ ptes := by
        rintro rfl
        rw [ptesAbsent.2.2] at array
        contradiction
      exact ⟨slots, by simpa [Heap.setTable, Heap.setPtes, Function.update_of_ne other] using array⟩
  · intro first second ptes' left right
    have onlyOld : ∀ {other}, other ≠ table →
        ((heap.setPtes ptes fun _ => none).setTable table ptes).table other = some ptes' →
        heap.table other = some ptes' ∧ ptes' ≠ ptes := by
      intro other ne here
      have here' : heap.table other = some ptes' := by
        simpa [Heap.setTable, Heap.setPtes, Function.update_of_ne ne] using here
      refine ⟨here', ?_⟩
      rintro rfl
      obtain ⟨slots, array⟩ := sound.table_ptes here'
      rw [ptesAbsent.2.2] at array
      contradiction
    have newTable : ∀ {other}, other = table →
        ((heap.setPtes ptes fun _ => none).setTable table ptes).table other = some ptes' →
        ptes' = ptes := by
      rintro other rfl here
      simpa [Heap.setTable, Heap.setPtes, eq_comm] using here
    by_cases isFirst : first = table
    · by_cases isSecond : second = table
      · exact isFirst.trans isSecond.symm
      · exact absurd (newTable isFirst left) (onlyOld isSecond right).2
    · by_cases isSecond : second = table
      · exact absurd (newTable isSecond right) (onlyOld isFirst left).2
      · exact sound.table_inj (onlyOld isFirst left).1 (onlyOld isSecond right).1
  · intro table' index pte inSlot
    rw [trieSame] at inSlot
    exact sound.slot_pte inSlot
  · intro table' index pte inSlot
    rw [trieSame] at inSlot
    exact sound.slot_lt inSlot
  · intro pte table' below
    rw [trieSame] at below
    obtain ⟨ptes', here⟩ := sound.child_table below
    exact ⟨ptes', oldTable here⟩
  · intro root rootHere
    obtain ⟨ptes', here⟩ := sound.root_table rootHere
    exact ⟨ptes', oldTable here⟩
  · rw [trieSame]
    exact sound.parents
  · intro root i j k pte rootHere found
    rw [trieSame] at found ⊢
    exact sound.leaf_childless rootHere found

theorem Heap.Sound.hangTable (sound : heap.Sound isRoot) {pte table ptes : Addr} {entry : PTE}
    (here : heap.pte pte = some entry) (inTable : heap.table table = some ptes)
    (childless : heap.trie.child pte = none) (empty : ∀ index, heap.trie.slot table index = none)
    (fresh : ∀ other, heap.trie.child other ≠ some table) (notRoot : ¬ isRoot table)
    (notLeaf : ∀ root i j k, isRoot root → heap.trie.nodeAt root [i, j] k ≠ some pte) :
    (heap.setPte pte { entry with pageTable := some table }).Sound isRoot := by
  have trieNew : (heap.setPte pte { entry with pageTable := some table }).trie =
      heap.trie.hangTable pte table := Heap.trie_hangTable entry
  have oldEntry : ∀ {addr entry'},
      (heap.setPte pte { entry with pageTable := some table }).pte addr = some entry' →
      ∃ old, heap.pte addr = some old := by
    intro addr entry' here'
    by_cases same : addr = pte
    · rw [same]
      exact ⟨entry, here⟩
    · exact ⟨entry', by simpa [Heap.setPte, Function.update_of_ne same] using here'⟩
  refine ⟨?_, sound.table_live, sound.ptes_live, ?_, sound.table_kind, sound.table_ptes,
    sound.table_inj, ?_, ?_, ?_, sound.root_table, ?_, ?_⟩
  · intro addr entry' here'
    obtain ⟨old, oldHere⟩ := oldEntry here'
    exact sound.pte_live oldHere
  · intro addr entry' here'
    obtain ⟨old, oldHere⟩ := oldEntry here'
    exact sound.pte_kind oldHere
  · intro table' index pte' inSlot
    rw [trieNew] at inSlot
    obtain ⟨old, oldHere⟩ := sound.slot_pte inSlot
    by_cases same : pte' = pte
    · exact ⟨_, by rw [same]; simp [Heap.setPte]; rfl⟩
    · exact ⟨old, by simpa [Heap.setPte, Function.update_of_ne same] using oldHere⟩
  · intro table' index pte' inSlot
    rw [trieNew] at inSlot
    exact sound.slot_lt inSlot
  · intro pte' table' below
    rw [trieNew] at below
    by_cases same : pte' = pte
    · subst same
      have new : (heap.trie.hangTable pte' table).child pte' = some table := by
        simp [Trie.hangTable]
      cases Option.some.inj (new.symm.trans below)
      exact ⟨ptes, inTable⟩
    · rw [Trie.hangTable_child_of_ne same] at below
      exact sound.child_table below
  · rw [trieNew]
    exact sound.parents.hangTable fresh notRoot
  · intro root i j k pte' rootHere found
    rw [trieNew, Trie.nodeAt_hangTable childless empty] at found
    have apart : pte' ≠ pte := by
      rintro rfl
      exact notLeaf root i j k rootHere found
    rw [trieNew, Trie.hangTable_child_of_ne apart]
    exact sound.leaf_childless rootHere found

end Allocation

end MemSim
