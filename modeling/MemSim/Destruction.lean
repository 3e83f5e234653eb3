import MemSim.FreshRuns
import MemSim.HeapBlocks

/-!
# What `CSC369_MMDestroy` frees

Destroying a page table is followed in the heap it started from, with the list of
the blocks freed so far.  Every block below the root is freed once, so that the
manager gives back what was obtained since it was created.
-/

set_option autoImplicit false

namespace MemSim

open Exec

/-! ## Blocks that were freed -/

def frees (gone : List Addr) : List AllocEvent := gone.map fun addr => .free (some addr)

theorem frees_append (first second : List Addr) :
    frees (first ++ second) = frees first ++ frees second := List.map_append

theorem liveBlocks_frees (log : List AllocEvent) (gone : List Addr) :
    liveBlocks (log ++ frees gone) =
      (liveBlocks log).filter fun block => block.1 ∉ gone := by
  induction gone using List.reverseRecOn with
  | nil => simp [frees]
  | append_singleton gone addr ih =>
      have last : frees [addr] = [.free (some addr)] := rfl
      rw [frees_append, last, ← List.append_assoc, liveBlocks_append, ih]
      simp only [AllocEvent.apply, List.filter_filter]
      apply List.filter_congr
      intro block _
      simp [and_comm]

/-- The blocks `gone` were freed in this order, and nothing else happened. -/
structure Heap.Freed (start heap : Heap) (gone : List Addr) : Prop where
  books : heap.tracker.Books
  log : heap.tracker.log = start.tracker.log ++ frees gone
  once : gone.Nodup
  pte : ∀ addr, heap.pte addr = if addr ∈ gone then none else start.pte addr
  table : ∀ addr, heap.table addr = if addr ∈ gone then none else start.table addr
  ptes : ∀ addr, heap.ptes addr = if addr ∈ gone then none else start.ptes addr

section Freed
variable {start heap : Heap} {gone : List Addr} {addr : Addr}

theorem Heap.Freed.refl (books : start.tracker.Books) : start.Freed start [] where
  books := books
  log := (List.append_nil _).symm
  once := List.nodup_nil
  pte := fun _ => rfl
  table := fun _ => rfl
  ptes := fun _ => rfl

theorem Heap.Freed.run_heapFree (freed : start.Freed heap gone)
    (live : IsLive start.tracker.log addr) (new : addr ∉ gone) :
    ∃ after, (heapFree (some addr)).run heap = .ok () after ∧
      start.Freed after (gone ++ [addr]) := by
  obtain ⟨⟨addr, size⟩, here, rfl⟩ := List.mem_map.mp live
  have mem : (addr, size) ∈ liveBlocks heap.tracker.log := by
    rw [freed.log, liveBlocks_frees]
    exact List.mem_filter.mpr ⟨here, by simpa using new⟩
  have free := freed.books.run_csc369Free mem
  have run : (heapFree (some addr)).run heap =
      .ok () ((heap.setTracker (heap.tracker.release addr size)).erase addr) := by
    simp only [heapFree, EStateM.run_bind, onTracker, run_onPart_of_ok free, EStateM.run_modify]
  have erased : ∀ {α : Type} (objects before : Addr → Option α),
      (∀ other, objects other = if other ∈ gone then none else before other) →
      ∀ other, Function.update objects addr none other =
        if other ∈ gone ++ [addr] then none else before other := by
    intro α objects before known other
    by_cases same : other = addr
    · simp [same]
    · simp [known other, same]
  refine ⟨_, run, freed.books.release mem, ?_, ?_, ?_, ?_, ?_⟩
  · change heap.tracker.log ++ [.free (some addr)] = _
    rw [freed.log, frees_append, List.append_assoc]
    rfl
  · exact List.nodup_append.mpr ⟨freed.once, List.nodup_singleton addr, by
      intro other inGone last inLast same
      rw [List.mem_singleton] at inLast
      exact new (inLast ▸ same ▸ inGone)⟩
  · exact erased _ _ freed.pte
  · exact erased _ _ freed.table
  · exact erased _ _ freed.ptes

end Freed

/-! ## What hangs at an entry -/

def Heap.OwnedEntry (heap : Heap) (pte addr : Addr) : Prop :=
  addr = pte ∨ ∃ next, heap.trie.child pte = some next ∧ heap.Owned next addr

section Below
variable {start : Heap} {root table addr : Addr} {path : List Nat}

theorem Heap.owned_iff : start.Owned table addr ↔
    addr = table ∨ start.table table = some addr ∨
      ∃ index pte, start.trie.slot table index = some pte ∧ start.OwnedEntry pte addr := by
  constructor
  · exact Heap.Owned.cases
  · intro owned
    rcases owned with rfl | array | ⟨index, pte, inSlot, rfl | ⟨next, hung, owned⟩⟩
    · exact .self start addr
    · exact .array array
    · exact .node inSlot
    · exact .below inSlot hung owned

variable (sound : start.Sound (· = root)) (reached : start.trie.tableAt root path = some table)
include sound reached

theorem Heap.Sound.below_holder {index pte next : Nat}
    (inSlot : start.trie.slot table index = some pte) (hung : start.trie.child pte = some next)
    (owned : start.Owned next addr) :
    ∃ rest other, start.trie.tableAt root (path ++ index :: rest) = some other ∧
      start.Holds other addr := by
  obtain ⟨rest, below⟩ := owned
  have extend : ∀ {last}, start.trie.tableAt next rest = some last →
      start.trie.tableAt root (path ++ index :: rest) = some last := by
    intro last walk
    rw [Trie.tableAt_append, reached, Option.bind_some]
    exact Trie.tableAt_cons_eq_some.mpr ⟨pte, next, inSlot, hung, walk⟩
  rcases below with walk | ⟨other, walk, inTable⟩ | ⟨last, found⟩
  · obtain ⟨ptes, inTable⟩ := sound.reached_table rfl (extend walk)
    exact ⟨rest, addr, extend walk, .self inTable⟩
  · exact ⟨rest, other, extend walk, .array inTable⟩
  · obtain ⟨other, walk, inSlot'⟩ := Trie.nodeAt_eq_some.mp found
    exact ⟨rest, other, extend walk, .node inSlot'⟩

theorem Heap.Sound.entry_holder {index pte : Nat}
    (inSlot : start.trie.slot table index = some pte) (owned : start.OwnedEntry pte addr) :
    addr = pte ∨ ∃ rest other, start.trie.tableAt root (path ++ index :: rest) = some other ∧
      start.Holds other addr := by
  rcases owned with same | ⟨next, hung, below⟩
  · exact .inl same
  · exact .inr (sound.below_holder reached inSlot hung below)

theorem Heap.Sound.not_held_behind {index : Nat} {rest : List Nat} {other : Addr}
    (behind : start.trie.tableAt root (path ++ index :: rest) = some other)
    (held : start.Holds other addr) : ¬ start.Holds table addr := by
  intro here
  have same := sound.holds_inj here held
  subst same
  obtain ⟨-, paths⟩ := sound.parents.tableAt_inj rfl rfl reached behind
  exact absurd (List.append_right_eq_self.mp paths.symm) (List.cons_ne_nil _ _)

theorem Heap.Sound.entries_apart {index index' pte pte' : Nat}
    (inSlot : start.trie.slot table index = some pte)
    (inSlot' : start.trie.slot table index' = some pte')
    (owned : start.OwnedEntry pte addr) (owned' : start.OwnedEntry pte' addr) :
    index = index' := by
  rcases sound.entry_holder reached inSlot owned with rfl | ⟨rest, other, behind, held⟩
  · rcases sound.entry_holder reached inSlot' owned' with rfl | ⟨rest', other', behind', held'⟩
    · exact (sound.parents.slot_inj inSlot inSlot').2
    · exact absurd (.node inSlot) (sound.not_held_behind reached behind' held')
  · rcases sound.entry_holder reached inSlot' owned' with rfl | ⟨rest', other', behind', held'⟩
    · exact absurd (.node inSlot') (sound.not_held_behind reached behind held)
    · have same := sound.holds_inj held held'
      subst same
      obtain ⟨-, paths⟩ := sound.parents.tableAt_inj rfl rfl behind behind'
      exact (List.cons.inj (List.append_cancel_left paths)).1

theorem Heap.Sound.entry_apart {index pte : Nat} (inSlot : start.trie.slot table index = some pte)
    {ptes : Addr} (inTable : start.table table = some ptes)
    (owned : start.OwnedEntry pte addr) : addr ≠ table ∧ addr ≠ ptes := by
  obtain ⟨entry, here⟩ := sound.slot_pte inSlot
  obtain ⟨slots, array⟩ := sound.table_ptes inTable
  rcases sound.entry_holder reached inSlot owned with rfl | ⟨rest, other, behind, held⟩
  · constructor
    · rintro rfl
      rw [(sound.pte_kind here).1] at inTable
      contradiction
    · rintro rfl
      rw [(sound.pte_kind here).2] at array
      contradiction
  · have apart := sound.not_held_behind reached behind held
    constructor
    · rintro rfl
      exact apart (.self inTable)
    · rintro rfl
      exact apart (.array inTable)

end Below

theorem Heap.Sound.reached_depth {start : Heap} {root : Addr} (sound : start.Sound (· = root))
    {path : List Nat} {table : Addr} (reached : start.trie.tableAt root path = some table) :
    path.length ≤ 2 := by
  match path, reached with
  | [], _ => exact Nat.zero_le _
  | [_], _ => exact Nat.le_succ 1
  | [_, _], _ => exact Nat.le_refl _
  | i :: j :: k :: rest, reached =>
      have upper := Trie.tableAt_append start.trie root [i, j] (k :: rest)
      rw [List.cons_append, List.cons_append, List.nil_append, reached] at upper
      obtain ⟨inner, walk, lower⟩ := Option.bind_eq_some_iff.mp upper.symm
      obtain ⟨pte, next, inSlot, hung, -⟩ := Trie.tableAt_cons_eq_some.mp lower
      have leaf := Trie.nodeAt_eq_some.mpr ⟨inner, walk, inSlot⟩
      rw [sound.leaf_childless rfl leaf] at hung
      contradiction

/-! ## The recursion -/

section Recursion
variable {start heap : Heap} {root table : Addr} {path : List Nat} {gone : List Addr}

/-- The call returns and frees the objects `objects`, each once. -/
def FreesAll (start : Heap) (part : Exec Heap Unit) (heap : Heap) (gone : List Addr)
    (objects : Addr → Prop) : Prop :=
  ∃ after more, part.run heap = .ok () after ∧ start.Freed after (gone ++ more) ∧
    ∀ addr, addr ∈ more ↔ objects addr

theorem FreesAll.congr {part : Exec Heap Unit} {objects objects' : Addr → Prop}
    (all : FreesAll start part heap gone objects) (same : ∀ addr, objects addr ↔ objects' addr) :
    FreesAll start part heap gone objects' := by
  obtain ⟨after, more, run, freed, members⟩ := all
  exact ⟨after, more, run, freed, fun addr => (members addr).trans (same addr)⟩

theorem FreesAll.of_run {part other : Exec Heap Unit} {objects : Addr → Prop}
    (all : FreesAll start part heap gone objects) (same : other.run heap = part.run heap) :
    FreesAll start other heap gone objects := by
  obtain ⟨after, more, run, rest⟩ := all
  exact ⟨after, more, same.trans run, rest⟩

theorem freesAll_pure (freed : start.Freed heap gone) :
    FreesAll start (pure ()) heap gone fun _ => False :=
  ⟨heap, [], rfl, by rwa [List.append_nil], fun _ => ⟨List.not_mem_nil, False.elim⟩⟩

theorem freesAll_heapFree (freed : start.Freed heap gone) {addr : Addr}
    (live : IsLive start.tracker.log addr) (new : addr ∉ gone) :
    FreesAll start (heapFree (some addr)) heap gone (· = addr) := by
  obtain ⟨after, run, freed'⟩ := freed.run_heapFree live new
  exact ⟨after, [addr], run, freed', fun other => List.mem_singleton⟩

theorem FreesAll.bind {first second : Exec Heap Unit} {objects objects' : Addr → Prop}
    (all : FreesAll start first heap gone objects)
    (next : ∀ middle more, start.Freed middle (gone ++ more) →
      (∀ addr, addr ∈ more ↔ objects addr) →
        FreesAll start second middle (gone ++ more) objects') :
    FreesAll start (first >>= fun _ => second) heap gone fun addr =>
      objects addr ∨ objects' addr := by
  obtain ⟨middle, more, run, freed, members⟩ := all
  obtain ⟨after, more', run', freed', members'⟩ := next middle more freed members
  refine ⟨after, more ++ more', ?_, ?_, ?_⟩
  · rw [run_bind_of_ok run]
    exact run'
  · rwa [List.append_assoc] at freed'
  · intro addr
    rw [List.mem_append, members, members']

theorem Heap.Freed.slots (freed : start.Freed heap gone) {ptes : Addr}
    {slots : Nat → Option Addr} (inTable : start.table table = some ptes)
    (array : start.ptes ptes = some slots) (tableKept : table ∉ gone) (ptesKept : ptes ∉ gone) :
    heap.table table = some ptes ∧ heap.ptes ptes = some slots := by
  rw [freed.table, freed.ptes, if_neg tableKept, if_neg ptesKept]
  exact ⟨inTable, array⟩

def DestroysBelow (start : Heap) (root : Addr) (path : List Nat)
    (destroy : Option Addr → Exec Heap Unit) : Prop :=
  ∀ {index next heap gone}, start.trie.tableAt root (path ++ [index]) = some next →
    start.Freed heap gone → (∀ addr, start.Owned next addr → addr ∉ gone) →
    FreesAll start (destroy (some next)) heap gone (start.Owned next)

section Level
variable (sound : start.Sound (· = root)) (books : start.tracker.Books)
  (reached : start.trie.tableAt root path = some table)
  {destroy : Option Addr → Exec Heap Unit} (below : DestroysBelow start root path destroy)
include sound books reached below

/-- `CSC369_PTEDestroy` frees the entry and what is below it. -/
theorem pteDestroy_frees {index pte : Nat} (inSlot : start.trie.slot table index = some pte)
    (freed : start.Freed heap gone) (kept : ∀ addr, start.OwnedEntry pte addr → addr ∉ gone) :
    FreesAll start (pteDestroy destroy (some pte)) heap gone (start.OwnedEntry pte) := by
  obtain ⟨entry, here⟩ := sound.slot_pte inSlot
  have live : IsLive start.tracker.log pte := books.live_iff.mp (sound.pte_live here)
  have notGone : pte ∉ gone := kept pte (.inl rfl)
  have here' : heap.pte pte = some entry := by
    rw [freed.pte, if_neg notGone, here]
  have child : start.trie.child pte = entry.pageTable := by simp [Heap.trie, here]
  have read : (readChild (some pte)).run heap = .ok entry.pageTable heap := by
    have childHere : heap.trie.child pte = entry.pageTable := by simp [Heap.trie, here']
    exact (run_readChild here').trans (by rw [childHere])
  have split : (pteDestroy destroy (some pte)).run heap =
      (if entry.pageTable.isSome then destroy entry.pageTable >>= fun _ => heapFree (some pte)
        else heapFree (some pte)).run heap := by
    unfold pteDestroy
    exact run_bind_of_ok read
  cases hung : entry.pageTable with
  | none =>
      rw [hung] at split child
      apply ((freesAll_heapFree freed live notGone).of_run split).congr
      intro addr
      constructor
      · exact .inl
      · intro owned
        rcases owned with same | ⟨next, there, -⟩
        · exact same
        · rw [child] at there
          contradiction
  | some next =>
      rw [hung] at split child
      have reachedNext : start.trie.tableAt root (path ++ [index]) = some next :=
        Trie.tableAt_concat_eq_some.mpr ⟨table, pte, reached, inSlot, child⟩
      have destroyed := below reachedNext freed fun addr owned =>
        kept addr (.inr ⟨next, child, owned⟩)
      have notBelow : ¬ start.Owned next pte := by
        intro owned
        obtain ⟨rest, other, behind, held⟩ := sound.below_holder reached inSlot child owned
        exact sound.not_held_behind reached behind held (.node inSlot)
      have both := destroyed.bind fun middle more freed' members =>
        freesAll_heapFree freed' live (by
          rw [List.mem_append, members]
          exact not_or.mpr ⟨notGone, notBelow⟩)
      apply (both.of_run split).congr
      intro addr
      constructor
      · intro owned
        rcases owned with owned | same
        · exact .inr ⟨next, child, owned⟩
        · exact .inl same
      · intro owned
        rcases owned with same | ⟨other, there, owned⟩
        · exact .inr same
        · cases child.symm.trans there
          exact .inl owned

theorem destroySlots_frees {ptes : Addr} (inTable : start.table table = some ptes)
    {first count : Nat} (inside : first + count ≤ ptesCount) (freed : start.Freed heap gone)
    (tableKept : table ∉ gone) (ptesKept : ptes ∉ gone)
    (kept : ∀ index pte addr, first ≤ index → start.trie.slot table index = some pte →
      start.OwnedEntry pte addr → addr ∉ gone) :
    FreesAll start (forRange (destroySlot destroy (some table)) first count) heap gone
      fun addr => ∃ index pte, first ≤ index ∧ index < first + count ∧
        start.trie.slot table index = some pte ∧ start.OwnedEntry pte addr := by
  induction count generalizing first heap gone with
  | zero =>
      apply (freesAll_pure freed).congr
      intro addr
      constructor
      · exact False.elim
      · intro inRange
        obtain ⟨index, pte, lower, upper, -⟩ := inRange
        omega
  | succ count ih =>
      obtain ⟨slots, array⟩ := sound.table_ptes inTable
      obtain ⟨inTable', array'⟩ := freed.slots inTable array tableKept ptesKept
      have slotHere : start.trie.slot table first = slots first := Heap.slot_eq inTable array
      have read := run_readEntry inTable' array' (by omega : first < ptesCount)
      have here : FreesAll start (destroySlot destroy (some table) first) heap gone
          fun addr => ∃ pte, start.trie.slot table first = some pte ∧
            start.OwnedEntry pte addr := by
        cases occupied : slots first with
        | none =>
            have idle : (destroySlot destroy (some table) first).run heap =
                (pure () : Exec Heap Unit).run heap := by
              rw [destroySlot, run_bind_of_ok read, occupied]
              rfl
            apply ((freesAll_pure freed).of_run idle).congr
            intro addr
            rw [slotHere, occupied]
            simp
        | some pte =>
            rw [occupied] at slotHere
            have visit : (destroySlot destroy (some table) first).run heap =
                (pteDestroy destroy (some pte)).run heap := by
              rw [destroySlot, run_bind_of_ok read, occupied]
              rfl
            have destroyed := pteDestroy_frees sound books reached below slotHere freed
              fun addr => kept first pte addr (Nat.le_refl _) slotHere
            apply (destroyed.of_run visit).congr
            intro addr
            rw [slotHere]
            simp
      have rest : ∀ middle more, start.Freed middle (gone ++ more) →
          (∀ addr, addr ∈ more ↔ ∃ pte, start.trie.slot table first = some pte ∧
            start.OwnedEntry pte addr) →
          FreesAll start (forRange (destroySlot destroy (some table)) (first + 1) count) middle
            (gone ++ more) fun addr => ∃ index pte, first + 1 ≤ index ∧
              index < first + 1 + count ∧ start.trie.slot table index = some pte ∧
                start.OwnedEntry pte addr := by
        intro middle more freed' members
        apply ih (by omega) freed'
        · rw [List.mem_append, members]
          refine not_or.mpr ⟨tableKept, fun visited => ?_⟩
          obtain ⟨pte, inSlot, owned⟩ := visited
          exact (sound.entry_apart reached inSlot inTable owned).1 rfl
        · rw [List.mem_append, members]
          refine not_or.mpr ⟨ptesKept, fun visited => ?_⟩
          obtain ⟨pte, inSlot, owned⟩ := visited
          exact (sound.entry_apart reached inSlot inTable owned).2 rfl
        · intro index pte addr later inSlot owned
          rw [List.mem_append, members]
          refine not_or.mpr ⟨kept index pte addr (by omega) inSlot owned, fun visited => ?_⟩
          obtain ⟨pte', inSlot', owned'⟩ := visited
          have same := sound.entries_apart reached inSlot inSlot' owned owned'
          omega
      apply (here.bind rest).congr
      intro addr
      constructor
      · intro freedHere
        rcases freedHere with ⟨pte, inSlot, owned⟩ | ⟨index, pte, lower, upper, inSlot, owned⟩
        · exact ⟨first, pte, Nat.le_refl _, by omega, inSlot, owned⟩
        · exact ⟨index, pte, by omega, by omega, inSlot, owned⟩
      · intro inRange
        obtain ⟨index, pte, lower, upper, inSlot, owned⟩ := inRange
        rcases Nat.eq_or_lt_of_le lower with rfl | later
        · exact .inl ⟨pte, inSlot, owned⟩
        · exact .inr ⟨index, pte, later, by omega, inSlot, owned⟩

end Level

/-- `CSC369_PageTableDestroy` frees every object below the table, and nothing else. -/
theorem pageTableDestroy_frees (sound : start.Sound (· = root)) (books : start.tracker.Books)
    {depth : Nat} (deep : 3 ≤ path.length + depth)
    (reached : start.trie.tableAt root path = some table) (freed : start.Freed heap gone)
    (kept : ∀ addr, start.Owned table addr → addr ∉ gone) :
    FreesAll start (pageTableDestroy depth (some table)) heap gone (start.Owned table) := by
  induction depth generalizing path table heap gone with
  | zero =>
      have short := sound.reached_depth reached
      omega
  | succ depth ih =>
      obtain ⟨ptes, inTable⟩ := sound.reached_table rfl reached
      obtain ⟨slots, array⟩ := sound.table_ptes inTable
      have tableKept := kept table (.self start table)
      have ptesKept := kept ptes (.array inTable)
      have below : DestroysBelow start root path (pageTableDestroy depth) := by
        intro index next heap gone reachedNext freed kept
        apply ih _ reachedNext freed kept
        rw [List.length_append, List.length_singleton]
        omega
      have inside : 0 + ptesCount ≤ ptesCount := Nat.le_of_eq (Nat.zero_add _)
      have loop := destroySlots_frees sound books reached below inTable inside freed tableKept
        ptesKept fun index pte addr _ inSlot owned =>
          kept addr (Heap.owned_iff.mpr (.inr (.inr ⟨index, pte, inSlot, owned⟩)))
      let finish : Exec Heap Unit := do
        let ptes ← readTable (some table)
        heapFree (some ptes)
        heapFree (some table)
      have last : ∀ middle more, start.Freed middle (gone ++ more) →
          (∀ addr, addr ∈ more ↔ ∃ index pte, 0 ≤ index ∧ index < 0 + ptesCount ∧
            start.trie.slot table index = some pte ∧ start.OwnedEntry pte addr) →
          FreesAll start finish middle (gone ++ more) fun addr => addr = ptes ∨ addr = table := by
        intro middle more freed' members
        have apart : table ∉ gone ++ more ∧ ptes ∉ gone ++ more := by
          rw [List.mem_append, List.mem_append, members, members]
          constructor
          · refine not_or.mpr ⟨tableKept, fun visited => ?_⟩
            obtain ⟨index, pte, -, -, inSlot, owned⟩ := visited
            exact (sound.entry_apart reached inSlot inTable owned).1 rfl
          · refine not_or.mpr ⟨ptesKept, fun visited => ?_⟩
            obtain ⟨index, pte, -, -, inSlot, owned⟩ := visited
            exact (sound.entry_apart reached inSlot inTable owned).2 rfl
        have liveTable := books.live_iff.mp (sound.table_live inTable)
        have livePtes := books.live_iff.mp (sound.ptes_live array)
        have read : (readTable (some table)).run middle = .ok ptes middle := by
          simp [readTable, (freed'.slots inTable array apart.1 apart.2).1]
        have notArray : table ≠ ptes := by
          rintro rfl
          rw [sound.table_kind inTable] at array
          contradiction
        have both := (freesAll_heapFree freed' livePtes apart.2).bind fun middle' more' freed''
          members' => freesAll_heapFree freed'' liveTable (by
            rw [List.mem_append, members']
            exact not_or.mpr ⟨apart.1, notArray⟩)
        exact both.of_run (run_bind_of_ok read)
      have split : (pageTableDestroy (depth + 1) (some table)).run heap =
          (forRange (destroySlot (pageTableDestroy depth) (some table)) 0 ptesCount >>=
            fun _ => finish).run heap := rfl
      apply ((loop.bind last).of_run split).congr
      intro addr
      rw [Heap.owned_iff]
      constructor
      · intro freedHere
        rcases freedHere with ⟨index, pte, -, -, inSlot, owned⟩ | rfl | rfl
        · exact .inr (.inr ⟨index, pte, inSlot, owned⟩)
        · exact .inr (.inl inTable)
        · exact .inl rfl
      · intro owned
        rcases owned with rfl | array' | ⟨index, pte, inSlot, owned⟩
        · exact .inr (.inr rfl)
        · exact .inr (.inl (Option.some.inj (inTable.symm.trans array')).symm)
        · have bound := sound.slot_lt inSlot
          exact .inl ⟨index, pte, Nat.zero_le _, by omega, inSlot, owned⟩

end Recursion

/-! ## The manager -/

section Manager
variable {heap : Heap} {root mm : Addr} {before : List AllocEvent}
  {requests : List (Addr × Nat)}

theorem Heap.Sound.owned_not_empty (sound : heap.Sound (· = root)) {addr : Addr}
    (owned : heap.Owned root addr) : ¬ heap.Empty addr := by
  obtain ⟨path, table, -, held⟩ := (sound.owned_holds rfl).mp owned
  intro empty
  cases held with
  | self inTable => cases inTable.symm.trans empty.2.1
  | array inTable =>
      obtain ⟨slots, array⟩ := sound.table_ptes inTable
      cases array.symm.trans empty.2.2
  | node inSlot =>
      obtain ⟨entry, here⟩ := sound.slot_pte inSlot
      cases here.symm.trans empty.1

/-- `CSC369_MMDestroy` frees the blocks obtained since the manager was created. -/
theorem mmDestroy_frees (sound : heap.Sound (· = root))
    (stocked : heap.Stocked root mm before requests) {depth : Nat} (deep : 3 ≤ depth) :
    FreesAll heap (mmDestroy depth mm (some root)) heap [] (· ∈ requests.map Prod.fst) := by
  have books := stocked.books
  have tables := pageTableDestroy_frees sound books
    (by simpa using deep : 3 ≤ ([] : List Nat).length + depth) rfl (Heap.Freed.refl books)
    fun addr _ => List.not_mem_nil
  have live : IsLive heap.tracker.log mm :=
    books.live_iff.mp (stocked.isLive ((stocked.blocks mm).mpr (.inl rfl)))
  have all := tables.bind fun middle more freed members => freesAll_heapFree freed live (by
    rw [List.nil_append, members]
    exact fun owned => sound.owned_not_empty owned stocked.manager)
  apply all.congr
  intro addr
  rw [stocked.blocks addr, or_comm]

end Manager

/-- `after` gives back what `world` obtained since `before`: each block was freed
once and nothing else, and the tracker counts as before. -/
structure GivesBack (before : Tracker) (world after : Heap) : Prop where
  freed : ∃ requests gone, world.tracker.log = before.log ++ grants requests ∧
    after.tracker.log = world.tracker.log ++ frees gone ∧
    List.Perm gone (requests.map Prod.fst) ∧ gone.Nodup
  count : ∃ count, mallocCurrentCount.run before = .ok count before ∧
    mallocCurrentCount.run after.tracker = .ok count after.tracker
  bytes : ∃ bytes, mallocCurrentBytes.run before = .ok bytes before ∧
    mallocCurrentBytes.run after.tracker = .ok bytes after.tracker

section GivesBack
variable {env : Env} {policy : Policy} {process : Process policy.State} {swapSize : Nat}
  {trace : List MemAccess} {values : List (Option UInt8)} {start world : World policy.State}
  {root mm : Addr} {heap : Heap} {requests : List (Addr × Nat)}

theorem Heap.Stocked.givesBack {before : Tracker} (booksBefore : before.Books)
    (sound : heap.Sound (· = root)) (stocked : heap.Stocked root mm before.log requests)
    {depth : Nat} (deep : 3 ≤ depth) : ∃ after,
      (mmDestroy depth mm (some root)).run heap = .ok () after ∧ GivesBack before heap after := by
  obtain ⟨after, gone, run, freed, members⟩ := mmDestroy_frees sound stocked deep
  rw [List.nil_append] at freed
  have each : List.Perm gone (requests.map Prod.fst) :=
    (List.perm_ext_iff_of_nodup freed.once stocked.distinct).mpr members
  have left : liveBlocks after.tracker.log = liveBlocks before.log := by
    have distinct := stocked.books.distinct
    rw [stocked.live, List.map_append, List.map_reverse] at distinct
    have apart := (List.nodup_append.mp distinct).2.2
    rw [freed.log, liveBlocks_frees, stocked.live, List.filter_append]
    have gave : requests.reverse.filter (fun block => block.1 ∉ gone) = [] := by
      apply List.filter_eq_nil_iff.mpr
      intro block inRequests
      have isGone : block.1 ∈ gone := (members block.1).mpr
        (List.mem_map.mpr ⟨block, List.mem_reverse.mp inRequests, rfl⟩)
      simpa using isGone
    have kept : (liveBlocks before.log).filter (fun block => block.1 ∉ gone) =
        liveBlocks before.log := by
      apply List.filter_eq_self.mpr
      intro block isLive
      have notGone : block.1 ∉ gone := fun isGone =>
        apart block.1 (List.mem_reverse.mpr ((members block.1).mp isGone)) block.1
          (List.mem_map.mpr ⟨block, isLive, rfl⟩) rfl
      simpa using notGone
    rw [gave, kept, List.nil_append]
  refine ⟨after, run, ⟨requests, gone, stocked.log, freed.log, each, freed.once⟩, ?_, ?_⟩
  · refine ⟨_, booksBefore.run_mallocCurrentCount, ?_⟩
    rw [freed.books.run_mallocCurrentCount, left]
  · refine ⟨_, booksBefore.run_mallocCurrentBytes, ?_⟩
    rw [freed.books.run_mallocCurrentBytes, left]

/-- After any run of accesses, destroying the manager returns and gives everything
back. -/
theorem mmDestroy_gives_back (cleared : process.Cleared) (books : process.heap.tracker.Books)
    (swapFits : swapSize < 2 ^ 64)
    (created : simulationCreate env policy process swapSize = .ok (some start))
    (run : (runAll (executeMemInstruction env policy) trace).run start = .ok values world)
    {depth : Nat} (deep : 3 ≤ depth) : ∃ after,
      (mmDestroy depth world.mm world.pageTable).run world.heap = .ok () after ∧
        GivesBack process.heap.tracker world.heap after := by
  obtain ⟨root, started⟩ := simulationCreate_started cleared swapFits created
  obtain ⟨root', requests, isRoot, stocked⟩ := simulationCreate_stocked cleared books created
  cases started.coherent.pageTable.symm.trans isRoot
  obtain ⟨coherent, requests', stocked'⟩ :=
    run_stocked (executes_executeMemInstruction env policy) started.coherent stocked run
  rw [coherent.pageTable]
  exact stocked'.givesBack books coherent.sound deep

theorem mmDestroy_gives_back_threePages : ∃ start values world after,
    simulationCreate (Env.ideal 2) policyClock (Process.fresh policyClock) 3 = .ok (some start) ∧
      (runAll (executeMemInstruction (Env.ideal 2) policyClock) threePages).run start =
        .ok values world ∧
      (mmDestroy 3 world.mm world.pageTable).run world.heap = .ok () after ∧
      GivesBack Tracker.init world.heap after := by
  have check : reaches (Env.ideal 2) policyClock 3
      (executeMemInstruction (Env.ideal 2) policyClock) threePages (fun _ => true) = true := by
    decide +kernel
  obtain ⟨start, values, world, created, run, -⟩ := exists_reached check
  obtain ⟨after, destroyed, back⟩ := mmDestroy_gives_back (fresh_cleared policyClock)
    Tracker.books_init (by decide) created run (Nat.le_refl 3)
  exact ⟨start, values, world, after, created, run, destroyed, back⟩

end GivesBack

end MemSim
