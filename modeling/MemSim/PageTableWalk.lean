import MemSim.PageTableShape

/-!
# `CSC369_PageTableAllocate` as a map from pages to entries

`Heap.leafAt` reads the entry of a page off the trie.  The main theorem says
that an allocation whose requests are all granted returns the entry of the page,
creates it with the initial fields if there was none, and changes neither the
entry of another page nor a field of an existing entry; and that a refused
request never ends in an entry being returned.
-/

set_option autoImplicit false

namespace MemSim

open Exec

/-- The entry of page `page` in the page table `root`. -/
def Heap.leafAt (heap : Heap) (root : Addr) (page : Nat) : Option Addr :=
  heap.trie.nodeAt root [page / 2 ^ 24, page / 2 ^ 12 % 2 ^ 12] (page % 2 ^ 12)

theorem leafAt_address (heap : Heap) (root : Addr) (virtualAddress : Nat) :
    heap.leafAt root (pageNumber virtualAddress) =
      heap.trie.nodeAt root
        [allocateIndex1 virtualAddress, allocateIndex2 virtualAddress]
        (allocateIndex3 virtualAddress) := by
  have first : pageNumber virtualAddress / 2 ^ 24 = allocateIndex1 virtualAddress := by
    simp only [pageNumber, pageSize_eq, allocateIndex1]
    omega
  have second : pageNumber virtualAddress / 2 ^ 12 % 2 ^ 12 = allocateIndex2 virtualAddress := by
    simp only [pageNumber, pageSize_eq, allocateIndex2]
    omega
  have third : pageNumber virtualAddress % 2 ^ 12 = allocateIndex3 virtualAddress := rfl
  rw [Heap.leafAt, first, second, third]

theorem page_of_indices {page page' : Nat} (first : page / 2 ^ 24 = page' / 2 ^ 24)
    (second : page / 2 ^ 12 % 2 ^ 12 = page' / 2 ^ 12 % 2 ^ 12)
    (third : page % 2 ^ 12 = page' % 2 ^ 12) : page = page' := by
  omega

theorem Heap.Sound.leafAt_inj {heap : Heap} {isRoot : Addr → Prop} (sound : heap.Sound isRoot)
    {root root' page page' pte : Nat} (rootHere : isRoot root) (rootThere : isRoot root')
    (found : heap.leafAt root page = some pte) (found' : heap.leafAt root' page' = some pte) :
    root = root' ∧ page = page' := by
  obtain ⟨rootSame, path, third⟩ := sound.parents.nodeAt_inj rootHere rootThere found found'
  simp only [List.cons.injEq, and_true] at path
  exact ⟨rootSame, page_of_indices path.1 path.2 third⟩

theorem Heap.Sound.leafAt_pte {heap : Heap} {isRoot : Addr → Prop} (sound : heap.Sound isRoot)
    {root page pte : Nat} (found : heap.leafAt root page = some pte) :
    ∃ entry, heap.pte pte = some entry := by
  obtain ⟨_, -, inSlot⟩ := Trie.nodeAt_eq_some.mp found
  exact sound.slot_pte inSlot

theorem Heap.leafAt_setPte {heap : Heap} {addr : Addr} {entry : PTE}
    (same : entry.pageTable = heap.trie.child addr) (root page : Nat) :
    (heap.setPte addr entry).leafAt root page = heap.leafAt root page := by
  rw [Heap.leafAt, Heap.trie_setPte same, Heap.leafAt]

variable (env : Env) {heap : Heap} {isRoot : Addr → Prop}

theorem run_onTracker_csc369Malloc (heap : Heap) (size : Nat) :
    (onTracker (csc369Malloc env size)).run heap =
      .ok (mallocAnswer env heap.tracker size)
        (heap.setTracker (heap.tracker.record size (mallocAnswer env heap.tracker size))) := by
  rw [onTracker, run_onPart_of_ok (run_csc369Malloc env heap.tracker size)]

theorem run_pteCreate_of_none {heap : Heap}
    (answer : mallocAnswer env heap.tracker sizeofPte = none) :
    (pteCreate env).run heap =
      .ok none (heap.setTracker (heap.tracker.record sizeofPte none)) := by
  have request := run_onTracker_csc369Malloc env heap sizeofPte
  rw [answer] at request
  exact run_whenSome_of_none request

theorem run_pteCreate_of_some {heap : Heap} {pte : Addr}
    (answer : mallocAnswer env heap.tracker sizeofPte = some pte) :
    (pteCreate env).run heap = .ok (some pte)
      ((heap.setTracker (heap.tracker.record sizeofPte (some pte))).setPte pte PTE.initial) := by
  have request := run_onTracker_csc369Malloc env heap sizeofPte
  rw [answer] at request
  rw [pteCreate, run_whenSome_of_some request]
  simp only [EStateM.run_bind, EStateM.run_modify, EStateM.run_pure]

theorem granted_absent (sound : heap.Sound isRoot) {size : Nat} {addr : Addr}
    (answer : mallocAnswer env heap.tracker size = some addr) :
    (heap.setTracker (heap.tracker.record size (some addr))).Sound isRoot ∧
      (heap.tracker.record size (some addr)).live addr = true ∧
      heap.pte addr = none ∧ heap.table addr = none ∧ heap.ptes addr = none := by
  obtain ⟨small, fresh⟩ := mallocAnswer_eq_some env answer
  have live : (heap.tracker.record size (some addr)).live =
      Function.update heap.tracker.live addr true :=
    Tracker.live_record_some addr (Nat.lt_trans small (by decide))
  refine ⟨sound.setTracker ?_, ?_, sound.absent fresh⟩
  · intro other wasLive
    rw [live]
    by_cases same : other = addr
    · simp [same]
    · simpa [Function.update_of_ne same] using wasLive
  · simp [live]

theorem record_some_log (tracker : Tracker) (size : Nat) (addr : Addr) :
    (tracker.record size (some addr)).log = tracker.log ++ [.malloc size (some addr)] ∧
      AllocationsSucceed [.malloc size (some addr)] :=
  ⟨tracker.log_record size _, allocationsSucceed_singleton.mpr (by simp)⟩

def Heap.withEntry (heap : Heap) (ptes : Addr) (slots : Nat → Option Addr) (index : Nat)
    (pte : Addr) : Heap :=
  ((heap.setTracker (heap.tracker.record sizeofPte (some pte))).setPte pte PTE.initial).setPtes
    ptes (Function.update slots index (some pte))

section EnsurePte
variable {table ptes index : Nat} {slots : Nat → Option Addr}
  (inTable : heap.table table = some ptes) (array : heap.ptes ptes = some slots)
  (bound : index < ptesCount)
include inTable array bound

theorem run_ensurePte_present {pte : Addr} (occupied : slots index = some pte) :
    (ensurePte env (some table) index).run heap = .ok (some pte) heap := by
  simp [ensurePte, EStateM.run_bind, run_readEntry inTable array bound, occupied]

/-- `NULL` is written over `NULL`. -/
theorem run_ensurePte_refused (empty : slots index = none)
    (answer : mallocAnswer env heap.tracker sizeofPte = none) :
    (ensurePte env (some table) index).run heap =
      .ok none (heap.setTracker (heap.tracker.record sizeofPte none)) := by
  have inTable' : (heap.setTracker (heap.tracker.record sizeofPte none)).table table =
      some ptes := inTable
  have array' : (heap.setTracker (heap.tracker.record sizeofPte none)).ptes ptes =
      some slots := array
  simp only [ensurePte, EStateM.run_bind, run_readEntry inTable array bound, empty,
    Option.isNone_none, if_true, run_pteCreate_of_none env answer]
  generalize heap.setTracker (heap.tracker.record sizeofPte none) = after at *
  have write : after.setPtes ptes (Function.update slots index none) = after := by
    rw [← empty, Function.update_eq_self]
    simp only [Heap.setPtes]
    rw [← array', Function.update_eq_self]
  rw [run_writeEntry inTable' array' bound, write]
  simp only [run_readEntry inTable' array' bound, empty]

theorem run_ensurePte_created (empty : slots index = none) {pte : Addr}
    (answer : mallocAnswer env heap.tracker sizeofPte = some pte) :
    (ensurePte env (some table) index).run heap =
      .ok (some pte) (heap.withEntry ptes slots index pte) := by
  simp only [ensurePte, EStateM.run_bind, run_readEntry inTable array bound, empty,
    Option.isNone_none, if_true, run_pteCreate_of_some env answer, Heap.withEntry]
  have inTable' : ((heap.setTracker (heap.tracker.record sizeofPte (some pte))).setPte pte
      PTE.initial).table table = some ptes := inTable
  have array' : ((heap.setTracker (heap.tracker.record sizeofPte (some pte))).setPte pte
      PTE.initial).ptes ptes = some slots := array
  generalize (heap.setTracker (heap.tracker.record sizeofPte (some pte))).setPte pte
    PTE.initial = created at *
  have inTableNew : (created.setPtes ptes (Function.update slots index (some pte))).table table =
      some ptes := inTable'
  have arrayNew : (created.setPtes ptes (Function.update slots index (some pte))).ptes ptes =
      some (Function.update slots index (some pte)) := by simp [Heap.setPtes]
  rw [run_writeEntry inTable' array' bound]
  simp only [run_readEntry inTableNew arrayNew bound, Function.update_self]

end EnsurePte

/-- One level: the entry found or created in slot `index` of the table that
`path` leads to, or a refused request. -/
theorem ensurePte_spec (sound : heap.Sound isRoot) {root table index : Nat} {path : List Nat}
    (rootHere : isRoot root) (reached : heap.trie.tableAt root path = some table)
    (inTable : ∃ ptes, heap.table table = some ptes) (bound : index < ptesCount) :
    (∃ pte after ext, (ensurePte env (some table) index).run heap = .ok (some pte) after ∧
      after.tracker.log = heap.tracker.log ++ ext ∧ AllocationsSucceed ext ∧
      after.Sound isRoot ∧ heap.Grown after ∧
      after.trie.nodeAt root path index = some pte ∧
      (∀ root' path' index', isRoot root' →
        ¬ (root' = root ∧ path' = path ∧ index' = index) →
        after.trie.nodeAt root' path' index' = heap.trie.nodeAt root' path' index') ∧
      ((∃ old, heap.trie.nodeAt root path index = some old) → after = heap) ∧
      (heap.trie.nodeAt root path index = none →
        heap.pte pte = none ∧ after.pte pte = some PTE.initial) ∧
      ∀ root' path', after.trie.tableAt root' path' = heap.trie.tableAt root' path') ∨
    (∃ after ext, (ensurePte env (some table) index).run heap = .ok none after ∧
      after.tracker.log = heap.tracker.log ++ ext ∧ ¬ AllocationsSucceed ext) := by
  obtain ⟨ptes, inTable⟩ := inTable
  obtain ⟨slots, array⟩ := sound.table_ptes inTable
  have slotHere : heap.trie.slot table index = slots index := Heap.slot_eq inTable array
  have nodeHere : heap.trie.nodeAt root path index = slots index := by
    rw [Trie.nodeAt, reached, Option.bind_some, slotHere]
  cases occupied : slots index with
  | some pte =>
      left
      have run := run_ensurePte_present env inTable array bound occupied
      refine ⟨pte, heap, [], run, by simp, allocationsSucceed_nil, sound, Heap.Grown.refl heap,
        nodeHere.trans occupied, fun _ _ _ _ _ => rfl, fun _ => rfl, ?_, fun _ _ => rfl⟩
      intro none'
      rw [nodeHere, occupied] at none'
      contradiction
  | none =>
      have empty : heap.trie.slot table index = none := slotHere.trans occupied
      cases answer : mallocAnswer env heap.tracker sizeofPte with
      | none =>
          right
          exact ⟨_, [.malloc sizeofPte none],
            run_ensurePte_refused env inTable array bound occupied answer,
            Tracker.log_record _ _ _,
            fun succeed => (allocationsSucceed_singleton.mp succeed) rfl⟩
      | some pte =>
          left
          obtain ⟨soundTracker, live, absent⟩ := granted_absent env sound answer
          let created := (heap.setTracker
            (heap.tracker.record sizeofPte (some pte))).setPte pte PTE.initial
          have soundCreated : created.Sound isRoot := soundTracker.newPte live absent
          have here : created.pte pte = some PTE.initial := by simp [created, Heap.setPte]
          have childless : heap.trie.child pte = none := by simp [Heap.trie, absent.1]
          have createdTrie : created.trie = heap.trie :=
            Heap.trie_setPte (by simp [PTE.initial, childless])
          have fresh : ∀ t i, heap.trie.slot t i ≠ some pte := by
            intro t i inSlot
            obtain ⟨entry, entryHere⟩ := sound.slot_pte inSlot
            rw [absent.1] at entryHere
            contradiction
          let after := created.setPtes ptes (Function.update slots index (some pte))
          have inTable' : created.table table = some ptes := inTable
          have array' : created.ptes ptes = some slots := array
          have afterTrie : after.trie = heap.trie.fillSlot table index pte := by
            rw [Heap.trie_fillSlot soundCreated inTable' array', createdTrie]
          have run : (ensurePte env (some table) index).run heap = .ok (some pte) after :=
            run_ensurePte_created env inTable array bound occupied answer
          refine ⟨pte, after, [.malloc sizeofPte (some pte)], run,
            (record_some_log _ _ _).1, (record_some_log heap.tracker _ _).2, ?_, ?_, ?_, ?_, ?_, ?_, ?_⟩
          · exact soundCreated.fillSlot inTable' array' bound (by rw [createdTrie, empty]) here
              (by rw [createdTrie, childless]) (by rw [createdTrie]; exact fresh)
          · refine ⟨?_, ?_⟩
            · intro addr entry entryHere
              have apart : addr ≠ pte := by
                rintro rfl
                rw [absent.1] at entryHere
                contradiction
              exact ⟨entry.pageTable, by
                simpa [after, created, Heap.setPtes, Heap.setPte, Heap.setTracker,
                  Function.update_of_ne apart] using entryHere⟩
            · intro addr entry none' entryHere
              by_cases same : addr = pte
              · subst same
                exact ⟨none, (Option.some.inj (here.symm.trans entryHere)).symm⟩
              · have old : heap.pte addr = some entry := by
                  simpa [after, created, Heap.setPtes, Heap.setPte, Heap.setTracker,
                    Function.update_of_ne same] using entryHere
                rw [none'] at old
                contradiction
          · rw [afterTrie, Trie.nodeAt_fillSlot empty childless, if_pos ⟨reached, rfl⟩]
          · intro root' path' index' rootThere other
            rw [afterTrie, Trie.nodeAt_fillSlot empty childless, if_neg]
            rintro ⟨reached', rfl⟩
            obtain ⟨rfl, rfl⟩ :=
              sound.parents.tableAt_inj rootThere rootHere reached' reached
            exact other ⟨rfl, rfl, rfl⟩
          · rintro ⟨old, found⟩
            rw [nodeHere, occupied] at found
            contradiction
          · intro _
            exact ⟨absent.1, here⟩
          · intro root' path'
            rw [afterTrie, Trie.tableAt_fillSlot empty childless]

theorem run_pageTableCreate_of_none {heap : Heap}
    (answer : mallocAnswer env heap.tracker sizeofPageTable = none) :
    (pageTableCreate env).run heap =
      .ok none (heap.setTracker (heap.tracker.record sizeofPageTable none)) := by
  have request := run_onTracker_csc369Malloc env heap sizeofPageTable
  rw [answer] at request
  exact run_whenSome_of_none request

section Created
variable {table : Addr} (answer : mallocAnswer env heap.tracker sizeofPageTable = some table)
include answer

theorem run_pageTableCreate_of_some_none
    (answer' : mallocAnswer env (heap.tracker.record sizeofPageTable (some table)) sizeofPtes =
      none) :
    (pageTableCreate env).run heap = .ok none (heap.setTracker
      ((heap.tracker.record sizeofPageTable (some table)).record sizeofPtes none)) := by
  have request := run_onTracker_csc369Malloc env heap sizeofPageTable
  rw [answer] at request
  rw [pageTableCreate, run_whenSome_of_some request]
  have request' := run_onTracker_csc369Malloc env
    (heap.setTracker (heap.tracker.record sizeofPageTable (some table))) sizeofPtes
  rw [Heap.tracker_setTracker, answer'] at request'
  exact run_whenSome_of_none request'

theorem run_pageTableCreate_of_some {ptes : Addr}
    (answer' : mallocAnswer env (heap.tracker.record sizeofPageTable (some table)) sizeofPtes =
      some ptes) :
    (pageTableCreate env).run heap = .ok (some table)
      (((heap.setTracker ((heap.tracker.record sizeofPageTable (some table)).record sizeofPtes
        (some ptes))).setPtes ptes fun _ => none).setTable table ptes) := by
  have request := run_onTracker_csc369Malloc env heap sizeofPageTable
  rw [answer] at request
  rw [pageTableCreate, run_whenSome_of_some request]
  have request' := run_onTracker_csc369Malloc env
    (heap.setTracker (heap.tracker.record sizeofPageTable (some table))) sizeofPtes
  rw [Heap.tracker_setTracker, answer', Heap.setTracker_setTracker] at request'
  rw [run_whenSome_of_some request']
  simp only [EStateM.run_bind, EStateM.run_modify, EStateM.run_pure]

end Created

/-- A new table: sound, empty, in nobody's hands, and no entry or walk changed;
or a refused request. -/
theorem pageTableCreate_spec (sound : heap.Sound isRoot) :
    (∃ table ptes after ext, (pageTableCreate env).run heap = .ok (some table) after ∧
      after.tracker.log = heap.tracker.log ++ ext ∧ AllocationsSucceed ext ∧
      after.Sound isRoot ∧ after.pte = heap.pte ∧ after.trie = heap.trie ∧
      heap.table table = none ∧ after.table table = some ptes ∧
      ∀ index, heap.trie.slot table index = none) ∨
    (∃ after ext, (pageTableCreate env).run heap = .ok none after ∧
      after.pte = heap.pte ∧
      after.tracker.log = heap.tracker.log ++ ext ∧ ¬ AllocationsSucceed ext) := by
  cases answer : mallocAnswer env heap.tracker sizeofPageTable with
  | none =>
      right
      exact ⟨_, [.malloc sizeofPageTable none], run_pageTableCreate_of_none env answer, rfl,
        Tracker.log_record _ _ _, fun succeed => (allocationsSucceed_singleton.mp succeed) rfl⟩
  | some table =>
      obtain ⟨soundFirst, liveTable, absentTable⟩ := granted_absent env sound answer
      cases answer' : mallocAnswer env (heap.tracker.record sizeofPageTable (some table))
          sizeofPtes with
      | none =>
          right
          refine ⟨_, [.malloc sizeofPageTable (some table), .malloc sizeofPtes none],
            run_pageTableCreate_of_some_none env answer answer', rfl, ?_, ?_⟩
          · simp only [Heap.tracker_setTracker, Tracker.log_record, List.append_assoc,
              List.cons_append, List.nil_append]
          · intro succeed
            have refused := succeed (.malloc sizeofPtes none) (by simp)
            simp [AllocEvent.refused] at refused
      | some ptes =>
          left
          have run := run_pageTableCreate_of_some env answer answer'
          obtain ⟨soundSecond, livePtes, absentPtes⟩ :=
            granted_absent env soundFirst answer'
          have freshPtes := (mallocAnswer_eq_some env answer').2
          have apart : table ≠ ptes := by
            rintro rfl
            exact Bool.noConfusion (liveTable.symm.trans freshPtes)
          have stillLive : ((heap.tracker.record sizeofPageTable (some table)).record
              sizeofPtes (some ptes)).live table = true := by
            rw [Tracker.live_record_some _ sizeofPtes_lt, Function.update_of_ne apart]
            exact liveTable
          have log : ((heap.tracker.record sizeofPageTable (some table)).record
              sizeofPtes (some ptes)).log = heap.tracker.log ++
                [.malloc sizeofPageTable (some table), .malloc sizeofPtes (some ptes)] := by
            simp only [Tracker.log_record, List.append_assoc, List.cons_append, List.nil_append]
          rw [Heap.setTracker_setTracker, Heap.tracker_setTracker] at soundSecond
          rw [Heap.tracker_setTracker] at livePtes
          generalize (heap.tracker.record sizeofPageTable (some table)).record sizeofPtes
            (some ptes) = tracker at *
          refine ⟨table, ptes, _, _, run, log, ?_,
            soundSecond.newTable apart stillLive livePtes absentTable absentPtes,
            rfl, Heap.trie_newTable soundSecond absentTable.2.1 absentPtes.2.2,
            absentTable.2.1, by simp [Heap.setTable], ?_⟩
          · simp [AllocationsSucceed, AllocEvent.refused]
          · intro index
            simp [Heap.trie, absentTable.2.1]

theorem Heap.Sound.addRoot (sound : heap.Sound isRoot) {table ptes : Addr}
    (inTable : heap.table table = some ptes) (fresh : ∀ pte, heap.trie.child pte ≠ some table)
    (empty : ∀ index, heap.trie.slot table index = none) :
    heap.Sound fun root => root = table ∨ isRoot root :=
  { sound with
    root_table := by
      rintro root (rfl | rootHere)
      · exact ⟨ptes, inTable⟩
      · exact sound.root_table rootHere
    parents :=
      { sound.parents with
        child_not_root := by
          rintro pte below hung (rfl | rootHere)
          · exact fresh pte hung
          · exact sound.parents.child_not_root hung rootHere }
    leaf_childless := by
      rintro root i j k pte (rfl | rootHere) found
      · obtain ⟨inner, reached, -⟩ := Trie.nodeAt_eq_some.mp found
        obtain ⟨_, _, inSlot, -⟩ := Trie.tableAt_cons_eq_some.mp reached
        rw [empty] at inSlot
        contradiction
      · exact sound.leaf_childless rootHere found }

theorem pageTableCreate_some (sound : heap.Sound isRoot) {table : Addr} {after : Heap}
    (run : (pageTableCreate env).run heap = .ok (some table) after) :
    after.pte = heap.pte ∧ after.trie = heap.trie ∧ heap.table table = none ∧
      (∀ index, after.trie.slot table index = none) ∧
      after.Sound fun root => root = table ∨ isRoot root := by
  rcases pageTableCreate_spec env sound with
    ⟨table', ptes, after', ext, run', -, -, soundAfter, samePte, sameTrie, fresh, inTable, empty⟩ |
    ⟨after', ext, run', -⟩
  · cases run.symm.trans run'
    have noParent : ∀ pte, after.trie.child pte ≠ some table := by
      intro pte hung
      rw [sameTrie] at hung
      obtain ⟨_, there⟩ := sound.child_table hung
      rw [fresh] at there
      contradiction
    have empty' : ∀ index, after.trie.slot table index = none := by
      rw [sameTrie]
      exact empty
    exact ⟨samePte, sameTrie, fresh, empty', soundAfter.addRoot inTable noParent empty'⟩
  · cases run.symm.trans run'

theorem pageTableCreate_root (sound : heap.Sound isRoot)
    (granted : AllocationsSucceed (finalState ((pageTableCreate env).run heap)).tracker.log) :
    ∃ table after, (pageTableCreate env).run heap = .ok (some table) after ∧
      after.pte = heap.pte ∧ after.trie = heap.trie ∧ heap.table table = none ∧
      (∀ index, after.trie.slot table index = none) ∧
      after.Sound fun root => root = table ∨ isRoot root := by
  rcases pageTableCreate_spec env sound with
    ⟨table, ptes, after, ext, run, -⟩ | ⟨after, ext, run, -, log, refused⟩
  · exact ⟨table, after, run, pageTableCreate_some env sound run⟩
  · rw [run, finalState_ok, log] at granted
    exact absurd (allocationsSucceed_append.mp granted).2 refused

section EnsureTable
variable {pte : Addr} {entry : PTE} {created : Heap}

theorem run_ensureTable_present (here : heap.pte pte = some entry) {table : Addr}
    (below : entry.pageTable = some table) :
    (ensureTable env (some pte)).run heap = .ok (some table) heap := by
  have child : heap.trie.child pte = some table := by simp [Heap.trie, here, below]
  simp [ensureTable, EStateM.run_bind, run_readChild here, child]

theorem run_ensureTable_created (here : heap.pte pte = some entry) (below : entry.pageTable = none)
    {table : Addr} (createRun : (pageTableCreate env).run heap = .ok (some table) created)
    (samePte : created.pte = heap.pte) :
    (ensureTable env (some pte)).run heap =
      .ok (some table) (created.setPte pte { entry with pageTable := some table }) := by
  have child : heap.trie.child pte = none := by simp [Heap.trie, here, below]
  have here' : created.pte pte = some entry := by rw [samePte, here]
  have here'' : (created.setPte pte { entry with pageTable := some table }).pte pte =
      some { entry with pageTable := some table } := by
    simp [Heap.setPte]
  simp only [ensureTable, EStateM.run_bind, run_readChild here, child,
    Option.isNone_none, if_true, createRun, run_writeChild here', run_readChild here'']
  simp [Heap.trie, here'']

/-- `NULL` is written over `NULL`. -/
theorem run_ensureTable_refused (here : heap.pte pte = some entry) (below : entry.pageTable = none)
    (createRun : (pageTableCreate env).run heap = .ok none created)
    (samePte : created.pte = heap.pte) :
    (ensureTable env (some pte)).run heap = .ok none created := by
  have child : heap.trie.child pte = none := by simp [Heap.trie, here, below]
  have here' : created.pte pte = some entry := by rw [samePte, here]
  have write : created.setPte pte { entry with pageTable := none } = created := by
    have same : { entry with pageTable := none } = entry := by
      rw [← below]
    rw [same]
    simp only [Heap.setPte]
    rw [← here', Function.update_eq_self]
  simp only [ensureTable, EStateM.run_bind, run_readChild here, child,
    Option.isNone_none, if_true, createRun, run_writeChild here', write,
    run_readChild here']
  simp [Heap.trie, here', below]

end EnsureTable

/-- The table below the directory entry at the end of `path ++ [index]`, found
or created, or a refused request. -/
theorem ensureTable_spec (sound : heap.Sound isRoot) {root index pte : Nat} {path : List Nat}
    (rootHere : isRoot root) (found : heap.trie.nodeAt root path index = some pte)
    (directory : path.length < 2) :
    (∃ table after ext, (ensureTable env (some pte)).run heap = .ok (some table) after ∧
      after.tracker.log = heap.tracker.log ++ ext ∧ AllocationsSucceed ext ∧
      after.Sound isRoot ∧ heap.Grown after ∧
      after.trie.tableAt root (path ++ [index]) = some table ∧
      (∀ root' path' index', after.trie.nodeAt root' path' index' =
        heap.trie.nodeAt root' path' index') ∧
      ((∃ old, heap.trie.child pte = some old) → after = heap) ∧
      (∀ root' path' t, isRoot root' → after.trie.tableAt root' path' = some t →
        heap.trie.tableAt root' path' = some t ∨ root' = root ∧ path' = path ++ [index])) ∨
    (∃ after ext, (ensureTable env (some pte)).run heap = .ok none after ∧
      after.tracker.log = heap.tracker.log ++ ext ∧ ¬ AllocationsSucceed ext) := by
  obtain ⟨inside, reached, inSlot⟩ := Trie.nodeAt_eq_some.mp found
  obtain ⟨entry, here⟩ := sound.slot_pte inSlot
  cases below : heap.trie.child pte with
  | some table =>
      left
      have run := run_ensureTable_present env here (by simpa [Heap.trie, here] using below)
      exact ⟨table, heap, [], run, by simp, allocationsSucceed_nil, sound, Heap.Grown.refl heap,
        Trie.tableAt_concat_eq_some.mpr ⟨inside, pte, reached, inSlot, below⟩,
        fun _ _ _ => rfl, fun _ => rfl, fun _ _ _ _ reached => .inl reached⟩
  | none =>
      rcases pageTableCreate_spec env sound with
        ⟨table, ptes, created, ext, createRun, createLog, granted, soundCreated, samePte,
          sameTrie, freshTable, inTable, empty⟩ |
        ⟨created, ext, createRun, samePte, createLog, refused⟩
      · left
        have here' : created.pte pte = some entry := by rw [samePte, here]
        have childless : created.trie.child pte = none := by rw [sameTrie, below]
        have empty' : ∀ index, created.trie.slot table index = none := by
          rw [sameTrie]
          exact empty
        have fresh : ∀ other, created.trie.child other ≠ some table := by
          intro other hung
          rw [sameTrie] at hung
          obtain ⟨_, there⟩ := sound.child_table hung
          rw [freshTable] at there
          contradiction
        have notRoot : ¬ isRoot table := by
          intro isRootTable
          obtain ⟨_, there⟩ := sound.root_table isRootTable
          rw [freshTable] at there
          contradiction
        have notLeaf : ∀ root' i j k, isRoot root' →
            created.trie.nodeAt root' [i, j] k ≠ some pte := by
          intro root' i j k rootThere leaf
          rw [sameTrie] at leaf
          obtain ⟨-, pathSame, -⟩ := sound.parents.nodeAt_inj rootThere rootHere leaf found
          rw [← pathSame] at directory
          simp at directory
        let after := created.setPte pte { entry with pageTable := some table }
        have afterTrie : after.trie = heap.trie.hangTable pte table := by
          rw [Heap.trie_hangTable, sameTrie]
        have here'' : after.pte pte = some { entry with pageTable := some table } := by
          simp [after, Heap.setPte]
        have noTable : entry.pageTable = none := by
          simpa [Heap.trie, here] using below
        have run : (ensureTable env (some pte)).run heap = .ok (some table) after :=
          run_ensureTable_created env here noTable createRun samePte
        have soundAfter : after.Sound isRoot :=
          soundCreated.hangTable here' inTable childless empty' fresh notRoot notLeaf
        have reachedNew : after.trie.tableAt root (path ++ [index]) = some table := by
          rw [afterTrie]
          exact Trie.tableAt_hangTable_new below empty found
        refine ⟨table, after, ext, run, createLog, granted, soundAfter,
          ⟨?_, ?_⟩, reachedNew, ?_, ?_, ?_⟩
        · intro addr old oldHere
          by_cases same : addr = pte
          · subst same
            cases Option.some.inj (here.symm.trans oldHere)
            exact ⟨some table, here''⟩
          · exact ⟨old.pageTable, by
              simpa [after, Heap.setPte, Function.update_of_ne same, samePte] using oldHere⟩
        · intro addr new none' newHere
          have apart : addr ≠ pte := by
            rintro rfl
            rw [here] at none'
            contradiction
          have old : heap.pte addr = some new := by
            simpa [after, Heap.setPte, Function.update_of_ne apart, samePte] using newHere
          rw [none'] at old
          contradiction
        · intro root' path' index'
          rw [afterTrie, Trie.nodeAt_hangTable below empty]
        · rintro ⟨old, hung⟩
          contradiction
        · intro root' path' t rootThere reached'
          rcases Trie.tableAt_hangTable below empty root' path' with same | ⟨-, new⟩ | ⟨-, none'⟩
          · left
            rw [← same, ← afterTrie, reached']
          · right
            rw [← afterTrie] at new
            exact soundAfter.parents.tableAt_inj rootThere rootHere new reachedNew
          · rw [← afterTrie, reached'] at none'
            contradiction
      · right
        have noTable : entry.pageTable = none := by
          simpa [Heap.trie, here] using below
        have run := run_ensureTable_refused env here noTable createRun samePte
        exact ⟨created, ext, run, createLog, refused⟩

/-! ## What is requested -/

/-- The request for the entry in slot `index` of the table that `path` leads to. -/
def Heap.entryRequests (heap : Heap) (root : Addr) (path : List Nat) (index : Nat) : List Nat :=
  if (heap.trie.nodeAt root path index).isSome then [] else [sizeofPte]

/-- The requests for the table that `path` leads to. -/
def Heap.tableRequests (heap : Heap) (root : Addr) (path : List Nat) : List Nat :=
  if (heap.trie.tableAt root path).isSome then [] else [sizeofPageTable, sizeofPtes]

/-- What is requested on the path of an address above its entry: two directory
entries and two tables, as far as they are missing. -/
def Heap.pathRequests (heap : Heap) (root virtualAddress : Nat) : List Nat :=
  heap.entryRequests root [] (allocateIndex1 virtualAddress) ++
    (heap.tableRequests root [allocateIndex1 virtualAddress] ++
      (heap.entryRequests root [allocateIndex1 virtualAddress] (allocateIndex2 virtualAddress) ++
        heap.tableRequests root [allocateIndex1 virtualAddress, allocateIndex2 virtualAddress]))

theorem ensurePte_requests (sound : heap.Sound isRoot) {root table index : Nat} {path : List Nat}
    (reached : heap.trie.tableAt root path = some table)
    (inTable : ∃ ptes, heap.table table = some ptes) (bound : index < ptesCount)
    {result : Option Addr} {after : Heap}
    (run : (ensurePte env (some table) index).run heap = .ok result after) :
    (result.isSome = true ↔ Granted env heap.tracker (heap.entryRequests root path index)) ∧
      after.tracker = heap.tracker.grant env (heap.entryRequests root path index) ∧
      (result = none → after = heap.setTracker (heap.tracker.record sizeofPte none)) := by
  obtain ⟨ptes, inTable⟩ := inTable
  obtain ⟨slots, array⟩ := sound.table_ptes inTable
  have nodeHere : heap.trie.nodeAt root path index = slots index := by
    rw [Trie.nodeAt, reached, Option.bind_some, Heap.slot_eq inTable array]
  cases occupied : slots index with
  | some pte =>
      rw [run_ensurePte_present env inTable array bound occupied] at run
      cases run
      simp [Heap.entryRequests, nodeHere, occupied, Granted, Tracker.grant]
  | none =>
      cases answer : mallocAnswer env heap.tracker sizeofPte with
      | none =>
          rw [run_ensurePte_refused env inTable array bound occupied answer] at run
          cases run
          simp [Heap.entryRequests, nodeHere, occupied, Granted, Tracker.grant, answer]
      | some pte =>
          rw [run_ensurePte_created env inTable array bound occupied answer] at run
          cases run
          simp [Heap.entryRequests, nodeHere, occupied, Granted, Tracker.grant, answer,
            Heap.withEntry, Heap.setPtes, Heap.setPte]

theorem ensureTable_requests (sound : heap.Sound isRoot) {root index pte : Nat} {path : List Nat}
    (found : heap.trie.nodeAt root path index = some pte) {result : Option Addr} {after : Heap}
    (run : (ensureTable env (some pte)).run heap = .ok result after) :
    (result.isSome = true ↔ Granted env heap.tracker (heap.tableRequests root (path ++ [index]))) ∧
      (result.isSome = true →
        after.tracker = heap.tracker.grant env (heap.tableRequests root (path ++ [index]))) := by
  obtain ⟨inside, reached, inSlot⟩ := Trie.nodeAt_eq_some.mp found
  obtain ⟨entry, here⟩ := sound.slot_pte inSlot
  have tableHere : heap.trie.tableAt root (path ++ [index]) = entry.pageTable := by
    rw [Trie.tableAt_append, reached, Option.bind_some]
    simp only [Trie.tableAt, inSlot]
    cases below : entry.pageTable <;> simp [Heap.trie, here, below]
  cases below : entry.pageTable with
  | some table =>
      rw [run_ensureTable_present env here below] at run
      cases run
      simp [Heap.tableRequests, tableHere, below, Granted, Tracker.grant]
  | none =>
      cases answer : mallocAnswer env heap.tracker sizeofPageTable with
      | none =>
          have createRun := run_pageTableCreate_of_none env answer
          rw [run_ensureTable_refused env here below createRun rfl] at run
          cases run
          simp [Heap.tableRequests, tableHere, below, Granted, answer]
      | some table =>
          cases answer' : mallocAnswer env (heap.tracker.record sizeofPageTable (some table))
              sizeofPtes with
          | none =>
              have createRun := run_pageTableCreate_of_some_none env answer answer'
              rw [run_ensureTable_refused env here below createRun rfl] at run
              cases run
              simp [Heap.tableRequests, tableHere, below, Granted, answer, answer']
          | some ptes =>
              have createRun := run_pageTableCreate_of_some env answer answer'
              rw [run_ensureTable_created env here below createRun rfl] at run
              cases run
              simp [Heap.tableRequests, tableHere, below, Granted, Tracker.grant, answer, answer',
                Heap.setTable, Heap.setPtes, Heap.setPte]

/-! ## The whole allocation -/

/-- What a granted `CSC369_PageTableAllocate` did for page `page` of table
`root`, and the entry `pte` it returned. -/
structure Heap.Allocated (before after : Heap) (isRoot : Addr → Prop) (root page pte : Nat) :
    Prop where
  sound : after.Sound isRoot
  grown : before.Grown after
  leaf : after.leafAt root page = some pte
  others : ∀ root' page', isRoot root' → ¬ (root' = root ∧ page' = page) →
    after.leafAt root' page' = before.leafAt root' page'
  tables : ∀ root' i j table, isRoot root' → after.trie.tableAt root' [i, j] = some table →
    before.trie.tableAt root' [i, j] = some table ∨
      root' = root ∧ [i, j] = [page / 2 ^ 24, page / 2 ^ 12 % 2 ^ 12]
  again : ∀ old, before.leafAt root page = some old → old = pte ∧ after = before
  created : before.leafAt root page = none →
    before.pte pte = none ∧ after.pte pte = some PTE.initial

theorem Heap.Grown.leaf_kept {before after : Heap} (grown : before.Grown after)
    (sound : before.Sound isRoot) (sound' : after.Sound isRoot) {root page pte : Nat}
    (rootHere : isRoot root) (found : before.leafAt root page = some pte)
    (found' : after.leafAt root page = some pte) : after.pte pte = before.pte pte := by
  obtain ⟨entry, here⟩ := sound.leafAt_pte found
  obtain ⟨pageTable, here'⟩ := grown.old here
  have childless := sound.leaf_childless rootHere found
  have childless' := sound'.leaf_childless rootHere found'
  simp only [Heap.trie, here, here'] at childless childless'
  rw [here', here, childless', ← childless]

theorem Heap.Allocated.leaf_kept {before after : Heap} {root page pte : Nat}
    (allocated : before.Allocated after isRoot root page pte) (sound : before.Sound isRoot)
    {root' page' pte' : Nat} (rootThere : isRoot root')
    (found : before.leafAt root' page' = some pte') : after.pte pte' = before.pte pte' := by
  by_cases same : root' = root ∧ page' = page
  · obtain ⟨rfl, rfl⟩ := same
    rw [(allocated.again pte' found).2]
  · have found' := (allocated.others root' page' rootThere same).trans found
    exact allocated.grown.leaf_kept sound allocated.sound rootThere found found'

theorem ensurePte_none (index : Nat) (heap : Heap) :
    (ensurePte env none index).run heap = .error .nullPointer heap := by
  simp [ensurePte, readEntry, readTable]

theorem ensureTable_none (heap : Heap) :
    (ensureTable env none).run heap = .error .nullPointer heap := by
  simp [ensureTable, readChild, readPte]

/-- `CSC369_PageTableAllocate` above the entry: the table of the third level, or
`NULL`. -/
def lowerTable (pageTable : Option Addr) (virtualAddress : Nat) : Exec Heap (Option Addr) := do
  let pte1 ← ensurePte env pageTable (allocateIndex1 virtualAddress)
  let pageTable2 ← ensureTable env pte1
  let pte2 ← ensurePte env pageTable2 (allocateIndex2 virtualAddress)
  ensureTable env pte2

theorem run_pageTableAllocate (root virtualAddress : Nat) (heap : Heap) :
    (pageTableAllocate env (some root) virtualAddress).run heap =
      (lowerTable env (some root) virtualAddress >>= fun table =>
        ensurePte env table (allocateIndex3 virtualAddress)).run heap := by
  simp only [pageTableAllocate, lowerTable, Option.isSome_some, EStateM.run_bind,
    run_require_true]
  cases (ensurePte env (some root) (allocateIndex1 virtualAddress)).run heap with
  | error fault after => rfl
  | ok pte1 heap1 =>
      dsimp only
      cases (ensureTable env pte1).run heap1 with
      | error fault after => rfl
      | ok table2 heap2 =>
          dsimp only
          cases (ensurePte env table2 (allocateIndex2 virtualAddress)).run heap2 with
          | error fault after => rfl
          | ok pte2 heap3 => rfl

theorem run_pageTableAllocate_present (sound : heap.Sound isRoot) {root pte virtualAddress : Nat}
    (found : heap.leafAt root (pageNumber virtualAddress) = some pte) :
    (pageTableAllocate env (some root) virtualAddress).run heap = .ok (some pte) heap := by
  rw [leafAt_address] at found
  obtain ⟨table3, reached3, slot3⟩ := Trie.nodeAt_eq_some.mp found
  obtain ⟨table2, pte2, reached2, slot2, child2⟩ :=
    (@Trie.tableAt_concat_eq_some _ _ _ _ _ [_] _ _).mp reached3
  obtain ⟨table1, pte1, reached1, slot1, child1⟩ :=
    (@Trie.tableAt_concat_eq_some _ _ _ _ _ [] _ _).mp reached2
  cases Option.some.inj reached1
  have present : ∀ {table index pte}, heap.trie.slot table index = some pte →
      (ensurePte env (some table) index).run heap = .ok (some pte) heap := by
    intro table index pte inSlot
    obtain ⟨ptes, slots, inTable, array, occupied⟩ := Heap.slot_eq_some.mp inSlot
    exact run_ensurePte_present env inTable array (sound.slot_lt inSlot) occupied
  have below : ∀ {table index pte child}, heap.trie.slot table index = some pte →
      heap.trie.child pte = some child →
        (ensureTable env (some pte)).run heap = .ok (some child) heap := by
    intro table index pte child inSlot hung
    obtain ⟨entry, here⟩ := sound.slot_pte inSlot
    exact run_ensureTable_present env here (by simpa [Heap.trie, here] using hung)
  rw [run_pageTableAllocate]
  simp only [lowerTable, EStateM.run_bind, present slot1, below slot1 child1, present slot2,
    below slot2 child2, present slot3]

/-- What the directory of `root` gained on the way to the table `table`. -/
structure Heap.Extended (before after : Heap) (isRoot : Addr → Prop)
    (root index1 index2 table : Nat) : Prop where
  sound : after.Sound isRoot
  grown : before.Grown after
  reached : after.trie.tableAt root [index1, index2] = some table
  leaves : ∀ root' i j k, isRoot root' →
    after.trie.nodeAt root' [i, j] k = before.trie.nodeAt root' [i, j] k
  tables : ∀ root' i j t, isRoot root' → after.trie.tableAt root' [i, j] = some t →
    before.trie.tableAt root' [i, j] = some t ∨ root' = root ∧ [i, j] = [index1, index2]
  again : ∀ t, before.trie.tableAt root [index1, index2] = some t → after = before

theorem lowerTable_spec (sound : heap.Sound isRoot) {root : Addr} (rootHere : isRoot root)
    {virtualAddress : Nat} (bound : virtualAddress < 2 ^ 48) :
    (∃ table after ext, (lowerTable env (some root) virtualAddress).run heap =
        .ok (some table) after ∧
      after.tracker.log = heap.tracker.log ++ ext ∧ AllocationsSucceed ext ∧
      Granted env heap.tracker (heap.pathRequests root virtualAddress) ∧
      after.tracker = heap.tracker.grant env (heap.pathRequests root virtualAddress) ∧
      heap.Extended after isRoot root (allocateIndex1 virtualAddress)
        (allocateIndex2 virtualAddress) table) ∨
    (¬ Granted env heap.tracker (heap.pathRequests root virtualAddress) ∧ ∃ after ext,
      ((lowerTable env (some root) virtualAddress).run heap = .ok none after ∨
        (lowerTable env (some root) virtualAddress).run heap = .error .nullPointer after) ∧
      after.tracker.log = heap.tracker.log ++ ext ∧ ¬ AllocationsSucceed ext) := by
  have bound1 : allocateIndex1 virtualAddress < ptesCount := by
    simp only [allocateIndex1, ptesCount_eq]
    omega
  have bound2 : allocateIndex2 virtualAddress < ptesCount := Nat.mod_lt _ (by decide)
  simp only [lowerTable, Heap.pathRequests, EStateM.run_bind]
  generalize allocateIndex1 virtualAddress = i1 at *
  generalize allocateIndex2 virtualAddress = i2 at *
  have atRoot : heap.trie.tableAt root [] = some root := rfl
  rcases ensurePte_spec env sound rootHere atRoot (sound.root_table rootHere) bound1 with
    ⟨pte1, heap1, ext1, run1, log1, ok1, sound1, grown1, found1, others1, again1, -, tables1⟩ |
    ⟨heap1, ext1, run1, log1, refused1⟩
  all_goals
    obtain ⟨granted1, tracker1, -⟩ :=
      ensurePte_requests env sound atRoot (sound.root_table rootHere) bound1 run1
  swap
  · right
    simp only [run1, ensureTable_none]
    refine ⟨?_, heap1, ext1, .inr rfl, log1, refused1⟩
    intro granted
    exact Bool.false_ne_true (granted1.mpr ((granted_append env).mp granted).1)
  simp only [run1]
  have same1 : heap1.tableRequests root [i1] = heap.tableRequests root [i1] := by
    rw [Heap.tableRequests, tables1, Heap.tableRequests]
  rcases ensureTable_spec env sound1 rootHere found1 (by simp) with
    ⟨table2, heap2, ext2, run2, log2, ok2, sound2, grown2, reached2, others2, again2, tables2⟩ |
    ⟨heap2, ext2, run2, log2, refused2⟩
  all_goals
    obtain ⟨granted2, tracker2⟩ := ensureTable_requests env sound1 found1 run2
    rw [List.nil_append, same1, tracker1] at granted2 tracker2
  swap
  · right
    simp only [run2, ensurePte_none]
    refine ⟨?_, heap2, ext1 ++ ext2, .inr rfl, by simp [log2, log1],
      fun succeed => refused2 (allocationsSucceed_append.mp succeed).2⟩
    intro granted
    have rest := ((granted_append env).mp granted).2
    exact Bool.false_ne_true (granted2.mpr ((granted_append env).mp rest).1)
  simp only [run2]
  have inTable2 : ∃ ptes, heap2.table table2 = some ptes := by
    obtain ⟨_, node, -, -, below⟩ := Trie.tableAt_concat_eq_some.mp reached2
    exact sound2.child_table below
  have same2 : heap2.entryRequests root [i1] i2 = heap.entryRequests root [i1] i2 := by
    rw [Heap.entryRequests, others2, others1 _ _ _ rootHere (by simp), Heap.entryRequests]
  rcases ensurePte_spec env sound2 rootHere reached2 inTable2 bound2 with
    ⟨pte2, heap3, ext3, run3, log3, ok3, sound3, grown3, found3, others3, again3, -, tables3⟩ |
    ⟨heap3, ext3, run3, log3, refused3⟩
  all_goals
    obtain ⟨granted3, tracker3, -⟩ := ensurePte_requests env sound2 reached2 inTable2 bound2 run3
    rw [List.nil_append, same2, tracker2 rfl] at granted3 tracker3
  swap
  · right
    simp only [run3, ensureTable_none]
    refine ⟨?_, heap3, ext1 ++ (ext2 ++ ext3), .inr rfl, by simp [log3, log2, log1],
      fun succeed => refused3
        (allocationsSucceed_append.mp (allocationsSucceed_append.mp succeed).2).2⟩
    intro granted
    have rest := ((granted_append env).mp ((granted_append env).mp granted).2).2
    exact Bool.false_ne_true (granted3.mpr ((granted_append env).mp rest).1)
  simp only [run3]
  have again12 : ∀ t, heap.trie.tableAt root [i1] = some t → heap2 = heap := by
    intro t reached
    obtain ⟨table', node', reached', inSlot', below'⟩ :=
      (@Trie.tableAt_concat_eq_some _ _ _ _ _ [] _ _).mp reached
    have here := Trie.nodeAt_eq_some.mpr ⟨table', reached', inSlot'⟩
    have unchanged := again1 ⟨node', here⟩
    subst unchanged
    have same : pte1 = node' := Option.some.inj (found1.symm.trans here)
    exact again2 ⟨t, by rw [same, below']⟩
  have same3 : heap3.tableRequests root [i1, i2] = heap.tableRequests root [i1, i2] := by
    have kept : heap3.trie.tableAt root [i1, i2] = heap.trie.tableAt root [i1, i2] := by
      rw [tables3]
      cases upper : heap.trie.tableAt root [i1] with
      | some t => rw [again12 t upper]
      | none =>
          have absent : heap.trie.tableAt root [i1, i2] = none := by
            have split := Trie.tableAt_append heap.trie root [i1] [i2]
            rw [upper] at split
            exact split
          cases below : heap2.trie.tableAt root [i1, i2] with
          | none => rw [absent]
          | some t =>
              rcases tables2 _ _ _ rootHere below with reached | ⟨-, new⟩
              · rw [tables1, absent] at reached
                contradiction
              · simp at new
    rw [Heap.tableRequests, kept, Heap.tableRequests]
  rcases ensureTable_spec env sound3 rootHere found3 (by simp) with
    ⟨table3, heap4, ext4, run4, log4, ok4, sound4, grown4, reached4, others4, again4, tables4⟩ |
    ⟨heap4, ext4, run4, log4, refused4⟩
  all_goals
    obtain ⟨granted4, tracker4⟩ := ensureTable_requests env sound3 found3 run4
    simp only [List.nil_append, List.cons_append] at granted4 tracker4
    rw [same3, tracker3] at granted4 tracker4
  swap
  · right
    refine ⟨?_, heap4, ext1 ++ (ext2 ++ (ext3 ++ ext4)), .inl run4,
      by simp [log4, log3, log2, log1],
      fun succeed => refused4 (allocationsSucceed_append.mp
        (allocationsSucceed_append.mp (allocationsSucceed_append.mp succeed).2).2).2⟩
    intro granted
    have rest := ((granted_append env).mp ((granted_append env).mp granted).2).2
    exact Bool.false_ne_true (granted4.mpr ((granted_append env).mp rest).2)
  left
  simp only [List.nil_append, List.cons_append] at reached4 found3 again3 tables4
  refine ⟨table3, heap4, ext1 ++ (ext2 ++ (ext3 ++ ext4)), run4, ?_, ?_, ?_, ?_, ?_⟩
  · simp [log4, log3, log2, log1]
  · simp only [allocationsSucceed_append]
    exact ⟨ok1, ok2, ok3, ok4⟩
  · simp only [granted_append]
    exact ⟨granted1.mp rfl, granted2.mp rfl, granted3.mp rfl, granted4.mp rfl⟩
  · rw [tracker4 rfl]
    simp only [Tracker.grant_append]
  refine ⟨sound4, grown1.trans (grown2.trans (grown3.trans grown4)), reached4, ?_, ?_, ?_⟩
  · intro root' i j k rootThere
    rw [others4, others3 _ _ _ rootThere (by simp), others2,
      others1 _ _ _ rootThere (by simp)]
  · intro root' i j t rootThere reached
    rcases tables4 _ _ _ rootThere reached with reached | new
    · rw [tables3] at reached
      rcases tables2 _ _ _ rootThere reached with reached | new
      · left
        rw [← tables1, reached]
      · simp at new
    · right
      exact new
  · intro t reached
    obtain ⟨table', node', reached', inSlot', below'⟩ :=
      (@Trie.tableAt_concat_eq_some _ _ _ _ _ [i1] _ _).mp reached
    have unchanged := again12 table' reached'
    subst unchanged
    have here := Trie.nodeAt_eq_some.mpr ⟨table', reached', inSlot'⟩
    have same3 := again3 ⟨node', here⟩
    subst same3
    have pte2Same : pte2 = node' := Option.some.inj (found3.symm.trans here)
    exact again4 ⟨t, by rw [pte2Same, below']⟩

/-- A refused request ends in a `NULL` being returned or dereferenced. -/
theorem pageTableAllocate_spec (sound : heap.Sound isRoot) {root : Addr} (rootHere : isRoot root)
    {virtualAddress : Nat} (bound : virtualAddress < 2 ^ 48) :
    (∃ pte after ext,
      (pageTableAllocate env (some root) virtualAddress).run heap = .ok (some pte) after ∧
      after.tracker.log = heap.tracker.log ++ ext ∧ AllocationsSucceed ext ∧
      heap.Allocated after isRoot root (pageNumber virtualAddress) pte) ∨
    (∃ after ext,
      ((pageTableAllocate env (some root) virtualAddress).run heap = .ok none after ∨
        (pageTableAllocate env (some root) virtualAddress).run heap = .error .nullPointer after) ∧
      after.tracker.log = heap.tracker.log ++ ext ∧ ¬ AllocationsSucceed ext) := by
  have bound3 : allocateIndex3 virtualAddress < ptesCount := Nat.mod_lt _ (by decide)
  rw [run_pageTableAllocate]
  rcases lowerTable_spec env sound rootHere bound with
    ⟨table, middle, ext, run, log, succeed, -, -, extended⟩ |
    ⟨-, middle, ext, run | run, log, refused⟩
  · rw [run_bind_of_ok run]
    have inTable : ∃ ptes, middle.table table = some ptes := by
      obtain ⟨_, node, -, -, below⟩ :=
        (@Trie.tableAt_concat_eq_some _ _ _ _ _ [_] _ _).mp extended.reached
      exact extended.sound.child_table below
    rcases ensurePte_spec env extended.sound rootHere extended.reached inTable bound3 with
      ⟨pte, after, ext', run', log', succeed', sound', grown', found, others, again, created,
        tables⟩ |
      ⟨after, ext', run', log', refused⟩
    · left
      refine ⟨pte, after, ext ++ ext', run', by rw [log', log, List.append_assoc],
        allocationsSucceed_append.mpr ⟨succeed, succeed'⟩, ?_⟩
      have leaf (heap : Heap) : heap.leafAt root (pageNumber virtualAddress) = _ :=
        leafAt_address heap root virtualAddress
      have path : [pageNumber virtualAddress / 2 ^ 24,
          pageNumber virtualAddress / 2 ^ 12 % 2 ^ 12] =
            [allocateIndex1 virtualAddress, allocateIndex2 virtualAddress] ∧
          pageNumber virtualAddress % 2 ^ 12 = allocateIndex3 virtualAddress := by
        simp only [pageNumber, pageSize_eq, allocateIndex1, allocateIndex2, allocateIndex3,
          List.cons.injEq, and_true]
        omega
      refine ⟨sound', extended.grown.trans grown', ?_, ?_, ?_, ?_, ?_⟩
      · rw [leaf]
        exact found
      · intro root' page' rootThere other
        rw [Heap.leafAt, others _ _ _ rootThere, extended.leaves _ _ _ _ rootThere, Heap.leafAt]
        rintro ⟨rfl, pathSame, indexSame⟩
        refine other ⟨rfl, ?_⟩
        rw [← path.1] at pathSame
        rw [← path.2] at indexSame
        simp only [List.cons.injEq, and_true] at pathSame
        exact page_of_indices pathSame.1 pathSame.2 indexSame
      · intro root' i j t rootThere reached
        rw [tables] at reached
        rw [path.1]
        exact extended.tables root' i j t rootThere reached
      · intro old here
        rw [leaf] at here
        obtain ⟨t, reached, -⟩ := Trie.nodeAt_eq_some.mp here
        have unchanged := extended.again t reached
        subst unchanged
        have same := again ⟨old, here⟩
        subst same
        exact ⟨Option.some.inj (here.symm.trans found), rfl⟩
      · intro absent
        rw [leaf, ← extended.leaves _ _ _ _ rootHere] at absent
        obtain ⟨absent', initial⟩ := created absent
        refine ⟨?_, initial⟩
        cases here : heap.pte pte with
        | none => rfl
        | some entry =>
            obtain ⟨_, here'⟩ := extended.grown.old here
            rw [absent'] at here'
            contradiction
    · right
      exact ⟨after, ext ++ ext', .inl run', by rw [log', log, List.append_assoc],
        fun succeed => refused (allocationsSucceed_append.mp succeed).2⟩
  · right
    rw [run_bind_of_ok run, ensurePte_none]
    exact ⟨middle, ext, .inr rfl, log, refused⟩
  · right
    rw [run_bind_of_error run]
    exact ⟨middle, ext, .inr rfl, log, refused⟩

end MemSim
