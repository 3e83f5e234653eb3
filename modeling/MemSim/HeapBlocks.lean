import MemSim.EvictionLog
import MemSim.HeapSteps
import MemSim.PageTableDestroy
import MemSim.TrackerBooks

/-!
# The blocks of a simulation

From `CSC369_MMCreate` on, the blocks obtained are the manager's block and the
objects below the root of its page table, each requested once.
-/

set_option autoImplicit false

namespace MemSim

open Exec

/-! ## Requests that were granted -/

def grants (requests : List (Addr × Nat)) : List AllocEvent :=
  requests.map fun block => .malloc block.2 (some block.1)

theorem grants_append (first second : List (Addr × Nat)) :
    grants (first ++ second) = grants first ++ grants second := List.map_append

theorem liveBlocks_grants (log : List AllocEvent) (requests : List (Addr × Nat)) :
    liveBlocks (log ++ grants requests) = requests.reverse ++ liveBlocks log := by
  induction requests using List.reverseRecOn with
  | nil => simp [grants]
  | append_singleton requests block ih =>
      have last : grants [block] = [.malloc block.2 (some block.1)] := rfl
      rw [grants_append, last, ← List.append_assoc, liveBlocks_append, ih]
      simp [AllocEvent.apply]

theorem grantedBytes_grants (log : List AllocEvent) (requests : List (Addr × Nat)) :
    grantedBytes (log ++ grants requests) = grantedBytes log + totalSize requests := by
  induction requests using List.reverseRecOn with
  | nil => simp [grants, totalSize]
  | append_singleton requests block ih =>
      have last : grants [block] = [.malloc block.2 (some block.1)] := rfl
      rw [grants_append, last, ← List.append_assoc, grantedBytes_append, ih]
      simp [AllocEvent.granted, totalSize, Nat.add_assoc]

/-! ## What a building step adds -/

theorem Heap.granted_table (env : Env) {heap : Heap} {isRoot : Addr → Prop}
    (sound : heap.Sound isRoot) {table ptes : Addr}
    (answer : mallocAnswer env heap.tracker sizeofPageTable = some table)
    (answer' : mallocAnswer env (heap.tracker.record sizeofPageTable (some table)) sizeofPtes =
      some ptes) : heap.Empty table ∧ heap.Empty ptes ∧ table ≠ ptes := by
  obtain ⟨soundFirst, live, absent⟩ := granted_absent env sound answer
  obtain ⟨-, -, absent'⟩ := granted_absent env soundFirst answer'
  have fresh := (mallocAnswer_eq_some env answer').2
  refine ⟨absent, absent', ?_⟩
  rintro rfl
  exact Bool.noConfusion (live.symm.trans fresh)

section Added
variable (env : Env) {heap : Heap} {root addr : Addr} (sound : heap.Sound (· = root))
include sound

section Entry
variable {path : List Nat} {table ptes index pte : Addr} {slots : Nat → Option Addr}
  (reached : heap.trie.tableAt root path = some table) (inTable : heap.table table = some ptes)
  (array : heap.ptes ptes = some slots) (empty : slots index = none)
  (answer : mallocAnswer env heap.tracker sizeofPte = some pte)
include inTable array answer

theorem Heap.trie_withEntry :
    (heap.withEntry ptes slots index pte).trie = heap.trie.fillSlot table index pte := by
  obtain ⟨soundTracker, live, absent⟩ := granted_absent env sound answer
  have soundCreated := soundTracker.newPte live absent
  have childless : heap.trie.child pte = none := by simp [Heap.trie, absent.1]
  have createdTrie : ((heap.setTracker
      (heap.tracker.record sizeofPte (some pte))).setPte pte PTE.initial).trie = heap.trie :=
    Heap.trie_setPte (by simp [PTE.initial, childless])
  rw [Heap.withEntry, Heap.trie_fillSlot soundCreated inTable array, createdTrie]

include reached empty in
theorem Heap.owned_withEntry : (heap.withEntry ptes slots index pte).Owned root addr ↔
    heap.Owned root addr ∨ addr = pte := by
  obtain ⟨-, -, absent⟩ := granted_absent env sound answer
  have childless : heap.trie.child pte = none := by simp [Heap.trie, absent.1]
  have unused : heap.trie.slot table index = none := by rw [Heap.slot_eq inTable array, empty]
  have tables : (heap.withEntry ptes slots index pte).table = heap.table := rfl
  simp only [Heap.Owned, Heap.trie_withEntry env sound inTable array answer, tables,
    Trie.tableAt_fillSlot unused childless, Trie.nodeAt_fillSlot unused childless]
  constructor
  · intro owned
    obtain ⟨path', here | here | ⟨index', here⟩⟩ := owned
    · exact .inl ⟨path', .inl here⟩
    · exact .inl ⟨path', .inr (.inl here)⟩
    · split at here
      · exact .inr (Option.some.inj here).symm
      · exact .inl ⟨path', .inr (.inr ⟨index', here⟩)⟩
  · intro owned
    rcases owned with ⟨path', here | here | ⟨index', here⟩⟩ | rfl
    · exact ⟨path', .inl here⟩
    · exact ⟨path', .inr (.inl here)⟩
    · refine ⟨path', .inr (.inr ⟨index', ?_⟩)⟩
      rw [if_neg, here]
      intro same
      rw [Trie.nodeAt, same.1, same.2, Option.bind_some, unused] at here
      contradiction
    · exact ⟨path, .inr (.inr ⟨index, by rw [if_pos ⟨reached, rfl⟩]⟩)⟩

end Entry

section Table
variable {path : List Nat} {index pte table ptes : Addr} {entry : PTE}
  (found : heap.trie.nodeAt root path index = some pte) (here : heap.pte pte = some entry)
  (below : entry.pageTable = none)
  (answer : mallocAnswer env heap.tracker sizeofPageTable = some table)
  (answer' : mallocAnswer env (heap.tracker.record sizeofPageTable (some table)) sizeofPtes =
    some ptes)
include answer answer'

omit answer answer' in
theorem Heap.trie_withTable (freshTable : heap.table table = none)
    (freshPtes : heap.ptes ptes = none) :
    (heap.withTable pte entry table ptes).trie = heap.trie.hangTable pte table := by
  have created := @Heap.trie_newTable heap _ sound table ptes freshTable freshPtes
  rw [Heap.withTable, Heap.trie_hangTable]
  congr 1

include found here below in
theorem Heap.owned_withTable : (heap.withTable pte entry table ptes).Owned root addr ↔
    heap.Owned root addr ∨ addr = table ∨ addr = ptes := by
  obtain ⟨freshTable, freshPtes, -⟩ := Heap.granted_table env sound answer answer'
  have childless : heap.trie.child pte = none := by simp [Heap.trie, here, below]
  have empty : ∀ index, heap.trie.slot table index = none := by
    intro index
    simp [Heap.trie, freshTable.2.1]
  have tables : (heap.withTable pte entry table ptes).table =
      Function.update heap.table table (some ptes) := rfl
  have old : ∀ {path' t}, heap.trie.tableAt root path' = some t → t ≠ table := by
    intro path' t reached same
    obtain ⟨ptes', inTable⟩ := sound.reached_table rfl reached
    rw [same, freshTable.2.1] at inTable
    exact absurd inTable.symm (Option.some_ne_none ptes')
  have reachedNew := Trie.tableAt_hangTable_new childless empty found
  simp only [Heap.Owned, Heap.trie_withTable sound freshTable.2.1 freshPtes.2.2, tables,
    Trie.nodeAt_hangTable childless empty]
  constructor
  · intro owned
    obtain ⟨path', reached | ⟨t, reached, inTable⟩ | leaf⟩ := owned
    · rcases Trie.tableAt_hangTable childless empty root path' with same | ⟨-, new⟩ | ⟨-, none'⟩
      · exact .inl ⟨path', .inl (same.symm.trans reached)⟩
      · exact .inr (.inl (Option.some.inj (reached.symm.trans new)))
      · cases reached.symm.trans none'
    · rcases Trie.tableAt_hangTable childless empty root path' with same | ⟨-, new⟩ | ⟨-, none'⟩
      · have reached' := same.symm.trans reached
        rw [Function.update_of_ne (old reached')] at inTable
        exact .inl ⟨path', .inr (.inl ⟨t, reached', inTable⟩)⟩
      · cases reached.symm.trans new
        rw [Function.update_self] at inTable
        exact .inr (.inr (Option.some.inj inTable).symm)
      · cases reached.symm.trans none'
    · exact .inl ⟨path', .inr (.inr leaf)⟩
  · intro owned
    rcases owned with ⟨path', reached | ⟨t, reached, inTable⟩ | leaf⟩ | rfl | rfl
    · exact ⟨path', .inl (Trie.tableAt_hangTable_of_some childless empty reached)⟩
    · refine ⟨path', .inr (.inl ⟨t, Trie.tableAt_hangTable_of_some childless empty reached, ?_⟩)⟩
      rw [Function.update_of_ne (old reached), inTable]
    · exact ⟨path', .inr (.inr leaf)⟩
    · exact ⟨_, .inl reachedNew⟩
    · exact ⟨_, .inr (.inl ⟨table, reachedNew, Function.update_self _ _ _⟩)⟩

end Table

end Added

/-! ## The blocks obtained since the manager was created -/

/-- Since the log was `before`, `requests` were granted: the manager's block `mm`
and the objects below `root`. -/
structure Heap.Stocked (heap : Heap) (root mm : Addr) (before : List AllocEvent)
    (requests : List (Addr × Nat)) : Prop where
  books : heap.tracker.Books
  log : heap.tracker.log = before ++ grants requests
  blocks : ∀ addr, addr ∈ requests.map Prod.fst ↔ addr = mm ∨ heap.Owned root addr
  manager : heap.Empty mm
  entries : ∀ addr entry, heap.pte addr = some entry → (addr, sizeofPte) ∈ requests

section Stocked
variable {env : Env} {heap after : Heap} {root mm : Addr} {before : List AllocEvent}
  {requests : List (Addr × Nat)}

theorem Heap.Stocked.live (stocked : heap.Stocked root mm before requests) :
    liveBlocks heap.tracker.log = requests.reverse ++ liveBlocks before := by
  rw [stocked.log, liveBlocks_grants]

theorem Heap.Stocked.isLive (stocked : heap.Stocked root mm before requests) {addr : Addr}
    (requested : addr ∈ requests.map Prod.fst) : heap.tracker.live addr = true := by
  obtain ⟨block, mem, rfl⟩ := List.mem_map.mp requested
  rw [stocked.books.live_iff, IsLive, stocked.live]
  exact List.mem_map.mpr
    ⟨block, List.mem_append_left _ (List.mem_reverse.mpr mem), rfl⟩

theorem Heap.Stocked.distinct (stocked : heap.Stocked root mm before requests) :
    (requests.map Prod.fst).Nodup := by
  have all := stocked.books.distinct
  rw [stocked.live, List.map_append, List.map_reverse] at all
  exact List.nodup_reverse.mp (List.Nodup.of_append_left all)

theorem Heap.Stocked.manager_ne (stocked : heap.Stocked root mm before requests) {addr : Addr}
    (fresh : heap.tracker.live addr = false) : mm ≠ addr := by
  rintro rfl
  have live := stocked.isLive ((stocked.blocks mm).mpr (.inl rfl))
  exact Bool.noConfusion (live.symm.trans fresh)

section Entry
variable {path : List Nat} {table ptes index pte : Addr} {slots : Nat → Option Addr}

theorem Heap.Stocked.withEntry (stocked : heap.Stocked root mm before requests)
    (sound : heap.Sound (· = root)) (reached : heap.trie.tableAt root path = some table)
    (inTable : heap.table table = some ptes) (array : heap.ptes ptes = some slots)
    (empty : slots index = none) (answer : mallocAnswer env heap.tracker sizeofPte = some pte) :
    (heap.withEntry ptes slots index pte).Stocked root mm before
      (requests ++ [(pte, sizeofPte)]) := by
  have apart := stocked.manager_ne (mallocAnswer_eq_some env answer).2
  have manager := stocked.manager
  have notArray : mm ≠ ptes := by
    rintro rfl
    rw [manager.2.2] at array
    contradiction
  have kept := stocked.books.malloc env (by decide : 1 ≤ sizeofPte)
  rw [answer] at kept
  have pteAt : (heap.withEntry ptes slots index pte).pte =
      Function.update heap.pte pte (some PTE.initial) := rfl
  constructor
  · exact kept
  · change (heap.tracker.record sizeofPte (some pte)).log = _
    rw [Tracker.log_record, stocked.log, grants_append, List.append_assoc]
    rfl
  · intro addr
    rw [Heap.owned_withEntry env sound reached inTable array empty answer, List.map_append,
      List.mem_append, stocked.blocks, or_assoc]
    simp
  · refine ⟨?_, manager.2.1, ?_⟩
    · rw [pteAt, Function.update_of_ne apart]
      exact manager.1
    · change Function.update heap.ptes ptes _ mm = none
      rw [Function.update_of_ne notArray]
      exact manager.2.2
  · intro addr found here
    rw [pteAt] at here
    by_cases same : addr = pte
    · rw [same]
      exact List.mem_append_right _ List.mem_cons_self
    · rw [Function.update_of_ne same] at here
      exact List.mem_append_left _ (stocked.entries addr found here)

end Entry

section Table
variable {path : List Nat} {index pte table ptes : Addr} {entry : PTE}

theorem Heap.Stocked.withTable (stocked : heap.Stocked root mm before requests)
    (sound : heap.Sound (· = root)) (found : heap.trie.nodeAt root path index = some pte)
    (here : heap.pte pte = some entry) (below : entry.pageTable = none)
    (answer : mallocAnswer env heap.tracker sizeofPageTable = some table)
    (answer' : mallocAnswer env (heap.tracker.record sizeofPageTable (some table)) sizeofPtes =
      some ptes) :
    (heap.withTable pte entry table ptes).Stocked root mm before
      (requests ++ [(table, sizeofPageTable), (ptes, sizeofPtes)]) := by
  obtain ⟨freshTable, freshPtes, -⟩ := Heap.granted_table env sound answer answer'
  have manager := stocked.manager
  have notTable := stocked.manager_ne (mallocAnswer_eq_some env answer).2
  have notEntry : mm ≠ pte := by
    rintro rfl
    exact absurd (manager.1.symm.trans here).symm (Option.some_ne_none entry)
  have tracked := stocked.books.malloc env (by decide : 1 ≤ sizeofPageTable)
  rw [answer] at tracked
  have kept := tracked.malloc env (by decide : 1 ≤ sizeofPtes)
  rw [answer'] at kept
  have notPtes : mm ≠ ptes := by
    rintro rfl
    have fresh := (mallocAnswer_eq_some env answer').2
    have small := (mallocAnswer_eq_some env answer).1
    rw [Tracker.live_record_some _ (Nat.lt_trans small kmallocMax_lt),
      Function.update_of_ne notTable] at fresh
    exact stocked.manager_ne fresh rfl
  have pteAt : (heap.withTable pte entry table ptes).pte =
      Function.update heap.pte pte (some { entry with pageTable := some table }) := rfl
  constructor
  · exact kept
  · change ((heap.tracker.record sizeofPageTable (some table)).record sizeofPtes
      (some ptes)).log = _
    rw [Tracker.log_record, Tracker.log_record, stocked.log, grants_append]
    simp only [grants, List.append_assoc, List.map_cons, List.map_nil, List.cons_append,
      List.nil_append]
  · intro addr
    rw [Heap.owned_withTable env sound found here below answer answer', List.map_append,
      List.mem_append, stocked.blocks, or_assoc]
    simp only [List.map_cons, List.map_nil, List.mem_cons, List.not_mem_nil, or_false]
  · refine ⟨?_, ?_, ?_⟩
    · rw [pteAt, Function.update_of_ne notEntry]
      exact manager.1
    · change Function.update heap.table table (some ptes) mm = none
      rw [Function.update_of_ne notTable]
      exact manager.2.1
    · change Function.update heap.ptes ptes _ mm = none
      rw [Function.update_of_ne notPtes]
      exact manager.2.2
  · intro addr found' there
    rw [pteAt] at there
    apply List.mem_append_left
    by_cases same : addr = pte
    · rw [same]
      exact stocked.entries pte entry here
    · rw [Function.update_of_ne same] at there
      exact stocked.entries addr found' there

end Table

theorem Heap.Stocked.built (stocked : heap.Stocked root mm before requests)
    (built : heap.Built env root after) :
    ∃ more, after.Stocked root mm before (requests ++ more) := by
  induction built with
  | refl => exact ⟨[], by rwa [List.append_nil]⟩
  | tail _ step ih =>
      obtain ⟨more, stocked⟩ := ih
      obtain ⟨sound, step⟩ := step
      cases step with
      | entry reached inTable array empty answer =>
          have next := stocked.withEntry sound reached inTable array empty answer
          exact ⟨_, by rwa [List.append_assoc] at next⟩
      | table found here below answer answer' =>
          have next := stocked.withTable sound found here below answer answer'
          exact ⟨_, by rwa [List.append_assoc] at next⟩

theorem Heap.SameShape.trie (same : heap.SameShape after) : after.trie = heap.trie := by
  have child : after.trie.child = heap.trie.child := by
    funext addr
    have pointer := same.pointer addr
    simp only [Heap.trie]
    cases here : heap.pte addr with
    | none =>
        rw [here, Option.map_none, Option.map_eq_none_iff] at pointer
        rw [pointer]
    | some entry =>
        rw [here] at pointer
        obtain ⟨entry', there, pointerSame⟩ := Option.map_eq_some_iff.mp pointer
        rw [there]
        exact pointerSame
  have slot : after.trie.slot = heap.trie.slot := by
    funext table index
    simp only [Heap.trie, same.table, same.ptes]
  cases afterTrie : after.trie
  cases beforeTrie : heap.trie
  simp_all

theorem Heap.Stocked.sameShape (stocked : heap.Stocked root mm before requests)
    (same : heap.SameShape after) : after.Stocked root mm before requests where
  books := by
    rw [same.tracker]
    exact stocked.books
  log := by
    rw [same.tracker]
    exact stocked.log
  blocks := by
    intro addr
    rw [stocked.blocks addr, Heap.Owned, Heap.Owned, same.trie, same.table]
  manager := by
    refine ⟨?_, ?_, ?_⟩
    · have pointer := same.pointer mm
      rw [stocked.manager.1, Option.map_none, Option.map_eq_none_iff] at pointer
      exact pointer
    · rw [same.table]
      exact stocked.manager.2.1
    · rw [same.ptes]
      exact stocked.manager.2.2
  entries := by
    intro addr entry here
    have pointer := same.pointer addr
    rw [here] at pointer
    obtain ⟨old, there, -⟩ := Option.map_eq_some_iff.mp pointer.symm
    exact stocked.entries addr old there

end Stocked

/-! ## From the creation of the manager on -/

section Created
variable {env : Env} {heap after : Heap} {mm root : Addr}

theorem Heap.owned_newTable (heap : Heap) (table ptes : Addr) {addr : Addr} :
    ((heap.setPtes ptes fun _ => none).setTable table ptes).Owned table addr ↔
      addr = table ∨ addr = ptes := by
  have inTable : ((heap.setPtes ptes fun _ => none).setTable table ptes).table table =
      some ptes := Function.update_self _ _ _
  have array : ((heap.setPtes ptes fun _ => none).setTable table ptes).ptes ptes =
      some fun _ => none := Function.update_self _ _ _
  constructor
  · intro owned
    rcases owned.cases with same | array' | ⟨index, pte, inSlot, -⟩
    · exact .inl same
    · exact .inr (Option.some.inj (inTable.symm.trans array')).symm
    · rw [Heap.slot_eq inTable array] at inSlot
      contradiction
  · intro same
    rcases same with rfl | rfl
    · exact .self _ addr
    · exact .array inTable

theorem stockedAt {tracker : Tracker}
    (sound : (heap.setTracker (tracker.record sizeofMM (some mm))).Sound fun _ => False)
    (noPte : ∀ addr, heap.pte addr = none)
    (books : (tracker.record sizeofMM (some mm)).Books) (manager : heap.Empty mm)
    (live : (tracker.record sizeofMM (some mm)).live mm = true)
    (create : (pageTableCreate env).run (heap.setTracker (tracker.record sizeofMM (some mm))) =
      .ok (some root) after) :
    ∃ requests, after.Stocked root mm tracker.log requests := by
  cases answer : mallocAnswer env (tracker.record sizeofMM (some mm)) sizeofPageTable with
  | none => cases create.symm.trans (run_pageTableCreate_of_none env answer)
  | some table =>
      cases answer' : mallocAnswer env
          ((tracker.record sizeofMM (some mm)).record sizeofPageTable (some table)) sizeofPtes with
      | none => cases create.symm.trans (run_pageTableCreate_of_some_none env answer answer')
      | some ptes =>
          cases create.symm.trans (run_pageTableCreate_of_some env answer answer')
          obtain ⟨freshTable, freshPtes, -⟩ := Heap.granted_table env sound answer answer'
          have booksTable := books.malloc env (by decide : 1 ≤ sizeofPageTable)
          rw [answer] at booksTable
          have booksPtes := booksTable.malloc env (by decide : 1 ≤ sizeofPtes)
          rw [answer'] at booksPtes
          obtain ⟨small, dead⟩ := mallocAnswer_eq_some env answer
          have notRoot : mm ≠ root := by
            rintro rfl
            exact Bool.noConfusion (live.symm.trans dead)
          have notPtes : mm ≠ ptes := by
            rintro rfl
            have dead' := (mallocAnswer_eq_some env answer').2
            rw [Tracker.live_record_some _ (Nat.lt_trans small kmallocMax_lt),
              Function.update_of_ne notRoot] at dead'
            exact Bool.noConfusion (live.symm.trans dead')
          refine ⟨[(mm, sizeofMM), (root, sizeofPageTable), (ptes, sizeofPtes)], booksPtes, ?_, ?_,
            ⟨manager.1, ?_, ?_⟩, ?_⟩
          · simp only [Heap.setTable, Heap.setPtes, Heap.setTracker, Tracker.log_record, grants,
              List.append_assoc, List.map_cons, List.map_nil, List.cons_append, List.nil_append]
          · intro addr
            rw [Heap.owned_newTable]
            simp only [List.map_cons, List.map_nil, List.mem_cons, List.not_mem_nil, or_false]
          · change Function.update heap.table root (some ptes) mm = none
            rw [Function.update_of_ne notRoot]
            exact manager.2.1
          · change Function.update heap.ptes ptes _ mm = none
            rw [Function.update_of_ne notPtes]
            exact manager.2.2
          · intro addr entry here
            have none' : heap.pte addr = some entry := here
            rw [noPte addr] at none'
            exact absurd none'.symm (Option.some_ne_none entry)

/-- `CSC369_MMCreate` obtains three blocks. -/
theorem mmCreate_stocked (sound : heap.Sound fun _ => False)
    (noPte : ∀ addr, heap.pte addr = none) (books : heap.tracker.Books)
    (run : (mmCreate env).run heap = .ok (some (mm, root)) after) :
    ∃ requests, after.Stocked root mm heap.tracker.log requests := by
  simp only [mmCreate, whenSome] at run
  obtain ⟨block, middle, request, run⟩ := bind_ok_iff.mp run
  rw [run_onTracker_csc369Malloc] at request
  obtain ⟨answer, rfl⟩ := EStateM.Result.ok.inj request
  cases block with
  | none => simp at run
  | some block =>
      obtain ⟨table, created, create, run⟩ := bind_ok_iff.mp run
      cases table with
      | none => simp at run
      | some table =>
          simp only [EStateM.run_pure, EStateM.Result.ok.injEq, Option.some.injEq,
            Prod.mk.injEq] at run
          obtain ⟨⟨rfl, rfl⟩, rfl⟩ := run
          obtain ⟨soundMM, live, manager⟩ := granted_absent env sound answer
          have booksMM := books.malloc env (by decide : 1 ≤ sizeofMM)
          rw [answer] at create booksMM
          exact stockedAt soundMM noPte booksMM manager live create

end Created

/-! ## Runs -/

section Runs
variable {env : Env} {policy : Policy} {process : Process policy.State} {swapSize root : Nat}
  {world after : World policy.State} {before : List AllocEvent}
  {requests : List (Addr × Nat)}

theorem simulationCreate_stocked (cleared : process.Cleared)
    (books : process.heap.tracker.Books)
    (created : simulationCreate env policy process swapSize = .ok (some world)) :
    ∃ root requests, world.pageTable = some root ∧
      world.heap.Stocked root world.mm process.heap.tracker.log requests := by
  obtain ⟨swapmap, heap, mm, pageTable, state, creation, rfl⟩ := simulationCreate_some created
  obtain ⟨requests, stocked⟩ :=
    mmCreate_stocked cleared.sound cleared.noPte books creation.manager
  have only : PolicyState.OnlyReference _ state := keeps_ok policy.init_keeps creation.init
  exact ⟨pageTable, requests, rfl, stocked.sameShape only.heap.sameShape⟩

theorem Executes.stocked {β : Type} {step : MemAccess → Exec (World policy.State) β}
    (executes : Executes env policy step) (coherent : world.Coherent env root none)
    (stocked : world.heap.Stocked root world.mm before requests) {access : MemAccess} {value : β}
    (run : (step access).run world = .ok value after) :
    ∃ requests', after.heap.Stocked root after.mm before requests' := by
  obtain ⟨heap, built, same, manager⟩ := executes.built coherent run
  obtain ⟨more, grown⟩ := stocked.built built
  rw [manager]
  exact ⟨_, grown.sameShape same⟩

theorem run_stocked {β : Type} {step : MemAccess → Exec (World policy.State) β}
    (executes : Executes env policy step) (coherent : world.Coherent env root none)
    (stocked : world.heap.Stocked root world.mm before requests) {trace : List MemAccess}
    {values : List β} (run : (runAll step trace).run world = .ok values after) :
    after.Coherent env root none ∧
      ∃ requests', after.heap.Stocked root after.mm before requests' := by
  have preserved : ∀ access state value next, True →
      (state.Coherent env root none ∧
        ∃ requests, state.heap.Stocked root state.mm before requests) →
      (step access).run state = .ok value next →
        next.Coherent env root none ∧
          ∃ requests, next.heap.Stocked root next.mm before requests := by
    intro access state value next _ holds stepRun
    obtain ⟨coherent, requests, stocked⟩ := holds
    exact ⟨executes.coherent coherent stepRun, executes.stocked coherent stocked stepRun⟩
  exact runAll_invariant _ preserved (fun _ _ => trivial) ⟨coherent, requests, stocked⟩ run

end Runs

end MemSim
