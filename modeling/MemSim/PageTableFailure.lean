import MemSim.PageTableHistory

/-!
# Refused requests in `CSC369_PageTableAllocate`

A request for the entry itself may be refused: the caller gets `NULL`.  Every other
request of the function is for something it dereferences next.
-/

set_option autoImplicit false

namespace MemSim

open Exec

/-! ## Page tables in use -/

/-- The page tables created so far, and the heap, after any calls of
`CSC369_PageTableCreate`, `CSC369_PageTableAllocate` and the setters, between other
requests for memory.  Any request may have been refused. -/
inductive TablesRun (env : Env) : List Addr → Heap → Prop where
  | start : TablesRun env [] Heap.empty
  | request {roots : List Addr} {before after : Heap} {size : Nat} {result : Option Addr} :
      TablesRun env roots before →
      (onTracker (csc369Malloc env size)).run before = .ok result after →
      TablesRun env roots after
  | create {roots : List Addr} {before after : Heap} {result : Option Addr} :
      TablesRun env roots before → (pageTableCreate env).run before = .ok result after →
      TablesRun env (result.toList ++ roots) after
  | allocate {roots : List Addr} {before after : Heap} {root virtualAddress : Nat}
      {result : Option Addr} :
      TablesRun env roots before → root ∈ roots → virtualAddress < 2 ^ vaddrBits →
      (pageTableAllocate env (some root) virtualAddress).run before = .ok result after →
      TablesRun env roots after
  | update {roots : List Addr} {before after : Heap} {pte : Addr} {update : PTEUpdate} :
      TablesRun env roots before → (update.set (some pte)).run before = .ok () after →
      TablesRun env roots after

section Requests
variable (env : Env) {heap : Heap} {isRoot : Addr → Prop}

theorem Heap.Sound.request (sound : heap.Sound isRoot) (size : Nat) :
    (heap.setTracker (heap.tracker.record size (mallocAnswer env heap.tracker size))).Sound
      isRoot := by
  cases answer : mallocAnswer env heap.tracker size with
  | none => exact sound.setTracker fun _ live => live
  | some addr => exact (granted_absent env sound answer).1

theorem pageTableCreate_none (sound : heap.Sound isRoot) {after : Heap}
    (run : (pageTableCreate env).run heap = .ok none after) : after.Sound isRoot := by
  have first := sound.request env sizeofPageTable
  cases answer : mallocAnswer env heap.tracker sizeofPageTable with
  | none =>
      rw [run_pageTableCreate_of_none env answer] at run
      cases run
      rwa [answer] at first
  | some table =>
      rw [answer] at first
      have second := first.request env sizeofPtes
      cases answer' : mallocAnswer env (heap.tracker.record sizeofPageTable (some table))
          sizeofPtes with
      | none =>
          rw [run_pageTableCreate_of_some_none env answer answer'] at run
          cases run
          rwa [Heap.tracker_setTracker, answer'] at second
      | some ptes =>
          rw [run_pageTableCreate_of_some env answer answer'] at run
          cases run

end Requests

/-! ## One allocation -/

/-- The call returns, with `NULL` or the entry of the page, and every entry that
was there is still there, with the same fields. -/
def Survives (env : Env) (roots : List Addr) (heap : Heap) (root virtualAddress : Nat) : Prop :=
  ∃ result after, (pageTableAllocate env (some root) virtualAddress).run heap = .ok result after ∧
    (result = none ∨ after.leafAt root (pageNumber virtualAddress) = result) ∧
    ∀ root' ∈ roots, ∀ page pte, heap.leafAt root' page = some pte →
      after.leafAt root' page = some pte ∧ after.pte pte = heap.pte pte

section Allocation
variable (env : Env) {heap : Heap} {roots : List Addr} {root virtualAddress : Nat}

theorem pageTableAllocate_outcome (sound : heap.Sound (· ∈ roots)) (mem : root ∈ roots)
    (bound : virtualAddress < 2 ^ 48) :
    (Granted env heap.tracker (heap.pathRequests root virtualAddress) ∧ ∃ result after,
      (pageTableAllocate env (some root) virtualAddress).run heap = .ok result after ∧
      after.Sound (· ∈ roots) ∧
      (result = none ∨ after.leafAt root (pageNumber virtualAddress) = result) ∧
      ∀ root' ∈ roots, ∀ page pte, heap.leafAt root' page = some pte →
        after.leafAt root' page = some pte ∧ after.pte pte = heap.pte pte) ∨
    (¬ Granted env heap.tracker (heap.pathRequests root virtualAddress) ∧ ∃ after,
      (pageTableAllocate env (some root) virtualAddress).run heap = .error .nullPointer after) := by
  rcases lowerTable_spec env sound mem bound with
    ⟨table, middle, ext, run, -, -, granted, -, extended⟩ |
    ⟨refused, middle, ext, run | run, -, -⟩
  · left
    refine ⟨granted, ?_⟩
    rw [run_pageTableAllocate, run_bind_of_ok run]
    have inTable : ∃ ptes, middle.table table = some ptes := by
      obtain ⟨_, node, -, -, below⟩ :=
        (@Trie.tableAt_concat_eq_some _ _ _ _ _ [_] _ _).mp extended.reached
      exact extended.sound.child_table below
    have bound3 : allocateIndex3 virtualAddress < ptesCount := Nat.mod_lt _ (by decide)
    rcases ensurePte_spec env extended.sound mem extended.reached inTable bound3 with
      ⟨pte, after, -, run', -, -, sound', grown', found, others, again, -⟩ |
      ⟨after, -, run', -, -⟩
    · refine ⟨some pte, after, run', sound', .inr ?_, ?_⟩
      · rw [leafAt_address]
        exact found
      · intro root' mem' page old here
        have here' : middle.leafAt root' page = some old := by
          rw [← here]
          exact extended.leaves _ _ _ _ mem'
        have kept : after.leafAt root' page = some old := by
          by_cases same : root' = root ∧ [page / 2 ^ 24, page / 2 ^ 12 % 2 ^ 12] =
              [allocateIndex1 virtualAddress, allocateIndex2 virtualAddress] ∧
              page % 2 ^ 12 = allocateIndex3 virtualAddress
          · obtain ⟨rfl, path, index⟩ := same
            rw [Heap.leafAt, path, index] at here' ⊢
            rw [again ⟨old, here'⟩]
            exact here'
          · rw [← here']
            exact others _ _ _ mem' same
        exact ⟨kept, (extended.grown.trans grown').leaf_kept sound sound' mem' here kept⟩
    · obtain ⟨-, -, same⟩ := ensurePte_requests env extended.sound extended.reached inTable bound3
        run'
      refine ⟨none, after, run', ?_, .inl rfl, ?_⟩
      · rw [same rfl]
        exact extended.sound.setTracker fun _ live => live
      · intro root' mem' page old here
        have here' : middle.leafAt root' page = some old := by
          rw [← here]
          exact extended.leaves _ _ _ _ mem'
        rw [same rfl]
        exact ⟨here', extended.grown.leaf_kept sound extended.sound mem' here here'⟩
  · right
    rw [run_pageTableAllocate, run_bind_of_ok run, ensurePte_none]
    exact ⟨refused, middle, rfl⟩
  · right
    rw [run_pageTableAllocate, run_bind_of_error run]
    exact ⟨refused, middle, rfl⟩

theorem TablesRun.sound (run : TablesRun env roots heap) : heap.Sound (· ∈ roots) := by
  induction run with
  | start => exact Heap.empty_sound _ fun _ => List.not_mem_nil
  | @request roots before after size result _ step ih =>
      rw [run_onTracker_csc369Malloc] at step
      cases step
      exact ih.request env size
  | @create roots before after result _ step ih =>
      cases result with
      | none => exact pageTableCreate_none env ih step
      | some table =>
          have sound := (pageTableCreate_some env ih step).2.2.2.2
          simpa using sound
  | @allocate roots before after root virtualAddress result _ mem bound step ih =>
      rcases pageTableAllocate_outcome env ih mem bound with
        ⟨-, result', after', run, sound, -⟩ | ⟨-, after', run⟩
      · cases run.symm.trans step
        exact sound
      · cases run.symm.trans step
  | @update roots before after pte update _ step ih =>
      rw [update.set_eq] at step
      obtain ⟨entry, here, rfl⟩ := pteSet_ok step
      exact ih.setPte here (update.apply_pageTable entry)

end Allocation

/-- Only the request for the entry of the page may be refused. -/
theorem pageTableAllocate_survives_iff (env : Env) {roots : List Addr} {heap : Heap}
    {root virtualAddress : Nat} (run : TablesRun env roots heap) (mem : root ∈ roots)
    (bound : virtualAddress < 2 ^ vaddrBits) :
    Survives env roots heap root virtualAddress ↔
      Granted env heap.tracker (heap.pathRequests root virtualAddress) := by
  rcases pageTableAllocate_outcome env run.sound mem bound with
    ⟨granted, result, after, call, -, linked, kept⟩ | ⟨refused, after, call⟩
  · exact ⟨fun _ => granted, fun _ => ⟨result, after, call, linked, kept⟩⟩
  · constructor
    · intro survives
      obtain ⟨result, after', call', -⟩ := survives
      cases call.symm.trans call'
    · intro granted
      exact absurd granted refused

def twoBlocks : Env :=
  { Env.ideal 1 with
    malloc := fun live request _ =>
      if request < 2 ∧ live (request + 1) = false then some (request + 1) else none
    malloc_fresh := by
      intro live request size addr answer
      split at answer
      · rename_i free
        cases Option.some.inj answer
        exact free.2
      · contradiction }

def fullHeap : Heap :=
  (((Heap.empty.setTracker ((Tracker.init.record sizeofPageTable (some 1)).record sizeofPtes
    (some 2))).setPtes 2 fun _ => none).setTable 1 2)

theorem tablesRun_full : TablesRun twoBlocks [1] fullHeap := by
  have answer : mallocAnswer twoBlocks Tracker.init sizeofPageTable = some 1 := rfl
  have answer' : mallocAnswer twoBlocks (Tracker.init.record sizeofPageTable (some 1)) sizeofPtes =
      some 2 := by decide +kernel
  have run := @run_pageTableCreate_of_some twoBlocks Heap.empty 1 answer 2 answer'
  exact TablesRun.create .start run

theorem pageTableAllocate_survives_iff_full :
    Survives twoBlocks [1] fullHeap 1 0 ↔
      Granted twoBlocks fullHeap.tracker (fullHeap.pathRequests 1 0) :=
  pageTableAllocate_survives_iff twoBlocks tablesRun_full List.mem_cons_self (by decide)

theorem pageTableAllocate_dereferences_null :
    ¬ ∀ env roots heap root virtualAddress, TablesRun env roots heap → root ∈ roots →
      virtualAddress < 2 ^ vaddrBits → Survives env roots heap root virtualAddress := by
  intro claim
  obtain ⟨result, after, call, -⟩ :=
    claim twoBlocks [1] fullHeap 1 0 tablesRun_full List.mem_cons_self (by decide)
  have answer : mallocAnswer twoBlocks fullHeap.tracker sizeofPte = none := rfl
  -- the first directory entry is refused, and its field is read next
  have refused := @run_ensurePte_refused twoBlocks fullHeap 1 2 0 (fun _ => none) rfl rfl
    (by decide) rfl answer
  have stops : (lowerTable twoBlocks (some 1) 0).run fullHeap = .error .nullPointer
      (fullHeap.setTracker (fullHeap.tracker.record sizeofPte none)) := by
    have index : allocateIndex1 0 = 0 := rfl
    simp only [lowerTable, EStateM.run_bind, index, refused, ensureTable_none]
  rw [run_pageTableAllocate, run_bind_of_error stops] at call
  cases call

end MemSim
