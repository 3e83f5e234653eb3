import MemSim.Coherence

/-!
# The outcomes of a translation

Every way `CSC369_MMGetFrameNumber` followed by `CSC369_OnReference` can come
out in a coherent state, with the state it leaves.
-/

set_option autoImplicit false

namespace MemSim

open Exec

section HeapParts
variable {σ α : Type} {world : World σ} {addr : Addr} {entry : PTE}

theorem run_onHeap_of_ok {part : Exec Heap α} {value : α} {heap : Heap}
    (run : part.run world.heap = .ok value heap) :
    (onHeap part : Exec (World σ) α).run world = .ok value (world.setHeap heap) :=
  run_onPart_of_ok run

theorem run_onHeap_of_error {part : Exec Heap α} {fault : Fault} {heap : Heap}
    (run : part.run world.heap = .error fault heap) :
    (onHeap part : Exec (World σ) α).run world = .error fault (world.setHeap heap) := by
  rw [onHeap, run_onPart, run]

theorem run_onHeap_pteGet (field : PTE → α) (here : world.heap.pte addr = some entry) :
    (onHeap (pteGet field (some addr)) : Exec (World σ) α).run world = .ok (field entry) world := by
  rw [run_onHeap_of_ok (run_pteGet field here)]
  rfl

theorem run_onHeap_pteSet (change : PTE → PTE) (here : world.heap.pte addr = some entry) :
    (onHeap (pteSet change (some addr)) : Exec (World σ) Unit).run world =
      .ok () (world.setHeap (world.heap.setPte addr (change entry))) := by
  exact run_onHeap_of_ok (run_pteSet change here)

theorem run_onHeap_readPte (here : world.heap.pte addr = some entry) :
    (onHeap (readPte (some addr)) : Exec (World σ) PTE).run world = .ok entry world := by
  rw [run_onHeap_of_ok (run_readPte here)]
  rfl

theorem run_onHeap_pteSet_again (change : PTE → PTE) (heap : Heap) :
    (onHeap (pteSet change (some addr)) : Exec (World σ) Unit).run
        (world.setHeap (heap.setPte addr entry)) =
      .ok () (world.setHeap (heap.setPte addr (change entry))) := by
  rw [run_onHeap_pteSet change Heap.pte_setPte_self]
  simp only [World.setHeap, Heap.setPte_setPte]

theorem run_onHeap_pteGet_again (field : PTE → α) (heap : Heap) :
    (onHeap (pteGet field (some addr)) : Exec (World σ) α).run
        (world.setHeap (heap.setPte addr entry)) =
      .ok (field entry) (world.setHeap (heap.setPte addr entry)) :=
  run_onHeap_pteGet field Heap.pte_setPte_self

theorem run_onHeap_readPte_again (heap : Heap) :
    (onHeap (readPte (some addr)) : Exec (World σ) PTE).run
        (world.setHeap (heap.setPte addr entry)) =
      .ok entry (world.setHeap (heap.setPte addr entry)) :=
  run_onHeap_readPte Heap.pte_setPte_self

@[simp] theorem World.heap_setHeap (heap : Heap) : (world.setHeap heap).heap = heap := rfl

@[simp] theorem World.setHeap_setHeap (first second : Heap) :
    (world.setHeap first).setHeap second = world.setHeap second := rfl

end HeapParts

section Effects
variable {σ : Type}

/-- The state after `CSC369_MMHandleEviction`. -/
def World.afterEviction (world : World σ) (victim : Addr) (entry : PTE) (result : Int)
    (storage : Storage) : World σ :=
  { world with
    heap := world.heap.setPte victim (entry.pagedOut result)
    storage := storage
    stats := countEviction entry.dirty world.stats
    log := world.log ++ [.handled
      { victim := some victim
        entry := entry
        storage := world.storage
        result := result
        entryAfter := entry.pagedOut result
        storageAfter := storage
        ownerAfter := (world.frames entry.frameNumber).pte }] }

def World.afterLoad (world : World σ) (pte : Addr) (entry : PTE) (frame : Nat)
    (storage : Storage) : World σ :=
  { world with
    heap := world.heap.setPte pte (entry.loaded frame)
    frames := Function.update world.frames frame ⟨false, some pte⟩
    storage := storage }

def World.afterAccess (world : World σ) (pte : Addr) (entry : PTE) (write : Bool) : World σ :=
  { world with
    heap := world.heap.setPte pte (entry.accessed write)
    stats := countRef world.stats }

def World.countHit (world : World σ) : World σ := world.setStats (MemSim.countHit world.stats)

def World.countMiss (world : World σ) : World σ := world.setStats (MemSim.countMiss world.stats)

end Effects

variable (env : Env)

/-- `CSC369_MMHandleEviction` on an entry whose page-out returned. -/
theorem run_mmHandleEviction {σ : Type} {world : World σ} {victim : Addr} {entry : PTE}
    {result : Int} {storage : Storage} (here : world.heap.pte victim = some entry)
    (pageOut : (swapPageOut env entry.frameNumber entry.swapOffset).run world.storage =
      .ok result storage) :
    (mmHandleEviction env (some victim)).run world =
      .ok () (world.afterEviction victim entry result storage) := by
  have onStorageOut : ∀ stats, (onStorage (swapPageOut env entry.frameNumber entry.swapOffset) :
      Exec (World σ) Int).run (world.setStats stats) =
        .ok result ((world.setStats stats).setStorage storage) :=
    fun stats => run_onPart_of_ok (by exact pageOut)
  have here' : ∀ stats, (world.setStats stats).heap.pte victim = some entry := fun _ => here
  simp only [mmHandleEviction, mmHandleEvictionWith, Option.isSome_some, EStateM.run_bind,
    run_require_true, pteIsDirty, run_onHeap_pteGet PTE.dirty here, count, EStateM.run_modify]
  simp only [pteGetFrameNumber, run_onHeap_pteGet PTE.frameNumber (here' _), pteGetSwapOffset,
    run_onHeap_pteGet PTE.swapOffset (here' _), EStateM.run_get, run_onHeap_readPte (here' _),
    onStorageOut]
  have here'' : ((world.setStats (countEviction entry.dirty world.stats)).setStorage
      storage).heap.pte victim = some entry := here
  simp only [pteSetDirty, run_onHeap_pteSet _ here'', pteSetValid, pteSetOnSwap,
    pteSetSwapOffset, run_onHeap_pteSet_again,
    run_onHeap_readPte_again]
  rfl

/-! ## Calling the policy -/

section Calling
variable {σ α : Type}

theorem callPolicy_of_ok {world : World σ} {event : Option α → Event}
    {part : Exec (PolicyState σ) α} {value : α} {state : PolicyState σ}
    (run : part.run world.policyState = .ok value state) :
    (callPolicy event part).run world =
      .ok value ((world.setPolicyState state).record (event (some value))) := by
  change callPolicy event part world = _
  simp only [callPolicy, run]

theorem callPolicy_of_error {world : World σ} {event : Option α → Event}
    {part : Exec (PolicyState σ) α} {fault : Fault} {state : PolicyState σ}
    (run : part.run world.policyState = .error fault state) :
    (callPolicy event part).run world =
      .error fault ((world.setPolicyState state).record (event none)) := by
  change callPolicy event part world = _
  simp only [callPolicy, run]

end Calling

/-! ## Obtaining a frame -/

section Obtaining
variable (policy : Policy)

/-- How a frame was obtained: one was free, or a page was evicted. -/
inductive Obtains (world : World policy.State) : Nat → World policy.State → Prop where
  | free {frame : Nat} : findFreeFrom world.frames 0 env.memsize = some frame →
      Obtains world frame world
  | evicted {frame : Nat} {state : PolicyState policy.State} {victim : Addr} {entry : PTE}
      {result : Int} {storage : Storage} :
      findFreeFrom world.frames 0 env.memsize = none →
      (policy.evict env.memsize).run world.policyState = .ok frame state →
      frame < env.memsize → (world.frames frame).pte = some victim →
      state.heap.pte victim = some entry → entry.valid = true → entry.frameNumber = frame →
      (swapPageOut env frame entry.swapOffset).run world.storage = .ok result storage →
      Obtains world frame (((world.setPolicyState state).record (.evicted (some frame))).afterEviction
        victim entry result storage)

/-- A call to the policy that stopped, or returned a number that is no frame. -/
inductive EvictFails (world : World policy.State) : Fault → World policy.State → Prop where
  | stopped {fault : Fault} {state : PolicyState policy.State} :
      findFreeFrom world.frames 0 env.memsize = none →
      (policy.evict env.memsize).run world.policyState = .error fault state →
      EvictFails world fault ((world.setPolicyState state).record (.evicted none))
  | outside {frame : Nat} {state : PolicyState policy.State} :
      findFreeFrom world.frames 0 env.memsize = none →
      (policy.evict env.memsize).run world.policyState = .ok frame state → env.memsize ≤ frame →
      EvictFails world .outOfBounds ((world.setPolicyState state).record (.evicted (some frame)))

variable {policy}
variable {root : Addr} {world : World policy.State}

theorem run_findFreeFrame : (findFreeFrame env : Exec (World policy.State) _).run world =
    .ok (findFreeFrom world.frames 0 env.memsize) world := rfl

theorem coremapAllocateFrame_cases (coherent : world.Coherent env root none) (pte : Addr) :
    (∃ frame after, Obtains env policy world frame after ∧
      (coremapAllocateFrame env policy (mmHandleEviction env) (some pte)).run world =
        .ok frame (after.setFrame frame ⟨false, some pte⟩)) ∨
    ∃ fault after, EvictFails env policy world fault after ∧
      (coremapAllocateFrame env policy (mmHandleEviction env) (some pte)).run world =
        .error fault after := by
  simp only [coremapAllocateFrame, Option.isSome_some, EStateM.run_bind, run_require_true,
    run_findFreeFrame]
  cases found : findFreeFrom world.frames 0 env.memsize with
  | some frame =>
      left
      exact ⟨frame, world, .free found, rfl⟩
  | none =>
      simp only [coremapObtainFrame, coremapEvictFrame, EStateM.run_bind]
      cases evict : (policy.evict env.memsize).run world.policyState with
      | error fault state =>
          right
          refine ⟨fault, _, .stopped found evict, ?_⟩
          rw [callPolicy_of_error evict]
      | ok frame state =>
          rw [callPolicy_of_ok evict]
          by_cases bound : frame < env.memsize
          · left
            have notFree : (world.frames frame).free = false :=
              findFreeFrom_eq_none found frame (Nat.zero_le _) (by omega)
            obtain ⟨victim, old, owner, there, valid, number⟩ :=
              coherent.used bound notFree (by simp)
            have only : world.policyState.OnlyReference state :=
              keeps_ok (policy.evict_keeps env.memsize) evict
            obtain ⟨reference, here⟩ := only.heap.entry there
            have sameFrames : state.frames = world.frames := only.frames
            let entry : PTE := { old with reference := reference }
            obtain ⟨result, storage, pageOut⟩ :=
              @swapPageOut_returns env _ coherent.swapmap frame bound entry.swapOffset
            refine ⟨frame, _, .evicted found evict bound owner here valid number pageOut, ?_⟩
            have handled := @run_mmHandleEviction env _
              ((world.setPolicyState state).record (.evicted (some frame))) victim entry result
              storage here (by rw [number]; exact pageOut)
            simp only [readFrame, bound, decide_true, EStateM.run_bind, run_require_true,
              EStateM.run_get, EStateM.run_pure]
            have owner' : (((world.setPolicyState state).record (.evicted (some frame))).frames
                frame).pte = some victim := by
              rw [← owner, ← sameFrames]
              rfl
            simp only [owner', Option.isSome_some, run_require_true, handled,
              EStateM.run_modify]
            rfl
          · right
            refine ⟨_, _, .outside found evict (Nat.le_of_not_lt bound), ?_⟩
            simp only [readFrame, bound, decide_false, EStateM.run_bind, run_require_false]

end Obtaining

/-! ## Filling the frame -/

/-- How the frame got its contents: it was cleared, or read from swap. -/
inductive Fills (frame : Nat) (entry : PTE) (storage : Storage) : Storage → Prop where
  | cleared : entry.onSwap = false → Fills frame entry storage
      { storage with
        physmem := overwrite storage.physmem (frame * simulatedFrameSize) simulatedFrameSize
          fun _ => 0 }
  | pagedIn {result : Int} {after : Storage} : entry.onSwap = true →
      entry.swapOffset ≠ invalidSwap →
      (swapPageIn env frame entry.swapOffset).run storage = .ok result after →
      Fills frame entry storage after

section Filling
variable {σ : Type} {world : World σ} {pte frame : Addr} {entry : PTE}

theorem run_onStorage_of_ok {α : Type} {part : Exec Storage α} {value : α} {storage : Storage}
    (run : part.run world.storage = .ok value storage) :
    (onStorage part : Exec (World σ) α).run world = .ok value (world.setStorage storage) :=
  run_onPart_of_ok run

theorem run_mmFillFrame_cleared (here : world.heap.pte pte = some entry)
    (bound : frame < env.memsize) :
    (mmFillFrame env (swapPageIn env) (some pte) frame false).run world =
      .ok () ((world.setStorage
        { world.storage with
          physmem := overwrite world.storage.physmem (frame * simulatedFrameSize)
            simulatedFrameSize fun _ => 0 }).setHeap
        (world.heap.setPte pte { entry with dirty := true })) := by
  simp only [mmFillFrame, Bool.not_false, if_true, coremapClearFrame, EStateM.run_bind, bound,
    decide_true, run_require_true]
  rw [run_onStorage_of_ok (by exact rfl)]
  dsimp only
  rw [pteSetDirty, run_onHeap_pteSet _ (by exact here)]
  rfl

theorem run_mmFillFrame_pagedIn {result : Int} {storage : Storage}
    (here : world.heap.pte pte = some entry)
    (pageIn : (swapPageIn env frame entry.swapOffset).run world.storage = .ok result storage) :
    (mmFillFrame env (swapPageIn env) (some pte) frame true).run world =
      .ok () ((world.setStorage storage).setHeap
        (world.heap.setPte pte { entry with onSwap := false })) := by
  simp only [mmFillFrame, Bool.not_true, Bool.false_eq_true, if_false, EStateM.run_bind,
    pteGetSwapOffset, run_onHeap_pteGet _ here]
  rw [run_onStorage_of_ok pageIn]
  dsimp only
  rw [pteSetOnSwap, run_onHeap_pteSet _ (by exact here)]
  rfl

theorem run_mmFillFrame_lost (here : world.heap.pte pte = some entry)
    (lost : entry.swapOffset = invalidSwap) :
    (mmFillFrame env (swapPageIn env) (some pte) frame true).run world =
      .error (.failed .pageInOffset) world := by
  have stopped : (swapPageIn env frame entry.swapOffset).run world.storage =
      .error (.failed .pageInOffset) world.storage := by
    simp only [swapPageIn, lost, ne_eq, not_true_eq_false, decide_false, EStateM.run_bind,
      run_require_false]
  simp only [mmFillFrame, Bool.not_true, Bool.false_eq_true, if_false, EStateM.run_bind,
    pteGetSwapOffset, run_onHeap_pteGet _ here]
  rw [onStorage, run_onPart, stopped]
  rfl

def finishMiss (pageIn : Nat → Int → Exec Storage Int) (pte : Option Addr) (frameNumber : Nat) :
    Exec (World σ) Nat := do
  onHeap (pteSetFrameNumber pte frameNumber)
  let onSwap ← onHeap (pteIsOnSwap pte)
  mmFillFrame env pageIn pte frameNumber onSwap
  onHeap (pteSetValid pte true)
  pure frameNumber

theorem finishMiss_cases (here : world.heap.pte pte = some entry) (bound : frame < env.memsize) :
    (∃ storage, Fills env frame entry world.storage storage ∧
      (finishMiss env (swapPageIn env) (some pte) frame).run
          (world.setFrame frame ⟨false, some pte⟩) =
        .ok frame (world.afterLoad pte entry frame storage)) ∨
    (entry.onSwap = true ∧ entry.swapOffset = invalidSwap ∧
      (finishMiss env (swapPageIn env) (some pte) frame).run
          (world.setFrame frame ⟨false, some pte⟩) =
        .error (.failed .pageInOffset) ((world.setFrame frame ⟨false, some pte⟩).setHeap
          (world.heap.setPte pte { entry with frameNumber := frame }))) := by
  have here' : (world.setFrame frame ⟨false, some pte⟩).heap.pte pte = some entry := here
  simp only [finishMiss, EStateM.run_bind, pteSetFrameNumber, run_onHeap_pteSet _ here',
    pteIsOnSwap, run_onHeap_pteGet_again]
  rcases Bool.eq_false_or_eq_true entry.onSwap with onSwap | onSwap
  · by_cases lost : entry.swapOffset = invalidSwap
    · right
      refine ⟨onSwap, lost, ?_⟩
      rw [onSwap, run_mmFillFrame_lost env (by exact Heap.pte_setPte_self) (by exact lost)]
      rfl
    · left
      obtain ⟨result, storage, pageIn, -⟩ := @swapPageIn_spec env world.storage frame bound _ lost
      refine ⟨storage, .pagedIn onSwap lost pageIn, ?_⟩
      rw [onSwap, run_mmFillFrame_pagedIn env (by exact Heap.pte_setPte_self) (by exact pageIn)]
      dsimp only
      rw [pteSetValid, run_onHeap_pteSet _ (by exact Heap.pte_setPte_self)]
      simp only [EStateM.run_pure, World.setHeap, World.setStorage, World.setFrame,
        World.afterLoad, Heap.setPte_setPte, PTE.loaded, onSwap, Bool.not_true, Bool.false_or]
  · left
    refine ⟨_, .cleared onSwap, ?_⟩
    rw [onSwap, run_mmFillFrame_cleared env (by exact Heap.pte_setPte_self) bound]
    dsimp only
    rw [pteSetValid, run_onHeap_pteSet _ (by exact Heap.pte_setPte_self)]
    simp only [EStateM.run_pure, World.setHeap, World.setStorage, World.setFrame,
      World.afterLoad, Heap.setPte_setPte, PTE.loaded, onSwap, Bool.not_false, Bool.true_or]

end Filling

/-! ## What obtaining a frame leaves -/

section Obtained
variable {policy : Policy} {root : Addr} {world after : World policy.State} {frame : Nat}

theorem swapPageOut_shaped {storage storage' : Storage} (shaped : storage.swapmap.Shaped)
    (bound : frame < env.memsize) {offset result : Int}
    (run : (swapPageOut env frame offset).run storage = .ok result storage') :
    storage'.swapmap.Shaped := by
  rcases swapPageOut_spec shaped bound offset with
    ⟨-, -, run'⟩ | ⟨slot, swapmap, result', after, chosen, run', written, -⟩
  · rw [run'] at run
    cases run
    exact shaped
  · rw [run'] at run
    cases run
    rw [written.swapmap]
    rcases chosen with ⟨-, -, rfl⟩ | ⟨-, idx, below, -, -, rfl⟩
    · exact shaped
    · exact shaped.setBit (Nat.lt_of_lt_of_le below shaped.capacity_le)

theorem Obtains.bound (obtains : Obtains env policy world frame after) :
    frame < env.memsize := by
  cases obtains with
  | free found => simpa using (findFreeFrom_eq_some found).2.1
  | evicted found evict bound owner here valid number pageOut => exact bound

theorem Obtains.coherent (obtains : Obtains env policy world frame after)
    (coherent : world.Coherent env root none) :
    ∃ vacated, after.Coherent env root vacated ∧ after.Available env vacated frame := by
  cases obtains with
  | free found => exact ⟨none, coherent, .inl ⟨rfl, found⟩⟩
  | @evicted state victim entry result storage found evict bound owner here valid number
      pageOut =>
      have only : world.policyState.OnlyReference state :=
        keeps_ok (policy.evict_keeps env.memsize) evict
      have notFree : (world.frames frame).free = false :=
        findFreeFrom_eq_none found frame (Nat.zero_le _) (by omega)
      have called := (coherent.setPolicyState only).record (.evicted (some frame))
      have sameFrames : state.frames = world.frames := only.frames
      have owner' : (state.frames frame).pte = some victim := by rw [sameFrames, owner]
      have notFree' : (state.frames frame).free = false := by rw [sameFrames, notFree]
      have vacated := called.evict owner' notFree' bound here result
      refine ⟨some frame, ?_, .inr ⟨rfl, bound, notFree'⟩⟩
      exact ((vacated.setStorage (swapPageOut_shaped env coherent.swapmap bound pageOut)).setStats
        _).record _

theorem Obtains.entry (obtains : Obtains env policy world frame after) {pte : Addr} {entry : PTE}
    (here : world.heap.pte pte = some entry) (invalid : entry.valid = false) :
    ∃ reference, after.heap.pte pte = some { entry with reference := reference } := by
  cases obtains with
  | free found => exact ⟨entry.reference, here⟩
  | @evicted state victim old result storage found evict bound owner there valid number
      pageOut =>
      have only : world.policyState.OnlyReference state :=
        keeps_ok (policy.evict_keeps env.memsize) evict
      obtain ⟨reference, here'⟩ := only.heap.entry here
      refine ⟨reference, Heap.pte_setPte_eq_some.mpr (.inr ⟨?_, here'⟩)⟩
      rintro rfl
      have here' : state.heap.pte pte = some { entry with reference := reference } := here'
      cases Option.some.inj (there.symm.trans here')
      exact Bool.noConfusion (valid.symm.trans invalid)

theorem Obtains.leafAt (obtains : Obtains env policy world frame after) (page : Nat) :
    after.heap.leafAt root page = world.heap.leafAt root page := by
  cases obtains with
  | free found => rfl
  | @evicted state victim old result storage found evict bound owner there valid number
      pageOut =>
      have only : world.policyState.OnlyReference state :=
        keeps_ok (policy.evict_keeps env.memsize) evict
      have sameLeaf := Heap.leafAt_setPte (by simp [Heap.trie, there] :
        (old.pagedOut result).pageTable = state.heap.trie.child victim) root page
      exact sameLeaf.trans (only.heap.leafAt root page)

end Obtained

/-! ## The whole translation -/

section Outcome
variable (policy : Policy) (root : Addr) (access : MemAccess) (world : World policy.State)

/-- A completed `CSC369_MMGetFrameNumber`. -/
inductive Translates : Nat → World policy.State → Prop where
  | hit {pte : Addr} {entry : PTE} :
      world.heap.leafAt root (pageNumber access.virtualAddress) = some pte →
      world.heap.pte pte = some entry → entry.valid = true →
      Translates entry.frameNumber
        (world.countHit.afterAccess pte entry access.type.isWrite)
  | miss {heap : Heap} {pte frame : Addr} {old entry : PTE} {after : World policy.State}
      {storage : Storage} :
      world.heap.Allocated heap (· = root) root (pageNumber access.virtualAddress) pte →
      heap.pte pte = some old → old.valid = false →
      Obtains env policy (world.setHeap heap).countMiss frame after →
      after.heap.pte pte = some entry → entry.eraseReference = old.eraseReference →
      Fills env frame entry after.storage storage →
      Translates frame ((after.afterLoad pte entry frame storage).afterAccess pte
        (entry.loaded frame) access.type.isWrite)

/-- A `CSC369_MMGetFrameNumber` that stopped.  `outside` is an address of more
than 48 bits, `lost` a page that a failed page-out did not save. -/
inductive Stops : Fault → World policy.State → Prop where
  | outside : 2 ^ 48 ≤ access.virtualAddress → Stops .outOfBounds world
  | refused {fault : Fault} {heap : Heap} {ext : List AllocEvent} :
      fault = .nullPointer ∨ fault = .failed .pteNotNull →
      heap.tracker.log = world.heap.tracker.log ++ ext → ¬ AllocationsSucceed ext →
      Stops fault (world.setHeap heap)
  | evictFails {heap : Heap} {pte : Addr} {old : PTE} {fault : Fault}
      {after : World policy.State} :
      world.heap.Allocated heap (· = root) root (pageNumber access.virtualAddress) pte →
      heap.pte pte = some old → old.valid = false →
      EvictFails env policy (world.setHeap heap).countMiss fault after → Stops fault after
  | lost {heap : Heap} {pte frame : Addr} {old entry : PTE} {after : World policy.State} :
      world.heap.Allocated heap (· = root) root (pageNumber access.virtualAddress) pte →
      heap.pte pte = some old → old.valid = false →
      Obtains env policy (world.setHeap heap).countMiss frame after →
      after.heap.pte pte = some entry → entry.eraseReference = old.eraseReference →
      entry.onSwap = true → entry.swapOffset = invalidSwap →
      Stops (.failed .pageInOffset) ((after.setFrame frame ⟨false, some pte⟩).setHeap
        (after.heap.setPte pte { entry with frameNumber := frame }))

/-- The outcomes of a translation. -/
inductive Outcome : EStateM.Result Fault (World policy.State) Nat → Prop where
  | stops {fault : Fault} {after : World policy.State} :
      Stops env policy root access world fault after → Outcome (.error fault after)
  | refFails {frame : Nat} {after : World policy.State} {fault : Fault}
      {state : PolicyState policy.State} :
      Translates env policy root access world frame after →
      (policy.onRef env.memsize frame).run after.policyState = .error fault state →
      Outcome (.error fault ((after.setPolicyState state).record (.referenced frame false)))
  | done {frame : Nat} {after : World policy.State} {state : PolicyState policy.State} :
      Translates env policy root access world frame after →
      (policy.onRef env.memsize frame).run after.policyState = .ok () state →
      Outcome (.ok frame ((after.setPolicyState state).record (.referenced frame true)))

variable {policy root access world}

/-- What `CSC369_MMGetFrameNumber` does with the entry of the page. -/
theorem mmFindFrame_cases (coherent : world.Coherent env root none) {heap : Heap} {pte : Addr}
    (allocated : world.heap.Allocated heap (· = root) root (pageNumber access.virtualAddress) pte)
    {old : PTE} (here : heap.pte pte = some old) (invalid : old.valid = false) :
    (∃ frame after entry storage, Obtains env policy (world.setHeap heap).countMiss frame after ∧
      after.heap.pte pte = some entry ∧ entry.eraseReference = old.eraseReference ∧
      Fills env frame entry after.storage storage ∧
      (mmMiss env policy (swapPageIn env) (mmHandleEviction env) (some pte)).run
          (world.setHeap heap) =
        .ok frame (after.afterLoad pte entry frame storage)) ∨
    (∃ fault after, EvictFails env policy (world.setHeap heap).countMiss fault after ∧
      (mmMiss env policy (swapPageIn env) (mmHandleEviction env) (some pte)).run
          (world.setHeap heap) =
        .error fault after) ∨
    ∃ frame after entry, Obtains env policy (world.setHeap heap).countMiss frame after ∧
      after.heap.pte pte = some entry ∧ entry.eraseReference = old.eraseReference ∧
      entry.onSwap = true ∧ entry.swapOffset = invalidSwap ∧
      (mmMiss env policy (swapPageIn env) (mmHandleEviction env) (some pte)).run
          (world.setHeap heap) =
        .error (.failed .pageInOffset) ((after.setFrame frame ⟨false, some pte⟩).setHeap
          (after.heap.setPte pte { entry with frameNumber := frame })) := by
  have coherent' : ((world.setHeap heap).countMiss).Coherent env root none :=
    (coherent.allocated allocated).setStats _
  have split : (mmMiss env policy (swapPageIn env) (mmHandleEviction env) (some pte)).run
      (world.setHeap heap) =
      (coremapAllocateFrame env policy (mmHandleEviction env) (some pte) >>=
        finishMiss env (swapPageIn env) (some pte)).run (world.setHeap heap).countMiss := rfl
  rw [split]
  rcases coremapAllocateFrame_cases env coherent' pte with
    ⟨frame, after, obtains, run⟩ | ⟨fault, after, fails, run⟩
  · obtain ⟨reference, there⟩ := obtains.entry env here invalid
    rw [run_bind_of_ok run]
    rcases finishMiss_cases env there (obtains.bound env) with
      ⟨storage, fills, run'⟩ | ⟨onSwap, isLost, run'⟩
    · exact .inl ⟨frame, after, _, storage, obtains, there, rfl, fills, run'⟩
    · exact .inr (.inr ⟨frame, after, _, obtains, there, rfl, onSwap, isLost, run'⟩)
  · exact .inr (.inl ⟨fault, after, fails, run_bind_of_error run⟩)

theorem pageTableAllocate_outside {heap : Heap} {isRoot : Addr → Prop} (sound : heap.Sound isRoot)
    (rootHere : isRoot root) {address : Nat} (wide : 2 ^ 48 ≤ address) :
    (pageTableAllocate env (some root) address).run heap = .error .outOfBounds heap := by
  obtain ⟨ptes, inTable⟩ := sound.root_table rootHere
  obtain ⟨slots, array⟩ := sound.table_ptes inTable
  have bound : ptesCount ≤ allocateIndex1 address := by
    simp only [allocateIndex1, ptesCount_eq]
    omega
  simp only [pageTableAllocate, Option.isSome_some, EStateM.run_bind, run_require_true, ensurePte,
    run_readEntry_outOfBounds inTable array bound]

theorem Heap.Allocated.valid_old {before after : Heap} {isRoot : Addr → Prop} {root page pte : Nat}
    (allocated : before.Allocated after isRoot root page pte) {entry : PTE}
    (here : after.pte pte = some entry) (valid : entry.valid = true) :
    after = before ∧ before.leafAt root page = some pte := by
  cases found : before.leafAt root page with
  | some old =>
      obtain ⟨rfl, same⟩ := allocated.again old found
      exact ⟨same, rfl⟩
  | none =>
      have initial := (allocated.created found).2
      rw [initial] at here
      cases here
      contradiction

/-- The end of `CSC369_MMGetFrameNumber`. -/
def finishAccess (pte : Option Addr) (write : Bool) (frameNumber : Nat) :
    Exec (World policy.State) Nat := do
  onlyIf write (onHeap (pteSetDirty pte true))
  count countRef
  pure frameNumber

theorem run_finishAccess {pte frame : Addr} {entry : PTE} {after : World policy.State}
    (here : after.heap.pte pte = some entry) (write : Bool) :
    (finishAccess (some pte) write frame).run after =
      .ok frame (after.afterAccess pte entry write) := by
  cases write with
  | false =>
      have same : after.heap.setPte pte (entry.accessed false) = after.heap :=
        Heap.setPte_same (by simpa [PTE.accessed] using here)
      simp only [finishAccess, onlyIf_false, EStateM.run_bind, EStateM.run_pure, count,
        EStateM.run_modify, World.afterAccess, same]
      rfl
  | true =>
      simp only [finishAccess, onlyIf_true, EStateM.run_bind, pteSetDirty,
        run_onHeap_pteSet _ here, count, EStateM.run_modify, EStateM.run_pure]
      rfl

theorem mmGetFrameNumber_cases (coherent : world.Coherent env root none) :
    (∃ frame after, Translates env policy root access world frame after ∧
      (mmGetFrameNumber env policy access).run world = .ok frame after) ∨
    ∃ fault after, Stops env policy root access world fault after ∧
      (mmGetFrameNumber env policy access).run world = .error fault after := by
  let rest : Option Addr → Exec (World policy.State) Nat := fun pte => do
    let valid ← onHeap (pteIsValid pte)
    let frameNumber ← mmFindFrame env policy (swapPageIn env) (mmHandleEviction env) pte valid
    finishAccess pte access.type.isWrite frameNumber
  have split : (mmGetFrameNumber env policy access).run world =
      (onHeap (pageTableAllocate env (some root) access.virtualAddress) >>= rest).run world := by
    simp only [mmGetFrameNumber, mmGetFrameNumberWith, EStateM.run_bind, EStateM.run_get,
      coherent.pageTable]
    rfl
  rw [split]
  by_cases wide : 2 ^ 48 ≤ access.virtualAddress
  · have run := pageTableAllocate_outside env coherent.sound rfl wide
    exact .inr ⟨_, _, .outside wide, run_bind_of_error (run_onHeap_of_error run)⟩
  rcases pageTableAllocate_spec env coherent.sound rfl (Nat.lt_of_not_le wide) with
    ⟨pte, heap, ext, run, -, -, allocated⟩ | ⟨heap, ext, run, log, refused⟩
  · rw [run_bind_of_ok (run_onHeap_of_ok run)]
    have found := allocated.leaf
    obtain ⟨old, here⟩ := allocated.sound.leafAt_pte found
    have readValid : (onHeap (pteIsValid (some pte)) : Exec (World policy.State) Bool).run
        (world.setHeap heap) = .ok old.valid (world.setHeap heap) :=
      run_onHeap_pteGet PTE.valid here
    rw [run_bind_of_ok readValid]
    rcases Bool.eq_false_or_eq_true old.valid with valid | invalid
    · obtain ⟨rfl, leaf⟩ := allocated.valid_old here valid
      have hit : (mmFindFrame env policy (swapPageIn env) (mmHandleEviction env) (some pte)
          old.valid).run world = .ok old.frameNumber world.countHit := by
        rw [valid]
        simp only [mmFindFrame, Bool.not_true, Bool.false_eq_true, if_false, mmHit, count,
          EStateM.run_bind, EStateM.run_modify, pteGetFrameNumber]
        exact run_onHeap_pteGet PTE.frameNumber here
      left
      refine ⟨_, _, .hit leaf here valid, ?_⟩
      rw [run_bind_of_ok (by exact hit)]
      have here' : world.countHit.heap.pte pte = some old := here
      exact run_finishAccess here' _
    · have miss : mmFindFrame env policy (swapPageIn env) (mmHandleEviction env) (some pte)
          old.valid =
          mmMiss env policy (swapPageIn env) (mmHandleEviction env) (some pte) := by
        rw [invalid]
        rfl
      rw [miss]
      rcases mmFindFrame_cases env coherent allocated here invalid with
        ⟨frame, after, entry, storage, obtains, there, same, fills, run⟩ |
        ⟨fault, after, fails, run⟩ |
        ⟨frame, after, entry, obtains, there, same, onSwap, isLost, run⟩
      · left
        refine ⟨_, _, .miss allocated here invalid obtains there same fills, ?_⟩
        rw [run_bind_of_ok run]
        exact run_finishAccess Heap.pte_setPte_self _
      · exact .inr ⟨_, _, .evictFails allocated here invalid fails, run_bind_of_error run⟩
      · exact .inr ⟨_, _, .lost allocated here invalid obtains there same onSwap isLost,
          run_bind_of_error run⟩
  · right
    rcases run with run | run
    · refine ⟨_, _, .refused (.inr rfl) log refused, ?_⟩
      rw [run_bind_of_ok (run_onHeap_of_ok run)]
      rfl
    · exact ⟨_, _, .refused (.inl rfl) log refused,
        run_bind_of_error (run_onHeap_of_error run)⟩

theorem Translates.bound {frame : Nat} {after : World policy.State}
    (translates : Translates env policy root access world frame after)
    (coherent : world.Coherent env root none) : frame < env.memsize := by
  cases translates with
  | hit leaf here valid => exact (coherent.owner here valid).1
  | miss allocated here invalid obtains there same fills => exact obtains.bound env

theorem translate_outcome (coherent : world.Coherent env root none) :
    Outcome env policy root access world ((translate env policy access).run world) := by
  let rest : Nat → Exec (World policy.State) Nat := fun frameNumber => do
    let frame ← coremapGetFrame env frameNumber
    callPolicy (fun result => .referenced frame result.isSome) (policy.onRef env.memsize frame)
    pure frameNumber
  have split : translate env policy access = mmGetFrameNumber env policy access >>= rest := rfl
  rw [split]
  rcases mmGetFrameNumber_cases env coherent with
    ⟨frame, after, translates, run⟩ | ⟨fault, after, stops, run⟩
  · rw [run_bind_of_ok run]
    have getFrame : (coremapGetFrame env frame : Exec (World policy.State) Nat).run after =
        .ok frame after := by
      simp [coremapGetFrame, translates.bound env coherent]
    rw [run_bind_of_ok getFrame]
    cases onRef : (policy.onRef env.memsize frame).run after.policyState with
    | ok value state =>
        rw [run_bind_of_ok (callPolicy_of_ok onRef), EStateM.run_pure]
        exact .done translates onRef
    | error fault state =>
        rw [run_bind_of_error (callPolicy_of_error onRef)]
        exact .refFails translates onRef
  · rw [run_bind_of_error run]
    exact .stops stops

end Outcome

end MemSim
