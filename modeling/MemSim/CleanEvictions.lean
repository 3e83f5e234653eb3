import MemSim.SkipClean

/-!
# Skipping the write of a clean page

`CSC369_MMHandleEviction` writes every victim to swap.  A simulation whose
evictions skip the write for a victim that is not dirty runs the same: only the
traffic to the swap file differs.
-/

set_option autoImplicit false

namespace MemSim

open Exec

/-! ## The same world, with other traffic -/

section Worlds
variable {σ α : Type} {condition : World σ → Prop}

/-- Only the traffic to the swap file and the records of evictions differ. -/
structure World.SameButTraffic (world other : World σ) : Prop where
  heap : other.heap = world.heap
  mm : other.mm = world.mm
  pageTable : other.pageTable = world.pageTable
  frames : other.frames = world.frames
  links : other.links = world.links
  own : other.own = world.own
  stats : other.stats = world.stats
  storage : world.storage.SameBytes other.storage
  victims : evictions other.log = evictions world.log

theorem World.SameButTraffic.refl (world : World σ) : world.SameButTraffic world :=
  ⟨rfl, rfl, rfl, rfl, rfl, rfl, rfl, ⟨rfl, rfl, rfl, rfl, rfl⟩, rfl⟩

theorem mirrors_onHeap (part : Exec Heap α) :
    Mirrors World.SameButTraffic condition (onHeap part) (onHeap part) := by
  have samePart : Mirrors _ (fun _ => True) part part := mirrors_self part
  apply mirrors_onPart samePart (fun _ _ => trivial) (fun _ _ same => same.heap)
  intro world other next next' same sameNext
  exact { same with heap := sameNext }

theorem mirrors_onStorage {part : Exec Storage α}
    (mirrors : Mirrors Storage.SameBytes (fun _ => True) part part) :
    Mirrors World.SameButTraffic condition (onStorage part) (onStorage part) := by
  apply mirrors_onPart mirrors (fun _ _ => trivial) (fun _ _ same => same.storage)
  intro world other next next' same sameNext
  exact { same with storage := sameNext }

theorem mirrors_count (change : MMStats → MMStats) :
    Mirrors World.SameButTraffic condition (count change) (count change) := by
  apply mirrors_modify
  intro world other same
  exact { same with stats := congrArg change same.stats }

theorem mirrors_callPolicy (event : Option α → Event) (part : Exec (PolicyState σ) α) :
    Mirrors World.SameButTraffic condition (callPolicy event part) (callPolicy event part) := by
  intro world other _ same
  have sameState : other.policyState = world.policyState := by
    rw [World.policyState, same.heap, same.frames, same.links, same.own]
    rfl
  have sameLog : ∀ happened,
      evictions (other.log ++ [happened]) = evictions (world.log ++ [happened]) := by
    intro happened
    rw [evictions_append, evictions_append, same.victims]
  cases run : part.run world.policyState with
  | ok value state =>
      rw [callPolicy_of_ok run, callPolicy_of_ok (sameState ▸ run)]
      exact ⟨rfl, rfl, same.mm, same.pageTable, rfl, rfl, rfl, same.stats, same.storage,
        sameLog _⟩
  | error fault state =>
      rw [callPolicy_of_error run, callPolicy_of_error (sameState ▸ run)]
      exact ⟨rfl, rfl, same.mm, same.pageTable, rfl, rfl, rfl, same.stats, same.storage,
        sameLog _⟩

theorem callPolicy_ok {world after : World σ} {event : Option α → Event}
    {part : Exec (PolicyState σ) α} {value : α}
    (run : (callPolicy event part).run world = .ok value after) :
    ∃ state, part.run world.policyState = .ok value state ∧
      after = (world.setPolicyState state).record (event (some value)) := by
  cases called : part.run world.policyState with
  | ok found state =>
      rw [callPolicy_of_ok called] at run
      obtain ⟨rfl, rfl⟩ := EStateM.Result.ok.inj run
      exact ⟨state, rfl, rfl⟩
  | error fault state =>
      rw [callPolicy_of_error called] at run
      contradiction

theorem readFrame_ok {env : Env} {index : Nat} {world after : World σ} {frame : Frame}
    (run : (readFrame env index).run world = .ok frame after) :
    index < env.memsize ∧ frame = world.frames index ∧ after = world := by
  obtain ⟨_, middle, required, run⟩ := bind_ok_iff.mp run
  obtain ⟨inRange, rfl⟩ := require_ok_iff.mp required
  obtain ⟨rfl, rfl⟩ := EStateM.Result.ok.inj run
  exact ⟨of_decide_eq_true inRange, rfl, rfl⟩

theorem pteGet_ok {field : PTE → α} {pte : Option Addr} {heap after : Heap} {value : α}
    (run : (pteGet field pte).run heap = .ok value after) : pte.isSome = true ∧ after = heap := by
  unfold pteGet at run
  obtain ⟨_, middle, required, run⟩ := bind_ok_iff.mp run
  obtain ⟨isSome, rfl⟩ := require_ok_iff.mp required
  refine ⟨isSome, ?_⟩
  obtain ⟨addr, rfl⟩ := Option.isSome_iff_exists.mp isSome
  cases here : heap.pte addr with
  | none => simp [readPte, here] at run
  | some entry =>
      rw [run_bind_of_ok (run_readPte here)] at run
      exact (EStateM.Result.ok.inj run).2.symm

theorem mirrors_readFrame (env : Env) (index : Nat) :
    Mirrors World.SameButTraffic condition (readFrame env index) (readFrame env index) := by
  apply mirrors_bind (mirrors_require _ _) (fun _ _ _ _ _ => trivial)
  intro _
  apply mirrors_get
  intro world other _ same
  rw [same.frames]
  exact ⟨rfl, same⟩

theorem mirrors_coremapGetFrame (env : Env) (frame : Nat) :
    Mirrors World.SameButTraffic (fun _ => True) (coremapGetFrame env frame : Exec (World σ) Nat)
      (coremapGetFrame env frame) := by
  apply mirrors_seq (mirrors_require _ _)
  intro _
  exact mirrors_pure frame

theorem mirrors_findFreeFrame (env : Env) :
    Mirrors World.SameButTraffic condition (findFreeFrame env) (findFreeFrame env) := by
  apply mirrors_get
  intro world other _ same
  rw [same.frames]
  exact ⟨rfl, same⟩

theorem mirrors_coremapClearFrame (env : Env) (frame : Nat) :
    Mirrors World.SameButTraffic condition (coremapClearFrame env frame)
      (coremapClearFrame env frame) := by
  apply mirrors_bind (mirrors_require _ _) (fun _ _ _ _ _ => trivial)
  intro _
  apply mirrors_onStorage
  apply mirrors_modify
  intro storage other same
  refine ⟨?_, same.swapmap, same.data, same.size, same.errno⟩
  simp only [same.physmem]

variable {env : Env} (succeeds : ∀ call, env.io call = .success)
include succeeds

theorem mirrors_mmFillFrame (pte : Option Addr) (frame : Nat) (onSwap : Bool) :
    Mirrors World.SameButTraffic (fun _ => True)
      (mmFillFrame env (swapPageIn env) pte frame onSwap : Exec (World σ) Unit)
      (mmFillFrame env (swapPageIn env) pte frame onSwap) := by
  unfold mmFillFrame
  apply mirrors_ite
  · intro _
    apply mirrors_seq (mirrors_coremapClearFrame env frame)
    intro _
    exact mirrors_onHeap _
  · intro _
    apply mirrors_seq (mirrors_onHeap _)
    intro offset
    apply mirrors_seq (mirrors_onStorage (mirrors_swapPageIn succeeds frame offset))
    intro _
    exact mirrors_onHeap _

end Worlds

/-! ## Evictions -/

section Evictions
variable {σ : Type} (env : Env)

/-- `CSC369_MMHandleEviction` as it would be if it wrote only dirty pages. -/
def mmHandleEvictionSkipClean (victim : Option Addr) : Exec (World σ) Unit := do
  require victim.isSome (.failed .victimNotNull)
  let dirty ← onHeap (pteIsDirty victim)
  if dirty then mmHandleEviction env victim
  else
    count countClean
    onHeap (pteSetValid victim false)
    onHeap (pteSetOnSwap victim true)

variable {env} {world other : World σ} {victim : Addr} {entry : PTE}

theorem run_mmHandleEvictionSkipClean_dirty (here : world.heap.pte victim = some entry)
    (dirty : entry.dirty = true) :
    (mmHandleEvictionSkipClean env (some victim)).run world =
      (mmHandleEviction env (some victim)).run world := by
  simp only [mmHandleEvictionSkipClean, Option.isSome_some, EStateM.run_bind, run_require_true,
    pteIsDirty, run_onHeap_pteGet PTE.dirty here, dirty, if_true]

theorem run_mmHandleEvictionSkipClean_clean (here : world.heap.pte victim = some entry)
    (clean : entry.dirty = false) :
    (mmHandleEvictionSkipClean env (some victim)).run world =
      .ok () ((world.setStats (countClean world.stats)).setHeap
        (world.heap.setPte victim (entry.pagedOut entry.swapOffset))) := by
  have here' : (world.setStats (countClean world.stats)).heap.pte victim = some entry := here
  have written : entry.pagedOut entry.swapOffset =
      { entry with valid := false, onSwap := true } := by
    rw [PTE.pagedOut, ← clean]
  simp only [mmHandleEvictionSkipClean, Option.isSome_some, EStateM.run_bind, run_require_true,
    pteIsDirty, run_onHeap_pteGet PTE.dirty here, clean, Bool.false_eq_true, if_false, count,
    EStateM.run_modify, pteSetValid, run_onHeap_pteSet _ here', pteSetOnSwap,
    run_onHeap_pteSet_again, written]
  rfl

theorem evictions_afterEviction (result : Int) (storage : Storage) :
    evictions (world.afterEviction victim entry result storage).log = evictions world.log := by
  rw [World.afterEviction, evictions_append]
  exact List.append_nil _

def World.Evictable (env : Env) (root : Addr) (pages : Finset Nat) (victim : Option Addr)
    (world : World σ) : Prop :=
  world.Synced env root pages ∧ ∃ pte entry, victim = some pte ∧
    world.heap.pte pte = some entry ∧ entry.valid = true

variable {root : Addr} {pages : Finset Nat}

theorem mirrors_mmHandleEviction (succeeds : ∀ call, env.io call = .success)
    (small : env.memsize ≤ 2 ^ 28) (victim : Option Addr) :
    Mirrors World.SameButTraffic (World.Evictable env root pages victim)
      (mmHandleEviction env victim : Exec (World σ) Unit)
      (mmHandleEvictionSkipClean env victim) := by
  intro world other evictable same
  obtain ⟨synced, pte, entry, rfl, here, valid⟩ := evictable
  have here' : other.heap.pte pte = some entry := by rw [same.heap, here]
  have bound := (synced.coherent.owner here valid).1
  cases dirty : entry.dirty with
  | true =>
      obtain ⟨result, storage, pageOut⟩ :=
        swapPageOut_returns synced.coherent.swapmap bound entry.swapOffset
      have mirrored := mirrors_swapPageOut succeeds entry.frameNumber entry.swapOffset
        world.storage other.storage trivial same.storage
      rw [pageOut] at mirrored
      rw [run_mmHandleEviction env here pageOut, run_mmHandleEvictionSkipClean_dirty here' dirty]
      cases otherOut : (swapPageOut env entry.frameNumber entry.swapOffset).run other.storage with
      | ok result' storage' =>
          rw [otherOut] at mirrored
          obtain ⟨rfl, sameStorage⟩ := mirrored
          rw [run_mmHandleEviction env here' otherOut]
          refine ⟨rfl, ?_, same.mm, same.pageTable, same.frames, same.links, same.own, ?_,
            sameStorage, ?_⟩
          · simp only [World.afterEviction, same.heap]
          · simp only [World.afterEviction, same.stats]
          · rw [evictions_afterEviction, evictions_afterEviction, same.victims]
      | error fault storage' =>
          rw [otherOut] at mirrored
          exact mirrored.elim
  | false =>
      -- the write would change no byte
      obtain ⟨storage, pageOut, sameStorage⟩ := synced.clean_pageOut succeeds small here valid dirty
      rw [run_mmHandleEviction env here pageOut, run_mmHandleEvictionSkipClean_clean here' dirty]
      refine ⟨rfl, ?_, same.mm, same.pageTable, same.frames, same.links, same.own, ?_,
        sameStorage.symm.trans same.storage, ?_⟩
      · simp only [World.afterEviction, World.setHeap, same.heap]
      · simp only [World.afterEviction, World.setHeap, World.setStats, same.stats, dirty]
        rfl
      · rw [evictions_afterEviction, ← same.victims]
        rfl

end Evictions

/-! ## Accesses -/

section Accesses
variable {env : Env} {policy : Policy} {root : Addr} {pages : Finset Nat}
  (succeeds : ∀ call, env.io call = .success) (small : env.memsize ≤ 2 ^ 28)
include succeeds small

theorem mirrors_coremapEvictFrame :
    Mirrors World.SameButTraffic
      (fun world => world.Synced env root pages ∧
        findFreeFrom world.frames 0 env.memsize = none)
      (coremapEvictFrame env policy (mmHandleEviction env))
      (coremapEvictFrame env policy (mmHandleEvictionSkipClean env)) := by
  let full : Nat → World policy.State → Prop := fun _ world =>
    world.Synced env root pages ∧ findFreeFrom world.frames 0 env.memsize = none
  let chosen : Frame → World policy.State → Prop := fun frame world =>
    world.Evictable env root pages frame.pte
  apply @mirrors_bind _ _ _ _ _ _ full _ _ _ _ (mirrors_callPolicy _ _)
  · intro world frame middle holds run
    obtain ⟨state, evict, rfl⟩ := callPolicy_ok run
    have only : world.policyState.OnlyReference state :=
      keeps_ok (policy.evict_keeps env.memsize) evict
    have sameFrames : state.frames = world.frames := only.frames
    exact ⟨holds.1.called only _, (congrArg (findFreeFrom · 0 env.memsize) sameFrames).trans
      holds.2⟩
  intro frame
  apply @mirrors_bind _ _ _ _ _ _ chosen _ _ _ _ (mirrors_readFrame env frame)
  · intro world found middle holds run
    obtain ⟨inRange, rfl, rfl⟩ := readFrame_ok run
    have notFree := findFreeFrom_eq_none holds.2 frame (Nat.zero_le _) (by omega)
    obtain ⟨pte, entry, owner, here, valid, -⟩ :=
      holds.1.coherent.used inRange notFree (by simp)
    exact ⟨holds.1, pte, entry, owner, here, valid⟩
  intro found
  apply @mirrors_bind _ _ _ _ _ _ (fun _ => World.Evictable env root pages found.pte) _ _ _ _
    (mirrors_require _ _)
  · intro world _ middle holds run
    obtain ⟨-, rfl⟩ := require_ok_iff.mp run
    exact holds
  intro _
  apply mirrors_bind (mirrors_mmHandleEviction succeeds small found.pte)
    (fun _ _ _ _ _ => trivial)
  intro _
  exact mirrors_pure frame

theorem mirrors_coremapAllocateFrame (pte : Option Addr) :
    Mirrors World.SameButTraffic (World.Synced env root pages)
      (coremapAllocateFrame env policy (mmHandleEviction env) pte)
      (coremapAllocateFrame env policy (mmHandleEvictionSkipClean env) pte) := by
  let looked : Option Nat → World policy.State → Prop := fun found world =>
    world.Synced env root pages ∧ findFreeFrom world.frames 0 env.memsize = found
  apply @mirrors_bind _ _ _ _ _ _ (fun _ => World.Synced env root pages) _ _ _ _
    (mirrors_require _ _)
  · intro world _ middle synced run
    obtain ⟨-, rfl⟩ := require_ok_iff.mp run
    exact synced
  intro _
  apply @mirrors_bind _ _ _ _ _ _ looked _ _ _ _ (mirrors_findFreeFrame env)
  · intro world found middle synced run
    obtain ⟨rfl, rfl⟩ := EStateM.Result.ok.inj run
    exact ⟨synced, rfl⟩
  intro found
  apply mirrors_bind _ (fun _ _ _ _ _ => trivial)
  · intro frame
    apply mirrors_seq _ (fun _ => mirrors_pure frame)
    apply mirrors_modify
    intro world other same
    refine { same with frames := ?_ }
    simp only [World.setFrame, same.frames]
  · cases found with
    | some frame => exact mirrors_pure frame
    | none => exact mirrors_coremapEvictFrame succeeds small

theorem mirrors_mmMiss (pte : Option Addr) :
    Mirrors World.SameButTraffic (World.Synced env root pages)
      (mmMiss env policy (swapPageIn env) (mmHandleEviction env) pte)
      (mmMiss env policy (swapPageIn env) (mmHandleEvictionSkipClean env) pte) := by
  apply @mirrors_bind _ _ _ _ _ _ (fun _ => World.Synced env root pages) _ _ _ _
    (mirrors_count countMiss)
  · intro world _ middle synced run
    obtain ⟨-, rfl⟩ := EStateM.Result.ok.inj run
    exact synced.setStats _
  intro _
  apply mirrors_bind (mirrors_coremapAllocateFrame succeeds small pte) (fun _ _ _ _ _ => trivial)
  intro frame
  apply mirrors_seq (mirrors_onHeap _)
  intro _
  apply mirrors_seq (mirrors_onHeap _)
  intro onSwap
  apply mirrors_seq (mirrors_mmFillFrame succeeds pte frame onSwap)
  intro _
  apply mirrors_seq (mirrors_onHeap _)
  intro _
  exact mirrors_pure frame

theorem mirrors_mmFindFrame (pte : Option Addr) (valid : Bool) :
    Mirrors World.SameButTraffic (World.Synced env root pages)
      (mmFindFrame env policy (swapPageIn env) (mmHandleEviction env) pte valid)
      (mmFindFrame env policy (swapPageIn env) (mmHandleEvictionSkipClean env) pte valid) := by
  apply mirrors_ite
  · intro _
    exact mirrors_mmMiss succeeds small pte
  · intro _
    apply mirrors_bind (mirrors_count countHit) (fun _ _ _ _ _ => trivial)
    intro _
    exact mirrors_onHeap _

theorem mirrors_mmGetFrameNumber {access : MemAccess} (within : access.Within pages) :
    Mirrors World.SameButTraffic (World.Synced env root pages)
      (mmGetFrameNumberWith env policy (swapPageIn env) (mmHandleEviction env) access)
      (mmGetFrameNumberWith env policy (swapPageIn env) (mmHandleEvictionSkipClean env)
        access) := by
  let looked : Option Addr → World policy.State → Prop := fun pte world =>
    pte.isSome = true → world.Synced env root pages
  apply mirrors_get
  intro world other synced same
  rw [same.pageTable, synced.coherent.pageTable]
  refine (?_ : Mirrors World.SameButTraffic (World.Synced env root pages) _ _) world other synced
    same
  apply @mirrors_bind _ _ _ _ _ _ looked _ _ _ _ (mirrors_onHeap _)
  · intro before pte middle here run found
    obtain ⟨heap, allocate, rfl⟩ := onPart_ok_iff.mp run
    rcases pageTableAllocate_spec env here.coherent.sound rfl within.address with
      ⟨pte', heap', ext, run', -, -, allocated⟩ | ⟨heap', ext, run' | run', -⟩
    · cases allocate.symm.trans run'
      exact here.allocated within.page allocated
    · cases allocate.symm.trans run'
      contradiction
    · cases allocate.symm.trans run'
  intro pte
  apply @mirrors_bind _ _ _ _ _ _ (fun _ => World.Synced env root pages) _ _ _ _
    (mirrors_onHeap _)
  · intro before valid middle here run
    obtain ⟨heap, isValid, rfl⟩ := onPart_ok_iff.mp run
    obtain ⟨isSome, sameHeap⟩ := pteGet_ok isValid
    rw [sameHeap]
    exact here isSome
  intro valid
  apply mirrors_bind (mirrors_mmFindFrame succeeds small pte valid) (fun _ _ _ _ _ => trivial)
  intro frame
  apply mirrors_seq
  · apply mirrors_ite
    · intro _
      exact mirrors_onHeap _
    · intro _
      exact mirrors_pure ()
  intro _
  apply mirrors_seq (mirrors_count countRef)
  intro _
  exact mirrors_pure frame

theorem mirrors_translate {access : MemAccess} (within : access.Within pages) :
    Mirrors World.SameButTraffic (World.Synced env root pages) (translate env policy access)
      (translateWith env policy (swapPageIn env) (mmHandleEvictionSkipClean env) access) := by
  apply mirrors_bind (mirrors_mmGetFrameNumber succeeds small within) (fun _ _ _ _ _ => trivial)
  intro frame
  apply mirrors_seq (mirrors_coremapGetFrame env frame)
  intro number
  apply mirrors_seq (mirrors_callPolicy _ _)
  intro _
  exact mirrors_pure frame

theorem mirrors_executeMemInstruction {access : MemAccess} (within : access.Within pages) :
    Mirrors World.SameButTraffic (World.Synced env root pages)
      (executeMemInstruction env policy access)
      (executeMemInstructionWith env policy (swapPageIn env) (mmHandleEvictionSkipClean env)
        access) := by
  apply mirrors_bind (mirrors_translate succeeds small within) (fun _ _ _ _ _ => trivial)
  intro frame
  unfold accessMemory
  generalize physIndex frame access.virtualAddress = index
  apply mirrors_seq (mirrors_require _ _)
  intro _
  split
  · apply mirrors_seq _ (fun _ => mirrors_pure none)
    apply mirrors_onStorage
    apply mirrors_modify
    intro storage other same
    refine ⟨?_, same.swapmap, same.data, same.size, same.errno⟩
    simp only [same.physmem]
  · apply mirrors_get
    intro world other _ same
    rw [same.storage.physmem]
    exact ⟨rfl, same⟩

end Accesses

/-! ## Clean pages in a fresh process -/

/-- Every page in memory that is not dirty has its bytes on swap. -/
def World.InSync {σ : Type} (world : World σ) : Prop :=
  ∀ pte entry, world.heap.pte pte = some entry → entry.valid = true → entry.dirty = false →
    entry.swapOffset ≠ invalidSwap ∧
      entry.swapOffset.toNat + 16 ≤ world.storage.file.size ∧
      ∀ byte < 16, world.storage.file.data (entry.swapOffset.toNat + byte) =
        world.storage.physmem (entry.frameNumber * 16 + byte)

/-- Every eviction of a page that was not dirty left the bitmap and the bytes of the
swap file as they were. -/
def CleanKept (log : List Event) : Prop :=
  ∀ record, .handled record ∈ log → record.entry.dirty = false →
    record.result = record.entry.swapOffset ∧ record.storage.SameBytes record.storageAfter

section InSync
variable {env : Env} {policy : Policy} {root : Addr} {pages : Finset Nat}
  {world : World policy.State}

theorem World.Synced.inSync (synced : world.Synced env root pages) : world.InSync := by
  intro pte entry here valid clean
  obtain ⟨page, leaf⟩ := synced.coherent.leaf here valid
  obtain ⟨contents, holds⟩ := synced.holds
  have present := pageStore_entry leaf here
  obtain ⟨slot, inSlot⟩ := holds.clean page _ present valid clean
  obtain ⟨idx, -, offset, -, inFile⟩ := synced.slots.slot page _ present slot
  have offset' : entry.swapOffset = (idx * 16 : Nat) := offset
  refine ⟨slot, ?_, fun byte bound => ?_⟩
  · rw [offset', Int.toNat_natCast]
    exact inFile
  · exact (inSlot byte bound).trans (holds.inFrame page _ present valid byte bound).symm

theorem World.Slotted.synced {swapSize : Nat} {contents : Contents}
    (slotted : world.Slotted env root pages swapSize)
    (holds : (world.pageStore root).Holds contents) : world.Synced env root pages :=
  ⟨slotted.coherent, slotted.slots, contents, holds⟩

theorem CleanKept.append {log : List Event} (kept : CleanKept log) {event : Event}
    (notRecord : ∀ record, event ≠ .handled record) : CleanKept (log ++ [event]) := by
  intro record member clean
  rcases List.mem_append.mp member with before | last
  · exact kept record before clean
  · exact absurd (List.mem_singleton.mp last).symm (notRecord record)

theorem Obtains.cleanKept {frame : Nat} {after : World policy.State}
    (obtains : Obtains env policy world frame after) (synced : world.Synced env root pages)
    (succeeds : ∀ call, env.io call = .success) (small : env.memsize ≤ 2 ^ 28)
    (kept : CleanKept world.log) : CleanKept after.log := by
  cases obtains with
  | free found => exact kept
  | @evicted state victim entry result storage found evict bound owner here valid number pageOut =>
      have only : world.policyState.OnlyReference state :=
        keeps_ok (policy.evict_keeps env.memsize) evict
      have before : CleanKept (world.log ++ [.evicted (some frame)]) :=
        kept.append fun _ => by simp
      intro record member clean
      rcases List.mem_append.mp member with earlier | last
      · exact before record earlier clean
      · cases List.mem_singleton.mp last
        obtain ⟨after, pageOut', same⟩ :=
          (synced.called only (.evicted (some frame))).clean_pageOut succeeds small here valid clean
        rw [number] at pageOut'
        cases pageOut.symm.trans pageOut'
        exact ⟨rfl, same⟩

theorem translate_cleanKept (synced : world.Synced env root pages)
    (succeeds : ∀ call, env.io call = .success) (small : env.memsize ≤ 2 ^ 28)
    {access : MemAccess} (within : access.Within pages) (kept : CleanKept world.log) :
    CleanKept (finalState ((translate env policy access).run world)).log := by
  apply translate_logged synced.coherent kept
  · exact fun _ frame returned before => before.append fun _ => by simp
  · exact fun _ victim before _ => before.append fun _ => by simp
  · intro heap pte frame after allocated obtains
    exact obtains.cleanKept ((synced.allocated within.page allocated).setStats _) succeeds small kept

end InSync

section Fresh
variable {env : Env} {policy : Policy} {swapSize : Nat} {trace : List MemAccess}
  {world : World policy.State}

/-- Between accesses clean pages are in sync with swap; an eviction of a clean page
changes neither the bitmap nor the bytes of the file; and a run whose evictions skip
that write comes out the same. -/
theorem clean_pages_in_sync
    (fresh : FreshRun env policy swapSize (executeMemInstruction env policy) trace world)
    (small : env.memsize ≤ 2 ^ 28)
    (offsets : ∀ access ∈ trace, access.virtualAddress % pageSize ≤ 15) :
    (∀ front rest, trace = front ++ rest → ∀ found middle,
      (runAll (executeMemInstruction env policy) front).run world = .ok found middle →
        middle.InSync) ∧
    CleanKept (finalState ((runAll (executeMemInstruction env policy) trace).run world)).log ∧
    SameResult World.SameButTraffic ((runAll (executeMemInstruction env policy) trace).run world)
      ((runAll (executeMemInstructionWith env policy (swapPageIn env)
        (mmHandleEvictionSkipClean env)) trace).run world) := by
  obtain ⟨root, started⟩ := fresh.started
  have executes := executes_executeMemInstruction env policy
  let pages := tracePages trace
  let invariant : World policy.State → Prop := fun world =>
    world.Slotted env root pages swapSize ∧
      ∃ earlier, (world.pageStore root).Holds (flatContents earlier)
  let allowed : MemAccess → Prop := fun access =>
    access.Within pages ∧ access.virtualAddress % pageSize ≤ 15
  have start : invariant world := ⟨started.slotted pages, [], started.holds⟩
  have traceAllowed : ∀ access ∈ trace, allowed access := fun access member =>
    ⟨tracePages_within fresh.addresses access member, offsets access member⟩
  have synced : ∀ {world}, invariant world → world.Synced env root pages := by
    intro world holds
    obtain ⟨slotted, earlier, holds⟩ := holds
    exact slotted.synced holds
  have preserved : ∀ access world value next, allowed access → invariant world →
      (executeMemInstruction env policy access).run world = .ok value next → invariant next := by
    intro access world value next here holds run
    obtain ⟨slotted, earlier, holds⟩ := holds
    obtain ⟨slotted', holds', -⟩ := execute_refines slotted holds fresh.io fresh.few small here.1
      here.2 run
    exact ⟨slotted', _, holds'⟩
  refine ⟨?_, ?_, ?_⟩
  · intro front rest split found middle run
    have frontAllowed : ∀ access ∈ front, allowed access := fun access member =>
      traceAllowed access (split ▸ List.mem_append_left _ member)
    exact (synced (runAll_invariant _ preserved frontAllowed start run)).inSync
  · apply run_logged executes _ (fun access world value next here holds _ =>
      preserved access world value next here holds) trace traceAllowed start
    · rw [started.log]
      intro record member
      contradiction
    · intro access world here holds kept
      exact translate_cleanKept (synced holds) fresh.io small here.1 kept
  · apply mirrors_runAll _ preserved trace traceAllowed world world start
      (World.SameButTraffic.refl world)
    intro access here
    exact (mirrors_executeMemInstruction fresh.io small here.1).weaken fun _ => synced

/-- Two pages that take turns in one frame.  The last access evicts a page that was
loaded from swap and only read. -/
def readAgain : List MemAccess :=
  [⟨.store, 0, 1⟩, ⟨.load, 4096, 0⟩, ⟨.load, 0, 1⟩, ⟨.load, 4096, 0⟩]

theorem clean_pages_in_sync_readAgain : ∃ world values after,
    FreshRun (Env.ideal 1) policyClock 2 (executeMemInstruction (Env.ideal 1) policyClock)
      readAgain world ∧
    (runAll (executeMemInstruction (Env.ideal 1) policyClock) readAgain).run world =
      .ok values after ∧
    after.stats.evictCleanCount = 1 ∧ after.InSync ∧ CleanKept after.log := by
  have grants : grantsRun (Env.ideal 1) policyClock 2
      (executeMemInstruction (Env.ideal 1) policyClock) readAgain = true := by decide +kernel
  have returns : reaches (Env.ideal 1) policyClock 2
      (executeMemInstruction (Env.ideal 1) policyClock) readAgain
        (fun after => after.stats.evictCleanCount == 1) = true := by decide +kernel
  obtain ⟨world, fresh⟩ := exists_freshRun grants (by decide) (by decide) (fun _ => rfl)
    (by decide) (by decide)
  obtain ⟨values, after, run, clean⟩ := fresh.reached returns
  obtain ⟨inSync, kept, -⟩ := clean_pages_in_sync fresh (by decide) (by decide)
  rw [run] at kept
  exact ⟨world, values, after, fresh, run, eq_of_beq clean,
    inSync readAgain [] (List.append_nil _).symm values after run, kept⟩

end Fresh

end MemSim
