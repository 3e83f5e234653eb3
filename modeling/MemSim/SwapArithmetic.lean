import Mathlib.Algebra.Order.BigOperators.Group.List
import Mathlib.Algebra.Order.Group.Nat
import MemSim.FreshRuns
import MemSim.HeapBlocks
import MemSim.SwapOffsets

/-!
# The 32-bit arithmetic of swap

`CSC369_SwapPageIn` and `CSC369_SwapPageOut` take the frame as an `unsigned int`
and compute its address in 32 bits.  Swap is used only when every frame holds an
entry of its own, and the tracker's budget leaves room for few entries, so that
nothing wraps: a check before every call never fails.
-/

set_option autoImplicit false

namespace MemSim

open Exec

/-! ## Runs with a check before every call -/

/-- The frame keeps its number as an `unsigned int`, and swap addresses the bytes
that the rest of the program does. -/
structure SwapExact (frame : Nat) : Prop where
  converts : frame % 2 ^ 32 = frame
  fits : frame * simulatedFrameSize < 2 ^ 32
  index : swapFrameIndex frame = frame * simulatedFrameSize

theorem swapExact_iff {frame : Nat} : SwapExact frame ↔ frame < 2 ^ 28 := by
  constructor
  · intro exact'
    have fits := exact'.fits
    rw [simulatedFrameSize_eq] at fits
    omega
  · intro small
    refine ⟨Nat.mod_eq_of_lt (by omega), ?_, swapFrameIndex_small small⟩
    rw [simulatedFrameSize_eq]
    omega

instance (frame : Nat) : Decidable (SwapExact frame) := decidable_of_iff _ swapExact_iff.symm

/-- A call to swap that stops with `fault` where the arithmetic would not be exact. -/
def checked (fault : Fault) (call : Nat → Int → Exec Storage Int) (frame : Nat) (offset : Int) :
    Exec Storage Int := do
  require (SwapExact frame) fault
  call frame offset

theorem checked_of_exact {fault : Fault} {call : Nat → Int → Exec Storage Int} {frame : Nat}
    (exact' : SwapExact frame) : checked fault call frame = call frame := by
  funext offset storage
  have holds : decide (SwapExact frame) = true := decide_eq_true exact'
  simp only [checked, holds]
  rfl

section Checked
variable (env : Env) (fault : Fault)

def checkedPageIn : Nat → Int → Exec Storage Int := checked fault (swapPageIn env)

def checkedEviction {σ : Type} : Option Addr → Exec (World σ) Unit :=
  mmHandleEvictionWith (checked fault (swapPageOut env))

end Checked

/-- The program with a check before every call to swap. -/
def executeMemInstructionChecked (env : Env) (policy : Policy) (fault : Fault) :
    MemAccess → Exec (World policy.State) (Option UInt8) :=
  executeMemInstructionWith env policy (checkedPageIn env fault) (checkedEviction env fault)

/-! ## Where the check does not fail -/

section Calls
variable {env : Env} {policy : Policy} {root : Addr} {world : World policy.State} {fault : Fault}

theorem run_checkedEviction {victim : Addr} {entry : PTE}
    (here : world.heap.pte victim = some entry) (exact' : SwapExact entry.frameNumber) :
    (checkedEviction env fault (some victim)).run world =
      (mmHandleEviction env (some victim)).run world := by
  have here' : ∀ stats, (world.setStats stats).heap.pte victim = some entry := fun _ => here
  simp only [checkedEviction, mmHandleEviction, mmHandleEvictionWith, Option.isSome_some,
    EStateM.run_bind, run_require_true, pteIsDirty, run_onHeap_pteGet PTE.dirty here, count,
    EStateM.run_modify]
  simp only [pteGetFrameNumber, run_onHeap_pteGet PTE.frameNumber (here' _), pteGetSwapOffset,
    run_onHeap_pteGet PTE.swapOffset (here' _), EStateM.run_get, run_onHeap_readPte (here' _),
    checked_of_exact exact']

theorem swapExact_of_small (small : env.memsize ≤ 2 ^ 28) {frame : Nat}
    (bound : frame < env.memsize) : SwapExact frame :=
  swapExact_iff.mpr (Nat.lt_of_lt_of_le bound small)

theorem run_coremapAllocateFrame_checked (coherent : world.Coherent env root none)
    (fine : env.memsize ≤ 2 ^ 28 ∨ findFreeFrom world.frames 0 env.memsize ≠ none) (pte : Addr) :
    (coremapAllocateFrame env policy (checkedEviction env fault) (some pte)).run world =
      (coremapAllocateFrame env policy (mmHandleEviction env) (some pte)).run world := by
  simp only [coremapAllocateFrame, Option.isSome_some, EStateM.run_bind, run_require_true,
    run_findFreeFrame]
  cases found : findFreeFrom world.frames 0 env.memsize with
  | some frame => rfl
  | none =>
      have small := fine.resolve_right fun free => free found
      simp only [coremapObtainFrame, coremapEvictFrame, EStateM.run_bind]
      cases evict : (policy.evict env.memsize).run world.policyState with
      | error fault' state => rw [callPolicy_of_error evict]
      | ok frame state =>
          rw [callPolicy_of_ok evict]
          by_cases bound : frame < env.memsize
          · -- all frames are in use, and the victim's entry has the number of its frame
            have notFree : (world.frames frame).free = false :=
              findFreeFrom_eq_none found frame (Nat.zero_le _) (by omega)
            obtain ⟨victim, old, owner, there, -, number⟩ :=
              coherent.used bound notFree (by simp)
            have only : world.policyState.OnlyReference state :=
              keeps_ok (policy.evict_keeps env.memsize) evict
            obtain ⟨reference, here⟩ := only.heap.entry there
            have sameFrames : state.frames = world.frames := only.frames
            have owner' : (((world.setPolicyState state).record (.evicted (some frame))).frames
                frame).pte = some victim := by
              rw [← owner, ← sameFrames]
              rfl
            have exact' : SwapExact ({ old with reference := reference } : PTE).frameNumber := by
              change SwapExact old.frameNumber
              rw [number]
              exact swapExact_of_small small bound
            have handled := @run_checkedEviction env policy
              ((world.setPolicyState state).record (.evicted (some frame))) fault victim _ here
              exact'
            simp only [readFrame, bound, decide_true, EStateM.run_bind, run_require_true,
              EStateM.run_get, EStateM.run_pure, owner', Option.isSome_some, handled]
          · simp only [readFrame, bound, decide_false, EStateM.run_bind, run_require_false]

theorem run_finishMiss_checked {pte frame : Addr} {entry : PTE}
    (here : world.heap.pte pte = some entry) (fine : SwapExact frame ∨ entry.onSwap = false) :
    (finishMiss env (checkedPageIn env fault) (some pte) frame).run world =
      (finishMiss env (swapPageIn env) (some pte) frame).run world := by
  simp only [finishMiss, EStateM.run_bind, pteSetFrameNumber,
    run_onHeap_pteSet _ here, pteIsOnSwap, run_onHeap_pteGet_again]
  rcases fine with exact' | notOnSwap
  · rw [checkedPageIn, mmFillFrame, checked_of_exact exact']
    rfl
  · rw [notOnSwap]
    rfl

/-- Swap is exact for all frames, or is not used for the entry. -/
def SwapFine (env : Env) (world : World policy.State) (entry : PTE) : Prop :=
  env.memsize ≤ 2 ^ 28 ∨
    findFreeFrom world.frames 0 env.memsize ≠ none ∧ entry.onSwap = false

theorem run_mmMiss_checked (coherent : world.Coherent env root none) {pte : Addr} {entry : PTE}
    (here : world.heap.pte pte = some entry) (invalid : entry.valid = false)
    (fine : SwapFine env world entry) :
    (mmMiss env policy (checkedPageIn env fault) (checkedEviction env fault) (some pte)).run
        world =
      (mmMiss env policy (swapPageIn env) (mmHandleEviction env) (some pte)).run world := by
  have counted : world.countMiss.Coherent env root none := coherent.setStats _
  have split : ∀ pageIn handleEviction,
      (mmMiss env policy pageIn handleEviction (some pte)).run world =
        (coremapAllocateFrame env policy handleEviction (some pte) >>=
          finishMiss env pageIn (some pte)).run world.countMiss := fun _ _ => rfl
  have same := @run_coremapAllocateFrame_checked env policy root world.countMiss fault counted
    (fine.imp_right fun rest => rest.1) pte
  rw [split, split]
  rcases coremapAllocateFrame_cases env counted pte with
    ⟨frame, after, obtains, run⟩ | ⟨stopped, after, fails, run⟩
  · rw [run_bind_of_ok run, run_bind_of_ok (same.trans run)]
    have here' : world.countMiss.heap.pte pte = some entry := here
    obtain ⟨reference, there⟩ := obtains.entry env here' invalid
    have there' : (after.setFrame frame ⟨false, some pte⟩).heap.pte pte = _ := there
    exact run_finishMiss_checked there' (fine.imp
      (fun small => swapExact_of_small small (obtains.bound env)) fun rest => rest.2)
  · rw [run_bind_of_error run, run_bind_of_error (same.trans run)]

theorem run_mmUseEntry_checked (coherent : world.Coherent env root none) (access : MemAccess)
    {pte : Addr} {entry : PTE} (here : world.heap.pte pte = some entry)
    (fine : SwapFine env world entry) :
    (mmUseEntry env policy (checkedPageIn env fault) (checkedEviction env fault) access
        (some pte)).run world =
      (mmUseEntry env policy (swapPageIn env) (mmHandleEviction env) access (some pte)).run
        world := by
  have readValid : (onHeap (pteIsValid (some pte)) : Exec (World policy.State) Bool).run world =
      .ok entry.valid world :=
    run_onHeap_pteGet PTE.valid here
  have sameFind : (mmFindFrame env policy (checkedPageIn env fault) (checkedEviction env fault)
      (some pte) entry.valid).run world =
        (mmFindFrame env policy (swapPageIn env) (mmHandleEviction env) (some pte)
          entry.valid).run world := by
    cases valid : entry.valid with
    | true => simp only [mmFindFrame, Bool.not_true, Bool.false_eq_true, if_false]
    | false =>
        have miss := @run_mmMiss_checked env policy root world fault coherent pte entry here
          valid fine
        simpa only [mmFindFrame, Bool.not_false, if_true] using miss
  rw [mmUseEntry, mmUseEntry, run_bind_of_ok readValid, run_bind_of_ok readValid]
  cases found : (mmFindFrame env policy (swapPageIn env) (mmHandleEviction env) (some pte)
      entry.valid).run world with
  | ok frame after =>
      rw [run_bind_of_ok found, run_bind_of_ok (sameFind.trans found)]
  | error stopped after =>
      rw [run_bind_of_error found, run_bind_of_error (sameFind.trans found)]

theorem run_mmGetFrameNumber_checked (coherent : world.Coherent env root none)
    (access : MemAccess) (fine : env.memsize ≤ 2 ^ 28 ∨
      findFreeFrom world.frames 0 env.memsize ≠ none ∧
        ∀ pte entry, world.heap.pte pte = some entry → entry.onSwap = false) :
    (mmGetFrameNumberWith env policy (checkedPageIn env fault) (checkedEviction env fault)
        access).run world =
      (mmGetFrameNumberWith env policy (swapPageIn env) (mmHandleEviction env) access).run
        world := by
  have split : ∀ pageIn handleEviction,
      (mmGetFrameNumberWith env policy pageIn handleEviction access).run world =
        (onHeap (pageTableAllocate env (some root) access.virtualAddress) >>=
          mmUseEntry env policy pageIn handleEviction access).run world := by
    intro pageIn handleEviction
    rw [← coherent.pageTable]
    rfl
  rw [split, split]
  by_cases wide : 2 ^ 48 ≤ access.virtualAddress
  · have run := run_onHeap_of_error
      (pageTableAllocate_outside env coherent.sound rfl wide)
    rw [run_bind_of_error run, run_bind_of_error run]
  rcases pageTableAllocate_spec env coherent.sound rfl (Nat.lt_of_not_le wide) with
    ⟨pte, heap, ext, run, -, -, allocated⟩ | ⟨heap, ext, run | run, -, -⟩
  · have run := run_onHeap_of_ok run
    rw [run_bind_of_ok run, run_bind_of_ok run]
    obtain ⟨entry, here⟩ := allocated.sound.leafAt_pte allocated.leaf
    have coherent' : (world.setHeap heap).Coherent env root none := coherent.allocated allocated
    refine run_mmUseEntry_checked coherent' access here (fine.imp_right fun rest =>
      ⟨rest.1, ?_⟩)
    rcases allocated.grown.cases here with ⟨old, there, same⟩ | ⟨-, same⟩
    · rw [same]
      exact rest.2 pte old there
    · rw [same]
      rfl
  · have run := run_onHeap_of_ok run
    have stops : ∀ pageIn handleEviction,
        (mmUseEntry env policy pageIn handleEviction access none).run (world.setHeap heap) =
          .error (.failed .pteNotNull) (world.setHeap heap) := fun _ _ => rfl
    rw [run_bind_of_ok run, run_bind_of_ok run, stops, stops]
  · have run := run_onHeap_of_error run
    rw [run_bind_of_error run, run_bind_of_error run]

end Calls

/-! ## Room for the entries of all frames -/

theorem mul_le_totalSize {requests : List (Addr × Nat)} {number size : Nat}
    (block : Fin number → Addr) (injective : Function.Injective block)
    (requested : ∀ index, (block index, size) ∈ requests) :
    number * size ≤ totalSize requests := by
  let blocks := (List.finRange number).map fun index => (block index, size)
  have distinct : blocks.Nodup := by
    apply (List.nodup_finRange number).map
    intro index index' same
    exact injective (Prod.mk.inj same).1
  have within : blocks ⊆ requests := by
    intro entry member
    obtain ⟨index, -, rfl⟩ := List.mem_map.mp member
    exact requested index
  obtain ⟨part, perm, sublist⟩ := List.subperm_of_subset distinct within
  have total : (blocks.map Prod.snd).sum = number * size := by
    have sizes : blocks.map Prod.snd = List.replicate number size := by
      simp only [blocks, List.map_map, Function.comp_def, List.map_const', List.length_finRange]
    rw [sizes, List.sum_replicate_nat]
  calc number * size = (part.map Prod.snd).sum := by rw [← total, (perm.map Prod.snd).sum_nat]
    _ ≤ totalSize requests := (sublist.map Prod.snd).sum_le_sum fun _ _ => Nat.zero_le _

section Budget
variable {env : Env} {policy : Policy} {root mm : Addr} {world : World policy.State}
  {before : List AllocEvent} {requests : List (Addr × Nat)}

theorem full_memory_requested (coherent : world.Coherent env root none)
    (stocked : world.heap.Stocked root mm before requests)
    (full : findFreeFrom world.frames 0 env.memsize = none) :
    env.memsize * sizeofPte ≤ totalSize requests := by
  have occupied : ∀ frame : Fin env.memsize, ∃ pte entry,
      world.heap.pte pte = some entry ∧ entry.frameNumber = frame := by
    intro frame
    have notFree := findFreeFrom_eq_none full frame (Nat.zero_le _)
      (by rw [Nat.zero_add]; exact frame.isLt)
    obtain ⟨pte, entry, -, here, -, number⟩ := coherent.used frame.isLt notFree (by simp)
    exact ⟨pte, entry, here, number⟩
  choose pteOf entryOf here number using occupied
  apply mul_le_totalSize pteOf
  · intro frame frame' same
    have entries : entryOf frame = entryOf frame' := by
      apply Option.some.inj
      rw [← here frame, ← here frame', same]
    exact Fin.ext (by rw [← number frame, ← number frame', entries])
  · exact fun frame => stocked.entries _ _ (here frame)

theorem full_memory_small (coherent : world.Coherent env root none)
    (stocked : world.heap.Stocked root mm before requests)
    (full : findFreeFrom world.frames 0 env.memsize = none) : env.memsize ≤ 2 ^ 26 := by
  have budget := stocked.books.budget
  rw [stocked.log, grantedBytes_grants] at budget
  have requested := full_memory_requested coherent stocked full
  have maximum : kmallocMax = 2 ^ 31 := rfl
  have size : sizeofPte = 32 := rfl
  rw [size] at requested
  omega

end Budget

/-! ## Runs -/

section Runs
variable {env : Env} {policy : Policy} {root : Addr} {access : MemAccess}
  {world after : World policy.State} {before : List AllocEvent}
  {requests : List (Addr × Nat)} {fault : Fault}

abbrev World.SwapsSmall {σ : Type} (env : Env) (world : World σ) : Prop :=
  world.Offsets fun _ => env.memsize ≤ 2 ^ 26

theorem translate_swapsSmall (coherent : world.Coherent env root none)
    (stocked : world.heap.Stocked root world.mm before requests)
    (swapsSmall : world.SwapsSmall env) {frame : Nat}
    (run : (translate env policy access).run world = .ok frame after) :
    after.SwapsSmall env := by
  obtain ⟨middle, state, translates, onRef, rfl⟩ := translate_ok coherent run
  have only : middle.policyState.OnlyReference state :=
    keeps_ok (policy.onRef_keeps env.memsize frame) onRef
  have small : middle.SwapsSmall env :=
    translates.onSwap swapsSmall fun full _ _ => full_memory_small coherent stocked full
  exact small.called only _

/-- What keeps the arithmetic of swap exact, between accesses. -/
structure World.Budgeted (env : Env) (root : Addr) (before : List AllocEvent)
    (world : World policy.State) : Prop where
  coherent : world.Coherent env root none
  stocked : ∃ requests, world.heap.Stocked root world.mm before requests
  swapsSmall : world.SwapsSmall env

theorem executeMemInstruction_budgeted (budgeted : world.Budgeted env root before)
    {value : Option UInt8} (run : (executeMemInstruction env policy access).run world =
      .ok value after) : after.Budgeted env root before := by
  have executes := executes_executeMemInstruction env policy
  obtain ⟨coherent, ⟨requests, stocked⟩, swapsSmall⟩ := budgeted
  refine ⟨executes.coherent coherent run, executes.stocked coherent stocked run, ?_⟩
  rcases executes access world with
    ⟨stopped, stop, translated, run'⟩ |
    ⟨frame, middle, translated, run' | ⟨value', physmem, run'⟩⟩
  · cases run.symm.trans run'
  · cases run.symm.trans run'
  · cases run.symm.trans run'
    exact @translate_swapsSmall env policy root access world middle before requests coherent
      stocked swapsSmall frame translated

theorem World.Budgeted.fine (budgeted : world.Budgeted env root before) :
    env.memsize ≤ 2 ^ 28 ∨ findFreeFrom world.frames 0 env.memsize ≠ none ∧
      ∀ pte entry, world.heap.pte pte = some entry → entry.onSwap = false := by
  obtain ⟨coherent, ⟨requests, stocked⟩, swapsSmall⟩ := budgeted
  have larger : env.memsize ≤ 2 ^ 26 → env.memsize ≤ 2 ^ 28 := fun small => by omega
  by_cases full : findFreeFrom world.frames 0 env.memsize = none
  · exact .inl (larger (full_memory_small coherent stocked full))
  by_cases unused : ∀ pte entry, world.heap.pte pte = some entry → entry.onSwap = false
  · exact .inr ⟨full, unused⟩
  · push Not at unused
    obtain ⟨pte, entry, here, onSwap⟩ := unused
    rw [Bool.ne_false_iff] at onSwap
    exact .inl (larger (swapsSmall pte entry here onSwap))

theorem run_executeMemInstructionChecked (budgeted : world.Budgeted env root before) :
    (executeMemInstructionChecked env policy fault access).run world =
      (executeMemInstruction env policy access).run world := by
  have numbered := @run_mmGetFrameNumber_checked env policy root world fault budgeted.coherent
    access budgeted.fine
  have translated : (translateWith env policy (checkedPageIn env fault)
      (checkedEviction env fault) access).run world =
        (translateWith env policy (swapPageIn env) (mmHandleEviction env) access).run world := by
    rw [translateWith, translateWith, EStateM.run_bind, EStateM.run_bind, numbered]
  rw [executeMemInstructionChecked, executeMemInstruction, executeMemInstructionWith,
    executeMemInstructionWith, EStateM.run_bind, EStateM.run_bind, translated]

theorem simulationCreate_budgeted {process : Process policy.State} {swapSize : Nat}
    (cleared : process.Cleared) (books : process.heap.tracker.Books) (swapFits : swapSize < 2 ^ 64)
    (created : simulationCreate env policy process swapSize = .ok (some world)) :
    ∃ root, world.Budgeted env root process.heap.tracker.log := by
  obtain ⟨root, started⟩ := simulationCreate_started cleared swapFits created
  obtain ⟨root', requests, isRoot, stocked⟩ := simulationCreate_stocked cleared books created
  have same : root' = root := by
    apply Option.some.inj
    rw [← isRoot, started.coherent.pageTable]
  refine ⟨root, started.coherent, ⟨requests, same ▸ stocked⟩, ?_⟩
  intro pte entry here
  rw [started.noPte pte] at here
  contradiction

end Runs

/-! ## A whole run in a fresh process -/

section Fresh
variable {env : Env} {policy : Policy} {swapSize : Nat} {world : World policy.State}

/-- With a check before every call to swap, whatever the fault that it stops with,
every run is the same: no call has a frame for which the arithmetic is not exact. -/
theorem swap_arithmetic_never_wraps (swapFits : swapSize < 2 ^ 64)
    (created : simulationCreate env policy (Process.fresh policy) swapSize = .ok (some world))
    (fault : Fault) (trace : List MemAccess) :
    (runAll (executeMemInstructionChecked env policy fault) trace).run world =
      (runAll (executeMemInstruction env policy) trace).run world := by
  obtain ⟨root, budgeted⟩ :=
    simulationCreate_budgeted (fresh_cleared policy) Tracker.books_init swapFits created
  have stepMirrors : ∀ access, True → Mirrors (fun state other => other = state)
      (World.Budgeted env root (Process.fresh policy).heap.tracker.log)
      (executeMemInstruction env policy access)
      (executeMemInstructionChecked env policy fault access) := by
    intro access _ state other budgeted same
    obtain rfl : other = state := same
    rw [run_executeMemInstructionChecked budgeted]
    exact mirrors_self _ other other budgeted rfl
  have mirrors := mirrors_runAll stepMirrors
    (fun access state value next _ budgeted run => executeMemInstruction_budgeted budgeted run)
    trace fun _ _ => trivial
  exact (mirrors world world budgeted rfl).eq

theorem swap_arithmetic_never_wraps_threePages : ∃ world,
    simulationCreate (Env.ideal 2) policyClock (Process.fresh policyClock) 3 = .ok (some world) ∧
      (runAll (executeMemInstructionChecked (Env.ideal 2) policyClock .outOfBounds)
          threePages).run world =
        (runAll (executeMemInstruction (Env.ideal 2) policyClock) threePages).run world := by
  have grants : grantsRun (Env.ideal 2) policyClock 3
      (executeMemInstruction (Env.ideal 2) policyClock) threePages = true := by decide +kernel
  obtain ⟨world, fresh⟩ := threePages_fresh grants
  exact ⟨world, fresh.created,
    swap_arithmetic_never_wraps (by decide) fresh.created .outOfBounds threePages⟩

end Fresh

end MemSim
