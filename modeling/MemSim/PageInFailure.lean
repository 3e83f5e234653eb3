import MemSim.EvictionLog
import MemSim.FreshRuns
import MemSim.PageInResult

/-!
# Page-ins that fail

`CSC369_MMGetFrameNumber` only logs the result of the page-in.  It marks the page
as valid and no longer on swap, whatever was read.
-/

set_option autoImplicit false

namespace MemSim

open Exec

/-! ## Accesses that page in -/

/-- An access whose page has the entry `entry` and is on swap, when the frame for
it has been allocated. -/
structure PageInCall (env : Env) (policy : Policy) (world : World policy.State)
    (access : MemAccess) (pte : Addr) (entry : PTE) (frame : Nat) (ready : World policy.State) :
    Prop where
  leaf : ∃ root, world.pageTable = some root ∧ world.heap.leafAt root access.page = some pte
  here : world.heap.pte pte = some entry
  invalid : entry.valid = false
  onSwap : entry.onSwap = true
  allocated : (coremapAllocateFrame env policy (mmHandleEviction env) (some pte)).run
    world.countMiss = .ok frame ready

/-- If the page-in places less than the page, the translation stops, or the entry
still says that the page is in its slot on swap. -/
def HonestPageIn (env : Env) (policy : Policy) (world : World policy.State)
    (access : MemAccess) : Prop :=
  ∀ pte entry frame ready, PageInCall env policy world access pte entry frame ready →
    ready.storage.bytesRead env entry.swapOffset < simulatedFrameSize →
    ∀ frame' after, (mmGetFrameNumber env policy access).run world = .ok frame' after →
      ∃ entry', after.heap.pte pte = some entry' ∧ entry'.valid = false ∧
        entry'.onSwap = true ∧ entry'.swapOffset = entry.swapOffset

/-- The page has no slot, which an assertion finds, or the seek and the read for it
do their work. -/
def PageInWorks (env : Env) (policy : Policy) (world : World policy.State)
    (access : MemAccess) : Prop :=
  ∀ pte entry frame ready, PageInCall env policy world access pte entry frame ready →
    entry.swapOffset = invalidSwap ∨ ready.storage.readOk env entry.swapOffset = true

section Call
variable {env : Env} {policy : Policy} {root : Addr} {world ready : World policy.State}
  {access : MemAccess} {pte frame : Addr} {entry : PTE}

theorem PageInCall.split (call : PageInCall env policy world access pte entry frame ready)
    (coherent : world.Coherent env root none) :
    (mmGetFrameNumber env policy access).run world =
      ((coremapAllocateFrame env policy (mmHandleEviction env) (some pte) >>=
        finishMiss env (swapPageIn env) (some pte)) >>=
          finishAccess (some pte) access.type.isWrite).run
          world.countMiss := by
  obtain ⟨root', isRoot, leaf⟩ := call.leaf
  cases coherent.pageTable.symm.trans isRoot
  have allocate := run_onHeap_of_ok (run_pageTableAllocate_present env coherent.sound leaf)
  have readValid : (onHeap (pteIsValid (some pte)) : Exec (World policy.State) Bool).run world =
      .ok false world := by
    rw [← call.invalid]
    exact run_onHeap_pteGet PTE.valid call.here
  have same : world.setHeap world.heap = world := rfl
  rw [same] at allocate
  simp only [mmGetFrameNumber, mmGetFrameNumberWith, EStateM.run_bind, EStateM.run_get,
    coherent.pageTable, allocate, readValid]
  rfl

theorem PageInCall.outcome (call : PageInCall env policy world access pte entry frame ready)
    (coherent : world.Coherent env root none) :
    (entry.swapOffset ≠ invalidSwap → ∃ after entry',
      (mmGetFrameNumber env policy access).run world = .ok frame after ∧
        after.heap.pte pte = some entry' ∧ entry'.valid = true) ∧
    (entry.swapOffset = invalidSwap → ∃ fault after,
      (mmGetFrameNumber env policy access).run world = .error fault after) := by
  have counted : world.countMiss.Coherent env root none := coherent.setStats _
  rcases coremapAllocateFrame_cases env counted pte with
    ⟨frame', obtained, obtains, run⟩ | ⟨fault, after, fails, run⟩
  swap
  · cases run.symm.trans call.allocated
  cases call.allocated.symm.trans run
  have here : world.countMiss.heap.pte pte = some entry := call.here
  obtain ⟨reference, there⟩ := obtains.entry env here call.invalid
  rw [call.split coherent]
  rcases finishMiss_cases env there (obtains.bound env) with
    ⟨storage, fills, run'⟩ | ⟨onSwap, isLost, run'⟩
  · have loaded : (obtained.afterLoad pte { entry with reference := reference } frame
        storage).heap.pte pte = some (({ entry with reference := reference } : PTE).loaded frame) :=
      Heap.pte_setPte_self
    have finish := @run_finishAccess policy pte frame _ _ loaded access.type.isWrite
    constructor
    · intro slot
      have missed := (run_bind_of_ok run).trans run'
      exact ⟨_, _, (run_bind_of_ok missed).trans finish, Heap.pte_setPte_self, rfl⟩
    · intro isLost
      cases fills with
      | cleared notOnSwap => exact absurd (notOnSwap.symm.trans call.onSwap) Bool.false_ne_true
      | pagedIn onSwap slot pageIn => exact absurd isLost slot
  · constructor
    · intro slot
      exact absurd isLost slot
    · intro _
      have stopped := (run_bind_of_ok run).trans run'
      exact ⟨_, _, run_bind_of_error stopped⟩

theorem honestPageIn_iff (coherent : world.Coherent env root none) :
    HonestPageIn env policy world access ↔ PageInWorks env policy world access := by
  constructor
  · intro honest pte entry frame ready call
    by_contra fails
    obtain ⟨slot, notRead⟩ := not_or.mp fails
    obtain ⟨after, entry', run, there, valid⟩ := (call.outcome coherent).1 slot
    have short : ready.storage.bytesRead env entry.swapOffset < simulatedFrameSize :=
      Nat.lt_of_le_of_ne Storage.bytesRead_le fun all => notRead (Storage.bytesRead_eq_iff.mp all)
    obtain ⟨entry'', there', invalid, -⟩ := honest pte entry frame ready call short frame after run
    cases there.symm.trans there'
    exact absurd (invalid.symm.trans valid) Bool.false_ne_true
  · intro works pte entry frame ready call short frame' after run
    rcases works pte entry frame ready call with isLost | ok
    · obtain ⟨fault, stopped, run'⟩ := (call.outcome coherent).2 isLost
      cases run.symm.trans run'
    · exact absurd (Storage.bytesRead_eq_iff.mpr ok) (Nat.ne_of_lt short)

end Call

/-! ## Runs -/

section Runs
variable {env : Env} {policy : Policy} {process : Process policy.State} {swapSize : Nat}
  {trace : List MemAccess} {values : List (Option UInt8)} {start world : World policy.State}

theorem reached_coherent (cleared : process.Cleared) (swapFits : swapSize < 2 ^ 64)
    (created : simulationCreate env policy process swapSize = .ok (some start))
    (run : (runAll (executeMemInstruction env policy) trace).run start = .ok values world) :
    ∃ root, world.Coherent env root none := by
  obtain ⟨root, started⟩ := simulationCreate_started cleared swapFits created
  have preserved : ∀ access state value next, True → state.Coherent env root none →
      (executeMemInstruction env policy access).run state = .ok value next →
        next.Coherent env root none :=
    fun access state value next _ coherent step =>
      (executes_executeMemInstruction env policy).coherent coherent step
  exact ⟨root, runAll_invariant _ preserved (fun _ _ => trivial) started.coherent run⟩

/-- In every state that a run reaches, the next access presents no page that was
not read exactly when its page-in works. -/
theorem failed_page_in_presents_nothing_iff (cleared : process.Cleared)
    (swapFits : swapSize < 2 ^ 64)
    (created : simulationCreate env policy process swapSize = .ok (some start))
    (run : (runAll (executeMemInstruction env policy) trace).run start = .ok values world)
    (access : MemAccess) :
    HonestPageIn env policy world access ↔ PageInWorks env policy world access := by
  obtain ⟨root, coherent⟩ := reached_coherent cleared swapFits created run
  exact honestPageIn_iff coherent

end Runs

/-! ## A read that fails -/

/-- The sixth system call fails. -/
def failingRead : Env :=
  { Env.ideal 1 with io := fun call => if call = 5 then .failure 5 (by decide) else .success }

/-- A check by evaluation: the access pages in, has a slot, and the page-in places
less than the page. -/
def World.pagesInBadly {policy : Policy} (env : Env) (world : World policy.State)
    (access : MemAccess) : Bool :=
  match world.pageTable.bind fun root => world.heap.leafAt root access.page with
  | none => false
  | some pte =>
      match world.heap.pte pte with
      | none => false
      | some entry =>
          match (coremapAllocateFrame env policy (mmHandleEviction env) (some pte)).run
              world.countMiss with
          | .error _ _ => false
          | .ok _ ready => !entry.valid && entry.onSwap &&
              decide (entry.swapOffset ≠ invalidSwap) &&
                !ready.storage.readOk env entry.swapOffset

theorem World.pagesInBadly_fails {env : Env} {policy : Policy} {world : World policy.State}
    {access : MemAccess} (badly : world.pagesInBadly env access = true) :
    ¬ PageInWorks env policy world access := by
  intro works
  unfold World.pagesInBadly at badly
  split at badly
  · exact absurd badly Bool.false_ne_true
  · rename_i pte found
    obtain ⟨root, isRoot, leaf⟩ := Option.bind_eq_some_iff.mp found
    split at badly
    · exact absurd badly Bool.false_ne_true
    · rename_i entry here
      split at badly
      · exact absurd badly Bool.false_ne_true
      · rename_i frame ready allocated
        simp only [Bool.and_eq_true, Bool.not_eq_true', decide_eq_true_eq] at badly
        obtain ⟨⟨⟨invalid, onSwap⟩, slot⟩, notRead⟩ := badly
        rcases works pte entry frame ready ⟨⟨root, isRoot, leaf⟩, here, invalid, onSwap, allocated⟩
          with isLost | ok
        · exact slot isLost
        · exact absurd (notRead.symm.trans ok) Bool.false_ne_true

/-- Two pages in one frame. -/
def twoInTurn : List MemAccess := [⟨.store, 0, 1⟩, ⟨.store, 4096, 2⟩]

theorem failingRead_reached : ∃ start values world,
    simulationCreate failingRead policyRR (Process.fresh policyRR) 2 = .ok (some start) ∧
      (runAll (executeMemInstruction failingRead policyRR) twoInTurn).run start =
        .ok values world ∧
      world.pagesInBadly failingRead ⟨.load, 0, 1⟩ = true := by
  have check : reaches failingRead policyRR 2 (executeMemInstruction failingRead policyRR)
      twoInTurn (fun world => world.pagesInBadly failingRead ⟨.load, 0, 1⟩) = true := by
    decide +kernel
  exact exists_reached check

theorem failed_page_in_presents_nothing_failingRead : ∃ start values world,
    simulationCreate failingRead policyRR (Process.fresh policyRR) 2 = .ok (some start) ∧
      (runAll (executeMemInstruction failingRead policyRR) twoInTurn).run start =
        .ok values world ∧
      (HonestPageIn failingRead policyRR world ⟨.load, 0, 1⟩ ↔
        PageInWorks failingRead policyRR world ⟨.load, 0, 1⟩) := by
  obtain ⟨start, values, world, created, run, -⟩ := failingRead_reached
  exact ⟨start, values, world, created, run, failed_page_in_presents_nothing_iff
    (fresh_cleared policyRR) (by decide) created run ⟨.load, 0, 1⟩⟩

/-- The page is marked as loaded, with what was in the frame before. -/
theorem failed_page_in_presents_page : ∃ start values world,
    simulationCreate failingRead policyRR (Process.fresh policyRR) 2 = .ok (some start) ∧
      (runAll (executeMemInstruction failingRead policyRR) twoInTurn).run start =
        .ok values world ∧
      ¬ HonestPageIn failingRead policyRR world ⟨.load, 0, 1⟩ := by
  obtain ⟨start, values, world, created, run, badly⟩ := failingRead_reached
  obtain ⟨root, coherent⟩ := reached_coherent (fresh_cleared policyRR) (by decide) created run
  refine ⟨start, values, world, created, run, fun honest => ?_⟩
  exact World.pagesInBadly_fails badly ((honestPageIn_iff coherent).mp honest)

end MemSim
