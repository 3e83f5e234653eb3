import MemSim.FreshRuns
import MemSim.SwapOffsets

/-!
# Page-outs that fail

`CSC369_MMHandleEviction` stores the result of the page-out in the entry of the
victim and marks the page as being on swap, also when the page-out failed.  The
page is then lost; nothing is lost while every page-out does its work.
-/

set_option autoImplicit false

namespace MemSim

open Exec

/-- A page whose page-out failed is still in its frame, or in its slot on swap. -/
def EvictionRecord.Kept (record : EvictionRecord) : Prop :=
  record.result = invalidSwap →
    (record.entryAfter.valid = true ∧ record.ownerAfter = record.victim) ∨
    record.entryAfter.onSwap = true ∧ record.entryAfter.swapOffset ≠ invalidSwap ∧
      ∀ byte < simulatedFrameSize,
        record.storageAfter.file.data (record.entryAfter.swapOffset.toNat + byte) =
          record.storage.physmem (record.entry.frameNumber * simulatedFrameSize + byte)

/-- The seek and the write for the victim do their work, in a slot that it has or
that is free. -/
def EvictionRecord.PageOutOk (env : Env) (record : EvictionRecord) : Prop :=
  record.storage.PageOutOk env record.entry.swapOffset

/-- No page is on swap without a slot. -/
def World.NoneLost {σ : Type} (world : World σ) : Prop :=
  ∀ pte entry, world.heap.pte pte = some entry → entry.onSwap = true →
    entry.swapOffset ≠ invalidSwap

section Records
variable {env : Env} {frame : Nat} {record : EvictionRecord}

theorem EvictionRecord.Sound.invalid_iff (sound : record.Sound env frame) :
    record.result = invalidSwap ↔ ¬ record.PageOutOk env :=
  swapPageOut_invalid_iff sound.shaped sound.bound sound.pageOut

theorem EvictionRecord.Sound.kept_iff (sound : record.Sound env frame) :
    record.Kept ↔ record.PageOutOk env := by
  constructor
  · intro kept
    by_contra failed
    have invalid := sound.invalid_iff.mpr failed
    rcases kept invalid with ⟨valid, -⟩ | ⟨-, slot, -⟩
    · rw [sound.after, PTE.pagedOut_valid] at valid
      contradiction
    · rw [sound.after, invalid] at slot
      exact slot rfl
  · intro ok invalid
    exact absurd ok (sound.invalid_iff.mp invalid)

end Records

/-! ## States between accesses -/

section Steps
variable {env : Env} {policy : Policy} {root : Addr} {access : MemAccess}
  {world after : World policy.State} {frame : Nat}

/-- Every page-out of the log gave a slot. -/
def SlotsGiven (log : List Event) : Prop :=
  ∀ record, .handled record ∈ log → record.result ≠ invalidSwap

theorem SlotsGiven.earlier {first second : List Event} (given : SlotsGiven second)
    (shorter : first <+: second) : SlotsGiven first :=
  fun record member => given record (shorter.subset member)

theorem translate_noneLost (coherent : world.Coherent env root none) (noneLost : world.NoneLost)
    (given : SlotsGiven (finalState ((translate env policy access).run world)).log)
    (returns : PolicyReturns env.memsize
      (finalState ((translate env policy access).run world)).log) :
    (∀ frame after, (translate env policy access).run world = .ok frame after → after.NoneLost) ∧
      ∀ after, (translate env policy access).run world ≠ .error (.failed .pageInOffset) after := by
  have outcome := @translate_outcome env policy root access world coherent
  generalize (translate env policy access).run world = result at outcome given returns
  cases outcome with
  | stops stops =>
      refine ⟨fun _ _ same => by contradiction, fun after same => ?_⟩
      cases same
      cases stops with
      | refused isFault log refused =>
          rcases isFault with isFault | isFault
          · contradiction
          · contradiction
      | evictFails allocated here invalid fails =>
          cases fails with
          | stopped full evict =>
              have answered := returns (.evicted none) (by simp [World.record])
              exact answered.elim
      | @lost heap pte frame old entry after allocated here invalid obtains there same onSwap
          isLost =>
          have onSwap' : world.Offsets (· ≠ invalidSwap) := noneLost
          have counted : ((world.setHeap heap).countMiss).Offsets (· ≠ invalidSwap) :=
            onSwap'.allocated allocated
          have obtainedNone := obtains.onSwap counted fun _ => given
          exact obtainedNone pte entry there onSwap isLost
  | @refFails frame after fault state translates onRef =>
      have answered := returns (.referenced frame false) (by simp [World.record])
      contradiction
  | @done frame after state translates onRef =>
      refine ⟨fun frame' after' same => ?_, fun _ same => by contradiction⟩
      cases same
      have only : after.policyState.OnlyReference state :=
        keeps_ok (policy.onRef_keeps env.memsize frame) onRef
      have kept : after.Offsets (· ≠ invalidSwap) :=
        translates.onSwap noneLost fun _ => given.earlier (List.prefix_append _ _)
      exact kept.called only _

theorem run_noneLost {β : Type} {step : MemAccess → Exec (World policy.State) β}
    (executes : Executes env policy step) (appends : ∀ access, Appends (step access))
    (trace : List MemAccess) (coherent : world.Coherent env root none)
    (noneLost : world.NoneLost)
    (given : SlotsGiven (finalState ((runAll step trace).run world)).log)
    (returns : PolicyReturns env.memsize (finalState ((runAll step trace).run world)).log) :
    (∀ values after, (runAll step trace).run world = .ok values after → after.NoneLost) ∧
      ∀ after, (runAll step trace).run world ≠ .error (.failed .pageInOffset) after := by
  induction trace generalizing world with
  | nil =>
      refine ⟨fun values after same => ?_, fun _ same => by contradiction⟩
      cases same
      exact noneLost
  | cons access rest ih =>
      rcases executes access world with
        ⟨fault, after, translated, run⟩ | ⟨frame, middle, translated, run⟩
      · rw [run_runAll_cons_of_error step run] at given returns ⊢
        obtain ⟨-, never⟩ := translate_noneLost coherent noneLost (by rwa [translated])
          (by rwa [translated])
        refine ⟨fun _ _ same => by contradiction, fun last same => ?_⟩
        cases same
        exact never after translated
      · have shorter : middle.log <+: (finalState ((runAll step (access :: rest)).run world)).log := by
          rcases run with run | ⟨value, physmem, run⟩
          · rw [run_runAll_cons_of_error step run]
            exact List.prefix_rfl
          · rw [finalState_runAll_cons_of_ok step run]
            exact (keeps_runAll step World.LogGrows.refl World.LogGrows.trans appends rest
              (middle.setStorage { middle.storage with physmem := physmem })).2
        obtain ⟨kept, -⟩ := translate_noneLost coherent noneLost
          (by rw [translated]; exact given.earlier shorter)
          (by rw [translated]; exact returns.earlier shorter)
        have noneLost' := kept frame middle translated
        have coherent' := translate_coherent coherent translated
        rcases run with run | ⟨value, physmem, run⟩
        · rw [run_runAll_cons_of_error step run]
          refine ⟨fun _ _ same => by contradiction, fun after same => ?_⟩
          cases same
        · rw [finalState_runAll_cons_of_ok step run] at given returns
          have written : (middle.setStorage { middle.storage with physmem := physmem }).Coherent env
              root none := coherent'.setStorage coherent'.swapmap
          obtain ⟨restKept, never⟩ := ih written (by exact noneLost') given returns
          rw [run_runAll_cons_of_ok step run]
          cases restRun : (runAll step rest).run
              (middle.setStorage { middle.storage with physmem := physmem }) with
          | ok values last =>
              refine ⟨fun _ _ same => ?_, fun _ same => by contradiction⟩
              cases same
              exact restKept values last restRun
          | error fault last =>
              refine ⟨fun _ _ same => by contradiction, fun after same => ?_⟩
              cases same
              exact never last restRun

end Steps

/-! ## Runs in a fresh process -/

section Fresh
variable {env : Env} {policy : Policy} {swapSize : Nat} {trace : List MemAccess}
  {world : World policy.State}

/-- What a failed page-out must not do, in a whole run: every page is kept, no
state between accesses has a page on swap without a slot, and no page-in is asked
for one. -/
structure NothingLost (env : Env) (policy : Policy) (trace : List MemAccess)
    (world : World policy.State) : Prop where
  kept : ∀ record, .handled record ∈
    (finalState ((runAll (executeMemInstruction env policy) trace).run world)).log → record.Kept
  between : ∀ front rest, trace = front ++ rest → ∀ found middle,
    (runAll (executeMemInstruction env policy) front).run world = .ok found middle →
      middle.NoneLost
  asserts : ∀ after, (runAll (executeMemInstruction env policy) trace).run world ≠
    .error (.failed .pageInOffset) after

/-- Nothing is lost exactly in the runs in which every page-out works. -/
theorem failed_page_out_loses_nothing_iff
    (created : simulationCreate env policy (Process.fresh policy) swapSize = .ok (some world))
    (positive : 0 < env.memsize) (swapFits : swapSize < 2 ^ 64)
    (admissible : AdmissiblePolicy env policy
      (finalState ((runAll (executeMemInstruction env policy) trace).run world)).log) :
    NothingLost env policy trace world ↔ ∀ record, .handled record ∈
      (finalState ((runAll (executeMemInstruction env policy) trace).run world)).log →
        record.PageOutOk env := by
  obtain ⟨root, started⟩ := simulationCreate_started (fresh_cleared policy) swapFits created
  have executes := executes_executeMemInstruction env policy
  have recorded := run_recorded executes trace started.coherent
    (by rw [started.log]; exact Recorded.nil)
  have returns := admissible.returns positive started executes
  constructor
  · intro nothing record member
    obtain ⟨frame, sound⟩ := recorded.handled member
    exact sound.kept_iff.mp (nothing.kept record member)
  · intro ok
    have given : SlotsGiven
        (finalState ((runAll (executeMemInstruction env policy) trace).run world)).log := by
      intro record member invalid
      obtain ⟨frame, sound⟩ := recorded.handled member
      exact sound.invalid_iff.mp invalid (ok record member)
    have noneAtStart : world.NoneLost := by
      intro pte entry here
      rw [started.noPte pte] at here
      contradiction
    have appends := appends_executeMemInstruction env policy
    refine ⟨?_, ?_, ?_⟩
    · intro record member
      obtain ⟨frame, sound⟩ := recorded.handled member
      exact sound.kept_iff.mpr (ok record member)
    · rintro front rest rfl found middle run
      have shorter : middle.log <+: (finalState
          ((runAll (executeMemInstruction env policy) (front ++ rest)).run world)).log := by
        rw [finalState_runAll_append_of_ok _ run]
        exact (keeps_runAll _ World.LogGrows.refl World.LogGrows.trans appends rest middle).2
      have here : finalState ((runAll (executeMemInstruction env policy) front).run world) =
          middle := by
        rw [run, finalState_ok]
      obtain ⟨kept, -⟩ := run_noneLost executes appends front started.coherent noneAtStart
        (by rw [here]; exact given.earlier shorter) (by rw [here]; exact returns.earlier shorter)
      exact kept found middle run
    · exact (run_noneLost executes appends trace started.coherent noneAtStart given returns).2

theorem failed_page_out_loses_nothing_threePages : ∃ world,
    simulationCreate (Env.ideal 2) policyClock (Process.fresh policyClock) 3 = .ok (some world) ∧
      (NothingLost (Env.ideal 2) policyClock threePages world ↔ ∀ record, .handled record ∈
        (finalState ((runAll (executeMemInstruction (Env.ideal 2) policyClock)
          threePages).run world)).log → record.PageOutOk (Env.ideal 2)) := by
  have grants : grantsRun (Env.ideal 2) policyClock 3
      (executeMemInstruction (Env.ideal 2) policyClock) threePages = true := by decide +kernel
  obtain ⟨world, fresh⟩ := threePages_fresh grants
  have member : policyClock ∈ policies fun _ => 0 := by simp [policies]
  exact ⟨world, fresh.created, failed_page_out_loses_nothing_iff fresh.created (by decide)
    (by decide) (.inl ⟨_, member⟩)⟩

/-- Three pages in one frame, with one slot on swap: the second page is lost. -/
def threeInTurn : List MemAccess :=
  [⟨.store, 0, 1⟩, ⟨.store, 4096, 2⟩, ⟨.load, 8192, 0⟩, ⟨.load, 4096, 2⟩]

def Event.losesPage : Event → Bool
  | .handled record => decide (record.result = invalidSwap ∧ record.entryAfter.valid = false ∧
      record.entryAfter.swapOffset = invalidSwap)
  | _ => false

theorem Event.losesPage_iff {event : Event} : event.losesPage = true ↔ ∃ record,
    event = .handled record ∧ record.result = invalidSwap ∧ record.entryAfter.valid = false ∧
      record.entryAfter.swapOffset = invalidSwap := by
  cases event with
  | handled record => simp [Event.losesPage]
  | referenced frame returned => simp [Event.losesPage]
  | evicted victim => simp [Event.losesPage]

/-- A check by evaluation that a run in a fresh process loses a page and stops when
it is accessed again. -/
def stopsAtLostPage (env : Env) (policy : Policy) (swapSize : Nat) (trace : List MemAccess) :
    Bool :=
  match simulationCreate env policy (Process.fresh policy) swapSize with
  | .ok (some start) =>
      match (runAll (executeMemInstruction env policy) trace).run start with
      | .ok _ _ => false
      | .error fault after =>
          decide (fault = .failed .pageInOffset) && after.log.any Event.losesPage
  | _ => false

theorem exists_lostPage {env : Env} {policy : Policy} {swapSize : Nat} {trace : List MemAccess}
    (check : stopsAtLostPage env policy swapSize trace = true) : ∃ start after event,
      simulationCreate env policy (Process.fresh policy) swapSize = .ok (some start) ∧
        (runAll (executeMemInstruction env policy) trace).run start =
          .error (.failed .pageInOffset) after ∧
        event ∈ after.log ∧ event.losesPage = true := by
  unfold stopsAtLostPage at check
  split at check
  · rename_i start created
    split at check
    · exact absurd check Bool.false_ne_true
    · rename_i fault after run
      obtain ⟨isFault, found⟩ := Bool.and_eq_true_iff.mp check
      obtain ⟨event, member, loses⟩ := List.any_eq_true.mp found
      rw [of_decide_eq_true isFault] at run
      exact ⟨start, after, event, created, run, member, loses⟩
  · exact absurd check Bool.false_ne_true

theorem full_swap_loses_page : ∃ world,
    simulationCreate (Env.ideal 1) policyRR (Process.fresh policyRR) 1 = .ok (some world) ∧
      (∃ record, .handled record ∈ (finalState ((runAll (executeMemInstruction (Env.ideal 1)
        policyRR) threeInTurn).run world)).log ∧ ¬ record.Kept) ∧
      ∃ after, (runAll (executeMemInstruction (Env.ideal 1) policyRR) threeInTurn).run world =
        .error (.failed .pageInOffset) after := by
  have check : stopsAtLostPage (Env.ideal 1) policyRR 1 threeInTurn = true := by
    decide +kernel
  obtain ⟨start, after, event, created, run, member, loses⟩ := exists_lostPage check
  obtain ⟨record, rfl, invalid, notValid, noSlot⟩ := Event.losesPage_iff.mp loses
  refine ⟨start, created, ⟨record, ?_, fun kept => ?_⟩, after, run⟩
  · rw [run]
    exact member
  · rcases kept invalid with ⟨valid, -⟩ | ⟨-, slot, -⟩
    · rw [notValid] at valid
      exact absurd valid Bool.false_ne_true
    · exact slot noSlot

end Fresh

end MemSim
