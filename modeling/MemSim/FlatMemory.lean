import MemSim.FreshRuns
import MemSim.TraceRange

/-!
# Virtual memory refines a flat memory

Whatever pages a policy evicts, an access that reads finds the value of the most
recent write to its address.  The contents of the pages at any time are those of
a flat memory after the accesses so far.
-/

set_option autoImplicit false

namespace MemSim

open Exec

/-! ## The flat memory -/

/-- The value of the most recent write to the address, or 0 without one. -/
def lastWritten (earlier : List MemAccess) (address : Nat) : UInt8 :=
  (earlier.filter fun access => access.type.isWrite && access.virtualAddress == address).getLast?.elim
    0 MemAccess.value

/-- What each access of a trace finds, after earlier accesses. -/
def flatReads : (earlier trace : List MemAccess) → List (Option UInt8)
  | _, [] => []
  | earlier, access :: rest =>
      (if access.type.isWrite then none else some (lastWritten earlier access.virtualAddress)) ::
        flatReads (earlier ++ [access]) rest

/-- The contents of the pages after the accesses. -/
def flatContents (earlier : List MemAccess) : Contents :=
  fun page byte => lastWritten earlier (page * pageSize + byte)

theorem lastWritten_nil (address : Nat) : lastWritten [] address = 0 := rfl

theorem lastWritten_write {earlier : List MemAccess} {access : MemAccess}
    (write : access.type.isWrite = true) :
    lastWritten (earlier ++ [access]) access.virtualAddress = access.value := by
  simp [lastWritten, List.filter_append, write]

theorem lastWritten_other {earlier : List MemAccess} {access : MemAccess} {address : Nat}
    (apart : access.type.isWrite = false ∨ access.virtualAddress ≠ address) :
    lastWritten (earlier ++ [access]) address = lastWritten earlier address := by
  have skipped : (access.type.isWrite && access.virtualAddress == address) = false := by
    rcases apart with read | other
    · simp [read]
    · simp [other]
  simp [lastWritten, List.filter_append, skipped]

theorem address_split (access : MemAccess) :
    access.virtualAddress = access.page * pageSize + access.virtualAddress % pageSize := by
  rw [MemAccess.page, pageNumber, Nat.mul_comm]
  exact (Nat.div_add_mod _ _).symm

/-! ## A write to physical memory -/

section Write
variable {env : Env} {contents contents' : Contents} {store : PageStore} {page offset : Nat}
  {entry : PTE} {value : UInt8}

theorem PageStore.Holds.write (holds : store.Holds contents) (framed : store.Framed env)
    (here : store.entry page = some entry) (valid : entry.valid = true)
    (dirty : entry.dirty = true) (bound : offset < 16)
    (written : contents' page offset = value)
    (others : ∀ other byte, byte < 16 → ¬ (other = page ∧ byte = offset) →
      contents' other byte = contents other byte) :
    (store.setStorage { store.storage with
      physmem := Function.update store.storage.physmem (entry.frameNumber * 16 + offset)
        value }).Holds contents' := by
  have elsewhere : ∀ other found, store.entry other = some found →
      found.valid = false ∨ found.dirty = false → other ≠ page := by
    intro other found present away same
    rw [same, here] at present
    cases present
    rw [valid, dirty] at away
    simp at away
  refine ⟨?_, ?_, ?_, ?_⟩
  · intro other found present valid' byte byteBound
    simp only [PageStore.setStorage]
    by_cases same : other = page
    · subst same
      have present' : store.entry other = some found := present
      rw [here] at present'
      cases present'
      by_cases atByte : byte = offset
      · rw [atByte, Function.update_self, written]
      · rw [Function.update_of_ne (by omega), others other byte byteBound (fun both => atByte both.2)]
        exact holds.inFrame other entry here valid byte byteBound
    · have apart : found.frameNumber ≠ entry.frameNumber := by
        intro sameFrame
        exact same (framed.apart other page found entry present here valid' valid sameFrame)
      rw [Function.update_of_ne (by omega), others other byte byteBound (fun both => same both.1)]
      exact holds.inFrame other found present valid' byte byteBound
  · intro other found present invalid onSwap slot byte byteBound
    have away := elsewhere other found present (.inl invalid)
    rw [others other byte byteBound (fun both => away both.1)]
    exact holds.inSlot other found present invalid onSwap slot byte byteBound
  · intro other found present valid' isClean
    have away := elsewhere other found present (.inr isClean)
    obtain ⟨slot, same⟩ := holds.clean other found present valid' isClean
    refine ⟨slot, fun byte byteBound => ?_⟩
    rw [others other byte byteBound (fun both => away both.1)]
    exact same byte byteBound
  · intro other unseen byte byteBound
    have away : other ≠ page := by
      rintro rfl
      rw [(unseen entry here).1] at valid
      contradiction
    rw [others other byte byteBound (fun both => away both.1)]
    exact holds.zero other unseen byte byteBound

end Write

/-! ## One access -/

section Access
variable {env : Env} {policy : Policy} {root : Addr} {access : MemAccess}
  {world after : World policy.State} {contents : Contents} {pages : Finset Nat} {swapSize : Nat}

theorem PageStep.accessed {page frame : Nat} {write : Bool} {store next : PageStore}
    (step : PageStep env page write store frame next) :
    ∃ entry, next.entry page = some entry ∧ entry.valid = true ∧ entry.frameNumber = frame ∧
      (write = true → entry.dirty = true) := by
  have dirty : ∀ {entry : PTE}, write = true → (entry.accessed write).dirty = true := by
    rintro entry rfl
    rfl
  cases step with
  | hit here valid => exact ⟨_, PageStore.set_same, valid, rfl, dirty⟩
  | fill missing unused bound fills => exact ⟨_, PageStore.set_same, rfl, rfl, dirty⟩
  | replace missing here valid bound pageOut fills =>
      exact ⟨_, PageStore.set_same, rfl, rfl, dirty⟩

theorem translate_contents (slotted : world.Slotted env root pages swapSize)
    (holds : (world.pageStore root).Holds contents) (succeeds : ∀ call, env.io call = .success)
    (few : pages.card ≤ 2 ^ 36) (small : env.memsize ≤ 2 ^ 28) {frame : Nat}
    (run : (translate env policy access).run world = .ok frame after) :
    (after.pageStore root).Holds contents ∧ ∃ entry,
      (after.pageStore root).entry access.page = some entry ∧ entry.valid = true ∧
        entry.frameNumber = frame ∧ (access.type.isWrite = true → entry.dirty = true) := by
  obtain ⟨middle, state, translates, onRef, rfl⟩ := translate_ok slotted.coherent run
  have only : middle.policyState.OnlyReference state :=
    keeps_ok (policy.onRef_keeps env.memsize frame) onRef
  have step := translates.pageStep slotted.coherent
  rw [pageStore_called only]
  exact ⟨step.holds slotted.slots holds succeeds few small slotted.coherent.framed,
    step.accessed⟩

theorem executeMemInstruction_ok (coherent : world.Coherent env root none)
    (address : access.virtualAddress < 2 ^ 48) (offset : access.virtualAddress % pageSize ≤ 15)
    {found : Option UInt8} (run : (executeMemInstruction env policy access).run world =
      .ok found after) :
    ∃ frame middle, (translate env policy access).run world = .ok frame middle ∧
      (if access.type.isWrite then
        (.ok none (middle.setStorage { middle.storage with
          physmem := Function.update middle.storage.physmem
            (frame * 16 + access.virtualAddress % pageSize) access.value }) :
              EStateM.Result Fault (World policy.State) (Option UInt8))
      else .ok (some (middle.storage.physmem (frame * 16 + access.virtualAddress % pageSize)))
        middle) = .ok found after := by
  have split : executeMemInstruction env policy access =
      translate env policy access >>= fun frame => accessMemory env policy frame access := rfl
  rw [split] at run
  obtain ⟨frame, middle, translated, run⟩ := bind_ok_iff.mp run
  refine ⟨frame, middle, translated, ?_⟩
  obtain ⟨before, state, translates, -⟩ := translate_ok coherent translated
  have bound := translates.bound env coherent
  have index := @physIndex_eq frame access.virtualAddress (by omega)
  rw [pageSize_eq] at offset ⊢
  rw [← run, run_accessMemory env policy index (by omega) middle]

theorem execute_refines {earlier : List MemAccess}
    (slotted : world.Slotted env root pages swapSize)
    (holds : (world.pageStore root).Holds (flatContents earlier))
    (succeeds : ∀ call, env.io call = .success) (few : pages.card ≤ 2 ^ 36)
    (small : env.memsize ≤ 2 ^ 28) (within : access.Within pages)
    (offset : access.virtualAddress % pageSize ≤ 15) {found : Option UInt8}
    (run : (executeMemInstruction env policy access).run world = .ok found after) :
    after.Slotted env root pages swapSize ∧
      (after.pageStore root).Holds (flatContents (earlier ++ [access])) ∧
      found = if access.type.isWrite then none
        else some (lastWritten earlier access.virtualAddress) := by
  obtain ⟨frame, middle, translated, accessed⟩ :=
    executeMemInstruction_ok slotted.coherent within.address offset run
  have slotted' := slotted.translate succeeds few within.page translated
  obtain ⟨holds', entry, here, valid, rfl, dirty⟩ := translate_contents slotted holds succeeds few
    small translated
  have here' : (middle.pageStore root).storage.physmem
      (entry.frameNumber * 16 + access.virtualAddress % pageSize) =
        lastWritten earlier access.virtualAddress := by
    rw [holds'.inFrame access.page entry here valid _ (by omega), flatContents, ← address_split]
  cases write : access.type.isWrite with
  | false =>
      rw [write, if_neg Bool.false_ne_true] at accessed
      cases accessed
      refine ⟨slotted', ?_, ?_⟩
      · have same : flatContents (earlier ++ [access]) = flatContents earlier := by
          funext page byte
          exact lastWritten_other (.inl write)
        rw [same]
        exact holds'
      · rw [if_neg Bool.false_ne_true, ← here']
        rfl
  | true =>
      rw [write, if_pos rfl] at accessed
      cases accessed
      refine ⟨slotted'.setPhysmem _, ?_, (if_pos rfl).symm⟩
      apply holds'.write slotted'.coherent.framed here valid (dirty write) (by omega)
      · rw [flatContents, ← address_split, lastWritten_write write]
      · intro other byte byteBound elsewhere
        apply lastWritten_other
        right
        intro same
        rw [address_split access, pageSize_eq] at same
        rw [pageSize_eq] at offset elsewhere
        exact elsewhere ⟨by omega, by omega⟩

theorem run_refines {earlier trace : List MemAccess}
    (slotted : world.Slotted env root pages swapSize)
    (holds : (world.pageStore root).Holds (flatContents earlier))
    (succeeds : ∀ call, env.io call = .success) (few : pages.card ≤ 2 ^ 36)
    (small : env.memsize ≤ 2 ^ 28) (within : ∀ access ∈ trace, access.Within pages)
    (offsets : ∀ access ∈ trace, access.virtualAddress % pageSize ≤ 15)
    {found : List (Option UInt8)}
    (run : (runAll (executeMemInstruction env policy) trace).run world = .ok found after) :
    found = flatReads earlier trace ∧
      (after.pageStore root).Holds (flatContents (earlier ++ trace)) := by
  induction trace generalizing earlier world found with
  | nil =>
      simp only [run_runAll_nil, EStateM.Result.ok.injEq] at run
      obtain ⟨rfl, rfl⟩ := run
      rw [List.append_nil]
      exact ⟨rfl, holds⟩
  | cons access rest ih =>
      obtain ⟨value, middle, others, stepRun, restRun, rfl⟩ :=
        (runAll_cons_ok_iff (executeMemInstruction env policy)).mp run
      obtain ⟨slotted', holds', same⟩ := execute_refines slotted holds succeeds few small
        (within access List.mem_cons_self) (offsets access List.mem_cons_self) stepRun
      obtain ⟨sameRest, holdsRest⟩ := ih slotted' holds'
        (fun other member => within other (List.mem_cons_of_mem _ member))
        (fun other member => offsets other (List.mem_cons_of_mem _ member)) restRun
      rw [List.append_assoc] at holdsRest
      exact ⟨by rw [same, sameRest, flatReads], holdsRest⟩

end Access

/-! ## Runs in a fresh process -/

/-- The page is not in memory, and its entry is marked as being on swap. -/
def World.OnSwap {σ : Type} (world : World σ) (page : Nat) : Prop :=
  ∃ root pte entry, world.pageTable = some root ∧ world.heap.leafAt root page = some pte ∧
    world.heap.pte pte = some entry ∧ entry.valid = false ∧ entry.onSwap = true

section Fresh
variable {env : Env} {policy : Policy} {swapSize : Nat} {trace : List MemAccess}
  {world : World policy.State} {root : Addr}

theorem onSwap_iff (coherent : world.Coherent env root none) {page : Nat} :
    world.OnSwap page ↔ ∃ entry, (world.pageStore root).entry page = some entry ∧
      entry.valid = false ∧ entry.onSwap = true := by
  constructor
  · intro onSwap
    obtain ⟨root', pte, entry, isRoot, leaf, here, invalid, marked⟩ := onSwap
    rw [coherent.pageTable] at isRoot
    cases isRoot
    exact ⟨_, pageStore_entry leaf here, invalid, marked⟩
  · intro onSwap
    obtain ⟨entry, present, invalid, marked⟩ := onSwap
    obtain ⟨pte, old, leaf, here, rfl⟩ := pageStore_entry_eq_some.mp present
    exact ⟨root, pte, old, coherent.pageTable, leaf, here, invalid, marked⟩

theorem World.Started.holds {process : Process policy.State}
    (started : world.Started env policy process swapSize root) :
    (world.pageStore root).Holds (flatContents []) := by
  have noEntry : ∀ {page entry}, (world.pageStore root).entry page ≠ some entry := by
    intro page entry here
    rw [started.entry_none page] at here
    contradiction
  exact ⟨fun _ _ here => absurd here noEntry, fun _ _ here => absurd here noEntry,
    fun _ _ here => absurd here noEntry, fun _ _ _ _ => rfl⟩

theorem finishes_executeMemInstruction (root : Addr) :
    Finishes env policy root
      (fun access => access.virtualAddress < 2 ^ 48 ∧ access.virtualAddress % pageSize ≤ 15)
      (executeMemInstruction env policy) := by
  intro access allowed world coherent frame middle translated
  have split : executeMemInstruction env policy access =
      translate env policy access >>= fun frame => accessMemory env policy frame access := rfl
  obtain ⟨before, state, translates, -⟩ := translate_ok coherent translated
  have bound := translates.bound env coherent
  have address := allowed.1
  have offset := allowed.2
  have index := @physIndex_eq frame access.virtualAddress (by omega)
  rw [pageSize_eq] at offset
  rw [split, run_bind_of_ok translated, run_accessMemory env policy index (by omega) middle]
  split
  · exact ⟨none, _, rfl⟩
  · exact ⟨_, middle.storage.physmem, rfl⟩

theorem World.Slotted.lost_of_large {pages : Finset Nat}
    (slotted : world.Slotted env root pages swapSize) (large : 2 ^ 64 - 64 < swapSize)
    {page : Nat} (onSwap : world.OnSwap page) : (world.pageStore root).Lost page := by
  obtain ⟨entry, present, invalid, marked⟩ := (onSwap_iff slotted.coherent).mp onSwap
  refine ⟨entry, present, invalid, marked, ?_⟩
  by_contra slot
  obtain ⟨idx, below, -⟩ := slotted.slots.slot page entry present slot
  have nbits : (world.pageStore root).storage.swapmap.nbits = swapSize := slotted.nbits
  rw [nbits, bitmapCapacity, if_neg (by omega)] at below
  exact Nat.not_lt_zero idx below

/-- Every access that reads finds what was written last, unless the swap is too
large for a bitmap and an access comes to a page on swap. -/
theorem reads_last_written_iff
    (fresh : FreshRun env policy swapSize (executeMemInstruction env policy) trace world)
    (small : env.memsize ≤ 2 ^ 28)
    (offsets : ∀ access ∈ trace, access.virtualAddress % pageSize ≤ 15)
    (admissible : AdmissiblePolicy env policy
      (finalState ((runAll (executeMemInstruction env policy) trace).run world)).log) :
    (∃ after, (runAll (executeMemInstruction env policy) trace).run world =
      .ok (flatReads [] trace) after) ↔
    swapSize ≤ 2 ^ 64 - 64 ∨
      ∀ front access rest, trace = front ++ access :: rest → ∀ found middle,
        (runAll (executeMemInstruction env policy) front).run world = .ok found middle →
          ¬ middle.OnSwap access.page := by
  obtain ⟨root, started⟩ := fresh.started
  have executes := executes_executeMemInstruction env policy
  have within := tracePages_within fresh.addresses
  have slotted := started.slotted (tracePages trace)
  constructor
  · intro returned
    obtain ⟨after, run⟩ := returned
    by_cases fits : swapSize ≤ 2 ^ 64 - 64
    · exact .inl fits
    right
    rintro front access rest rfl found middle frontRun onSwap
    have slottedMiddle := run_slotted executes fresh.io fresh.few
      (fun access inFront => within access (List.mem_append_left _ inFront)) slotted frontRun
    obtain ⟨first, middle', second, frontRun', backRun, -⟩ := runAll_append_ok _ run
    cases frontRun.symm.trans frontRun'
    obtain ⟨value, next, others, stepRun, -⟩ := (runAll_cons_ok_iff _).mp backRun
    obtain ⟨frame, translated, translateRun, -⟩ := executeMemInstruction_ok slottedMiddle.coherent
      (fresh.addresses access (by simp)) (offsets access (by simp)) stepRun
    obtain ⟨before, state, translates, -⟩ := translate_ok slottedMiddle.coherent translateRun
    exact (translates.pageStep slottedMiddle.coherent).not_lost
      (slottedMiddle.lost_of_large (Nat.lt_of_not_le fits) onSwap)
  · intro condition
    have returns := admissible.returns fresh.positive started executes
    rcases run_completes executes (finishes_executeMemInstruction root) fresh.io fresh.few trace
      within (fun access member => ⟨fresh.addresses access member, offsets access member⟩) slotted
      fresh.memory returns with
      ⟨found, after, run⟩ |
      ⟨⟨front, access, rest, split, found, middle, frontRun, slottedMiddle, isLost⟩, -⟩
    · obtain ⟨same, -⟩ := run_refines slotted started.holds fresh.io fresh.few small within
        offsets run
      exact ⟨after, same ▸ run⟩
    · rcases condition with fits | never
      · have room := fresh.room
        rw [← bitmapCapacity_fits fits] at room
        exact absurd isLost (slottedMiddle.not_lost room access.page)
      · obtain ⟨entry, present, invalid, marked, -⟩ := isLost
        exact absurd ((onSwap_iff slottedMiddle.coherent).mpr ⟨entry, present, invalid, marked⟩)
          (never front access rest split found middle frontRun)

theorem reads_last_written_threePages : ∃ world,
    FreshRun (Env.ideal 2) policyClock 3 (executeMemInstruction (Env.ideal 2) policyClock)
      threePages world ∧
    ∃ after, (runAll (executeMemInstruction (Env.ideal 2) policyClock) threePages).run world =
      .ok (flatReads [] threePages) after := by
  have grants : grantsRun (Env.ideal 2) policyClock 3
      (executeMemInstruction (Env.ideal 2) policyClock) threePages = true := by decide +kernel
  obtain ⟨world, fresh⟩ := threePages_fresh grants
  have member : policyClock ∈ policies fun _ => 0 := by simp [policies]
  refine ⟨world, fresh, ?_⟩
  exact (reads_last_written_iff fresh (by decide) (by decide) (.inl ⟨_, member⟩)).mpr
    (.inl (by decide))

/-- Two pages that take turns in one frame. -/
def twoPages : List MemAccess := [⟨.store, 0, 1⟩, ⟨.load, 4096, 0⟩, ⟨.load, 0, 1⟩]

/-- A check by evaluation that a run in a fresh process does not return. -/
def stopsEarly (env : Env) (policy : Policy) (swapSize : Nat) (trace : List MemAccess) : Bool :=
  match simulationCreate env policy (Process.fresh policy) swapSize with
  | .ok (some start) =>
      match (runAll (executeMemInstruction env policy) trace).run start with
      | .ok _ _ => false
      | .error _ _ => true
  | _ => false

theorem not_returned {env : Env} {policy : Policy} {swapSize : Nat} {trace : List MemAccess}
    {start after : World policy.State} {values : List (Option UInt8)}
    (stops : stopsEarly env policy swapSize trace = true)
    (created : simulationCreate env policy (Process.fresh policy) swapSize = .ok (some start)) :
    (runAll (executeMemInstruction env policy) trace).run start ≠ .ok values after := by
  intro run
  simp only [stopsEarly, created, run] at stops
  exact Bool.false_ne_true stops

/-- A swap of 2^64 - 1 slots has a bitmap without words, so that the page evicted
first is lost. -/
theorem large_swap_loses_page : ∃ world,
    FreshRun (Env.ideal 1) policyClock (2 ^ 64 - 1)
      (executeMemInstruction (Env.ideal 1) policyClock) twoPages world ∧
    (Env.ideal 1).memsize ≤ 2 ^ 28 ∧
    (∀ access ∈ twoPages, access.virtualAddress % pageSize ≤ 15) ∧
    policyClock ∈ policies (fun _ => 0) ∧
    ¬ ∃ after, (runAll (executeMemInstruction (Env.ideal 1) policyClock) twoPages).run world =
      .ok (flatReads [] twoPages) after := by
  have grants : grantsRun (Env.ideal 1) policyClock (2 ^ 64 - 1)
      (executeMemInstruction (Env.ideal 1) policyClock) twoPages = true := by decide +kernel
  have room : (tracePages twoPages).card ≤ 2 := by decide
  obtain ⟨world, fresh⟩ := exists_freshRun grants (by decide) (by decide) (fun _ => rfl)
    (by decide) (by omega)
  have stops : stopsEarly (Env.ideal 1) policyClock (2 ^ 64 - 1) twoPages = true := by
    decide +kernel
  refine ⟨world, fresh, by decide, by decide, by simp [policies], ?_⟩
  intro returned
  obtain ⟨after, run⟩ := returned
  exact not_returned stops fresh.created run

end Fresh

end MemSim
