import MemSim.PageContents
import MemSim.PolicyContract

/-!
# Runs complete

While memory is granted, no system call fails and every call to the policy comes
back, an access can only stop at a page that a full swap lost.  With a slot for
every page there is none, so that every run returns.
-/

set_option autoImplicit false

namespace MemSim

open Exec

/-! ## One access -/

section Access
variable {env : Env} {policy : Policy} {root : Addr} {access : MemAccess}
  {world after : World policy.State} {frame : Nat}

/-- The page was written to swap without getting a slot. -/
def PageStore.Lost (store : PageStore) (page : Nat) : Prop :=
  ∃ entry, store.entry page = some entry ∧ entry.valid = false ∧ entry.onSwap = true ∧
    entry.swapOffset = invalidSwap

theorem PageStep.not_lost {page : Nat} {write : Bool} {store next : PageStore}
    (step : PageStep env page write store frame next) : ¬ store.Lost page := by
  intro isLost
  obtain ⟨entry, here, invalid, onSwap, offset⟩ := isLost
  have noFill : ∀ {found : PTE} {before storage : Storage} {frame : Nat},
      store.Missing page found → ¬ Fills env frame found before storage := by
    intro found before storage frame missing fills
    rcases missing with ⟨there, -⟩ | ⟨absent, -⟩
    · rw [here] at there
      cases there
      cases fills with
      | cleared notOnSwap =>
          rw [onSwap] at notOnSwap
          contradiction
      | pagedIn _ slot _ => exact slot offset
    · rw [here] at absent
      contradiction
  cases step with
  | hit there valid =>
      rw [here] at there
      cases there
      rw [invalid] at valid
      contradiction
  | fill missing unused bound fills => exact noFill missing fills
  | replace missing there valid bound pageOut fills => exact noFill missing fills

theorem translate_completes (coherent : world.Coherent env root none)
    (address : access.virtualAddress < 2 ^ 48)
    (succeed : AllocationsSucceed
      (finalState ((translate env policy access).run world)).heap.tracker.log)
    (returns : PolicyReturns env.memsize
      (finalState ((translate env policy access).run world)).log) :
    (∃ frame after, (translate env policy access).run world = .ok frame after) ∨
      (world.pageStore root).Lost access.page ∧
        ∃ after, (translate env policy access).run world = .error (.failed .pageInOffset) after := by
  have outcome := @translate_outcome env policy root access world coherent
  generalize (translate env policy access).run world = result at outcome succeed returns
  cases outcome with
  | stops stops =>
      cases stops with
      | outside wide => omega
      | refused fault log refused =>
          rw [finalState_error] at succeed
          have granted : AllocationsSucceed _ := log ▸ succeed
          exact absurd (allocationsSucceed_append.mp granted).2 refused
      | evictFails allocated here invalid fails =>
          cases fails with
          | stopped full evict =>
              have answered := returns (.evicted none) (by simp [World.record])
              exact answered.elim
          | @outside victim state full evict wide =>
              have answered : victim < env.memsize :=
                returns (.evicted (some victim)) (by simp [World.record])
              omega
      | @lost heap pte frame old entry after allocated here invalid obtains there same onSwap
          isLost =>
          refine .inr ⟨?_, _, rfl⟩
          have onSwap' : old.eraseReference.onSwap = true := by
            rw [← same]
            exact onSwap
          have isLost' : old.eraseReference.swapOffset = invalidSwap := by
            rw [← same]
            exact isLost
          rcases (pageStore_miss coherent allocated here invalid).1 with ⟨present, -⟩ | ⟨-, initial⟩
          · exact ⟨_, present, invalid, onSwap', isLost'⟩
          · rw [initial] at onSwap'
            contradiction
  | @refFails frame after fault state translates onRef =>
      have answered := returns (.referenced frame false) (by simp [World.record])
      contradiction
  | done translates onRef => exact .inl ⟨_, _, rfl⟩

end Access

/-! ## Slots along a run -/

section Slotted
variable {env : Env} {policy : Policy} {root : Addr} {pages : Finset Nat} {swapSize : Nat}
  {world after : World policy.State}

/-- Only the given pages are accessed; with a slot for each of them none is lost. -/
structure World.Slotted (env : Env) (root : Addr) (pages : Finset Nat) (swapSize : Nat)
    (world : World policy.State) : Prop where
  coherent : world.Coherent env root none
  slots : (world.pageStore root).Slots pages
  nbits : world.storage.swapmap.nbits = swapSize
  saved : pages.card ≤ bitmapCapacity swapSize → ∀ page entry,
    (world.pageStore root).entry page = some entry → entry.onSwap = true →
      entry.swapOffset ≠ invalidSwap

variable {process : Process policy.State}

theorem World.Started.entry_none (started : world.Started env policy process swapSize root)
    (page : Nat) : (world.pageStore root).entry page = none := by
  simp only [World.pageStore, Option.map_eq_none_iff, Option.bind_eq_none_iff]
  intro pte leaf
  exact started.noPte pte

theorem World.Started.slotted (started : world.Started env policy process swapSize root)
    (pages : Finset Nat) : world.Slotted env root pages swapSize := by
  have noEntry : ∀ {page entry}, (world.pageStore root).entry page ≠ some entry := by
    intro page entry here
    rw [started.entry_none page] at here
    contradiction
  refine ⟨started.coherent, ⟨?_, started.coherent.swapmap, ?_, ?_, ?_⟩, started.nbits, ?_⟩
  · exact fun _ _ here => absurd here noEntry
  · exact fun _ _ here => absurd here noEntry
  · intro idx below used
    have sameBits : (world.pageStore root).storage.swapmap = world.storage.swapmap := rfl
    rw [sameBits, started.nbits] at below
    rw [sameBits, started.clear idx below] at used
    contradiction
  · exact fun _ _ _ _ here => absurd here noEntry
  · exact fun _ _ _ here => absurd here noEntry

theorem World.Slotted.not_lost (slotted : world.Slotted env root pages swapSize)
    (room : pages.card ≤ bitmapCapacity swapSize) (page : Nat) :
    ¬ (world.pageStore root).Lost page := by
  intro isLost
  obtain ⟨entry, here, -, onSwap, offset⟩ := isLost
  exact slotted.saved room page entry here onSwap offset

theorem World.Slotted.setPhysmem (slotted : world.Slotted env root pages swapSize)
    (physmem : Nat → UInt8) :
    (world.setStorage { world.storage with physmem := physmem }).Slotted env root pages
      swapSize where
  coherent := slotted.coherent.setStorage slotted.coherent.swapmap
  slots := slotted.slots.setStorage (by exact rfl) (by exact Nat.le_refl _)
  nbits := slotted.nbits
  saved := slotted.saved

theorem PageStep.saved {page frame : Nat} {write : Bool} {store next : PageStore}
    (step : PageStep env page write store frame next) (slots : store.Slots pages)
    (succeeds : ∀ call, env.io call = .success) (few : pages.card ≤ 2 ^ 36)
    (room : pages.card ≤ bitmapCapacity store.storage.swapmap.nbits)
    (saved : ∀ page entry, store.entry page = some entry → entry.onSwap = true →
      entry.swapOffset ≠ invalidSwap) :
    ∀ page entry, next.entry page = some entry → entry.onSwap = true →
      entry.swapOffset ≠ invalidSwap := by
  intro other found present onSwap
  cases step with
  | @hit entry here valid =>
      rcases PageStore.set_eq_some.mp present with ⟨rfl, rfl⟩ | ⟨-, present⟩
      · exact saved other entry here onSwap
      · exact saved other found present onSwap
  | fill missing unused bound fills =>
      rcases PageStore.set_eq_some.mp present with ⟨-, rfl⟩ | ⟨-, present⟩
      · contradiction
      · exact saved other found present onSwap
  | replace missing here valid bound pageOut fills =>
      have out := slots.pageOut succeeds few here bound pageOut
      rcases PageStore.set_eq_some.mp present with ⟨-, rfl⟩ | ⟨-, present⟩
      · contradiction
      · rcases PageStore.set_eq_some.mp present with ⟨-, rfl⟩ | ⟨-, present⟩
        · intro isLost
          have overfull := out.lost isLost
          omega
        · exact saved other found present onSwap

theorem World.Slotted.translate (slotted : world.Slotted env root pages swapSize)
    (succeeds : ∀ call, env.io call = .success) (few : pages.card ≤ 2 ^ 36) {access : MemAccess}
    (member : access.page ∈ pages) {frame : Nat}
    (run : (translate env policy access).run world = .ok frame after) :
    after.Slotted env root pages swapSize := by
  obtain ⟨middle, state, translates, onRef, rfl⟩ := translate_ok slotted.coherent run
  have only : middle.policyState.OnlyReference state :=
    keeps_ok (policy.onRef_keeps env.memsize frame) onRef
  have step := translates.pageStep slotted.coherent
  obtain ⟨slots, nbits⟩ := step.slots slotted.slots succeeds few member
  have same : ((middle.setPolicyState state).record (.referenced frame true)).pageStore root =
      middle.pageStore root := pageStore_called only _
  refine ⟨translate_coherent slotted.coherent run, ?_, nbits.trans slotted.nbits, ?_⟩
  · rw [same]
    exact slots
  · rw [same]
    intro room
    apply step.saved slotted.slots succeeds few _ (slotted.saved room)
    have sameBits : (world.pageStore root).storage.swapmap = world.storage.swapmap := rfl
    rw [sameBits, slotted.nbits]
    exact room

end Slotted

/-! ## Runs -/

section Runs
variable {env : Env} {policy : Policy} {root : Addr} {pages : Finset Nat} {swapSize : Nat}
  {β : Type}

/-- A translation, followed by at most a write to physical memory, which does not
stop. -/
def Finishes (env : Env) (policy : Policy) (root : Addr) (allowed : MemAccess → Prop)
    (step : MemAccess → Exec (World policy.State) β) : Prop :=
  ∀ access, allowed access → ∀ world : World policy.State, world.Coherent env root none →
    ∀ frame middle, (translate env policy access).run world = .ok frame middle →
      ∃ value physmem, (step access).run world =
        .ok value (middle.setStorage { middle.storage with physmem := physmem })

variable {step : MemAccess → Exec (World policy.State) β} {allowed : MemAccess → Prop}

/-- The addresses and the pages of the accesses. -/
structure MemAccess.Within (pages : Finset Nat) (access : MemAccess) : Prop where
  address : access.virtualAddress < 2 ^ 48
  page : access.page ∈ pages

/-- A run of accesses in which memory is granted and the policy comes back
returns, unless it comes to an access to a page that was lost. -/
theorem run_completes (executes : Executes env policy step)
    (finishes : Finishes env policy root allowed step)
    (succeeds : ∀ call, env.io call = .success) (few : pages.card ≤ 2 ^ 36)
    (trace : List MemAccess) (within : ∀ access ∈ trace, access.Within pages)
    (allow : ∀ access ∈ trace, allowed access) {world : World policy.State}
    (slotted : world.Slotted env root pages swapSize)
    (succeed : AllocationsSucceed
      (finalState ((runAll step trace).run world)).heap.tracker.log)
    (returns : PolicyReturns env.memsize (finalState ((runAll step trace).run world)).log) :
    (∃ values after, (runAll step trace).run world = .ok values after) ∨
    (∃ front access rest, trace = front ++ access :: rest ∧ ∃ values middle,
      (runAll step front).run world = .ok values middle ∧
        middle.Slotted env root pages swapSize ∧ (middle.pageStore root).Lost access.page) ∧
      ∃ after, (runAll step trace).run world = .error (.failed .pageInOffset) after := by
  induction trace generalizing world with
  | nil => exact .inl ⟨[], world, rfl⟩
  | cons access rest ih =>
      have here := within access List.mem_cons_self
      have allowedHere := allow access List.mem_cons_self
      rcases executes access world with
        ⟨fault, after, translated, run⟩ | ⟨frame, middle, translated, -⟩
      · have left : finalState ((runAll step (access :: rest)).run world) = after := by
          rw [run_runAll_cons_of_error step run, finalState_error]
        rw [left] at succeed returns
        rcases translate_completes slotted.coherent here.address
          (by rwa [translated]) (by rwa [translated]) with
          ⟨frame, middle, translated'⟩ | ⟨isLost, after', translated'⟩
        · rw [translated] at translated'
          contradiction
        · rw [translated] at translated'
          cases translated'
          exact .inr ⟨⟨[], access, rest, rfl, [], world, rfl, slotted, isLost⟩, after,
            run_runAll_cons_of_error step run⟩
      · obtain ⟨value, physmem, run⟩ :=
          finishes access allowedHere world slotted.coherent frame middle translated
        have slotted' := (slotted.translate succeeds few here.page translated).setPhysmem physmem
        rw [finalState_runAll_cons_of_ok step run] at succeed returns
        rw [run_runAll_cons_of_ok step run]
        rcases ih (fun other member => within other (List.mem_cons_of_mem _ member))
          (fun other member => allow other (List.mem_cons_of_mem _ member)) slotted' succeed
          returns with ⟨values, last, restRun⟩ |
          ⟨⟨front, next, later, split, values, before, frontRun, slottedBefore, isLost⟩, last,
            restRun⟩
        · exact .inl ⟨value :: values, last, by rw [restRun]⟩
        · refine .inr ⟨⟨access :: front, next, later, ?_, value :: values, before, ?_,
            slottedBefore, isLost⟩, last, by rw [restRun]⟩
          · rw [split, List.cons_append]
          · rw [run_runAll_cons_of_ok step run, frontRun]

theorem run_slotted (executes : Executes env policy step)
    (succeeds : ∀ call, env.io call = .success) (few : pages.card ≤ 2 ^ 36)
    {trace : List MemAccess} (within : ∀ access ∈ trace, access.Within pages)
    {world after : World policy.State} (slotted : world.Slotted env root pages swapSize)
    {values : List β} (run : (runAll step trace).run world = .ok values after) :
    after.Slotted env root pages swapSize := by
  refine @runAll_invariant _ _ _ _ step (World.Slotted env root pages swapSize)
    (MemAccess.Within pages) ?_ trace world after values within slotted run
  intro access world value next here slotted stepRun
  rcases executes access world with
    ⟨fault, after, translated, run⟩ | ⟨frame, middle, translated, run | ⟨value', physmem, run⟩⟩
  · rw [stepRun] at run
    contradiction
  · rw [stepRun] at run
    contradiction
  · rw [stepRun] at run
    cases run
    exact (slotted.translate succeeds few here.page translated).setPhysmem physmem

end Runs

/-! ## The two kinds of run -/

section Kinds
variable (env : Env) (policy : Policy) (root : Addr)

theorem finishes_translate : Finishes env policy root (fun _ => True) (translate env policy) := by
  intro access _ world coherent frame middle run
  exact ⟨frame, middle.storage.physmem, run⟩

def tracePages (trace : List MemAccess) : Finset Nat := (trace.map MemAccess.page).toFinset

theorem mem_tracePages {trace : List MemAccess} {access : MemAccess} (member : access ∈ trace) :
    access.page ∈ tracePages trace := by
  simp only [tracePages, List.mem_toFinset]
  exact List.mem_map_of_mem member

theorem tracePages_few {trace : List MemAccess}
    (addresses : ∀ access ∈ trace, access.virtualAddress < 2 ^ 48) :
    (tracePages trace).card ≤ 2 ^ 36 := by
  have below : tracePages trace ⊆ Finset.range (2 ^ 36) := by
    intro page member
    simp only [tracePages, List.mem_toFinset, List.mem_map] at member
    obtain ⟨access, here, rfl⟩ := member
    have address := addresses access here
    simp only [MemAccess.page, pageNumber, pageSize_eq, Finset.mem_range]
    omega
  have atMost := Finset.card_le_card below
  rwa [Finset.card_range] at atMost

theorem tracePages_within {trace : List MemAccess}
    (addresses : ∀ access ∈ trace, access.virtualAddress < 2 ^ 48) :
    ∀ access ∈ trace, access.Within (tracePages trace) :=
  fun access member => ⟨addresses access member, mem_tracePages member⟩

end Kinds

end MemSim
