import MemSim.EvictionLog
import MemSim.FreshPolicies

/-!
# Runs in a fresh process

The first simulation of a process, with memory granted, no failing system call
and a swap with room for every page of the trace.  Between accesses the coremap
and the page table are inverse to each other.
-/

set_option autoImplicit false

namespace MemSim

open Exec

/-- The conditions on the first simulation of a process and its trace. -/
structure FreshRun {β : Type} (env : Env) (policy : Policy) (swapSize : Nat)
    (step : MemAccess → Exec (World policy.State) β) (trace : List MemAccess)
    (world : World policy.State) : Prop where
  created : simulationCreate env policy (Process.fresh policy) swapSize = .ok (some world)
  positive : 0 < env.memsize
  swapFits : swapSize < 2 ^ 64
  io : ∀ call, env.io call = .success
  addresses : ∀ access ∈ trace, access.virtualAddress < 2 ^ 48
  room : (tracePages trace).card ≤ swapSize
  memory : AllocationsSucceed (finalState ((runAll step trace).run world)).heap.tracker.log

/-- A check by evaluation of what a fresh run needs of its environment. -/
def grantsRun {β : Type} (env : Env) (policy : Policy) (swapSize : Nat)
    (step : MemAccess → Exec (World policy.State) β) (trace : List MemAccess) : Bool :=
  match simulationCreate env policy (Process.fresh policy) swapSize with
  | .ok (some world) =>
      decide (AllocationsSucceed (finalState ((runAll step trace).run world)).heap.tracker.log)
  | _ => false

theorem exists_freshRun {β : Type} {env : Env} {policy : Policy} {swapSize : Nat}
    {step : MemAccess → Exec (World policy.State) β} {trace : List MemAccess}
    (grants : grantsRun env policy swapSize step trace = true) (positive : 0 < env.memsize)
    (swapFits : swapSize < 2 ^ 64) (io : ∀ call, env.io call = .success)
    (addresses : ∀ access ∈ trace, access.virtualAddress < 2 ^ 48)
    (room : (tracePages trace).card ≤ swapSize) :
    ∃ world, FreshRun env policy swapSize step trace world := by
  unfold grantsRun at grants
  split at grants
  · rename_i world created
    exact ⟨world, created, positive, swapFits, io, addresses, room, of_decide_eq_true grants⟩
  · contradiction

/-- A check by evaluation of the state that a run in a fresh process reaches. -/
def reaches {β : Type} (env : Env) (policy : Policy) (swapSize : Nat)
    (step : MemAccess → Exec (World policy.State) β) (trace : List MemAccess)
    (test : World policy.State → Bool) : Bool :=
  match simulationCreate env policy (Process.fresh policy) swapSize with
  | .ok (some start) =>
      match (runAll step trace).run start with
      | .ok _ world => test world
      | .error _ _ => false
  | _ => false

theorem exists_reached {β : Type} {env : Env} {policy : Policy} {swapSize : Nat}
    {step : MemAccess → Exec (World policy.State) β} {trace : List MemAccess}
    {test : World policy.State → Bool}
    (check : reaches env policy swapSize step trace test = true) : ∃ start values world,
      simulationCreate env policy (Process.fresh policy) swapSize = .ok (some start) ∧
        (runAll step trace).run start = .ok values world ∧ test world = true := by
  unfold reaches at check
  split at check
  · rename_i start created
    split at check
    · rename_i values world run
      exact ⟨start, values, world, created, run, check⟩
    · exact absurd check Bool.false_ne_true
  · exact absurd check Bool.false_ne_true

/-- The run returns, unless the swap size is too large for a bitmap and a page was
lost. -/
def Completes {α σ : Type} (swapSize : Nat) (result : EStateM.Result Fault σ α) : Prop :=
  (∃ value after, result = .ok value after) ∨
    2 ^ 64 - 64 < swapSize ∧ ∃ after, result = .error (.failed .pageInOffset) after

section FreshRun
variable {β : Type} {env : Env} {policy : Policy} {swapSize : Nat}
  {step : MemAccess → Exec (World policy.State) β} {trace : List MemAccess}
  {world : World policy.State}

theorem FreshRun.started (fresh : FreshRun env policy swapSize step trace world) :
    ∃ root, world.Started env policy (Process.fresh policy) swapSize root :=
  simulationCreate_started (fresh_cleared policy) fresh.swapFits fresh.created

theorem FreshRun.few (fresh : FreshRun env policy swapSize step trace world) :
    (tracePages trace).card ≤ 2 ^ 36 :=
  tracePages_few fresh.addresses

theorem FreshRun.completes (fresh : FreshRun env policy swapSize step trace world)
    (executes : Executes env policy step) {allowed : MemAccess → Prop}
    (finishes : ∀ root, Finishes env policy root allowed step)
    (allow : ∀ access ∈ trace, allowed access)
    (returns : PolicyReturns env.memsize (finalState ((runAll step trace).run world)).log) :
    Completes swapSize ((runAll step trace).run world) := by
  obtain ⟨root, started⟩ := fresh.started
  rcases run_completes executes (finishes root) fresh.io fresh.few trace
    (tracePages_within fresh.addresses) allow (started.slotted _) fresh.memory returns with
    ⟨values, after, run⟩ |
    ⟨⟨front, access, rest, -, values, middle, -, slotted, isLost⟩, after, run⟩
  · exact .inl ⟨values, after, run⟩
  · refine .inr ⟨Nat.lt_of_not_le fun small => ?_, after, run⟩
    have room := fresh.room
    rw [← bitmapCapacity_fits small] at room
    exact slotted.not_lost room access.page isLost

end FreshRun

/-- One of the four policies, or any that comes back from every call of a run with
a frame if it is asked for one. -/
def AdmissiblePolicy (env : Env) (policy : Policy) (log : List Event) : Prop :=
  (∃ random, policy ∈ policies random) ∨ PolicyReturns env.memsize log

theorem AdmissiblePolicy.returns {β : Type} {env : Env} {policy : Policy} {swapSize root : Nat}
    {step : MemAccess → Exec (World policy.State) β} {trace : List MemAccess}
    {world : World policy.State}
    (admissible : AdmissiblePolicy env policy (finalState ((runAll step trace).run world)).log)
    (positive : 0 < env.memsize)
    (started : world.Started env policy (Process.fresh policy) swapSize root)
    (executes : Executes env policy step) :
    PolicyReturns env.memsize (finalState ((runAll step trace).run world)).log := by
  rcases admissible with ⟨random, member⟩ | returns
  · exact policies_return member positive started executes trace
  · exact returns

/-! ## The coremap and the page table -/

section Inverse
variable {σ : Type}

/-- The frames in use and the valid entries belong to each other. -/
structure World.Inverse (env : Env) (world : World σ) : Prop where
  used_iff : ∀ frame < env.memsize, (world.frames frame).free = false ↔
    ∃ pte entry, world.heap.pte pte = some entry ∧ entry.valid = true ∧
      entry.frameNumber = frame
  owner : ∀ pte entry, world.heap.pte pte = some entry → entry.valid = true →
    entry.frameNumber < env.memsize ∧ (world.frames entry.frameNumber).pte = some pte
  unique : ∀ pte pte' entry entry', world.heap.pte pte = some entry →
    world.heap.pte pte' = some entry' → entry.valid = true → entry'.valid = true →
      entry.frameNumber = entry'.frameNumber → pte = pte'

theorem World.Coherent.inverse {env : Env} {root : Addr} {world : World σ}
    (coherent : world.Coherent env root none) : world.Inverse env where
  used_iff := by
    intro frame bound
    constructor
    · intro notFree
      obtain ⟨pte, entry, -, here, valid, number⟩ := coherent.used bound notFree (by simp)
      exact ⟨pte, entry, here, valid, number⟩
    · intro owned
      obtain ⟨pte, entry, here, valid, rfl⟩ := owned
      rw [(coherent.owner here valid).2]
  owner := by
    intro pte entry here valid
    obtain ⟨bound, owner⟩ := coherent.owner here valid
    exact ⟨bound, by rw [owner]⟩
  unique := by
    intro pte pte' entry entry' here here' valid valid' same
    have owner := (coherent.owner here valid).2
    rw [same, (coherent.owner here' valid').2] at owner
    cases owner
    rfl

/-- The frame holds the entry of the page. -/
def World.HoldsPage (world : World σ) (frame page : Nat) : Prop :=
  ∃ root pte, world.pageTable = some root ∧ world.heap.leafAt root page = some pte ∧
    world.frames frame = ⟨false, some pte⟩

end Inverse

section Between
variable {env : Env} {policy : Policy} {swapSize : Nat} {trace : List MemAccess}
  {world : World policy.State}

theorem translate_holdsPage {root : Addr} {access : MemAccess} {frame : Nat}
    {after : World policy.State} (coherent : world.Coherent env root none)
    (run : (translate env policy access).run world = .ok frame after) :
    after.HoldsPage frame access.page := by
  have coherent' := translate_coherent coherent run
  obtain ⟨middle, state, translates, onRef, rfl⟩ := translate_ok coherent run
  have only : middle.policyState.OnlyReference state :=
    keeps_ok (policy.onRef_keeps env.memsize frame) onRef
  obtain ⟨pte, leaf, owner⟩ := translates.frame_pte coherent
  have onlyHeap : middle.heap.OnlyReference state.heap := only.heap
  refine ⟨root, pte, coherent'.pageTable, (onlyHeap.leafAt root _).trans leaf, ?_⟩
  rw [← owner]
  exact congrFun only.frames frame

/-- In every state between accesses the maps are inverse; every call to
`CSC369_Evict` gives a frame that holds a page; and the run stops at no other
assertion than the one on a page lost by a swap that is too large. -/
theorem coremap_inverse_to_page_table {random : Nat → Nat} (member : policy ∈ policies random)
    (fresh : FreshRun env policy swapSize (translate env policy) trace world) :
    (∀ front rest, trace = front ++ rest → ∀ frames middle,
      (runAll (translate env policy) front).run world = .ok frames middle →
        middle.Inverse env ∧ ∀ access ∈ rest.head?, ∀ frame after,
          (translate env policy access).run middle = .ok frame after →
            after.HoldsPage frame access.page) ∧
    (∀ front victim later,
      (finalState ((runAll (translate env policy) trace).run world)).log =
        front ++ .evicted victim :: later → Followed env victim later) ∧
    Completes swapSize ((runAll (translate env policy) trace).run world) := by
  obtain ⟨root, started⟩ := fresh.started
  have returns := policies_return member fresh.positive started (executes_translate env policy) trace
  refine ⟨?_, ?_, ?_⟩
  · rintro front rest rfl frames middle run
    have within := tracePages_within fresh.addresses
    have slotted := run_slotted (executes_translate env policy) fresh.io fresh.few
      (fun access inFront => within access (List.mem_append_left _ inFront))
      (started.slotted _) run
    refine ⟨slotted.coherent.inverse, ?_⟩
    intro access _ frame after stepRun
    exact translate_holdsPage slotted.coherent stepRun
  · intro front victim later split
    have recorded := run_recorded (executes_translate env policy) trace started.coherent
      (by rw [started.log]; exact .nil)
    exact recorded.followed returns split
  · exact fresh.completes (executes_translate env policy) (finishes_translate env policy)
      (fun _ _ => trivial) returns

end Between

theorem FreshRun.reached {β : Type} {env : Env} {policy : Policy} {swapSize : Nat}
    {step : MemAccess → Exec (World policy.State) β} {trace : List MemAccess}
    {world : World policy.State} (fresh : FreshRun env policy swapSize step trace world)
    {test : World policy.State → Bool}
    (check : reaches env policy swapSize step trace test = true) :
    ∃ values after, (runAll step trace).run world = .ok values after ∧ test after = true := by
  obtain ⟨start, values, after, created, run, tested⟩ := exists_reached check
  cases created.symm.trans fresh.created
  exact ⟨values, after, run, tested⟩

/-! ## A run with evictions -/

/-- Three pages, for a memory of two frames. -/
def threePages : List MemAccess :=
  [⟨.store, 0, 1⟩, ⟨.load, 4096, 0⟩, ⟨.modify, 8192, 3⟩, ⟨.load, 0, 1⟩, ⟨.store, 4097, 2⟩]

theorem threePages_fresh {β : Type} {policy : Policy}
    {step : MemAccess → Exec (World policy.State) β}
    (grants : grantsRun (Env.ideal 2) policy 3 step threePages = true) :
    ∃ world, FreshRun (Env.ideal 2) policy 3 step threePages world := by
  apply exists_freshRun grants
  · decide
  · decide
  · exact fun _ => rfl
  · decide
  · decide

theorem coremap_inverse_to_page_table_threePages : ∃ world,
    FreshRun (Env.ideal 2) policyClock 3 (translate (Env.ideal 2) policyClock) threePages world ∧
      Completes 3
        ((runAll (translate (Env.ideal 2) policyClock) threePages).run world) := by
  have grants : grantsRun (Env.ideal 2) policyClock 3 (translate (Env.ideal 2) policyClock)
      threePages = true := by decide +kernel
  obtain ⟨world, fresh⟩ := threePages_fresh grants
  have member : policyClock ∈ policies fun _ => 0 := by simp [policies]
  exact ⟨world, fresh, (coremap_inverse_to_page_table member fresh).2.2⟩

end MemSim
