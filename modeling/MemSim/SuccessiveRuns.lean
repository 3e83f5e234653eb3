import MemSim.FirstEviction
import MemSim.ReferenceRuns
import MemSim.SimulationDestroy

/-!
# Two simulations in one process

A simulation is run and destroyed, and a second one created after it, which is
compared with the same simulation in a fresh process.  S2Q starts afresh.  RR
goes on with the frame after its last victim, and Clock with a list whose head
was freed.
-/

set_option autoImplicit false

namespace MemSim

open Exec

/-- The conditions on a simulation of a process and on its trace: memory is
granted, no system call fails, and every page has a slot in swap.  The accessed
bytes are left out, as no policy reads them. -/
structure GrantedRun (env : Env) (policy : Policy) (process : Process policy.State)
    (swapSize : Nat) (trace : List MemAccess) (start : World policy.State) : Prop where
  created : simulationCreate env policy process swapSize = .ok (some start)
  positive : 0 < env.memsize
  swapFits : swapSize < 2 ^ 64
  io : ∀ call, env.io call = .success
  addresses : ∀ access ∈ trace, access.virtualAddress < 2 ^ 48
  room : (tracePages trace).card ≤ bitmapCapacity swapSize
  memory : AllocationsSucceed
    (finalState ((runAll (translate env policy) trace).run start)).heap.tracker.log

/-- What a run logs, as far as it gets. -/
def runLog (env : Env) (policy : Policy) (trace : List MemAccess) (start : World policy.State) :
    List Event :=
  (finalState ((runAll (translate env policy) trace).run start)).log

/-- The second simulation of a process, and the same simulation in a fresh one. -/
structure Compared (policy : Policy) (env alone : Env) (process : Process policy.State)
    (swapSize : Nat) (trace : List MemAccess) (start startAlone : World policy.State) : Prop where
  second : GrantedRun env policy process swapSize trace start
  fresh : GrantedRun alone policy (Process.fresh policy) swapSize trace startAlone
  size : alone.memsize = env.memsize

/-- Every call to the policy comes back, with a frame if it is asked for one, and
the victims are those of the other run. -/
structure Undisturbed (size : Nat) (log alone : List Event) : Prop where
  returns : PolicyReturns size log
  victims : evictions log = evictions alone

/-- When the second simulation of a process evicts as in a fresh one: for RR, if
the first one evicted a multiple of its frames or the second evicts nothing; for
Clock, if one of them accesses nothing. -/
def Algorithm.Unaffected (algorithm : Algorithm) (size₁ : Nat) (trace₁ : List MemAccess)
    (size₂ : Nat) (trace₂ : List MemAccess) : Prop :=
  match algorithm with
  | .rr => Fifo.evictions size₁ [] (trace₁.map MemAccess.page) % size₁ = 0 ∨
      (tracePages trace₂).card ≤ size₂
  | .clock => trace₁ = [] ∨ trace₂ = []
  | .s2q => True

section GrantedRun
variable {env : Env} {policy : Policy} {process : Process policy.State} {swapSize : Nat}
  {trace : List MemAccess} {start : World policy.State}

theorem GrantedRun.started (granted : GrantedRun env policy process swapSize trace start)
    (cleared : process.Cleared) : ∃ root, start.Started env policy process swapSize root :=
  simulationCreate_started cleared granted.swapFits granted.created

theorem GrantedRun.few (granted : GrantedRun env policy process swapSize trace start) :
    (tracePages trace).card ≤ 2 ^ 36 :=
  tracePages_few granted.addresses

theorem GrantedRun.completes (granted : GrantedRun env policy process swapSize trace start)
    (cleared : process.Cleared)
    (returns : PolicyReturns env.memsize (runLog env policy trace start)) :
    ∃ frames after, (runAll (translate env policy) trace).run start = .ok frames after := by
  obtain ⟨root, started⟩ := granted.started cleared
  rcases run_completes (executes_translate env policy) (finishes_translate env policy root)
    granted.io granted.few trace (tracePages_within granted.addresses) (fun _ _ => trivial)
    (started.slotted _) granted.memory returns with
    run | ⟨⟨front, access, rest, -, frames, middle, -, slotted, isLost⟩, -⟩
  · exact run
  · exact absurd isLost (slotted.not_lost granted.room access.page)

variable {μ : Type} {strategy : Strategy μ} {settled : Nat → μ → PolicyState policy.State → Prop}
  {awaiting : Nat → μ → Nat → PolicyState policy.State → Prop}

theorem GrantedRun.evicts (granted : GrantedRun env policy process swapSize trace start)
    (cleared : process.Cleared) (implements : Implements env policy strategy settled awaiting)
    (starts : ∀ root, start.Started env policy process swapSize root →
      Paging.Simulates env policy root settled (Paging.start strategy) start) :
    PolicyReturns env.memsize (runLog env policy trace start) ∧
      evictions (runLog env policy trace start) =
        Paging.victims (referenceRun strategy env.memsize trace) ∧
      ∃ frames after root, (runAll (translate env policy) trace).run start = .ok frames after ∧
        Paging.Simulates env policy root settled (referenceState strategy env.memsize trace)
          after := by
  obtain ⟨root, started⟩ := granted.started cleared
  obtain ⟨evicts, simulates⟩ := implements.evicts started (starts root started) trace
  obtain ⟨frames, after, run⟩ := granted.completes cleared evicts.returns
  refine ⟨evicts.returns, ?_, frames, after, root, run, simulates frames after run⟩
  rw [runLog, run]
  exact (evicts.placed frames after run).2

end GrantedRun

/-! ## Clock after another simulation -/

section Clock
variable {state after : PolicyState ClockStatics} {frame index : Nat}

theorem clockOnRef_dangling (list : state.own.list = some (.freed index))
    (freed : state.links.mapped (.freed index) = false)
    (unlinked : state.links.Unlinked (.frame frame)) :
    (clockOnRef frame).run state ≠ .ok () after := by
  intro run
  obtain ⟨pte, _, read, run⟩ := bind_ok_iff.mp run
  cases read
  obtain ⟨_, marked, mark, run⟩ := bind_ok_iff.mp run
  obtain ⟨heap, -, rfl⟩ := onPart_ok_iff.mp mark
  obtain ⟨_, _, read, run⟩ := bind_ok_iff.mp run
  cases read
  have notEmpty : (state.setHeap heap).own.list.isNone = false := by
    rw [show (state.setHeap heap).own = state.own from rfl, list]
    rfl
  rw [notEmpty] at run
  obtain ⟨linked, _, isLinked, run⟩ := bind_ok_iff.mp run
  have notLinked : (onLinks (listEntryIsLinked (frameEntry frame)) :
      Exec (PolicyState ClockStatics) Bool).run (state.setHeap heap) =
        .ok false (state.setHeap heap) := by
    have asked := @run_listEntryIsLinked _ state.links _ unlinked.mapped
    rw [unlinked.next] at asked
    exact run_onLinks_of_ok asked
  cases notLinked.symm.trans isLinked
  obtain ⟨_, _, init, run⟩ := bind_ok_iff.mp run
  have unchanged : (onLinks (listEntryInit (frameEntry frame)) :
      Exec (PolicyState ClockStatics) Unit).run (state.setHeap heap) =
        .ok () (state.setHeap heap) :=
    run_onLinks_of_ok (run_listEntryInit_unlinked unlinked)
  cases unchanged.symm.trans init
  obtain ⟨_, _, add, -⟩ := bind_ok_iff.mp run
  obtain ⟨links, add, -⟩ := onPart_ok_iff.mp add
  have stops : (listAddTail (state.setHeap heap).own.list (frameEntry frame)).run state.links =
      .error .wildPointer state.links := by
    rw [show (state.setHeap heap).own.list = some (.freed index) from list]
    simp [listAddTail, readPrev, deref, freed]
  cases stops.symm.trans add

theorem World.Started.first_translation {env : Env} {policy : Policy}
    {process : Process policy.State} {swapSize root frame : Nat} {access : MemAccess}
    {start middle : World policy.State}
    (started : start.Started env policy process swapSize root) (positive : 0 < env.memsize)
    (translates : Translates env policy root access start frame middle) :
    middle.own = start.own ∧ middle.links = start.links := by
  cases translates with
  | hit leaf here valid =>
      rw [started.noPte] at here
      contradiction
  | miss allocated here invalid obtains there same fills =>
      cases obtains with
      | free found => exact ⟨rfl, rfl⟩
      | evicted full =>
          have used := findFreeFrom_eq_none full 0 (Nat.zero_le _) (by omega)
          have isFree : (start.frames 0).free = false := used
          rw [started.free 0] at isFree
          contradiction

variable {env : Env} {process : Process policyClock.State} {swapSize : Nat}
  {trace : List MemAccess} {start : World policyClock.State}

theorem clock_stops (granted : GrantedRun env policyClock process swapSize trace start)
    (cleared : process.Cleared)
    (list : (show ClockStatics from process.own).list = some (.freed index))
    (freed : process.heads.mapped (.freed index) = false) (accesses : trace ≠ []) :
    ¬ PolicyReturns env.memsize (runLog env policyClock trace start) := by
  intro returns
  obtain ⟨frames, after, run⟩ := granted.completes cleared returns
  obtain ⟨root, started⟩ := granted.started cleared
  obtain ⟨heap, -, init⟩ := started.policyState
  have same : (⟨heap, fun _ => ⟨true, none⟩, coremapLinks env process.heads, process.own⟩ :
      PolicyState policyClock.State) = start.policyState := (EStateM.Result.ok.inj init).2
  cases trace with
  | nil => exact accesses rfl
  | cons access rest =>
      obtain ⟨frame, next, others, step, -, -⟩ := (runAll_cons_ok_iff _).mp run
      obtain ⟨middle, state, translates, onRef, -⟩ := translate_ok started.coherent step
      obtain ⟨sameOwn, sameLinks⟩ := started.first_translation granted.positive translates
      have own : middle.own = process.own :=
        sameOwn.trans (congrArg PolicyState.own same).symm
      have links : middle.links = coremapLinks env process.heads :=
        sameLinks.trans (congrArg PolicyState.links same).symm
      refine @clockOnRef_dangling middle.policyState state frame index ?_ ?_ ?_ onRef
      · exact (congrArg ClockStatics.list own).trans list
      · exact (congrArg (fun links => links.mapped (.freed index)) links).trans freed
      · have bound := translates.bound env started.coherent
        rw [show middle.policyState.links = middle.links from rfl, links]
        exact coremapLinks_unlinked _ bound

end Clock

/-! ## The second simulation -/

section Second
variable {env alone : Env} {swapSize : Nat} {trace : List MemAccess}

theorem s2q_undisturbed {process : Process policyS2Q.State} {start startAlone : World policyS2Q.State}
    (compared : Compared policyS2Q env alone process swapSize trace start startAlone)
    (cleared : process.Cleared) (heads : HeadsMapped process.heads) :
    Undisturbed env.memsize (runLog env policyS2Q trace start)
      (runLog alone policyS2Q trace startAlone) := by
  obtain ⟨returns, victims, -⟩ := compared.second.evicts cleared
    (s2q_implements env compared.second.positive) fun _ started => s2q_starts heads started
  obtain ⟨-, victimsAlone, -⟩ := compared.fresh.evicts (fresh_cleared policyS2Q)
    (s2q_implements alone compared.fresh.positive)
    fun _ started => s2q_starts (fresh_headsMapped policyS2Q) started
  exact ⟨returns, by rw [victims, victimsAlone, compared.size]⟩

theorem clock_undisturbed {process : Process policyClock.State}
    {start startAlone : World policyClock.State}
    (compared : Compared policyClock env alone process swapSize trace start startAlone)
    (cleared : process.Cleared) (own : process.own = policyClock.fresh) :
    Undisturbed env.memsize (runLog env policyClock trace start)
      (runLog alone policyClock trace startAlone) := by
  obtain ⟨returns, victims, -⟩ := compared.second.evicts cleared
    (clock_implements env compared.second.positive) fun _ started => clock_starts started own
  obtain ⟨-, victimsAlone, -⟩ := compared.fresh.evicts (fresh_cleared policyClock)
    (clock_implements alone compared.fresh.positive) fun _ started => clock_starts started rfl
  exact ⟨returns, by rw [victims, victimsAlone, compared.size]⟩

theorem Compared.undisturbed_nil {policy : Policy} {process : Process policy.State}
    {start startAlone : World policy.State}
    (compared : Compared policy env alone process swapSize [] start startAlone)
    (cleared : process.Cleared) :
    Undisturbed env.memsize (runLog env policy [] start) (runLog alone policy [] startAlone) := by
  obtain ⟨root, started⟩ := compared.second.started cleared
  obtain ⟨rootAlone, startedAlone⟩ := compared.fresh.started (fresh_cleared policy)
  have log : runLog env policy [] start = [] := started.log
  have logAlone : runLog alone policy [] startAlone = [] := startedAlone.log
  rw [log, logAlone]
  exact ⟨fun _ member => absurd member List.not_mem_nil, rfl⟩

variable {process : Process policyRR.State} {start startAlone : World policyRR.State} {turn : Nat}

theorem rr_evictions_ne_nil
    (granted : GrantedRun alone policyRR (Process.fresh policyRR) swapSize trace startAlone)
    (many : alone.memsize < (tracePages trace).card) :
    evictions (runLog alone policyRR trace startAlone) ≠ [] := by
  intro none'
  obtain ⟨-, victims, -⟩ := granted.evicts (fresh_cleared policyRR) (rr_implements alone)
    fun _ started => rr_starts started granted.positive
  have number := ((Paging.start_inOrder granted.positive).run (trace.map MemAccess.page)).2
  rw [none'] at victims
  have zero : Fifo.evictions alone.memsize [] (trace.map MemAccess.page) = 0 := by
    rw [← number]
    exact congrArg List.length victims.symm
  have few := (Fifo.evictions_nil_eq_zero _).mp zero
  exact absurd many (Nat.not_lt.mpr few)

theorem GrantedRun.rr_turn (granted : GrantedRun env policyRR process swapSize trace start)
    (cleared : process.Cleared) (own : (show Nat from process.own) = turn) :
    (evictions (runLog env policyRR trace start) = [] ∨
      ∃ later, evictions (runLog env policyRR trace start) = turn :: later) := by
  obtain ⟨root, started⟩ := granted.started cleared
  obtain ⟨heap, -, init⟩ := started.policyState
  have sameOwn : process.own = start.own :=
    congrArg PolicyState.own (EStateM.Result.ok.inj init).2
  have here : RRTurn turn start := .inl ⟨by rw [started.log]; rfl, sameOwn ▸ own⟩
  exact (rr_run_turn started.coherent here).imp And.left id

theorem GrantedRun.rr_quiet (granted : GrantedRun env policyRR process swapSize trace start)
    (cleared : process.Cleared) (fits : (tracePages trace).card ≤ env.memsize) :
    Quiet (runLog env policyRR trace start) := by
  obtain ⟨root, started⟩ := granted.started cleared
  apply rr_run_quiet (started.slotted _) fits granted.io granted.few
    fun access member => mem_tracePages member
  rw [started.log]
  exact fun _ member => absurd member List.not_mem_nil

theorem rr_undisturbed_iff
    (compared : Compared policyRR env alone process swapSize trace start startAlone)
    (cleared : process.Cleared) (own : (show Nat from process.own) = turn) :
    Undisturbed env.memsize (runLog env policyRR trace start)
        (runLog alone policyRR trace startAlone) ↔
      turn = 0 ∨ (tracePages trace).card ≤ env.memsize := by
  have second := compared.second
  have fresh := compared.fresh
  have freshCleared := fresh_cleared policyRR
  constructor
  · intro undisturbed
    rcases Nat.lt_or_ge env.memsize (tracePages trace).card with many | fits
    · left
      have evicts := rr_evictions_ne_nil fresh (compared.size ▸ many)
      have same := undisturbed.victims
      obtain ⟨later, first⟩ := (fresh.rr_turn freshCleared rfl).resolve_left evicts
      rcases second.rr_turn cleared own with none' | ⟨later', first'⟩
      · exact absurd (same.symm.trans none') evicts
      · exact (List.cons.inj (first'.symm.trans (same.trans first))).1
    · exact .inr fits
  · intro either
    rcases either with rfl | fits
    · have bound : (show Nat from process.own) < env.memsize := by
        rw [own]
        exact second.positive
      have starts : ∀ root, start.Started env policyRR process swapSize root →
          Paging.Simulates env policyRR root (RRSettled env.memsize)
            (Paging.start RoundRobin.strategy) start := by
        intro root started
        have simulates := rr_starts started bound
        rw [own] at simulates
        exact simulates
      obtain ⟨returns, victims, -⟩ := second.evicts cleared (rr_implements env) starts
      obtain ⟨-, victimsAlone, -⟩ := fresh.evicts freshCleared (rr_implements alone)
        fun _ started => rr_starts started fresh.positive
      exact ⟨returns, by rw [victims, victimsAlone, compared.size]⟩
    · have quiet := second.rr_quiet cleared fits
      have quietAlone := fresh.rr_quiet freshCleared (compared.size ▸ fits)
      exact ⟨quiet.returns _, quiet.evictions.trans quietAlone.evictions.symm⟩

end Second

/-! ## The first simulation -/

section First
variable {env : Env} {swapSize : Nat} {trace : List MemAccess}

theorem rr_first {start : World policyRR.State}
    (granted : GrantedRun env policyRR (Process.fresh policyRR) swapSize trace start) :
    ∃ frames world, (runAll (translate env policyRR) trace).run start = .ok frames world ∧
      (show Nat from world.own) =
        Fifo.evictions env.memsize [] (trace.map MemAccess.page) % env.memsize := by
  obtain ⟨-, -, frames, world, root, run, simulates⟩ := granted.evicts (fresh_cleared policyRR)
    (rr_implements env) fun _ started => rr_starts started granted.positive
  refine ⟨frames, world, run, ?_⟩
  have turn := ((Paging.start_inOrder granted.positive).run (trace.map MemAccess.page)).1
  have fromZero : (Paging.start RoundRobin.strategy).own = 0 := rfl
  rw [fromZero, Nat.zero_add] at turn
  rw [← turn]
  exact simulates.settled.own

theorem clock_first {start : World policyClock.State}
    (granted : GrantedRun env policyClock (Process.fresh policyClock) swapSize trace start) :
    ∃ frames world, (runAll (translate env policyClock) trace).run start = .ok frames world ∧
      (trace = [] → world.own = policyClock.fresh) ∧
      (trace ≠ [] → ∃ index, (show ClockStatics from world.own).list = some (.frame index)) := by
  obtain ⟨-, -, frames, world, root, run, simulates⟩ :=
    granted.evicts (fresh_cleared policyClock) (clock_implements env granted.positive)
      fun _ started => clock_starts started rfl
  refine ⟨frames, world, run, ?_, ?_⟩
  · rintro rfl
    obtain ⟨root, started⟩ := granted.started (fresh_cleared policyClock)
    obtain ⟨heap, -, init⟩ := started.policyState
    cases run
    exact (congrArg PolicyState.own (EStateM.Result.ok.inj init).2).symm
  · intro accesses
    have pages : trace.map MemAccess.page ≠ [] := by simpa using accesses
    have loaded := @Paging.after_loaded_pos _ SecondChance.strategy env.memsize
      (Paging.start SecondChance.strategy) granted.positive _ pages
    rcases simulates.settled.linked with ⟨empty, -⟩ | linked
    · exact absurd empty (Nat.ne_of_gt loaded)
    · obtain ⟨head, -, list, -⟩ := linked.ring
      exact ⟨head, list⟩

theorem s2q_first {start : World policyS2Q.State}
    (granted : GrantedRun env policyS2Q (Process.fresh policyS2Q) swapSize trace start) :
    ∃ frames world, (runAll (translate env policyS2Q) trace).run start = .ok frames world ∧
      HeadsMapped world.links := by
  obtain ⟨-, -, frames, world, root, run, simulates⟩ :=
    granted.evicts (fresh_cleared policyS2Q) (s2q_implements env granted.positive)
      fun _ started => s2q_starts (fresh_headsMapped policyS2Q) started
  obtain ⟨queues, linked⟩ := simulates.settled
  refine ⟨frames, world, run, ?_, ?_⟩
  · exact (linked.holds.ring .a1).mapped _ List.mem_cons_self
  · exact (linked.holds.ring .am).mapped _ List.mem_cons_self

end First

/-! ## Two simulations by evaluation -/

/-- A check by evaluation of a second simulation and of the same one alone. -/
def grantsSecond (algorithm : Algorithm) (depth : Nat) (env alone : Env) (swapSize : Nat)
    (trace : List MemAccess) (test : List Event → List Event → Bool)
    (world : World algorithm.policy.State) : Bool :=
  match simulationDestroy algorithm depth world with
  | .ok process =>
      match simulationCreate env algorithm.policy process swapSize,
          simulationCreate alone algorithm.policy (Process.fresh algorithm.policy) swapSize with
      | .ok (some start), .ok (some startAlone) =>
          decide (AllocationsSucceed (finalState
              ((runAll (translate env algorithm.policy) trace).run start)).heap.tracker.log) &&
            decide (AllocationsSucceed (finalState
              ((runAll (translate alone algorithm.policy) trace).run
                startAlone)).heap.tracker.log) &&
            test (runLog env algorithm.policy trace start)
              (runLog alone algorithm.policy trace startAlone)
      | _, _ => false
  | .error _ => false

theorem exists_second {algorithm : Algorithm} {depth swapSize : Nat} {env alone : Env}
    {trace : List MemAccess} {test : List Event → List Event → Bool}
    {world : World algorithm.policy.State}
    (check : grantsSecond algorithm depth env alone swapSize trace test world = true)
    (size : alone.memsize = env.memsize) (positive : 0 < env.memsize)
    (swapFits : swapSize < 2 ^ 64) (io : ∀ call, env.io call = .success)
    (ioAlone : ∀ call, alone.io call = .success)
    (addresses : ∀ access ∈ trace, access.virtualAddress < 2 ^ 48)
    (room : (tracePages trace).card ≤ bitmapCapacity swapSize) :
    ∃ process start startAlone, simulationDestroy algorithm depth world = .ok process ∧
      Compared algorithm.policy env alone process swapSize trace start startAlone ∧
      test (runLog env algorithm.policy trace start)
        (runLog alone algorithm.policy trace startAlone) = true := by
  unfold grantsSecond at check
  split at check
  · rename_i process destroyed
    split at check
    · rename_i start startAlone created createdAlone
      simp only [Bool.and_eq_true] at check
      obtain ⟨⟨memory, memoryAlone⟩, tested⟩ := check
      refine ⟨process, start, startAlone, destroyed, ⟨?_, ?_, size⟩, tested⟩
      · exact ⟨created, positive, swapFits, io, addresses, room, of_decide_eq_true memory⟩
      · exact ⟨createdAlone, size ▸ positive, swapFits, ioAlone, addresses, room,
          of_decide_eq_true memoryAlone⟩
    · exact absurd check Bool.false_ne_true
  · exact absurd check Bool.false_ne_true

/-- Two simulations with RR, the second with fewer frames than the first. -/
structure TwoRuns (start₁ world : World policyRR.State) (frames : List Nat)
    (process : Process policyRR.State) (start startAlone : World policyRR.State) : Prop where
  first : GrantedRun (Env.ideal 2) policyRR (Process.fresh policyRR) 3 threePages start₁
  run : (runAll (translate (Env.ideal 2) policyRR) threePages).run start₁ = .ok frames world
  destroyed : simulationDestroy .rr 3 world = .ok process
  compared : Compared policyRR (Env.ideal 1) (Env.ideal 1) process 3 (threePages.take 2) start
    startAlone
  victims : evictions (runLog (Env.ideal 1) policyRR (threePages.take 2) start) = [1]
  victimsAlone : evictions (runLog (Env.ideal 1) policyRR (threePages.take 2) startAlone) = [0]

theorem exists_twoRuns : ∃ start₁ world frames process start startAlone,
    TwoRuns start₁ world frames process start startAlone := by
  have check : reaches (Env.ideal 2) policyRR 3 (translate (Env.ideal 2) policyRR) threePages
      (fun world => decide (AllocationsSucceed world.heap.tracker.log) &&
        grantsSecond .rr 3 (Env.ideal 1) (Env.ideal 1) 3 (threePages.take 2)
          (fun log alone => decide (evictions log = [1] ∧ evictions alone = [0])) world) = true := by
    decide +kernel
  obtain ⟨start₁, frames, world, created, run, test⟩ := exists_reached check
  obtain ⟨memory, second⟩ := Bool.and_eq_true_iff.mp test
  obtain ⟨process, start, startAlone, destroyed, compared, tested⟩ := exists_second second rfl
    (by decide) (by decide) (fun _ => rfl) (fun _ => rfl) (by decide) (by decide +kernel)
  obtain ⟨victims, victimsAlone⟩ := of_decide_eq_true tested
  refine ⟨start₁, world, frames, process, start, startAlone, ?_, run, destroyed, compared, victims,
    victimsAlone⟩
  exact
    { created := created
      positive := by decide
      swapFits := by decide
      io := fun _ => rfl
      addresses := by decide
      room := by decide +kernel
      memory := by
        rw [run]
        exact of_decide_eq_true memory }

/-! ## Both simulations -/

/-- A simulation in a fresh process runs to its end and can be destroyed, and a
second one is undisturbed by it in exactly these cases. -/
theorem second_run_undisturbed_iff (algorithm : Algorithm) {first : Env} {swapSize₁ depth : Nat}
    {trace₁ : List MemAccess} {start₁ : World algorithm.policy.State}
    (granted : GrantedRun first algorithm.policy (Process.fresh algorithm.policy) swapSize₁ trace₁
      start₁) (deep : 3 ≤ depth) :
    ∃ frames world process,
      (runAll (translate first algorithm.policy) trace₁).run start₁ = .ok frames world ∧
      simulationDestroy algorithm depth world = .ok process ∧
      ∀ env alone swapSize trace start startAlone,
        Compared algorithm.policy env alone process swapSize trace start startAlone →
        (Undisturbed env.memsize (runLog env algorithm.policy trace start)
            (runLog alone algorithm.policy trace startAlone) ↔
          algorithm.Unaffected first.memsize trace₁ env.memsize trace) := by
  have leaves : ∀ {frames world},
      (runAll (translate first algorithm.policy) trace₁).run start₁ = .ok frames world →
      ∃ process, simulationDestroy algorithm depth world = .ok process ∧ world.Leaves process :=
    fun run => simulationDestroy_leaves (fresh_cleared _) Tracker.books_init granted.swapFits
      granted.created run deep
  cases algorithm with
  | rr =>
      obtain ⟨frames, world, run, turn⟩ := rr_first granted
      obtain ⟨process, destroyed, left⟩ := leaves run
      refine ⟨frames, world, process, run, destroyed, ?_⟩
      intro env alone swapSize trace start startAlone compared
      have own : process.own = world.own := left.own
      exact rr_undisturbed_iff compared left.cleared (own ▸ turn)
  | clock =>
      obtain ⟨frames, world, run, unused, used⟩ := clock_first granted
      obtain ⟨process, destroyed, left⟩ := leaves run
      refine ⟨frames, world, process, run, destroyed, ?_⟩
      intro env alone swapSize trace start startAlone compared
      have own : process.own = Algorithm.clock.dangling world.own := left.own
      constructor
      · intro undisturbed
        apply Classical.byContradiction
        intro neither
        obtain ⟨accesses₁, accesses⟩ := not_or.mp neither
        obtain ⟨index, list⟩ := used accesses₁
        have dangling : (show ClockStatics from process.own).list = some (.freed index) := by
          have lists := congrArg ClockStatics.list own
          exact lists.trans (congrArg (Option.map EntryAddr.dangling) list)
        have freed : process.heads.mapped (.freed index) = false := by
          rw [left.heads]
          rfl
        exact clock_stops compared.second left.cleared dangling freed accesses undisturbed.returns
      · intro either
        rcases either with empty₁ | rfl
        · apply clock_undisturbed compared left.cleared
          rw [own, unused empty₁]
          rfl
        · exact compared.undisturbed_nil left.cleared
  | s2q =>
      obtain ⟨frames, world, run, heads⟩ := s2q_first granted
      obtain ⟨process, destroyed, left⟩ := leaves run
      refine ⟨frames, world, process, run, destroyed, ?_⟩
      intro env alone swapSize trace start startAlone compared
      have headsLeft : HeadsMapped process.heads := by
        rw [left.heads]
        exact ⟨heads.a1, heads.am⟩
      exact ⟨fun _ => trivial, fun _ => s2q_undisturbed compared left.cleared headsLeft⟩

theorem second_run_undisturbed_iff_twoRuns : ∃ start₁ world frames process start startAlone,
    TwoRuns start₁ world frames process start startAlone ∧
      (Undisturbed 1 (runLog (Env.ideal 1) policyRR (threePages.take 2) start)
          (runLog (Env.ideal 1) policyRR (threePages.take 2) startAlone) ↔
        Algorithm.rr.Unaffected 2 threePages 1 (threePages.take 2)) := by
  obtain ⟨start₁, world, frames, process, start, startAlone, runs⟩ := exists_twoRuns
  refine ⟨start₁, world, frames, process, start, startAlone, runs, ?_⟩
  obtain ⟨frames', world', process', run, destroyed, undisturbed⟩ :=
    second_run_undisturbed_iff .rr runs.first (Nat.le_refl 3)
  cases run.symm.trans runs.run
  cases destroyed.symm.trans runs.destroyed
  exact undisturbed _ _ _ _ _ _ runs.compared

/-- The frame that RR asks for first is not one of the second simulation's. -/
theorem rr_second_run_disturbed : ∃ start₁ world frames process start startAlone,
    TwoRuns start₁ world frames process start startAlone ∧
      ¬ Undisturbed 1 (runLog (Env.ideal 1) policyRR (threePages.take 2) start)
        (runLog (Env.ideal 1) policyRR (threePages.take 2) startAlone) := by
  obtain ⟨start₁, world, frames, process, start, startAlone, runs⟩ := exists_twoRuns
  refine ⟨start₁, world, frames, process, start, startAlone, runs, ?_⟩
  intro undisturbed
  have same : [1] = [0] := runs.victims.symm.trans (undisturbed.victims.trans runs.victimsAlone)
  exact absurd same (by decide)

end MemSim
