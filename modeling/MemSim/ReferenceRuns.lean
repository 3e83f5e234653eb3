import MemSim.FreshRuns

/-!
# Clock and S2Q in a fresh process

Both policies evict what their reference strategies prescribe, from the first
access of a process on.
-/

set_option autoImplicit false

namespace MemSim

open Exec

def referenceRun {μ : Type} (strategy : Strategy μ) (size : Nat) (trace : List MemAccess) :
    List Placement :=
  (Paging.start strategy).run strategy size (trace.map MemAccess.page)

def referenceState {μ : Type} (strategy : Strategy μ) (size : Nat) (trace : List MemAccess) :
    Paging μ :=
  (Paging.start strategy).after strategy size (trace.map MemAccess.page)

/-- The run evicts what the strategy gives up, as far as it gets, and a run that
returns has placed every page where the strategy has it. -/
structure Evicts {μ σ : Type} (env : Env) (strategy : Strategy μ) (trace : List MemAccess)
    (result : EStateM.Result Fault (World σ) (List Nat)) : Prop where
  returns : PolicyReturns env.memsize (finalState result).log
  victims : evictions (finalState result).log <+:
    Paging.victims (referenceRun strategy env.memsize trace)
  placed : ∀ frames after, result = .ok frames after →
    frames = (referenceRun strategy env.memsize trace).map Placement.frame ∧
      evictions after.log = Paging.victims (referenceRun strategy env.memsize trace)

section Follows
variable {μ : Type} {env : Env} {policy : Policy} {strategy : Strategy μ} {root : Addr}
  {settled : Nat → μ → PolicyState policy.State → Prop}
  {awaiting : Nat → μ → Nat → PolicyState policy.State → Prop}
  {process : Process policy.State} {swapSize : Nat} {world : World policy.State}

theorem Implements.evicts (implements : Implements env policy strategy settled awaiting)
    (started : world.Started env policy process swapSize root)
    (simulates : Paging.Simulates env policy root settled (Paging.start strategy) world)
    (trace : List MemAccess) :
    Evicts env strategy trace ((runAll (translate env policy) trace).run world) ∧
      ∀ frames after, (runAll (translate env policy) trace).run world = .ok frames after →
        Paging.Simulates env policy root settled (referenceState strategy env.memsize trace)
          after := by
  have noCalls : PolicyReturns env.memsize world.log := by
    rw [started.log]
    simp [PolicyReturns]
  have noVictims : evictions world.log = [] := by
    rw [started.log]
    rfl
  obtain ⟨victims, placed⟩ := implements.run_follows trace simulates started.coherent
  rw [noVictims, List.nil_append] at victims
  refine ⟨⟨?_, victims, ?_⟩, ?_⟩
  · exact implements.contract.run_returns (executes_translate env policy) trace ⟨_, simulates⟩
      started.coherent noCalls
  · intro frames after run
    obtain ⟨sameFrames, sameVictims, -⟩ := placed frames after run
    rw [noVictims, List.nil_append] at sameVictims
    exact ⟨sameFrames, sameVictims⟩
  · intro frames after run
    exact (placed frames after run).2.2

end Follows

/-! ## Clock -/

/-- Clock is the second-chance algorithm. -/
theorem clock_evicts_second_chance {env : Env} {swapSize : Nat} {trace : List MemAccess}
    {world : World policyClock.State}
    (fresh : FreshRun env policyClock swapSize (translate env policyClock) trace world) :
    Evicts env SecondChance.strategy trace
        ((runAll (translate env policyClock) trace).run world) ∧
      Completes swapSize ((runAll (translate env policyClock) trace).run world) := by
  obtain ⟨root, started⟩ := fresh.started
  obtain ⟨evicts, -⟩ := (clock_implements env fresh.positive).evicts started
    (clock_starts started rfl) trace
  exact ⟨evicts, fresh.completes (executes_translate env policyClock)
    (finishes_translate env policyClock) (fun _ _ => trivial) evicts.returns⟩

theorem clock_evicts_second_chance_threePages : ∃ world,
    FreshRun (Env.ideal 2) policyClock 3 (translate (Env.ideal 2) policyClock) threePages world ∧
      Evicts (Env.ideal 2) SecondChance.strategy threePages
        ((runAll (translate (Env.ideal 2) policyClock) threePages).run world) := by
  have grants : grantsRun (Env.ideal 2) policyClock 3 (translate (Env.ideal 2) policyClock)
      threePages = true := by decide +kernel
  obtain ⟨world, fresh⟩ := threePages_fresh grants
  exact ⟨world, fresh, (clock_evicts_second_chance fresh).1⟩

/-! ## S2Q -/

/-- Each frame in use is linked in one of the two queues, the one its page belongs
to by its references, and the reference bit of its page says which. -/
structure World.Queued (env : Env) (history : TwoQueue) (world : World policyS2Q.State) :
    Prop where
  linked : ∃ frames : Queue → List Nat,
    world.links.Holds Queue.head (queueEntries frames) ∧
      ∀ queue frame, frame ∈ frames queue ↔ frame < env.memsize ∧
        (world.frames frame).free = false ∧ history.In queue frame
  one : ∀ frame < env.memsize, (world.frames frame).free = false →
    ∃ queue, history.In queue frame ∧ (∀ other, history.In other frame → other = queue) ∧
      ∃ pte entry, (world.frames frame).pte = some pte ∧ world.heap.pte pte = some entry ∧
        entry.reference = decide (queue = .am)
  chosen : (∀ frame < env.memsize, (world.frames frame).free = false) →
    history.members env.memsize (history.chosen env.memsize) ≠ []

theorem Paging.Simulates.queued {env : Env} (positive : 0 < env.memsize) {root : Addr}
    {paging : Paging TwoQueue} {world : World policyS2Q.State}
    (simulates : Paging.Simulates env policyS2Q root (S2QSettled env.memsize) paging world) :
    world.Queued env paging.own := by
  obtain ⟨frames, linked⟩ := simulates.settled
  have inUse : ∀ frame < env.memsize, (world.frames frame).free = false ↔
      frame < paging.loaded := by
    intro frame bound
    constructor
    · intro notFree
      apply Nat.lt_of_not_le
      intro later
      rw [simulates.residents.free frame later bound] at notFree
      contradiction
    · exact simulates.residents.notFree
  refine ⟨⟨frames, linked.holds, ?_⟩, ?_, ?_⟩
  · intro queue frame
    rw [linked.member]
    constructor
    · intro both
      have bound := linked.inUse_lt frame both.1
      exact ⟨bound, (inUse frame bound).mpr both.1, both.2⟩
    · intro all
      obtain ⟨bound, notFree, here⟩ := all
      exact ⟨(inUse frame bound).mp notFree, here⟩
  · intro frame bound notFree
    have used := (inUse frame bound).mp notFree
    obtain ⟨queue, here⟩ := TwoQueue.in_of_referenced (linked.referenced frame used)
    obtain ⟨pte, entry, owner, there, -, bit⟩ := linked.bits frame used
    refine ⟨queue, here, fun other there => there.unique here, pte, entry, owner, there, ?_⟩
    rw [bit]
    apply decide_eq_decide.mpr
    constructor
    · exact fun inAm => here.unique inAm
    · rintro rfl
      exact here
  · intro full
    apply TwoQueue.chosen_nonempty positive
    intro frame bound
    exact linked.referenced frame ((inUse frame bound).mp (full frame bound))

/-- S2Q is simplified 2Q, and between accesses its queues are what the strategy
counts. -/
theorem s2q_evicts_two_queue {env : Env} {swapSize : Nat} {trace : List MemAccess}
    {world : World policyS2Q.State}
    (fresh : FreshRun env policyS2Q swapSize (translate env policyS2Q) trace world) :
    Evicts env TwoQueue.strategy trace ((runAll (translate env policyS2Q) trace).run world) ∧
      (∀ front rest, trace = front ++ rest → ∀ frames middle,
        (runAll (translate env policyS2Q) front).run world = .ok frames middle →
          middle.Queued env (referenceState TwoQueue.strategy env.memsize front).own) ∧
      Completes swapSize ((runAll (translate env policyS2Q) trace).run world) := by
  obtain ⟨root, started⟩ := fresh.started
  have implements := s2q_implements env fresh.positive
  have starts := s2q_starts (fresh_headsMapped policyS2Q) started
  obtain ⟨evicts, -⟩ := implements.evicts started starts trace
  refine ⟨evicts, ?_, ?_⟩
  · intro front rest _ frames middle run
    have simulates := (implements.evicts started starts front).2 frames middle run
    exact simulates.queued fresh.positive
  · exact fresh.completes (executes_translate env policyS2Q) (finishes_translate env policyS2Q)
      (fun _ _ => trivial) evicts.returns

theorem s2q_evicts_two_queue_threePages : ∃ world,
    FreshRun (Env.ideal 2) policyS2Q 3 (translate (Env.ideal 2) policyS2Q) threePages world ∧
      Evicts (Env.ideal 2) TwoQueue.strategy threePages
        ((runAll (translate (Env.ideal 2) policyS2Q) threePages).run world) := by
  have grants : grantsRun (Env.ideal 2) policyS2Q 3 (translate (Env.ideal 2) policyS2Q)
      threePages = true := by decide +kernel
  obtain ⟨world, fresh⟩ := threePages_fresh grants
  exact ⟨world, fresh, (s2q_evicts_two_queue fresh).1⟩

end MemSim
