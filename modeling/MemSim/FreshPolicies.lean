import MemSim.Clock
import MemSim.Completion
import MemSim.RR
import MemSim.S2Q

/-!
# Policies in a new simulation

A simulation that was just created starts demand paging with empty frames, and
every policy of the table comes back from all its calls in a fresh process.
-/

set_option autoImplicit false

namespace MemSim

open Exec

section Start
variable {env : Env} {swapSize root : Nat}

theorem World.Started.residents {policy : Policy} {process : Process policy.State}
    {world : World policy.State} (started : world.Started env policy process swapSize root) :
    world.Residents env root 0 (fun _ => none) where
  loaded_le := Nat.zero_le _
  used := fun _ none' => absurd none' (Nat.not_lt_zero _)
  free := fun frame _ _ => started.free frame

theorem coremapLinks_unlinked (heads : Entries EntryAddr) {frame : Nat}
    (bound : frame < env.memsize) : (coremapLinks env heads).Unlinked (.frame frame) :=
  ⟨by simpa [coremapLinks] using bound, rfl, rfl⟩

theorem clock_starts {process : Process policyClock.State} {world : World policyClock.State}
    (started : World.Started env policyClock process swapSize root world)
    (own : process.own = policyClock.fresh) :
    Paging.Simulates env policyClock root (ClockSettled env.memsize)
      (Paging.start SecondChance.strategy) world := by
  obtain ⟨heap, -, init⟩ := started.policyState
  rw [own] at init
  have same : (⟨heap, fun _ => ⟨true, none⟩, coremapLinks env process.heads,
      policyClock.fresh⟩ : PolicyState policyClock.State) = world.policyState :=
    (EStateM.Result.ok.inj init).2
  refine ⟨started.residents, ?_, .inl ⟨rfl, ?_⟩, ?_⟩
  · exact fun frame none' => absurd none' (Nat.not_lt_zero _)
  · rw [← same]
    rfl
  · intro other _ bound
    rw [← same]
    exact coremapLinks_unlinked _ bound

theorem rr_starts {process : Process policyRR.State} {world : World policyRR.State}
    (started : World.Started env policyRR process swapSize root world)
    (bound : (show Nat from process.own) < env.memsize) :
    Paging.Simulates env policyRR root (RRSettled env.memsize)
      ⟨fun _ => none, 0, (show Nat from process.own)⟩ world := by
  obtain ⟨heap, noPte, init⟩ := started.policyState
  have same : (⟨heap, fun _ => ⟨true, none⟩, coremapLinks env process.heads, process.own⟩ :
      PolicyState policyRR.State) = world.policyState := (EStateM.Result.ok.inj init).2
  refine ⟨started.residents, ?_⟩
  rw [← same]
  refine ⟨rfl, bound, ?_, fun other none' => absurd none' (Nat.not_lt_zero _)⟩
  intro addr entry here
  have here' : heap.pte addr = some entry := here
  rw [noPte addr] at here'
  contradiction

/-- The heads of the two lists are static variables. -/
structure HeadsMapped (heads : Entries EntryAddr) : Prop where
  a1 : heads.mapped .a1 = true
  am : heads.mapped .am = true

/-- The links after `CSC369_PolicyS2QInit`. -/
def s2qInitLinks (links : Entries EntryAddr) : Entries EntryAddr :=
  (((links.setNext .a1 (some .a1)).setPrev .a1 (some .a1)).setNext .am (some .am)).setPrev .am
    (some .am)

theorem run_s2qInit {state : PolicyState Unit} (heads : HeadsMapped state.links) :
    s2qInit.run state = .ok () (state.setLinks (s2qInitLinks state.links)) := by
  have first := @run_onLinks_of_ok _ _ state _ _ _ (run_listInit heads.a1)
  simp only [s2qInit, headA1, headAm, EStateM.run_bind, first]
  exact run_onLinks_of_ok (by exact run_listInit heads.am)

theorem s2qInitLinks_holds {links : Entries EntryAddr} (heads : HeadsMapped links) :
    (s2qInitLinks links).Holds Queue.head (queueEntries fun _ => []) where
  ring := by
    intro queue
    cases queue with
    | a1 =>
        refine Entries.Ring.congr (listInit_ring heads.a1) (fun _ _ => by rfl) ?_ ?_
        · intro addr member
          cases List.mem_singleton.mp member
          rfl
        · intro addr member
          cases List.mem_singleton.mp member
          rfl
    | am => exact listInit_ring (by exact heads.am)
  disjoint := by
    intro queue other apart x here there
    have inQueue : x = queue.head := List.mem_singleton.mp here
    have inOther : x = other.head := List.mem_singleton.mp there
    rw [inQueue] at inOther
    cases queue with
    | a1 =>
        cases other with
        | a1 => exact apart rfl
        | am => cases inOther
    | am =>
        cases other with
        | a1 => cases inOther
        | am => exact apart rfl

theorem s2q_starts {process : Process policyS2Q.State} {world : World policyS2Q.State}
    (heads : HeadsMapped process.heads)
    (started : World.Started env policyS2Q process swapSize root world) :
    Paging.Simulates env policyS2Q root (S2QSettled env.memsize)
      (Paging.start TwoQueue.strategy) world := by
  obtain ⟨heap, noPte, init⟩ := started.policyState
  have headsHere : HeadsMapped (coremapLinks env process.heads) := ⟨heads.a1, heads.am⟩
  have run := @run_s2qInit ⟨heap, fun _ => ⟨true, none⟩, coremapLinks env process.heads, ()⟩
    headsHere
  have same : (⟨heap, fun _ => ⟨true, none⟩, s2qInitLinks (coremapLinks env process.heads), ()⟩ :
      PolicyState policyS2Q.State) = world.policyState :=
    (EStateM.Result.ok.inj (run.symm.trans init)).2
  have notUsed : ∀ {frame : Nat}, ¬ frame < 0 := fun {frame} => Nat.not_lt_zero frame
  refine ⟨started.residents, fun _ => [], ?_⟩
  rw [← same]
  refine
    { holds := s2qInitLinks_holds headsHere
      member := ?_
      inUse_lt := fun frame used => absurd used notUsed
      referenced := fun frame used => absurd used notUsed
      orderA1 := List.Pairwise.nil
      orderAm := List.Pairwise.nil
      times := fun frame used => absurd used notUsed
      unlinked := ?_
      bits := fun frame used => absurd used notUsed
      idle := ?_ }
  · intro queue frame
    exact ⟨fun member => absurd member List.not_mem_nil, fun both => absurd both.1 notUsed⟩
  · intro frame bound _
    have before := @coremapLinks_unlinked env process.heads frame bound
    exact ⟨before.mapped, before.next, before.prev⟩
  · intro addr entry here
    have here' : heap.pte addr = some entry := here
    rw [noPte addr] at here'
    contradiction

theorem fresh_headsMapped (policy : Policy) : HeadsMapped (Process.fresh policy).heads :=
  ⟨rfl, rfl⟩

theorem policies_return {random : Nat → Nat} {policy : Policy} (member : policy ∈ policies random)
    (positive : 0 < env.memsize) {world : World policy.State}
    (started : world.Started env policy (Process.fresh policy) swapSize root)
    {β : Type} {step : MemAccess → Exec (World policy.State) β}
    (executes : Executes env policy step) (trace : List MemAccess) :
    PolicyReturns env.memsize (finalState ((runAll step trace).run world)).log := by
  have noCalls : PolicyReturns env.memsize world.log := by
    rw [started.log]
    simp [PolicyReturns]
  simp only [policies, List.mem_cons, List.not_mem_nil, or_false] at member
  rcases member with rfl | rfl | rfl | rfl
  · exact (contract_rand env root random positive).run_returns executes trace trivial
      started.coherent noCalls
  · obtain ⟨heap, -, init⟩ := started.policyState
    have own : (show Nat from world.own) = 0 :=
      (congrArg PolicyState.own (EStateM.Result.ok.inj init).2).symm
    exact (contract_rr env root positive).run_returns executes trace (own ▸ positive)
      started.coherent noCalls
  · exact (clock_implements env positive).contract.run_returns executes trace
      ⟨_, clock_starts started rfl⟩ started.coherent noCalls
  · exact (s2q_implements env positive).contract.run_returns executes trace
      ⟨_, s2q_starts (fresh_headsMapped policyS2Q) started⟩ started.coherent noCalls

end Start

end MemSim
