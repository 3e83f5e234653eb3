import MemSim.ReferenceRuns

/-!
# RR and the time pages have been in memory

A residency of a page begins with the access that brings the page into memory.
RR never looks at the frames, but the page that it evicts is the one whose
residency began first.
-/

set_option autoImplicit false

namespace MemSim

open Exec

/-! ## Residencies -/

/-- The page is in the frame. -/
def World.Resident {σ : Type} (world : World σ) (page frame : Nat) : Prop :=
  ∃ root pte entry, world.pageTable = some root ∧ world.heap.leafAt root page = some pte ∧
    world.heap.pte pte = some entry ∧ entry.valid = true ∧ entry.frameNumber = frame

section Residency
variable (env : Env) (policy : Policy) (start : World policy.State) (trace : List MemAccess)

def ResidentAfter (count page : Nat) : Prop :=
  ∃ frames world frame,
    (runAll (translate env policy) (trace.take count)).run start = .ok frames world ∧
      world.Resident page frame

/-- The residency of the page at the end of the trace began with the access number
`began`. -/
structure ResidentSince (page began : Nat) : Prop where
  bound : began < trace.length
  absent : ¬ ResidentAfter env policy start trace began page
  stays : ∀ count, began < count → count ≤ trace.length →
    ResidentAfter env policy start trace count page

/-- At the end of the trace, the frame holds the page whose residency began before
that of every other page in memory. -/
def HoldsOldest (world : World policy.State) (frame : Nat) : Prop :=
  ∃ page began, world.Resident page frame ∧
    ResidentSince env policy start trace page began ∧
    ∀ other frame', world.Resident other frame' → other ≠ page →
      ∃ began', ResidentSince env policy start trace other began' ∧ began < began'

end Residency

theorem World.Residents.resident_iff {σ : Type} {env : Env} {root loaded : Nat}
    {pageOf : Nat → Option Nat} {world : World σ}
    (residents : world.Residents env root loaded pageOf)
    (coherent : world.Coherent env root none) {page frame : Nat} :
    world.Resident page frame ↔ frame < loaded ∧ pageOf frame = some page := by
  constructor
  · intro resident
    obtain ⟨root', pte, entry, isRoot, leaf, here, valid, rfl⟩ := resident
    rw [coherent.pageTable] at isRoot
    cases isRoot
    obtain ⟨inUse, holds, -⟩ := residents.of_valid coherent leaf here valid
    exact ⟨inUse, holds⟩
  · intro both
    obtain ⟨inUse, holds⟩ := both
    obtain ⟨page', pte, holds', owner, leaf⟩ := residents.used frame inUse
    rw [holds] at holds'
    cases holds'
    have bound := Nat.lt_of_lt_of_le inUse residents.loaded_le
    obtain ⟨addr, entry, owner', here, valid, number⟩ :=
      coherent.used bound (by rw [owner]) (by simp)
    rw [owner] at owner'
    cases owner'
    exact ⟨root, pte, entry, coherent.pageTable, leaf, here, valid, number⟩

/-! ## Runs of RR -/

section Runs
variable {env : Env} {swapSize root : Nat} {trace front : List MemAccess}
  {start middle : World policyRR.State} {frames : List Nat}

theorem rr_coherent {process : Process policyRR.State}
    (started : start.Started env policyRR process swapSize root)
    (run : (runAll (translate env policyRR) front).run start = .ok frames middle) :
    middle.Coherent env root none := by
  have preserved : ∀ (access : MemAccess) (world : World policyRR.State) (frame : Nat)
      (after : World policyRR.State), True → world.Coherent env root none →
      (translate env policyRR access).run world = .ok frame after →
      after.Coherent env root none :=
    fun _ _ _ _ _ here step => translate_coherent here step
  exact runAll_invariant _ preserved (fun _ _ => trivial) started.coherent run

theorem rr_resident_iff (positive : 0 < env.memsize)
    (started : start.Started env policyRR (Process.fresh policyRR) swapSize root)
    (run : (runAll (translate env policyRR) front).run start = .ok frames middle) (page : Nat) :
    (∃ frame, middle.Resident page frame) ↔
      page ∈ Fifo.after env.memsize [] (front.map MemAccess.page) := by
  have simulates := ((rr_implements env).evicts started (rr_starts started positive) front).2
    frames middle run
  have coherent := rr_coherent started run
  have inOrder := (Paging.start_inOrder positive).after (front.map MemAccess.page)
  rw [inOrder.mem_iff]
  exact exists_congr fun frame => simulates.residents.resident_iff coherent

theorem rr_residentAfter_iff (positive : 0 < env.memsize)
    (started : start.Started env policyRR (Process.fresh policyRR) swapSize root)
    (run : (runAll (translate env policyRR) front).run start = .ok frames middle)
    (count page : Nat) : ResidentAfter env policyRR start front count page ↔
      page ∈ Fifo.after env.memsize [] ((front.map MemAccess.page).take count) := by
  have split : front = front.take count ++ front.drop count := (List.take_append_drop ..).symm
  rw [split] at run
  obtain ⟨first, reached, -, takeRun, -, -⟩ := runAll_append_ok _ run
  rw [← List.map_take, ← rr_resident_iff positive started takeRun page]
  constructor
  · intro resident
    obtain ⟨first', reached', frame, takeRun', here⟩ := resident
    rw [takeRun] at takeRun'
    cases takeRun'
    exact ⟨frame, here⟩
  · intro resident
    obtain ⟨frame, here⟩ := resident
    exact ⟨first, reached, frame, takeRun, here⟩

theorem rr_residentSince (positive : 0 < env.memsize)
    (started : start.Started env policyRR (Process.fresh policyRR) swapSize root)
    (run : (runAll (translate env policyRR) front).run start = .ok frames middle)
    {page began : Nat} (since : Fifo.Since env.memsize (front.map MemAccess.page) page began) :
    ResidentSince env policyRR start front page began where
  bound := by simpa using since.bound
  absent := by
    rw [rr_residentAfter_iff positive started run]
    exact since.absent
  stays := by
    intro count later bound
    rw [rr_residentAfter_iff positive started run]
    exact since.stays count later (by simpa using bound)

theorem rr_holdsOldest (positive : 0 < env.memsize)
    (started : start.Started env policyRR (Process.fresh policyRR) swapSize root)
    (run : (runAll (translate env policyRR) front).run start = .ok frames middle)
    {page frame : Nat} {younger : List Nat} (resident : middle.Resident page frame)
    (queue : Fifo.after env.memsize [] (front.map MemAccess.page) = page :: younger) :
    HoldsOldest env policyRR start front middle frame := by
  obtain ⟨ordered, known⟩ := Fifo.after_inOrder env.memsize (front.map MemAccess.page)
  rw [queue] at ordered known
  obtain ⟨began, since⟩ := known page List.mem_cons_self
  refine ⟨page, began, resident, rr_residentSince positive started run since, ?_⟩
  intro other frame' otherResident apart
  have inQueue := (rr_resident_iff positive started run other).mp ⟨frame', otherResident⟩
  rw [queue] at inQueue
  obtain ⟨began', since'⟩ := known other inQueue
  have later := (List.mem_cons.mp inQueue).resolve_left apart
  exact ⟨began', rr_residentSince positive started run since',
    (List.pairwise_cons.mp ordered).1 other later began began' since since'⟩

end Runs

/-- Whatever RR evicts for an access, the victim is the frame of the page whose
residency began first. -/
theorem rr_evicts_oldest_resident {env : Env} {swapSize : Nat} {trace : List MemAccess}
    {start : World policyRR.State}
    (fresh : FreshRun env policyRR swapSize (translate env policyRR) trace start) :
    (∀ front access rest, trace = front ++ access :: rest → ∀ frames middle,
      (runAll (translate env policyRR) front).run start = .ok frames middle →
        ∀ victim later, evictions (finalState ((translate env policyRR access).run middle)).log =
            evictions middle.log ++ victim :: later →
          later = [] ∧ HoldsOldest env policyRR start front middle victim) ∧
      Completes swapSize ((runAll (translate env policyRR) trace).run start) := by
  obtain ⟨root, started⟩ := fresh.started
  have positive := fresh.positive
  have implements := rr_implements env
  have starts := rr_starts started positive
  constructor
  · intro front access rest _ frames middle run victim later evicted
    have simulates := (implements.evicts started starts front).2 frames middle run
    have coherent := rr_coherent started run
    have follows := (implements.translate_follows simulates coherent access).1
    rw [evicted, List.prefix_append_right_inj] at follows
    have inOrder := (Paging.start_inOrder positive).after (front.map MemAccess.page)
    cases isVictim : ((referenceState RoundRobin.strategy env.memsize front).access
        RoundRobin.strategy env.memsize access.page).1.victim with
    | none =>
        rw [isVictim] at follows
        exact absurd (List.prefix_nil.mp follows) (List.cons_ne_nil _ _)
    | some frame =>
        rw [isVictim] at follows
        obtain ⟨rfl, none'⟩ := List.cons_prefix_cons.mp follows
        refine ⟨List.prefix_nil.mp none', ?_⟩
        obtain ⟨inUse, page, younger, queue, holds⟩ := inOrder.victim isVictim
        exact rr_holdsOldest positive started run
          ((simulates.residents.resident_iff coherent).mpr ⟨inUse, holds⟩) queue
  · exact fresh.completes (executes_translate env policyRR) (finishes_translate env policyRR)
      (fun _ _ => trivial) (implements.evicts started starts trace).1.returns

/-- The third page evicts the first one. -/
theorem rr_evicts_oldest_resident_threePages : ∃ start frames middle,
    FreshRun (Env.ideal 2) policyRR 3 (translate (Env.ideal 2) policyRR) threePages start ∧
      (runAll (translate (Env.ideal 2) policyRR) (threePages.take 2)).run start =
        .ok frames middle ∧
      HoldsOldest (Env.ideal 2) policyRR start (threePages.take 2) middle 0 := by
  have grants : grantsRun (Env.ideal 2) policyRR 3 (translate (Env.ideal 2) policyRR)
      threePages = true := by decide +kernel
  obtain ⟨start, fresh⟩ := threePages_fresh grants
  have check : reaches (Env.ideal 2) policyRR 3 (translate (Env.ideal 2) policyRR)
      (threePages.take 2) (fun world => decide (evictions (finalState
        ((translate (Env.ideal 2) policyRR ⟨.modify, 8192, 3⟩).run world)).log =
          evictions world.log ++ [0])) = true := by decide +kernel
  obtain ⟨start', frames, middle, created, run, test⟩ := exists_reached check
  have same : start = start' :=
    Option.some.inj (Except.ok.inj (fresh.created.symm.trans created))
  subst same
  exact ⟨start, frames, middle, fresh, run,
    ((rr_evicts_oldest_resident fresh).1 _ _ _ rfl frames middle run 0 []
      (of_decide_eq_true test)).2⟩

end MemSim
