import MemSim.Destruction

/-!
# Destroying a simulation

`CSC369_SimulationDestroy`.  What is left in the process is a heap that a new
simulation can be created in, and the variables of the policy as its cleanup
leaves them.  The coremap is freed before, so that pointers to its frames dangle.
-/

set_option autoImplicit false

namespace MemSim

open Exec

/-- What a pointer to a list entry is once the coremap has been freed. -/
def EntryAddr.dangling : EntryAddr → EntryAddr
  | .frame index => .freed index
  | other => other

/-- `CSC369_CoremapDestroy`, for the list entries: those of the frames go. -/
def coremapDestroyLinks (links : Entries EntryAddr) : Entries EntryAddr where
  mapped := fun addr =>
    match addr with
    | .frame _ => false
    | .freed _ => false
    | other => links.mapped other
  next := fun addr => (links.next addr).map EntryAddr.dangling
  prev := fun addr => (links.prev addr).map EntryAddr.dangling

/-- The replacement algorithms that take no random choices. -/
inductive Algorithm where
  | rr
  | clock
  | s2q
  deriving DecidableEq, Repr

namespace Algorithm

def policy : Algorithm → Policy
  | .rr => policyRR
  | .clock => policyClock
  | .s2q => policyS2Q

/-- The statics of the policy once the coremap has been freed: Clock keeps two
pointers to its entries. -/
def dangling : (algorithm : Algorithm) → algorithm.policy.State → algorithm.policy.State
  | .rr => fun turn => turn
  | .clock => fun statics : ClockStatics =>
      (⟨statics.list.map EntryAddr.dangling, statics.hand.map EntryAddr.dangling⟩ : ClockStatics)
  | .s2q => fun statics => statics

theorem run_cleanup (algorithm : Algorithm) (state : PolicyState algorithm.policy.State) :
    algorithm.policy.cleanup.run state = .ok () state := by
  cases algorithm with
  | rr => rfl
  | clock => rfl
  | s2q => rfl

end Algorithm

variable (algorithm : Algorithm)

/-- `CSC369_SimulationDestroy`; `depth` bounds the recursion over the page tables.
What is allocated outside the tracker is freed without further effect. -/
def simulationDestroy (depth : Nat) (world : World algorithm.policy.State) :
    Except Fault (Process algorithm.policy.State) :=
  match (mmDestroy depth world.mm world.pageTable).run world.heap with
  | .error fault _ => .error fault
  | .ok () heap =>
      let state : PolicyState algorithm.policy.State :=
        { heap := heap
          frames := world.frames
          links := coremapDestroyLinks world.links
          own := algorithm.dangling world.own }
      match algorithm.policy.cleanup.run state with
      | .error fault _ => .error fault
      | .ok () state =>
          .ok
            { heap := state.heap
              heads := state.links
              own := state.own
              stats := world.stats
              errno := world.storage.errno
              calls := world.storage.calls }

/-! ## The heap -/

section Heap
variable {heap after : Heap} {isRoot : Addr → Prop} {root mm addr : Addr}
  {before : List AllocEvent} {requests : List (Addr × Nat)}

theorem heapFree_empty (empty : heap.Empty addr)
    (run : (heapFree (some addr)).run heap = .ok () after) :
    after = heap.setTracker after.tracker ∧
      ∀ other, other ≠ addr → after.tracker.live other = heap.tracker.live other := by
  obtain ⟨pruned, -⟩ := heapFree_ok run
  have same : ∀ {α : Type} {object object' : Addr → Option α}, object addr = none →
      (∀ other, object' other = object other ∨ other = addr ∧ object' other = none) →
        object' = object := by
    intro α object object' absent kept
    funext other
    rcases kept other with here | ⟨rfl, removed⟩
    · exact here
    · rw [removed, absent]
  obtain ⟨pte, table, ptes⟩ := empty
  refine ⟨?_, fun other apart => pruned.live other apart⟩
  have samePte := same pte pruned.pte
  have sameTable := same table pruned.table
  have samePtes := same ptes pruned.ptes
  cases after
  cases heap
  simp only at samePte sameTable samePtes
  subst samePte sameTable samePtes
  rfl

theorem Heap.Sound.heapFree_empty (sound : heap.Sound isRoot) (empty : heap.Empty addr)
    (run : (heapFree (some addr)).run heap = .ok () after) : after.Sound isRoot := by
  obtain ⟨same, live⟩ := MemSim.heapFree_empty empty run
  have kept : ∀ {α : Type} {object : Addr → Option α} {other : Addr} {value : α},
      object addr = none → object other = some value → heap.tracker.live other = true →
        after.tracker.live other = true := by
    intro α object other value absent here isLive
    rw [live other, isLive]
    rintro rfl
    rw [absent] at here
    contradiction
  rw [same]
  exact
    { pte_live := fun here => kept empty.1 here (sound.pte_live here)
      table_live := fun here => kept empty.2.1 here (sound.table_live here)
      ptes_live := fun here => kept empty.2.2 here (sound.ptes_live here)
      pte_kind := sound.pte_kind
      table_kind := sound.table_kind
      table_ptes := sound.table_ptes
      table_inj := sound.table_inj
      slot_pte := sound.slot_pte
      slot_lt := sound.slot_lt
      child_table := sound.child_table
      root_table := sound.root_table
      parents := sound.parents
      leaf_childless := sound.leaf_childless }

/-- `CSC369_MMDestroy` leaves a heap without page tables. -/
theorem mmDestroy_clears (sound : heap.Sound (· = root))
    (stocked : heap.Stocked root mm before requests) {depth : Nat} (deep : 3 ≤ depth) :
    ∃ after, (mmDestroy depth mm (some root)).run heap = .ok () after ∧
      (after.Sound fun _ => False) ∧ (∀ addr, after.pte addr = none) ∧ after.tracker.Books := by
  obtain ⟨after, gone, run, freed, members⟩ := mmDestroy_frees sound stocked deep
  rw [List.nil_append] at freed
  refine ⟨after, run, ?_, ?_, freed.books⟩
  · obtain ⟨_, middle, tables, last⟩ := bind_ok_iff.mp run
    obtain ⟨pruned, empty⟩ := pageTableDestroy_destroys sound depth (fun _ owned => owned)
      (Heap.Pruned.refl heap _) tables
    have rest := (pruned.withoutRoot sound rfl empty).sound
    have noRoot : (fun other => other = root ∧ other ≠ root) = fun _ => False := by
      funext other
      exact eq_false fun both => both.2 both.1
    rw [noRoot] at rest
    exact rest.heapFree_empty (pruned.empty stocked.manager) last
  · intro addr
    rw [freed.pte]
    split
    · rfl
    · rename_i kept
      cases here : heap.pte addr with
      | none => rfl
      | some entry =>
          have requested := List.mem_map_of_mem (f := Prod.fst) (stocked.entries addr entry here)
          exact absurd ((members addr).mpr requested) kept

end Heap

/-! ## The process -/

section Process
variable {algorithm} {env : Env} {process next : Process algorithm.policy.State}
  {swapSize depth : Nat} {trace : List MemAccess} {frames : List Nat}
  {start world : World algorithm.policy.State}

/-- What the simulation leaves when it is destroyed. -/
structure World.Leaves (world : World algorithm.policy.State)
    (process : Process algorithm.policy.State) : Prop where
  cleared : process.Cleared
  books : process.heap.tracker.Books
  heads : process.heads = coremapDestroyLinks world.links
  own : process.own = algorithm.dangling world.own

theorem simulationDestroy_leaves (cleared : process.Cleared) (books : process.heap.tracker.Books)
    (swapFits : swapSize < 2 ^ 64)
    (created : simulationCreate env algorithm.policy process swapSize = .ok (some start))
    (run : (runAll (translate env algorithm.policy) trace).run start = .ok frames world)
    (deep : 3 ≤ depth) :
    ∃ next, simulationDestroy algorithm depth world = .ok next ∧ world.Leaves next := by
  obtain ⟨root, started⟩ := simulationCreate_started cleared swapFits created
  obtain ⟨root', requests, isRoot, stocked⟩ := simulationCreate_stocked cleared books created
  cases started.coherent.pageTable.symm.trans isRoot
  obtain ⟨coherent, requests', stocked'⟩ :=
    run_stocked (executes_translate env algorithm.policy) started.coherent stocked run
  obtain ⟨after, destroyed, sound, noPte, books'⟩ :=
    mmDestroy_clears coherent.sound stocked' deep
  let next : Process algorithm.policy.State :=
    { heap := after
      heads := coremapDestroyLinks world.links
      own := algorithm.dangling world.own
      stats := world.stats
      errno := world.storage.errno
      calls := world.storage.calls }
  refine ⟨next, ?_, ⟨sound, noPte⟩, books', rfl, rfl⟩
  unfold simulationDestroy
  rw [coherent.pageTable, destroyed]
  simp only [algorithm.run_cleanup, next]

end Process

end MemSim
