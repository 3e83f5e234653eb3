import MemSim.PageTableHistory

/-!
# The answers of `CSC369_PageTableSearch`

After any run of a client, a search either finds what the allocations returned
or runs past the end of an array of the third level.  The second happens exactly
when an earlier call reached that array and bits 24 to 35 of the address are not
all zero.
-/

set_option autoImplicit false

namespace MemSim

open Exec

/-- Searching a table of a client: no access outside an array, `NULL` exactly
for a page without a call, and otherwise the entry that the calls for the page
returned. -/
structure SearchAgrees (client : TableClient) (table virtualAddress : Nat) : Prop where
  returns : ∃ answer,
    (pageTableSearch (some table) virtualAddress).run client.heap = .ok answer client.heap
  null_iff : ∀ answer,
    (pageTableSearch (some table) virtualAddress).run client.heap = .ok answer client.heap →
      (answer = none ↔ ∀ call ∈ client.calls, call.table = table →
        pageNumber call.address ≠ pageNumber virtualAddress)
  same : ∀ answer,
    (pageTableSearch (some table) virtualAddress).run client.heap = .ok answer client.heap →
      ∀ call ∈ client.calls, call.table = table →
        pageNumber call.address = pageNumber virtualAddress → answer = some call.answer

section Agreement
variable {client : TableClient} (agrees : client.Agrees) {table virtualAddress : Nat}
  (here : table ∈ client.tables)
include agrees here

theorem TableClient.Agrees.search_of_run
    (run : (pageTableSearch (some table) virtualAddress).run client.heap =
      .ok (client.heap.leafAt table (pageNumber virtualAddress)) client.heap) :
    SearchAgrees client table virtualAddress := by
  have value : ∀ answer,
      (pageTableSearch (some table) virtualAddress).run client.heap = .ok answer client.heap →
      answer = client.heap.leafAt table (pageNumber virtualAddress) := by
    intro answer run'
    rw [run] at run'
    cases run'
    rfl
  refine ⟨⟨_, run⟩, ?_, ?_⟩
  · intro answer run'
    rw [value answer run']
    constructor
    · intro none' call member sameTable samePage
      have found := (agrees.leaf table here _ _).mpr ⟨call, member, sameTable, samePage, rfl⟩
      rw [none'] at found
      contradiction
    · intro unmapped
      cases found : client.heap.leafAt table (pageNumber virtualAddress) with
      | none => rfl
      | some pte =>
          obtain ⟨call, member, sameTable, samePage, -⟩ := (agrees.leaf table here _ _).mp found
          exact absurd samePage (unmapped call member sameTable)
  · intro answer run' call member sameTable samePage
    rw [value answer run']
    exact (agrees.leaf table here _ _).mpr ⟨call, member, sameTable, samePage, rfl⟩

theorem TableClient.Agrees.search_agrees_iff (bound : virtualAddress < 2 ^ 48) :
    SearchAgrees client table virtualAddress ↔
      virtualAddress / 2 ^ 24 % 2 ^ 12 = 0 ∨
        ∀ call ∈ client.calls, call.table = table →
          call.address / 2 ^ 24 ≠ virtualAddress / 2 ^ 24 := by
  have spec := pageTableSearch_spec agrees.sound here bound
  have leaf := leafAt_address client.heap table virtualAddress
  constructor
  · intro searchAgrees
    by_contra neither
    obtain ⟨high, call, member, sameTable, shared⟩ :
        virtualAddress / 2 ^ 24 % 2 ^ 12 ≠ 0 ∧ ∃ call ∈ client.calls,
          call.table = table ∧ call.address / 2 ^ 24 = virtualAddress / 2 ^ 24 := by
      simpa using neither
    -- the earlier call left a table of the third level behind
    have found := (agrees.leaf table here _ _).mpr ⟨call, member, sameTable, rfl, rfl⟩
    rw [leafAt_address] at found
    obtain ⟨inner, reached, -⟩ := Trie.nodeAt_eq_some.mp found
    have path : [allocateIndex1 call.address, allocateIndex2 call.address] =
        [allocateIndex1 virtualAddress, allocateIndex2 virtualAddress] := by
      simp only [allocateIndex1, allocateIndex2, List.cons.injEq, and_true]
      omega
    have outside : ¬ searchIndex3 virtualAddress < ptesCount :=
      fun inside => high (searchIndex3_lt_iff.mp inside)
    rw [path] at reached
    simp only [Heap.innerTable, reached, outside, if_false] at spec
    obtain ⟨answer, run⟩ := searchAgrees.returns
    rw [spec] at run
    contradiction
  · intro either
    refine agrees.search_of_run here ?_
    rw [spec, leaf, Trie.nodeAt]
    rcases either with low | apart
    · have inside := searchIndex3_lt_iff.mpr low
      have same := searchIndex3_eq_iff.mpr low
      rw [same] at inside ⊢
      cases reached : client.heap.innerTable table virtualAddress with
      | none =>
          rw [Heap.innerTable] at reached
          simp [reached]
      | some inner =>
          rw [Heap.innerTable] at reached
          simp only [reached, inside, if_true, Option.bind_some]
    · cases reached : client.heap.innerTable table virtualAddress with
      | none =>
          rw [Heap.innerTable] at reached
          simp [reached]
      | some inner =>
          obtain ⟨call, member, sameTable, path⟩ := agrees.inner table here _ _ _ reached
          refine absurd ?_ (apart call member sameTable)
          simp only [allocateIndex1, allocateIndex2, List.cons.injEq, and_true] at path
          omega

end Agreement

variable (env : Env)

/-- The search agrees with the allocations unless it uses the index of a page
of another region in a table that is there. -/
theorem pageTableSearch_agrees_iff {ops : List TableOp} {answers : List (Option Addr)}
    {client : TableClient} {table virtualAddress : Nat} (inRange : ∀ op ∈ ops, op.InRange)
    (bound : virtualAddress < 2 ^ 48)
    (run : (runAll (tableStep env) ops).run TableClient.fresh = .ok answers client)
    (granted : AllocationsSucceed client.heap.tracker.log) (here : table ∈ client.tables) :
    SearchAgrees client table virtualAddress ↔
      virtualAddress / 2 ^ 24 % 2 ^ 12 = 0 ∨
        ∀ call ∈ client.calls, call.table = table →
          call.address / 2 ^ 24 ≠ virtualAddress / 2 ^ 24 :=
  (TableClient.fresh_agrees.run env inRange run granted).search_agrees_iff here bound

theorem pageTableSearch_agrees_iff_low_address : ∃ client : TableClient,
    (SearchAgrees client 0 4096 ↔ 4096 / 2 ^ 24 % 2 ^ 12 = 0 ∨
      ∀ call ∈ client.calls, call.table = 0 → call.address / 2 ^ 24 ≠ 4096 / 2 ^ 24) := by
  let ops : List TableOp := [.create, .allocate 0 4096]
  have check : (match (runAll (tableStep (Env.ideal 1)) ops).run TableClient.fresh with
      | .ok _ client => decide (AllocationsSucceed client.heap.tracker.log) &&
          client.tables.contains 0
      | .error _ _ => false) = true := by
    decide +kernel
  have inRange : ∀ op ∈ ops, op.InRange := by
    simp [ops, TableOp.InRange]
  cases run : (runAll (tableStep (Env.ideal 1)) ops).run TableClient.fresh with
  | error fault client => simp [run] at check
  | ok answers client =>
      simp only [run, Bool.and_eq_true, List.contains_iff_mem, decide_eq_true_eq] at check
      exact ⟨client, pageTableSearch_agrees_iff (Env.ideal 1) inRange (by decide) run
        check.1 check.2⟩

/-- One page at 2^24, allocated and then searched for. -/
theorem pageTableSearch_leaves_array : ∃ answers client,
    (runAll (tableStep (Env.ideal 1)) [.create, .allocate 0 (2 ^ 24)]).run TableClient.fresh =
        .ok answers client ∧
      AllocationsSucceed client.heap.tracker.log ∧ 0 ∈ client.tables ∧
      ¬ SearchAgrees client 0 (2 ^ 24) := by
  let ops : List TableOp := [.create, .allocate 0 (2 ^ 24)]
  have check : (match (runAll (tableStep (Env.ideal 1)) ops).run TableClient.fresh with
      | .ok _ client => decide (AllocationsSucceed client.heap.tracker.log) &&
          client.tables.contains 0 &&
          match (pageTableSearch (some 0) (2 ^ 24)).run client.heap with
          | .ok _ _ => false
          | .error fault _ => fault == .outOfBounds
      | .error _ _ => false) = true := by
    decide +kernel
  cases run : (runAll (tableStep (Env.ideal 1)) ops).run TableClient.fresh with
  | error fault client => simp [run] at check
  | ok answers client =>
      rw [run] at check
      obtain ⟨both, search⟩ := Bool.and_eq_true_iff.mp check
      obtain ⟨granted, here⟩ := Bool.and_eq_true_iff.mp both
      refine ⟨answers, client, rfl, of_decide_eq_true granted, List.contains_iff_mem.mp here, ?_⟩
      intro agrees
      obtain ⟨answer, found⟩ := agrees.returns
      rw [found] at search
      exact Bool.noConfusion search

end MemSim
