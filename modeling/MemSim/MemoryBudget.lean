import MemSim.FlatMemory
import MemSim.Footprint

/-!
# The budget of the tracker

When the underlying `malloc` does not run out, the tracker refuses a request only
for its budget of 2 GiB.  A run comes to its end exactly when the page table of its
pages fits the budget.
-/

set_option autoImplicit false

namespace MemSim

open Exec

/-! ## An allocator that does not run out -/

/-- The underlying `malloc` grants every request that the budget lets through. -/
def Env.Generous (env : Env) : Prop :=
  ∀ tracker, TrackerRun env tracker → ∀ size < kmallocMax,
    tracker.bytesMalloced + (size : Nat) ≤ kmallocMax →
      (env.malloc tracker.live tracker.log.length size).isSome = true

theorem mallocAnswer_ideal {memsize size : Nat} {tracker : Tracker} {m : Addr}
    (answer : mallocAnswer (Env.ideal memsize) tracker size = some m) :
    m = tracker.log.length := by
  simp only [mallocAnswer, Env.ideal, bumpMalloc] at answer
  split at answer
  · contradiction
  · split at answer
    · contradiction
    · split at answer
      · contradiction
      · exact (Option.some.inj answer).symm

theorem Env.ideal_generous (memsize : Nat) : (Env.ideal memsize).Generous := by
  intro tracker run
  have below : ∀ m, WasReturned tracker.log m → m < tracker.log.length := by
    induction run with
    | init =>
        rintro m ⟨size, member⟩
        exact absurd member List.not_mem_nil
    | @malloc before after size result _ _ step ih =>
        rw [run_csc369Malloc] at step
        cases step
        intro m returned
        rw [Tracker.log_record, wasReturned_append] at returned
        rw [Tracker.log_record, List.length_append, List.length_singleton]
        rcases returned with earlier | ⟨size', same⟩
        · exact Nat.lt_succ_of_lt (ih m earlier)
        · obtain ⟨-, answer⟩ := AllocEvent.malloc.inj same
          rw [mallocAnswer_ideal answer]
          exact Nat.lt_succ_self _
    | @free before after ptr run live step ih =>
        have log : after.log = before.log ++ [.free ptr] := by
          cases ptr with
          | none =>
              cases step
              rfl
          | some p =>
              obtain ⟨⟨_, size⟩, member, rfl⟩ := List.mem_map.mp (live p rfl)
              rw [run.books.run_csc369Free member] at step
              cases step
              rfl
        intro m returned
        rw [log, wasReturned_append] at returned
        rw [log, List.length_append, List.length_singleton]
        rcases returned with earlier | ⟨size, same⟩
        · exact Nat.lt_succ_of_lt (ih m earlier)
        · contradiction
  have dead : tracker.live tracker.log.length = false := by
    have absent := run.books.absent tracker.log.length fun returned =>
      Nat.lt_irrefl _ (below _ returned)
    simp [Tracker.live, absent]
  intro size _ _
  simp [Env.ideal, bumpMalloc, dead]

/-- The sizes of requests that are small enough for the tracker. -/
def Requestable (sizes : List Nat) : Prop := ∀ size ∈ sizes, 1 ≤ size ∧ size < kmallocMax

section Granted
variable {env : Env} {tracker : Tracker} {sizes : List Nat}

theorem TrackerRun.record (run : TrackerRun env tracker) {size : Nat} (positive : 1 ≤ size) :
    TrackerRun env (tracker.record size (mallocAnswer env tracker size)) :=
  .malloc run positive (run_csc369Malloc env tracker size)

theorem TrackerRun.grant (run : TrackerRun env tracker) (requestable : Requestable sizes) :
    TrackerRun env (tracker.grant env sizes) := by
  induction sizes generalizing tracker with
  | nil => exact run
  | cons size rest ih =>
      exact ih (run.record (requestable size (.head _)).1)
        fun other member => requestable other (.tail _ member)

theorem granted_iff (generous : env.Generous) (run : TrackerRun env tracker)
    (requestable : Requestable sizes) :
    Granted env tracker sizes ↔ tracker.bytesMalloced + (sizes.sum : Nat) ≤ kmallocMax := by
  induction sizes generalizing tracker with
  | nil =>
      have paid := run.books.granted
      have budget := run.books.budget
      simp only [Granted, List.sum_nil, true_iff]
      omega
  | cons size rest ih =>
      obtain ⟨positive, small⟩ := requestable size (.head _)
      have paid := run.books.granted
      have next := ih (run.record positive) fun other member => requestable other (.tail _ member)
      rw [Granted, next, List.sum_cons]
      cases answer : mallocAnswer env tracker size with
      | some m =>
          simp only [Option.isSome_some, true_and, Tracker.record]
          omega
      | none =>
          rw [mallocAnswer, if_neg (Nat.not_le.mpr small)] at answer
          split at answer
          · simp only [Option.isSome_none, Bool.false_eq_true, false_and, false_iff]
            omega
          · have granted := generous tracker run size small (by omega)
            rw [answer] at granted
            contradiction

theorem granted_books (granted : Granted env tracker sizes) :
    (tracker.grant env sizes).bytesMalloced = tracker.bytesMalloced + (sizes.sum : Nat) ∧
      (AllocationsSucceed tracker.log → AllocationsSucceed (tracker.grant env sizes).log) := by
  induction sizes generalizing tracker with
  | nil => exact ⟨by simp [Tracker.grant], fun succeed => succeed⟩
  | cons size rest ih =>
      obtain ⟨here, there⟩ := granted
      obtain ⟨bytes, succeed⟩ := ih there
      obtain ⟨m, answer⟩ := Option.isSome_iff_exists.mp here
      refine ⟨?_, fun before => succeed ?_⟩
      · change
          ((tracker.record size (mallocAnswer env tracker size)).grant env rest).bytesMalloced = _
        rw [bytes, answer, List.sum_cons]
        simp only [Tracker.record]
        omega
      · rw [Tracker.log_record, answer]
        exact allocationsSucceed_append.mpr
          ⟨before, allocationsSucceed_singleton.mpr (Option.some_ne_none m)⟩

end Granted

/-! ## Runs -/

/-- The books of a simulation that has allocated the pages, and was refused nothing. -/
structure Heap.Charged (env : Env) (heap : Heap) (root : Addr) (pages : Finset Nat) : Prop where
  charted : heap.Charted root pages
  run : TrackerRun env heap.tracker
  bytes : heap.tracker.bytesMalloced = footprint pages
  succeed : AllocationsSucceed heap.tracker.log

section Charged
variable {env : Env} {heap after : Heap} {root : Addr} {pages : Finset Nat}

theorem Heap.requestable (heap : Heap) (root virtualAddress : Nat) :
    Requestable (heap.requests root virtualAddress) := by
  have small : 1 ≤ sizeofPte ∧ sizeofPte < kmallocMax ∧ 1 ≤ sizeofPageTable ∧
      sizeofPageTable < kmallocMax ∧ 1 ≤ sizeofPtes ∧ sizeofPtes < kmallocMax := by decide
  have entry (path : List Nat) (index : Nat) :
      Requestable (heap.entryRequests root path index) := by
    intro size member
    unfold Heap.entryRequests at member
    split at member
    · exact absurd member List.not_mem_nil
    · rw [List.mem_singleton.mp member]
      omega
  have table (path : List Nat) : Requestable (heap.tableRequests root path) := by
    intro size member
    unfold Heap.tableRequests at member
    split at member
    · exact absurd member List.not_mem_nil
    · simp only [List.mem_cons, List.not_mem_nil, or_false] at member
      rcases member with rfl | rfl <;> omega
  intro size member
  simp only [Heap.requests, Heap.pathRequests, List.mem_append] at member
  rcases member with (member | member | member | member) | member
  · exact entry _ _ size member
  · exact table _ size member
  · exact entry _ _ size member
  · exact table _ size member
  · exact entry _ _ size member

theorem Heap.Charged.allocated (charged : heap.Charged env root pages) {virtualAddress : Nat}
    (granted : Granted env heap.tracker (heap.requests root virtualAddress))
    (tracker : after.tracker = heap.tracker.grant env (heap.requests root virtualAddress))
    (adds : heap.Adds root after (pageNodes (pageNumber virtualAddress))
      (pageTables (pageNumber virtualAddress))) :
    after.Charged env root (insert (pageNumber virtualAddress) pages) := by
  obtain ⟨bytes, succeed⟩ := granted_books granted
  refine ⟨charged.charted.grow adds, ?_, ?_, ?_⟩
  · rw [tracker]
    exact charged.run.grant (heap.requestable root virtualAddress)
  · rw [tracker, bytes, charged.bytes, ← charged.charted.requests_sum virtualAddress]
    omega
  · rw [tracker]
    exact succeed charged.succeed

theorem Heap.Charged.allocate (charged : heap.Charged env root pages)
    (sound : heap.Sound (· = root)) {virtualAddress : Nat} (bound : virtualAddress < 2 ^ 48) :
    (∃ pte after, (pageTableAllocate env (some root) virtualAddress).run heap =
        .ok (some pte) after ∧
      after.Charged env root (insert (pageNumber virtualAddress) pages)) ∨
    (∀ pte after, (pageTableAllocate env (some root) virtualAddress).run heap ≠
        .ok (some pte) after) ∧
      (env.Generous → kmallocMax < footprint (insert (pageNumber virtualAddress) pages)) := by
  rcases pageTableAllocate_requests env sound bound with
    ⟨pte, after, run, granted, tracker, adds⟩ | ⟨refused, stops⟩
  · exact .inl ⟨pte, after, run, charged.allocated granted tracker adds⟩
  · refine .inr ⟨stops, fun generous => ?_⟩
    rw [granted_iff generous charged.run (heap.requestable root virtualAddress),
      charged.bytes] at refused
    rw [← charged.charted.requests_sum virtualAddress]
    omega

theorem Heap.Charged.sameShape (charged : heap.Charged env root pages)
    (same : heap.SameShape after) : after.Charged env root pages where
  charted := by
    refine ⟨fun path index => ?_, fun path => ?_⟩
    · rw [same.trie]
      exact charged.charted.node path index
    · rw [same.trie]
      exact charged.charted.table path
  run := same.tracker ▸ charged.run
  bytes := same.tracker ▸ charged.bytes
  succeed := same.tracker ▸ charged.succeed

end Charged

/-! ## Steps -/

section Steps
variable {env : Env} {policy : Policy} {root : Addr} {pages : Finset Nat} {access : MemAccess}
  {world : World policy.State}

variable (env policy) in
def translateEntry (access : MemAccess) (pte : Option Addr) : Exec (World policy.State) Nat := do
  let frameNumber ← mmUseEntry env policy (swapPageIn env) (mmHandleEviction env) access pte
  let frame ← coremapGetFrame env frameNumber
  callPolicy (fun result => .referenced frame result.isSome) (policy.onRef env.memsize frame)
  pure frameNumber

theorem updates_translateEntry (pte : Option Addr) :
    Updates (translateEntry env policy access pte) :=
  updates_bind (updates_mmUseEntry env policy access pte) fun _ =>
    updates_bind (updates_bind (updates_require _ _) fun _ => updates_pure _) fun _ =>
      updates_bind (updates_callPolicy (policy.onRef_keeps _ _)) fun _ => updates_pure _

theorem run_translate (coherent : world.Coherent env root none) :
    (translate env policy access).run world =
      (onHeap (pageTableAllocate env (some root) access.virtualAddress) >>=
        translateEntry env policy access).run world := by
  have numbered : (mmGetFrameNumber env policy access).run world =
      (onHeap (pageTableAllocate env (some root) access.virtualAddress) >>=
        mmUseEntry env policy (swapPageIn env) (mmHandleEviction env) access).run world := by
    simp only [mmGetFrameNumber, mmGetFrameNumberWith, EStateM.run_bind, EStateM.run_get,
      coherent.pageTable]
    rfl
  let rest : Nat → Exec (World policy.State) Nat := fun frameNumber => do
    let frame ← coremapGetFrame env frameNumber
    callPolicy (fun result => .referenced frame result.isSome) (policy.onRef env.memsize frame)
    pure frameNumber
  have split : translate env policy access = mmGetFrameNumber env policy access >>= rest := rfl
  rw [split, EStateM.run_bind, numbered, ← EStateM.run_bind, bind_assoc]
  rfl

theorem translate_charged (coherent : world.Coherent env root none)
    (charged : world.heap.Charged env root pages)
    (address : access.virtualAddress < 2 ^ 48) :
    (finalState ((translate env policy access).run world)).heap.Charged env root
        (insert access.page pages) ∨
      (∀ frame after, (translate env policy access).run world ≠ .ok frame after) ∧
        (env.Generous → kmallocMax < footprint (insert access.page pages)) := by
  rw [run_translate coherent]
  rcases charged.allocate coherent.sound address with
    ⟨pte, heap, run, charged'⟩ | ⟨stops, short⟩
  · left
    rw [run_bind_of_ok (run_onHeap_of_ok run)]
    have updated := @updates_translateEntry env policy access (some pte) (world.setHeap heap)
    exact charged'.sameShape updated.heap
  · refine .inr ⟨fun frame after returned => ?_, short⟩
    obtain ⟨pte, middle, part, rest⟩ := bind_ok_iff.mp returned
    obtain ⟨heap, allocate, rfl⟩ := onPart_ok_iff.mp part
    cases pte with
    | none => contradiction
    | some pte => exact stops pte heap allocate

theorem Executes.charged {β : Type} {step : MemAccess → Exec (World policy.State) β}
    (executes : Executes env policy step) (coherent : world.Coherent env root none)
    (charged : world.heap.Charged env root pages) (address : access.virtualAddress < 2 ^ 48) :
    (finalState ((step access).run world)).heap.Charged env root (insert access.page pages) ∨
      (∀ value after, (step access).run world ≠ .ok value after) ∧
        (env.Generous → kmallocMax < footprint (insert access.page pages)) := by
  have outcome := translate_charged coherent charged address
  rcases executes access world with
    ⟨fault, after, translated, run⟩ | ⟨frame, middle, translated, run | ⟨value, physmem, run⟩⟩
  · rw [translated] at outcome
    rw [run]
    rcases outcome with kept | ⟨-, short⟩
    · exact .inl kept
    · exact .inr ⟨fun _ _ returned => by contradiction, short⟩
  · rw [translated] at outcome
    rw [run]
    rcases outcome with kept | ⟨stops, -⟩
    · exact .inl kept
    · exact absurd rfl (stops frame middle)
  · rw [translated] at outcome
    rw [run]
    rcases outcome with kept | ⟨stops, -⟩
    · exact .inl kept
    · exact absurd rfl (stops frame middle)

end Steps

/-! ## Runs -/

section Runs
variable {env : Env} {policy : Policy} {root : Addr} {β : Type}
  {step : MemAccess → Exec (World policy.State) β} (executes : Executes env policy step)

theorem insert_union_tracePages (pages : Finset Nat) (access : MemAccess) (rest : List MemAccess) :
    insert access.page pages ∪ tracePages rest = pages ∪ tracePages (access :: rest) := by
  have cons : tracePages (access :: rest) = insert access.page (tracePages rest) := by
    simp [tracePages]
  rw [cons, Finset.insert_union, Finset.union_insert]

include executes

theorem run_charged {trace : List MemAccess}
    (addresses : ∀ access ∈ trace, access.virtualAddress < 2 ^ 48)
    {world after : World policy.State}
    {pages : Finset Nat} (coherent : world.Coherent env root none)
    (charged : world.heap.Charged env root pages) {values : List β}
    (run : (runAll step trace).run world = .ok values after) :
    after.heap.Charged env root (pages ∪ tracePages trace) := by
  induction trace generalizing world pages values with
  | nil =>
      rw [run_runAll_nil] at run
      cases run
      have none' : tracePages [] = ∅ := rfl
      rw [none', Finset.union_empty]
      exact charged
  | cons access rest ih =>
      obtain ⟨value, middle, others, stepRun, restRun, rfl⟩ := (runAll_cons_ok_iff step).mp run
      have here := executes.charged coherent charged (addresses access List.mem_cons_self)
      rw [stepRun] at here
      rcases here with kept | ⟨stops, -⟩
      · rw [← insert_union_tracePages]
        exact ih (fun other member => addresses other (List.mem_cons_of_mem _ member))
          (executes.coherent coherent stepRun) kept restRun
      · exact absurd rfl (stops value middle)

theorem run_granted (generous : env.Generous) {trace : List MemAccess}
    (addresses : ∀ access ∈ trace, access.virtualAddress < 2 ^ 48) {world : World policy.State}
    {pages : Finset Nat} (coherent : world.Coherent env root none)
    (charged : world.heap.Charged env root pages)
    (enough : footprint (pages ∪ tracePages trace) ≤ kmallocMax) :
    AllocationsSucceed (finalState ((runAll step trace).run world)).heap.tracker.log := by
  induction trace generalizing world pages with
  | nil => exact charged.succeed
  | cons access rest ih =>
      rw [← insert_union_tracePages] at enough
      have fits := Nat.le_trans (footprint_mono Finset.subset_union_left) enough
      rcases executes.charged coherent charged (addresses access List.mem_cons_self) with
        kept | ⟨-, short⟩
      · cases stepRun : (step access).run world with
        | error fault after =>
            rw [stepRun] at kept
            rw [run_runAll_cons_of_error step stepRun]
            exact kept.succeed
        | ok value middle =>
            rw [stepRun] at kept
            rw [finalState_runAll_cons_of_ok step stepRun]
            exact ih (fun other member => addresses other (List.mem_cons_of_mem _ member))
              (executes.coherent coherent stepRun) kept enough
      · exact absurd fits (Nat.not_le.mpr (short generous))

end Runs

/-! ## Creation -/

section Creation
variable {env : Env} {policy : Policy} {swapSize : Nat}

/-- What `CSC369_MMCreate` requests. -/
def creationRequests : List Nat := [sizeofMM, sizeofPageTable, sizeofPtes]

theorem mmCreate_requests {heap after : Heap} {mm root : Addr}
    (run : (mmCreate env).run heap = .ok (some (mm, root)) after) :
    Granted env heap.tracker creationRequests ∧
      after.tracker = heap.tracker.grant env creationRequests := by
  simp only [mmCreate, whenSome] at run
  obtain ⟨block, middle, request, run⟩ := bind_ok_iff.mp run
  rw [run_onTracker_csc369Malloc] at request
  obtain ⟨answer, rfl⟩ := EStateM.Result.ok.inj request
  cases block with
  | none => simp at run
  | some block =>
      obtain ⟨table, created, create, run⟩ := bind_ok_iff.mp run
      cases table with
      | none => simp at run
      | some table =>
          simp only [EStateM.run_pure, EStateM.Result.ok.injEq, Option.some.injEq,
            Prod.mk.injEq] at run
          obtain ⟨⟨rfl, rfl⟩, rfl⟩ := run
          rw [answer] at create
          cases table' : mallocAnswer env (heap.tracker.record sizeofMM (some block))
              sizeofPageTable with
          | none => cases create.symm.trans (run_pageTableCreate_of_none env table')
          | some table =>
              cases ptes' : mallocAnswer env ((heap.tracker.record sizeofMM (some block)).record
                  sizeofPageTable (some table)) sizeofPtes with
              | none => cases create.symm.trans (run_pageTableCreate_of_some_none env table' ptes')
              | some ptes =>
                  cases create.symm.trans (run_pageTableCreate_of_some env table' ptes')
                  simp only [creationRequests, Granted, Tracker.grant, List.foldl_cons,
                    List.foldl_nil, answer, table', ptes', Option.isSome_some, true_and]
                  rfl

theorem Heap.charted_empty {heap : Heap} {root : Addr} (sound : heap.Sound (· = root))
    (noPte : ∀ addr, heap.pte addr = none) : heap.Charted root ∅ := by
  have noNode : ∀ path index, heap.trie.nodeAt root path index = none := by
    intro path index
    rw [Option.eq_none_iff_forall_ne_some]
    intro pte found
    obtain ⟨_, -, inSlot⟩ := Trie.nodeAt_eq_some.mp found
    obtain ⟨entry, here⟩ := sound.slot_pte inSlot
    rw [noPte pte] at here
    contradiction
  refine ⟨fun path index => ?_, fun path => ?_⟩
  · simp [noNode]
  · induction path using List.reverseRecOn with
    | nil => simp [Trie.tableAt]
    | append_singleton path index ih =>
        constructor
        · intro present
          obtain ⟨table, reached⟩ := Option.isSome_iff_exists.mp present
          obtain ⟨_, pte, before, inSlot, -⟩ := Trie.tableAt_concat_eq_some.mp reached
          have found := Trie.nodeAt_eq_some.mpr ⟨_, before, inSlot⟩
          rw [noNode] at found
          contradiction
        · simp

theorem simulationCreate_charged {world : World policy.State} (swapFits : swapSize < 2 ^ 64)
    (created : simulationCreate env policy (Process.fresh policy) swapSize = .ok (some world)) :
    ∃ root, world.Started env policy (Process.fresh policy) swapSize root ∧
      world.heap.Charged env root ∅ := by
  obtain ⟨root, started⟩ := simulationCreate_started (fresh_cleared policy) swapFits created
  refine ⟨root, started, ?_⟩
  obtain ⟨swapmap, heap, mm, pageTable, state, creation, rfl⟩ := simulationCreate_some created
  have only : PolicyState.OnlyReference _ state := keeps_ok policy.init_keeps creation.init
  have tracker : state.heap.tracker = heap.tracker := only.heap.sameShape.tracker
  obtain ⟨granted, same⟩ := mmCreate_requests creation.manager
  obtain ⟨bytes, succeed⟩ := granted_books granted
  have requestable : Requestable creationRequests := by
    unfold Requestable
    decide
  have begun : TrackerRun env Heap.empty.tracker := .init
  refine ⟨Heap.charted_empty started.coherent.sound started.noPte, ?_, ?_, ?_⟩
  · rw [tracker, same]
    exact begun.grant requestable
  · rw [tracker, same]
    exact bytes
  · rw [tracker, same]
    exact succeed allocationsSucceed_nil

end Creation

/-! ## The budget -/

section Budget
variable {env : Env} {policy : Policy} {swapSize : Nat} {trace : List MemAccess}
  {world : World policy.State}

/-- A simulation in a process where only the budget limits memory, with a swap that
has a bitmap and room for every page. -/
structure AmpleRun (env : Env) (policy : Policy) (swapSize : Nat) (trace : List MemAccess)
    (world : World policy.State) : Prop where
  created : simulationCreate env policy (Process.fresh policy) swapSize = .ok (some world)
  positive : 0 < env.memsize
  small : env.memsize ≤ 2 ^ 28
  swapFits : swapSize ≤ 2 ^ 64 - 64
  io : ∀ call, env.io call = .success
  generous : env.Generous
  addresses : ∀ access ∈ trace, access.virtualAddress < 2 ^ 48
  offsets : ∀ access ∈ trace, access.virtualAddress % pageSize ≤ 15
  room : (tracePages trace).card ≤ swapSize

section Steps
variable {β : Type} {step : MemAccess → Exec (World policy.State) β}
  (executes : Executes env policy step) (ample : AmpleRun env policy swapSize trace world)
include executes ample

theorem AmpleRun.charged {values : List β} {after : World policy.State}
    (run : (runAll step trace).run world = .ok values after) :
    ∃ root, after.heap.Charged env root (tracePages trace) ∧
      footprint (tracePages trace) ≤ kmallocMax := by
  have swapFits := ample.swapFits
  obtain ⟨root, started, charged⟩ :=
    simulationCreate_charged (by omega : swapSize < 2 ^ 64) ample.created
  have books := run_charged executes ample.addresses started.coherent charged run
  rw [Finset.empty_union] at books
  have budget := books.run.books.budget
  have granted := books.run.books.granted
  have bytes := books.bytes
  exact ⟨root, books, by omega⟩

theorem AmpleRun.returns {random : Nat → Nat} (member : policy ∈ policies random)
    (finishes : ∀ root, Finishes env policy root
      (fun access => access.virtualAddress < 2 ^ 48 ∧ access.virtualAddress % pageSize ≤ 15) step)
    (enough : footprint (tracePages trace) ≤ kmallocMax) :
    ∃ values after, (runAll step trace).run world = .ok values after := by
  have swapFits := ample.swapFits
  obtain ⟨root, started, charged⟩ :=
    simulationCreate_charged (by omega : swapSize < 2 ^ 64) ample.created
  have few := tracePages_few ample.addresses
  have succeed := run_granted executes ample.generous ample.addresses started.coherent charged
    (by rwa [Finset.empty_union])
  have returns := policies_return member ample.positive started executes trace
  rcases run_completes executes (finishes root) ample.io few trace
    (tracePages_within ample.addresses)
    (fun access here => ⟨ample.addresses access here, ample.offsets access here⟩)
    (started.slotted (tracePages trace)) succeed returns with
    returned | ⟨⟨front, access, rest, -, found, middle, -, slotted', isLost⟩, -⟩
  · exact returned
  · have room := ample.room
    rw [← bitmapCapacity_fits swapFits] at room
    exact absurd isLost (slotted'.not_lost room access.page)

end Steps

theorem AmpleRun.reads (ample : AmpleRun env policy swapSize trace world)
    {found : List (Option UInt8)} {after : World policy.State}
    (run : (runAll (executeMemInstruction env policy) trace).run world = .ok found after) :
    found = flatReads [] trace := by
  have swapFits := ample.swapFits
  obtain ⟨root, started⟩ := simulationCreate_started (fresh_cleared policy)
    (by omega : swapSize < 2 ^ 64) ample.created
  exact (run_refines (started.slotted (tracePages trace)) started.holds ample.io
    (tracePages_few ample.addresses) ample.small (tracePages_within ample.addresses)
    ample.offsets run).1

/-- A run comes to its end, with every read finding what was written last, exactly
when the page table of its pages fits the budget of the tracker. -/
theorem runs_within_budget_iff {random : Nat → Nat} (member : policy ∈ policies random)
    (ample : AmpleRun env policy swapSize trace world) :
    (∃ after, (runAll (executeMemInstruction env policy) trace).run world =
        .ok (flatReads [] trace) after ∧
      after.heap.tracker.bytesMalloced = footprint (tracePages trace)) ↔
    footprint (tracePages trace) ≤ kmallocMax := by
  have executes := executes_executeMemInstruction env policy
  constructor
  · intro returned
    obtain ⟨after, run, -⟩ := returned
    obtain ⟨-, -, enough⟩ := ample.charged executes run
    exact enough
  · intro enough
    obtain ⟨found, after, run⟩ :=
      ample.returns executes member finishes_executeMemInstruction enough
    obtain ⟨root, charged, -⟩ := ample.charged executes run
    exact ⟨after, ample.reads run ▸ run, charged.bytes⟩

theorem runs_within_budget_threePages : ∃ world,
    AmpleRun (Env.ideal 2) policyClock 3 threePages world ∧
    ∃ after, (runAll (executeMemInstruction (Env.ideal 2) policyClock) threePages).run world =
        .ok (flatReads [] threePages) after ∧
      after.heap.tracker.bytesMalloced = footprint (tracePages threePages) := by
  have grants : grantsRun (Env.ideal 2) policyClock 3
      (executeMemInstruction (Env.ideal 2) policyClock) threePages = true := by decide +kernel
  obtain ⟨world, fresh⟩ := threePages_fresh grants
  have ample : AmpleRun (Env.ideal 2) policyClock 3 threePages world :=
    ⟨fresh.created, fresh.positive, by decide, by decide, fresh.io, Env.ideal_generous 2,
      fresh.addresses, by decide, fresh.room⟩
  have member : policyClock ∈ policies fun _ => 0 := by simp [policies]
  exact ⟨world, ample, (runs_within_budget_iff member ample).mpr (by decide)⟩

end Budget

end MemSim
