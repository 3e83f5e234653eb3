import MemSim.HeapLog
import MemSim.PageTableDestroy
import MemSim.PageTableSearch

/-!
# Clients of page tables

A client creates page tables, allocates and searches in them, sets fields of
entries and destroys tables, in any order.  It remembers the allocations it has
made in the tables it still has, with the fields it expects to find.  In every
reachable state the heap agrees with what the client remembers.
-/

set_option autoImplicit false

namespace MemSim

open Exec

/-- A call of one of the setters. -/
inductive PTEUpdate where
  | valid (value : Bool)
  | dirty (value : Bool)
  | referenced (value : Bool)
  | onSwap (value : Bool)
  | frameNumber (value : Nat)
  | swapOffset (value : Int)

def PTEUpdate.set : PTEUpdate → Option Addr → Exec Heap Unit
  | .valid value, pte => pteSetValid pte value
  | .dirty value, pte => pteSetDirty pte value
  | .referenced value, pte => pteSetReferenced pte value
  | .onSwap value, pte => pteSetOnSwap pte value
  | .frameNumber value, pte => pteSetFrameNumber pte value
  | .swapOffset value, pte => pteSetSwapOffset pte value

def PTEUpdate.apply : PTEUpdate → PTE → PTE
  | .valid value, entry => { entry with valid := value }
  | .dirty value, entry => { entry with dirty := value }
  | .referenced value, entry => { entry with reference := value }
  | .onSwap value, entry => { entry with onSwap := value }
  | .frameNumber value, entry => { entry with frameNumber := value }
  | .swapOffset value, entry => { entry with swapOffset := value }

theorem PTEUpdate.set_eq (update : PTEUpdate) (pte : Option Addr) :
    update.set pte = pteSet update.apply pte := by
  cases update <;> rfl

@[simp] theorem PTEUpdate.apply_pageTable (update : PTEUpdate) (entry : PTE) :
    (update.apply entry).pageTable = entry.pageTable := by
  cases update <;> rfl

/-- A call of `CSC369_PageTableAllocate` that returned `answer`.  `entry` holds
the fields the client expects: those of a new entry at the first call for a
page, and since then whatever was last set. -/
structure TableCall where
  table : Addr
  address : Nat
  answer : Addr
  entry : PTE

structure TableClient where
  heap : Heap
  tables : List Addr
  calls : List TableCall

def TableClient.fresh : TableClient := ⟨Heap.empty, [], []⟩

namespace TableClient

def setHeap (client : TableClient) (heap : Heap) : TableClient := { client with heap := heap }

def opened (client : TableClient) : Option Addr → TableClient
  | none => client
  | some table => { client with tables := table :: client.tables }

def expected (client : TableClient) (table page : Nat) : PTE :=
  match client.calls.find? fun call => call.table == table && pageNumber call.address == page with
  | none => PTE.initial
  | some call => call.entry

def called (client : TableClient) (table address : Nat) : Option Addr → TableClient
  | none => client
  | some pte =>
      { client with
        calls := client.calls ++
          [⟨table, address, pte, client.expected table (pageNumber address)⟩] }

def updated (client : TableClient) (pte : Addr) (update : PTEUpdate) : TableClient :=
  { client with
    calls := client.calls.map fun call =>
      if call.answer = pte then { call with entry := update.apply call.entry } else call }

def closed (client : TableClient) (table : Addr) : TableClient :=
  { client with
    tables := client.tables.filter (· ≠ table)
    calls := client.calls.filter (·.table ≠ table) }

end TableClient

inductive TableOp where
  | create
  | allocate (table address : Nat)
  | search (table address : Nat)
  | update (pte : Addr) (update : PTEUpdate)
  | destroy (table : Addr)

/-- Addresses are 48 bits wide. -/
def TableOp.InRange : TableOp → Prop
  | .allocate _ address => address < 2 ^ 48
  | .search _ address => address < 2 ^ 48
  | _ => True

def onClientHeap {α : Type} (part : Exec Heap α) : Exec TableClient α :=
  onPart TableClient.heap TableClient.setHeap part

/-- A client only passes tables it created and has not destroyed since. -/
def hasTable (table : Addr) : Exec TableClient Unit := do
  let client ← get
  require (client.tables.contains table) .wildPointer

variable (env : Env)

/-- What one operation returns, and the client after it.  Three levels of tables
are all there are to destroy. -/
def tableStep : TableOp → Exec TableClient (Option Addr)
  | .create => do
      let table ← onClientHeap (pageTableCreate env)
      modify fun client => client.opened table
      pure table
  | .allocate table address => do
      hasTable table
      let pte ← onClientHeap (pageTableAllocate env (some table) address)
      modify fun client => client.called table address pte
      pure pte
  | .search table address => do
      hasTable table
      onClientHeap (pageTableSearch (some table) address)
  | .update pte update => do
      onClientHeap (update.set (some pte))
      modify fun client => client.updated pte update
      pure none
  | .destroy table => do
      hasTable table
      onClientHeap (pageTableDestroy 3 (some table))
      modify fun client => client.closed table
      pure none

/-! ## The invariant -/

/-- The page tables hold exactly the entries the client was given. -/
structure TableClient.Agrees (client : TableClient) : Prop where
  sound : client.heap.Sound (· ∈ client.tables)
  open_table : ∀ call ∈ client.calls, call.table ∈ client.tables
  leaf : ∀ table ∈ client.tables, ∀ page pte, client.heap.leafAt table page = some pte ↔
    ∃ call ∈ client.calls, call.table = table ∧ pageNumber call.address = page ∧ call.answer = pte
  entry : ∀ call ∈ client.calls, client.heap.pte call.answer = some call.entry
  inner : ∀ table ∈ client.tables, ∀ i j inner,
    client.heap.trie.tableAt table [i, j] = some inner → ∃ call ∈ client.calls,
      call.table = table ∧ [allocateIndex1 call.address, allocateIndex2 call.address] = [i, j]

theorem TableClient.fresh_agrees : TableClient.fresh.Agrees where
  sound := Heap.empty_sound _ (by simp [TableClient.fresh])
  open_table := by simp [TableClient.fresh]
  leaf := by simp [TableClient.fresh]
  entry := by simp [TableClient.fresh]
  inner := by simp [TableClient.fresh]

section Steps
variable {client : TableClient} (agrees : client.Agrees)
include agrees

theorem TableClient.Agrees.same_iff {call call' : TableCall} (member : call ∈ client.calls)
    (member' : call' ∈ client.calls) (sameTable : call.table = call'.table) :
    call.answer = call'.answer ↔ pageNumber call.address = pageNumber call'.address := by
  have here := agrees.open_table call member
  have found := (agrees.leaf _ here _ _).mpr ⟨call, member, rfl, rfl, rfl⟩
  have found' := (agrees.leaf _ here _ _).mpr ⟨call', member', sameTable.symm, rfl, rfl⟩
  constructor
  · intro sameAnswer
    rw [sameAnswer] at found
    exact (agrees.sound.leafAt_inj here here found found').2
  · intro samePage
    rw [samePage] at found
    exact Option.some.inj (found.symm.trans found')

theorem TableClient.Agrees.expected_of_call {call : TableCall} (member : call ∈ client.calls) :
    client.expected call.table (pageNumber call.address) = call.entry := by
  unfold TableClient.expected
  split
  · rename_i absent
    have apart := List.find?_eq_none.mp absent call member
    simp at apart
  · rename_i first found
    have same := List.find?_some found
    simp only [Bool.and_eq_true, beq_iff_eq] at same
    have firstMember := List.mem_of_find?_eq_some found
    have sameAnswer := (agrees.same_iff firstMember member same.1).mpr same.2
    have here := agrees.entry _ firstMember
    rw [sameAnswer, agrees.entry _ member] at here
    exact (Option.some.inj here).symm

omit agrees in
theorem TableClient.expected_of_none {table page : Nat}
    (none' : ∀ call ∈ client.calls, ¬ (call.table = table ∧ pageNumber call.address = page)) :
    client.expected table page = PTE.initial := by
  have absent : client.calls.find? (fun call =>
      call.table == table && pageNumber call.address == page) = none := by
    refine List.find?_eq_none.mpr fun call member => ?_
    simpa using none' call member
  rw [TableClient.expected, absent]

theorem TableClient.Agrees.allocated_entry {table address pte : Nat} {after : Heap}
    (here : table ∈ client.tables)
    (allocated : client.heap.Allocated after (· ∈ client.tables) table (pageNumber address) pte) :
    after.pte pte = some (client.expected table (pageNumber address)) := by
  cases found : client.heap.leafAt table (pageNumber address) with
  | none =>
      have none' : ∀ call ∈ client.calls,
          ¬ (call.table = table ∧ pageNumber call.address = pageNumber address) := by
        rintro call member ⟨sameTable, samePage⟩
        have there := (agrees.leaf table here _ _).mpr ⟨call, member, sameTable, samePage, rfl⟩
        rw [found] at there
        contradiction
      rw [TableClient.expected_of_none none', (allocated.created found).2]
  | some old =>
      obtain ⟨rfl, rfl⟩ := allocated.again old found
      obtain ⟨call, member, rfl, samePage, rfl⟩ := (agrees.leaf table here _ _).mp found
      rw [← samePage, agrees.expected_of_call member, agrees.entry call member]

theorem TableClient.Agrees.create {table : Addr} {after : Heap}
    (samePte : after.pte = client.heap.pte) (sameTrie : after.trie = client.heap.trie)
    (fresh : client.heap.table table = none) (empty : ∀ index, after.trie.slot table index = none)
    (sound : after.Sound fun root => root = table ∨ root ∈ client.tables) :
    ((client.setHeap after).opened (some table)).Agrees := by
  have notOpen : table ∉ client.tables := by
    intro isOpen
    obtain ⟨_, there⟩ := agrees.sound.root_table isOpen
    rw [fresh] at there
    contradiction
  have sameLeaf : ∀ table page, after.leafAt table page = client.heap.leafAt table page := by
    intro table page
    rw [Heap.leafAt, sameTrie, Heap.leafAt]
  refine ⟨?_, ?_, ?_, ?_, ?_⟩
  · simpa [TableClient.opened, TableClient.setHeap, List.mem_cons] using sound
  · exact fun call member => List.mem_cons_of_mem _ (agrees.open_table call member)
  · intro other otherHere page pte
    rcases List.mem_cons.mp otherHere with rfl | otherHere
    · constructor
      · intro found
        obtain ⟨inner, reached, -⟩ := Trie.nodeAt_eq_some.mp found
        obtain ⟨_, _, inSlot, -⟩ := Trie.tableAt_cons_eq_some.mp reached
        have none' := empty (page / 2 ^ 24)
        rw [sameTrie] at none'
        simp only [TableClient.opened, TableClient.setHeap, sameTrie, none'] at inSlot
        contradiction
      · rintro ⟨call, member, rfl, -⟩
        exact absurd (agrees.open_table call member) notOpen
    · exact (congrArg (· = some pte) (sameLeaf other page)).to_iff.trans
        (agrees.leaf other otherHere page pte)
  · intro call member
    exact (congrFun samePte _).trans (agrees.entry call member)
  · intro other otherHere i j inner reached
    replace reached : client.heap.trie.tableAt other [i, j] = some inner := by
      rw [← sameTrie]
      exact reached
    rcases List.mem_cons.mp otherHere with rfl | otherHere
    · obtain ⟨_, _, inSlot, -⟩ := Trie.tableAt_cons_eq_some.mp reached
      have none' := empty i
      rw [sameTrie, inSlot] at none'
      contradiction
    · exact agrees.inner other otherHere i j inner reached

theorem TableClient.Agrees.allocate {table address pte : Nat} {after : Heap}
    (here : table ∈ client.tables)
    (allocated : client.heap.Allocated after (· ∈ client.tables) table (pageNumber address) pte) :
    ((client.setHeap after).called table address (some pte)).Agrees := by
  have lastEntry := agrees.allocated_entry here allocated
  refine ⟨allocated.sound, ?_, ?_, ?_, ?_⟩
  · intro call member
    rcases List.mem_append.mp member with old | new
    · exact agrees.open_table call old
    · rw [List.mem_singleton.mp new]
      exact here
  · intro other otherHere page found
    simp only [TableClient.called, TableClient.setHeap, List.mem_append, List.mem_singleton]
    by_cases same : other = table ∧ page = pageNumber address
    · obtain ⟨rfl, rfl⟩ := same
      rw [allocated.leaf]
      constructor
      · intro sameEntry
        exact ⟨_, .inr rfl, rfl, rfl, Option.some.inj sameEntry⟩
      · rintro ⟨call, old | rfl, sameTable, samePage, rfl⟩
        · have leaf := (agrees.leaf other otherHere _ _).mpr ⟨call, old, sameTable, samePage, rfl⟩
          rw [(allocated.again _ leaf).1]
        · rfl
    · rw [allocated.others other page otherHere same, agrees.leaf other otherHere]
      constructor
      · rintro ⟨call, old, rest⟩
        exact ⟨call, .inl old, rest⟩
      · rintro ⟨call, old | rfl, sameTable, samePage, sameAnswer⟩
        · exact ⟨call, old, sameTable, samePage, sameAnswer⟩
        · exact absurd ⟨sameTable.symm, samePage.symm⟩ same
  · intro call member
    rcases List.mem_append.mp member with old | new
    · have leaf := (agrees.leaf _ (agrees.open_table call old) _ _).mpr ⟨call, old, rfl, rfl, rfl⟩
      exact (allocated.leaf_kept agrees.sound (agrees.open_table call old) leaf).trans
        (agrees.entry call old)
    · rw [List.mem_singleton.mp new]
      exact lastEntry
  · intro other otherHere i j inner reached
    rcases allocated.tables other i j inner otherHere reached with old | ⟨rfl, path⟩
    · obtain ⟨call, member, rest⟩ := agrees.inner other otherHere i j inner old
      exact ⟨call, List.mem_append_left _ member, rest⟩
    · refine ⟨_, List.mem_append_right _ (List.mem_singleton.mpr rfl), rfl, ?_⟩
      simp only [List.cons.injEq, and_true, allocateIndex1, allocateIndex2, pageNumber,
        pageSize_eq] at path ⊢
      omega

theorem TableClient.Agrees.update {pte : Addr} {entry : PTE} (update : PTEUpdate)
    (here : client.heap.pte pte = some entry) :
    ((client.setHeap (client.heap.setPte pte (update.apply entry))).updated pte update).Agrees := by
  have sameTrie : (client.heap.setPte pte (update.apply entry)).trie = client.heap.trie :=
    Heap.trie_setPte (by simp [Heap.trie, here])
  have mapped : ∀ {held : TableCall → Prop},
      (∀ call entry, held { call with entry := entry } ↔ held call) →
      ((∃ call ∈ ((client.setHeap (client.heap.setPte pte (update.apply entry))).updated pte
          update).calls, held call) ↔ ∃ call ∈ client.calls, held call) := by
    intro held blind
    simp only [TableClient.updated, TableClient.setHeap, List.mem_map, exists_exists_and_eq_and]
    refine exists_congr fun call => and_congr_right fun _ => ?_
    split
    · exact blind call _
    · exact Iff.rfl
  refine ⟨agrees.sound.setPte here (by simp), ?_, ?_, ?_, ?_⟩
  · intro call member
    obtain ⟨old, oldMember, rfl⟩ := List.mem_map.mp member
    have isOpen := agrees.open_table old oldMember
    split <;> exact isOpen
  · intro table tableHere page found
    rw [mapped fun _ _ => Iff.rfl, ← agrees.leaf table tableHere page found]
    simp only [TableClient.updated, TableClient.setHeap, Heap.leafAt, sameTrie]
  · intro call member
    obtain ⟨old, oldMember, rfl⟩ := List.mem_map.mp member
    have oldEntry := agrees.entry old oldMember
    split
    · rename_i same
      rw [same, here] at oldEntry
      simp [TableClient.updated, TableClient.setHeap, Heap.setPte, same,
        ← Option.some.inj oldEntry]
    · rename_i other
      simp [TableClient.updated, TableClient.setHeap, Heap.setPte, Function.update_of_ne other,
        oldEntry]
  · intro table tableHere i j inner reached
    rw [mapped fun _ _ => Iff.rfl]
    refine agrees.inner table tableHere i j inner ?_
    rw [← sameTrie]
    exact reached

theorem TableClient.Agrees.destroy {table : Addr} {after : Heap} (here : table ∈ client.tables)
    (without : client.heap.WithoutRoot after (· ∈ client.tables) table) :
    ((client.setHeap after).closed table).Agrees := by
  have isOpen : ∀ other, other ∈ ((client.setHeap after).closed table).tables ↔
      other ∈ client.tables ∧ other ≠ table := by
    simp [TableClient.closed, TableClient.setHeap]
  have isCall : ∀ call, call ∈ ((client.setHeap after).closed table).calls ↔
      call ∈ client.calls ∧ call.table ≠ table := by
    simp [TableClient.closed, TableClient.setHeap]
  refine ⟨?_, ?_, ?_, ?_, ?_⟩
  · have sound := without.sound
    simp only [← isOpen] at sound
    exact sound
  · intro call member
    obtain ⟨old, other⟩ := (isCall call).mp member
    exact (isOpen _).mpr ⟨agrees.open_table call old, other⟩
  · intro other member page pte
    obtain ⟨otherHere, apart⟩ := (isOpen other).mp member
    refine (congrArg (· = some pte) (without.leaf other otherHere apart page)).to_iff.trans ?_
    rw [agrees.leaf other otherHere page pte]
    constructor
    · rintro ⟨call, old, rfl, rest⟩
      exact ⟨call, (isCall call).mpr ⟨old, apart⟩, rfl, rest⟩
    · rintro ⟨call, member, rest⟩
      exact ⟨call, ((isCall call).mp member).1, rest⟩
  · intro call member
    obtain ⟨old, apart⟩ := (isCall call).mp member
    have callHere := agrees.open_table call old
    have leaf := (agrees.leaf _ callHere _ _).mpr ⟨call, old, rfl, rfl, rfl⟩
    have kept : ¬ client.heap.Owned table call.answer := fun owned =>
      apart (agrees.sound.owned_disjoint here callHere owned ⟨_, .inr (.inr ⟨_, leaf⟩)⟩).symm
    exact (without.pte _ kept).trans (agrees.entry call old)
  · intro other member i j inner reached
    obtain ⟨otherHere, apart⟩ := (isOpen other).mp member
    obtain ⟨call, old, rfl, path⟩ :=
      agrees.inner other otherHere i j inner (without.tables other _ _ reached)
    exact ⟨call, (isCall call).mpr ⟨old, apart⟩, rfl, path⟩

end Steps

/-! ## Runs -/

theorem onClientHeap_ok_iff {α : Type} {part : Exec Heap α} {client after : TableClient}
    {value : α} : (onClientHeap part).run client = .ok value after ↔
      ∃ heap, part.run client.heap = .ok value heap ∧ after = client.setHeap heap :=
  onPart_ok_iff

theorem hasTable_ok {table : Addr} {client after : TableClient}
    (run : (hasTable table).run client = .ok () after) :
    client = after ∧ table ∈ client.tables := by
  simp only [hasTable] at run
  obtain ⟨_, _, step, run⟩ := bind_ok_iff.mp run
  simp only [EStateM.run_get, EStateM.Result.ok.injEq] at step
  obtain ⟨rfl, rfl⟩ := step
  obtain ⟨here, rfl⟩ := require_ok_iff.mp run
  exact ⟨rfl, List.contains_iff_mem.mp here⟩

theorem pageTableSearch_ok {heap after : Heap} {isRoot : Addr → Prop} (sound : heap.Sound isRoot)
    {root address : Nat} {answer : Option Addr} (rootHere : isRoot root)
    (bound : address < 2 ^ 48)
    (run : (pageTableSearch (some root) address).run heap = .ok answer after) : heap = after := by
  rw [pageTableSearch_spec sound rootHere bound] at run
  split at run
  · cases run
    rfl
  · split at run
    · cases run
      rfl
    · contradiction

section Runs
variable {client after : TableClient} {answer : Option Addr} {op : TableOp}

def TableClient.LogGrows (before after : TableClient) : Prop := before.heap.LogGrows after.heap

theorem TableClient.LogGrows.refl (client : TableClient) : client.LogGrows client :=
  Heap.LogGrows.refl _

theorem TableClient.LogGrows.trans (first second third : TableClient)
    (left : first.LogGrows second) (right : second.LogGrows third) : first.LogGrows third :=
  Heap.LogGrows.trans _ _ _ left right

theorem logGrows_tableStep (op : TableOp) : Keeps TableClient.LogGrows (tableStep env op) := by
  have heap : ∀ {α : Type} {part : Exec Heap α}, Logs part →
      Keeps TableClient.LogGrows (onClientHeap part) :=
    fun logs => keeps_onPart logs fun _ _ grows => grows
  have check : ∀ table, Keeps TableClient.LogGrows (hasTable table) := fun table =>
    keeps_bind TableClient.LogGrows.trans (keeps_get TableClient.LogGrows.refl) fun _ =>
      keeps_require TableClient.LogGrows.refl _ _
  have note : ∀ {change : TableClient → TableClient} (answer : Option Addr),
      (∀ client, (change client).heap = client.heap) →
      Keeps TableClient.LogGrows (do modify change; pure answer : Exec TableClient _) := by
    intro change answer same
    refine keeps_bind TableClient.LogGrows.trans (keeps_modify fun client => ?_)
      fun _ => keeps_pure TableClient.LogGrows.refl answer
    rw [TableClient.LogGrows, same]
    exact Heap.LogGrows.refl _
  cases op with
  | create =>
      refine keeps_bind TableClient.LogGrows.trans (heap (logs_pageTableCreate env)) fun table => ?_
      exact note table fun client => by cases table <;> rfl
  | allocate table address =>
      refine keeps_bind TableClient.LogGrows.trans (check table) fun _ => ?_
      refine keeps_bind TableClient.LogGrows.trans (heap (logs_pageTableAllocate env _ _)) fun pte => ?_
      exact note pte fun client => by cases pte <;> rfl
  | search table address =>
      exact keeps_bind TableClient.LogGrows.trans (check table) fun _ =>
        heap (logs_pageTableSearch _ _)
  | update pte update =>
      refine keeps_bind TableClient.LogGrows.trans (heap ?_) fun _ => note none fun _ => rfl
      rw [update.set_eq]
      exact logs_pteSet _ _
  | destroy table =>
      refine keeps_bind TableClient.LogGrows.trans (check table) fun _ => ?_
      exact keeps_bind TableClient.LogGrows.trans (heap (logs_pageTableDestroy _ _)) fun _ =>
        note none fun _ => rfl

theorem TableClient.Agrees.step (agrees : client.Agrees) (inRange : op.InRange)
    (run : (tableStep env op).run client = .ok answer after)
    (granted : AllocationsSucceed after.heap.tracker.log) : after.Agrees := by
  cases op with
  | create =>
      obtain ⟨table, _, step, run⟩ := bind_ok_iff.mp run
      obtain ⟨heap, create, rfl⟩ := onClientHeap_ok_iff.mp step
      obtain ⟨_, _, step, run⟩ := bind_ok_iff.mp run
      simp only [EStateM.run_modify, EStateM.run_pure, EStateM.Result.ok.injEq] at step run
      obtain ⟨-, rfl⟩ := step
      obtain ⟨rfl, rfl⟩ := run
      have granted : AllocationsSucceed
          (finalState ((pageTableCreate env).run client.heap)).tracker.log := by
        rw [create]
        cases table <;> exact granted
      obtain ⟨new, created, run, samePte, sameTrie, fresh, empty, sound⟩ :=
        pageTableCreate_root env agrees.sound granted
      cases create.symm.trans run
      exact agrees.create samePte sameTrie fresh empty sound
  | allocate table address =>
      obtain ⟨_, _, step, run⟩ := bind_ok_iff.mp run
      obtain ⟨rfl, here⟩ := hasTable_ok step
      obtain ⟨pte, _, step, run⟩ := bind_ok_iff.mp run
      obtain ⟨heap, allocate, rfl⟩ := onClientHeap_ok_iff.mp step
      obtain ⟨_, _, step, run⟩ := bind_ok_iff.mp run
      simp only [EStateM.run_modify, EStateM.run_pure, EStateM.Result.ok.injEq] at step run
      obtain ⟨-, rfl⟩ := step
      obtain ⟨rfl, rfl⟩ := run
      rcases pageTableAllocate_spec env agrees.sound here inRange with
        ⟨found, allocated, _, run, -, -, spec⟩ | ⟨last, ext, stopped, log, refused⟩
      · cases allocate.symm.trans run
        exact agrees.allocate here spec
      · have same : heap = last := by
          rcases stopped with run | run
          · cases allocate.symm.trans run
            rfl
          · cases allocate.symm.trans run
        have granted : AllocationsSucceed heap.tracker.log := by
          cases pte <;> exact granted
        rw [same, log] at granted
        exact absurd (allocationsSucceed_append.mp granted).2 refused
  | search table address =>
      obtain ⟨_, _, step, run⟩ := bind_ok_iff.mp run
      obtain ⟨rfl, here⟩ := hasTable_ok step
      obtain ⟨heap, search, rfl⟩ := onClientHeap_ok_iff.mp run
      cases pageTableSearch_ok agrees.sound here inRange search
      exact agrees
  | update pte update =>
      obtain ⟨_, _, step, run⟩ := bind_ok_iff.mp run
      obtain ⟨heap, set, rfl⟩ := onClientHeap_ok_iff.mp step
      obtain ⟨_, _, step, run⟩ := bind_ok_iff.mp run
      simp only [EStateM.run_modify, EStateM.run_pure, EStateM.Result.ok.injEq] at step run
      obtain ⟨-, rfl⟩ := step
      obtain ⟨-, rfl⟩ := run
      rw [update.set_eq] at set
      obtain ⟨entry, here, rfl⟩ := pteSet_ok set
      exact agrees.update update here
  | destroy table =>
      obtain ⟨_, _, step, run⟩ := bind_ok_iff.mp run
      obtain ⟨rfl, here⟩ := hasTable_ok step
      obtain ⟨_, _, step, run⟩ := bind_ok_iff.mp run
      obtain ⟨heap, destroy, rfl⟩ := onClientHeap_ok_iff.mp step
      obtain ⟨_, _, step, run⟩ := bind_ok_iff.mp run
      simp only [EStateM.run_modify, EStateM.run_pure, EStateM.Result.ok.injEq] at step run
      obtain ⟨-, rfl⟩ := step
      obtain ⟨-, rfl⟩ := run
      exact agrees.destroy here (pageTableDestroy_ok agrees.sound here destroy).1

theorem TableClient.Agrees.run {ops : List TableOp} {answers : List (Option Addr)}
    (agrees : client.Agrees) (inRange : ∀ op ∈ ops, op.InRange)
    (run : (runAll (tableStep env) ops).run client = .ok answers after)
    (granted : AllocationsSucceed after.heap.tracker.log) : after.Agrees := by
  refine @runAll_invariant _ _ _ _ (tableStep env)
    (fun client => AllocationsSucceed client.heap.tracker.log → client.Agrees) _ ?_ _ _ _ _
    inRange (fun _ => agrees) run granted
  intro op client answer next inRange held step granted
  have grows := keeps_ok (logGrows_tableStep env op) step
  exact (held (grows.succeed granted)).step env inRange step granted

end Runs

/-! ## The map from pages to entries -/

/-- An allocation in a table: the calls made so far in the same table returned
the same entry exactly for the same page, the first call for a page returns an
entry with the initial fields, a later one the fields last set, and no existing
entry of any table changes. -/
structure StableAllocation (client : TableClient) (table address pte : Nat) (after : Heap) :
    Prop where
  same_iff : ∀ call ∈ client.calls, call.table = table →
    (call.answer = pte ↔ pageNumber call.address = pageNumber address)
  first : (∀ call ∈ client.calls, call.table = table →
    pageNumber call.address ≠ pageNumber address) → after.pte pte = some PTE.initial
  later : ∀ call ∈ client.calls, call.table = table →
    pageNumber call.address = pageNumber address → after.pte pte = some call.entry
  others : ∀ call ∈ client.calls, after.pte call.answer = client.heap.pte call.answer

theorem TableClient.Agrees.stable {client : TableClient} (agrees : client.Agrees)
    {table address pte : Nat} {after : Heap} (here : table ∈ client.tables)
    (allocated : client.heap.Allocated after (· ∈ client.tables) table (pageNumber address) pte) :
    StableAllocation client table address pte after := by
  have entry := agrees.allocated_entry here allocated
  have leaf : ∀ call ∈ client.calls,
      client.heap.leafAt call.table (pageNumber call.address) = some call.answer :=
    fun call member => (agrees.leaf _ (agrees.open_table call member) _ _).mpr
      ⟨call, member, rfl, rfl, rfl⟩
  refine ⟨?_, ?_, ?_, ?_⟩
  · rintro call member rfl
    have found := leaf call member
    constructor
    · rintro rfl
      by_contra other
      have found' := (allocated.others _ _ here fun same => other same.2).trans found
      exact other (allocated.sound.leafAt_inj here here found' allocated.leaf).2
    · intro samePage
      rw [samePage] at found
      exact (allocated.again _ found).1
  · intro none'
    rw [entry, TableClient.expected_of_none fun call member same => none' call member same.1 same.2]
  · rintro call member rfl samePage
    rw [entry, ← samePage, agrees.expected_of_call member]
  · intro call member
    exact allocated.leaf_kept agrees.sound (agrees.open_table call member) (leaf call member)

/-- `CSC369_PageTableAllocate` after any run of a client. -/
theorem pageTableAllocate_stable_one_to_one {ops : List TableOp} {answers : List (Option Addr)}
    {client : TableClient} {table address : Nat} (inRange : ∀ op ∈ ops, op.InRange)
    (bound : address < 2 ^ 48)
    (run : (runAll (tableStep env) ops).run TableClient.fresh = .ok answers client)
    (here : table ∈ client.tables)
    (granted : AllocationsSucceed (finalState
      ((pageTableAllocate env (some table) address).run client.heap)).tracker.log) :
    ∃ pte after, (pageTableAllocate env (some table) address).run client.heap =
      .ok (some pte) after ∧ StableAllocation client table address pte after := by
  have agrees : client.Agrees := TableClient.fresh_agrees.run env inRange run
    ((logs_pageTableAllocate env (some table) address client.heap).succeed granted)
  rcases pageTableAllocate_spec env agrees.sound here bound with
    ⟨pte, after, ext, allocate, -, -, allocated⟩ | ⟨last, ext, stopped, log, refused⟩
  · exact ⟨pte, after, allocate, agrees.stable here allocated⟩
  · have granted : AllocationsSucceed last.tracker.log := by
      rcases stopped with run | run
      · rw [run] at granted
        exact granted
      · rw [run] at granted
        exact granted
    rw [log] at granted
    exact absurd (allocationsSucceed_append.mp granted).2 refused

/-- Two tables, the same page in both, a field set in one, and the page asked for
again. -/
theorem pageTableAllocate_stable_one_to_one_two_tables : ∃ client pte after,
    (pageTableAllocate (Env.ideal 1) (some 0) 4100).run client.heap = .ok (some pte) after ∧
      StableAllocation client 0 4100 pte after := by
  let ops : List TableOp :=
    [.create, .create, .allocate 0 4096, .allocate 2 4096, .update 10 (.dirty true)]
  have check : (match (runAll (tableStep (Env.ideal 1)) ops).run TableClient.fresh with
      | .ok _ client => client.tables.contains 0 && decide (AllocationsSucceed (finalState
          ((pageTableAllocate (Env.ideal 1) (some 0) 4100).run client.heap)).tracker.log)
      | .error _ _ => false) = true := by
    decide +kernel
  have inRange : ∀ op ∈ ops, op.InRange := by
    simp [ops, TableOp.InRange]
  cases run : (runAll (tableStep (Env.ideal 1)) ops).run TableClient.fresh with
  | error fault client => simp [run] at check
  | ok answers client =>
      simp only [run, Bool.and_eq_true, List.contains_iff_mem, decide_eq_true_eq] at check
      exact ⟨client, pageTableAllocate_stable_one_to_one (Env.ideal 1) inRange (by decide) run
        check.1 check.2⟩

end MemSim
