import MemSim.HeapLog
import MemSim.Policies
import MemSim.Translation

/-!
# Runs of a simulation

A translation appends to the two logs, keeps the shape of the page table once the
entry is there, keeps the coremap and the page table inverse, and starts from a
simulation that was just created.  Calls to the
policy are judged by the log: `PolicyReturns` says that every one came back, and
that every victim is a frame.
-/

set_option autoImplicit false

namespace MemSim

open Exec

/-! ## What follows the allocation of the entry -/

/-- Only fields of entries differ, and not their pointers to tables. -/
structure Heap.SameShape (before after : Heap) : Prop where
  table : after.table = before.table
  ptes : after.ptes = before.ptes
  tracker : after.tracker = before.tracker
  pointer : ∀ addr, (after.pte addr).map PTE.pageTable = (before.pte addr).map PTE.pageTable

section Shape
variable {before after : Heap}

theorem Heap.SameShape.refl (heap : Heap) : heap.SameShape heap := ⟨rfl, rfl, rfl, fun _ => rfl⟩

theorem Heap.SameShape.trans (first second third : Heap) (left : first.SameShape second)
    (right : second.SameShape third) : first.SameShape third where
  table := right.table.trans left.table
  ptes := right.ptes.trans left.ptes
  tracker := right.tracker.trans left.tracker
  pointer := fun addr => (right.pointer addr).trans (left.pointer addr)

theorem Heap.OnlyReference.sameShape (only : before.OnlyReference after) :
    before.SameShape after where
  table := only.table
  ptes := only.ptes
  tracker := only.tracker
  pointer := by
    intro addr
    have erased := congrArg (Option.map PTE.pageTable) (only.pte addr)
    simpa only [Option.map_map, Function.comp_def, PTE.eraseReference] using erased

theorem Heap.SameShape.setPte {heap : Heap} {addr : Addr} {entry : PTE}
    (here : heap.pte addr = some entry) {change : PTE → PTE}
    (pointer : ∀ entry, (change entry).pageTable = entry.pageTable) :
    heap.SameShape (heap.setPte addr (change entry)) where
  table := rfl
  ptes := rfl
  tracker := rfl
  pointer := by
    intro other
    by_cases same : other = addr
    · subst same
      simp [Heap.setPte, here, pointer]
    · simp [Heap.setPte, Function.update_of_ne same]

theorem pteSet_sameShape {change : PTE → PTE}
    (pointer : ∀ entry, (change entry).pageTable = entry.pageTable) (pte : Option Addr) :
    Keeps Heap.SameShape (pteSet change pte) := by
  intro heap
  cases pte with
  | none => exact Heap.SameShape.refl heap
  | some addr =>
      cases here : heap.pte addr with
      | none =>
          simp only [pteSet, writePte, readPte, EStateM.run_bind, Option.isSome_some,
            run_require_true, EStateM.run_get, here, run_stop, finalState_error]
          exact Heap.SameShape.refl heap
      | some entry =>
          rw [run_pteSet change here]
          exact Heap.SameShape.setPte here pointer

theorem readPte_sameShape (pte : Option Addr) : Keeps Heap.SameShape (readPte pte) := by
  cases pte with
  | none => exact keeps_stop Heap.SameShape.refl _
  | some addr =>
      refine keeps_bind Heap.SameShape.trans (keeps_get Heap.SameShape.refl) fun heap => ?_
      split
      · exact keeps_stop Heap.SameShape.refl _
      · exact keeps_pure Heap.SameShape.refl _

end Shape

section Updates
variable {σ α β : Type}

/-- The page table keeps its shape, and the log of events grows. -/
structure World.Updated (before after : World σ) : Prop where
  heap : before.heap.SameShape after.heap
  log : before.log <+: after.log
  mm : after.mm = before.mm

theorem World.Updated.refl (world : World σ) : world.Updated world :=
  ⟨Heap.SameShape.refl _, List.prefix_rfl, rfl⟩

theorem World.Updated.trans (first second third : World σ) (left : first.Updated second)
    (right : second.Updated third) : first.Updated third :=
  ⟨Heap.SameShape.trans _ _ _ left.heap right.heap, left.log.trans right.log,
    right.mm.trans left.mm⟩

theorem World.Updated.of_eq {before after : World σ} (heap : after.heap = before.heap)
    (log : after.log = before.log) (mm : after.mm = before.mm) : before.Updated after := by
  refine ⟨?_, ⟨[], by rw [List.append_nil, log]⟩, mm⟩
  rw [heap]
  exact Heap.SameShape.refl _

/-- A computation that leaves the shape of the page table alone. -/
abbrev Updates (part : Exec (World σ) α) : Prop := Keeps World.Updated part

theorem updates_bind {first : Exec (World σ) α} {next : α → Exec (World σ) β}
    (firstUpdates : Updates first) (nextUpdates : ∀ value, Updates (next value)) :
    Updates (first >>= next) :=
  keeps_bind World.Updated.trans firstUpdates nextUpdates

theorem updates_pure (value : α) : Updates (pure value : Exec (World σ) α) :=
  keeps_pure World.Updated.refl value

theorem updates_get : Updates (get : Exec (World σ) (World σ)) := keeps_get World.Updated.refl

theorem updates_require (condition : Bool) (fault : Fault) :
    Updates (require condition fault : Exec (World σ) Unit) :=
  keeps_require World.Updated.refl condition fault

theorem updates_modify {change : World σ → World σ}
    (updated : ∀ world, World.Updated world (change world)) : Updates (modify change) :=
  keeps_modify updated

theorem updates_count (change : MMStats → MMStats) :
    Updates (count change : Exec (World σ) Unit) :=
  updates_modify fun _ => .of_eq rfl rfl rfl

theorem updates_onHeap {part : Exec Heap α} (keeps : Keeps Heap.SameShape part) :
    Updates (onHeap part : Exec (World σ) α) :=
  keeps_onPart keeps fun _ _ same => ⟨same, List.prefix_rfl, rfl⟩

theorem updates_pteGet (field : PTE → α) (pte : Option Addr) :
    Updates (onHeap (pteGet field pte) : Exec (World σ) α) :=
  updates_onHeap fun heap => (pteGet_keeps field pte heap).sameShape

theorem updates_pteSet (change : PTE → PTE) (pte : Option Addr)
    (pointer : ∀ entry, (change entry).pageTable = entry.pageTable := by exact fun _ => rfl) :
    Updates (onHeap (pteSet change pte) : Exec (World σ) Unit) :=
  updates_onHeap (pteSet_sameShape pointer pte)

theorem updates_onStorage (part : Exec Storage α) :
    Updates (onStorage part : Exec (World σ) α) := by
  have anything : Keeps (fun _ _ => True) part := fun _ => trivial
  exact keeps_onPart anything fun _ _ _ => .of_eq rfl rfl rfl

theorem updates_callPolicy {event : Option α → Event} {part : Exec (PolicyState σ) α}
    (keeps : Keeps PolicyState.OnlyReference part) : Updates (callPolicy event part) := by
  have step : ∀ (world : World σ) (state : PolicyState σ) (happened : Event),
      world.policyState.OnlyReference state →
      world.Updated ((world.setPolicyState state).record happened) :=
    fun world state happened only => ⟨only.heap.sameShape, List.prefix_append _ _, rfl⟩
  intro world
  cases run : part.run world.policyState with
  | ok value state =>
      rw [callPolicy_of_ok run]
      exact step world state _ (keeps_ok keeps run)
  | error fault state =>
      rw [callPolicy_of_error run]
      have only := keeps world.policyState
      rw [run] at only
      exact step world state _ only

variable (env : Env) (policy : Policy)

theorem updates_mmHandleEviction (victim : Option Addr) :
    Updates (mmHandleEviction env victim : Exec (World σ) Unit) := by
  refine updates_bind (updates_require _ _) fun _ =>
    updates_bind (updates_pteGet _ _) fun _ => updates_bind (updates_count _) fun _ =>
      updates_bind (updates_pteGet _ _) fun _ => updates_bind (updates_pteGet _ _) fun _ =>
        updates_bind updates_get fun _ =>
          updates_bind (updates_onHeap (readPte_sameShape _)) fun _ => ?_
  refine updates_bind (updates_onStorage _) fun _ =>
    updates_bind (updates_pteSet _ _) fun _ =>
      updates_bind (updates_pteSet _ _) fun _ =>
        updates_bind (updates_pteSet _ _) fun _ =>
          updates_bind (updates_pteSet _ _) fun _ => updates_bind updates_get fun _ =>
            updates_bind (updates_onHeap (readPte_sameShape _)) fun _ => ?_
  exact updates_modify fun world => ⟨Heap.SameShape.refl _, List.prefix_append _ _, rfl⟩

theorem updates_coremapAllocateFrame (pte : Option Addr) :
    Updates (coremapAllocateFrame env policy (mmHandleEviction env) pte) := by
  refine updates_bind (updates_require _ _) fun _ =>
    updates_bind (updates_bind updates_get fun _ => updates_pure _) fun found => ?_
  refine updates_bind ?_ fun frameNumber =>
    updates_bind (updates_modify fun _ => .of_eq rfl rfl rfl) fun _ => updates_pure _
  cases found with
  | some frame => exact updates_pure frame
  | none =>
      refine updates_bind (updates_callPolicy (policy.evict_keeps _)) fun frame =>
        updates_bind ?_ fun _ => updates_bind (updates_require _ _) fun _ =>
          updates_bind (updates_mmHandleEviction env _) fun _ => updates_pure _
      exact updates_bind (updates_require _ _) fun _ => updates_bind updates_get fun _ =>
        updates_pure _

theorem updates_mmFillFrame (pte : Option Addr) (frame : Nat) (onSwap : Bool) :
    Updates (mmFillFrame env (swapPageIn env) pte frame onSwap : Exec (World σ) Unit) :=
  keeps_ite
    (updates_bind (updates_bind (updates_require _ _) fun _ => updates_onStorage _) fun _ =>
      updates_pteSet _ _)
    (updates_bind (updates_pteGet _ _) fun _ =>
      updates_bind (updates_onStorage _) fun _ => updates_pteSet _ _)

theorem updates_mmMiss (pte : Option Addr) :
    Updates (mmMiss env policy (swapPageIn env) (mmHandleEviction env) pte) :=
  updates_bind (updates_count _) fun _ =>
    updates_bind (updates_coremapAllocateFrame env policy pte) fun _ =>
      updates_bind (updates_pteSet _ _) fun _ =>
        updates_bind (updates_pteGet _ _) fun _ =>
          updates_bind (updates_mmFillFrame env _ _ _) fun _ =>
            updates_bind (updates_pteSet _ _) fun _ => updates_pure _

/-- `CSC369_MMGetFrameNumber` once the entry of the page is there. -/
def mmUseEntry (pageIn : Nat → Int → Exec Storage Int)
    (handleEviction : Option Addr → Exec (World policy.State) Unit) (access : MemAccess)
    (pte : Option Addr) : Exec (World policy.State) Nat := do
  let valid ← onHeap (pteIsValid pte)
  let frameNumber ← mmFindFrame env policy pageIn handleEviction pte valid
  onlyIf access.type.isWrite (onHeap (pteSetDirty pte true))
  count countRef
  pure frameNumber

theorem updates_mmUseEntry (access : MemAccess) (pte : Option Addr) :
    Updates (mmUseEntry env policy (swapPageIn env) (mmHandleEviction env) access pte) := by
  refine updates_bind (updates_pteGet _ _) fun _ => updates_bind ?_ fun _ => ?_
  · exact keeps_ite (updates_mmMiss env policy pte)
      (updates_bind (updates_count _) fun _ => updates_pteGet _ _)
  · exact updates_bind
      (keeps_onlyIf World.Updated.refl _ (updates_pteSet _ _)) fun _ =>
        updates_bind (updates_count _) fun _ => updates_pure _

end Updates

/-! ## The logs only grow -/

section Growth
variable {σ α β : Type}

def World.LogGrows (before after : World σ) : Prop :=
  before.heap.LogGrows after.heap ∧ before.log <+: after.log

theorem World.LogGrows.refl (world : World σ) : world.LogGrows world :=
  ⟨Heap.LogGrows.refl _, List.prefix_refl _⟩

theorem World.LogGrows.trans (first second third : World σ) (left : first.LogGrows second)
    (right : second.LogGrows third) : first.LogGrows third :=
  ⟨Heap.LogGrows.trans _ _ _ left.1 right.1, List.IsPrefix.trans left.2 right.2⟩

theorem World.Updated.logGrows {before after : World σ} (updated : before.Updated after) :
    before.LogGrows after := by
  have sameLog : before.heap.tracker.log = after.heap.tracker.log := by rw [updated.heap.tracker]
  exact ⟨⟨[], by rw [List.append_nil, sameLog]⟩, updated.log⟩

abbrev Appends (part : Exec (World σ) α) : Prop := Keeps World.LogGrows part

theorem Updates.appends {part : Exec (World σ) α} (updates : Updates part) : Appends part :=
  fun world => (updates world).logGrows

theorem appends_bind {first : Exec (World σ) α} {next : α → Exec (World σ) β}
    (firstAppends : Appends first) (nextAppends : ∀ value, Appends (next value)) :
    Appends (first >>= next) :=
  keeps_bind World.LogGrows.trans firstAppends nextAppends

theorem appends_onHeap {part : Exec Heap α} (logs : Logs part) :
    Appends (onHeap part : Exec (World σ) α) :=
  keeps_onPart logs fun _ _ grows => ⟨grows, List.prefix_refl _⟩

variable (env : Env) (policy : Policy)

theorem appends_mmGetFrameNumber (access : MemAccess) :
    Appends (mmGetFrameNumber env policy access) :=
  appends_bind updates_get.appends fun _ =>
    appends_bind (appends_onHeap (logs_pageTableAllocate env _ _)) fun pte =>
      (updates_mmUseEntry env policy access pte).appends

theorem appends_translate (access : MemAccess) : Appends (translate env policy access) :=
  appends_bind (appends_mmGetFrameNumber env policy access) fun _ =>
    (updates_bind (updates_bind (updates_require _ _) fun _ => updates_pure _) fun _ =>
      updates_bind (updates_callPolicy (policy.onRef_keeps _ _)) fun _ => updates_pure _).appends

theorem appends_executeMemInstruction (access : MemAccess) :
    Appends (executeMemInstruction env policy access) := by
  refine appends_bind (appends_translate env policy access) fun _ => Updates.appends ?_
  refine updates_bind (updates_require _ _) fun _ => keeps_ite ?_ ?_
  · exact updates_bind (updates_onStorage _) fun _ => updates_pure _
  · exact updates_bind updates_get fun _ => updates_pure _

end Growth

/-! ## Translations keep the maps inverse -/

section Steps
variable {env : Env} {policy : Policy} {root : Addr} {access : MemAccess}
  {world after : World policy.State} {frame : Nat}

theorem World.Coherent.afterLoad {vacated : Option Nat}
    (coherent : world.Coherent env root vacated) (available : world.Available env vacated frame)
    {pte : Addr} {entry : PTE} (here : world.heap.pte pte = some entry)
    (invalid : entry.valid = false) {page : Nat}
    (leaf : world.heap.leafAt root page = some pte) {storage : Storage}
    (shaped : storage.swapmap.Shaped) :
    (world.afterLoad pte entry frame storage).Coherent env root none :=
  (coherent.install available here invalid leaf rfl rfl rfl : World.Coherent env root none
    ((world.setHeap (world.heap.setPte pte (entry.loaded frame))).setFrame frame
      ⟨false, some pte⟩)).setStorage shaped

theorem World.Coherent.afterAccess (coherent : world.Coherent env root none) {pte : Addr}
    {entry : PTE} (here : world.heap.pte pte = some entry) (write : Bool) :
    (world.afterAccess pte entry write).Coherent env root none :=
  (coherent.setPte here rfl rfl rfl : World.Coherent env root none
    (world.setHeap (world.heap.setPte pte (entry.accessed write)))).setStats _

theorem Fills.swapmap {entry : PTE} {storage storage' : Storage}
    (fills : Fills env frame entry storage storage') (bound : frame < env.memsize) :
    storage'.swapmap = storage.swapmap := by
  cases fills with
  | cleared notOnSwap => rfl
  | pagedIn onSwap slot pageIn =>
      obtain ⟨result, after, run, loaded⟩ := @swapPageIn_spec env storage frame bound _ slot
      cases run.symm.trans pageIn
      exact loaded.swapmap

theorem PTE.eraseReference_inj {entry old : PTE}
    (same : entry.eraseReference = old.eraseReference) :
    entry = { old with reference := entry.reference } := by
  cases entry
  cases old
  simp_all [PTE.eraseReference]

theorem Translates.coherent (translates : Translates env policy root access world frame after)
    (coherent : world.Coherent env root none) : after.Coherent env root none := by
  cases translates with
  | hit leaf here valid =>
      have counted : world.countHit.Coherent env root none := coherent.setStats _
      exact counted.afterAccess (by exact here) _
  | @miss heap pte _ old entry obtained storage allocated here invalid obtains there same fills =>
      have counted : ((world.setHeap heap).countMiss).Coherent env root none :=
        (coherent.allocated allocated).setStats _
      obtain ⟨vacated, ready, available⟩ := obtains.coherent env counted
      have leaf := (obtains.leafAt env (pageNumber access.virtualAddress)).trans allocated.leaf
      have invalid' : entry.valid = false := by
        rw [PTE.eraseReference_inj same]
        exact invalid
      have shaped : storage.swapmap.Shaped := by
        rw [fills.swapmap (obtains.bound env)]
        exact ready.swapmap
      exact (ready.afterLoad available there invalid' leaf shaped).afterAccess
        Heap.pte_setPte_self _

theorem Translates.frame_pte (translates : Translates env policy root access world frame after)
    (coherent : world.Coherent env root none) :
    ∃ pte, after.heap.leafAt root (pageNumber access.virtualAddress) = some pte ∧
      after.frames frame = ⟨false, some pte⟩ := by
  cases translates with
  | @hit pte entry leaf here valid =>
      have sameLeaf := Heap.leafAt_setPte (by simp [Heap.trie, here] :
        (entry.accessed access.type.isWrite).pageTable = world.heap.trie.child pte) root
        (pageNumber access.virtualAddress)
      exact ⟨pte, sameLeaf.trans leaf, (coherent.owner here valid).2⟩
  | @miss heap pte _ old entry obtained storage allocated here invalid obtains there same fills =>
      have sameLoaded := Heap.leafAt_setPte (by simp [Heap.trie, there] :
        (entry.loaded frame).pageTable = obtained.heap.trie.child pte) root
        (pageNumber access.virtualAddress)
      have sameLeaf := Heap.leafAt_setPte (by simp [Heap.trie] :
        ((entry.loaded frame).accessed access.type.isWrite).pageTable =
          (obtained.heap.setPte pte (entry.loaded frame)).trie.child pte) root
        (pageNumber access.virtualAddress)
      have leaf := (obtains.leafAt env (pageNumber access.virtualAddress)).trans allocated.leaf
      exact ⟨pte, (sameLeaf.trans sameLoaded).trans leaf,
        by simp [World.afterAccess, World.afterLoad]⟩

theorem translate_ok (coherent : world.Coherent env root none)
    (run : (translate env policy access).run world = .ok frame after) :
    ∃ middle state, Translates env policy root access world frame middle ∧
      (policy.onRef env.memsize frame).run middle.policyState = .ok () state ∧
      after = (middle.setPolicyState state).record (.referenced frame true) := by
  have outcome := @translate_outcome env policy root access world coherent
  rw [run] at outcome
  cases outcome with
  | done translates onRef => exact ⟨_, _, translates, onRef, rfl⟩

theorem translate_coherent (coherent : world.Coherent env root none)
    (run : (translate env policy access).run world = .ok frame after) :
    after.Coherent env root none := by
  obtain ⟨middle, state, translates, onRef, rfl⟩ := translate_ok coherent run
  have only : middle.policyState.OnlyReference state :=
    keeps_ok (policy.onRef_keeps env.memsize frame) onRef
  exact ((translates.coherent coherent).setPolicyState only).record _

end Steps

/-! ## Calls to the policy -/

/-- The call to the policy came back, with a frame if it was asked for one. -/
def Event.Returned (memsize : Nat) : Event → Prop
  | .referenced _ returned => returned = true
  | .evicted (some frame) => frame < memsize
  | .evicted none => False
  | .handled _ => True

/-- Every call to the policy came back, and every victim is a frame. -/
def PolicyReturns (memsize : Nat) (log : List Event) : Prop :=
  ∀ event ∈ log, event.Returned memsize

theorem policyReturns_append {memsize : Nat} {first second : List Event} :
    PolicyReturns memsize (first ++ second) ↔
      PolicyReturns memsize first ∧ PolicyReturns memsize second := by
  simp only [PolicyReturns, List.mem_append]
  constructor
  · intro all
    exact ⟨fun event member => all event (.inl member), fun event member => all event (.inr member)⟩
  · rintro ⟨left, right⟩ event (member | member)
    · exact left event member
    · exact right event member

theorem PolicyReturns.earlier {memsize : Nat} {first second : List Event}
    (returns : PolicyReturns memsize second) (shorter : first <+: second) :
    PolicyReturns memsize first :=
  fun event member => returns event (shorter.subset member)

/-! ## A simulation that was just created -/

section Start
variable {env : Env} {policy : Policy}

/-- The state of a simulation that the process has just created. -/
structure World.Started (env : Env) (policy : Policy) (process : Process policy.State)
    (swapSize root : Nat) (world : World policy.State) : Prop where
  coherent : world.Coherent env root none
  noPte : ∀ addr, world.heap.pte addr = none
  free : ∀ index, world.frames index = ⟨true, none⟩
  physmem : ∀ index, world.storage.physmem index = 0
  nbits : world.storage.swapmap.nbits = swapSize
  clear : ∀ index < bitmapCapacity swapSize, world.storage.swapmap.bit index = false
  file : world.storage.file = SwapFile.empty
  stats : world.stats = process.stats
  log : world.log = []
  memory : env.memsize * 32 < 2 ^ 64
  policyState : ∃ heap, (∀ addr, heap.pte addr = none) ∧ policy.init.run
    ⟨heap, fun _ => ⟨true, none⟩, coremapLinks env process.heads, process.own⟩ =
      .ok () world.policyState

/-- The blocks left in the heap are no part of a page table. -/
structure Process.Cleared {σ : Type} (process : Process σ) : Prop where
  sound : process.heap.Sound fun _ => False
  noPte : ∀ addr, process.heap.pte addr = none

theorem fresh_cleared (policy : Policy) : (Process.fresh policy).Cleared where
  sound := Heap.empty_sound _ fun _ none' => none'
  noPte := fun _ => rfl

theorem swapCreate_some {size : Nat} (bound : size < 2 ^ 64) {bitmap : Bitmap}
    (created : swapCreate env size = .ok (some bitmap)) :
    bitmap.nbits = size ∧ bitmap.Shaped ∧
      ∀ index < bitmapCapacity size, bitmap.bit index = false := by
  unfold swapCreate at created
  split at created
  · cases struct : env.calloc 1 16 with
    | false =>
        simp only [bitmapCreate, struct, Bool.false_and, Bool.not_false, if_true] at created
        cases created
    | true =>
        cases words : env.calloc (nwordsForNbits size) 8 with
        | false =>
            simp only [bitmapCreate, struct, words, Bool.and_false, Bool.not_false, if_true] at created
            cases created
        | true =>
            obtain ⟨bitmap', create, nbits, shaped, clear⟩ := bitmapCreate_spec env bound struct words
            rw [create] at created
            cases created
            exact ⟨nbits, shaped, clear⟩
  · cases created

theorem mmCreate_some {heap after : Heap} {mm pageTable : Addr}
    (noPte : ∀ addr, heap.pte addr = none) (sound : heap.Sound fun _ => False)
    (run : (mmCreate env).run heap = .ok (some (mm, pageTable)) after) :
    after.Sound (· = pageTable) ∧ ∀ addr, after.pte addr = none := by
  simp only [mmCreate, whenSome] at run
  obtain ⟨block, middle, request, run⟩ := bind_ok_iff.mp run
  cases block with
  | none => simp at run
  | some block =>
      obtain ⟨tracker, malloc, rfl⟩ := onPart_ok_iff.mp request
      simp only [run_csc369Malloc, EStateM.Result.ok.injEq] at malloc
      obtain ⟨granted, rfl⟩ := malloc
      rw [granted] at run
      obtain ⟨soundMiddle, -, -⟩ := granted_absent env sound granted
      obtain ⟨table, created, create, run⟩ := bind_ok_iff.mp run
      cases table with
      | none => simp at run
      | some table =>
          simp only [EStateM.run_pure, EStateM.Result.ok.injEq, Option.some.injEq,
            Prod.mk.injEq] at run
          obtain ⟨⟨-, rfl⟩, rfl⟩ := run
          rcases pageTableCreate_spec env soundMiddle with
            ⟨table', ptes, after', ext, run', log, ok, soundAfter, samePte, sameTrie, fresh,
              inTable, empty⟩ | ⟨after', ext, run', -⟩
          · rw [run'] at create
            cases create
            have noParent : ∀ pte, created.trie.child pte ≠ some table := by
              intro pte hung
              simp [Heap.trie, samePte, Heap.setTracker, noPte] at hung
            have soundRoot := soundAfter.addRoot inTable noParent (sameTrie ▸ empty)
            refine ⟨?_, fun addr => ?_⟩
            · simpa only [or_false] using soundRoot
            · rw [samePte]
              exact noPte addr
          · rw [run'] at create
            cases create

theorem startedAt {process : Process policy.State} {swapSize pageTable mm errno calls : Nat}
    {heap : Heap} {swapmap : Bitmap} {state : PolicyState policy.State}
    (sound : heap.Sound (· = pageTable)) (noPte : ∀ addr, heap.pte addr = none)
    (shaped : swapmap.Shaped) (nbits : swapmap.nbits = swapSize)
    (clear : ∀ index < bitmapCapacity swapSize, swapmap.bit index = false)
    (memory : env.memsize * 32 < 2 ^ 64)
    (init : policy.init.run
      ⟨heap, fun _ => ⟨true, none⟩, coremapLinks env process.heads, process.own⟩ =
        .ok () state) :
    World.Started env policy process swapSize pageTable
      { heap := state.heap
        mm := mm
        pageTable := some pageTable
        frames := state.frames
        links := state.links
        own := state.own
        storage := ⟨fun _ => 0, swapmap, SwapFile.empty, errno, calls⟩
        stats := process.stats
        log := [] } := by
  have only : PolicyState.OnlyReference _ state := keeps_ok policy.init_keeps init
  have noPte' : ∀ addr, state.heap.pte addr = none := by
    intro addr
    have same := only.heap.pte addr
    rw [noPte addr, Option.map_none, Option.map_eq_none_iff] at same
    exact same
  have noEntry : ∀ {addr entry}, state.heap.pte addr ≠ some entry := by
    intro addr entry here
    rw [noPte' addr] at here
    contradiction
  have free : ∀ index, state.frames index = ⟨true, none⟩ := fun index => by rw [only.frames]
  refine ⟨⟨rfl, only.heap.sound sound, ?_, ?_, ?_, ?_, ⟨0, Nat.zero_le _, ?_⟩, shaped⟩, noPte', free,
    fun _ => rfl, nbits, clear, rfl, rfl, rfl, memory, heap, noPte, init⟩
  · exact fun here _ => absurd here noEntry
  · intro index _ used
    simp [free index] at used
  · exact fun _ here _ => absurd here noEntry
  · exact fun here _ => absurd here noEntry
  · intro index _
    simp [free index]

/-- The parts of a simulation that was created. -/
structure Creation (env : Env) (policy : Policy) (process : Process policy.State)
    (swapSize : Nat) (swapmap : Bitmap) (heap : Heap) (mm pageTable : Addr)
    (state : PolicyState policy.State) : Prop where
  swap : swapCreate env swapSize = .ok (some swapmap)
  memory : env.memsize * 32 < 2 ^ 64
  manager : (mmCreate env).run process.heap = .ok (some (mm, pageTable)) heap
  init : policy.init.run
    ⟨heap, fun _ => ⟨true, none⟩, coremapLinks env process.heads, process.own⟩ = .ok () state

theorem simulationCreate_some {process : Process policy.State} {swapSize : Nat}
    {world : World policy.State}
    (created : simulationCreate env policy process swapSize = .ok (some world)) :
    ∃ swapmap heap mm pageTable state,
      Creation env policy process swapSize swapmap heap mm pageTable state ∧
      world =
        { heap := state.heap
          mm := mm
          pageTable := some pageTable
          frames := state.frames
          links := state.links
          own := state.own
          storage := ⟨fun _ => 0, swapmap, SwapFile.empty, process.errno, process.calls⟩
          stats := process.stats
          log := [] } := by
  unfold simulationCreate at created
  cases memory : env.calloc 1 48 && env.calloc env.memsize simulatedFrameSize with
  | false =>
      simp only [memory, Bool.not_false, if_true] at created
      cases created
  | true =>
      simp only [memory, Bool.not_true, Bool.false_eq_true, if_false] at created
      cases swap : swapCreate env swapSize with
      | error fault =>
          rw [swap] at created
          cases created
      | ok answer =>
          rw [swap] at created
          simp only [bind, Except.bind] at created
          cases answer with
          | none => cases created
          | some swapmap =>
              cases coremap : env.calloc 1 24 && env.calloc env.memsize 32 with
              | false =>
                  simp only [coremap, Bool.not_false, if_true] at created
                  cases created
              | true =>
                  simp only [coremap, Bool.not_true, Bool.false_eq_true, if_false] at created
                  obtain ⟨-, frames⟩ := Bool.and_eq_true_iff.mp coremap
                  split at created
                  · cases created
                  · cases created
                  · rename_i mm pageTable heap manager
                    split at created
                    · cases created
                    · rename_i state init
                      cases created
                      exact ⟨swapmap, heap, mm, pageTable, state,
                        ⟨swap, env.calloc_fits _ _ frames, manager, init⟩, rfl⟩

theorem simulationCreate_started {process : Process policy.State} (cleared : process.Cleared)
    {swapSize : Nat} (bound : swapSize < 2 ^ 64) {world : World policy.State}
    (created : simulationCreate env policy process swapSize = .ok (some world)) :
    ∃ root, world.Started env policy process swapSize root := by
  obtain ⟨swapmap, heap, mm, pageTable, state, creation, rfl⟩ := simulationCreate_some created
  obtain ⟨nbits, shaped, clear⟩ := swapCreate_some bound creation.swap
  obtain ⟨sound, noPte⟩ := mmCreate_some cleared.noPte cleared.sound creation.manager
  exact ⟨pageTable, startedAt sound noPte shaped nbits clear creation.memory creation.init⟩

end Start

end MemSim
