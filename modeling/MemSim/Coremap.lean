import MemSim.LinkedList
import MemSim.PageTable
import MemSim.Swap

/-!
# Frames, policies and the state of a simulation

`csc369_coremap.c` and the interface `csc369_policy.h`.  A replacement policy
sees the frames, their list entries, the page table entries the frames point to
and its own static variables; it may change the list links, the reference bits
and its statics.  Allocating a frame hands out a free one or evicts a page.
-/

set_option autoImplicit false

namespace MemSim

open Exec

/-- `CSC369_Frame`, less its list entry. -/
structure Frame where
  free : Bool
  pte : Option Addr
  deriving DecidableEq

/-- The places list entries live in: the frames of the coremap in use, the two
static list heads of the S2Q policy, and frames of a coremap that was freed. -/
inductive EntryAddr where
  | frame (index : Nat)
  | a1
  | am
  | freed (index : Nat)
  deriving DecidableEq, Repr

/-- What a replacement policy works on; `own` are its static variables. -/
structure PolicyState (σ : Type) where
  heap : Heap
  frames : Nat → Frame
  links : Entries EntryAddr
  own : σ

/-- The fields of an entry a policy must leave alone. -/
def PTE.eraseReference (entry : PTE) : PTE := { entry with reference := false }

/-- Only reference bits differ. -/
structure Heap.OnlyReference (before after : Heap) : Prop where
  table : after.table = before.table
  ptes : after.ptes = before.ptes
  tracker : after.tracker = before.tracker
  pte : ∀ addr, (after.pte addr).map PTE.eraseReference =
    (before.pte addr).map PTE.eraseReference

/-- Only list links, reference bits and the policy's own variables differ. -/
structure PolicyState.OnlyReference {σ : Type} (before after : PolicyState σ) : Prop where
  frames : after.frames = before.frames
  heap : before.heap.OnlyReference after.heap

/-- `CSC369_Policy`.  `fresh` are the initial values of the static variables.
No function of a policy changes more than it may. -/
structure Policy where
  name : String
  State : Type
  fresh : State
  init : Exec (PolicyState State) Unit
  cleanup : Exec (PolicyState State) Unit
  onRef : (memsize frame : Nat) → Exec (PolicyState State) Unit
  evict : (memsize : Nat) → Exec (PolicyState State) Nat
  init_keeps : Keeps PolicyState.OnlyReference init
  cleanup_keeps : Keeps PolicyState.OnlyReference cleanup
  onRef_keeps : ∀ memsize frame, Keeps PolicyState.OnlyReference (onRef memsize frame)
  evict_keeps : ∀ memsize, Keeps PolicyState.OnlyReference (evict memsize)

/-- One completed `CSC369_MMHandleEviction`: the victim, its entry and the
storage before, the result of the page-out, and the victim's entry, the storage
and the owner of the victim's frame afterwards. -/
structure EvictionRecord where
  victim : Option Addr
  entry : PTE
  storage : Storage
  result : Int
  entryAfter : PTE
  storageAfter : Storage
  ownerAfter : Option Addr

/-- The calls a simulation makes to its policy and the evictions it handles.
`victim` is `none` when the call to `CSC369_Evict` did not return. -/
inductive Event where
  | referenced (frame : Nat) (returned : Bool)
  | evicted (victim : Option Nat)
  | handled (record : EvictionRecord)

/-- The state of a running simulation: the heap with the page table, the frames
and their list links, the policy's variables, storage and counters.  `log`
records the events so far; no code reads it. -/
structure World (σ : Type) where
  heap : Heap
  mm : Addr
  pageTable : Option Addr
  frames : Nat → Frame
  links : Entries EntryAddr
  own : σ
  storage : Storage
  stats : MMStats
  log : List Event

section Parts
variable {σ α : Type}

def World.setHeap (world : World σ) (heap : Heap) : World σ := { world with heap := heap }

def World.setStorage (world : World σ) (storage : Storage) : World σ :=
  { world with storage := storage }

def World.setFrame (world : World σ) (index : Nat) (frame : Frame) : World σ :=
  { world with frames := Function.update world.frames index frame }

def World.setStats (world : World σ) (stats : MMStats) : World σ := { world with stats := stats }

def World.record (world : World σ) (event : Event) : World σ :=
  { world with log := world.log ++ [event] }

def World.policyState (world : World σ) : PolicyState σ :=
  ⟨world.heap, world.frames, world.links, world.own⟩

def World.setPolicyState (world : World σ) (state : PolicyState σ) : World σ :=
  { world with heap := state.heap, frames := state.frames, links := state.links, own := state.own }

def onHeap (part : Exec Heap α) : Exec (World σ) α := onPart World.heap World.setHeap part

def onStorage (part : Exec Storage α) : Exec (World σ) α :=
  onPart World.storage World.setStorage part

/-- Call a function of the policy and log how it came out. -/
def callPolicy (event : Option α → Event) (part : Exec (PolicyState σ) α) : Exec (World σ) α :=
  fun world =>
    match part.run world.policyState with
    | .ok value state => .ok value ((world.setPolicyState state).record (event (some value)))
    | .error fault state => .error fault ((world.setPolicyState state).record (event none))

end Parts

variable {σ : Type} (env : Env)

/-! ## The coremap -/

/-- `coremap->frames[index]` -/
def readFrame (index : Nat) : Exec (World σ) Frame := do
  require (index < env.memsize) .outOfBounds
  let world ← get
  pure (world.frames index)

/-- `CSC369_CoremapGetFrame`; a frame is named by its index. -/
def coremapGetFrame (frameNumber : Nat) : Exec (World σ) Nat := do
  require (frameNumber < env.memsize) (.failed .frameNumberInRange)
  pure frameNumber

/-- The loop of `FindFreeFrame`, over `count` frames from `i` on. -/
def findFreeFrom (frames : Nat → Frame) : (i count : Nat) → Option Nat
  | _, 0 => none
  | i, count + 1 => if (frames i).free then some i else findFreeFrom frames (i + 1) count

/-- `FindFreeFrame`. -/
def findFreeFrame : Exec (World σ) (Option Nat) := do
  let world ← get
  pure (findFreeFrom world.frames 0 env.memsize)

/-- `CSC369_CoremapClearFrame`. -/
def coremapClearFrame (frameNumber : Nat) : Exec (World σ) Unit := do
  require (frameNumber < env.memsize) (.failed .frameNumberInRange)
  onStorage (modify fun storage =>
    { storage with
      physmem := overwrite storage.physmem (frameNumber * simulatedFrameSize)
        simulatedFrameSize fun _ => 0 })

section Allocate
variable (policy : Policy) (handleEviction : Option Addr → Exec (World policy.State) Unit)

/-- The branch of `CSC369_CoremapAllocateFrame` without a free frame;
`handleEviction` is `CSC369_MMHandleEviction`. -/
def coremapEvictFrame : Exec (World policy.State) Nat := do
  let frameNumber ← callPolicy Event.evicted (policy.evict env.memsize)
  let frame ← readFrame env frameNumber
  require frame.pte.isSome (.failed .victimNotNull)
  handleEviction frame.pte
  pure frameNumber

/-- The frame found, or one that is made available. -/
def coremapObtainFrame : (found : Option Nat) → Exec (World policy.State) Nat
  | some frameNumber => pure frameNumber
  | none => coremapEvictFrame env policy handleEviction

/-- `CSC369_CoremapAllocateFrame`. -/
def coremapAllocateFrame (pte : Option Addr) : Exec (World policy.State) Nat := do
  require pte.isSome (.failed .allocatePteNotNull)
  let found ← findFreeFrame env
  let frameNumber ← coremapObtainFrame env policy handleEviction found
  modify fun world => world.setFrame frameNumber ⟨false, pte⟩
  pure frameNumber

end Allocate

end MemSim
