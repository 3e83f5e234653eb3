import MemSim.Coremap

/-!
# The memory manager

`csc369_mm.c`: translating an access to a frame number, and writing an evicted
page to swap.
-/

set_option autoImplicit false

namespace MemSim

open Exec

variable {σ : Type} (env : Env)

/-- `sizeof(CSC369_MM)` -/
def sizeofMM : Nat := 32

/-- `CSC369_MMCreate`: the manager's block and its page table. -/
def mmCreate : Exec Heap (Option (Addr × Addr)) :=
  whenSome (onTracker (csc369Malloc env sizeofMM)) fun mm =>
    whenSome (pageTableCreate env) fun pageTable => pure (some (mm, pageTable))

/-- `CSC369_MMDestroy`; `depth` bounds the recursion over the page tables. -/
def mmDestroy (depth : Nat) (mm : Addr) (pageTable : Option Addr) : Exec Heap Unit := do
  pageTableDestroy depth pageTable
  heapFree (some mm)

def countClean (stats : MMStats) : MMStats :=
  { stats with evictCleanCount := increment32 stats.evictCleanCount }

def countDirty (stats : MMStats) : MMStats :=
  { stats with evictDirtyCount := increment32 stats.evictDirtyCount }

def countEviction (dirty : Bool) : MMStats → MMStats := if dirty then countDirty else countClean

def countMiss (stats : MMStats) : MMStats :=
  { stats with missCount := increment32 stats.missCount }

def countHit (stats : MMStats) : MMStats :=
  { stats with hitCount := increment32 stats.hitCount }

def countRef (stats : MMStats) : MMStats :=
  { stats with refCount := increment32 stats.refCount }

def count (change : MMStats → MMStats) : Exec (World σ) Unit :=
  modify fun world => world.setStats (change world.stats)

/-- `CSC369_MMHandleEviction`, given the page-out. -/
def mmHandleEvictionWith (pageOut : Nat → Int → Exec Storage Int) (victim : Option Addr) :
    Exec (World σ) Unit := do
  require victim.isSome (.failed .victimNotNull)
  let dirty ← onHeap (pteIsDirty victim)
  count (countEviction dirty)
  let frameNumber ← onHeap (pteGetFrameNumber victim)
  let swapOffset ← onHeap (pteGetSwapOffset victim)
  -- `before`, `entry`, `after` and `entryAfter` are for the log only
  let before ← get
  let entry ← onHeap (readPte victim)
  let offset ← onStorage (pageOut frameNumber swapOffset)
  onHeap (pteSetDirty victim false)
  onHeap (pteSetValid victim false)
  onHeap (pteSetOnSwap victim true)
  onHeap (pteSetSwapOffset victim offset)
  let after ← get
  let entryAfter ← onHeap (readPte victim)
  modify fun world => world.record (.handled
    { victim := victim
      entry := entry
      storage := before.storage
      result := offset
      entryAfter := entryAfter
      storageAfter := after.storage
      ownerAfter := (after.frames frameNumber).pte })

/-- `CSC369_MMHandleEviction`. -/
def mmHandleEviction : Option Addr → Exec (World σ) Unit :=
  mmHandleEvictionWith (swapPageOut env)

/-- The branches of `CSC369_MMGetFrameNumber` on whether the page is on swap.
The result of the page-in is only logged. -/
def mmFillFrame (pageIn : Nat → Int → Exec Storage Int) (pte : Option Addr) (frameNumber : Nat)
    (onSwap : Bool) : Exec (World σ) Unit :=
  if !onSwap then do
    coremapClearFrame env frameNumber
    onHeap (pteSetDirty pte true)
  else do
    let swapOffset ← onHeap (pteGetSwapOffset pte)
    let _swapResult ← onStorage (pageIn frameNumber swapOffset)
    onHeap (pteSetOnSwap pte false)

section GetFrameNumber
variable (policy : Policy) (pageIn : Nat → Int → Exec Storage Int)
  (handleEviction : Option Addr → Exec (World policy.State) Unit)

/-- The branch of `CSC369_MMGetFrameNumber` for a page that is not in memory. -/
def mmMiss (pte : Option Addr) : Exec (World policy.State) Nat := do
  count countMiss
  let frameNumber ← coremapAllocateFrame env policy handleEviction pte
  onHeap (pteSetFrameNumber pte frameNumber)
  let onSwap ← onHeap (pteIsOnSwap pte)
  mmFillFrame env pageIn pte frameNumber onSwap
  onHeap (pteSetValid pte true)
  pure frameNumber

/-- The branch of `CSC369_MMGetFrameNumber` for a page in memory. -/
def mmHit (pte : Option Addr) : Exec (World σ) Nat := do
  count countHit
  onHeap (pteGetFrameNumber pte)

/-- The branches of `CSC369_MMGetFrameNumber` on the valid bit. -/
def mmFindFrame (pte : Option Addr) (valid : Bool) : Exec (World policy.State) Nat :=
  if !valid then mmMiss env policy pageIn handleEviction pte else mmHit pte

/-- `CSC369_MMGetFrameNumber`, given the page-in and what evicts a page. -/
def mmGetFrameNumberWith (access : MemAccess) : Exec (World policy.State) Nat := do
  let world ← get
  let pte ← onHeap (pageTableAllocate env world.pageTable access.virtualAddress)
  let valid ← onHeap (pteIsValid pte)
  let frameNumber ← mmFindFrame env policy pageIn handleEviction pte valid
  onlyIf access.type.isWrite (onHeap (pteSetDirty pte true))
  count countRef
  pure frameNumber

end GetFrameNumber

/-- `CSC369_MMGetFrameNumber`. -/
def mmGetFrameNumber (policy : Policy) : MemAccess → Exec (World policy.State) Nat :=
  mmGetFrameNumberWith env policy (swapPageIn env) (mmHandleEviction env)

end MemSim
