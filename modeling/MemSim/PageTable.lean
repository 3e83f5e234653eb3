import MemSim.KMalloc

/-!
# Page tables

`csc369_page_table.c`: page table entries, their accessors, and the
three-level page table.  A directory entry and a leaf entry share one struct; a
directory entry points to the table of the next level.  A table owns an array
of 4096 pointers to entries.  Objects live in a heap keyed by the address
`CSC369_malloc` returned for them; a read through `NULL`, through a pointer to
no such object, or past the end of an array stops the run.
-/

set_option autoImplicit false

namespace MemSim

open Exec

structure PTE where
  frameNumber : Nat
  swapOffset : Int
  valid : Bool
  dirty : Bool
  reference : Bool
  onSwap : Bool
  /-- pointer to lower level page table if pte is in a page directory -/
  pageTable : Option Addr
  deriving DecidableEq, Repr

/-- The fields `CSC369_PTECreate` sets. -/
def PTE.initial : PTE := ⟨0, -1, false, false, false, false, none⟩

/-- The objects allocated with `CSC369_malloc`: page table entries, page
tables (each holding the address of its array), and the arrays. -/
structure Heap where
  pte : Addr → Option PTE
  table : Addr → Option Addr
  ptes : Addr → Option (Nat → Option Addr)
  tracker : Tracker

def Heap.empty : Heap := ⟨fun _ => none, fun _ => none, fun _ => none, Tracker.init⟩

def Heap.setPte (heap : Heap) (addr : Addr) (entry : PTE) : Heap :=
  { heap with pte := Function.update heap.pte addr (some entry) }

def Heap.setTable (heap : Heap) (addr ptes : Addr) : Heap :=
  { heap with table := Function.update heap.table addr (some ptes) }

def Heap.setPtes (heap : Heap) (addr : Addr) (slots : Nat → Option Addr) : Heap :=
  { heap with ptes := Function.update heap.ptes addr (some slots) }

def Heap.setTracker (heap : Heap) (tracker : Tracker) : Heap :=
  { heap with tracker := tracker }

/-- What `free` does to the object at an address: it is gone. -/
def Heap.erase (heap : Heap) (addr : Addr) : Heap :=
  { heap with
    pte := Function.update heap.pte addr none
    table := Function.update heap.table addr none
    ptes := Function.update heap.ptes addr none }

/-- `sizeof` of the structs on the LP64 platforms the program is built for. -/
def sizeofPte : Nat := 32
def sizeofPageTable : Nat := 8
def sizeofPointer : Nat := 8

/-- Entries of one table, `1 << (CSC369_VADDR_PAGE_NUMBER_BITS / 3)`. -/
def ptesCount : Nat := 1 <<< (vaddrPageNumberBits / 3)

@[simp] theorem ptesCount_eq : ptesCount = 4096 := rfl

/-- The request for the array of one table. -/
def sizeofPtes : Nat := sizeofPointer * ptesCount

theorem sizeofPtes_lt : sizeofPtes < 2 ^ 63 := by
  simp [sizeofPtes, sizeofPointer]

def onTracker {α : Type} (part : Exec Tracker α) : Exec Heap α :=
  onPart Heap.tracker Heap.setTracker part

/-! ## Reads and writes through pointers -/

def readPte : Option Addr → Exec Heap PTE
  | none => stop .nullPointer
  | some addr => do
      match (← get).pte addr with
      | none => stop .wildPointer
      | some entry => pure entry

def writePte (pte : Option Addr) (change : PTE → PTE) : Exec Heap Unit := do
  let entry ← readPte pte
  match pte with
  | none => pure ()
  | some addr => modify fun heap => heap.setPte addr (change entry)

/-- `page_table->ptes` -/
def readTable : Option Addr → Exec Heap Addr
  | none => stop .nullPointer
  | some addr => do
      match (← get).table addr with
      | none => stop .wildPointer
      | some ptes => pure ptes

/-- The array at `ptes`, if `index` lies inside it. -/
def readArray (ptes : Addr) (index : Nat) : Exec Heap (Nat → Option Addr) := do
  match (← get).ptes ptes with
  | none => stop .wildPointer
  | some slots => do
      require (index < ptesCount) .outOfBounds
      pure slots

/-- `page_table->ptes[index]` -/
def readEntry (pageTable : Option Addr) (index : Nat) : Exec Heap (Option Addr) := do
  let ptes ← readTable pageTable
  let slots ← readArray ptes index
  pure (slots index)

/-- `page_table->ptes[index] = pte` -/
def writeEntry (pageTable : Option Addr) (index : Nat) (pte : Option Addr) :
    Exec Heap Unit := do
  let ptes ← readTable pageTable
  let slots ← readArray ptes index
  modify fun heap => heap.setPtes ptes (Function.update slots index pte)

/-- `pte->page_table` -/
def readChild (pte : Option Addr) : Exec Heap (Option Addr) := do
  let entry ← readPte pte
  pure entry.pageTable

/-- `pte->page_table = page_table` -/
def writeChild (pte pageTable : Option Addr) : Exec Heap Unit :=
  writePte pte fun entry => { entry with pageTable := pageTable }

/-! ## Page table entries -/

/-- The getters: `assert(pte != NULL); return pte->field;` -/
def pteGet {α : Type} (field : PTE → α) (pte : Option Addr) : Exec Heap α := do
  require pte.isSome (.failed .pteNotNull)
  let entry ← readPte pte
  pure (field entry)

/-- The setters: `assert(pte != NULL); pte->field = value;` -/
def pteSet (change : PTE → PTE) (pte : Option Addr) : Exec Heap Unit := do
  require pte.isSome (.failed .pteNotNull)
  writePte pte change

def pteIsValid : Option Addr → Exec Heap Bool := pteGet PTE.valid
def pteIsDirty : Option Addr → Exec Heap Bool := pteGet PTE.dirty
def pteIsReferenced : Option Addr → Exec Heap Bool := pteGet PTE.reference
def pteIsOnSwap : Option Addr → Exec Heap Bool := pteGet PTE.onSwap
def pteGetFrameNumber : Option Addr → Exec Heap Nat := pteGet PTE.frameNumber
def pteGetSwapOffset : Option Addr → Exec Heap Int := pteGet PTE.swapOffset

def pteSetValid (pte : Option Addr) (value : Bool) : Exec Heap Unit :=
  pteSet (fun entry => { entry with valid := value }) pte
def pteSetDirty (pte : Option Addr) (value : Bool) : Exec Heap Unit :=
  pteSet (fun entry => { entry with dirty := value }) pte
def pteSetReferenced (pte : Option Addr) (value : Bool) : Exec Heap Unit :=
  pteSet (fun entry => { entry with reference := value }) pte
def pteSetOnSwap (pte : Option Addr) (value : Bool) : Exec Heap Unit :=
  pteSet (fun entry => { entry with onSwap := value }) pte
def pteSetFrameNumber (pte : Option Addr) (frameNumber : Nat) : Exec Heap Unit :=
  pteSet (fun entry => { entry with frameNumber := frameNumber }) pte
def pteSetSwapOffset (pte : Option Addr) (swapOffset : Int) : Exec Heap Unit :=
  pteSet (fun entry => { entry with swapOffset := swapOffset }) pte

variable (env : Env)

/-- `CSC369_PTECreate`. -/
def pteCreate : Exec Heap (Option Addr) :=
  whenSome (onTracker (csc369Malloc env sizeofPte)) fun pte => do
    modify fun heap => heap.setPte pte PTE.initial
    pure (some pte)

/-- `CSC369_free` on the heap. -/
def heapFree (ptr : Option Addr) : Exec Heap Unit := do
  onTracker (csc369Free ptr)
  match ptr with
  | none => pure ()
  | some addr => modify fun heap => heap.erase addr

/-! ## Page tables -/

/-- `CSC369_PageTableCreate`. -/
def pageTableCreate : Exec Heap (Option Addr) :=
  whenSome (onTracker (csc369Malloc env sizeofPageTable)) fun pageTable =>
    whenSome (onTracker (csc369Malloc env sizeofPtes)) fun ptes => do
      modify fun heap => heap.setPtes ptes fun _ => none
      modify fun heap => heap.setTable pageTable ptes
      pure (some pageTable)

/-- `CSC369_PTEDestroy`, given the function that destroys a table. -/
def pteDestroy (tableDestroy : Option Addr → Exec Heap Unit) (pte : Option Addr) :
    Exec Heap Unit := do
  let pageTable ← readChild pte
  if pageTable.isSome then
    tableDestroy pageTable
  heapFree pte

/-- `CSC369_PageTableDestroy`.  It and `CSC369_PTEDestroy` call each other;
`depth` bounds how deep. -/
def pageTableDestroy : (depth : Nat) → Option Addr → Exec Heap Unit
  | 0, _ => stop .outOfFuel
  | depth + 1, pageTable => do
      require pageTable.isSome (.failed .pageTableNotNull)
      forRange (fun index => do
        let pte ← readEntry pageTable index
        if pte.isSome then
          pteDestroy (pageTableDestroy depth) pte) 0 ptesCount
      let ptes ← readTable pageTable
      heapFree (some ptes)
      heapFree pageTable

/-- `CSC369_PageTableSearch`. -/
def pageTableSearch (pageTable : Option Addr) (virtualAddress : Nat) :
    Exec Heap (Option Addr) := do
  require pageTable.isSome (.failed .pageTableNotNull)
  -- level 1
  let pageNumber1 := virtualAddress / 2 ^ 36
  let pte1 ← readEntry pageTable pageNumber1
  if pte1.isNone then return none
  -- level 2
  let pageNumber2 := virtualAddress / 2 ^ 24 % 2 ^ 12
  let pageTable2 ← readChild pte1
  if pageTable2.isNone then return none
  let pte2 ← readEntry pageTable2 pageNumber2
  if pte2.isNone then return none
  -- level 3; the source takes this index modulo 2^24
  let pageNumber3 := virtualAddress / 2 ^ 12 % 2 ^ 24
  let pageTable3 ← readChild pte2
  if pageTable3.isNone then return none
  let pte3 ← readEntry pageTable3 pageNumber3
  if pte3.isNone then return none
  readEntry pageTable3 pageNumber3

/-- One level of `CSC369_PageTableAllocate`: the entry at `index`, created if the
slot is `NULL`. -/
def ensurePte (pageTable : Option Addr) (index : Nat) : Exec Heap (Option Addr) := do
  if (← readEntry pageTable index).isNone then
    let pte ← pteCreate env
    writeEntry pageTable index pte
  readEntry pageTable index

/-- The table below a directory entry, created if there is none yet. -/
def ensureTable (pte : Option Addr) : Exec Heap (Option Addr) := do
  if (← readChild pte).isNone then
    let pageTable ← pageTableCreate env
    writeChild pte pageTable
  readChild pte

def allocateIndex1 (virtualAddress : Nat) : Nat := virtualAddress / 2 ^ 36
def allocateIndex2 (virtualAddress : Nat) : Nat := virtualAddress / 2 ^ 24 % 2 ^ 12
def allocateIndex3 (virtualAddress : Nat) : Nat := virtualAddress / 2 ^ 12 % 2 ^ 12

/-- `CSC369_PageTableAllocate`. -/
def pageTableAllocate (pageTable : Option Addr) (virtualAddress : Nat) :
    Exec Heap (Option Addr) := do
  require pageTable.isSome (.failed .pageTableNotNull)
  let pte1 ← ensurePte env pageTable (allocateIndex1 virtualAddress)
  let pageTable2 ← ensureTable env pte1
  let pte2 ← ensurePte env pageTable2 (allocateIndex2 virtualAddress)
  let pageTable3 ← ensureTable env pte2
  ensurePte env pageTable3 (allocateIndex3 virtualAddress)

end MemSim
