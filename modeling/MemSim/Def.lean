import MemSim.Exec

/-!
# Common definitions

The constants and plain data types of `csc369_def.h`, the ways in which the
program can stop, and the environment it runs in.  Unsigned machine integers
are natural numbers; where the source lets one wrap, the definition says so
with an explicit remainder.
-/

set_option autoImplicit false

namespace MemSim

/-- Virtual addresses are 48 bits. -/
def vaddrBits : Nat := 48

/-- The least significant 12 bits are for the offset. -/
def vaddrOffsetBits : Nat := 12

def vaddrPageNumberBits : Nat := 36

/-- The size of a page (and frame), in bytes. -/
def pageSize : Nat := 1 <<< vaddrOffsetBits

/-- The size of a simulated frame, in bytes. -/
def simulatedFrameSize : Nat := 16

@[simp] theorem pageSize_eq : pageSize = 4096 := rfl

@[simp] theorem simulatedFrameSize_eq : simulatedFrameSize = 16 := rfl

inductive AccessType where
  | store
  | modify
  | load
  | instructionFetch
  deriving DecidableEq, Repr

/-- The two access types that write the page. -/
def AccessType.isWrite : AccessType → Bool
  | .store => true
  | .modify => true
  | .load => false
  | .instructionFetch => false

structure MemAccess where
  type : AccessType
  virtualAddress : Nat
  value : UInt8
  deriving DecidableEq, Repr

def pageNumber (virtualAddress : Nat) : Nat := virtualAddress / pageSize

def MemAccess.page (access : MemAccess) : Nat := pageNumber access.virtualAddress

/-- The counters are `uint32_t`. -/
structure MMStats where
  refCount : Nat
  hitCount : Nat
  missCount : Nat
  evictCleanCount : Nat
  evictDirtyCount : Nat
  deriving DecidableEq, Repr

def MMStats.zero : MMStats := ⟨0, 0, 0, 0, 0⟩

/-- `counter += 1` on a `uint32_t`. -/
def increment32 (counter : Nat) : Nat := (counter + 1) % 2 ^ 32

/-- Conversion of an unsigned 64-bit value to `off_t`. -/
def toOffT (value : Nat) : Int := Int.bmod value (2 ^ 64)

/-- Addresses of blocks handed out by `malloc`; `NULL` is `none` in an
`Option Addr`. -/
abbrev Addr := Nat

/-- The assertions of the source that the model can fail. -/
inductive Assertion where
  | pageTableNotNull
  | pteNotNull
  | allocatePteNotNull
  | victimNotNull
  | frameNumberInRange
  | frameInUse
  | pageInOffset
  | pageOutOffset
  | seekPosition
  | overbits
  | bitIndex
  | wordNotFull
  | blockSize
  | mallocCount
  | mallocBytes
  deriving DecidableEq, Repr

/-- The ways the program can stop before it returns.  `nullPointer`,
`wildPointer` and `outOfBounds` are undefined behaviour in C; the model stops
there.  `outOfFuel` marks a loop that did not end within the bound its
definition gives. -/
inductive Fault where
  | nullPointer
  | wildPointer
  | outOfBounds
  | badFree
  | failed (assertion : Assertion)
  | outOfFuel
  deriving DecidableEq, Repr

/-- A computation of the program on a state of type `σ`. -/
abbrev Exec (σ : Type) : Type → Type := EStateM Fault σ

/-- What one system call on the swap file does.  A read or write that succeeds
transfers all the bytes there are room or data for; a short one transfers at
most `count` bytes; a failure transfers nothing and sets `errno`, which is never
zero then. -/
inductive IoOutcome where
  | success
  | short (count : Nat)
  | failure (errno : Nat) (positive : 0 < errno)
  deriving DecidableEq

/-- The environment of one process: the memory size given on the command line
and the answers of the C library.  `malloc live request size` is the answer of
the underlying `malloc` to the request numbered `request`, when the blocks for
which `live` is true are allocated; it never hands out a block twice.
`calloc count size` tells whether `calloc` finds the memory, which it never does
when the product does not fit a `size_t`.  `io call` is the outcome of system
call number `call` on the swap file. -/
structure Env where
  memsize : Nat
  calloc : (count size : Nat) → Bool
  calloc_fits : ∀ count size, calloc count size = true → count * size < 2 ^ 64
  malloc : (live : Addr → Bool) → (request size : Nat) → Option Addr
  malloc_fresh : ∀ live request size addr,
    malloc live request size = some addr → live addr = false
  io : Nat → IoOutcome

/-- An allocator that never reuses an address and never runs out. -/
def bumpMalloc (live : Addr → Bool) (request _size : Nat) : Option Addr :=
  if live request then none else some request

theorem bumpMalloc_fresh (live : Addr → Bool) (request size : Nat) (addr : Addr)
    (answer : bumpMalloc live request size = some addr) : live addr = false := by
  unfold bumpMalloc at answer
  split at answer
  · contradiction
  · rename_i free
    cases Option.some.inj answer
    simpa using free

/-- A process in which every library call succeeds. -/
def Env.ideal (memsize : Nat) : Env where
  memsize := memsize
  calloc := fun count size => decide (count * size < 2 ^ 64)
  calloc_fits := by simp
  malloc := bumpMalloc
  malloc_fresh := bumpMalloc_fresh
  io := fun _ => .success

end MemSim
