import MemSim.MM

/-!
# Simulations

`csc369_simulation.c`: creating a simulation and executing accesses.
-/

set_option autoImplicit false

namespace MemSim

open Exec

/-- What outlives a simulation: the heap with its tracker, the static list
heads, the policy's statics, the counters, and the system calls made. -/
structure Process (σ : Type) where
  heap : Heap
  heads : Entries EntryAddr
  own : σ
  stats : MMStats
  errno : Nat
  calls : Nat

/-- The state of a process that has run no simulation yet. -/
def Process.fresh (policy : Policy) : Process policy.State where
  heap := Heap.empty
  heads := ⟨fun addr => addr = .a1 ∨ addr = .am, fun _ => none, fun _ => none⟩
  own := policy.fresh
  stats := MMStats.zero
  errno := 0
  calls := 0

variable (env : Env)

/-- The list entries once a coremap has been allocated: those of its frames are
zeroed, and other memory is as before. -/
def coremapLinks (heads : Entries EntryAddr) : Entries EntryAddr where
  mapped := fun addr =>
    match addr with
    | .frame index => index < env.memsize
    | other => heads.mapped other
  next := fun addr =>
    match addr with
    | .frame _ => none
    | other => heads.next other
  prev := fun addr =>
    match addr with
    | .frame _ => none
    | other => heads.prev other

variable (policy : Policy)

/-- `CSC369_SimulationCreate`, less the trace file: `none` when a request for
memory is refused. -/
def simulationCreate (process : Process policy.State) (swapSize : Nat) :
    Except Fault (Option (World policy.State)) := do
  -- the simulation struct and physical memory
  if !(env.calloc 1 48 && env.calloc env.memsize simulatedFrameSize) then return none
  match ← swapCreate env swapSize with
  | none => return none
  | some swapmap =>
      -- the coremap struct and its frames
      if !(env.calloc 1 24 && env.calloc env.memsize 32) then return none
      match (mmCreate env).run process.heap with
      | .error fault _ => throw fault
      | .ok none _ => return none
      | .ok (some (mm, pageTable)) heap =>
          let state : PolicyState policy.State :=
            { heap := heap
              frames := fun _ => ⟨true, none⟩
              links := coremapLinks env process.heads
              own := process.own }
          match policy.init.run state with
          | .error fault _ => throw fault
          | .ok () state =>
              return some
                { heap := state.heap
                  mm := mm
                  pageTable := some pageTable
                  frames := state.frames
                  links := state.links
                  own := state.own
                  storage :=
                    { physmem := fun _ => 0
                      swapmap := swapmap
                      file := SwapFile.empty
                      errno := process.errno
                      calls := process.calls }
                  stats := process.stats
                  log := [] }

/-- The translation of an access in `ExecuteMemInstruction`, reported to the
policy. -/
def translateWith (pageIn : Nat → Int → Exec Storage Int)
    (handleEviction : Option Addr → Exec (World policy.State) Unit) (access : MemAccess) :
    Exec (World policy.State) Nat := do
  let frameNumber ← mmGetFrameNumberWith env policy pageIn handleEviction access
  let frame ← coremapGetFrame env frameNumber
  callPolicy (fun result => .referenced frame result.isSome) (policy.onRef env.memsize frame)
  pure frameNumber

def translate : MemAccess → Exec (World policy.State) Nat :=
  translateWith env policy (swapPageIn env) (mmHandleEviction env)

/-- The index of `*phys_addr` in `physmem`.  The first product cannot wrap, as
all of physical memory was allocated; the offset is computed in `off_t`. -/
def physIndex (frameNumber virtualAddress : Nat) : Int :=
  (frameNumber * simulatedFrameSize : Nat) + Int.tmod (toOffT virtualAddress) pageSize

/-- The access itself in `ExecuteMemInstruction`: the byte found, for an access
that reads. -/
def accessMemory (frameNumber : Nat) (access : MemAccess) :
    Exec (World policy.State) (Option UInt8) := do
  let index := physIndex frameNumber access.virtualAddress
  require (0 ≤ index ∧ index < (env.memsize * simulatedFrameSize : Nat)) .outOfBounds
  if access.type.isWrite then
    onStorage (modify fun storage =>
      { storage with physmem := Function.update storage.physmem index.toNat access.value })
    pure none
  else
    let world ← get
    pure (some (world.storage.physmem index.toNat))

def executeMemInstructionWith (pageIn : Nat → Int → Exec Storage Int)
    (handleEviction : Option Addr → Exec (World policy.State) Unit) (access : MemAccess) :
    Exec (World policy.State) (Option UInt8) := do
  let frameNumber ← translateWith env policy pageIn handleEviction access
  accessMemory env policy frameNumber access

/-- `ExecuteMemInstruction`.  The source compares the byte found with the value
in the trace and logs a difference. -/
def executeMemInstruction : MemAccess → Exec (World policy.State) (Option UInt8) :=
  executeMemInstructionWith env policy (swapPageIn env) (mmHandleEviction env)

end MemSim
