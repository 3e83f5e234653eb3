import MemSim.Def

/-!
# The allocation tracker

`csc369_kmalloc.c`: a budget of 2 GiB over the whole life of the process, four
counters, and a map from every address ever returned to the size requested for
it, with the top bit marking a block that has been freed.
-/

set_option autoImplicit false

namespace MemSim

open Exec

/-- One call of `CSC369_malloc` or `CSC369_free`. -/
inductive AllocEvent where
  | malloc (size : Nat) (result : Option Addr)
  | free (ptr : Option Addr)
  deriving DecidableEq, Repr

/-- The statics of `csc369_kmalloc.c`.  `log` records the calls made so far; no
code reads it. -/
structure Tracker where
  numMallocs : Int
  numFrees : Int
  bytesMalloced : Int
  bytesFreed : Int
  mallocMap : Addr → Option (BitVec 64)
  log : List AllocEvent

/-- 1 GB, signed long type. -/
def kmallocGb : Nat := 1024 * 1024 * 1024

/-- Maximum dynamically allocated memory. -/
def kmallocMax : Nat := 2 * kmallocGb

/-- If set, ptr has been freed already. -/
def freedBit : BitVec 64 := 0x8000000000000000#64

/-- The state `CSC369_MallocInit` establishes. -/
def Tracker.init : Tracker := ⟨0, 0, 0, 0, fun _ => none, []⟩

def Tracker.live (tracker : Tracker) (addr : Addr) : Bool :=
  match tracker.mallocMap addr with
  | some size => size &&& freedBit == 0#64
  | none => false

/-- A request that was answered with `NULL`. -/
def AllocEvent.refused : AllocEvent → Bool
  | .malloc _ none => true
  | _ => false

def AllocationsSucceed (log : List AllocEvent) : Prop :=
  ∀ event ∈ log, event.refused = false

instance (log : List AllocEvent) : Decidable (AllocationsSucceed log) :=
  inferInstanceAs (Decidable (∀ event ∈ log, event.refused = false))

variable (env : Env)

/-- What `CSC369_malloc` answers: `NULL` for a request that is too large or
would exceed the budget, otherwise what the underlying `malloc` says. -/
def mallocAnswer (tracker : Tracker) (size : Nat) : Option Addr :=
  if kmallocMax ≤ size then none
  else if kmallocMax < tracker.bytesMalloced.toNat + size then none
  else env.malloc tracker.live tracker.log.length size

/-- The accounting of one request.  Nothing allocated, nothing to track. -/
def Tracker.record (tracker : Tracker) (size : Nat) : Option Addr → Tracker
  | none => { tracker with log := tracker.log ++ [.malloc size none] }
  | some m =>
      { tracker with
        numMallocs := tracker.numMallocs + 1
        bytesMalloced := tracker.bytesMalloced + size
        mallocMap := Function.update tracker.mallocMap m (some (BitVec.ofNat 64 size))
        log := tracker.log ++ [.malloc size (some m)] }

/-- `CSC369_malloc`. -/
def csc369Malloc (size : Nat) : Exec Tracker (Option Addr) := do
  let tracker ← get
  let m := mallocAnswer env tracker size
  set (tracker.record size m)
  pure m

/-- `CSC369_free`.  `free` of a pointer that is not a live block aborts. -/
def csc369Free (ptr : Option Addr) : Exec Tracker Unit := do
  modify fun t => { t with log := t.log ++ [.free ptr] }
  match ptr with
  | none => pure ()
  | some p => do
      let tracker ← get
      match tracker.mallocMap p with
      | none => stop .badFree
      | some size => do
          require (size &&& freedBit == 0#64) .badFree
          require (size ≠ 0#64) (.failed .blockSize)
          require (size.toNat < 2 ^ 63 - 1) (.failed .blockSize)
          require (0 < tracker.numMallocs - tracker.numFrees) (.failed .mallocCount)
          modify fun t => { t with numFrees := t.numFrees + 1 }
          require (size.toNat ≤ tracker.bytesMalloced - tracker.bytesFreed)
            (.failed .mallocBytes)
          modify fun t =>
            { t with
              bytesFreed := t.bytesFreed + size.toNat
              mallocMap := Function.update t.mallocMap p (some (size ||| freedBit)) }

/-- `CSC369_MallocCurrentBytes`. -/
def mallocCurrentBytes : Exec Tracker Int := do
  let tracker ← get
  require (tracker.bytesFreed ≤ tracker.bytesMalloced) (.failed .mallocBytes)
  pure (tracker.bytesMalloced - tracker.bytesFreed)

/-- `CSC369_MallocCurrentCount`. -/
def mallocCurrentCount : Exec Tracker Int := do
  let tracker ← get
  require (tracker.numFrees ≤ tracker.numMallocs) (.failed .mallocCount)
  pure (tracker.numMallocs - tracker.numFrees)

/-- `CSC369_MallocIsLeakFree`, given the two amounts. -/
def leakFreeWith {ε σ : Type} (currentBytes currentCount : EStateM ε σ Int)
    (numMallocsTol numBytesTol : Int) : EStateM ε σ Bool := do
  if (← currentBytes) > numBytesTol then return false
  if (← currentCount) > numMallocsTol then return false
  return true

/-- `CSC369_MallocIsLeakFree`. -/
def mallocIsLeakFree (numMallocsTol numBytesTol : Int) : Exec Tracker Bool :=
  leakFreeWith mallocCurrentBytes mallocCurrentCount numMallocsTol numBytesTol

theorem run_leakFreeWith {ε σ : Type} {currentBytes currentCount : EStateM ε σ Int} {state : σ}
    {bytes count : Int} (sized : currentBytes.run state = .ok bytes state)
    (counted : currentCount.run state = .ok count state) (numMallocsTol numBytesTol : Int) :
    (leakFreeWith currentBytes currentCount numMallocsTol numBytesTol).run state =
      .ok (decide (bytes ≤ numBytesTol ∧ count ≤ numMallocsTol)) state := by
  rw [leakFreeWith, run_bind_of_ok sized]
  by_cases many : bytes > numBytesTol
  · rw [if_pos many, decide_eq_false (by omega)]
    rfl
  · rw [if_neg many, run_bind_of_ok counted]
    by_cases more : count > numMallocsTol
    · rw [if_pos more, decide_eq_false (by omega)]
      rfl
    · rw [if_neg more, decide_eq_true (by omega)]
      rfl

/-! ## What one request does -/

theorem run_csc369Malloc (tracker : Tracker) (size : Nat) :
    (csc369Malloc env size).run tracker =
      .ok (mallocAnswer env tracker size)
        (tracker.record size (mallocAnswer env tracker size)) := by
  simp only [csc369Malloc, EStateM.run_bind, EStateM.run_get, EStateM.run_set, EStateM.run_pure]

@[simp] theorem Tracker.log_record (tracker : Tracker) (size : Nat) (result : Option Addr) :
    (tracker.record size result).log = tracker.log ++ [.malloc size result] := by
  cases result <;> rfl

theorem mallocAnswer_eq_some {tracker : Tracker} {size : Nat} {m : Addr}
    (answer : mallocAnswer env tracker size = some m) :
    size < kmallocMax ∧ tracker.live m = false := by
  unfold mallocAnswer at answer
  split at answer
  · contradiction
  · rename_i small
    split at answer
    · contradiction
    · exact ⟨Nat.lt_of_not_le small, env.malloc_fresh _ _ _ _ answer⟩

theorem size_not_freed {size : Nat} (small : size < 2 ^ 63) :
    BitVec.ofNat 64 size &&& freedBit = 0#64 := by
  have bit : freedBit = BitVec.twoPow 64 63 := by decide
  have clear : (BitVec.ofNat 64 size).getLsbD 63 = false := by
    rw [BitVec.getLsbD_ofNat, Nat.testBit_lt_two_pow small]
    simp
  rw [bit, BitVec.and_twoPow, clear]
  rfl

theorem Tracker.live_record_some {tracker : Tracker} {size : Nat} (m : Addr)
    (small : size < 2 ^ 63) :
    (tracker.record size (some m)).live = Function.update tracker.live m true := by
  funext addr
  by_cases same : addr = m
  · subst same
    simp [Tracker.live, Tracker.record, size_not_freed small]
  · simp [Tracker.live, Tracker.record, Function.update_of_ne same]

@[simp] theorem Tracker.live_record_none (tracker : Tracker) (size : Nat) :
    (tracker.record size none).live = tracker.live := rfl

theorem allocationsSucceed_nil : AllocationsSucceed [] := by
  simp [AllocationsSucceed]

theorem allocationsSucceed_append {first second : List AllocEvent} :
    AllocationsSucceed (first ++ second) ↔
      AllocationsSucceed first ∧ AllocationsSucceed second := by
  simp only [AllocationsSucceed, List.mem_append]
  constructor
  · intro all
    exact ⟨fun event member => all event (.inl member), fun event member => all event (.inr member)⟩
  · rintro ⟨left, right⟩ event (member | member)
    · exact left event member
    · exact right event member

theorem allocationsSucceed_singleton {size : Nat} {result : Option Addr} :
    AllocationsSucceed [.malloc size result] ↔ result ≠ none := by
  cases result <;> simp [AllocationsSucceed, AllocEvent.refused]

/-! ## Several requests -/

def Tracker.grant (tracker : Tracker) (sizes : List Nat) : Tracker :=
  sizes.foldl (fun tracker size => tracker.record size (mallocAnswer env tracker size)) tracker

def Granted : Tracker → List Nat → Prop
  | _, [] => True
  | tracker, size :: sizes =>
      (mallocAnswer env tracker size).isSome ∧
        Granted (tracker.record size (mallocAnswer env tracker size)) sizes

theorem granted_append {tracker : Tracker} {first second : List Nat} :
    Granted env tracker (first ++ second) ↔
      Granted env tracker first ∧ Granted env (tracker.grant env first) second := by
  induction first generalizing tracker with
  | nil => simp [Granted, Tracker.grant]
  | cons size sizes ih =>
      simp only [List.cons_append, Granted, ih, and_assoc]
      rfl

theorem Tracker.grant_append (tracker : Tracker) (first second : List Nat) :
    tracker.grant env (first ++ second) = (tracker.grant env first).grant env second :=
  List.foldl_append

end MemSim
