import MemSim.KHashHistory
import MemSim.TrackerBooks

/-!
# The allocation tracker on its hash table

`csc369_kmalloc.c` keeps its map from addresses to sizes in a `khash` table.  Here
the table is the real one: it refines the tracker whose map is a function, so that
its books balance too, unless the table itself runs out of memory.
-/

set_option autoImplicit false

namespace MemSim

open Exec

/-! ## The model -/

/-- `kh_int64_hash_func`.  Addresses have 64 bits. -/
def khInt64HashFunc (key : Addr) : Nat :=
  let key := BitVec.ofNat 64 key
  (key >>> 33 ^^^ key ^^^ key <<< 11).toNat % 2 ^ 32

/-- The statics of `csc369_kmalloc.c`. -/
structure HashTracker where
  numMallocs : Int
  numFrees : Int
  bytesMalloced : Int
  bytesFreed : Int
  mallocMap : KHash Addr (BitVec 64)
  log : List AllocEvent

/-- The faults of the tracker, its assertion that `kh_put` did not fail, and the faults
of the table. -/
inductive TrackerFault where
  | stopped (fault : Fault)
  | putFailed
  | table (fault : HashFault)
  deriving DecidableEq, Repr

namespace HashTracker

/-- `CSC369_MallocInit` -/
def init : HashTracker := ⟨0, 0, 0, 0, KHash.init, []⟩

def live (tracker : HashTracker) (addr : Addr) : Bool :=
  match KHash.read khInt64HashFunc tracker.mallocMap addr with
  | .ok (some size) => size &&& freedBit == 0#64
  | _ => false

def onTable {α : Type} : Except HashFault α → EStateM TrackerFault HashTracker α
  | .ok value => pure value
  | .error fault => stop (.table fault)

variable (env : Env) (memory : Nat → HashMemory)

/-- What the budget and the underlying `malloc` say to a request. -/
def answer (tracker : HashTracker) (size : Nat) : Option Addr :=
  if kmallocMax ≤ size then none
  else if kmallocMax < tracker.bytesMalloced.toNat + size then none
  else env.malloc tracker.live tracker.log.length size

/-- `CSC369_malloc`.  `memory` answers the requests of the table. -/
def csc369Malloc (size : Nat) : EStateM TrackerFault HashTracker (Option Addr) := do
  let tracker ← get
  let result := tracker.answer env size
  modify fun t => { t with log := t.log ++ [.malloc size result] }
  match result with
  | none => pure none
  | some m => do
      modify fun t => { t with
        numMallocs := t.numMallocs + 1
        bytesMalloced := t.bytesMalloced + size }
      let k ← onTable (KHash.put khInt64HashFunc (memory tracker.log.length) tracker.mallocMap m)
      modify fun t => { t with mallocMap := k.table }
      require (0 ≤ k.ret) .putFailed
      let table ← onTable (k.table.setValue k.x (BitVec.ofNat 64 size))
      modify fun t => { t with mallocMap := table }
      pure (some m)

/-- `kh_value`, of a value that was written -/
def sizeAt (table : KHash Addr (BitVec 64)) (k : Nat) : Except HashFault (BitVec 64) := do
  match ← table.value k with
  | none => throw .indeterminate
  | some size => pure size

/-- `CSC369_free` -/
def csc369Free (ptr : Option Addr) : EStateM TrackerFault HashTracker Unit := do
  modify fun t => { t with log := t.log ++ [.free ptr] }
  match ptr with
  | none => pure ()
  | some p => do
      let tracker ← get
      let k ← onTable (tracker.mallocMap.get p khInt64HashFunc)
      -- free of a pointer that is not in the map aborts
      require (k ≠ tracker.mallocMap.nBuckets) (.stopped .badFree)
      let size ← onTable (sizeAt tracker.mallocMap k)
      require (size &&& freedBit == 0#64) (.stopped .badFree)
      require (size ≠ 0#64) (.stopped (.failed .blockSize))
      require (size.toNat < 2 ^ 63 - 1) (.stopped (.failed .blockSize))
      require (0 < tracker.numMallocs - tracker.numFrees) (.stopped (.failed .mallocCount))
      modify fun t => { t with numFrees := t.numFrees + 1 }
      require (size.toNat ≤ tracker.bytesMalloced - tracker.bytesFreed)
        (.stopped (.failed .mallocBytes))
      modify fun t => { t with bytesFreed := t.bytesFreed + size.toNat }
      let table ← onTable (tracker.mallocMap.setValue k (size ||| freedBit))
      modify fun t => { t with mallocMap := table }

/-- `CSC369_MallocCurrentBytes` -/
def mallocCurrentBytes : EStateM TrackerFault HashTracker Int := do
  let tracker ← get
  require (tracker.bytesFreed ≤ tracker.bytesMalloced) (.stopped (.failed .mallocBytes))
  pure (tracker.bytesMalloced - tracker.bytesFreed)

/-- `CSC369_MallocCurrentCount` -/
def mallocCurrentCount : EStateM TrackerFault HashTracker Int := do
  let tracker ← get
  require (tracker.numFrees ≤ tracker.numMallocs) (.stopped (.failed .mallocCount))
  pure (tracker.numMallocs - tracker.numFrees)

/-- `CSC369_MallocIsLeakFree` -/
def mallocIsLeakFree (numMallocsTol numBytesTol : Int) :
    EStateM TrackerFault HashTracker Bool :=
  leakFreeWith mallocCurrentBytes mallocCurrentCount numMallocsTol numBytesTol

/-! ## Refinement -/

/-- The tracker has the same counters and the same log, and its map is the one the
table holds.  `paid` bounds the entries of the table by the budget. -/
structure Refines (hashed : HashTracker) (tracker : Tracker) : Prop where
  numMallocs : hashed.numMallocs = tracker.numMallocs
  numFrees : hashed.numFrees = tracker.numFrees
  bytesMalloced : hashed.bytesMalloced = tracker.bytesMalloced
  bytesFreed : hashed.bytesFreed = tracker.bytesFreed
  log : hashed.log = tracker.log
  map : hashed.mallocMap.Represents khInt64HashFunc tracker.mallocMap
  entries : (hashed.mallocMap.size : Int) ≤ tracker.numMallocs
  paid : tracker.numMallocs ≤ tracker.bytesMalloced

section Refinement
variable {env : Env} {memory : Nat → HashMemory} {hashed : HashTracker} {tracker : Tracker}

theorem refines_init : init.Refines Tracker.init where
  numMallocs := rfl
  numFrees := rfl
  bytesMalloced := rfl
  bytesFreed := rfl
  log := rfl
  map := KHash.init_represents
  entries := Int.le_refl _
  paid := Int.le_refl _

theorem Refines.live (refines : hashed.Refines tracker) : hashed.live = tracker.live := by
  funext addr
  rw [HashTracker.live, refines.map.read_ok addr, Tracker.live]
  cases tracker.mallocMap addr <;> rfl

theorem Refines.answer (refines : hashed.Refines tracker) (size : Nat) :
    hashed.answer env size = mallocAnswer env tracker size := by
  rw [HashTracker.answer, mallocAnswer, refines.live, refines.bytesMalloced, refines.log]

@[simp] theorem run_onTable_ok {α : Type} (value : α) (state : HashTracker) :
    (onTable (.ok value)).run state = .ok value state := rfl

theorem Refines.few (refines : hashed.Refines tracker) {size : Nat} (positive : 1 ≤ size) {m : Addr}
    (answer : mallocAnswer env tracker size = some m) : hashed.mallocMap.size < 2 ^ 31 := by
  have entries := refines.entries
  have paid := refines.paid
  unfold mallocAnswer at answer
  split at answer
  · contradiction
  · split at answer
    · contradiction
    · rename_i fits
      have budget : kmallocMax = 2 ^ 31 := by decide
      rw [budget] at fits
      omega

theorem Refines.csc369Malloc_ok (refines : hashed.Refines tracker) {size : Nat}
    (positive : 1 ≤ size) :
    (∃ hashed', (csc369Malloc env memory size).run hashed =
        .ok (mallocAnswer env tracker size) hashed' ∧
      hashed'.Refines (tracker.record size (mallocAnswer env tracker size))) ∨
    ∃ hashed', (csc369Malloc env memory size).run hashed = .error .putFailed hashed' ∧
      KHash.allGranted (memory hashed.log.length) = false := by
  have answer : hashed.answer env size = mallocAnswer env tracker size := refines.answer size
  cases request : mallocAnswer env tracker size with
  | none =>
      rw [request] at answer
      refine .inl ⟨{ hashed with log := hashed.log ++ [.malloc size none] }, ?_,
        { refines with log := ?_ }⟩
      · simp only [csc369Malloc, EStateM.run_bind, EStateM.run_get, EStateM.run_modify, answer,
          EStateM.run_pure]
      · rw [Tracker.log_record, ← refines.log]
  | some m =>
      rw [request] at answer
      have few := refines.few positive request
      obtain ⟨done, run, ⟨failed, refused, -, -⟩ | ⟨ret, table, wrote, grown, after⟩⟩ :=
        @KHash.Represents.put_ok _ _ khInt64HashFunc hashed.mallocMap tracker.mallocMap m _
          refines.map few (memory hashed.log.length) (BitVec.ofNat 64 size)
      · have notRet : decide (0 ≤ done.ret) = false := by
          rw [failed]
          rfl
        refine .inr ⟨⟨hashed.numMallocs + 1, hashed.numFrees, hashed.bytesMalloced + size,
          hashed.bytesFreed, done.table, hashed.log ++ [.malloc size (some m)]⟩, ?_, refused⟩
        simp only [csc369Malloc, EStateM.run_bind, EStateM.run_get, EStateM.run_modify, answer,
          run, run_onTable_ok, notRet, run_require_false]
      · have isRet : decide (0 ≤ done.ret) = true := decide_eq_true (by omega)
        refine .inl ⟨⟨hashed.numMallocs + 1, hashed.numFrees, hashed.bytesMalloced + size,
          hashed.bytesFreed, table, hashed.log ++ [.malloc size (some m)]⟩, ?_, ?_⟩
        · simp only [csc369Malloc, EStateM.run_bind, EStateM.run_get, EStateM.run_modify, answer,
            run, run_onTable_ok, isRet, run_require_true, wrote, EStateM.run_pure]
        · have entries := refines.entries
          have paid := refines.paid
          refine
            { numMallocs := by rw [refines.numMallocs]; rfl
              numFrees := refines.numFrees
              bytesMalloced := by rw [refines.bytesMalloced]; rfl
              bytesFreed := refines.bytesFreed
              log := by rw [Tracker.log_record, ← refines.log]
              map := after
              entries := ?_
              paid := ?_ }
          · change (table.size : Int) ≤ tracker.numMallocs + 1
            omega
          · change tracker.numMallocs + 1 ≤ tracker.bytesMalloced + size
            omega

/-- The two trackers end in the same way. -/
inductive Agrees {α : Type} :
    EStateM.Result TrackerFault HashTracker α → EStateM.Result Fault Tracker α → Prop where
  | ok {value : α} {hashed : HashTracker} {tracker : Tracker} : hashed.Refines tracker →
      Agrees (.ok value hashed) (.ok value tracker)
  | error {fault : Fault} {hashed : HashTracker} {tracker : Tracker} :
      Agrees (.error (.stopped fault) hashed) (.error fault tracker)

section Agreement
variable {α γ δ : Type} {state : HashTracker} {state' : Tracker}
  {first : EStateM TrackerFault HashTracker γ} {first' : EStateM Fault Tracker δ}
  {next : γ → EStateM TrackerFault HashTracker α} {next' : δ → EStateM Fault Tracker α}

theorem Agrees.bind {value : γ} {value' : δ} {middle : HashTracker} {middle' : Tracker}
    (run : first.run state = .ok value middle) (run' : first'.run state' = .ok value' middle')
    (rest : Agrees ((next value).run middle) ((next' value').run middle')) :
    Agrees ((first >>= next).run state) ((first' >>= next').run state') := by
  rw [run_bind_of_ok run, run_bind_of_ok run']
  exact rest

theorem Agrees.onTable {result : Except HashFault γ} {value : γ}
    {other : EStateM.Result Fault Tracker α} (run : result = .ok value)
    (rest : Agrees ((next value).run state) other) :
    Agrees ((HashTracker.onTable result >>= next).run state) other := by
  subst run
  rw [run_bind_of_ok (run_onTable_ok value state)]
  exact rest

theorem Agrees.require {condition condition' : Bool} {fault : Fault}
    {next : Unit → EStateM TrackerFault HashTracker α} {next' : Unit → EStateM Fault Tracker α}
    (same : condition = condition')
    (rest : condition = true → Agrees ((next ()).run state) ((next' ()).run state')) :
    Agrees ((require condition (.stopped fault) >>= next).run state)
      ((require condition' fault >>= next').run state') := by
  subst same
  cases condition with
  | false => exact .error
  | true => exact rest rfl

end Agreement

theorem Refines.csc369Free_ok (refines : hashed.Refines tracker) (ptr : Option Addr) :
    Agrees ((csc369Free ptr).run hashed) ((MemSim.csc369Free ptr).run tracker) := by
  have log : hashed.log ++ [.free ptr] = tracker.log ++ [.free ptr] := by rw [refines.log]
  refine Agrees.bind rfl rfl ?_
  cases ptr with
  | none => exact .ok { refines with log := log }
  | some p =>
      refine Agrees.bind rfl rfl ?_
      obtain ⟨k, found, -, ⟨atEnd, missing⟩ | ⟨notEnd, size, known, here⟩⟩ := refines.map.get_ok p
      · refine Agrees.onTable found ?_
        simp only [atEnd, missing, EStateM.run_bind, ne_eq, not_true_eq_false, decide_false,
          run_require_false, run_stop]
        exact .error
      · have value : sizeAt hashed.mallocMap k = .ok size := by
          obtain ⟨bound, -, -, inVal⟩ := KHash.entry_eq_some.mp here
          rw [sizeAt, refines.map.valid.value_ok bound, inVal]
          rfl
        obtain ⟨table, wrote, sameSize, after⟩ := refines.map.valid.assign_ok here
          (fun key value _ => refines.map.stores key value) (size ||| freedBit)
        refine Agrees.onTable found ?_
        simp only [known]
        rw [run_bind_of_ok (show (require (decide (k ≠ hashed.mallocMap.nBuckets))
          (.stopped .badFree) : EStateM TrackerFault HashTracker Unit).run _ = .ok () _ by
            rw [decide_eq_true notEnd]; rfl)]
        refine Agrees.onTable value (Agrees.require rfl fun _ => Agrees.require rfl fun _ =>
          Agrees.require rfl fun _ => Agrees.require ?_ fun _ => Agrees.bind rfl rfl
            (Agrees.require ?_ fun _ => ?_))
        · rw [refines.numMallocs, refines.numFrees]
        · rw [refines.bytesMalloced, refines.bytesFreed]
        · rw [run_bind_of_ok (EStateM.run_modify ..)]
          refine Agrees.onTable wrote (.ok ?_)
          exact
            { numMallocs := refines.numMallocs
              numFrees := congrArg (· + 1) refines.numFrees
              bytesMalloced := refines.bytesMalloced
              bytesFreed := congrArg (· + (size.toNat : Int)) refines.bytesFreed
              log := log
              map := after
              entries := sameSize ▸ refines.entries
              paid := refines.paid }

theorem Agrees.returns {α : Type} {result : EStateM.Result TrackerFault HashTracker α} {value : α}
    (agrees : Agrees result (.ok value tracker)) : ∃ after, result = .ok value after := by
  cases agrees with
  | ok _ => exact ⟨_, rfl⟩

theorem Agrees.stops {α : Type} {result : EStateM.Result TrackerFault HashTracker α} {fault : Fault}
    (agrees : Agrees result (.error fault tracker)) :
    ∃ after, result = .error (.stopped fault) after := by
  cases agrees with
  | error => exact ⟨_, rfl⟩

end Refinement

/-! ## Sequences of requests -/

/-- Requests from `CSC369_MallocInit` on: sizes are at least 1, and only `NULL` and
live pointers are freed. -/
inductive Run (env : Env) (memory : Nat → HashMemory) : HashTracker → Prop where
  | init : Run env memory init
  | malloc {before after : HashTracker} {size : Nat} {result : Option Addr} :
      Run env memory before → 1 ≤ size →
      (csc369Malloc env memory size).run before = .ok result after → Run env memory after
  | free {before after : HashTracker} {ptr : Option Addr} :
      Run env memory before → (∀ p, ptr = some p → IsLive before.log p) →
      (csc369Free ptr).run before = .ok () after → Run env memory after

section Runs
variable {env : Env} {memory : Nat → HashMemory} {hashed : HashTracker}

theorem Run.refines (run : Run env memory hashed) :
    ∃ tracker, TrackerRun env tracker ∧ hashed.Refines tracker := by
  induction run with
  | init => exact ⟨Tracker.init, .init, refines_init⟩
  | @malloc before after size result _ positive step ih =>
      obtain ⟨tracker, run, refines⟩ := ih
      rcases @Refines.csc369Malloc_ok env memory _ _ refines _ positive with
        ⟨hashed', step', after'⟩ | ⟨hashed', step', -⟩
      · cases step.symm.trans step'
        exact ⟨_, .malloc run positive (run_csc369Malloc env tracker size), after'⟩
      · cases step.symm.trans step'
  | @free before after ptr _ live step ih =>
      obtain ⟨tracker, run, refines⟩ := ih
      have agrees := refines.csc369Free_ok ptr
      rw [step] at agrees
      generalize step' : (MemSim.csc369Free ptr).run tracker = result at agrees
      cases agrees with
      | ok after' => exact ⟨_, .free run (fun p same => refines.log ▸ live p same) step', after'⟩

/-- What the tracker reports, and what it can be asked next. -/
structure InBalance (env : Env) (memory : Nat → HashMemory) (hashed : HashTracker) : Prop where
  currentCount : mallocCurrentCount.run hashed = .ok (liveBlocks hashed.log).length hashed
  currentBytes : mallocCurrentBytes.run hashed = .ok (totalSize (liveBlocks hashed.log)) hashed
  leakFree : ∀ count bytes, (mallocIsLeakFree count bytes).run hashed =
    .ok (decide ((totalSize (liveBlocks hashed.log) : Int) ≤ bytes ∧
      ((liveBlocks hashed.log).length : Int) ≤ count)) hashed
  known : ∀ m, (∃ size, KHash.read khInt64HashFunc hashed.mallocMap m = .ok (some size)) ↔
    WasReturned hashed.log m
  freed : ∀ m, (∃ size, KHash.read khInt64HashFunc hashed.mallocMap m = .ok (some size) ∧
    size &&& freedBit ≠ 0#64) ↔ WasReturned hashed.log m ∧ ¬ IsLive hashed.log m
  mallocReturns : ∀ size, 1 ≤ size →
    (∃ result after, (csc369Malloc env memory size).run hashed = .ok result after) ∨
      KHash.allGranted (memory hashed.log.length) = false ∧
        ∃ after, (csc369Malloc env memory size).run hashed = .error .putFailed after
  freeReturns : ∀ ptr, (∀ p, ptr = some p → IsLive hashed.log p) →
    ∃ after, (csc369Free ptr).run hashed = .ok () after
  freeAborts : ∀ p, ¬ IsLive hashed.log p →
    ∃ after, (csc369Free (some p)).run hashed = .error (.stopped .badFree) after

theorem Refines.currentCount {tracker : Tracker} (refines : hashed.Refines tracker)
    (books : tracker.Books) :
    mallocCurrentCount.run hashed = .ok (liveBlocks hashed.log).length hashed := by
  have count := books.count
  have inOrder : hashed.numFrees ≤ hashed.numMallocs := by
    rw [refines.numFrees, refines.numMallocs]
    omega
  simp only [mallocCurrentCount, EStateM.run_bind, EStateM.run_get, inOrder, decide_true,
    run_require_true, EStateM.run_pure]
  congr 1
  rw [refines.numFrees, refines.numMallocs, refines.log]
  omega

theorem Refines.currentBytes {tracker : Tracker} (refines : hashed.Refines tracker)
    (books : tracker.Books) :
    mallocCurrentBytes.run hashed = .ok (totalSize (liveBlocks hashed.log)) hashed := by
  have bytes := books.bytes
  have inOrder : hashed.bytesFreed ≤ hashed.bytesMalloced := by
    rw [refines.bytesFreed, refines.bytesMalloced]
    omega
  simp only [mallocCurrentBytes, EStateM.run_bind, EStateM.run_get, inOrder, decide_true,
    run_require_true, EStateM.run_pure]
  congr 1
  rw [refines.bytesFreed, refines.bytesMalloced, refines.log]
  omega

end Runs

end HashTracker

end MemSim
