import MemSim.Destruction
import MemSim.MemoryBudget
import MemSim.SimulationDestroy
import MemSim.SimulationLoop
import MemSim.Statistics

/-!
# The program

`memsim.c`: reading the options, creating a simulation, running it, destroying it
and looking for leaks.  What is logged about a well-formed trace file are the reads
that a flat memory does not bear out, and no leak.
-/

set_option autoImplicit false

namespace MemSim

open Exec

/-! ## The model -/

/-- An option as `getopt` returns it; `other` stands for `-h` and unknown options. -/
inductive CommandOption where
  | f (optarg : String)
  | m (optarg : String)
  | a (optarg : String)
  | s (optarg : String)
  | other
  deriving DecidableEq, Repr

/-- The variables of `CreateSimulationFromArgs`. -/
structure Arguments where
  memsize : Nat
  swapsize : Nat
  traceFile : Option String
  replacementAlg : Option String
  deriving DecidableEq, Repr

/-- `strtoul(text, NULL, 10)`. -/
def strtoul (text : String) : Nat := (scanUnsigned 10 text.toList).elim 0 Prod.fst

/-- The loop over the options; `none` stands for `usage`. -/
def readOptions : List CommandOption → Arguments → Option Arguments
  | [], args => some args
  | .f optarg :: options, args => readOptions options { args with traceFile := some optarg }
  | .m optarg :: options, args => readOptions options { args with memsize := strtoul optarg }
  | .a optarg :: options, args => readOptions options { args with replacementAlg := some optarg }
  | .s optarg :: options, args => readOptions options { args with swapsize := strtoul optarg }
  | .other :: _, _ => none

/-- How `main` ends.  A failed assertion aborts the program. -/
inductive Ending where
  | usage
  | unknownAlgorithm
  | notCreated
  | stopped (fault : Fault) (messages : List Message)
  | finished (messages : List Message)
  deriving DecidableEq, Repr

variable (env : Env) (policy : Policy)

/-- `CSC369_SimulationCreate`, given what `fopen` finds: `simulationCreate` between the
simulation struct and the trace. -/
def createTracedSimulation (process : Process policy.State) (file : Option (List Char))
    (swapsize : Nat) : Except Fault (Option (Simulation policy.State)) := do
  -- the simulation struct, and the trace struct
  if !(env.calloc 1 48 && env.calloc 1 272) then return none
  match file with
  | none => return none
  | some text =>
      match ← simulationCreate env policy process swapsize with
      | none => return none
      | some world => return some ⟨traceCreate text, world, []⟩

section Parts
variable {σ α : Type}

def onBooks (part : Exec Tracker α) : Exec (Simulation σ) α :=
  onWorld (onHeap (onTracker part))

/-- The part of `CSC369_SimulationDestroy` that frees tracked memory.  A page table has
three levels. -/
def destroyManager : Exec (Simulation σ) Unit := do
  let simulation ← get
  onWorld (onHeap (mmDestroy 3 simulation.world.mm simulation.world.pageTable))

/-- `CSC369_SimulationDestroy` in place: the trace and the messages stay as they are. -/
def destroyTracedSimulation : Exec (Simulation policy.State) Unit := do
  onWorld (modify fun world => { world with links := coremapDestroyLinks world.links })
  destroyManager
  onWorld (onPart World.policyState World.setPolicyState policy.cleanup)

/-- `main` after a simulation was created. -/
def runMain (startMallocs startBytes : Int) : Exec (Simulation policy.State) Unit := do
  simulationRun env policy
  let current ← onBooks mallocCurrentBytes
  log [.memoryUsed (current - startBytes)]
  destroyTracedSimulation policy
  if ← onBooks (mallocIsLeakFree startMallocs startBytes) then log [.noLeaks]
  else do
    let bytesLeaked ← onBooks mallocCurrentBytes
    let unfreedMallocs ← onBooks mallocCurrentCount
    log [.leaked bytesLeaked unfreedMallocs]

end Parts

/-- `main` once the options are known. -/
def simulate (file : Option (List Char)) (swapsize : Nat) : Ending :=
  match mallocCurrentCount.run Tracker.init, mallocCurrentBytes.run Tracker.init with
  | .ok startMallocs _, .ok startBytes _ =>
      match createTracedSimulation env policy (Process.fresh policy) file swapsize with
      | .error fault => .stopped fault []
      | .ok none => .notCreated
      | .ok (some simulation) =>
          match (runMain env policy startMallocs startBytes).run simulation with
          | .error fault simulation => .stopped fault simulation.messages
          | .ok () simulation => .finished simulation.messages
  | .error fault _, _ => .stopped fault []
  | _, .error fault _ => .stopped fault []

def Env.sized (env : Env) (memsize : Nat) : Env := { env with memsize := memsize }

/-- `main`.  `files` are the files that can be opened, and `random` the numbers that
`rand` returns. -/
def main (random : Nat → Nat) (files : String → Option (List Char))
    (options : List CommandOption) : Ending :=
  match readOptions options ⟨0, 0, none, none⟩ with
  | none => .usage
  | some args =>
      match args.traceFile, args.replacementAlg with
      | some path, some name =>
          if args.memsize = 0 ∨ args.swapsize = 0 then .usage
          else
            match getReplacementAlgorithm random name with
            | none => .unknownAlgorithm
            | some policy => simulate (env.sized args.memsize) policy (files path) args.swapsize
      | _, _ => .usage

variable {env policy}

/-! ## Creation -/

section Creation
variable {swapSize : Nat} {random : Nat → Nat}

theorem mmCreate_granted {heap : Heap} (granted : Granted env heap.tracker creationRequests) :
    ∃ mm root after, (mmCreate env).run heap = .ok (some (mm, root)) after := by
  obtain ⟨first, second, third, -⟩ := granted
  obtain ⟨mm, answer⟩ := Option.isSome_iff_exists.mp first
  rw [answer] at second third
  obtain ⟨table, answer'⟩ := Option.isSome_iff_exists.mp second
  rw [answer'] at third
  obtain ⟨ptes, answer''⟩ := Option.isSome_iff_exists.mp third
  have request := run_onTracker_csc369Malloc env heap sizeofMM
  rw [answer] at request
  have create := @run_pageTableCreate_of_some env
    (heap.setTracker (heap.tracker.record sizeofMM (some mm))) table answer' ptes answer''
  rw [mmCreate, run_whenSome_of_some request, run_whenSome_of_some create]
  exact ⟨mm, table, _, rfl⟩

theorem policies_init (member : policy ∈ policies random) {state : PolicyState policy.State}
    (heads : HeadsMapped state.links) : ∃ after, policy.init.run state = .ok () after := by
  simp only [policies, List.mem_cons, List.not_mem_nil, or_false] at member
  rcases member with rfl | rfl | rfl | rfl
  · exact ⟨state, rfl⟩
  · exact ⟨state, rfl⟩
  · exact ⟨state, rfl⟩
  · exact ⟨_, run_s2qInit heads⟩

theorem policies_cleanup (member : policy ∈ policies random) (state : PolicyState policy.State) :
    policy.cleanup.run state = .ok () state := by
  simp only [policies, List.mem_cons, List.not_mem_nil, or_false] at member
  rcases member with rfl | rfl | rfl | rfl
  · rfl
  · rfl
  · rfl
  · rfl

/-- When `calloc` and `malloc` find memory, the simulation is created. -/
theorem simulationCreate_succeeds (member : policy ∈ policies random)
    (calloc : ∀ count size, count * size < 2 ^ 64 → env.calloc count size = true)
    (generous : env.Generous) (small : env.memsize ≤ 2 ^ 28) (swapFits : swapSize < 2 ^ 64) :
    ∃ world, simulationCreate env policy (Process.fresh policy) swapSize = .ok (some world) := by
  have words : nwordsForNbits swapSize * 8 < 2 ^ 64 := by
    have bits : bitsPerWord = 64 := rfl
    rw [nwordsForNbits, bits]
    omega
  obtain ⟨swapmap, create, -⟩ := bitmapCreate_spec env swapFits (calloc 1 16 (by decide))
    (calloc _ 8 words)
  have swap : swapCreate env swapSize = .ok (some swapmap) := by
    rw [swapCreate, if_pos (calloc 1 48 (by decide))]
    exact create
  have requestable : Requestable creationRequests := by
    unfold Requestable
    decide
  have granted : Granted env Tracker.init creationRequests :=
    (granted_iff generous .init requestable).mpr (by decide)
  obtain ⟨mm, root, heap, manager⟩ := @mmCreate_granted env Heap.empty granted
  have heads : HeadsMapped (coremapLinks env (Process.fresh policy).heads) := ⟨rfl, rfl⟩
  obtain ⟨state, init⟩ := @policies_init policy random member
    ⟨heap, fun _ => ⟨true, none⟩, coremapLinks env (Process.fresh policy).heads, policy.fresh⟩ heads
  have physmem : env.calloc env.memsize simulatedFrameSize = true := calloc _ _ (by
    rw [simulatedFrameSize_eq]
    omega)
  have frames : env.calloc env.memsize 32 = true := calloc _ _ (by omega)
  unfold simulationCreate
  simp only [calloc 1 48 (by decide), calloc 1 24 (by decide), physmem, frames, swap,
    Bool.and_self, Bool.not_true, Bool.false_eq_true, if_false, bind, Except.bind]
  have started : (mmCreate env).run (Process.fresh policy).heap = .ok (some (mm, root)) heap :=
    manager
  have begun : policy.init.run ⟨heap, fun _ => ⟨true, none⟩,
      coremapLinks env (Process.fresh policy).heads, (Process.fresh policy).own⟩ =
        .ok () state := init
  simp only [started, begun]
  exact ⟨_, rfl⟩

end Creation

/-! ## A run and its end -/

section Finish
variable {random : Nat → Nat} {trace last : Trace} {accesses : List MemAccess}
  {world after : World policy.State} {swapSize : Nat}

/-- The tracker balances the blocks of the manager, and a destroyed one leaves none. -/
theorem destroy_balanced {heap : Heap} {root mm : Addr} {requests : List (Addr × Nat)}
    (sound : heap.Sound (· = root))
    (stocked : heap.Stocked root mm Tracker.init.log requests) :
    mallocCurrentBytes.run heap.tracker = .ok heap.tracker.bytesMalloced heap.tracker ∧
      ∃ left, (mmDestroy 3 mm (some root)).run heap = .ok () left ∧
        (mallocIsLeakFree 0 0).run left.tracker = .ok true left.tracker := by
  constructor
  · have granted := stocked.books.granted
    rw [stocked.log, grantedBytes_grants] at granted
    have live : totalSize (liveBlocks heap.tracker.log) = totalSize requests := by
      rw [stocked.live]
      simp [Tracker.init, liveBlocks, totalSize]
    have none' : grantedBytes Tracker.init.log = 0 := rfl
    rw [stocked.books.run_mallocCurrentBytes, live, granted, none', Nat.zero_add]
  · obtain ⟨left, destroyed, back⟩ :=
      stocked.givesBack Tracker.books_init sound (Nat.le_refl 3)
    refine ⟨left, destroyed, ?_⟩
    obtain ⟨count, before, counted⟩ := back.count
    obtain ⟨bytes, before', sized⟩ := back.bytes
    cases before
    cases before'
    exact run_leakFreeWith sized counted 0 0

theorem run_destroyTracedSimulation (member : policy ∈ policies random) {root : Addr} {left : Heap}
    (isRoot : world.pageTable = some root)
    (destroyed : (mmDestroy 3 world.mm (some root)).run world.heap = .ok () left)
    (messages : List Message) :
    (destroyTracedSimulation policy).run ⟨trace, world, messages⟩ =
      .ok () ⟨trace, { world with heap := left, links := coremapDestroyLinks world.links },
        messages⟩ := by
  let unlinked : World policy.State := { world with links := coremapDestroyLinks world.links }
  have coremap : (onWorld (modify fun world =>
      { world with links := coremapDestroyLinks world.links }) :
        Exec (Simulation policy.State) Unit).run ⟨trace, world, messages⟩ =
      .ok () ⟨trace, unlinked, messages⟩ := run_onWorld_of_ok rfl
  have manager : (destroyManager : Exec (Simulation policy.State) Unit).run
      ⟨trace, unlinked, messages⟩ = .ok () ⟨trace, unlinked.setHeap left, messages⟩ := by
    simp only [destroyManager, EStateM.run_bind, EStateM.run_get]
    exact run_onWorld_of_ok (run_onHeap_of_ok (by rw [← isRoot] at destroyed; exact destroyed))
  have cleaned : (onPart World.policyState World.setPolicyState policy.cleanup).run
      (unlinked.setHeap left) = .ok () (unlinked.setHeap left) :=
    run_onPart_of_ok (policies_cleanup member _)
  rw [destroyTracedSimulation, run_bind_of_ok coremap, run_bind_of_ok manager]
  exact run_onWorld_of_ok cleaned

/-- What `destroyTracedSimulation` leaves is what a process goes on with. -/
theorem destroyTracedSimulation_leaves (algorithm : Algorithm)
    {world : World algorithm.policy.State} {messages : List Message} {destroyed : Simulation algorithm.policy.State}
    (run : (destroyTracedSimulation algorithm.policy).run ⟨trace, world, messages⟩ =
      .ok () destroyed) :
    simulationDestroy algorithm 3 world = .ok
      { heap := destroyed.world.heap
        heads := destroyed.world.links
        own := algorithm.dangling destroyed.world.own
        stats := destroyed.world.stats
        errno := destroyed.world.storage.errno
        calls := destroyed.world.storage.calls } := by
  obtain ⟨_, unlinked, coremap, rest⟩ := bind_ok_iff.mp run
  cases coremap
  obtain ⟨_, emptied, manager, cleaned⟩ := bind_ok_iff.mp rest
  simp only [destroyManager, EStateM.run_bind, EStateM.run_get] at manager
  obtain ⟨_, onHeapRun, rfl⟩ := onPart_ok_iff.mp manager
  obtain ⟨heap, freed, rfl⟩ := onPart_ok_iff.mp onHeapRun
  obtain ⟨_, onPolicyRun, rfl⟩ := onPart_ok_iff.mp cleaned
  obtain ⟨state, cleanup, rfl⟩ := onPart_ok_iff.mp onPolicyRun
  rw [algorithm.run_cleanup] at cleanup
  cases cleanup
  have freed' : (mmDestroy 3 world.mm world.pageTable).run world.heap = .ok () heap := freed
  unfold simulationDestroy
  simp only [freed', algorithm.run_cleanup]
  rfl

theorem run_onBooks_of_ok {α σ : Type} {part : Exec Tracker α} {value : α}
    {simulation : Simulation σ}
    (run : part.run simulation.world.heap.tracker = .ok value simulation.world.heap.tracker) :
    (onBooks part).run simulation = .ok value simulation :=
  run_onWorld_of_ok (run_onHeap_of_ok (run_onPart_of_ok run))

/-- The parts of `main` after the run. -/
theorem runMain_ok (member : policy ∈ policies random) {error : TraceError}
    (reads : Reads error accesses trace last) {found : List (Nat × Option UInt8)}
    (run : (runAll (executeInFrame env policy) accesses).run world = .ok found after)
    {root : Addr} {requests : List (Addr × Nat)} (coherent : after.Coherent env root none)
    (stocked : after.heap.Stocked root after.mm Tracker.init.log requests) :
    ∃ final, (runMain env policy 0 0).run ⟨trace, world, []⟩ = .ok () final ∧
      final.messages = comparisons accesses found ++ error.messages ++
        [.statistics after.stats, .memoryUsed after.heap.tracker.bytesMalloced, .noLeaks] := by
  obtain ⟨bytes, left, destroyed, leakFree⟩ := destroy_balanced coherent.sound stocked
  rw [runMain, run_bind_of_ok (simulationRun_ok reads [] run),
    run_bind_of_ok (run_onBooks_of_ok bytes)]
  have logged : ∀ (messages more : List Message) (world : World policy.State),
      (log more).run ⟨last, world, messages⟩ = .ok () ⟨last, world, messages ++ more⟩ :=
    fun _ _ _ => rfl
  rw [run_bind_of_ok (logged _ _ _),
    run_bind_of_ok (run_destroyTracedSimulation member coherent.pageTable destroyed _),
    run_bind_of_ok (run_onBooks_of_ok leakFree)]
  refine ⟨_, logged _ _ _, ?_⟩
  simp

theorem runMain_error {error : TraceError} (reads : Reads error accesses trace last)
    {fault : Fault}
    (run : (runAll (executeInFrame env policy) accesses).run world = .error fault after) :
    ∃ stopped, (runMain env policy 0 0).run ⟨trace, world, []⟩ = .error fault stopped := by
  obtain ⟨stopped, simulated, -⟩ := simulationRun_error reads [] run
  exact ⟨stopped, run_bind_of_error simulated⟩

end Finish

/-! ## The program -/

section Program
variable {random : Nat → Nat} {files : String → Option (List Char)}
  {options : List CommandOption} {args : Arguments} {terminated : Bool} {lines : List TraceLine}

/-- A call of the program with a trace file in the format, a swap with room for all its
pages, no failing system call, and memory limited by the budget of the tracker only. -/
structure WellCalled (env : Env) (policy : Policy) (random : Nat → Nat)
    (files : String → Option (List Char)) (options : List CommandOption) (args : Arguments)
    (terminated : Bool) (lines : List TraceLine) : Prop where
  options : readOptions options ⟨0, 0, none, none⟩ = some args
  traceFile : ∃ path, args.traceFile = some path ∧ files path = some (fileText terminated lines)
  ends : EndsWell terminated lines
  algorithm : ∃ name, args.replacementAlg = some name ∧
    getReplacementAlgorithm random name = some policy
  memsize : 0 < args.memsize ∧ args.memsize ≤ 2 ^ 28
  swapsize : 0 < args.swapsize ∧ args.swapsize ≤ 2 ^ 64 - 64
  room : (tracePages (accesses lines)).card ≤ args.swapsize
  io : ∀ call, env.io call = .success
  calloc : ∀ count size, count * size < 2 ^ 64 → env.calloc count size = true
  generous : (env.sized args.memsize).Generous

theorem access_bounds {access : MemAccess} (member : access ∈ accesses lines) :
    access.virtualAddress < 2 ^ 48 ∧ access.virtualAddress % pageSize ≤ 15 := by
  obtain ⟨line, -, written⟩ := List.mem_filterMap.mp member
  cases line with
  | comment text isComment => contradiction
  | access given text isAccess =>
      cases written
      exact ⟨isAccess.address, isAccess.offset⟩

section Called
variable (called : WellCalled env policy random files options args terminated lines)
include called

theorem WellCalled.member : policy ∈ policies random := by
  obtain ⟨name, -, found⟩ := called.algorithm
  exact List.mem_of_find?_eq_some found

theorem WellCalled.main_eq : main env random files options =
    simulate (env.sized args.memsize) policy (some (fileText terminated lines)) args.swapsize := by
  obtain ⟨path, isPath, file⟩ := called.traceFile
  obtain ⟨name, isName, found⟩ := called.algorithm
  have sizes : ¬ (args.memsize = 0 ∨ args.swapsize = 0) := by
    have memsize := called.memsize.1
    have swapsize := called.swapsize.1
    omega
  simp only [main, called.options, isPath, isName, if_neg sizes, found, file]

theorem WellCalled.created : ∃ world, createTracedSimulation (env.sized args.memsize) policy
    (Process.fresh policy) (some (fileText terminated lines)) args.swapsize =
      .ok (some ⟨traceCreate (fileText terminated lines), world, []⟩) ∧
    AmpleRun (env.sized args.memsize) policy args.swapsize (accesses lines) world := by
  have fits := called.swapsize.2
  obtain ⟨world, created⟩ := @simulationCreate_succeeds (env.sized args.memsize) policy
    args.swapsize random called.member called.calloc called.generous called.memsize.2 (by omega)
  refine ⟨world, ?_, ?_⟩
  · have structs : (!((env.sized args.memsize).calloc 1 48 &&
        (env.sized args.memsize).calloc 1 272)) = false := by
      have simulation : (env.sized args.memsize).calloc 1 48 = true :=
        called.calloc 1 48 (by decide)
      have trace : (env.sized args.memsize).calloc 1 272 = true := called.calloc 1 272 (by decide)
      rw [simulation, trace]
      rfl
    simp only [createTracedSimulation, structs, created]
    rfl
  · exact
      { created := created
        positive := called.memsize.1
        small := called.memsize.2
        swapFits := fits
        io := called.io
        generous := called.generous
        addresses := fun access member => (access_bounds member).1
        offsets := fun access member => (access_bounds member).2
        room := called.room }

end Called

/-- The report of a simulation in which the reads found `found`. -/
def report (accesses : List MemAccess) (found : List (Nat × Option UInt8)) (stats : MMStats) :
    List Message :=
  comparisons accesses found ++
    [.statistics stats, .memoryUsed (footprint (tracePages accesses)), .noLeaks]

/-- The program reports the reads that a flat memory does not bear out, none if the
trace is consistent, counts the accesses, and finds no leak, unless the page table of
the trace exceeds the budget. -/
theorem main_reports (called : WellCalled env policy random files options args terminated lines) :
    (footprint (tracePages (accesses lines)) ≤ kmallocMax → ∃ found stats,
      main env random files options = .finished (report (accesses lines) found stats) ∧
      found.map Prod.snd = flatReads [] (accesses lines) ∧
      (comparisons (accesses lines) found = [] ↔ Consistent [] (accesses lines)) ∧
      ((accesses lines).length < 2 ^ 32 → stats.refCount = (accesses lines).length ∧
        stats.hitCount + stats.missCount = stats.refCount)) ∧
    (kmallocMax < footprint (tracePages (accesses lines)) → ∃ fault messages,
      main env random files options = .stopped fault messages) := by
  obtain ⟨world, created, ample⟩ := called.created
  obtain ⟨last, reads⟩ := @reads_file terminated lines called.ends
    (traceCreate (fileText terminated lines)) rfl
  have executes := @executes_executeInFrame (env.sized args.memsize) policy
  have counted : mallocCurrentCount.run Tracker.init = .ok 0 Tracker.init := rfl
  have sized : mallocCurrentBytes.run Tracker.init = .ok 0 Tracker.init := rfl
  rw [called.main_eq]
  constructor
  · intro enough
    obtain ⟨found, after, run⟩ :=
      ample.returns executes called.member finishes_executeInFrame enough
    obtain ⟨root', charged, -⟩ := ample.charged executes run
    obtain ⟨root, started⟩ := simulationCreate_started (fresh_cleared policy)
      (Nat.lt_of_le_of_lt called.swapsize.2 (by decide)) ample.created
    obtain ⟨root'', requests, isRoot, stocked⟩ :=
      simulationCreate_stocked (fresh_cleared policy) Tracker.books_init ample.created
    cases started.coherent.pageTable.symm.trans isRoot
    obtain ⟨coherent, requests', stocked'⟩ :=
      run_stocked executes started.coherent stocked run
    obtain ⟨final, finished, messages⟩ := runMain_ok called.member reads run coherent stocked'
    have same := ample.reads (runAll_executeMemInstruction run)
    refine ⟨found, after.stats, ?_, same, comparisons_eq_nil_iff same, fun short => ?_⟩
    · simp only [simulate, counted, sized, created, finished, messages, report, charged.bytes]
      simp [TraceError.messages]
    · obtain ⟨tally, -⟩ := executes.recounted (accesses lines) started.coherent started.ledger
        (started.tally rfl) (by omega) run
      rw [Nat.zero_add] at tally
      exact ⟨tally.ref, tally.sum.trans tally.ref.symm⟩
  · intro short
    cases run : (runAll (executeInFrame (env.sized args.memsize) policy) (accesses lines)).run
        world with
    | ok found after =>
        obtain ⟨-, -, enough⟩ := ample.charged executes run
        omega
    | error fault after =>
        obtain ⟨stopped, finished⟩ := runMain_error reads run
        refine ⟨fault, stopped.messages, ?_⟩
        simp only [simulate, counted, sized, created, finished]

/-- Two pages that take turns in one frame.  The last load finds 0 and not 7. -/
def wrongFile : List TraceLine :=
  [.comment ['=', ' ', '1'] ⟨rfl, by decide, by decide⟩,
    .access ⟨.store, 0x1005, 1⟩ ['S', ' ', '1', '0', '0', '5', ' ', '1']
      ⟨by decide, by decide,
        ⟨'S', ['1', '0', '0', '5'], ['1'], rfl, by decide, by decide, rfl⟩, by decide⟩,
    .access ⟨.load, 0x2003, 0⟩ ['L', ' ', '2', '0', '0', '3', ' ', '0']
      ⟨by decide, by decide,
        ⟨'L', ['2', '0', '0', '3'], ['0'], rfl, by decide, by decide, rfl⟩, by decide⟩,
    .access ⟨.load, 0x1005, 1⟩ ['L', ' ', '1', '0', '0', '5', ' ', '1']
      ⟨by decide, by decide,
        ⟨'L', ['1', '0', '0', '5'], ['1'], rfl, by decide, by decide, rfl⟩, by decide⟩,
    .access ⟨.load, 0x2003, 7⟩ ['L', ' ', '2', '0', '0', '3', ' ', '7']
      ⟨by decide, by decide,
        ⟨'L', ['2', '0', '0', '3'], ['7'], rfl, by decide, by decide, rfl⟩, by decide⟩]

theorem main_reports_wrongFile : ∃ found stats,
    main (Env.ideal 0) (fun _ => 0) (fun _ => some (fileText true wrongFile))
        [.f "trace", .m "1", .s "4", .a "RR"] =
      .finished (report (accesses wrongFile) found stats) ∧
    found.map Prod.snd = [none, some 0, some 1, some 0] ∧
    comparisons (accesses wrongFile) found ≠ [] ∧
    stats.refCount = 4 ∧ stats.hitCount + stats.missCount = 4 := by
  have called : WellCalled (Env.ideal 0) policyRR (fun _ => 0)
      (fun _ => some (fileText true wrongFile)) [.f "trace", .m "1", .s "4", .a "RR"]
      ⟨1, 4, some "trace", some "RR"⟩ true wrongFile :=
    { options := by decide
      traceFile := ⟨_, rfl, rfl⟩
      ends := .inl rfl
      algorithm := ⟨_, rfl, by simp [getReplacementAlgorithm, policies, policyRand, policyRR]⟩
      memsize := by decide
      swapsize := by decide
      room := by decide
      io := fun _ => rfl
      calloc := fun _ _ fits => decide_eq_true fits
      generous := Env.ideal_generous 1 }
  obtain ⟨found, stats, finished, same, consistent, counts⟩ :=
    (main_reports called).1 (by decide +kernel)
  obtain ⟨refs, sum⟩ := counts (by decide)
  refine ⟨found, stats, finished, same, fun nothing => ?_, refs, sum.trans refs⟩
  have seven := consistent.mp nothing (accesses wrongFile).dropLast ⟨.load, 0x2003, 7⟩ [] rfl rfl
  exact absurd seven (by decide)

end Program

end MemSim
