import MemSim.FlatMemory
import MemSim.TraceFile

/-!
# The loop of a simulation

`CSC369_SimulationRun` executes the accesses that the reader accepts, until the
reader returns -1.  For every trace file that is a run over a list of accesses, and
the loop ends.
-/

set_option autoImplicit false

namespace MemSim

open Exec

/-! ## The model -/

/-- What the simulation and `main` log. -/
inductive Message where
  | wrongData (address frame : Nat) (actual expected : UInt8)
  | invalidTrace (error : TraceError)
  | statistics (stats : MMStats)
  | memoryUsed (bytes : Int)
  | noLeaks
  | leaked (bytes count : Int)
  deriving DecidableEq, Repr

/-- `CSC369_Simulation`, with what has been logged. -/
structure Simulation (σ : Type) where
  trace : Trace
  world : World σ
  messages : List Message

def Simulation.setTrace {σ : Type} (simulation : Simulation σ) (trace : Trace) : Simulation σ :=
  { simulation with trace := trace }

def Simulation.setWorld {σ : Type} (simulation : Simulation σ) (world : World σ) : Simulation σ :=
  { simulation with world := world }

section Parts
variable {σ α : Type}

def onTrace (part : Exec Trace α) : Exec (Simulation σ) α :=
  onPart Simulation.trace Simulation.setTrace part

def onWorld (part : Exec (World σ) α) : Exec (Simulation σ) α :=
  onPart Simulation.world Simulation.setWorld part

def log (messages : List Message) : Exec (Simulation σ) Unit :=
  modify fun simulation => { simulation with messages := simulation.messages ++ messages }

end Parts

/-- What `CSC369_TraceRead` logs when it returns -1. -/
def TraceError.messages : TraceError → List Message
  | .endOfFile => []
  | error => [.invalidTrace error]

/-- The end of `ExecuteMemInstruction`: a byte that was read is compared with the
value in the trace. -/
def comparison (access : MemAccess) : Nat × Option UInt8 → List Message
  | (_, none) => []
  | (frame, some actual) =>
      if actual ≠ access.value then
        [.wrongData access.virtualAddress frame actual access.value]
      else []

variable (env : Env) (policy : Policy)

/-- `ExecuteMemInstruction` up to the comparison, with the frame of the access. -/
def executeInFrame (access : MemAccess) : Exec (World policy.State) (Nat × Option UInt8) := do
  let frameNumber ← translate env policy access
  let found ← accessMemory env policy frameNumber access
  pure (frameNumber, found)

/-- The loop of `CSC369_SimulationRun`; `fuel` bounds the calls of the reader. -/
def runLoop : (fuel : Nat) → Exec (Simulation policy.State) Unit
  | 0 => stop .outOfFuel
  | fuel + 1 => do
      match ← onTrace traceRead with
      | .error error => log error.messages
      | .ok access => do
          let found ← onWorld (executeInFrame env policy access)
          log (comparison access found)
          runLoop fuel

/-- `CSC369_SimulationRun`.  The rates it logs are quotients of the counters. -/
def simulationRun : Exec (Simulation policy.State) Unit := do
  let simulation ← get
  runLoop env policy (simulation.trace.file.rest.length + 1)
  let simulation ← get
  log [.statistics simulation.world.stats]

variable {env policy}

/-! ## The reader on any file -/

section Reader
variable {trace after : Trace} {accesses : List MemAccess} {error : TraceError}

/-- Calls of the reader accept the accesses one by one, and then return -1. -/
def Reads (error : TraceError) : List MemAccess → Trace → Trace → Prop
  | [], before, after => traceRead.run before = .ok (.error error) after
  | access :: accesses, before, after => ∃ middle,
      traceRead.run before = .ok (.ok access) middle ∧ Reads error accesses middle after

theorem reads_congr {first second : Trace} (same : traceRead.run first = traceRead.run second) :
    Reads error accesses first after ↔ Reads error accesses second after := by
  cases accesses <;> simp only [Reads, same]

theorem fgets_none {before file : Stream} (read : fgets 256 before = (none, file)) :
    file.eof = true := by
  obtain ⟨rest, eof⟩ := before
  cases rest with
  | nil =>
      cases read
      exact Bool.or_true eof
  | cons c rest =>
      rw [fgets_eq] at read
      by_cases newline : c = '\n'
      · simp [takeLine, newline] at read
      · simp [takeLine, newline] at read

theorem skipComments_total {fuel : Nat} (enough : trace.file.rest.length < fuel) : ∃ after,
    (skipComments fuel).run trace = .ok () after ∧
      (after.file.eof = true ∨ after.file.rest.length < trace.file.rest.length) := by
  induction fuel generalizing trace with
  | zero => exact absurd enough (Nat.not_lt_zero _)
  | succ fuel ih =>
      simp only [skipComments, EStateM.run_bind, EStateM.run_get]
      cases read : fgets 256 trace.file with
      | mk line file =>
          cases line with
          | none =>
              exact ⟨{ trace with file := file }, rfl, .inl (fgets_none read)⟩
          | some line =>
              have shorter := fgets_shorter read
              simp only [EStateM.run_bind, EStateM.run_set]
              split
              · obtain ⟨after, run, ended | shorter'⟩ :=
                  @ih { trace with file := file, buffer := line } (by
                    change file.rest.length < fuel
                    omega)
                · exact ⟨after, run, .inl ended⟩
                · exact ⟨after, run, .inr (Nat.lt_trans shorter' shorter)⟩
              · exact ⟨_, rfl, .inr shorter⟩

theorem traceRead_total (trace : Trace) : ∃ result after, traceRead.run trace = .ok result after ∧
    ∀ access, result = .ok access → after.file.rest.length < trace.file.rest.length := by
  obtain ⟨after, run, ended⟩ := @skipComments_total
    { trace with lineNumber := trace.lineNumber + 1 } (trace.file.rest.length + 1)
    (Nat.lt_succ_self _)
  simp only [traceRead, EStateM.run_bind, EStateM.run_modify, EStateM.run_get, run]
  cases eof : after.file.eof with
  | true => exact ⟨_, after, rfl, fun access accepted => by contradiction⟩
  | false =>
      refine ⟨_, after, rfl, fun access _ => ?_⟩
      rcases ended with ended | shorter
      · exact absurd (eof.symm.trans ended) Bool.false_ne_true
      · exact shorter

theorem Reads.short (reads : Reads error accesses trace after) :
    accesses.length ≤ trace.file.rest.length := by
  induction accesses generalizing trace with
  | nil => exact Nat.zero_le _
  | cons access accesses ih =>
      obtain ⟨middle, accepted, reads⟩ := reads
      obtain ⟨result, middle', run, shorter⟩ := traceRead_total trace
      cases accepted.symm.trans run
      have fewer := shorter access rfl
      have rest := ih reads
      rw [List.length_cons]
      omega

theorem reads_total (trace : Trace) : ∃ accesses error after, Reads error accesses trace after := by
  generalize size : trace.file.rest.length = length
  induction length using Nat.strong_induction_on generalizing trace with
  | _ length ih =>
      obtain ⟨result, middle, run, shorter⟩ := traceRead_total trace
      cases result with
      | error error => exact ⟨[], error, middle, run⟩
      | ok access =>
          have fewer := shorter access rfl
          obtain ⟨accesses, error, after, reads⟩ :=
            ih middle.file.rest.length (by omega) middle rfl
          exact ⟨access :: accesses, error, after, middle, run, reads⟩

theorem reads_file {terminated : Bool} {lines : List TraceLine}
    (ends : EndsWell terminated lines) {trace : Trace}
    (file : trace.file = ⟨fileText terminated lines, false⟩) :
    ∃ after, Reads .endOfFile (MemSim.accesses lines) trace after := by
  induction lines generalizing trace with
  | nil => exact traceRead_last List.not_mem_nil (by decide) file
  | cons line lines ih =>
      by_cases more : terminated = true ∨ lines ≠ []
      · rw [fileText_cons line more] at file
        rw [endsWell_cons line more] at ends
        cases line with
        | comment text isComment =>
            simp only [reads_congr (traceRead_comment isComment file)]
            exact ih ends rfl
        | access given text isAccess =>
            have accepted := traceRead_access isAccess file
            obtain ⟨after, reads⟩ :=
              @ih ends
                ⟨⟨fileText terminated lines, false⟩, text ++ ['\n'], trace.lineNumber + 1⟩ rfl
            exact ⟨after, _, accepted, reads⟩
      · obtain ⟨open', rfl⟩ : terminated = false ∧ lines = [] := by simpa using more
        subst open'
        cases line with
        | comment text isComment =>
            exact traceRead_last isComment.oneLine isComment.fits (by
              simpa [fileText, TraceLine.text] using file)
        | access given text isAccess =>
            rcases ends with ends | ends
            · exact absurd ends Bool.false_ne_true
            · exact absurd (ends _ rfl) (Option.some_ne_none given)

end Reader

/-! ## The loop is a run -/

section Loop
variable {trace last : Trace} {accesses : List MemAccess} {error : TraceError}
  {world after : World policy.State}

def comparisons : List MemAccess → List (Nat × Option UInt8) → List Message
  | access :: accesses, found :: others => comparison access found ++ comparisons accesses others
  | _, _ => []

theorem run_onTrace_of_ok {α σ : Type} {part : Exec Trace α} {value : α}
    {simulation : Simulation σ} {trace : Trace}
    (run : part.run simulation.trace = .ok value trace) :
    (onTrace part).run simulation = .ok value (simulation.setTrace trace) :=
  run_onPart_of_ok run

theorem run_onWorld_of_ok {α σ : Type} {part : Exec (World σ) α} {value : α}
    {simulation : Simulation σ} {world : World σ}
    (run : part.run simulation.world = .ok value world) :
    (onWorld part).run simulation = .ok value (simulation.setWorld world) :=
  run_onPart_of_ok run

theorem runLoop_ok (reads : Reads error accesses trace last) {fuel : Nat}
    (enough : accesses.length < fuel) (messages : List Message)
    {found : List (Nat × Option UInt8)}
    (run : (runAll (executeInFrame env policy) accesses).run world = .ok found after) :
    (runLoop env policy fuel).run ⟨trace, world, messages⟩ =
      .ok () ⟨last, after, messages ++ (comparisons accesses found ++ error.messages)⟩ := by
  induction accesses generalizing trace world messages found fuel with
  | nil =>
      obtain ⟨fuel, rfl⟩ := Nat.exists_eq_succ_of_ne_zero (Nat.ne_zero_of_lt enough)
      obtain ⟨rfl, rfl⟩ := EStateM.Result.ok.inj run
      have read : (onTrace traceRead : Exec (Simulation policy.State) _).run
          ⟨trace, world, messages⟩ = .ok (.error error) ⟨last, world, messages⟩ :=
        run_onTrace_of_ok reads
      rw [runLoop, run_bind_of_ok read]
      rfl
  | cons access accesses ih =>
      obtain ⟨fuel, rfl⟩ := Nat.exists_eq_succ_of_ne_zero (Nat.ne_zero_of_lt enough)
      obtain ⟨middle, accepted, reads⟩ := reads
      obtain ⟨value, next, others, stepRun, restRun, rfl⟩ := (runAll_cons_ok_iff _).mp run
      have read : (onTrace traceRead : Exec (Simulation policy.State) _).run
          ⟨trace, world, messages⟩ = .ok (.ok access) ⟨middle, world, messages⟩ :=
        run_onTrace_of_ok accepted
      have executed : (onWorld (executeInFrame env policy access)).run
          ⟨middle, world, messages⟩ = .ok value ⟨middle, next, messages⟩ :=
        run_onWorld_of_ok stepRun
      rw [runLoop, run_bind_of_ok read]
      dsimp only
      rw [run_bind_of_ok executed]
      have rest := ih reads (Nat.lt_of_succ_lt_succ enough) (messages ++ comparison access value)
        restRun
      rw [comparisons, List.append_assoc]
      rw [List.append_assoc] at rest
      exact rest

theorem runLoop_error (reads : Reads error accesses trace last) {fuel : Nat}
    (enough : accesses.length < fuel) (messages : List Message) {fault : Fault}
    (run : (runAll (executeInFrame env policy) accesses).run world = .error fault after) :
    ∃ stopped, (runLoop env policy fuel).run ⟨trace, world, messages⟩ = .error fault stopped ∧
      stopped.world = after := by
  induction accesses generalizing trace world messages fuel with
  | nil => contradiction
  | cons access accesses ih =>
      obtain ⟨fuel, rfl⟩ := Nat.exists_eq_succ_of_ne_zero (Nat.ne_zero_of_lt enough)
      obtain ⟨middle, accepted, reads⟩ := reads
      have read : (onTrace traceRead : Exec (Simulation policy.State) _).run
          ⟨trace, world, messages⟩ = .ok (.ok access) ⟨middle, world, messages⟩ :=
        run_onTrace_of_ok accepted
      rw [runLoop, run_bind_of_ok read]
      dsimp only
      cases step : (executeInFrame env policy access).run world with
      | error fault' next =>
          rw [run_runAll_cons_of_error _ step] at run
          cases run
          have stopped : (onWorld (executeInFrame env policy access)).run
              ⟨middle, world, messages⟩ = .error fault ⟨middle, after, messages⟩ := by
            rw [onWorld, run_onPart, step]
            rfl
          exact ⟨_, run_bind_of_error stopped, rfl⟩
      | ok value next =>
          have executed : (onWorld (executeInFrame env policy access)).run
              ⟨middle, world, messages⟩ = .ok value ⟨middle, next, messages⟩ :=
            run_onWorld_of_ok step
          rw [run_runAll_cons_of_ok _ step] at run
          rw [run_bind_of_ok executed]
          cases restRun : (runAll (executeInFrame env policy) accesses).run next with
          | ok others final =>
              rw [restRun] at run
              contradiction
          | error fault' final =>
              rw [restRun] at run
              cases run
              exact ih reads (Nat.lt_of_succ_lt_succ enough) (messages ++ comparison access value)
                restRun

theorem simulationRun_ok (reads : Reads error accesses trace last) (messages : List Message)
    {found : List (Nat × Option UInt8)}
    (run : (runAll (executeInFrame env policy) accesses).run world = .ok found after) :
    (simulationRun env policy).run ⟨trace, world, messages⟩ = .ok () ⟨last, after,
      messages ++ (comparisons accesses found ++ error.messages) ++ [.statistics after.stats]⟩ := by
  have looped := runLoop_ok reads (Nat.lt_succ_of_le reads.short) messages run
  simp only [simulationRun, EStateM.run_bind, EStateM.run_get, looped]
  rfl

theorem simulationRun_error (reads : Reads error accesses trace last) (messages : List Message)
    {fault : Fault}
    (run : (runAll (executeInFrame env policy) accesses).run world = .error fault after) :
    ∃ stopped, (simulationRun env policy).run ⟨trace, world, messages⟩ = .error fault stopped ∧
      stopped.world = after := by
  obtain ⟨stopped, looped, same⟩ :=
    runLoop_error reads (Nat.lt_succ_of_le reads.short) messages run
  refine ⟨stopped, ?_, same⟩
  simp only [simulationRun, EStateM.run_bind, EStateM.run_get, looped]

/-- On every trace file the loop ends: the reader accepts a list of accesses, and the
simulation returns or stops as the run over them does. -/
theorem simulationRun_ends (trace : Trace) : ∃ accesses error last,
    Reads error accesses trace last ∧ ∀ (world : World policy.State) (messages : List Message),
      (∀ found after, (runAll (executeInFrame env policy) accesses).run world = .ok found after →
        (simulationRun env policy).run ⟨trace, world, messages⟩ = .ok () ⟨last, after,
          messages ++ (comparisons accesses found ++ error.messages) ++
            [.statistics after.stats]⟩) ∧
      ∀ fault after, (runAll (executeInFrame env policy) accesses).run world = .error fault after →
        ∃ stopped, (simulationRun env policy).run ⟨trace, world, messages⟩ = .error fault stopped ∧
          stopped.world = after := by
  obtain ⟨accesses, error, last, reads⟩ := reads_total trace
  exact ⟨accesses, error, last, reads, fun world messages =>
    ⟨fun _ _ run => simulationRun_ok reads messages run,
      fun _ _ run => simulationRun_error reads messages run⟩⟩

end Loop

/-! ## The accesses of the loop -/

section Accesses
variable {world after : World policy.State} {access : MemAccess} {trace : List MemAccess}

/-- The frame is all that `executeInFrame` returns in addition. -/
theorem run_executeMemInstruction {found : Nat × Option UInt8}
    (run : (executeInFrame env policy access).run world = .ok found after) :
    (executeMemInstruction env policy access).run world = .ok found.2 after := by
  obtain ⟨frame, middle, translated, run⟩ := bind_ok_iff.mp run
  obtain ⟨value, last, accessed, run⟩ := bind_ok_iff.mp run
  obtain ⟨rfl, rfl⟩ := EStateM.Result.ok.inj run
  have split : executeMemInstruction env policy access =
      translate env policy access >>= fun frame => accessMemory env policy frame access := rfl
  rw [split, run_bind_of_ok translated]
  exact accessed

theorem runAll_executeMemInstruction {found : List (Nat × Option UInt8)}
    (run : (runAll (executeInFrame env policy) trace).run world = .ok found after) :
    (runAll (executeMemInstruction env policy) trace).run world =
      .ok (found.map Prod.snd) after := by
  induction trace generalizing world found with
  | nil =>
      obtain ⟨rfl, rfl⟩ := EStateM.Result.ok.inj run
      rfl
  | cons access rest ih =>
      obtain ⟨value, middle, others, stepRun, restRun, rfl⟩ := (runAll_cons_ok_iff _).mp run
      rw [run_runAll_cons_of_ok _ (run_executeMemInstruction stepRun), ih restRun]
      rfl

theorem executes_executeInFrame : Executes env policy (executeInFrame env policy) := by
  intro access world
  have split : executeInFrame env policy access = translate env policy access >>= fun frame =>
      accessMemory env policy frame access >>= fun found => pure (frame, found) := rfl
  cases run : (translate env policy access).run world with
  | error fault after => exact .inl ⟨fault, after, rfl, split ▸ run_bind_of_error run⟩
  | ok frame middle =>
      refine .inr ⟨frame, middle, rfl, ?_⟩
      rw [split, run_bind_of_ok run]
      rcases accessMemory_cases env policy frame access middle with
        accessed | ⟨value, physmem, accessed⟩
      · exact .inl (run_bind_of_error accessed)
      · exact .inr ⟨(frame, value), physmem, run_bind_of_ok accessed⟩

theorem finishes_executeInFrame (root : Addr) :
    Finishes env policy root
      (fun access => access.virtualAddress < 2 ^ 48 ∧ access.virtualAddress % pageSize ≤ 15)
      (executeInFrame env policy) := by
  intro access allowed world coherent frame middle translated
  obtain ⟨value, physmem, run⟩ :=
    finishes_executeMemInstruction root access allowed world coherent frame middle translated
  have split : executeMemInstruction env policy access =
      translate env policy access >>= fun frame => accessMemory env policy frame access := rfl
  have split' : executeInFrame env policy access = translate env policy access >>= fun frame =>
      accessMemory env policy frame access >>= fun found => pure (frame, found) := rfl
  rw [split, run_bind_of_ok translated] at run
  refine ⟨(frame, value), physmem, ?_⟩
  rw [split', run_bind_of_ok translated, run_bind_of_ok run]
  rfl

/-- Every read of the trace has the value that was written last. -/
def Consistent (earlier accesses : List MemAccess) : Prop :=
  ∀ front access rest, accesses = front ++ access :: rest → access.type.isWrite = false →
    access.value = lastWritten (earlier ++ front) access.virtualAddress

theorem consistent_cons {earlier rest : List MemAccess} :
    Consistent earlier (access :: rest) ↔
      (access.type.isWrite = false → access.value = lastWritten earlier access.virtualAddress) ∧
        Consistent (earlier ++ [access]) rest := by
  constructor
  · intro consistent
    refine ⟨fun read => ?_, fun front other later split read => ?_⟩
    · have here := consistent [] access rest rfl read
      rwa [List.append_nil] at here
    · rw [List.append_assoc]
      exact consistent (access :: front) other later (by rw [split]; rfl) read
  · rintro ⟨here, there⟩ front other later split read
    cases front with
    | nil =>
        cases split
        rw [List.append_nil]
        exact here read
    | cons first front =>
        cases split
        have elsewhere := there front other later rfl read
        rwa [List.append_assoc] at elsewhere

theorem comparisons_eq_nil_iff {earlier : List MemAccess} {found : List (Nat × Option UInt8)}
    (same : found.map Prod.snd = flatReads earlier trace) :
    comparisons trace found = [] ↔ Consistent earlier trace := by
  induction trace generalizing earlier found with
  | nil =>
      refine ⟨fun _ front access rest split => ?_, fun _ => by cases found <;> rfl⟩
      exact absurd split (by simp)
  | cons access rest ih =>
      cases found with
      | nil => contradiction
      | cons value others =>
          obtain ⟨here, there⟩ := List.cons.inj same
          rw [comparisons, List.append_eq_nil_iff, ih there, consistent_cons]
          refine and_congr_left fun _ => ?_
          obtain ⟨frame, actual⟩ := value
          cases write : access.type.isWrite with
          | true =>
              rw [write, if_pos rfl] at here
              cases here
              simp [comparison]
          | false =>
              rw [write, if_neg Bool.false_ne_true] at here
              cases here
              simp [comparison, eq_comm]

end Accesses

end MemSim
