import Mathlib.Algebra.Group.Nat.Defs
import Mathlib.Logic.Function.Basic
import Mathlib.Data.List.Basic

/-!
# Computations that may stop with a fault

A program step is an `EStateM` computation: it returns a value and a state, or
it stops with a fault and leaves the state it had reached.  This file collects
what the later proofs use about such computations: inversion of sequencing,
running a computation on one component of a larger state, relations that every
run keeps, pairs of computations that mirror each other, and runs over a list
of inputs.  Nothing here mentions a particular program.
-/

set_option autoImplicit false

namespace MemSim.Exec

variable {ε σ τ α β : Type}

/-- The state a computation leaves, whether it returned or stopped. -/
def finalState : EStateM.Result ε σ α → σ
  | .ok _ state => state
  | .error _ state => state

@[simp] theorem finalState_ok (value : α) (state : σ) :
    finalState (.ok value state : EStateM.Result ε σ α) = state := rfl

@[simp] theorem finalState_error (fault : ε) (state : σ) :
    finalState (.error fault state : EStateM.Result ε σ α) = state := rfl

def stop (fault : ε) : EStateM ε σ α := fun state => .error fault state

@[simp] theorem run_stop (fault : ε) (state : σ) :
    (stop fault : EStateM ε σ α).run state = .error fault state := rfl

def require (condition : Bool) (fault : ε) : EStateM ε σ Unit :=
  if condition then pure () else stop fault

@[simp] theorem run_require_true (fault : ε) (state : σ) :
    (require true fault : EStateM ε σ Unit).run state = .ok () state := rfl

@[simp] theorem run_require_false (fault : ε) (state : σ) :
    (require false fault : EStateM ε σ Unit).run state = .error fault state := rfl

def onlyIf (condition : Bool) (part : EStateM ε σ Unit) : EStateM ε σ Unit :=
  if condition then part else pure ()

@[simp] theorem onlyIf_true (part : EStateM ε σ Unit) : onlyIf true part = part := rfl

@[simp] theorem onlyIf_false (part : EStateM ε σ Unit) : onlyIf false part = pure () := rfl

@[simp] theorem run_map (change : α → β) (computation : EStateM ε σ α) (state : σ) :
    (change <$> computation).run state =
      match computation.run state with
      | .ok value final => .ok (change value) final
      | .error fault final => .error fault final := by
  change EStateM.map change computation state = _
  rfl

/-- Go on with the value of a request that gave one; pass `none` on otherwise. -/
def whenSome (request : EStateM ε σ (Option α)) (next : α → EStateM ε σ (Option β)) :
    EStateM ε σ (Option β) := do
  match ← request with
  | none => pure none
  | some value => next value

theorem run_whenSome_of_some {request : EStateM ε σ (Option α)}
    {next : α → EStateM ε σ (Option β)} {state middle : σ} {value : α}
    (requestRun : request.run state = .ok (some value) middle) :
    (whenSome request next).run state = (next value).run middle := by
  simp only [whenSome, EStateM.run_bind, requestRun]

theorem run_whenSome_of_none {request : EStateM ε σ (Option α)}
    {next : α → EStateM ε σ (Option β)} {state middle : σ}
    (requestRun : request.run state = .ok none middle) :
    (whenSome request next).run state = .ok none middle := by
  simp only [whenSome, EStateM.run_bind, requestRun, EStateM.run_pure]

/-! ## Inversion -/

theorem run_bind_of_ok {first : EStateM ε σ α} {next : α → EStateM ε σ β}
    {state middle : σ} {value : α} (firstRun : first.run state = .ok value middle) :
    (first >>= next).run state = (next value).run middle := by
  rw [EStateM.run_bind, firstRun]

theorem run_bind_of_error {first : EStateM ε σ α} {next : α → EStateM ε σ β}
    {state middle : σ} {fault : ε} (firstRun : first.run state = .error fault middle) :
    (first >>= next).run state = .error fault middle := by
  rw [EStateM.run_bind, firstRun]

theorem bind_ok_iff {first : EStateM ε σ α} {next : α → EStateM ε σ β}
    {state final : σ} {value : β} :
    (first >>= next).run state = .ok value final ↔
      ∃ middleValue middle, first.run state = .ok middleValue middle ∧
        (next middleValue).run middle = .ok value final := by
  rw [EStateM.run_bind]
  cases firstRun : first.run state with
  | ok middleValue middle => simp
  | error fault middle => simp

theorem require_ok_iff {condition : Bool} {fault : ε} {state final : σ} {value : Unit} :
    (require condition fault).run state = .ok value final ↔ condition = true ∧ state = final := by
  cases condition with
  | false => simp
  | true => simp

/-! ## One component of a larger state -/

/-- Run a computation on the part of the state that `get` reads and `put`
writes back. -/
def onPart (get : τ → σ) (put : τ → σ → τ) (part : EStateM ε σ α) : EStateM ε τ α :=
  fun whole =>
    match part.run (get whole) with
    | .ok value state => .ok value (put whole state)
    | .error fault state => .error fault (put whole state)

theorem run_onPart (get : τ → σ) (put : τ → σ → τ) (part : EStateM ε σ α) (whole : τ) :
    (onPart get put part).run whole =
      match part.run (get whole) with
      | .ok value state => .ok value (put whole state)
      | .error fault state => .error fault (put whole state) := rfl

theorem run_onPart_of_ok {get : τ → σ} {put : τ → σ → τ} {part : EStateM ε σ α}
    {whole : τ} {value : α} {state : σ} (partRun : part.run (get whole) = .ok value state) :
    (onPart get put part).run whole = .ok value (put whole state) := by
  rw [run_onPart, partRun]

theorem onPart_ok_iff {get : τ → σ} {put : τ → σ → τ} {part : EStateM ε σ α}
    {whole final : τ} {value : α} :
    (onPart get put part).run whole = .ok value final ↔
      ∃ state, part.run (get whole) = .ok value state ∧ final = put whole state := by
  rw [run_onPart]
  cases part.run (get whole) with
  | ok partValue state =>
      simp only [EStateM.Result.ok.injEq]
      constructor
      · rintro ⟨rfl, rfl⟩
        exact ⟨state, ⟨rfl, rfl⟩, rfl⟩
      · rintro ⟨_, ⟨rfl, rfl⟩, rfl⟩
        exact ⟨rfl, rfl⟩
  | error fault state => simp

/-! ## Relations kept by every run -/

/-- Whatever happens, the state left is related to the one found. -/
def Keeps (related : σ → σ → Prop) (computation : EStateM ε σ α) : Prop :=
  ∀ state, related state (finalState (computation.run state))

section Keeps
variable {related : σ → σ → Prop}

theorem keeps_ok {computation : EStateM ε σ α} (kept : Keeps related computation)
    {state final : σ} {value : α} (run : computation.run state = .ok value final) :
    related state final := by
  have here := kept state
  rwa [run] at here

theorem keeps_pure (refl : ∀ state, related state state) (value : α) :
    Keeps related (pure value : EStateM ε σ α) := fun state => refl state

theorem keeps_get (refl : ∀ state, related state state) :
    Keeps related (get : EStateM ε σ σ) := fun state => refl state

theorem keeps_stop (refl : ∀ state, related state state) (fault : ε) :
    Keeps related (stop fault : EStateM ε σ α) := fun state => refl state

theorem keeps_require (refl : ∀ state, related state state) (condition : Bool) (fault : ε) :
    Keeps related (require condition fault : EStateM ε σ Unit) := by
  intro state
  cases condition <;> exact refl state

theorem keeps_modify {change : σ → σ} (changed : ∀ state, related state (change state)) :
    Keeps related (modify change : EStateM ε σ Unit) := fun state => changed state

theorem keeps_bind (trans : ∀ a b c, related a b → related b c → related a c)
    {first : EStateM ε σ α} {next : α → EStateM ε σ β}
    (firstKeeps : Keeps related first) (nextKeeps : ∀ value, Keeps related (next value)) :
    Keeps related (first >>= next) := by
  intro state
  have here := firstKeeps state
  rw [EStateM.run_bind]
  cases firstRun : first.run state with
  | ok value middle =>
      rw [firstRun] at here
      exact trans _ _ _ here (nextKeeps value middle)
  | error fault middle =>
      rw [firstRun] at here
      exact here

theorem keeps_ite {condition : Prop} [Decidable condition] {yes no : EStateM ε σ α}
    (yesKeeps : Keeps related yes) (noKeeps : Keeps related no) :
    Keeps related (if condition then yes else no) := by
  split
  · exact yesKeeps
  · exact noKeeps

theorem keeps_onlyIf (refl : ∀ state, related state state) (condition : Bool)
    {part : EStateM ε σ Unit} (partKeeps : Keeps related part) :
    Keeps related (onlyIf condition part) := by
  cases condition
  · exact keeps_pure refl ()
  · exact partKeeps

theorem keeps_onPart {whole : τ → τ → Prop} {get : τ → σ} {put : τ → σ → τ}
    {part : EStateM ε σ α} (partKeeps : Keeps related part)
    (lift : ∀ state next, related (get state) next → whole state (put state next)) :
    Keeps whole (onPart get put part) := by
  intro state
  have here := partKeeps (get state)
  rw [run_onPart]
  cases partRun : part.run (get state) with
  | ok value next =>
      rw [partRun] at here
      exact lift state next here
  | error fault next =>
      rw [partRun] at here
      exact lift state next here

end Keeps

/-! ## Pairs of computations that mirror each other -/

/-- Both returned the same value or stopped with the same fault, in related states. -/
def SameResult (related : σ → σ → Prop) :
    EStateM.Result ε σ α → EStateM.Result ε σ α → Prop
  | .ok value state, .ok value' state' => value = value' ∧ related state state'
  | .error fault state, .error fault' state' => fault = fault' ∧ related state state'
  | _, _ => False

theorem SameResult.eq {first second : EStateM.Result ε σ α}
    (same : SameResult (fun state other => other = state) first second) : second = first := by
  cases first with
  | ok value state =>
      cases second with
      | ok value' state' => rw [same.1, same.2]
      | error fault' state' => exact same.elim
  | error fault state =>
      cases second with
      | ok value' state' => exact same.elim
      | error fault' state' => rw [same.1, same.2]

/-- From related states, the first of which meets the condition, both computations
come out the same. -/
def Mirrors (related : σ → σ → Prop) (condition : σ → Prop) (first second : EStateM ε σ α) :
    Prop :=
  ∀ state other, condition state → related state other →
    SameResult related (first.run state) (second.run other)

section Mirrors
variable {related : σ → σ → Prop} {condition : σ → Prop}

theorem mirrors_pure (value : α) :
    Mirrors related condition (pure value : EStateM ε σ α) (pure value) :=
  fun _ _ _ same => ⟨rfl, same⟩

theorem mirrors_stop (fault : ε) :
    Mirrors related condition (stop fault : EStateM ε σ α) (stop fault) :=
  fun _ _ _ same => ⟨rfl, same⟩

theorem mirrors_require (required : Bool) (fault : ε) :
    Mirrors related condition (require required fault : EStateM ε σ Unit)
      (require required fault) := by
  cases required
  · exact mirrors_stop fault
  · exact mirrors_pure ()

theorem mirrors_modify {change change' : σ → σ}
    (changed : ∀ state other, related state other → related (change state) (change' other)) :
    Mirrors related condition (modify change : EStateM ε σ Unit) (modify change') :=
  fun state other _ same => ⟨rfl, changed state other same⟩

theorem mirrors_self (part : EStateM ε σ α) :
    Mirrors (fun state other => other = state) condition part part := by
  intro state other _ same
  obtain rfl : other = state := same
  cases part.run other with
  | ok value after => exact ⟨rfl, rfl⟩
  | error fault after => exact ⟨rfl, rfl⟩

theorem Mirrors.weaken {stronger : σ → Prop} {first second : EStateM ε σ α}
    (mirrors : Mirrors related condition first second)
    (implied : ∀ state, stronger state → condition state) :
    Mirrors related stronger first second :=
  fun state other holds same => mirrors state other (implied state holds) same

theorem mirrors_bind {reached : α → σ → Prop} {first second : EStateM ε σ α}
    {next next' : α → EStateM ε σ β} (firstMirrors : Mirrors related condition first second)
    (reaches : ∀ state value middle, condition state → first.run state = .ok value middle →
      reached value middle)
    (nextMirrors : ∀ value, Mirrors related (reached value) (next value) (next' value)) :
    Mirrors related condition (first >>= next) (second >>= next') := by
  intro state other holds same
  have here := firstMirrors state other holds same
  rw [EStateM.run_bind, EStateM.run_bind]
  cases firstRun : first.run state with
  | ok value middle =>
      have reachedHere := reaches state value middle holds firstRun
      rw [firstRun] at here
      cases secondRun : second.run other with
      | ok value' middle' =>
          rw [secondRun] at here
          obtain ⟨rfl, related'⟩ := here
          exact nextMirrors value middle middle' reachedHere related'
      | error fault middle' =>
          rw [secondRun] at here
          exact here.elim
  | error fault middle =>
      rw [firstRun] at here
      cases secondRun : second.run other with
      | ok value' middle' =>
          rw [secondRun] at here
          exact here.elim
      | error fault' middle' =>
          rw [secondRun] at here
          exact here

theorem mirrors_seq {first second : EStateM ε σ α} {next next' : α → EStateM ε σ β}
    (firstMirrors : Mirrors related (fun _ => True) first second)
    (nextMirrors : ∀ value, Mirrors related (fun _ => True) (next value) (next' value)) :
    Mirrors related (fun _ => True) (first >>= next) (second >>= next') :=
  mirrors_bind firstMirrors (fun _ _ _ _ _ => trivial) nextMirrors

theorem mirrors_get {next next' : σ → EStateM ε σ β}
    (nextMirrors : ∀ state other, condition state → related state other →
      SameResult related ((next state).run state) ((next' other).run other)) :
    Mirrors related condition (get >>= next) (get >>= next') :=
  nextMirrors

theorem mirrors_ite {test : Prop} [Decidable test] {yes no yes' no' : EStateM ε σ α}
    (yesMirrors : test → Mirrors related condition yes yes')
    (noMirrors : ¬ test → Mirrors related condition no no') :
    Mirrors related condition (if test then yes else no) (if test then yes' else no') := by
  split
  · rename_i here
    exact yesMirrors here
  · rename_i here
    exact noMirrors here

theorem mirrors_onPart {whole : τ → τ → Prop} {started : τ → Prop} {get : τ → σ}
    {put : τ → σ → τ} {first second : EStateM ε σ α}
    (mirrors : Mirrors related condition first second)
    (here : ∀ state, started state → condition (get state))
    (down : ∀ state other, whole state other → related (get state) (get other))
    (up : ∀ state other next next', whole state other → related next next' →
      whole (put state next) (put other next')) :
    Mirrors whole started (onPart get put first) (onPart get put second) := by
  intro state other holds same
  have inner := mirrors (get state) (get other) (here state holds) (down state other same)
  rw [run_onPart, run_onPart]
  cases firstRun : first.run (get state) with
  | ok value next =>
      rw [firstRun] at inner
      cases secondRun : second.run (get other) with
      | ok value' next' =>
          rw [secondRun] at inner
          exact ⟨inner.1, up state other next next' same inner.2⟩
      | error fault next' =>
          rw [secondRun] at inner
          exact inner.elim
  | error fault next =>
      rw [firstRun] at inner
      cases secondRun : second.run (get other) with
      | ok value' next' =>
          rw [secondRun] at inner
          exact inner.elim
      | error fault' next' =>
          rw [secondRun] at inner
          exact ⟨inner.1, up state other next next' same inner.2⟩

end Mirrors

/-- The loop `for (i = first; i < first + count; i++)`. -/
def forRange (body : Nat → EStateM ε σ Unit) : (first count : Nat) → EStateM ε σ Unit
  | _, 0 => pure ()
  | first, count + 1 => do
      body first
      forRange body (first + 1) count

theorem keeps_forRange {related : σ → σ → Prop} (refl : ∀ state, related state state)
    (trans : ∀ a b c, related a b → related b c → related a c)
    {body : Nat → EStateM ε σ Unit} (bodyKeeps : ∀ index, Keeps related (body index))
    (first count : Nat) : Keeps related (forRange body first count) := by
  induction count generalizing first with
  | zero => exact keeps_pure refl ()
  | succ count ih => exact keeps_bind trans (bodyKeeps first) fun _ => ih (first + 1)

/-! ## Runs over a list of inputs -/

/-- Apply the step to every input in order, collecting what it returns. -/
def runAll (step : α → EStateM ε σ β) : List α → EStateM ε σ (List β)
  | [] => pure []
  | input :: rest => do
      let value ← step input
      let values ← runAll step rest
      pure (value :: values)

section RunAll
variable (step : α → EStateM ε σ β)

@[simp] theorem run_runAll_nil (state : σ) :
    (runAll step []).run state = .ok [] state := rfl

theorem run_runAll_cons_of_ok {input : α} {rest : List α} {state middle : σ} {value : β}
    (stepRun : (step input).run state = .ok value middle) :
    (runAll step (input :: rest)).run state =
      match (runAll step rest).run middle with
      | .ok values final => .ok (value :: values) final
      | .error fault final => .error fault final := by
  simp only [runAll, EStateM.run_bind, stepRun]
  cases (runAll step rest).run middle <;> rfl

theorem run_runAll_cons_of_error {input : α} {rest : List α} {state middle : σ} {fault : ε}
    (stepRun : (step input).run state = .error fault middle) :
    (runAll step (input :: rest)).run state = .error fault middle := by
  simp only [runAll, EStateM.run_bind, stepRun]

theorem finalState_runAll_cons_of_ok {input : α} {rest : List α} {state middle : σ} {value : β}
    (stepRun : (step input).run state = .ok value middle) :
    finalState ((runAll step (input :: rest)).run state) =
      finalState ((runAll step rest).run middle) := by
  rw [run_runAll_cons_of_ok step stepRun]
  cases (runAll step rest).run middle <;> rfl

theorem runAll_cons_ok_iff {input : α} {rest : List α} {state final : σ} {values : List β} :
    (runAll step (input :: rest)).run state = .ok values final ↔
      ∃ value middle others, (step input).run state = .ok value middle ∧
        (runAll step rest).run middle = .ok others final ∧ values = value :: others := by
  constructor
  · intro run
    simp only [runAll] at run
    obtain ⟨value, middle, stepRun, run⟩ := bind_ok_iff.mp run
    obtain ⟨others, last, restRun, run⟩ := bind_ok_iff.mp run
    simp only [EStateM.run_pure, EStateM.Result.ok.injEq] at run
    obtain ⟨rfl, rfl⟩ := run
    exact ⟨value, middle, others, stepRun, restRun, rfl⟩
  · rintro ⟨value, middle, others, stepRun, restRun, rfl⟩
    rw [run_runAll_cons_of_ok step stepRun, restRun]

theorem runAll_length {inputs : List α} {state final : σ} {values : List β}
    (run : (runAll step inputs).run state = .ok values final) :
    values.length = inputs.length := by
  induction inputs generalizing state values with
  | nil =>
      simp only [run_runAll_nil, EStateM.Result.ok.injEq] at run
      simp [← run.1]
  | cons input rest ih =>
      obtain ⟨value, middle, others, -, restRun, rfl⟩ := (runAll_cons_ok_iff step).mp run
      simp [ih restRun]

/-- A run that returns past the inputs of `front` has returned from them. -/
theorem runAll_append_ok {front back : List α} {state final : σ} {values : List β}
    (run : (runAll step (front ++ back)).run state = .ok values final) :
    ∃ first middle second, (runAll step front).run state = .ok first middle ∧
      (runAll step back).run middle = .ok second final ∧ values = first ++ second := by
  induction front generalizing state values with
  | nil => exact ⟨[], state, values, rfl, run, rfl⟩
  | cons input rest ih =>
      rw [List.cons_append] at run
      obtain ⟨value, next, others, stepRun, restRun, rfl⟩ := (runAll_cons_ok_iff step).mp run
      obtain ⟨first, middle, second, frontRun, backRun, rfl⟩ := ih restRun
      refine ⟨value :: first, middle, second, ?_, backRun, rfl⟩
      rw [run_runAll_cons_of_ok step stepRun, frontRun]

theorem finalState_runAll_append_of_ok {front back : List α} {state middle : σ} {values : List β}
    (run : (runAll step front).run state = .ok values middle) :
    finalState ((runAll step (front ++ back)).run state) =
      finalState ((runAll step back).run middle) := by
  induction front generalizing state values with
  | nil =>
      simp only [run_runAll_nil, EStateM.Result.ok.injEq] at run
      rw [List.nil_append, run.2]
  | cons input rest ih =>
      obtain ⟨value, next, others, stepRun, restRun, -⟩ := (runAll_cons_ok_iff step).mp run
      rw [List.cons_append, finalState_runAll_cons_of_ok step stepRun]
      exact ih restRun

theorem keeps_runAll {related : σ → σ → Prop} (refl : ∀ state, related state state)
    (trans : ∀ a b c, related a b → related b c → related a c)
    (stepKeeps : ∀ input, Keeps related (step input)) (inputs : List α) :
    Keeps related (runAll step inputs) := by
  induction inputs with
  | nil => exact keeps_pure refl []
  | cons input rest ih =>
      exact keeps_bind trans (stepKeeps input) fun value =>
        keeps_bind trans ih fun values => keeps_pure refl _

theorem mirrors_runAll {related : σ → σ → Prop} {condition : σ → Prop} {allowed : α → Prop}
    {step step' : α → EStateM ε σ β}
    (stepMirrors : ∀ input, allowed input → Mirrors related condition (step input) (step' input))
    (preserved : ∀ input state value next, allowed input → condition state →
      (step input).run state = .ok value next → condition next)
    (inputs : List α) (inputsAllowed : ∀ input ∈ inputs, allowed input) :
    Mirrors related condition (runAll step inputs) (runAll step' inputs) := by
  induction inputs with
  | nil => exact mirrors_pure []
  | cons input rest ih =>
      have here := inputsAllowed input List.mem_cons_self
      apply mirrors_bind (stepMirrors input here)
        (fun state value middle holds run => preserved input state value middle here holds run)
      intro value
      apply mirrors_bind (ih fun other member => inputsAllowed other (List.mem_cons_of_mem _ member))
        (fun _ _ _ _ _ => trivial)
      intro values
      exact mirrors_pure _

/-- What holds at the start and is preserved by every step that returns holds
wherever a run returns. -/
theorem runAll_invariant {invariant : σ → Prop} {allowed : α → Prop}
    (preserved : ∀ input state value next, allowed input → invariant state →
      (step input).run state = .ok value next → invariant next)
    {inputs : List α} {state final : σ} {values : List β}
    (inputsAllowed : ∀ input ∈ inputs, allowed input) (start : invariant state)
    (run : (runAll step inputs).run state = .ok values final) : invariant final := by
  induction inputs generalizing state values with
  | nil =>
      simp only [run_runAll_nil, EStateM.Result.ok.injEq] at run
      rw [← run.2]
      exact start
  | cons input rest ih =>
      obtain ⟨value, middle, others, stepRun, restRun, -⟩ := (runAll_cons_ok_iff step).mp run
      have middleInvariant := preserved input state value middle
        (inputsAllowed input (by simp)) start stepRun
      exact ih (fun other member => inputsAllowed other (by simp [member]))
        middleInvariant restRun

theorem runAll_keeps {invariant kept : σ → Prop} {allowed : α → Prop}
    (preserved : ∀ input state value next, allowed input → invariant state → kept state →
      (step input).run state = .ok value next → invariant next)
    (stepKeeps : ∀ input state, allowed input → invariant state → kept state →
      kept (finalState ((step input).run state)))
    {inputs : List α} (inputsAllowed : ∀ input ∈ inputs, allowed input) {state : σ}
    (start : invariant state) (here : kept state) :
    kept (finalState ((runAll step inputs).run state)) := by
  induction inputs generalizing state with
  | nil => exact here
  | cons input rest ih =>
      have allowedHere := inputsAllowed input List.mem_cons_self
      have after := stepKeeps input state allowedHere start here
      cases stepRun : (step input).run state with
      | error fault middle =>
          rw [stepRun] at after
          rw [run_runAll_cons_of_error step stepRun]
          exact after
      | ok value middle =>
          rw [stepRun] at after
          rw [finalState_runAll_cons_of_ok step stepRun]
          exact ih (fun other member => inputsAllowed other (List.mem_cons_of_mem _ member))
            (preserved input state value middle allowedHere start here stepRun) after

end RunAll

end MemSim.Exec
