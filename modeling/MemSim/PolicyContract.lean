import MemSim.SimulationRun

/-!
# What a simulation expects of its policy

A policy that keeps an invariant under which `CSC369_Evict` returns a frame and
`CSC369_OnReference` returns comes back from every call of every run.  Round
robin and random replacement need little for it.
-/

set_option autoImplicit false

namespace MemSim

open Exec

/-! ## Steps of a run -/

section Executes
variable {β : Type} (env : Env) (policy : Policy)

/-- A translation, followed by at most a write to physical memory. -/
def Executes (step : MemAccess → Exec (World policy.State) β) : Prop := ∀ access world,
  (∃ fault after, (translate env policy access).run world = .error fault after ∧
    (step access).run world = .error fault after) ∨
  ∃ frame middle, (translate env policy access).run world = .ok frame middle ∧
    ((step access).run world = .error .outOfBounds middle ∨
      ∃ value physmem, (step access).run world =
        .ok value (middle.setStorage { middle.storage with physmem := physmem }))

theorem executes_translate : Executes env policy (translate env policy) := by
  intro access world
  cases run : (translate env policy access).run world with
  | error fault after => exact .inl ⟨fault, after, rfl, rfl⟩
  | ok frame middle => exact .inr ⟨frame, middle, rfl, .inr ⟨frame, middle.storage.physmem, rfl⟩⟩

theorem accessMemory_cases (frame : Nat) (access : MemAccess) (world : World policy.State) :
    (accessMemory env policy frame access).run world = .error .outOfBounds world ∨
      ∃ value physmem, (accessMemory env policy frame access).run world =
        .ok value (world.setStorage { world.storage with physmem := physmem }) := by
  rcases Bool.eq_false_or_eq_true (decide (0 ≤ physIndex frame access.virtualAddress ∧
      physIndex frame access.virtualAddress < (env.memsize * simulatedFrameSize : Nat))) with
    inside | outside
  · right
    simp only [accessMemory, EStateM.run_bind, inside, run_require_true]
    split
    · exact ⟨none, _, rfl⟩
    · exact ⟨_, world.storage.physmem, rfl⟩
  · left
    simp only [accessMemory, EStateM.run_bind, outside, run_require_false]

theorem executes_executeMemInstruction : Executes env policy (executeMemInstruction env policy) := by
  intro access world
  have split : executeMemInstruction env policy access =
      translate env policy access >>= fun frame => accessMemory env policy frame access := rfl
  cases run : (translate env policy access).run world with
  | error fault after => exact .inl ⟨fault, after, rfl, split ▸ run_bind_of_error run⟩
  | ok frame middle =>
      right
      refine ⟨frame, middle, rfl, ?_⟩
      rw [split, run_bind_of_ok run]
      exact accessMemory_cases env policy frame access middle

end Executes

section Runs
variable {β : Type} {env : Env} {policy : Policy} {root : Addr} {access : MemAccess}
  {step : MemAccess → Exec (World policy.State) β} {world after : World policy.State}
  (executes : Executes env policy step)
include executes

theorem Executes.coherent (coherent : world.Coherent env root none) {value : β}
    (run : (step access).run world = .ok value after) : after.Coherent env root none := by
  rcases executes access world with
    ⟨fault, after, translated, run'⟩ | ⟨frame, middle, translated, run' | ⟨value', physmem, run'⟩⟩
  · cases run.symm.trans run'
  · cases run.symm.trans run'
  · cases run.symm.trans run'
    have coherent' := translate_coherent coherent translated
    exact coherent'.setStorage coherent'.swapmap

theorem Executes.log_eq (access : MemAccess) (world : World policy.State) :
    (finalState ((step access).run world)).log =
      (finalState ((translate env policy access).run world)).log := by
  rcases executes access world with
    ⟨fault, after, translated, run⟩ | ⟨frame, middle, translated, run | ⟨value, physmem, run⟩⟩
  · simp only [translated, run, finalState_error]
  · simp only [translated, run, finalState_error, finalState_ok]
  · simp only [translated, run, finalState_ok, World.setStorage]

theorem run_logged {logged : List Event → Prop} {invariant : World policy.State → Prop}
    {allowed : MemAccess → Prop}
    (translated : ∀ access world, allowed access → invariant world → logged world.log →
      logged (finalState ((translate env policy access).run world)).log)
    (preserved : ∀ access world value next, allowed access → invariant world →
      logged world.log → (step access).run world = .ok value next → invariant next)
    (trace : List MemAccess) (traceAllowed : ∀ access ∈ trace, allowed access)
    (holds : invariant world) (start : logged world.log) :
    logged (finalState ((runAll step trace).run world)).log := by
  have stepKeeps : ∀ access world, allowed access → invariant world → logged world.log →
      logged (finalState ((step access).run world)).log := by
    intro access world allowedHere here before
    rw [executes.log_eq]
    exact translated access world allowedHere here before
  exact @runAll_keeps _ _ _ _ step invariant (fun world => logged world.log) allowed preserved
    stepKeeps trace traceAllowed world holds start

end Runs

/-! ## The contract -/

section Contract
variable (env : Env) (policy : Policy) (root : Addr)

/-- An invariant under which every call to the policy comes back. -/
structure PolicyContract (holds : World policy.State → Prop) : Prop where
  storage : ∀ {world} storage, holds world → holds (world.setStorage storage)
  allocated : ∀ {world heap page pte}, holds world → world.Coherent env root none →
    world.heap.Allocated heap (· = root) root page pte → holds (world.setHeap heap).countMiss
  evict : ∀ {world}, holds world → world.Coherent env root none →
    findFreeFrom world.frames 0 env.memsize = none → ∃ frame state,
      (policy.evict env.memsize).run world.policyState = .ok frame state ∧ frame < env.memsize
  reference : ∀ {world access frame after}, holds world → world.Coherent env root none →
    Translates env policy root access world frame after → ∃ state,
      (policy.onRef env.memsize frame).run after.policyState = .ok () state ∧
        holds ((after.setPolicyState state).record (.referenced frame true))

variable {env policy root}

theorem Obtains.log {world after : World policy.State} {frame : Nat}
    (obtains : Obtains env policy world frame after) :
    ∃ ext, after.log = world.log ++ ext ∧ PolicyReturns env.memsize ext := by
  cases obtains with
  | free found => exact ⟨[], by simp, by simp [PolicyReturns]⟩
  | @evicted state victim entry result storage found evict bound owner here valid number pageOut =>
      refine ⟨_, List.append_assoc _ _ _, ?_⟩
      rintro event (_ | ⟨_, _ | ⟨_, none'⟩⟩)
      · exact bound
      · trivial
      · contradiction

theorem Translates.log {world after : World policy.State} {access : MemAccess} {frame : Nat}
    (translates : Translates env policy root access world frame after) :
    ∃ ext, after.log = world.log ++ ext ∧ PolicyReturns env.memsize ext := by
  cases translates with
  | hit leaf here valid => exact ⟨[], by simp [World.afterAccess, World.countHit, World.setStats],
      by simp [PolicyReturns]⟩
  | miss allocated here invalid obtains there same fills => exact obtains.log

variable {holds : World policy.State → Prop} (contract : PolicyContract env policy root holds)
include contract

theorem PolicyContract.translate_keeps {world : World policy.State} {access : MemAccess}
    (here : holds world) (coherent : world.Coherent env root none)
    (returns : PolicyReturns env.memsize world.log) :
    PolicyReturns env.memsize (finalState ((translate env policy access).run world)).log ∧
      ∀ frame after, (translate env policy access).run world = .ok frame after → holds after := by
  have outcome := @translate_outcome env policy root access world coherent
  generalize (translate env policy access).run world = result at outcome
  cases outcome with
  | stops stops =>
      refine ⟨?_, fun _ _ same => by contradiction⟩
      cases stops with
      | outside wide => exact returns
      | refused fault log refused => exact returns
      | @evictFails heap pte old fault after allocated there invalid fails =>
          have counted : ((world.setHeap heap).countMiss).Coherent env root none :=
            (coherent.allocated allocated).setStats _
          have here' := contract.allocated here coherent allocated
          cases fails with
          | stopped full run =>
              obtain ⟨frame, state, run', -⟩ := contract.evict here' counted full
              rw [run] at run'
              contradiction
          | outside full run wide =>
              obtain ⟨frame, state, run', bound⟩ := contract.evict here' counted full
              rw [run] at run'
              cases run'
              omega
      | lost allocated there invalid obtains found same onSwap isLost =>
          obtain ⟨ext, log, extReturns⟩ := obtains.log
          exact log ▸ policyReturns_append.mpr ⟨returns, extReturns⟩
  | @refFails frame after fault state translates onRef =>
      obtain ⟨state', onRef', -⟩ := contract.reference here coherent translates
      rw [onRef] at onRef'
      contradiction
  | @done frame after state translates onRef =>
      obtain ⟨state', onRef', held⟩ := contract.reference here coherent translates
      cases onRef.symm.trans onRef'
      obtain ⟨ext, log, extReturns⟩ := translates.log
      refine ⟨?_, fun frame' after' same => by cases same; exact held⟩
      refine policyReturns_append.mpr ⟨?_, by simp [PolicyReturns, Event.Returned]⟩
      exact log ▸ policyReturns_append.mpr ⟨returns, extReturns⟩

theorem PolicyContract.run_returns {β : Type} {step : MemAccess → Exec (World policy.State) β}
    (executes : Executes env policy step) (trace : List MemAccess) {world : World policy.State}
    (here : holds world) (coherent : world.Coherent env root none)
    (returns : PolicyReturns env.memsize world.log) :
    PolicyReturns env.memsize (finalState ((runAll step trace).run world)).log := by
  have everything : ∀ access ∈ trace, (fun _ => True) access := fun _ _ => trivial
  refine @run_logged _ env policy step world executes (PolicyReturns env.memsize)
    (fun world => holds world ∧ world.Coherent env root none) (fun _ => True) ?_ ?_ trace everything
    ⟨here, coherent⟩ returns
  · intro access middle _ both before
    exact (contract.translate_keeps both.1 both.2 before).1
  · intro access middle value next _ both before stepRun
    refine ⟨?_, executes.coherent both.2 stepRun⟩
    rcases executes access middle with
      ⟨fault, after, translated, run⟩ | ⟨frame, last, translated, run | ⟨value', physmem, run⟩⟩
    · cases stepRun.symm.trans run
    · cases stepRun.symm.trans run
    · cases stepRun.symm.trans run
      have held := (contract.translate_keeps both.1 both.2 before).2 frame last translated
      exact contract.storage { last.storage with physmem := physmem } held

end Contract

/-! ## Round robin and random replacement -/

section Simple
variable (env : Env) (root : Addr)

theorem contract_rr (positive : 0 < env.memsize) :
    PolicyContract env policyRR root fun world => (show Nat from world.own) < env.memsize where
  storage := fun _ here => here
  allocated := fun here _ _ => here
  evict := by
    intro world here coherent full
    exact ⟨_, _, rfl, here⟩
  reference := by
    intro world access frame after here coherent translates
    refine ⟨after.policyState, rfl, ?_⟩
    cases translates with
    | hit leaf found valid => exact here
    | miss allocated found invalid obtains there same fills =>
        cases obtains with
        | free first => exact here
        | evicted full evict bound owner victim valid number pageOut =>
            cases evict
            exact Nat.mod_lt _ positive

theorem contract_rand (random : Nat → Nat) (positive : 0 < env.memsize) :
    PolicyContract env (policyRand random) root fun _ => True where
  storage := fun _ _ => trivial
  allocated := fun _ _ _ => trivial
  evict := fun _ _ _ => ⟨_, _, rfl, Nat.mod_lt _ positive⟩
  reference := fun _ _ _ => ⟨_, rfl, trivial⟩

end Simple

end MemSim
