import MemSim.DemandPaging
import MemSim.Residents

/-!
# Policies that implement a strategy

`Implements` relates the state of a policy to what a replacement strategy
remembers, function by function.  From it follows that a simulation with the
policy is demand paging with the strategy: every access ends in the same frame,
and every eviction picks the same victim.
-/

set_option autoImplicit false

namespace MemSim

open Exec

def evictions (log : List Event) : List Nat :=
  log.filterMap fun event =>
    match event with
    | .evicted victim => victim
    | _ => none

theorem evictions_append (first second : List Event) :
    evictions (first ++ second) = evictions first ++ evictions second :=
  List.filterMap_append

section Implements
variable {μ : Type} (env : Env) (policy : Policy) (strategy : Strategy μ)

/-- `settled` relates the states between accesses, when `loaded` frames are in
use; `awaiting` those in which a page is about to be put into the frame. -/
structure Implements (settled : Nat → μ → PolicyState policy.State → Prop)
    (awaiting : Nat → μ → Nat → PolicyState policy.State → Prop) : Prop where
  unmoved : ∀ {loaded own before after}, settled loaded own before →
    before.Unmoved loaded after → settled loaded own after
  hit : ∀ {loaded own frame state}, settled loaded own state → frame < loaded →
    state.InMemory frame → ∃ after,
      (policy.onRef env.memsize frame).run state = .ok () after ∧
        settled loaded (strategy.hit own frame) after
  next : ∀ {loaded own state}, settled loaded own state → loaded < env.memsize →
    (state.frames loaded).pte = none → awaiting (loaded + 1) own loaded state
  evict : ∀ {own state}, settled env.memsize own state → ∃ after,
    (policy.evict env.memsize).run state = .ok (strategy.victim env.memsize own).1 after ∧
      (strategy.victim env.memsize own).1 < env.memsize ∧
      awaiting env.memsize (strategy.victim env.memsize own).2
        (strategy.victim env.memsize own).1 after ∧
      ∀ bit, after.Bit (strategy.victim env.memsize own).1 bit → bit = false
  load : ∀ {loaded own frame before after}, awaiting loaded own frame before → frame < loaded →
    before.Moved loaded frame after → ∃ last,
      (policy.onRef env.memsize frame).run after = .ok () last ∧
        settled loaded (strategy.load own frame) last

/-- The pages are where the strategy has them. -/
structure Paging.Simulates (root : Addr)
    (settled : Nat → μ → PolicyState policy.State → Prop) (paging : Paging μ)
    (world : World policy.State) : Prop where
  residents : world.Residents env root paging.loaded paging.page
  settled : settled paging.loaded paging.own world.policyState

end Implements

section Steps
variable {μ : Type} {env : Env} {policy : Policy} {strategy : Strategy μ} {root : Addr}
  {settled : Nat → μ → PolicyState policy.State → Prop}
  {awaiting : Nat → μ → Nat → PolicyState policy.State → Prop}
  {paging : Paging μ} {world after : World policy.State}

theorem Paging.Simulates.allocated (implements : Implements env policy strategy settled awaiting)
    (simulates : paging.Simulates env policy root settled world) {heap : Heap} {number pte : Nat}
    (allocated : world.heap.Allocated heap (· = root) root number pte) :
    paging.Simulates env policy root settled (world.setHeap heap).countMiss where
  residents := simulates.residents.congr rfl fun _ _ => allocated.leaf_mono rfl
  settled := implements.unmoved simulates.settled (unmoved_allocated allocated)

theorem absent_allocated {heap : Heap} {number pte : Nat} {entry : PTE}
    (allocated : world.heap.Allocated heap (· = root) root number pte)
    (here : heap.pte pte = some entry) (invalid : entry.valid = false) :
    ((world.setHeap heap).countMiss).Absent root number := by
  intro pte' entry' leaf' here'
  have leaf : heap.leafAt root number = some pte' := leaf'
  have present : heap.pte pte' = some entry' := here'
  rw [allocated.leaf] at leaf
  cases leaf
  rw [here] at present
  cases present
  exact invalid

/-- What a frame was obtained for, as the policy sees it. -/
structure Obtained (env : Env) (policy : Policy) (strategy : Strategy μ) (root : Addr)
    (awaiting : Nat → μ → Nat → PolicyState policy.State → Prop) (paging : Paging μ)
    (number frame : Nat) (world after : World policy.State) (before : PolicyState policy.State)
    (loaded : Nat) (own : μ) (evicted : Bool) : Prop where
  place : paging.access strategy env.memsize number =
    (⟨frame, evicted⟩, ⟨paging.put frame number, loaded, strategy.load own frame⟩)
  log : ∃ ext, after.log = world.log ++ ext ∧
    evictions ext = (Placement.victim ⟨frame, evicted⟩).toList
  next : frame < paging.loaded ∧ loaded = paging.loaded ∨
    frame = paging.loaded ∧ loaded = paging.loaded + 1
  loaded_le : loaded ≤ env.memsize
  awaiting : awaiting loaded own frame before
  links : after.links = before.links
  own_eq : after.own = before.own
  frames : after.frames = before.frames
  framesBefore : before.frames = world.frames
  kept : ∀ other < loaded, ∀ bit, before.Bit other bit → after.policyState.Bit other bit
  idle : before.Idle → (∀ bit, before.Bit frame bit → bit = false) → after.policyState.Idle

theorem Obtains.obtained (implements : Implements env policy strategy settled awaiting)
    (simulates : paging.Simulates env policy root settled world)
    (coherent : world.Coherent env root none) {number frame : Nat}
    (absent : world.Absent root number) (obtains : Obtains env policy world frame after) :
    ∃ before loaded own evicted, Obtained env policy strategy root awaiting paging number frame
      world after before loaded own evicted := by
  have missing : paging.find number = none :=
    Paging.find_eq_none (simulates.residents.of_absent coherent absent)
  cases obtains with
  | free found =>
      obtain ⟨rfl, room⟩ := simulates.residents.of_free found
      have unowned : (world.frames paging.loaded).pte = none := by
        rw [simulates.residents.free _ (Nat.le_refl _) room]
      refine ⟨world.policyState, paging.loaded + 1, paging.own, false, ?_⟩
      refine
        { place := Paging.access_of_fill missing room
          log := ⟨[], by simp, rfl⟩
          next := .inr ⟨rfl, rfl⟩
          loaded_le := room
          awaiting := implements.next simulates.settled room unowned
          links := rfl
          own_eq := rfl
          frames := rfl
          framesBefore := rfl
          kept := fun _ _ _ held => held
          idle := fun idle _ => idle }
  | @evicted state victim entry result storage full evict bound owner here valid number' pageOut =>
      have allUsed := simulates.residents.of_full full
      have settled' := simulates.settled
      rw [allUsed] at settled'
      obtain ⟨state', run, -, awaits, -⟩ := implements.evict settled'
      rw [evict] at run
      simp only [EStateM.Result.ok.injEq] at run
      obtain ⟨rfl, rfl⟩ := run
      have only : world.policyState.OnlyReference state :=
        keeps_ok (policy.evict_keeps env.memsize) evict
      refine ⟨state, env.memsize, (strategy.victim env.memsize paging.own).2, true, ?_⟩
      refine
        { place := ?_
          log := ⟨_, List.append_assoc _ _ _, rfl⟩
          next := .inl ⟨allUsed ▸ bound, allUsed.symm⟩
          loaded_le := Nat.le_refl _
          awaiting := awaits
          links := rfl
          own_eq := rfl
          frames := rfl
          framesBefore := only.frames
          kept := ?_
          idle := ?_ }
      · rw [Paging.access_of_full missing allUsed, allUsed]
      · intro other _ bit held
        obtain ⟨addr, entry', owner', there, sameNumber, sameBit⟩ := held
        by_cases same : addr = victim
        · subst same
          rw [here] at there
          cases there
          exact ⟨addr, _, owner', Heap.pte_setPte_self, sameNumber, sameBit⟩
        · exact ⟨addr, entry', owner', (Heap.pte_setPte_of_ne same).trans there, sameNumber,
            sameBit⟩
      · intro idle clear addr entry' there invalid
        have owner' : (state.frames entry.frameNumber).pte = some victim := by
          rw [number', only.frames]
          exact owner
        rcases Heap.pte_setPte_eq_some.mp there with ⟨rfl, rfl⟩ | ⟨-, there'⟩
        · rw [← number'] at clear
          exact clear _ ⟨addr, entry, owner', here, rfl, rfl⟩
        · exact idle addr entry' there' invalid

/-- Where the strategy places the page of an access, and what it evicts. -/
structure Placed (env : Env) (policy : Policy) (strategy : Strategy μ) (root : Addr)
    (settled : Nat → μ → PolicyState policy.State → Prop) (paging : Paging μ) (number frame : Nat)
    (world after : World policy.State) : Prop where
  frame_eq : frame = (paging.access strategy env.memsize number).1.frame
  log : ∃ ext, after.log = world.log ++ ext ∧
    evictions ext = (paging.access strategy env.memsize number).1.victim.toList
  onRef : ∃ state, (policy.onRef env.memsize frame).run after.policyState = .ok () state ∧
    Paging.Simulates env policy root settled (paging.access strategy env.memsize number).2
      ((after.setPolicyState state).record (.referenced frame true))

theorem Translates.placed (implements : Implements env policy strategy settled awaiting)
    (simulates : paging.Simulates env policy root settled world)
    (coherent : world.Coherent env root none) {access : MemAccess} {frame : Nat}
    (translates : Translates env policy root access world frame after) :
    Placed env policy strategy root settled paging access.page frame world after := by
  cases translates with
  | @hit pte entry leaf here valid =>
      obtain ⟨inUse, holds, unique⟩ := simulates.residents.of_valid coherent leaf here valid
      have place := @Paging.access_of_hit _ strategy env.memsize _ _ _
        (Paging.find_eq_some inUse holds unique)
      have here' : world.countHit.heap.pte pte = some entry := here
      have unmoved : world.policyState.Unmoved paging.loaded _ :=
        unmoved_accessed here' access.type.isWrite
      have inMemory : (world.countHit.afterAccess pte entry
          access.type.isWrite).policyState.InMemory entry.frameNumber := by
        refine ⟨simulates.residents.notFree inUse, ?_⟩
        intro addr entry' owner there
        have owner' : (world.frames entry.frameNumber).pte = some addr := owner
        rw [(coherent.owner here valid).2] at owner'
        cases owner'
        cases Option.some.inj (Heap.pte_setPte_self.symm.trans there)
        exact valid
      obtain ⟨state, run, settled'⟩ := implements.hit
        (implements.unmoved simulates.settled unmoved) inUse inMemory
      have residents : (world.countHit.afterAccess pte entry access.type.isWrite).Residents env root
          paging.loaded paging.page := by
        refine World.Residents.congr simulates.residents (by rfl) ?_
        intro number pte' leaf'
        exact (leafAt_afterAccess here' access.type.isWrite root number).trans leaf'
      rw [MemAccess.page] at *
      refine ⟨by rw [place], ⟨[], by simp [World.afterAccess, World.countHit, World.setStats],
        by rw [place]; rfl⟩, state, run, ?_⟩
      rw [place]
      exact ⟨residents.called (keeps_ok (policy.onRef_keeps _ _) run) _, settled'⟩
  | @miss heap pte _ old entry obtained storage allocated here invalid obtains there same fills =>
      have counted : ((world.setHeap heap).countMiss).Coherent env root none :=
        (coherent.allocated allocated).setStats _
      have absent : ((world.setHeap heap).countMiss).Absent root access.page :=
        absent_allocated allocated here invalid
      have simulates' := simulates.allocated implements allocated
      obtain ⟨before, loaded, own, evicted, got⟩ := obtains.obtained implements simulates' counted absent
      have inUse : frame < loaded := by
        have next := got.next
        omega
      have invalid' : entry.valid = false := by
        rw [PTE.eraseReference_inj same]
        exact invalid
      have owners : ∀ other < loaded, other ≠ frame → (before.frames other).pte ≠ some pte := by
        intro other otherInUse apart owner
        have next := got.next
        obtain ⟨number, pte', -, owner', -⟩ := simulates'.residents.used other (by omega)
        have bound : other < env.memsize := Nat.lt_of_lt_of_le otherInUse got.loaded_le
        obtain ⟨addr, entry', owner'', here', valid, -⟩ :=
          counted.used bound (by rw [owner']) (by simp)
        rw [got.framesBefore, owner''] at owner
        cases owner
        have here'' : heap.pte pte = some entry' := here'
        rw [here] at here''
        cases here''
        exact Bool.noConfusion (invalid.symm.trans valid)
      have loadedPage := @moved_loaded policy obtained loaded before pte frame entry storage
        got.links got.own_eq got.frames there invalid' owners
        (fun other otherInUse _ => got.kept other otherInUse) got.idle
      let filled := obtained.afterLoad pte entry frame storage
      have filledHere : filled.heap.pte pte = some (entry.loaded frame) := Heap.pte_setPte_self
      have moved := loadedPage.trans_unmoved inUse
        (unmoved_accessed filledHere access.type.isWrite)
      obtain ⟨last, run, settled'⟩ := implements.load got.awaiting inUse moved
      have leaves : ∀ number, (filled.afterAccess pte (entry.loaded frame)
          access.type.isWrite).heap.leafAt root number = heap.leafAt root number := by
        intro number
        rw [leafAt_afterAccess filledHere, leafAt_afterLoad there]
        exact obtains.leafAt env number
      have residents : (filled.afterAccess pte (entry.loaded frame)
          access.type.isWrite).Residents env root loaded (paging.put frame access.page) := by
        have frames : (filled.afterAccess pte (entry.loaded frame) access.type.isWrite).frames =
            Function.update (world.setHeap heap).countMiss.frames frame ⟨false, some pte⟩ := by
          rw [← got.framesBefore, ← got.frames]
          rfl
        apply World.Residents.put simulates'.residents got.loaded_le got.next frames
        · intro number pte' leaf
          exact (leaves number).trans leaf
        · exact (leaves _).trans allocated.leaf
      refine ⟨by rw [got.place], ?_, last, run, ?_⟩
      · obtain ⟨ext, log, victims⟩ := got.log
        exact ⟨ext, log, by rw [victims, got.place]⟩
      · rw [got.place]
        exact ⟨residents.called (keeps_ok (policy.onRef_keeps _ _) run) _, settled'⟩

theorem Implements.contract (implements : Implements env policy strategy settled awaiting) :
    PolicyContract env policy root fun world =>
      ∃ paging : Paging μ, paging.Simulates env policy root settled world where
  storage := by
    intro world storage here
    obtain ⟨paging, simulates⟩ := here
    exact ⟨paging, simulates.residents.congr rfl fun _ _ leaf => leaf, simulates.settled⟩
  allocated := by
    intro world heap page pte here coherent allocated
    obtain ⟨paging, simulates⟩ := here
    exact ⟨paging, simulates.allocated implements allocated⟩
  evict := by
    intro world here coherent full
    obtain ⟨paging, simulates⟩ := here
    have settled' := simulates.settled
    rw [simulates.residents.of_full full] at settled'
    obtain ⟨state, run, bound, -⟩ := implements.evict settled'
    exact ⟨_, state, run, bound⟩
  reference := by
    intro world access frame after here coherent translates
    obtain ⟨paging, simulates⟩ := here
    obtain ⟨state, run, simulates'⟩ := (translates.placed implements simulates coherent).onRef
    exact ⟨state, run, _, simulates'⟩

/-- One access evicts what the strategy gives up, and leaves the page where the
strategy puts it. -/
theorem Implements.translate_follows (implements : Implements env policy strategy settled awaiting)
    (simulates : paging.Simulates env policy root settled world)
    (coherent : world.Coherent env root none) (access : MemAccess) :
    evictions (finalState ((translate env policy access).run world)).log <+:
        evictions world.log ++ (paging.access strategy env.memsize access.page).1.victim.toList ∧
      ∀ frame after, (translate env policy access).run world = .ok frame after →
        frame = (paging.access strategy env.memsize access.page).1.frame ∧
          evictions after.log = evictions world.log ++
            (paging.access strategy env.memsize access.page).1.victim.toList ∧
          Paging.Simulates env policy root settled
            (paging.access strategy env.memsize access.page).2 after := by
  have outcome := @translate_outcome env policy root access world coherent
  generalize (translate env policy access).run world = result at outcome
  cases outcome with
  | stops stops =>
      refine ⟨?_, fun _ _ same => by contradiction⟩
      cases stops with
      | outside wide => exact List.prefix_append _ _
      | refused fault log refused => exact List.prefix_append _ _
      | evictFails allocated here invalid fails =>
          have counted := (coherent.allocated allocated).setStats (countMiss world.stats)
          have simulates' := simulates.allocated implements allocated
          cases fails with
          | stopped full evict =>
              obtain ⟨frame, state, run, -⟩ := implements.contract.evict ⟨_, simulates'⟩ counted full
              rw [evict] at run
              contradiction
          | outside full evict wide =>
              obtain ⟨frame, state, run, bound⟩ :=
                implements.contract.evict ⟨_, simulates'⟩ counted full
              rw [evict] at run
              cases run
              omega
      | @lost heap pte frame old entry after allocated here invalid obtains there same onSwap
          isLost =>
          have counted := (coherent.allocated allocated).setStats (countMiss world.stats)
          obtain ⟨before, loaded, own, evicted, got⟩ := obtains.obtained implements
            (simulates.allocated implements allocated) counted
            (absent_allocated allocated here invalid)
          obtain ⟨ext, log, victims⟩ := got.log
          have logged : evictions after.log = evictions world.log ++
              (Placement.victim ⟨frame, evicted⟩).toList := by
            rw [log, evictions_append, victims]
            rfl
          have start : evictions after.log <+: evictions world.log ++
              (Placement.victim ⟨frame, evicted⟩).toList := by
            simp only [logged, List.prefix_rfl]
          rw [MemAccess.page, got.place]
          exact start
  | @refFails frame after fault state translates onRef =>
      obtain ⟨state', run, -⟩ := (translates.placed implements simulates coherent).onRef
      rw [onRef] at run
      contradiction
  | @done frame after state translates onRef =>
      have placed := translates.placed implements simulates coherent
      obtain ⟨state', run, simulates'⟩ := placed.onRef
      cases onRef.symm.trans run
      obtain ⟨ext, log, victims⟩ := placed.log
      have logged : evictions ((after.setPolicyState state).record (.referenced frame true)).log =
          evictions world.log ++
            (paging.access strategy env.memsize access.page).1.victim.toList := by
        have sameLog : ((after.setPolicyState state).record (.referenced frame true)).log =
            after.log ++ [.referenced frame true] := rfl
        rw [sameLog, log, evictions_append, evictions_append, victims]
        exact List.append_nil _
      refine ⟨?_, ?_⟩
      · simp only [finalState_ok, logged, List.prefix_rfl]
      · intro frame' after' same
        cases same
        exact ⟨placed.frame_eq, logged, simulates'⟩

theorem Implements.run_follows (implements : Implements env policy strategy settled awaiting)
    (trace : List MemAccess) (simulates : paging.Simulates env policy root settled world)
    (coherent : world.Coherent env root none) :
    evictions (finalState ((runAll (translate env policy) trace).run world)).log <+:
        evictions world.log ++
          Paging.victims (paging.run strategy env.memsize (trace.map MemAccess.page)) ∧
      ∀ frames after, (runAll (translate env policy) trace).run world = .ok frames after →
        frames = (paging.run strategy env.memsize (trace.map MemAccess.page)).map Placement.frame ∧
          evictions after.log = evictions world.log ++
            Paging.victims (paging.run strategy env.memsize (trace.map MemAccess.page)) ∧
          Paging.Simulates env policy root settled
            (paging.after strategy env.memsize (trace.map MemAccess.page)) after := by
  induction trace generalizing world paging with
  | nil =>
      refine ⟨List.prefix_append _ _, ?_⟩
      intro frames after same
      simp only [run_runAll_nil, EStateM.Result.ok.injEq] at same
      obtain ⟨rfl, rfl⟩ := same
      exact ⟨rfl, (List.append_nil _).symm, simulates⟩
  | cons access rest ih =>
      obtain ⟨stepLog, step⟩ := implements.translate_follows simulates coherent access
      simp only [List.map_cons, Paging.run, Paging.after, Paging.victims_cons]
      rw [← List.append_assoc]
      cases translated : (translate env policy access).run world with
      | error fault middle =>
          rw [translated] at stepLog
          rw [run_runAll_cons_of_error _ translated]
          refine ⟨stepLog.trans (List.prefix_append _ _), ?_⟩
          intro frames after same
          contradiction
      | ok frame middle =>
          obtain ⟨frameSame, log, simulates'⟩ := step frame middle translated
          obtain ⟨restLog, restOk⟩ := ih simulates' (translate_coherent coherent translated)
          rw [run_runAll_cons_of_ok _ translated, ← log]
          cases restRun : (runAll (translate env policy) rest).run middle with
          | error fault last =>
              rw [restRun] at restLog
              exact ⟨restLog, fun _ _ same => by contradiction⟩
          | ok frames last =>
              obtain ⟨framesSame, logSame, final⟩ := restOk frames last restRun
              rw [restRun] at restLog
              refine ⟨restLog, ?_⟩
              intro frames' after' same
              cases same
              exact ⟨by simp only [frameSame, framesSame], logSame, final⟩

end Steps

end MemSim
