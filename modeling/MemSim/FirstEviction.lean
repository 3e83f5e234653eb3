import MemSim.Completion
import MemSim.FreshPolicies

/-!
# The first eviction

Nothing is evicted as long as every page finds a frame of its own, whatever the
policy remembers.  The first victim of RR is the frame its static holds when the
simulation is created, even if that is the number of no frame.
-/

set_option autoImplicit false

namespace MemSim

open Exec

/-! ## Frames for all pages -/

section Full
variable {σ : Type} {env : Env} {root : Addr} {pages : Finset Nat} {world : World σ}

def Heap.Known (root : Addr) (pages : Finset Nat) (heap : Heap) : Prop :=
  ∀ page pte, heap.leafAt root page = some pte → page ∈ pages

theorem Heap.Known.allocated {before after : Heap} {page pte : Nat}
    (known : before.Known root pages)
    (allocated : before.Allocated after (· = root) root page pte) (member : page ∈ pages) :
    after.Known root pages := by
  intro other found leaf
  by_cases same : other = page
  · rw [same]
    exact member
  · rw [allocated.others root other rfl fun both => same both.2] at leaf
    exact known other found leaf

theorem World.Coherent.full_lt (coherent : world.Coherent env root none)
    (known : world.heap.Known root pages) {page : Nat} (absent : world.Absent root page)
    (member : page ∈ pages) (full : findFreeFrom world.frames 0 env.memsize = none) :
    env.memsize < pages.card := by
  have owners : ∀ frame, ∃ owner, frame < env.memsize → owner ∈ pages.erase page ∧
      ∃ pte entry, world.heap.leafAt root owner = some pte ∧ world.heap.pte pte = some entry ∧
        entry.frameNumber = frame := by
    intro frame
    by_cases bound : frame < env.memsize
    · have used := findFreeFrom_eq_none full frame (Nat.zero_le _) (by omega)
      obtain ⟨pte, entry, -, here, valid, number⟩ := coherent.used bound used (by simp)
      obtain ⟨owner, leaf⟩ := coherent.leaf here valid
      refine ⟨owner, fun _ => ⟨Finset.mem_erase.mpr ⟨?_, known owner pte leaf⟩, pte, entry, leaf,
        here, number⟩⟩
      rintro rfl
      rw [absent pte entry leaf here] at valid
      contradiction
    · exact ⟨0, fun inside => absurd inside bound⟩
  obtain ⟨owner, owns⟩ := Classical.axiomOfChoice owners
  have injective : Set.InjOn owner (Finset.range env.memsize) := by
    intro first firstIn second secondIn same
    obtain ⟨-, pte, entry, leaf, here, number⟩ := owns first (Finset.mem_range.mp firstIn)
    obtain ⟨-, pte', entry', leaf', here', number'⟩ := owns second (Finset.mem_range.mp secondIn)
    rw [same, leaf'] at leaf
    cases leaf
    rw [here'] at here
    cases here
    exact number.symm.trans number'
  have maps : Set.MapsTo owner (Finset.range env.memsize) (pages.erase page) := by
    intro frame inside
    exact (owns frame (Finset.mem_range.mp inside)).1
  have atMost := Finset.card_le_card_of_injOn owner maps injective
  rw [Finset.card_range, Finset.card_erase_of_mem member] at atMost
  have positive := Finset.card_pos.mpr ⟨page, member⟩
  omega

end Full

section Fits
variable {env : Env} {policy : Policy} {root : Addr} {pages : Finset Nat} {swapSize : Nat}
  {access : MemAccess} {world after : World policy.State} {heap : Heap} {pte frame : Nat}
  {old : PTE}

theorem World.Slotted.known (slotted : world.Slotted env root pages swapSize) :
    world.heap.Known root pages := by
  intro page pte leaf
  obtain ⟨entry, here⟩ := slotted.coherent.sound.leafAt_pte leaf
  apply slotted.slots.known page entry.eraseReference
  simp only [World.pageStore, leaf, Option.bind_some, here, Option.map_some]

theorem World.Slotted.not_full (slotted : world.Slotted env root pages swapSize)
    (fits : pages.card ≤ env.memsize) (member : access.page ∈ pages)
    (allocated : world.heap.Allocated heap (· = root) root access.page pte)
    (here : heap.pte pte = some old) (invalid : old.valid = false) :
    findFreeFrom (world.setHeap heap).countMiss.frames 0 env.memsize ≠ none := by
  intro full
  have counted : ((world.setHeap heap).countMiss).Coherent env root none :=
    (slotted.coherent.allocated allocated).setStats _
  have known : ((world.setHeap heap).countMiss).heap.Known root pages :=
    slotted.known.allocated allocated member
  have more := counted.full_lt known (absent_allocated allocated here invalid) member full
  omega

theorem World.Slotted.obtains_free (slotted : world.Slotted env root pages swapSize)
    (fits : pages.card ≤ env.memsize) (member : access.page ∈ pages)
    (allocated : world.heap.Allocated heap (· = root) root access.page pte)
    (here : heap.pte pte = some old) (invalid : old.valid = false)
    (obtains : Obtains env policy (world.setHeap heap).countMiss frame after) :
    after = (world.setHeap heap).countMiss := by
  cases obtains with
  | free found => rfl
  | evicted full => exact absurd full (slotted.not_full fits member allocated here invalid)

end Fits

/-! ## RR -/

section RR
variable {env : Env} {root : Addr} {access : MemAccess} {trace : List MemAccess}

/-- Every call to the policy came back, and none was for a victim. -/
def Quiet (log : List Event) : Prop := ∀ event ∈ log, ∃ frame, event = .referenced frame true

theorem Quiet.evictions {log : List Event} (quiet : Quiet log) : evictions log = [] := by
  apply List.filterMap_eq_nil_iff.mpr
  intro event member
  obtain ⟨frame, rfl⟩ := quiet event member
  rfl

theorem Quiet.returns {log : List Event} (quiet : Quiet log) (memsize : Nat) :
    PolicyReturns memsize log := by
  intro event member
  obtain ⟨frame, rfl⟩ := quiet event member
  rfl

theorem Quiet.referenced {log : List Event} (quiet : Quiet log) (frame : Nat) :
    Quiet (log ++ [.referenced frame true]) := by
  intro event member
  rcases List.mem_append.mp member with before | last
  · exact quiet event before
  · exact ⟨frame, List.mem_singleton.mp last⟩

section Fits
variable {pages : Finset Nat} {swapSize : Nat} {world : World policyRR.State}

theorem rr_translate_quiet (slotted : world.Slotted env root pages swapSize)
    (fits : pages.card ≤ env.memsize) (member : access.page ∈ pages) (quiet : Quiet world.log) :
    Quiet (finalState ((translate env policyRR access).run world)).log := by
  have outcome := @translate_outcome env policyRR root access world slotted.coherent
  generalize (translate env policyRR access).run world = result at outcome
  cases outcome with
  | stops stops =>
      cases stops with
      | outside wide => exact quiet
      | refused fault log refused => exact quiet
      | evictFails allocated here invalid fails =>
          have notFull := slotted.not_full fits member allocated here invalid
          cases fails with
          | stopped full evict => exact absurd full notFull
          | outside full evict wide => exact absurd full notFull
      | lost allocated here invalid obtains there same onSwap isLost =>
          cases slotted.obtains_free fits member allocated here invalid obtains
          exact quiet
  | refFails translates onRef => cases onRef
  | done translates onRef =>
      cases onRef
      cases translates with
      | hit leaf here valid => exact quiet.referenced _
      | miss allocated here invalid obtains there same fills =>
          cases slotted.obtains_free fits member allocated here invalid obtains
          exact quiet.referenced _

theorem rr_run_quiet (slotted : world.Slotted env root pages swapSize)
    (fits : pages.card ≤ env.memsize) (succeeds : ∀ call, env.io call = .success)
    (few : pages.card ≤ 2 ^ 36) (members : ∀ access ∈ trace, access.page ∈ pages)
    (quiet : Quiet world.log) :
    Quiet (finalState ((runAll (translate env policyRR) trace).run world)).log := by
  apply run_logged (executes_translate env policyRR) _ _ trace members slotted quiet
  · intro access middle member here before
    exact rr_translate_quiet here fits member before
  · intro access middle frame after member here _ run
    exact here.translate succeeds few member run

end Fits

section Turn
variable {turn : Nat} {world after : World policyRR.State}

/-- The frame to be given up first is still to come, or it was the first victim. -/
def RRTurn (turn : Nat) (world : World policyRR.State) : Prop :=
  (evictions world.log = [] ∧ (show Nat from world.own) = turn) ∨
    ∃ later, evictions world.log = turn :: later

theorem RRTurn.congr (here : RRTurn turn world) (log : evictions after.log = evictions world.log)
    (own : after.own = world.own) : RRTurn turn after := by
  rcases here with ⟨none', next⟩ | ⟨later, evicted⟩
  · exact .inl ⟨log.trans none', (show (show Nat from after.own) = _ from own).trans next⟩
  · exact .inr ⟨later, log.trans evicted⟩

theorem RRTurn.evicted (here : RRTurn turn world)
    (log : evictions after.log = evictions world.log ++ [(show Nat from world.own)]) :
    RRTurn turn after := by
  right
  rcases here with ⟨none', next⟩ | ⟨later, evicted⟩
  · exact ⟨[], by rw [log, none', next, List.nil_append]⟩
  · exact ⟨later ++ [(show Nat from world.own)], by rw [log, evicted, List.cons_append]⟩

theorem RRTurn.obtains {frame : Nat} (here : RRTurn turn world)
    (obtains : Obtains env policyRR world frame after) : RRTurn turn after := by
  cases obtains with
  | free found => exact here
  | evicted full evict bound owner victim valid number pageOut =>
      cases evict
      apply here.evicted
      simp only [World.afterEviction, World.record, World.setPolicyState, evictions_append,
        List.append_assoc]
      rfl

theorem rr_translate_turn (coherent : world.Coherent env root none) (here : RRTurn turn world) :
    RRTurn turn (finalState ((translate env policyRR access).run world)) := by
  have outcome := @translate_outcome env policyRR root access world coherent
  generalize (translate env policyRR access).run world = result at outcome
  cases outcome with
  | stops stops =>
      cases stops with
      | outside wide => exact here
      | refused fault log refused => exact here
      | @evictFails heap _ _ _ _ allocated there invalid fails =>
          have counted : RRTurn turn (world.setHeap heap).countMiss := here
          cases fails with
          | stopped full evict => cases evict
          | outside full evict wide =>
              cases evict
              apply counted.evicted
              simp only [World.record, World.setPolicyState, evictions_append, finalState_error]
              rfl
      | @lost heap _ _ _ _ _ allocated there invalid obtains found same onSwap isLost =>
          have counted : RRTurn turn (world.setHeap heap).countMiss := here
          exact (counted.obtains obtains).congr rfl rfl
  | refFails translates onRef => cases onRef
  | @done frame middle state translates onRef =>
      have translated : RRTurn turn middle := by
        cases translates with
        | hit leaf there valid => exact here
        | @miss heap _ _ _ _ _ _ allocated there invalid obtains found same fills =>
            have counted : RRTurn turn (world.setHeap heap).countMiss := here
            exact (counted.obtains obtains).congr rfl rfl
      cases onRef
      apply translated.congr
      · simp only [finalState_ok, World.record, World.setPolicyState, evictions_append]
        exact List.append_nil _
      · rfl

theorem rr_run_turn (coherent : world.Coherent env root none) (here : RRTurn turn world) :
    RRTurn turn (finalState ((runAll (translate env policyRR) trace).run world)) := by
  have everything : ∀ access ∈ trace, (fun _ => True) access := fun _ _ => trivial
  apply runAll_keeps (translate env policyRR) _ _ everything coherent here
  · intro access middle frame after _ before _ run
    exact translate_coherent before run
  · intro access middle _ before turned
    exact rr_translate_turn before turned

end Turn

end RR

end MemSim
