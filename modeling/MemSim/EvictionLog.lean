import MemSim.PolicyContract

/-!
# The log of evictions

In the log of a run every call to `CSC369_Evict` that gave a frame is followed by
the record of an eviction: the frame held the page of a valid entry, and the
page-out was made for it.
-/

set_option autoImplicit false

namespace MemSim

open Exec

variable (env : Env)

/-- What the record of an eviction says. -/
structure EvictionRecord.Sound (frame : Nat) (record : EvictionRecord) : Prop where
  bound : frame < env.memsize
  owner : ∃ pte, record.victim = some pte ∧ record.ownerAfter = some pte
  valid : record.entry.valid = true
  number : record.entry.frameNumber = frame
  shaped : record.storage.swapmap.Shaped
  pageOut : (swapPageOut env frame record.entry.swapOffset).run record.storage =
    .ok record.result record.storageAfter
  after : record.entryAfter = record.entry.pagedOut record.result

/-- The logs of runs.  Only a call that does not give a frame is not followed by
an eviction. -/
inductive Recorded : List Event → Prop where
  | nil : Recorded []
  | referenced {log : List Event} (frame : Nat) (returned : Bool) :
      Recorded log → Recorded (log ++ [.referenced frame returned])
  | evicted {log : List Event} {frame : Nat} {record : EvictionRecord} :
      Recorded log → record.Sound env frame →
      Recorded (log ++ [.evicted (some frame)] ++ [.handled record])
  | failed {log : List Event} {victim : Option Nat} :
      Recorded log → ¬ (Event.evicted victim).Returned env.memsize →
      Recorded (log ++ [.evicted victim])

/-- A call to `CSC369_Evict` gave a frame, whose page was then evicted. -/
def Followed (victim : Option Nat) (later : List Event) : Prop :=
  ∃ frame record rest, victim = some frame ∧ later = .handled record :: rest ∧
    record.Sound env frame

section Records
variable {env} {log : List Event}

theorem Recorded.handled (recorded : Recorded env log) {record : EvictionRecord}
    (member : .handled record ∈ log) : ∃ frame, record.Sound env frame := by
  induction recorded with
  | nil => contradiction
  | referenced frame returned _ ih =>
      rcases List.mem_append.mp member with before | last
      · exact ih before
      · simp at last
  | @evicted log frame found _ sound ih =>
      simp only [List.mem_append, List.mem_singleton] at member
      rcases member with (before | isCall) | last
      · exact ih before
      · contradiction
      · cases last
        exact ⟨frame, sound⟩
  | failed _ _ ih =>
      rcases List.mem_append.mp member with before | last
      · exact ih before
      · simp at last

theorem split_append {front later : List Event} {victim : Option Nat} {last : List Event}
    (notCall : .evicted victim ∉ last)
    (split : log ++ last = front ++ .evicted victim :: later) :
    ∃ middle, log = front ++ .evicted victim :: middle ∧ later = middle ++ last := by
  rcases List.append_eq_append_iff.mp split with ⟨extra, same, rest⟩ | ⟨extra, same, rest⟩
  · exact absurd (rest ▸ List.mem_append_right extra List.mem_cons_self) notCall
  · cases extra with
    | nil =>
        rw [List.nil_append] at rest
        exact absurd (rest ▸ List.mem_cons_self) notCall
    | cons event extra =>
        rw [List.cons_append] at rest
        obtain ⟨rfl, rfl⟩ := List.cons.inj rest
        exact ⟨extra, same, rfl⟩

theorem Recorded.followed (recorded : Recorded env log) (returns : PolicyReturns env.memsize log)
    {front later : List Event} {victim : Option Nat}
    (split : log = front ++ .evicted victim :: later) : Followed env victim later := by
  have longer : ∀ {middle : List Event}, Followed env victim middle → ∀ last,
      Followed env victim (middle ++ last) := by
    intro middle followed last
    obtain ⟨frame, record, rest, isVictim, same, sound⟩ := followed
    exact ⟨frame, record, rest ++ last, isVictim, by rw [same, List.cons_append], sound⟩
  induction recorded generalizing later with
  | nil => simp at split
  | referenced frame returned _ ih =>
      obtain ⟨middle, same, rfl⟩ := split_append (by simp) split
      exact longer (ih (policyReturns_append.mp returns).1 same) _
  | @evicted log frame record before sound ih =>
      obtain ⟨middle, same, rfl⟩ := split_append (by simp) split
      rcases List.append_eq_append_iff.mp same with ⟨extra, same', rest⟩ | ⟨extra, same', rest⟩
      · cases extra with
        | nil =>
            rw [List.nil_append] at rest
            obtain ⟨isCall, rfl⟩ := List.cons.inj rest
            cases isCall
            exact ⟨frame, record, [], rfl, rfl, sound⟩
        | cons event extra => simp at rest
      · cases extra with
        | nil =>
            rw [List.nil_append] at rest
            obtain ⟨isCall, rfl⟩ := List.cons.inj rest
            cases isCall
            exact ⟨frame, record, [], rfl, rfl, sound⟩
        | cons event extra =>
            rw [List.cons_append] at rest
            obtain ⟨rfl, rfl⟩ := List.cons.inj rest
            have returns' := (policyReturns_append.mp (policyReturns_append.mp returns).1).1
            rw [List.append_assoc]
            exact longer (ih returns' same') _
  | @failed log victim' _ gaveNone ih =>
      exact absurd (returns (.evicted victim') (by simp)) gaveNone

end Records

/-! ## Runs are recorded -/

section Runs
variable {env} {policy : Policy} {root : Addr} {access : MemAccess}
  {world after : World policy.State}

theorem Obtains.recorded {frame : Nat} (obtains : Obtains env policy world frame after)
    (coherent : world.Coherent env root none) (recorded : Recorded env world.log) :
    Recorded env after.log := by
  cases obtains with
  | free found => exact recorded
  | @evicted state victim entry result storage found evict bound owner here valid number pageOut =>
      have only : world.policyState.OnlyReference state :=
        keeps_ok (policy.evict_keeps env.memsize) evict
      have sameFrames : state.frames = world.frames := only.frames
      refine recorded.evicted
        { bound := bound
          owner := ⟨victim, rfl, ?_⟩
          valid := valid
          number := number
          shaped := coherent.swapmap
          pageOut := pageOut
          after := rfl }
      rw [← owner, ← number, ← sameFrames]
      rfl

theorem translate_logged {logged : List Event → Prop} (coherent : world.Coherent env root none)
    (start : logged world.log)
    (referenced : ∀ log frame returned, logged log → logged (log ++ [.referenced frame returned]))
    (failed : ∀ log victim, logged log → ¬ (Event.evicted victim).Returned env.memsize →
      logged (log ++ [.evicted victim]))
    (obtained : ∀ heap pte frame after, world.heap.Allocated heap (· = root) root access.page pte →
      Obtains env policy (world.setHeap heap).countMiss frame after → logged after.log) :
    logged (finalState ((translate env policy access).run world)).log := by
  have translated : ∀ {frame after}, Translates env policy root access world frame after →
      logged after.log := by
    intro frame after translates
    cases translates with
    | hit leaf here valid => exact start
    | miss allocated here invalid obtains there same fills =>
        have before := obtained _ _ _ _ allocated obtains
        exact before
  have outcome := @translate_outcome env policy root access world coherent
  generalize (translate env policy access).run world = result at outcome
  cases outcome with
  | stops stops =>
      cases stops with
      | outside wide => exact start
      | refused fault log refused => exact start
      | evictFails allocated here invalid fails =>
          cases fails with
          | stopped full evict => exact failed _ _ start (fun returned => returned)
          | outside full evict wide => exact failed _ _ start (Nat.not_lt.mpr wide)
      | lost allocated here invalid obtains there same onSwap isLost =>
          have before := obtained _ _ _ _ allocated obtains
          exact before
  | refFails translates onRef =>
      have before := translated translates
      exact referenced _ _ _ before
  | done translates onRef =>
      have before := translated translates
      exact referenced _ _ _ before

theorem translate_recorded (coherent : world.Coherent env root none)
    (recorded : Recorded env world.log) (access : MemAccess) :
    Recorded env (finalState ((translate env policy access).run world)).log := by
  apply translate_logged coherent recorded
  · exact fun _ frame returned before => before.referenced frame returned
  · exact fun _ victim before gaveNone => before.failed gaveNone
  · intro heap pte frame after allocated obtains
    exact obtains.recorded ((coherent.allocated allocated).setStats _) recorded

theorem run_recorded {β : Type} {step : MemAccess → Exec (World policy.State) β}
    (executes : Executes env policy step) (trace : List MemAccess)
    (coherent : world.Coherent env root none) (recorded : Recorded env world.log) :
    Recorded env (finalState ((runAll step trace).run world)).log := by
  have everything : ∀ access ∈ trace, (fun _ => True) access := fun _ _ => trivial
  apply run_logged executes _ _ trace everything coherent recorded
  · intro access middle _ here before
    exact translate_recorded here before access
  · intro access middle value next _ here _ stepRun
    exact executes.coherent here stepRun

end Runs

end MemSim
