import Mathlib.Data.List.MinMax
import Mathlib.Data.List.Perm.Subperm
import MemSim.DemandPaging

/-!
# The simplified 2Q strategy

The reference for the S2Q policy.  It remembers for every frame when its page
was loaded, how often the page has been referenced since then, and when last.
A1 are the pages referenced once, Am those referenced at least twice.  The page
given up is the one of A1 loaded earliest if A1 has more than a tenth of the
frames, and the one of Am whose last reference is oldest otherwise.
-/

set_option autoImplicit false

namespace MemSim

inductive Queue where
  | a1
  | am
  deriving DecidableEq, Repr

/-- `time` counts the accesses. -/
structure TwoQueue where
  time : Nat
  loadedAt : Nat → Nat
  references : Nat → Nat
  lastRef : Nat → Nat

namespace TwoQueue

def In (history : TwoQueue) : Queue → (frame : Nat) → Prop
  | .a1, frame => history.references frame = 1
  | .am, frame => 2 ≤ history.references frame

instance (history : TwoQueue) (queue : Queue) (frame : Nat) :
    Decidable (history.In queue frame) :=
  match queue with
  | .a1 => inferInstanceAs (Decidable (history.references frame = 1))
  | .am => inferInstanceAs (Decidable (2 ≤ history.references frame))

variable (size : Nat)

def members (history : TwoQueue) (queue : Queue) : List Nat :=
  (List.range size).filter fun frame => history.In queue frame

/-- The time that orders the queue. -/
def rank (history : TwoQueue) : Queue → Nat → Nat
  | .a1 => history.loadedAt
  | .am => history.lastRef

def chosen (history : TwoQueue) : Queue :=
  if (history.members size .a1).length > size / 10 then .a1 else .am

def victim (history : TwoQueue) : Option Nat :=
  (history.members size (history.chosen size)).argmin (history.rank (history.chosen size))

def strategy : Strategy TwoQueue where
  start := ⟨0, fun _ => 0, fun _ => 0, fun _ => 0⟩
  hit := fun history frame =>
    { history with
      time := history.time + 1
      references := Function.update history.references frame (history.references frame + 1)
      lastRef := Function.update history.lastRef frame history.time }
  load := fun history frame =>
    { time := history.time + 1
      loadedAt := Function.update history.loadedAt frame history.time
      references := Function.update history.references frame 1
      lastRef := Function.update history.lastRef frame history.time }
  victim := fun size history => ((history.victim size).getD 0, history)

variable {size} {history : TwoQueue} {queue : Queue} {frame : Nat}

theorem mem_members : frame ∈ history.members size queue ↔ frame < size ∧ history.In queue frame := by
  simp [members]

theorem nodup_members : (history.members size queue).Nodup :=
  List.nodup_range.filter _

theorem argmin_eq_of_least {time : Nat → Nat} {frames : List Nat} (member : frame ∈ frames)
    (least : ∀ other ∈ frames, other ≠ frame → time frame < time other) :
    frames.argmin time = some frame := by
  cases found : frames.argmin time with
  | none =>
      rw [List.argmin_eq_none.mp found] at member
      contradiction
  | some other =>
      have otherMember := List.argmin_mem (Option.mem_def.mpr found)
      have before := List.le_of_mem_argmin member (Option.mem_def.mpr found)
      by_cases same : other = frame
      · rw [same]
      · have later := least other otherMember same
        omega

theorem In.unique {other : Queue} (here : history.In queue frame)
    (there : history.In other frame) : queue = other := by
  cases queue with
  | a1 =>
      cases other with
      | a1 => rfl
      | am =>
          simp only [In] at here there
          omega
  | am =>
      cases other with
      | a1 =>
          simp only [In] at here there
          omega
      | am => rfl

theorem in_of_referenced (referenced : 1 ≤ history.references frame) :
    ∃ queue, history.In queue frame := by
  rcases Nat.eq_or_lt_of_le referenced with once | again
  · exact ⟨.a1, once.symm⟩
  · exact ⟨.am, again⟩

theorem chosen_nonempty (positive : 0 < size)
    (referenced : ∀ frame < size, 1 ≤ history.references frame) :
    history.members size (history.chosen size) ≠ [] := by
  rw [chosen]
  split
  · rename_i many
    intro empty
    rw [empty] at many
    simp at many
  · rename_i few
    intro empty
    have all : List.range size ⊆ history.members size .a1 := by
      intro frame member
      have bound := List.mem_range.mp member
      obtain ⟨queue, here⟩ := in_of_referenced (referenced frame bound)
      cases queue with
      | a1 => exact mem_members.mpr ⟨bound, here⟩
      | am =>
          have inAm : frame ∈ history.members size .am := mem_members.mpr ⟨bound, here⟩
          rw [empty] at inAm
          contradiction
    have enough := (List.subperm_of_subset List.nodup_range all).length_le
    rw [List.length_range] at enough
    omega

end TwoQueue

end MemSim
