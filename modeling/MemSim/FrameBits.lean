import MemSim.SimulationRun

/-!
# What a policy sees of the frames

The frames in use hold pages whose entries carry the number of their frame and a
reference bit.  Reads and writes of a policy are followed through
`PolicyState.Bits`, the bits by frame.
-/

set_option autoImplicit false

namespace MemSim

open Exec

section Access
variable {σ α : Type} {state : PolicyState σ} {addr : Addr} {entry : PTE}

theorem run_onLinks_of_ok {part : Exec (Entries EntryAddr) α} {value : α}
    {links : Entries EntryAddr} (run : part.run state.links = .ok value links) :
    (onLinks part : Exec (PolicyState σ) α).run state = .ok value (state.setLinks links) :=
  run_onPart_of_ok run

theorem run_onPtes_pteGet (field : PTE → α) (here : state.heap.pte addr = some entry) :
    (onPtes (pteGet field (some addr)) : Exec (PolicyState σ) α).run state =
      .ok (field entry) state :=
  run_onPart_of_ok (run_pteGet field here)

theorem run_onPtes_pteSet (change : PTE → PTE) (here : state.heap.pte addr = some entry) :
    (onPtes (pteSet change (some addr)) : Exec (PolicyState σ) Unit).run state =
      .ok () (state.setHeap (state.heap.setPte addr (change entry))) :=
  run_onPart_of_ok (run_pteSet change here)

theorem run_framePte (frame : Nat) :
    (framePte frame : Exec (PolicyState σ) _).run state = .ok (state.frames frame).pte state := rfl

theorem run_containerFrame {frame : Nat} (mapped : state.links.mapped (.frame frame) = true) :
    (containerFrame (some (.frame frame)) : Exec (PolicyState σ) Nat).run state =
      .ok frame state := by
  simp [containerFrame, mapped]

/-- The frame holds a page, whose entry has its number and the bit. -/
def PolicyState.Bit (state : PolicyState σ) (frame : Nat) (bit : Bool) : Prop :=
  ∃ addr entry, (state.frames frame).pte = some addr ∧ state.heap.pte addr = some entry ∧
    entry.frameNumber = frame ∧ entry.reference = bit

/-- The bits of the first `loaded` frames. -/
def PolicyState.Bits (state : PolicyState σ) (loaded : Nat) (bit : Nat → Bool) : Prop :=
  ∀ frame < loaded, state.Bit frame (bit frame)

theorem PolicyState.Bit.unique {frame : Nat} {first second : Bool} (held : state.Bit frame first)
    (held' : state.Bit frame second) : first = second := by
  obtain ⟨addr, entry, owner, here, -, rfl⟩ := held
  obtain ⟨addr', entry', owner', here', -, rfl⟩ := held'
  rw [owner] at owner'
  cases owner'
  rw [here] at here'
  cases here'
  rfl

theorem PolicyState.Bit.setReferenced {frame : Nat} (owner : (state.frames frame).pte = some addr)
    (number : entry.frameNumber = frame) (value : Bool) :
    (state.setHeap (state.heap.setPte addr { entry with reference := value })).Bit frame value :=
  ⟨addr, _, owner, Heap.pte_setPte_self, number, rfl⟩

theorem PolicyState.Bit.setReferenced_of_ne {frame other : Nat} {bit : Bool}
    (held : state.Bit other bit) (here : state.heap.pte addr = some entry)
    (number : entry.frameNumber = frame) (apart : other ≠ frame) (value : Bool) :
    (state.setHeap (state.heap.setPte addr { entry with reference := value })).Bit other bit := by
  obtain ⟨addr', entry', owner, there, number', sameBit⟩ := held
  refine ⟨addr', entry', owner, Heap.pte_setPte_eq_some.mpr (.inr ⟨?_, there⟩), number', sameBit⟩
  rintro rfl
  cases Option.some.inj (here.symm.trans there)
  exact apart (number'.symm.trans number)

theorem PolicyState.Bits.setReferenced {loaded frame : Nat} {bit : Nat → Bool}
    (bits : state.Bits loaded bit) (owner : (state.frames frame).pte = some addr)
    (here : state.heap.pte addr = some entry) (number : entry.frameNumber = frame) (value : Bool) :
    (state.setHeap (state.heap.setPte addr { entry with reference := value })).Bits loaded
      (Function.update bit frame value) := by
  intro other bound
  by_cases same : other = frame
  · subst same
    rw [Function.update_self]
    exact PolicyState.Bit.setReferenced owner number value
  · rw [Function.update_of_ne same]
    exact (bits other bound).setReferenced_of_ne here number same value

end Access

end MemSim
