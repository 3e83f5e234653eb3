import MemSim.LinkedList

/-!
# Lists as sequences

Any number of lists that share no entry, one for each index of a type: `Holds`
says that every head is linked with the entries of its sequence.  Adding and
deleting an entry change one sequence and leave the others and the entries that
are in no list alone.
-/

set_option autoImplicit false

namespace MemSim

open Exec

namespace Entries
variable {α ι : Type}

/-- The lists with these heads hold these sequences of entries. -/
structure Holds (entries : Entries α) (head : ι → α) (seq : ι → List α) : Prop where
  ring : ∀ index, entries.Ring (head index :: seq index)
  disjoint : ∀ index other, index ≠ other →
    List.Disjoint (head index :: seq index) (head other :: seq other)

section Operations
variable {entries : Entries α} {head : ι → α} {seq : ι → List α} {entry : α}

theorem Holds.notIn (holds : entries.Holds head seq) (unlinked : entries.Unlinked entry)
    (index : ι) : entry ∉ head index :: seq index := by
  intro member
  exact (holds.ring index).linked member unlinked.next

variable [DecidableEq ι]

theorem Holds.replace (holds : entries.Holds head seq) {after : Entries α} {index : ι}
    {changed : List α} (ring : after.Ring (head index :: changed))
    (others : ∀ other, other ≠ index → after.Ring (head other :: seq other))
    (members : ∀ x ∈ changed, x ∈ seq index ∨ ∀ other, other ≠ index →
      x ∉ head other :: seq other) : after.Holds head (Function.update seq index changed) := by
  have apart : ∀ other, other ≠ index →
      List.Disjoint (head index :: changed) (head other :: seq other) := by
    intro other otherApart x here there
    rcases List.mem_cons.mp here with rfl | here
    · exact holds.disjoint index other (Ne.symm otherApart) (List.mem_cons_self ..) there
    · rcases members x here with before | fresh
      · exact holds.disjoint index other (Ne.symm otherApart) (List.mem_cons_of_mem _ before) there
      · exact fresh other otherApart there
  refine ⟨?_, ?_⟩
  · intro other
    by_cases same : other = index
    · subst same
      rw [Function.update_self]
      exact ring
    · rw [Function.update_of_ne same]
      exact others other same
  · intro first second different
    by_cases isFirst : first = index
    · subst isFirst
      rw [Function.update_self, Function.update_of_ne (Ne.symm different)]
      exact apart second (Ne.symm different)
    · rw [Function.update_of_ne isFirst]
      by_cases isSecond : second = index
      · subst isSecond
        rw [Function.update_self]
        intro x there here
        exact apart first isFirst here there
      · rw [Function.update_of_ne isSecond]
        exact holds.disjoint first second different

variable [DecidableEq α]

theorem Holds.insert (holds : entries.Holds head seq) (unlinked : entries.Unlinked entry)
    {index : ι} {before after : α} (beforeHere : before ∈ head index :: seq index)
    (afterHere : after ∈ head index :: seq index) {changed : List α}
    (ring : (entries.insertBetween entry before after).Ring (head index :: changed))
    (members : ∀ x ∈ changed, x ∈ seq index ∨ x = entry) :
    (entries.insertBetween entry before after).Holds head (Function.update seq index changed) ∧
      ∀ other, other ≠ entry → entries.Unlinked other →
        (entries.insertBetween entry before after).Unlinked other := by
  refine ⟨holds.replace ring ?_ ?_, ?_⟩
  · intro other apart
    have disjoint := holds.disjoint index other (Ne.symm apart)
    exact (holds.ring other).insertBetween_apart (holds.notIn unlinked other)
      (fun there => disjoint beforeHere there) (fun there => disjoint afterHere there)
  · intro x member
    rcases members x member with old | rfl
    · exact .inl old
    · exact .inr fun other _ => holds.notIn unlinked other
  · intro other apart otherUnlinked
    have notIn := holds.notIn otherUnlinked index
    apply otherUnlinked.insertBetween apart
    · rintro rfl
      exact notIn beforeHere
    · rintro rfl
      exact notIn afterHere

theorem Holds.addHead (holds : entries.Holds head seq) (unlinked : entries.Unlinked entry)
    (index : ι) : ∃ after, (listAddHead (some (head index)) (some entry)).run entries =
        .ok () after ∧ after.mapped = entries.mapped ∧
      after.Holds head (Function.update seq index (entry :: seq index)) ∧
      ∀ other, other ≠ entry → entries.Unlinked other → after.Unlinked other := by
  obtain ⟨next, nextHere, run, ring⟩ :=
    listAddHead_spec (holds.ring index) unlinked.mapped (holds.notIn unlinked index)
  refine ⟨_, run, rfl, holds.insert unlinked (List.mem_cons_self ..) nextHere ring ?_⟩
  intro x member
  exact (List.mem_cons.mp member).symm

theorem Holds.addTail (holds : entries.Holds head seq) (unlinked : entries.Unlinked entry)
    (index : ι) : ∃ after, (listAddTail (some (head index)) (some entry)).run entries =
        .ok () after ∧ after.mapped = entries.mapped ∧
      after.Holds head (Function.update seq index (seq index ++ [entry])) ∧
      ∀ other, other ≠ entry → entries.Unlinked other → after.Unlinked other := by
  obtain ⟨prev, prevHere, run, ring⟩ :=
    listAddTail_spec (holds.ring index) unlinked.mapped (holds.notIn unlinked index)
  refine ⟨_, run, rfl, holds.insert unlinked prevHere (List.mem_cons_self ..) ring ?_⟩
  intro x member
  rcases List.mem_append.mp member with old | new
  · exact .inl old
  · exact .inr (List.mem_singleton.mp new)

theorem Holds.del (holds : entries.Holds head seq) {index : ι} (member : entry ∈ seq index) :
    ∃ after, (listDel (some entry)).run entries = .ok () after ∧
      after.mapped = entries.mapped ∧
      after.Holds head (Function.update seq index ((seq index).erase entry)) ∧
      after.Unlinked entry ∧
      ∀ other, entries.Unlinked other → after.Unlinked other := by
  obtain ⟨front, back, split⟩ := List.append_of_mem member
  have ring := holds.ring index
  have nodup := (List.nodup_cons.mp ring.nodup).2
  have removed : (seq index).erase entry = front ++ back := by
    rw [split] at nodup ⊢
    have notFront : entry ∉ front := by
      intro inFront
      exact (List.nodup_append.mp nodup).2.2 entry inFront entry (List.mem_cons_self ..) rfl
    rw [List.erase_append_right _ notFront, List.erase_cons_head]
  rw [split] at ring
  obtain ⟨prev, prevHere, next, nextHere, run, ringAfter, unlinked⟩ := listDel_spec ring
  rw [← split] at prevHere nextHere
  refine ⟨_, run, rfl, ?_, unlinked, ?_⟩
  · rw [removed]
    apply holds.replace ringAfter
    · intro other apart
      have disjoint := holds.disjoint index other (Ne.symm apart)
      exact (holds.ring other).unlink_apart
        (fun there => disjoint (List.mem_cons_of_mem _ member) there)
        (fun there => disjoint prevHere there) (fun there => disjoint nextHere there)
    · intro x inChanged
      left
      rw [split]
      rcases List.mem_append.mp inChanged with here | here
      · exact List.mem_append_left _ here
      · exact List.mem_append_right _ (List.mem_cons_of_mem _ here)
  · intro other otherUnlinked
    have notIn := holds.notIn otherUnlinked index
    apply otherUnlinked.unlink
    · rintro rfl
      exact notIn prevHere
    · rintro rfl
      exact notIn nextHere

end Operations

/-! ## Runs of operations -/

/-- The lists with these heads hold these sequences of the entries `nodes`, and
every other entry of `nodes` is unlinked. -/
structure Lists (entries : Entries α) (head : ι → α) (nodes : Set α) (seq : ι → List α) :
    Prop where
  holds : entries.Holds head seq
  heads : ∀ index, head index ∉ nodes
  members : ∀ index, ∀ entry ∈ seq index, entry ∈ nodes
  unlinked : ∀ entry ∈ nodes, (∀ index, entry ∉ seq index) → entries.Unlinked entry

end Entries

/-- A call for one of several lists. -/
inductive ListOp (α ι : Type) where
  | addHead (index : ι) (entry : α)
  | addTail (index : ι) (entry : α)
  | del (entry : α)

section Runs
variable {α ι : Type} [DecidableEq α] [DecidableEq ι]

def ListOp.call (head : ι → α) : ListOp α ι → Exec (Entries α) Unit
  | .addHead index entry => listAddHead (some (head index)) (some entry)
  | .addTail index entry => listAddTail (some (head index)) (some entry)
  | .del entry => listDel (some entry)

def listCalls (head : ι → α) : List (ListOp α ι) → Exec (Entries α) Unit
  | [] => pure ()
  | op :: ops => do
      op.call head
      listCalls head ops

/-- What a call is for: prepend, append or remove one entry. -/
def ListOp.effect (seq : ι → List α) : ListOp α ι → ι → List α
  | .addHead index entry => Function.update seq index (entry :: seq index)
  | .addTail index entry => Function.update seq index (seq index ++ [entry])
  | .del entry => fun index => (seq index).erase entry

/-- Entries that are in no list may be added, entries of a list may be deleted. -/
def ListOp.Allowed (nodes : Set α) (seq : ι → List α) : ListOp α ι → Prop
  | .addHead _ entry => entry ∈ nodes ∧ ∀ index, entry ∉ seq index
  | .addTail _ entry => entry ∈ nodes ∧ ∀ index, entry ∉ seq index
  | .del entry => ∃ index, entry ∈ seq index

def listEffects (seq : ι → List α) : List (ListOp α ι) → ι → List α
  | [] => seq
  | op :: ops => listEffects (op.effect seq) ops

def ListOpsAllowed (nodes : Set α) (seq : ι → List α) : List (ListOp α ι) → Prop
  | [] => True
  | op :: ops => op.Allowed nodes seq ∧ ListOpsAllowed nodes (op.effect seq) ops

variable {entries : Entries α} {head : ι → α} {nodes : Set α} {seq : ι → List α} {entry : α}

omit [DecidableEq α] in
theorem Entries.Lists.add (lists : entries.Lists head nodes seq) (member : entry ∈ nodes)
    {after : Entries α} {index : ι} {changed : List α}
    (holds : after.Holds head (Function.update seq index changed))
    (entries_eq : ∀ x, x ∈ changed ↔ x = entry ∨ x ∈ seq index)
    (others : ∀ other, other ≠ entry → entries.Unlinked other → after.Unlinked other) :
    after.Lists head nodes (Function.update seq index changed) := by
  refine ⟨holds, lists.heads, ?_, ?_⟩
  · intro at' x here
    by_cases same : at' = index
    · subst same
      rw [Function.update_self, entries_eq] at here
      rcases here with rfl | old
      · exact member
      · exact lists.members at' x old
    · rw [Function.update_of_ne same] at here
      exact lists.members at' x here
  · intro x inNodes nowhere
    have absent : x ≠ entry ∧ x ∉ seq index := by
      have notHere := nowhere index
      rw [Function.update_self, entries_eq] at notHere
      exact not_or.mp notHere
    apply others x absent.1
    apply lists.unlinked x inNodes
    intro other
    by_cases same : other = index
    · rw [same]
      exact absent.2
    · have notThere := nowhere other
      rwa [Function.update_of_ne same] at notThere

theorem Entries.Holds.erase_eq_update (holds : entries.Holds head seq) {index : ι}
    (member : entry ∈ seq index) :
    (fun other => (seq other).erase entry) =
      Function.update seq index ((seq index).erase entry) := by
  funext other
  by_cases same : other = index
  · rw [same, Function.update_self]
  · rw [Function.update_of_ne same]
    apply List.erase_of_not_mem
    intro there
    exact holds.disjoint other index same (List.mem_cons_of_mem _ there)
      (List.mem_cons_of_mem _ member)

theorem Entries.Lists.call (lists : entries.Lists head nodes seq) {op : ListOp α ι}
    (allowed : op.Allowed nodes seq) : ∃ after, (op.call head).run entries = .ok () after ∧
      after.mapped = entries.mapped ∧ after.Lists head nodes (op.effect seq) := by
  cases op with
  | addHead index entry =>
      obtain ⟨member, nowhere⟩ := allowed
      obtain ⟨after, run, mapped, holds, others⟩ :=
        lists.holds.addHead (lists.unlinked entry member nowhere) index
      exact ⟨after, run, mapped, lists.add member holds (fun x => List.mem_cons) others⟩
  | addTail index entry =>
      obtain ⟨member, nowhere⟩ := allowed
      obtain ⟨after, run, mapped, holds, others⟩ :=
        lists.holds.addTail (lists.unlinked entry member nowhere) index
      refine ⟨after, run, mapped, lists.add member holds (fun x => ?_) others⟩
      rw [List.mem_append, List.mem_singleton, or_comm]
  | del entry =>
      obtain ⟨index, member⟩ := allowed
      obtain ⟨after, run, mapped, holds, unlinked, others⟩ := lists.holds.del member
      rw [← lists.holds.erase_eq_update member] at holds
      refine ⟨after, run, mapped, holds, lists.heads, ?_, ?_⟩
      · intro other x here
        exact lists.members other x (List.mem_of_mem_erase here)
      · intro x inNodes nowhere
        by_cases same : x = entry
        · rw [same]
          exact unlinked
        · apply others
          apply lists.unlinked x inNodes
          intro other there
          exact nowhere other ((List.mem_erase_of_ne same).mpr there)

theorem Entries.Lists.calls (ops : List (ListOp α ι)) (lists : entries.Lists head nodes seq)
    (allowed : ListOpsAllowed nodes seq ops) : ∃ after,
      (listCalls head ops).run entries = .ok () after ∧ after.mapped = entries.mapped ∧
      after.Lists head nodes (listEffects seq ops) := by
  induction ops generalizing entries seq with
  | nil => exact ⟨entries, rfl, rfl, lists⟩
  | cons op ops ih =>
      obtain ⟨middle, call, mapped, listsNext⟩ := lists.call allowed.1
      obtain ⟨after, run, mappedAfter, listsAfter⟩ := ih listsNext allowed.2
      refine ⟨after, ?_, mappedAfter.trans mapped, listsAfter⟩
      simp only [listCalls, EStateM.run_bind, call, run]

omit [DecidableEq α] [DecidableEq ι] in
theorem Entries.Lists.isLinked (lists : entries.Lists head nodes seq) (member : entry ∈ nodes) :
    ∃ linked, (listEntryIsLinked (some entry)).run entries = .ok linked entries ∧
      (linked = true ↔ ∃ index, entry ∈ seq index) := by
  by_cases somewhere : ∃ index, entry ∈ seq index
  · obtain ⟨index, here⟩ := somewhere
    have ring := lists.holds.ring index
    have inRing := List.mem_cons_of_mem (head index) here
    refine ⟨_, run_listEntryIsLinked (ring.mapped entry inRing), ?_⟩
    exact iff_of_true (Option.isSome_iff_ne_none.mpr (ring.linked inRing)) ⟨index, here⟩
  · have unlinked := lists.unlinked entry member (not_exists.mp somewhere)
    refine ⟨_, run_listEntryIsLinked unlinked.mapped, ?_⟩
    rw [unlinked.next]
    exact iff_of_false Bool.false_ne_true somewhere

/-- Calls on any number of lists do to their sequences what they are for.  Whether
an entry is linked says whether a sequence holds it, and the loop over a list
visits the entries of its sequence in order. -/
theorem list_calls_implement_sequences (lists : entries.Lists head nodes seq)
    (ops : List (ListOp α ι)) (allowed : ListOpsAllowed nodes seq ops) : ∃ after,
      (listCalls head ops).run entries = .ok () after ∧
      after.Lists head nodes (listEffects seq ops) ∧
      (∀ entry ∈ nodes, ∃ linked,
        (listEntryIsLinked (some entry)).run after = .ok linked after ∧
        (linked = true ↔ ∃ index, entry ∈ listEffects seq ops index)) ∧
      ∀ index, (listEffects seq ops index).Nodup ∧
        ∀ fuel, (listEffects seq ops index).length < fuel →
          (listForEach (some (head index)) fuel).run after =
            .ok ((listEffects seq ops index).map some) after := by
  obtain ⟨after, run, -, listsAfter⟩ := lists.calls ops allowed
  refine ⟨after, run, listsAfter, fun entry member => listsAfter.isLinked member, fun index => ?_⟩
  have ring := listsAfter.holds.ring index
  exact ⟨(List.nodup_cons.mp ring.nodup).2, fun fuel enough => listForEach_spec ring enough⟩

end Runs

/-! ## Two lists -/

/-- Two empty lists, with the heads 0 and 1, and two unlinked entries. -/
def twoLists : Entries Nat where
  mapped := fun addr => addr < 4
  next := fun addr => if addr < 2 then some addr else none
  prev := fun addr => if addr < 2 then some addr else none

theorem twoLists_lists :
    twoLists.Lists (fun index : Fin 2 => index.val) {2, 3} (fun _ => []) where
  holds := by
    refine ⟨fun index => ?_, fun index other apart => ?_⟩
    · refine Entries.ring_cons (by simp) ?_ ⟨?_, ?_⟩
      · intro addr member
        rw [List.mem_singleton.mp member]
        exact decide_eq_true (by omega)
      · exact if_pos index.isLt
      · exact if_pos index.isLt
    · intro x here there
      rw [List.mem_singleton] at here there
      exact apart (Fin.ext (here.symm.trans there))
  heads := by
    intro index member
    have small := index.isLt
    have large : index.val = 2 ∨ index.val = 3 := member
    omega
  members := fun _ _ member => absurd member List.not_mem_nil
  unlinked := by
    intro entry member _
    rcases member with rfl | rfl
    · exact ⟨rfl, rfl, rfl⟩
    · exact ⟨rfl, rfl, rfl⟩

/-- The first entry is moved from one list to the other, behind the second entry. -/
theorem list_calls_implement_sequences_move : ∃ after,
    (listCalls (fun index : Fin 2 => index.val)
      [.addHead 0 2, .addTail 1 3, .del 2, .addTail 1 2]).run twoLists = .ok () after ∧
    (listForEach (some 1) 3).run after = .ok [some 3, some 2] after := by
  obtain ⟨after, run, -, -, visits⟩ := list_calls_implement_sequences twoLists_lists
    [.addHead 0 2, .addTail 1 3, .del 2, .addTail 1 2]
    ⟨⟨.inl rfl, by decide⟩, ⟨.inr rfl, by decide⟩, ⟨0, by decide⟩, ⟨.inl rfl, by decide⟩, trivial⟩
  exact ⟨after, run, (visits 1).2 3 (by decide)⟩

end MemSim
