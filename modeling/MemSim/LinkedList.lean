import MemSim.Def
import MemSim.Ring

/-!
# The intrusive linked list

`list.h`: circular doubly linked lists whose entries are fields of other
structs.  A list head is an entry like any other; an entry with `NULL` pointers
is in no list.  Each operation is shown to do to a ring what its name says.
-/

set_option autoImplicit false

namespace MemSim

open Exec

variable {α : Type}

def deref : Option α → Exec (Entries α) α
  | none => stop .nullPointer
  | some addr => do
      let entries ← get
      require (entries.mapped addr) .wildPointer
      pure addr

/-- `ptr->next` -/
def readNext (ptr : Option α) : Exec (Entries α) (Option α) := do
  let addr ← deref ptr
  let entries ← get
  pure (entries.next addr)

/-- `ptr->prev` -/
def readPrev (ptr : Option α) : Exec (Entries α) (Option α) := do
  let addr ← deref ptr
  let entries ← get
  pure (entries.prev addr)

section Operations
variable [DecidableEq α]

/-- `ptr->next = value` -/
def writeNext (ptr value : Option α) : Exec (Entries α) Unit := do
  let addr ← deref ptr
  modify fun entries => entries.setNext addr value

/-- `ptr->prev = value` -/
def writePrev (ptr value : Option α) : Exec (Entries α) Unit := do
  let addr ← deref ptr
  modify fun entries => entries.setPrev addr value

/-- Initialize a list head. -/
def listInit (list : Option α) : Exec (Entries α) Unit := do
  writeNext list list
  writePrev list list

/-- Destroy a list head. -/
def listDestroy (_list : Option α) : Exec (Entries α) Unit := pure ()

/-- Initialize a list entry into the unlinked state. -/
def listEntryInit (entry : Option α) : Exec (Entries α) Unit := do
  writeNext entry none
  writePrev entry none

/-- Determine if a list entry is linked into any list. -/
def listEntryIsLinked (entry : Option α) : Exec (Entries α) Bool := do
  let next ← readNext entry
  pure next.isSome

/-- `__list_insert`: insert a new list entry between two known consecutive
entries. -/
def listInsert (entry prev next : Option α) : Exec (Entries α) Unit := do
  writePrev next entry
  writeNext entry next
  writePrev entry prev
  writeNext prev entry

/-- Add a new entry at the head of the list. -/
def listAddHead (list entry : Option α) : Exec (Entries α) Unit := do
  let next ← readNext list
  listInsert entry list next

/-- Add a new entry at the tail of the list. -/
def listAddTail (list entry : Option α) : Exec (Entries α) Unit := do
  let prev ← readPrev list
  listInsert entry prev list

/-- Delete an entry from a list. -/
def listDel (entry : Option α) : Exec (Entries α) Unit := do
  let next ← readNext entry
  let prev ← readPrev entry
  writePrev next prev
  let prev ← readPrev entry
  let next ← readNext entry
  writeNext prev next
  listEntryInit entry

/-- `list_first_entry` -/
def listFirstEntry (list : Option α) : Exec (Entries α) (Option α) := readNext list

/-- `list_last_entry` -/
def listLastEntry (list : Option α) : Exec (Entries α) (Option α) := readPrev list

/-- The loop of `list_for_each` from cursor `pos` on, with the cursors it visits;
`fuel` bounds the number of loop tests. -/
def listForEachFrom (list : Option α) : (fuel : Nat) → (pos : Option α) →
    Exec (Entries α) (List (Option α))
  | 0, _ => stop .outOfFuel
  | fuel + 1, pos =>
      if pos = list then pure []
      else do
        let next ← readNext pos
        let rest ← listForEachFrom list fuel next
        pure (pos :: rest)

/-- `list_for_each` -/
def listForEach (list : Option α) (fuel : Nat) : Exec (Entries α) (List (Option α)) := do
  let first ← readNext list
  listForEachFrom list fuel first

end Operations

/-! ## Single reads and writes -/

section Access
variable {entries : Entries α} {addr : α}

theorem run_deref (mapped : entries.mapped addr = true) :
    (deref (some addr)).run entries = .ok addr entries := by
  simp [deref, mapped]

theorem run_readNext (mapped : entries.mapped addr = true) :
    (readNext (some addr)).run entries = .ok (entries.next addr) entries := by
  simp [readNext, run_deref mapped]

theorem run_readPrev (mapped : entries.mapped addr = true) :
    (readPrev (some addr)).run entries = .ok (entries.prev addr) entries := by
  simp [readPrev, run_deref mapped]

theorem run_listEntryIsLinked (mapped : entries.mapped addr = true) :
    (listEntryIsLinked (some addr)).run entries = .ok (entries.next addr).isSome entries := by
  simp [listEntryIsLinked, run_readNext mapped]

variable [DecidableEq α]

theorem run_writeNext (mapped : entries.mapped addr = true) (value : Option α) :
    (writeNext (some addr) value).run entries = .ok () (entries.setNext addr value) := by
  simp [writeNext, run_deref mapped]

theorem run_writePrev (mapped : entries.mapped addr = true) (value : Option α) :
    (writePrev (some addr) value).run entries = .ok () (entries.setPrev addr value) := by
  simp [writePrev, run_deref mapped]

theorem run_listEntryInit (mapped : entries.mapped addr = true) :
    (listEntryInit (some addr)).run entries =
      .ok () ((entries.setNext addr none).setPrev addr none) := by
  have mapped' : (entries.setNext addr none).mapped addr = true := mapped
  simp [listEntryInit, run_writeNext mapped, run_writePrev mapped']

theorem run_listInit (mapped : entries.mapped addr = true) :
    (listInit (some addr)).run entries =
      .ok () ((entries.setNext addr (some addr)).setPrev addr (some addr)) := by
  have mapped' : (entries.setNext addr (some addr)).mapped addr = true := mapped
  simp [listInit, run_writeNext mapped, run_writePrev mapped']

variable {entry prev next : α}

theorem run_listInsert (entryMapped : entries.mapped entry = true)
    (prevMapped : entries.mapped prev = true) (nextMapped : entries.mapped next = true) :
    (listInsert (some entry) (some prev) (some next)).run entries =
      .ok () (entries.insertBetween entry prev next) := by
  simp only [listInsert, EStateM.run_bind, run_writePrev nextMapped]
  rw [run_writeNext (by exact entryMapped)]
  simp only
  rw [run_writePrev (by exact entryMapped)]
  simp only
  rw [run_writeNext (by exact prevMapped)]
  rfl

theorem run_listDel (entryMapped : entries.mapped entry = true)
    (prevMapped : entries.mapped prev = true) (nextMapped : entries.mapped next = true)
    (nextHere : entries.next entry = some next) (prevHere : entries.prev entry = some prev) :
    (listDel (some entry)).run entries = .ok () (entries.unlink entry prev next) := by
  have prevStill : (entries.setPrev next (some prev)).prev entry = some prev := by
    by_cases same : entry = next
    · simp [Entries.setPrev, same]
    · simp [Entries.setPrev, Function.update_of_ne same, prevHere]
  simp only [listDel, EStateM.run_bind, run_readNext entryMapped, run_readPrev entryMapped,
    nextHere, prevHere, run_writePrev nextMapped]
  rw [run_readPrev (by exact entryMapped)]
  simp only [prevStill]
  rw [run_readNext (by exact entryMapped)]
  simp only [Entries.next_setPrev, nextHere]
  rw [run_writeNext (by exact prevMapped)]
  simp only
  rw [run_listEntryInit (by exact entryMapped)]
  rfl

end Access

/-! ## What the operations do to rings -/

section Rings
variable [DecidableEq α] {entries : Entries α} {list entry : α}

open Entries

theorem listInit_ring (mapped : entries.mapped list = true) :
    ((entries.setNext list (some list)).setPrev list (some list)).Ring [list] := by
  refine ring_cons (by simp) (by simpa using mapped) ⟨?_, ?_⟩
  · simp [setNext, setPrev]
  · simp [setNext, setPrev]

theorem listAddHead_spec {rest : List α} (ring : entries.Ring (list :: rest))
    (mapped : entries.mapped entry = true) (fresh : entry ∉ list :: rest) :
    ∃ next ∈ list :: rest,
      (listAddHead (some list) (some entry)).run entries =
        .ok () (entries.insertBetween entry list next) ∧
      (entries.insertBetween entry list next).Ring (list :: entry :: rest) := by
  obtain ⟨next, following⟩ : ∃ next, (rest ++ [list]).head? = some next := by
    cases rest <;> simp
  have member : next ∈ list :: rest := by
    have inBack := List.mem_of_mem_head? (Option.mem_def.mpr following)
    simpa [or_comm] using inBack
  refine ⟨next, member, ?_, ring.insert_after_first following mapped fresh⟩
  have nextHere : entries.next list = some next := ring.neighbours.1.trans following
  have listMapped := ring.mapped list (by simp)
  simp only [listAddHead, EStateM.run_bind, run_readNext listMapped, nextHere]
  exact run_listInsert mapped listMapped (ring.mapped next member)

theorem listAddTail_spec {rest : List α} (ring : entries.Ring (list :: rest))
    (mapped : entries.mapped entry = true) (fresh : entry ∉ list :: rest) :
    ∃ prev ∈ list :: rest,
      (listAddTail (some list) (some entry)).run entries =
        .ok () (entries.insertBetween entry prev list) ∧
      (entries.insertBetween entry prev list).Ring (list :: (rest ++ [entry])) := by
  have listMapped := ring.mapped list (by simp)
  rcases List.eq_nil_or_concat rest with rfl | ⟨front, prev, rfl⟩
  · refine ⟨list, by simp, ?_, ring.insert_after_first rfl mapped fresh⟩
    have prevHere : entries.prev list = some list := ring.neighbours.2
    simp only [listAddTail, EStateM.run_bind, run_readPrev listMapped, prevHere]
    exact run_listInsert mapped listMapped listMapped
  · rw [List.concat_eq_append] at ring fresh ⊢
    have member : prev ∈ list :: (front ++ [prev]) := by simp
    have prevHere : entries.prev list = some prev := by
      rw [ring.neighbours.2, ← List.cons_append, List.getLast?_append]
      rfl
    refine ⟨prev, member, ?_, ?_⟩
    · simp only [listAddTail, EStateM.run_bind, run_readPrev listMapped, prevHere]
      exact run_listInsert mapped (ring.mapped prev member) listMapped
    · have turned : entries.Ring (prev :: (list :: front)) :=
        ring.rotated (List.isRotated_append : (list :: front) ++ [prev] ~r [prev] ++ (list :: front))
      have inserted := turned.insert_after_first rfl mapped
        (by simpa [or_comm, or_left_comm] using fresh)
      have back := inserted.rotated
        (List.isRotated_append : [prev, entry] ++ (list :: front) ~r (list :: front) ++ [prev, entry])
      simpa using back

theorem listDel_spec {front back : List α}
    (ring : entries.Ring (list :: (front ++ entry :: back))) :
    ∃ prev ∈ list :: (front ++ entry :: back), ∃ next ∈ list :: (front ++ entry :: back),
      (listDel (some entry)).run entries = .ok () (entries.unlink entry prev next) ∧
      (entries.unlink entry prev next).Ring (list :: (front ++ back)) ∧
      (entries.unlink entry prev next).Unlinked entry := by
  obtain ⟨before, prev, split⟩ : ∃ before prev, list :: front = before ++ [prev] := by
    rcases List.eq_nil_or_concat (list :: front) with none' | ⟨before, prev, split⟩
    · simp at none'
    · exact ⟨before, prev, by rw [split, List.concat_eq_append]⟩
  have whole : list :: (front ++ entry :: back) = before ++ prev :: entry :: back := by
    rw [← List.cons_append, split, List.append_assoc]
    rfl
  have turned : entries.Ring (prev :: entry :: (back ++ before)) := by
    rw [whole] at ring
    exact ring.rotated
      (List.isRotated_append : before ++ prev :: entry :: back ~r (prev :: entry :: back) ++ before)
  obtain ⟨next, following⟩ : ∃ next, ((back ++ before) ++ [prev]).head? = some next := by
    cases back <;> cases before <;> simp
  have prevMember : prev ∈ list :: (front ++ entry :: back) := by
    rw [whole]
    simp
  have nextMember : next ∈ list :: (front ++ entry :: back) := by
    have inBack := List.mem_of_mem_head? (Option.mem_def.mpr following)
    rw [whole]
    rcases List.mem_append.mp inBack with inBack | inBack
    · rcases List.mem_append.mp inBack with inBack | inBack <;> simp [inBack]
    · simp [List.mem_singleton.mp inBack]
  have entryMapped : entries.mapped entry = true := ring.mapped entry (by simp)
  have turnedOn : entries.Ring (entry :: ((back ++ before) ++ [prev])) := turned.rotate_one
  have atEntry := turnedOn.neighbours
  have nextHere : entries.next entry = some next := by
    rw [atEntry.1, ← following]
    simp
  have prevHere : entries.prev entry = some prev := by
    rw [atEntry.2, ← List.cons_append, List.getLast?_append]
    rfl
  refine ⟨prev, prevMember, next, nextMember,
    run_listDel entryMapped (ring.mapped prev prevMember) (ring.mapped next nextMember)
      nextHere prevHere, ?_, unlinked_unlink entry prev next entryMapped⟩
  have removed := turned.unlink_after_first following
  have back' : list :: (front ++ back) = before ++ prev :: back := by
    rw [← List.cons_append, split, List.append_assoc]
    rfl
  rw [back']
  exact removed.rotated
    (List.isRotated_append : (prev :: back) ++ before ~r before ++ prev :: back)

theorem listDel_first {rest : List α} (ring : entries.Ring (entry :: rest)) :
    ∃ after, (listDel (some entry)).run entries = .ok () after ∧ after.mapped = entries.mapped ∧
      after.Ring rest ∧ after.Unlinked entry := by
  have mapped := ring.mapped entry (by simp)
  cases rest with
  | nil =>
      obtain ⟨nextHere, prevHere⟩ := ring.neighbours
      exact ⟨_, run_listDel mapped mapped mapped nextHere prevHere, rfl, ring_nil,
        unlinked_unlink entry entry entry mapped⟩
  | cons list front =>
      have turned : entries.Ring (list :: (front ++ [entry])) := ring.rotate_one
      obtain ⟨prev, -, next, -, run, removed, unlinked⟩ := listDel_spec turned
      exact ⟨_, run, rfl, by simpa using removed, unlinked⟩

theorem run_listEntryInit_unlinked (unlinked : entries.Unlinked entry) :
    (listEntryInit (some entry)).run entries = .ok () entries := by
  rw [run_listEntryInit unlinked.mapped]
  have nextSame : Function.update entries.next entry none = entries.next := by
    rw [← unlinked.next, Function.update_eq_self]
  have prevSame : Function.update entries.prev entry none = entries.prev := by
    rw [← unlinked.prev, Function.update_eq_self]
  simp only [setNext, setPrev, nextSame, prevSame]

theorem listForEachFrom_spec {rest : List α} (mapped : ∀ addr ∈ rest, entries.mapped addr = true)
    (notList : list ∉ rest) {first : α} (segment : entries.Segment first rest list)
    {fuel : Nat} (enough : rest.length < fuel) :
    (listForEachFrom (some list) fuel (entries.next first)).run entries =
      .ok (rest.map some) entries := by
  induction rest generalizing first fuel with
  | nil =>
      obtain ⟨fuel, rfl⟩ := Nat.exists_eq_succ_of_ne_zero (Nat.ne_of_gt enough)
      rw [segment.1]
      simp [listForEachFrom]
  | cons second rest ih =>
      obtain ⟨fuel, rfl⟩ := Nat.exists_eq_succ_of_ne_zero (Nat.ne_of_gt (Nat.zero_lt_of_lt enough))
      obtain ⟨step, segment⟩ := segment
      have apart : second ≠ list := fun same => notList (by simp [same])
      have tail := ih (fun addr member => mapped addr (by simp [member]))
        (fun member => notList (by simp [member])) segment
        (Nat.lt_of_succ_lt_succ enough)
      rw [step.1]
      simp [listForEachFrom, apart, run_readNext (mapped second (by simp)), tail]

theorem listForEach_spec {rest : List α} (ring : entries.Ring (list :: rest)) {fuel : Nat}
    (enough : rest.length < fuel) :
    (listForEach (some list) fuel).run entries = .ok (rest.map some) entries := by
  simp only [listForEach, EStateM.run_bind, run_readNext (ring.mapped list (by simp))]
  exact listForEachFrom_spec (fun addr member => ring.mapped addr (by simp [member]))
    (List.nodup_cons.mp ring.nodup).1 ring.segment enough

end Rings

end MemSim
