import Mathlib.Data.List.Rotate
import Mathlib.Logic.Function.Basic

/-!
# Rings of doubly linked entries

Entries at addresses of an arbitrary type carry a pointer to the next and one to
the previous entry.  `Ring` says that a list of addresses is linked into one
cycle, forwards and backwards.  Which entry is written first does not matter: a
ring may be rotated.  Inserting an entry between two neighbours and unlinking
one are each shown once, next to the first entry of the ring; every other
position is reached by rotating.
-/

set_option autoImplicit false

namespace MemSim

variable {α : Type}

/-- Entry objects: `mapped` says where there is one; the two pointers may be
`none`, and are both `none` in an unlinked entry. -/
structure Entries (α : Type) where
  mapped : α → Bool
  next : α → Option α
  prev : α → Option α

namespace Entries

section Defs
variable [DecidableEq α]

def setNext (entries : Entries α) (addr : α) (value : Option α) : Entries α :=
  { entries with next := Function.update entries.next addr value }

def setPrev (entries : Entries α) (addr : α) (value : Option α) : Entries α :=
  { entries with prev := Function.update entries.prev addr value }

/-- Put `entry` between `before` and `after`. -/
def insertBetween (entries : Entries α) (entry before after : α) : Entries α :=
  (((entries.setPrev after (some entry)).setNext entry (some after)).setPrev entry
    (some before)).setNext before (some entry)

/-- Join the neighbours of `entry` and clear its own pointers. -/
def unlink (entries : Entries α) (entry before after : α) : Entries α :=
  (((entries.setPrev after (some before)).setNext before (some after)).setNext entry
    none).setPrev entry none

end Defs

/-- An entry in no ring. -/
structure Unlinked (entries : Entries α) (addr : α) : Prop where
  mapped : entries.mapped addr = true
  next : entries.next addr = none
  prev : entries.prev addr = none

/-- `b` follows `a`, in both directions of the pointers. -/
def Linked (entries : Entries α) (a b : α) : Prop :=
  entries.next a = some b ∧ entries.prev b = some a

/-- From `a` through the entries of the list to `b`. -/
def Segment (entries : Entries α) : α → List α → α → Prop
  | a, [], b => entries.Linked a b
  | a, x :: rest, b => entries.Linked a x ∧ Segment entries x rest b

/-- The addresses form one cycle, in this order. -/
structure Ring (entries : Entries α) (ring : List α) : Prop where
  nodup : ring.Nodup
  mapped : ∀ addr ∈ ring, entries.mapped addr = true
  closed : ∀ first rest, ring = first :: rest → entries.Segment first rest first

variable {entries other : Entries α}

theorem segment_append {a x b : α} {front back : List α} :
    entries.Segment a (front ++ x :: back) b ↔
      entries.Segment a front x ∧ entries.Segment x back b := by
  induction front generalizing a with
  | nil => rfl
  | cons y front ih => simp only [List.cons_append, Segment, ih, and_assoc]

/-- A segment reads the next pointers of all but its last entry and the previous
pointers of all but its first. -/
theorem Segment.congr {a b : α} {middle : List α} (segment : entries.Segment a middle b)
    (sameNext : ∀ x ∈ a :: middle, other.next x = entries.next x)
    (samePrev : ∀ x ∈ middle ++ [b], other.prev x = entries.prev x) :
    other.Segment a middle b := by
  induction middle generalizing a with
  | nil =>
      exact ⟨by rw [sameNext a (by simp), segment.1], by rw [samePrev b (by simp), segment.2]⟩
  | cons x middle ih =>
      obtain ⟨here, rest⟩ := segment
      exact ⟨⟨by rw [sameNext a (by simp), here.1], by rw [samePrev x (by simp), here.2]⟩,
        ih rest (fun y member => sameNext y (List.mem_cons_of_mem a member))
          (fun y member => samePrev y (by simp only [List.cons_append, List.mem_cons, member, or_true]))⟩

theorem Ring.segment {first : α} {rest : List α} (ring : entries.Ring (first :: rest)) :
    entries.Segment first rest first :=
  ring.closed first rest rfl

theorem ring_nil : entries.Ring ([] : List α) :=
  ⟨List.nodup_nil, by simp, by simp⟩

theorem ring_cons {first : α} {rest : List α} (nodup : (first :: rest).Nodup)
    (mapped : ∀ addr ∈ first :: rest, entries.mapped addr = true)
    (segment : entries.Segment first rest first) : entries.Ring (first :: rest) :=
  ⟨nodup, mapped, fun _ _ same => by cases same; exact segment⟩

/-! ## Rotation -/

theorem Ring.rotate_one {first : α} {rest : List α} (ring : entries.Ring (first :: rest)) :
    entries.Ring (rest ++ [first]) := by
  cases rest with
  | nil => exact ring
  | cons second rest =>
      obtain ⟨step, segment⟩ := ring.segment
      refine ring_cons ?_ ?_ ?_
      · have perm := List.perm_append_singleton first (second :: rest)
        exact perm.nodup_iff.mpr ring.nodup
      · intro addr member
        exact ring.mapped addr (by simpa [or_comm, or_left_comm, or_assoc] using member)
      · exact segment_append.mpr ⟨segment, step⟩

theorem Ring.rotated {ring ring' : List α} (here : entries.Ring ring) (rotated : ring ~r ring') :
    entries.Ring ring' := by
  obtain ⟨count, rfl⟩ := rotated
  induction count generalizing ring with
  | zero => simpa using here
  | succ count ih =>
      cases ring with
      | nil => simpa using here
      | cons first rest =>
          rw [List.rotate_cons_succ]
          exact ih here.rotate_one

theorem Ring.congr {ring : List α} (here : entries.Ring ring)
    (sameMapped : ∀ x ∈ ring, other.mapped x = entries.mapped x)
    (sameNext : ∀ x ∈ ring, other.next x = entries.next x)
    (samePrev : ∀ x ∈ ring, other.prev x = entries.prev x) : other.Ring ring := by
  refine ⟨here.nodup, fun x member => by rw [sameMapped x member, here.mapped x member], ?_⟩
  rintro first rest rfl
  exact here.segment.congr sameNext fun x member =>
    samePrev x (by simpa [or_comm] using member)

theorem Ring.neighbours {first : α} {rest : List α} (ring : entries.Ring (first :: rest)) :
    entries.next first = (rest ++ [first]).head? ∧
      entries.prev first = (first :: rest).getLast? := by
  constructor
  · cases rest with
    | nil => exact ring.segment.1
    | cons second rest => exact ring.segment.1.1
  · rcases List.eq_nil_or_concat rest with rfl | ⟨front, last, rfl⟩
    · exact ring.segment.2
    · rw [List.concat_eq_append] at ring ⊢
      have closing := (segment_append.mp ring.segment).2
      rw [closing.2, ← List.cons_append, List.getLast?_append]
      rfl

theorem Ring.linked {ring : List α} (here : entries.Ring ring) {addr : α} (member : addr ∈ ring) :
    entries.next addr ≠ none := by
  obtain ⟨front, back, rfl⟩ := List.append_of_mem member
  have atFirst : entries.Ring (addr :: (back ++ front)) :=
    here.rotated (by simpa using (List.isRotated_append : front ++ addr :: back ~r _))
  rw [atFirst.neighbours.1]
  simp

/-! ## Insertion and removal next to the first entry -/

section Update
variable [DecidableEq α]

@[simp] theorem mapped_setNext (addr : α) (value : Option α) :
    (entries.setNext addr value).mapped = entries.mapped := rfl

@[simp] theorem mapped_setPrev (addr : α) (value : Option α) :
    (entries.setPrev addr value).mapped = entries.mapped := rfl

@[simp] theorem next_setPrev (addr : α) (value : Option α) :
    (entries.setPrev addr value).next = entries.next := rfl

@[simp] theorem prev_setNext (addr : α) (value : Option α) :
    (entries.setNext addr value).prev = entries.prev := rfl

@[simp] theorem mapped_insertBetween (entry before after : α) :
    (entries.insertBetween entry before after).mapped = entries.mapped := rfl

@[simp] theorem mapped_unlink (entry before after : α) :
    (entries.unlink entry before after).mapped = entries.mapped := rfl

theorem next_insertBetween (entry before after x : α) :
    (entries.insertBetween entry before after).next x =
      if x = before then some entry else if x = entry then some after else entries.next x := by
  simp [insertBetween, setNext, setPrev, Function.update_apply]

theorem prev_insertBetween (entry before after x : α) :
    (entries.insertBetween entry before after).prev x =
      if x = entry then some before else if x = after then some entry else entries.prev x := by
  simp [insertBetween, setNext, setPrev, Function.update_apply]

theorem next_unlink (entry before after x : α) :
    (entries.unlink entry before after).next x =
      if x = entry then none else if x = before then some after else entries.next x := by
  simp [unlink, setNext, setPrev, Function.update_apply]

theorem prev_unlink (entry before after x : α) :
    (entries.unlink entry before after).prev x =
      if x = entry then none else if x = after then some before else entries.prev x := by
  simp [unlink, setNext, setPrev, Function.update_apply]

theorem Ring.insert_after_first {first after entry : α} {rest : List α}
    (ring : entries.Ring (first :: rest)) (following : (rest ++ [first]).head? = some after)
    (mapped : entries.mapped entry = true) (fresh : entry ∉ first :: rest) :
    (entries.insertBetween entry first after).Ring (first :: entry :: rest) := by
  obtain ⟨notFirst, notRest⟩ : entry ≠ first ∧ entry ∉ rest := by simpa using fresh
  refine ring_cons ?_ ?_ ⟨⟨?_, ?_⟩, ?_⟩
  · rw [(List.Perm.swap entry first rest).nodup_iff, List.nodup_cons]
    exact ⟨fresh, ring.nodup⟩
  · intro addr member
    rw [mapped_insertBetween]
    rcases List.mem_cons.mp member with rfl | member
    · exact ring.mapped addr (by simp)
    · rcases List.mem_cons.mp member with rfl | member
      · exact mapped
      · exact ring.mapped addr (by simp [member])
  · simp [next_insertBetween]
  · simp [prev_insertBetween]
  · cases rest with
    | nil =>
        cases Option.some.inj following
        exact ⟨by simp [next_insertBetween, notFirst], by simp [prev_insertBetween, Ne.symm notFirst]⟩
    | cons second rest =>
        cases Option.some.inj following
        obtain ⟨firstFresh, restNodup⟩ := List.nodup_cons.mp ring.nodup
        obtain ⟨secondFresh, -⟩ := List.nodup_cons.mp restNodup
        have notSecond : after ≠ entry := fun same => notRest (by simp [same])
        refine ⟨⟨by simp [next_insertBetween, notFirst],
          by simp [prev_insertBetween, notSecond]⟩, ?_⟩
        refine ring.segment.2.congr ?_ ?_
        · intro x member
          have xFirst : x ≠ first := fun same => firstFresh (same ▸ member)
          have xEntry : x ≠ entry := fun same => notRest (same ▸ member)
          simp [next_insertBetween, xFirst, xEntry]
        · intro x member
          have xEntry : x ≠ entry := by
            rintro rfl
            rcases List.mem_append.mp member with member | member
            · exact notRest (by simp [member])
            · exact notFirst (by simpa using member)
          have xSecond : x ≠ after := by
            rintro rfl
            rcases List.mem_append.mp member with member | member
            · exact secondFresh member
            · exact firstFresh (by simp [List.mem_singleton.mp member])
          simp [prev_insertBetween, xEntry, xSecond]

theorem Ring.unlink_after_first {first after entry : α} {rest : List α}
    (ring : entries.Ring (first :: entry :: rest))
    (following : (rest ++ [first]).head? = some after) :
    (entries.unlink entry first after).Ring (first :: rest) := by
  obtain ⟨firstFresh, restNodup⟩ := List.nodup_cons.mp ring.nodup
  obtain ⟨entryFresh, restNodup⟩ := List.nodup_cons.mp restNodup
  obtain ⟨notEntry, firstNotRest⟩ : first ≠ entry ∧ first ∉ rest := by simpa using firstFresh
  refine ring_cons (List.nodup_cons.mpr ⟨firstNotRest, restNodup⟩) ?_ ?_
  · intro addr member
    rw [mapped_unlink]
    refine ring.mapped addr ?_
    rcases List.mem_cons.mp member with rfl | member
    · simp
    · simp [member]
  · cases rest with
    | nil =>
        cases Option.some.inj following
        exact ⟨by simp [next_unlink, notEntry], by simp [prev_unlink, notEntry]⟩
    | cons second rest =>
        cases Option.some.inj following
        obtain ⟨secondFresh, -⟩ := List.nodup_cons.mp restNodup
        have notAfter : after ≠ entry := fun same => entryFresh (by simp [same])
        refine ⟨⟨by simp [next_unlink, notEntry], by simp [prev_unlink, notAfter]⟩, ?_⟩
        refine ring.segment.2.2.congr ?_ ?_
        · intro x member
          have xFirst : x ≠ first := fun same => firstNotRest (same ▸ member)
          have xEntry : x ≠ entry := fun same => entryFresh (same ▸ member)
          simp [next_unlink, xFirst, xEntry]
        · intro x member
          have xEntry : x ≠ entry := by
            rintro rfl
            rcases List.mem_append.mp member with member | member
            · exact entryFresh (by simp [member])
            · exact notEntry (List.mem_singleton.mp member).symm
          have xSecond : x ≠ after := by
            rintro rfl
            rcases List.mem_append.mp member with member | member
            · exact secondFresh member
            · exact firstNotRest (by simp [List.mem_singleton.mp member])
          simp [prev_unlink, xEntry, xSecond]

theorem unlinked_unlink (entry before after : α) (mapped : entries.mapped entry = true) :
    (entries.unlink entry before after).Unlinked entry :=
  ⟨mapped, by simp [next_unlink], by simp [prev_unlink]⟩

theorem Ring.insertBetween_apart {ring : List α} (here : entries.Ring ring) {entry before after : α}
    (entryApart : entry ∉ ring) (beforeApart : before ∉ ring) (afterApart : after ∉ ring) :
    (entries.insertBetween entry before after).Ring ring := by
  refine here.congr (fun _ _ => rfl) ?_ ?_
  · intro x member
    have notBefore : x ≠ before := fun same => beforeApart (same ▸ member)
    have notEntry : x ≠ entry := fun same => entryApart (same ▸ member)
    simp [next_insertBetween, notBefore, notEntry]
  · intro x member
    have notAfter : x ≠ after := fun same => afterApart (same ▸ member)
    have notEntry : x ≠ entry := fun same => entryApart (same ▸ member)
    simp [prev_insertBetween, notAfter, notEntry]

theorem Ring.unlink_apart {ring : List α} (here : entries.Ring ring) {entry before after : α}
    (entryApart : entry ∉ ring) (beforeApart : before ∉ ring) (afterApart : after ∉ ring) :
    (entries.unlink entry before after).Ring ring := by
  refine here.congr (fun _ _ => rfl) ?_ ?_
  · intro x member
    have notBefore : x ≠ before := fun same => beforeApart (same ▸ member)
    have notEntry : x ≠ entry := fun same => entryApart (same ▸ member)
    simp [next_unlink, notBefore, notEntry]
  · intro x member
    have notAfter : x ≠ after := fun same => afterApart (same ▸ member)
    have notEntry : x ≠ entry := fun same => entryApart (same ▸ member)
    simp [prev_unlink, notAfter, notEntry]

theorem Unlinked.insertBetween {addr entry before after : α} (here : entries.Unlinked addr)
    (notEntry : addr ≠ entry) (notBefore : addr ≠ before) (notAfter : addr ≠ after) :
    (entries.insertBetween entry before after).Unlinked addr :=
  ⟨here.mapped, by simp [next_insertBetween, notBefore, notEntry, here.next],
    by simp [prev_insertBetween, notEntry, notAfter, here.prev]⟩

theorem Unlinked.unlink {addr entry before after : α} (here : entries.Unlinked addr)
    (notBefore : addr ≠ before) (notAfter : addr ≠ after) :
    (entries.unlink entry before after).Unlinked addr := by
  refine ⟨here.mapped, ?_, ?_⟩
  · by_cases same : addr = entry
    · simp [next_unlink, same]
    · simp [next_unlink, same, notBefore, here.next]
  · by_cases same : addr = entry
    · simp [prev_unlink, same]
    · simp [prev_unlink, same, notAfter, here.prev]

end Update

end Entries

end MemSim
