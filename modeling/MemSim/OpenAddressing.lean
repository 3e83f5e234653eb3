import Mathlib.Data.Finset.Card
import Mathlib.Logic.Function.Basic

/-!
# Open addressing

Entries in numbered buckets, each in a bucket on the probe sequence of its key.
A search follows the sequence until it finds the key or a bucket that was never
used; it relies on every bucket before an entry being used, deleted or not.
Entries that are moved from one place to another keep what is stored.
-/

set_option autoImplicit false

namespace MemSim

/-! ## Entries at places -/

section Entries
variable {ι κ β : Type}

def Distinct (entry : ι → Option (κ × β)) : Prop :=
  ∀ ⦃place other key value value'⦄, entry place = some (key, value) →
    entry other = some (key, value') → place = other

def Stores (entry : ι → Option (κ × β)) (key : κ) (value : β) : Prop :=
  ∃ place, entry place = some (key, value)

def Lacks (entry : ι → Option (κ × β)) (key : κ) : Prop :=
  ∀ place value, entry place ≠ some (key, value)

variable {entry : ι → Option (κ × β)} {place target : ι} {key : κ} {value : β}

theorem Distinct.stores_unique {value' : β} (distinct : Distinct entry)
    (stores : Stores entry key value) (stores' : Stores entry key value') : value = value' := by
  obtain ⟨place, here⟩ := stores
  obtain ⟨other, there⟩ := stores'
  cases distinct here there
  exact congrArg Prod.snd (Option.some.inj (here.symm.trans there))

variable [DecidableEq ι]

theorem stores_put (free : entry place = none) {key' : κ} {value' : β} :
    Stores (Function.update entry place (some (key, value))) key' value' ↔
      key' = key ∧ value' = value ∨ Stores entry key' value' := by
  constructor
  · rintro ⟨other, here⟩
    by_cases same : other = place
    · subst same
      rw [Function.update_self] at here
      cases here
      exact .inl ⟨rfl, rfl⟩
    · rw [Function.update_of_ne same] at here
      exact .inr ⟨other, here⟩
  · rintro (⟨rfl, rfl⟩ | ⟨other, here⟩)
    · exact ⟨place, Function.update_self _ _ _⟩
    · refine ⟨other, ?_⟩
      rwa [Function.update_of_ne]
      rintro rfl
      rw [free] at here
      contradiction

theorem Distinct.put (distinct : Distinct entry) (lacks : Lacks entry key) :
    Distinct (Function.update entry place (some (key, value))) := by
  intro a b key' v w here there
  by_cases atA : a = place
  · by_cases atB : b = place
    · rw [atA, atB]
    · subst atA
      rw [Function.update_self] at here
      rw [Function.update_of_ne atB] at there
      cases here
      exact absurd there (lacks _ _)
  · rw [Function.update_of_ne atA] at here
    by_cases atB : b = place
    · subst atB
      rw [Function.update_self] at there
      cases there
      exact absurd here (lacks _ _)
    · rw [Function.update_of_ne atB] at there
      exact distinct here there

theorem stores_take (distinct : Distinct entry) (here : entry place = some (key, value))
    {key' : κ} {value' : β} :
    Stores (Function.update entry place none) key' value' ↔
      key' ≠ key ∧ Stores entry key' value' := by
  constructor
  · rintro ⟨other, there⟩
    by_cases same : other = place
    · subst same
      rw [Function.update_self] at there
      contradiction
    · rw [Function.update_of_ne same] at there
      refine ⟨?_, other, there⟩
      rintro rfl
      exact same (distinct there here)
  · rintro ⟨apart, other, there⟩
    refine ⟨other, ?_⟩
    rwa [Function.update_of_ne]
    rintro rfl
    cases here.symm.trans there
    exact apart rfl

theorem Distinct.take (distinct : Distinct entry) :
    Distinct (Function.update entry place none) := by
  intro a b key' v w here there
  by_cases atA : a = place
  · subst atA
    rw [Function.update_self] at here
    contradiction
  · by_cases atB : b = place
    · subst atB
      rw [Function.update_self] at there
      contradiction
    · rw [Function.update_of_ne atA] at here
      rw [Function.update_of_ne atB] at there
      exact distinct here there

theorem update_after_take : Function.update (Function.update entry place none) place
    (some (key, value)) = Function.update entry place (some (key, value)) := by simp

theorem stores_replace (distinct : Distinct entry) {old : β}
    (here : entry place = some (key, old)) {key' : κ} {value' : β} :
    Stores (Function.update entry place (some (key, value))) key' value' ↔
      key' = key ∧ value' = value ∨ key' ≠ key ∧ Stores entry key' value' := by
  have emptied : Function.update entry place none place = none := Function.update_self _ _ _
  rw [← update_after_take, stores_put emptied, stores_take distinct here]

theorem Distinct.replace (distinct : Distinct entry) {old : β}
    (here : entry place = some (key, old)) :
    Distinct (Function.update entry place (some (key, value))) := by
  rw [← update_after_take]
  apply distinct.take.put
  intro other value' there
  exact ((stores_take distinct here).mp ⟨other, there⟩).1 rfl

theorem stores_move (distinct : Distinct entry) (here : entry place = some (key, value))
    (free : entry target = none) {key' : κ} {value' : β} :
    Stores (Function.update (Function.update entry place none) target (some (key, value)))
        key' value' ↔ Stores entry key' value' := by
  have freed : Function.update entry place none target = none := by
    by_cases same : target = place
    · rw [same, Function.update_self]
    · rw [Function.update_of_ne same, free]
  rw [stores_put freed, stores_take distinct here]
  constructor
  · rintro (⟨rfl, rfl⟩ | ⟨-, stored⟩)
    · exact ⟨place, here⟩
    · exact stored
  · intro stored
    by_cases same : key' = key
    · subst same
      exact .inl ⟨rfl, distinct.stores_unique stored ⟨place, here⟩⟩
    · exact .inr ⟨same, stored⟩

theorem Distinct.move (distinct : Distinct entry) (here : entry place = some (key, value)) :
    Distinct (Function.update (Function.update entry place none) target (some (key, value))) := by
  apply distinct.take.put
  intro other value' there
  exact ((stores_take distinct here).mp ⟨other, there⟩).1 rfl

end Entries

/-! ## How many buckets -/

/-- The number of buckets below `size` for which the mark is set. -/
def marked (size : Nat) (mark : Nat → Bool) : Nat :=
  ((Finset.range size).filter fun bucket => mark bucket = true).card

section Marked
variable {size bucket : Nat} {mark other : Nat → Bool}

theorem marked_le : marked size mark ≤ size :=
  (Finset.card_filter_le _ _).trans_eq (Finset.card_range size)

theorem marked_congr (same : ∀ bucket < size, mark bucket = other bucket) :
    marked size mark = marked size other := by
  unfold marked
  congr 1
  refine Finset.filter_congr fun bucket member => ?_
  rw [same bucket (Finset.mem_range.mp member)]

theorem marked_le_marked (implies : ∀ bucket < size, mark bucket = true → other bucket = true) :
    marked size mark ≤ marked size other := by
  refine Finset.card_le_card fun bucket member => ?_
  obtain ⟨bound, isMarked⟩ := Finset.mem_filter.mp member
  exact Finset.mem_filter.mpr ⟨bound, implies bucket (Finset.mem_range.mp bound) isMarked⟩

theorem marked_eq_countP : marked size mark = (List.range size).countP mark := by
  rw [marked, List.countP_eq_length_filter,
    ← List.toFinset_card_of_nodup (List.nodup_range.filter _)]
  congr 1
  ext bucket
  simp

theorem marked_eq_zero (none' : ∀ bucket < size, mark bucket = false) : marked size mark = 0 := by
  refine Finset.card_eq_zero.mpr (Finset.filter_eq_empty_iff.mpr fun bucket member => ?_)
  rw [none' bucket (Finset.mem_range.mp member)]
  exact Bool.false_ne_true

theorem marked_set (bound : bucket < size) (clear : mark bucket = false) :
    marked size (Function.update mark bucket true) = marked size mark + 1 := by
  have absent : bucket ∉ (Finset.range size).filter fun bucket => mark bucket = true := by
    simp [clear]
  rw [marked, marked, ← Finset.card_insert_of_notMem absent]
  congr 1
  ext index
  by_cases same : index = bucket
  · simp [same, bound]
  · simp [same]

theorem marked_clear (bound : bucket < size) (isMarked : mark bucket = true) :
    marked size (Function.update mark bucket false) + 1 = marked size mark := by
  rw [← marked_set bound (Function.update_self bucket false mark), Function.update_idem,
    ← isMarked, Function.update_eq_self]

theorem update_false_eq_true {index : Nat} : Function.update mark bucket false index = true ↔
    index ≠ bucket ∧ mark index = true := by
  by_cases same : index = bucket
  · simp [same]
  · simp [same]

theorem update_unmarked (unmarked : ¬ (bucket < size ∧ mark bucket = true)) :
    ∀ index < size, mark index = Function.update mark bucket false index := by
  intro index bound
  by_cases same : index = bucket
  · rw [same] at bound ⊢
    rw [Function.update_self]
    exact Bool.eq_false_iff.mpr fun isMarked => unmarked ⟨bound, isMarked⟩
  · rw [Function.update_of_ne same]

theorem exists_clear (fewer : marked size mark < size) : ∃ bucket < size, mark bucket = false := by
  by_contra none'
  have all : marked size mark = size := by
    rw [marked, Finset.filter_true_of_mem, Finset.card_range]
    intro bucket member
    cases isMarked : mark bucket with
    | true => rfl
    | false => exact absurd ⟨bucket, Finset.mem_range.mp member, isMarked⟩ none'
  omega

end Marked

/-! ## Tables -/

/-- `used` tells which buckets are not empty: those that hold an entry and those
whose entry was deleted. -/
structure Buckets (κ β : Type) where
  used : Nat → Bool
  entry : Nat → Option (κ × β)

namespace Buckets
variable {κ β : Type} (size : Nat) (path : κ → Nat → Nat)

/-- Every entry is found by its key: it is on the path of the key, behind used
buckets only. -/
structure Sound (buckets : Buckets κ β) : Prop where
  inRange : ∀ {bucket}, buckets.entry bucket ≠ none → bucket < size
  used : ∀ {bucket}, buckets.entry bucket ≠ none → buckets.used bucket = true
  reached : ∀ {bucket key value}, buckets.entry bucket = some (key, value) →
    ∃ step, path key step = bucket ∧ ∀ earlier < step, buckets.used (path key earlier) = true
  distinct : Distinct buckets.entry

variable {size path} {buckets : Buckets κ β} {bucket step : Nat} {key : κ} {value : β}

theorem sound_empty : Sound size path (⟨fun _ => false, fun _ => none⟩ : Buckets κ β) where
  inRange := fun present => absurd rfl present
  used := fun present => absurd rfl present
  reached := fun here => by cases here
  distinct := fun _ _ _ _ _ here => by cases here

theorem Sound.lacks_of_unused (sound : buckets.Sound size path)
    (passed : ∀ earlier < step, ∀ value, buckets.entry (path key earlier) ≠ some (key, value))
    (unused : buckets.used (path key step) = false) : Lacks buckets.entry key := by
  intro bucket value here
  obtain ⟨at', rfl, before⟩ := sound.reached here
  rcases Nat.lt_trichotomy at' step with early | rfl | late
  · exact passed at' early value here
  · have used : buckets.used (path key at') = true :=
      sound.used (by rw [here]; exact Option.some_ne_none _)
    rw [unused] at used
    contradiction
  · have used := before step late
    rw [unused] at used
    contradiction

def put (buckets : Buckets κ β) (bucket : Nat) (key : κ) (value : β) : Buckets κ β :=
  ⟨Function.update buckets.used bucket true,
    Function.update buckets.entry bucket (some (key, value))⟩

theorem Sound.put (sound : buckets.Sound size path) (bound : path key step < size)
    (before : ∀ earlier < step, buckets.used (path key earlier) = true)
    (lacks : Lacks buckets.entry key) :
    (buckets.put (path key step) key value).Sound size path := by
  have grown : ∀ {index}, buckets.used index = true →
      Function.update buckets.used (path key step) true index = true := by
    intro index used
    rw [Function.update_apply]
    split
    · rfl
    · exact used
  refine ⟨?_, ?_, ?_, sound.distinct.put lacks⟩
  · intro index present
    by_cases same : index = path key step
    · rwa [same]
    · simp only [Buckets.put, Function.update_of_ne same] at present
      exact sound.inRange present
  · intro index present
    by_cases same : index = path key step
    · simp only [Buckets.put, same, Function.update_self]
    · simp only [Buckets.put, Function.update_of_ne same] at present
      exact grown (sound.used present)
  · intro index key' value' here
    by_cases same : index = path key step
    · simp only [Buckets.put, same, Function.update_self] at here
      cases here
      exact ⟨step, same.symm, fun earlier early => grown (before earlier early)⟩
    · simp only [Buckets.put, Function.update_of_ne same] at here
      obtain ⟨step', reached, before'⟩ := sound.reached here
      exact ⟨step', reached, fun earlier early => grown (before' earlier early)⟩

theorem Sound.replace (sound : buckets.Sound size path) {old : β}
    (here : buckets.entry bucket = some (key, old)) :
    Sound size path
      { buckets with entry := Function.update buckets.entry bucket (some (key, value)) } := by
  have present : buckets.entry bucket ≠ none := by rw [here]; exact Option.some_ne_none _
  have wasPresent : ∀ {index},
      Function.update buckets.entry bucket (some (key, value)) index ≠ none →
        buckets.entry index ≠ none := by
    intro index there
    by_cases same : index = bucket
    · rwa [same]
    · rwa [Function.update_of_ne same] at there
  refine ⟨fun there => sound.inRange (wasPresent there), fun there => sound.used (wasPresent there),
    ?_, sound.distinct.replace here⟩
  intro index key' value' there
  by_cases same : index = bucket
  · simp only [same, Function.update_self] at there
    cases there
    rw [same]
    exact sound.reached here
  · simp only [Function.update_of_ne same] at there
    exact sound.reached there

theorem Sound.take (sound : buckets.Sound size path) :
    Sound size path { buckets with entry := Function.update buckets.entry bucket none } := by
  have wasPresent : ∀ {index}, Function.update buckets.entry bucket none index ≠ none →
      index ≠ bucket ∧ buckets.entry index ≠ none := by
    intro index there
    by_cases same : index = bucket
    · rw [same, Function.update_self] at there
      exact absurd rfl there
    · rw [Function.update_of_ne same] at there
      exact ⟨same, there⟩
  refine ⟨fun there => sound.inRange (wasPresent there).2,
    fun there => sound.used (wasPresent there).2, ?_, sound.distinct.take⟩
  intro index key' value' there
  change Function.update buckets.entry bucket none index = some (key', value') at there
  have present : Function.update buckets.entry bucket none index ≠ none := by
    rw [there]
    exact Option.some_ne_none _
  rw [Function.update_of_ne (wasPresent present).1] at there
  exact sound.reached there

end Buckets

end MemSim
