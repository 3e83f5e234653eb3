import Mathlib.Data.Finset.Card
import MemSim.SecondChance
import MemSim.RoundRobin

/-!
# Conservative strategies

In a stretch of accesses to no more pages than there are frames, a conservative
strategy misses each page at most once.  `Conserves` is what an invariant has to say
for that: a frame that was loaded in the stretch is given up only after the pages of
all frames were accessed in it.  Round robin and second chance are conservative.
-/

set_option autoImplicit false

namespace MemSim

/-- `keeps loaded own fresh touched` holds during a stretch of accesses, when the
frames `fresh` were loaded in it, and the pages of the frames `touched` accessed. -/
structure Conserves {μ : Type} (strategy : Strategy μ) (size : Nat)
    (keeps : (loaded : Nat) → μ → (fresh touched : Finset Nat) → Prop) : Prop where
  start : keeps 0 strategy.start ∅ ∅
  forget : ∀ {loaded own fresh touched}, keeps loaded own fresh touched → keeps loaded own ∅ ∅
  hit : ∀ {loaded own fresh touched frame}, keeps loaded own fresh touched → frame < loaded →
    keeps loaded (strategy.hit own frame) fresh (insert frame touched)
  fill : ∀ {loaded own fresh touched}, keeps loaded own fresh touched → loaded < size →
    keeps (loaded + 1) (strategy.load own loaded) (insert loaded fresh) (insert loaded touched)
  replace : ∀ {own fresh touched}, keeps size own fresh touched →
    (strategy.victim size own).1 < size ∧
    ((strategy.victim size own).1 ∈ fresh → ∀ frame < size, frame ∈ touched) ∧
    keeps size (strategy.load (strategy.victim size own).2 (strategy.victim size own).1)
      (insert (strategy.victim size own).1 fresh) (insert (strategy.victim size own).1 touched)

namespace Paging
variable {μ : Type} {strategy : Strategy μ} {size : Nat} {paging : Paging μ} {page : Nat}
  {fresh touched seen : Finset Nat}

/-! ## A stretch of accesses -/

variable (strategy size) in
/-- How many of the pages are missing when they are accessed. -/
def misses : Paging μ → List Nat → Nat
  | _, [] => 0
  | paging, page :: rest =>
      (paging.find page).isNone.toNat + misses (paging.access strategy size page).2 rest

/-- Each frame in use has a page of its own. -/
structure Occupied (size : Nat) (paging : Paging μ) : Prop where
  loaded_le : paging.loaded ≤ size
  used : ∀ frame < paging.loaded, ∃ page, paging.page frame = some page
  unique : ∀ frame < paging.loaded, ∀ other < paging.loaded, ∀ page,
    paging.page frame = some page → paging.page other = some page → frame = other

/-- The frames that were loaded and accessed since the pages `seen` are accessed. -/
structure Stretch (paging : Paging μ) (fresh touched seen : Finset Nat) : Prop where
  fresh_touched : fresh ⊆ touched
  touched_lt : ∀ frame ∈ touched, frame < paging.loaded
  seen : ∀ frame ∈ touched, ∃ page ∈ seen, paging.page frame = some page

theorem Occupied.empty (own : μ) : Occupied size (⟨fun _ => none, 0, own⟩ : Paging μ) where
  loaded_le := Nat.zero_le _
  used := fun _ none' => absurd none' (Nat.not_lt_zero _)
  unique := fun _ none' => absurd none' (Nat.not_lt_zero _)

theorem find_eq_some_iff (occupied : paging.Occupied size) {frame : Nat} :
    paging.find page = some frame ↔ frame < paging.loaded ∧ paging.page frame = some page := by
  constructor
  · intro found
    exact ⟨List.mem_range.mp (List.mem_of_find?_eq_some found), by
      simpa using List.find?_some found⟩
  · intro both
    exact find_eq_some both.1 both.2 fun other inUse holds =>
      occupied.unique other inUse frame both.1 page holds both.2

theorem find_eq_none_iff : paging.find page = none ↔
    ∀ frame < paging.loaded, paging.page frame ≠ some page := by
  constructor
  · intro missing frame inUse holds
    have absent := List.find?_eq_none.mp missing frame (List.mem_range.mpr inUse)
    exact absurd holds (by simpa using absent)
  · exact find_eq_none

theorem Occupied.put (occupied : paging.Occupied size) (missing : paging.find page = none)
    {frame loaded : Nat} (own : μ) (fits : loaded ≤ size)
    (next : frame < paging.loaded ∧ loaded = paging.loaded ∨
      frame = paging.loaded ∧ loaded = paging.loaded + 1) :
    Occupied size ⟨paging.put frame page, loaded, own⟩ where
  loaded_le := fits
  used := by
    intro other inUse
    by_cases same : other = frame
    · exact ⟨page, by rw [same]; exact Function.update_self _ _ _⟩
    · obtain ⟨page', holds⟩ := occupied.used other (by simp only at inUse; omega)
      exact ⟨page', (Function.update_of_ne same _ _).trans holds⟩
  unique := by
    have absent := find_eq_none_iff.mp missing
    have old : ∀ other < loaded, other ≠ frame → ∀ page',
        paging.put frame page other = some page' →
          other < paging.loaded ∧ paging.page other = some page' := by
      intro other inUse apart page' holds
      exact ⟨by omega, (Function.update_of_ne apart _ _).symm.trans holds⟩
    have new : ∀ page', paging.put frame page frame = some page' → page' = page := by
      intro page' holds
      rw [Paging.put, Function.update_self] at holds
      exact (Option.some.inj holds).symm
    intro first firstUsed second secondUsed page' firstHolds secondHolds
    by_cases sameFirst : first = frame
    · by_cases sameSecond : second = frame
      · rw [sameFirst, sameSecond]
      · obtain ⟨inUse, holds⟩ := old second secondUsed sameSecond page' secondHolds
        rw [sameFirst] at firstHolds
        rw [new page' firstHolds] at holds
        exact absurd holds (absent second inUse)
    · obtain ⟨inUse, holds⟩ := old first firstUsed sameFirst page' firstHolds
      by_cases sameSecond : second = frame
      · rw [sameSecond] at secondHolds
        rw [new page' secondHolds] at holds
        exact absurd holds (absent first inUse)
      · obtain ⟨inUse', holds'⟩ := old second secondUsed sameSecond page' secondHolds
        exact occupied.unique first inUse second inUse' page' holds holds'

theorem Stretch.card_le (occupied : paging.Occupied size)
    (stretch : paging.Stretch fresh touched seen) : touched.card ≤ seen.card := by
  apply Finset.card_le_card_of_injOn fun frame => (paging.page frame).getD 0
  · intro frame member
    obtain ⟨page, here, holds⟩ := stretch.seen frame member
    simpa [holds] using here
  · intro first firstHere second secondHere same
    obtain ⟨page, -, holds⟩ := stretch.seen first firstHere
    obtain ⟨page', -, holds'⟩ := stretch.seen second secondHere
    have samePage : page = page' := by simpa [holds, holds'] using same
    rw [← samePage] at holds'
    exact occupied.unique first (stretch.touched_lt first firstHere) second
      (stretch.touched_lt second secondHere) page holds holds'

theorem Stretch.hit (stretch : paging.Stretch fresh touched seen) {frame : Nat}
    (inUse : frame < paging.loaded) (holds : paging.page frame = some page) (own : μ) :
    Stretch { paging with own := own } fresh (insert frame touched) (insert page seen) where
  fresh_touched := stretch.fresh_touched.trans (Finset.subset_insert _ _)
  touched_lt := by
    intro other member
    rcases Finset.mem_insert.mp member with rfl | member
    · exact inUse
    · exact stretch.touched_lt other member
  seen := by
    intro other member
    rcases Finset.mem_insert.mp member with rfl | member
    · exact ⟨page, Finset.mem_insert_self _ _, holds⟩
    · obtain ⟨page', here, holds'⟩ := stretch.seen other member
      exact ⟨page', Finset.mem_insert_of_mem here, holds'⟩

theorem Stretch.put (stretch : paging.Stretch fresh touched seen) {frame loaded : Nat} (own : μ)
    (next : frame < paging.loaded ∧ loaded = paging.loaded ∨
      frame = paging.loaded ∧ loaded = paging.loaded + 1) :
    Stretch ⟨paging.put frame page, loaded, own⟩ (insert frame fresh) (insert frame touched)
      (insert page seen) where
  fresh_touched := Finset.insert_subset_insert _ stretch.fresh_touched
  touched_lt := by
    intro other member
    change other < loaded
    rcases Finset.mem_insert.mp member with rfl | member
    · omega
    · have before := stretch.touched_lt other member
      omega
  seen := by
    intro other member
    by_cases same : other = frame
    · refine ⟨page, Finset.mem_insert_self _ _, ?_⟩
      rw [same]
      exact Function.update_self _ _ _
    · obtain ⟨page', here, holds⟩ :=
        stretch.seen other ((Finset.mem_insert.mp member).resolve_left same)
      exact ⟨page', Finset.mem_insert_of_mem here, (Function.update_of_ne same _ _).trans holds⟩

section Conserving
variable {keeps : (loaded : Nat) → μ → (fresh touched : Finset Nat) → Prop}
  (conserves : Conserves strategy size keeps)
include conserves

theorem stretch_access (occupied : paging.Occupied size)
    (holds : keeps paging.loaded paging.own fresh touched)
    (stretch : paging.Stretch fresh touched seen) (few : (insert page seen).card ≤ size) :
    ∃ fresh' touched', (paging.access strategy size page).2.Occupied size ∧
      keeps (paging.access strategy size page).2.loaded (paging.access strategy size page).2.own
        fresh' touched' ∧
      (paging.access strategy size page).2.Stretch fresh' touched' (insert page seen) ∧
      fresh'.card = fresh.card + (paging.find page).isNone.toNat := by
  cases found : paging.find page with
  | some frame =>
      obtain ⟨inUse, here⟩ := (find_eq_some_iff occupied).mp found
      rw [access_of_hit found]
      exact ⟨fresh, insert frame touched, ⟨occupied.loaded_le, occupied.used, occupied.unique⟩,
        conserves.hit holds inUse, stretch.hit inUse here _, rfl⟩
  | none =>
      rcases Nat.lt_or_ge paging.loaded size with room | full
      · rw [access_of_fill found room]
        have next : paging.loaded < paging.loaded ∧ paging.loaded + 1 = paging.loaded ∨
            paging.loaded = paging.loaded ∧ paging.loaded + 1 = paging.loaded + 1 :=
          .inr ⟨rfl, rfl⟩
        refine ⟨_, _, occupied.put found _ room next, conserves.fill holds room,
          stretch.put _ next, Finset.card_insert_of_notMem fun member => ?_⟩
        exact Nat.lt_irrefl _ (stretch.touched_lt _ (stretch.fresh_touched member))
      · have all : paging.loaded = size := Nat.le_antisymm occupied.loaded_le full
        rw [access_of_full found all]
        rw [all] at holds
        obtain ⟨bound, spent, holds'⟩ := conserves.replace holds
        have next : (strategy.victim size paging.own).1 < paging.loaded ∧
              paging.loaded = paging.loaded ∨
            (strategy.victim size paging.own).1 = paging.loaded ∧
              paging.loaded = paging.loaded + 1 :=
          .inl ⟨all ▸ bound, rfl⟩
        refine ⟨_, _, occupied.put found _ occupied.loaded_le next, by rw [all]; exact holds',
          stretch.put _ next, Finset.card_insert_of_notMem fun member => ?_⟩
        have every := spent member
        have subset : Finset.range size ⊆ touched :=
          fun frame inRange => every frame (Finset.mem_range.mp inRange)
        have many := Finset.card_le_card subset
        have atMost := Stretch.card_le occupied (⟨fun _ here => here, stretch.touched_lt,
          fun frame here => ?_⟩ : paging.Stretch touched touched (seen.erase page))
        · have fewer := Finset.card_erase_add_one (Finset.mem_insert_self page seen)
          rw [Finset.erase_insert_eq_erase] at fewer
          rw [Finset.card_range] at many
          omega
        · obtain ⟨page', inSeen, here'⟩ := stretch.seen frame here
          refine ⟨page', Finset.mem_erase.mpr ⟨?_, inSeen⟩, here'⟩
          rintro rfl
          exact find_eq_none_iff.mp found frame (stretch.touched_lt frame here) here'

theorem misses_le (occupied : paging.Occupied size)
    (holds : keeps paging.loaded paging.own fresh touched)
    (stretch : paging.Stretch fresh touched seen) (window : List Nat)
    (few : (seen ∪ window.toFinset).card ≤ size) :
    paging.misses strategy size window + fresh.card ≤ (seen ∪ window.toFinset).card := by
  induction window generalizing paging fresh touched seen with
  | nil =>
      have atMost := stretch.card_le occupied
      have loaded := Finset.card_le_card stretch.fresh_touched
      rw [List.toFinset_nil, Finset.union_empty, misses, Nat.zero_add]
      omega
  | cons page rest ih =>
      rw [List.toFinset_cons, Finset.union_insert, ← Finset.insert_union] at few ⊢
      have small := Finset.card_le_card
        (@Finset.subset_union_left _ _ (insert page seen) rest.toFinset)
      obtain ⟨fresh', touched', occupied', holds', stretch', count⟩ :=
        stretch_access conserves occupied holds stretch (Nat.le_trans small few)
      have later := ih occupied' holds' stretch' few
      rw [misses]
      omega

theorem conserves_after (positive : 0 < size) (occupied : paging.Occupied size)
    (holds : keeps paging.loaded paging.own ∅ ∅) (pages : List Nat) :
    (paging.after strategy size pages).Occupied size ∧
      keeps (paging.after strategy size pages).loaded (paging.after strategy size pages).own
        ∅ ∅ := by
  induction pages generalizing paging with
  | nil => exact ⟨occupied, holds⟩
  | cons page rest ih =>
      have begins : paging.Stretch ∅ ∅ ∅ :=
        ⟨Finset.Subset.refl _, fun _ none' => absurd none' (Finset.notMem_empty _),
          fun _ none' => absurd none' (Finset.notMem_empty _)⟩
      have one : (insert page (∅ : Finset Nat)).card ≤ size := positive
      obtain ⟨fresh, touched, occupied', holds', -, -⟩ :=
        stretch_access conserves occupied holds begins one
      exact ih occupied' (conserves.forget holds')

/-- From empty frames on, the misses of a stretch with few pages are at most its
pages. -/
theorem misses_stretch (positive : 0 < size) (front window : List Nat)
    (few : window.toFinset.card ≤ size) :
    ((Paging.start strategy).after strategy size front).misses strategy size window ≤
      window.toFinset.card := by
  obtain ⟨occupied, holds⟩ :=
    conserves_after conserves positive (Occupied.empty strategy.start) conserves.start front
  have begins : ((Paging.start strategy).after strategy size front).Stretch ∅ ∅ ∅ :=
    ⟨Finset.Subset.refl _, fun _ none' => absurd none' (Finset.notMem_empty _),
      fun _ none' => absurd none' (Finset.notMem_empty _)⟩
  have stretch := misses_le conserves occupied holds begins window (by rwa [Finset.empty_union])
  rwa [Finset.empty_union, Finset.card_empty, Nat.add_zero] at stretch

end Conserving

end Paging

end MemSim
