import Mathlib.Data.List.Basic
import Mathlib.Logic.Function.Basic

/-!
# Demand paging

A machine with `size` frames and a replacement strategy.  An access finds its
page in a frame, or the page is loaded: into the next frame as long as not all
have been in use, and then into the frame the strategy gives up.  What the
strategy remembers of the accesses has an arbitrary type.
-/

set_option autoImplicit false

namespace MemSim

/-- `hit` and `load` tell the strategy that the page in a frame was accessed, or
was loaded for an access.  `victim` chooses among the frames when all are in
use. -/
structure Strategy (μ : Type) where
  start : μ
  hit : μ → (frame : Nat) → μ
  load : μ → (frame : Nat) → μ
  victim : (size : Nat) → μ → Nat × μ

/-- `page` are the pages in the frames, of which the first `loaded` are in use. -/
structure Paging (μ : Type) where
  page : Nat → Option Nat
  loaded : Nat
  own : μ

/-- Where an access found its page, and whether another page was evicted for it. -/
structure Placement where
  frame : Nat
  evicted : Bool
  deriving DecidableEq, Repr

def Placement.victim (placement : Placement) : Option Nat :=
  if placement.evicted then some placement.frame else none

namespace Paging
variable {μ : Type}

def start (strategy : Strategy μ) : Paging μ := ⟨fun _ => none, 0, strategy.start⟩

def find (paging : Paging μ) (page : Nat) : Option Nat :=
  (List.range paging.loaded).find? fun frame => paging.page frame = some page

def put (paging : Paging μ) (frame page : Nat) : Nat → Option Nat :=
  Function.update paging.page frame (some page)

variable (strategy : Strategy μ) (size : Nat)

def access (paging : Paging μ) (page : Nat) : Placement × Paging μ :=
  match paging.find page with
  | some frame => (⟨frame, false⟩, { paging with own := strategy.hit paging.own frame })
  | none =>
      if paging.loaded < size then
        (⟨paging.loaded, false⟩,
          ⟨paging.put paging.loaded page, paging.loaded + 1,
            strategy.load paging.own paging.loaded⟩)
      else
        let choice := strategy.victim size paging.own
        (⟨choice.1, true⟩,
          ⟨paging.put choice.1 page, paging.loaded, strategy.load choice.2 choice.1⟩)

def run : Paging μ → List Nat → List Placement
  | _, [] => []
  | paging, page :: rest =>
      (paging.access strategy size page).1 :: run (paging.access strategy size page).2 rest

def after : Paging μ → List Nat → Paging μ
  | paging, [] => paging
  | paging, page :: rest => after (paging.access strategy size page).2 rest

def victims (placements : List Placement) : List Nat := placements.filterMap Placement.victim

variable {strategy size} {paging : Paging μ} {page frame : Nat}

theorem find_eq_some (inUse : frame < paging.loaded) (holds : paging.page frame = some page)
    (unique : ∀ other < paging.loaded, paging.page other = some page → other = frame) :
    paging.find page = some frame := by
  cases found : paging.find page with
  | none =>
      have absent := List.find?_eq_none.mp found frame (List.mem_range.mpr inUse)
      exact absurd holds (by simpa using absent)
  | some other =>
      have holdsOther : paging.page other = some page := by simpa using List.find?_some found
      have otherInUse := List.mem_range.mp (List.mem_of_find?_eq_some found)
      rw [unique other otherInUse holdsOther]

theorem find_eq_none (absent : ∀ other < paging.loaded, paging.page other ≠ some page) :
    paging.find page = none := by
  apply List.find?_eq_none.mpr
  intro other member
  simpa using absent other (List.mem_range.mp member)

theorem access_of_hit (found : paging.find page = some frame) :
    paging.access strategy size page =
      (⟨frame, false⟩, { paging with own := strategy.hit paging.own frame }) := by
  simp only [access, found]

theorem access_of_fill (missing : paging.find page = none) (room : paging.loaded < size) :
    paging.access strategy size page =
      (⟨paging.loaded, false⟩, ⟨paging.put paging.loaded page, paging.loaded + 1,
        strategy.load paging.own paging.loaded⟩) := by
  simp only [access, missing, room, if_true]

theorem access_of_full (missing : paging.find page = none) (full : paging.loaded = size) :
    paging.access strategy size page =
      (⟨(strategy.victim size paging.own).1, true⟩,
        ⟨paging.put (strategy.victim size paging.own).1 page, paging.loaded,
          strategy.load (strategy.victim size paging.own).2
            (strategy.victim size paging.own).1⟩) := by
  simp only [access, missing, full, Nat.lt_irrefl, if_false]

theorem access_loaded_pos (positive : 0 < size) :
    0 < (paging.access strategy size page).2.loaded := by
  cases found : paging.find page with
  | some frame =>
      rw [access_of_hit found]
      exact Nat.zero_lt_of_lt (List.mem_range.mp (List.mem_of_find?_eq_some found))
  | none =>
      rcases Nat.lt_or_ge paging.loaded size with room | full
      · rw [access_of_fill found room]
        exact Nat.succ_pos _
      · simp only [access, found, Nat.not_lt.mpr full, if_false]
        exact Nat.lt_of_lt_of_le positive full

theorem after_loaded_pos (positive : 0 < size) {pages : List Nat} (nonempty : pages ≠ []) :
    0 < (paging.after strategy size pages).loaded := by
  induction pages generalizing paging with
  | nil => exact absurd rfl nonempty
  | cons page rest ih =>
      cases rest with
      | nil => exact access_loaded_pos positive
      | cons next rest => exact ih (List.cons_ne_nil _ _)

theorem victims_cons (placement : Placement) (rest : List Placement) :
    victims (placement :: rest) = placement.victim.toList ++ victims rest := by
  rw [victims, List.filterMap_cons]
  cases placement.victim <;> rfl

end Paging

end MemSim
