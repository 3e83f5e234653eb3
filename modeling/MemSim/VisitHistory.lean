/-!
# Histories of visits

A page is visited again and again.  A visit is a miss if it brings the page in;
it may put another page out.  The history of visits, the latest one first, tells
which pages are in, how they came in, and whether they were written since.
-/

set_option autoImplicit false

namespace MemSim

/-- One visit to a page: whether it wrote the page, whether it was a miss, whether
the page came from swap, and the page that was put out. -/
structure Visit where
  page : Nat
  write : Bool
  missed : Bool
  fromSwap : Bool
  evicted : Option Nat
  deriving DecidableEq, Repr

def Visit.loads (page : Nat) (visit : Visit) : Bool := visit.page == page && visit.missed

def lastMiss (page : Nat) (history : List Visit) : Option Visit := history.find? (Visit.loads page)

/-- The visits since the last miss on the page, that one included. -/
def sinceLastMiss (page : Nat) : List Visit → List Visit
  | [] => []
  | visit :: earlier =>
      if visit.loads page then [visit] else visit :: sinceLastMiss page earlier

/-- The page was visited before and was not put out since its last miss. -/
def StillIn (history : List Visit) (page : Nat) : Prop :=
  (∃ visit ∈ history, visit.page = page) ∧
    ∀ visit ∈ sinceLastMiss page history, visit.evicted ≠ some page

/-- The page came from swap and was not written since. -/
def UnwrittenCopy (history : List Visit) (page : Nat) : Prop :=
  (∃ load, lastMiss page history = some load ∧ load.fromSwap = true) ∧
    ∀ visit ∈ sinceLastMiss page history, visit.page = page → visit.write = false

section Visits
variable {history : List Visit} {visit : Visit} {page : Nat}

theorem Visit.loads_iff : visit.loads page = true ↔ visit.page = page ∧ visit.missed = true := by
  simp [Visit.loads]

theorem sinceLastMiss_loads (loads : visit.loads page = true) :
    sinceLastMiss page (visit :: history) = [visit] := by
  rw [sinceLastMiss, if_pos loads]

theorem sinceLastMiss_other (other : visit.loads page = false) :
    sinceLastMiss page (visit :: history) = visit :: sinceLastMiss page history := by
  rw [sinceLastMiss, if_neg (by simp [other])]

theorem lastMiss_loads (loads : visit.loads page = true) :
    lastMiss page (visit :: history) = some visit :=
  List.find?_cons_of_pos loads

theorem lastMiss_other (other : visit.loads page = false) :
    lastMiss page (visit :: history) = lastMiss page history :=
  List.find?_cons_of_neg (by simp [other])

theorem not_stillIn_nil : ¬ StillIn [] page := by
  intro stillIn
  obtain ⟨⟨visit, member, -⟩, -⟩ := stillIn
  contradiction

theorem stillIn_visited (same : visit.page = page) (kept : visit.evicted ≠ some page)
    (wasIn : visit.missed = false → StillIn history page) : StillIn (visit :: history) page := by
  refine ⟨⟨visit, List.mem_cons_self, same⟩, ?_⟩
  cases missed : visit.missed with
  | true =>
      rw [sinceLastMiss_loads (Visit.loads_iff.mpr ⟨same, missed⟩)]
      intro other member
      rw [List.mem_singleton.mp member]
      exact kept
  | false =>
      rw [sinceLastMiss_other (by simp [Visit.loads, missed])]
      intro other member
      rcases List.mem_cons.mp member with rfl | earlier
      · exact kept
      · exact (wasIn missed).2 other earlier

theorem stillIn_other (apart : visit.page ≠ page) :
    StillIn (visit :: history) page ↔ StillIn history page ∧ visit.evicted ≠ some page := by
  have other : visit.loads page = false := by simp [Visit.loads, apart]
  simp only [StillIn, sinceLastMiss_other other, List.mem_cons]
  constructor
  · intro stillIn
    obtain ⟨⟨found, member, same⟩, kept⟩ := stillIn
    rcases member with rfl | earlier
    · exact absurd same apart
    · exact ⟨⟨⟨found, earlier, same⟩, fun next member => kept next (.inr member)⟩,
        kept visit (.inl rfl)⟩
  · intro both
    obtain ⟨⟨⟨found, earlier, same⟩, kept⟩, notOut⟩ := both
    refine ⟨⟨found, .inr earlier, same⟩, ?_⟩
    intro next member
    rcases member with rfl | earlier
    · exact notOut
    · exact kept next earlier

theorem unwrittenCopy_missed (same : visit.page = page) (missed : visit.missed = true) :
    UnwrittenCopy (visit :: history) page ↔ visit.fromSwap = true ∧ visit.write = false := by
  have loads := Visit.loads_iff.mpr ⟨same, missed⟩
  simp only [UnwrittenCopy, lastMiss_loads loads, sinceLastMiss_loads loads, List.mem_singleton,
    forall_eq, Option.some.injEq, exists_eq_left', same, true_implies]

theorem unwrittenCopy_hit (same : visit.page = page) (hit : visit.missed = false) :
    UnwrittenCopy (visit :: history) page ↔ UnwrittenCopy history page ∧ visit.write = false := by
  have other : visit.loads page = false := by simp [Visit.loads, hit]
  simp only [UnwrittenCopy, lastMiss_other other, sinceLastMiss_other other, List.mem_cons,
    forall_eq_or_imp, same, true_implies]
  constructor
  · intro both
    exact ⟨⟨both.1, both.2.2⟩, both.2.1⟩
  · intro both
    exact ⟨both.1.1, both.2, both.1.2⟩

theorem unwrittenCopy_other (apart : visit.page ≠ page) :
    UnwrittenCopy (visit :: history) page ↔ UnwrittenCopy history page := by
  have other : visit.loads page = false := by simp [Visit.loads, apart]
  simp only [UnwrittenCopy, lastMiss_other other, sinceLastMiss_other other, List.mem_cons,
    forall_eq_or_imp, apart, false_implies, true_and]

end Visits

end MemSim
