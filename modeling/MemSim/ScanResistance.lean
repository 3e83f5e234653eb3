import MemSim.MissBounds
import MemSim.ReferenceRuns

/-!
# Scans and the S2Q policy

Pages that are accessed only once go through A1.  As long as A1 has more than a tenth
of the frames, they take the place of each other, and the pages of Am stay in memory,
however many pages there are.
-/

set_option autoImplicit false

namespace MemSim

open Exec

/-! ## A scan -/

section Scan
variable {size : Nat} {begun paging : Paging TwoQueue} {page : Nat} {seen cold : Finset Nat}

def Paging.InAm (begun : Paging TwoQueue) (page : Nat) : Prop :=
  ∃ frame < begun.loaded, begun.page frame = some page ∧ begun.own.In .am frame

/-- The frames of Am keep their pages, and the others are in A1. -/
structure Paging.Scanned (size : Nat) (begun paging : Paging TwoQueue) (seen : Finset Nat) :
    Prop where
  loaded_le : paging.loaded ≤ size
  grown : begun.loaded ≤ paging.loaded
  am : ∀ frame < begun.loaded, begun.own.In .am frame →
    paging.page frame = begun.page frame ∧ paging.own.In .am frame
  a1 : ∀ frame < paging.loaded, ¬ (frame < begun.loaded ∧ begun.own.In .am frame) →
    paging.own.In .a1 frame ∧
      (frame < begun.loaded ∧ paging.page frame = begun.page frame ∨
        ∃ page ∈ seen, paging.page frame = some page)

/-- What the pages of a scan are: those of Am, and others that are new and come once. -/
structure Paging.Scan (begun : Paging TwoQueue) (seen : Finset Nat) (pages : List Nat) :
    Prop where
  absent : ∀ page ∈ pages, ¬ begun.InAm page → begun.find page = none ∧ page ∉ seen
  once : pages.Pairwise fun page later => page = later → begun.InAm page

theorem TwoQueue.In.am_of_more {before after : TwoQueue} {frame : Nat}
    (here : before.In .am frame) (more : before.references frame ≤ after.references frame) :
    after.In .am frame := by
  simp only [TwoQueue.In] at here ⊢
  omega

theorem Paging.Scanned.victim (scanned : begun.Scanned size paging seen)
    (full : paging.loaded = size) (many : size / 10 < cold.card)
    (isCold : ∀ frame ∈ cold, frame < begun.loaded ∧ begun.own.In .a1 frame) :
    ∃ frame < size, paging.own.In .a1 frame ∧
      TwoQueue.strategy.victim size paging.own = (frame, paging.own) := by
  have inA1 : ∀ frame ∈ cold, frame ∈ paging.own.members size .a1 := by
    intro frame member
    obtain ⟨inUse, here⟩ := isCold frame member
    have bound := Nat.lt_of_lt_of_le inUse scanned.grown
    refine TwoQueue.mem_members.mpr ⟨full ▸ bound, (scanned.a1 frame bound fun both => ?_).1⟩
    cases here.unique both.2
  have enough : cold.card ≤ (paging.own.members size .a1).length := by
    rw [← List.toFinset_card_of_nodup TwoQueue.nodup_members]
    exact Finset.card_le_card fun frame member => List.mem_toFinset.mpr (inA1 frame member)
  have chosen : paging.own.chosen size = .a1 := if_pos (Nat.lt_of_lt_of_le many enough)
  cases found : paging.own.victim size with
  | none =>
      rw [TwoQueue.victim, chosen, List.argmin_eq_none] at found
      rw [found] at enough
      exact absurd many (Nat.not_lt.mpr (Nat.le_trans enough (Nat.zero_le _)))
  | some frame =>
      have isLeast := found
      rw [TwoQueue.victim, chosen] at isLeast
      obtain ⟨bound, here⟩ := TwoQueue.mem_members.mp
        (List.argmin_mem (Option.mem_def.mpr isLeast))
      refine ⟨frame, bound, here, ?_⟩
      simp only [TwoQueue.strategy, found, Option.getD_some]

theorem Paging.Scanned.hit (scanned : begun.Scanned size paging seen)
    (occupied : begun.Occupied size) (inAm : begun.InAm page)
    (fresh : ∀ page ∈ seen, ¬ begun.InAm page) {frame : Nat}
    (inUse : frame < paging.loaded) (holds : paging.page frame = some page) :
    begun.Scanned size
      { paging with own := TwoQueue.strategy.hit paging.own frame } seen := by
  have isAm : frame < begun.loaded ∧ begun.own.In .am frame := by
    by_contra notAm
    obtain ⟨-, old | ⟨other, here, holds'⟩⟩ := scanned.a1 frame inUse notAm
    · obtain ⟨first, firstUsed, firstHolds, firstAm⟩ := inAm
      have same := occupied.unique frame old.1 first firstUsed page (old.2 ▸ holds) firstHolds
      exact notAm ⟨old.1, same ▸ firstAm⟩
    · rw [holds] at holds'
      exact fresh other here (Option.some.inj holds' ▸ inAm)
  have more : ∀ other, paging.own.references other ≤
      (TwoQueue.strategy.hit paging.own frame).references other := by
    intro other
    by_cases same : other = frame
    · simp [TwoQueue.strategy, same]
    · simp [TwoQueue.strategy, same]
  refine ⟨scanned.loaded_le, scanned.grown, ?_, ?_⟩
  · intro other otherUsed otherAm
    obtain ⟨samePage, here⟩ := scanned.am other otherUsed otherAm
    exact ⟨samePage, here.am_of_more (more other)⟩
  · intro other otherUsed notAm
    have apart : other ≠ frame := by
      rintro rfl
      exact notAm isAm
    obtain ⟨here, from'⟩ := scanned.a1 other otherUsed notAm
    refine ⟨?_, from'⟩
    simpa [TwoQueue.In, TwoQueue.strategy, apart] using here

theorem Paging.Scanned.put (scanned : begun.Scanned size paging seen) {frame loaded : Nat}
    (fits : loaded ≤ size)
    (next : frame < paging.loaded ∧ loaded = paging.loaded ∨
      frame = paging.loaded ∧ loaded = paging.loaded + 1)
    (notAm : ¬ (frame < begun.loaded ∧ begun.own.In .am frame)) :
    begun.Scanned size
      ⟨paging.put frame page, loaded, TwoQueue.strategy.load paging.own frame⟩
      (insert page seen) := by
  have grown := scanned.grown
  refine ⟨fits, by simp only; omega, ?_, ?_⟩
  · intro other otherUsed otherAm
    have apart : other ≠ frame := by
      rintro rfl
      exact notAm ⟨otherUsed, otherAm⟩
    obtain ⟨samePage, here⟩ := scanned.am other otherUsed otherAm
    refine ⟨(Function.update_of_ne apart _ _).trans samePage, ?_⟩
    simpa [TwoQueue.In, TwoQueue.strategy, apart] using here
  · intro other otherUsed otherNotAm
    by_cases same : other = frame
    · refine ⟨by simp [TwoQueue.In, TwoQueue.strategy, same],
        .inr ⟨page, Finset.mem_insert_self _ _, ?_⟩⟩
      rw [same]
      exact Function.update_self _ _ _
    · have before : other < paging.loaded := by
        simp only at otherUsed
        omega
      obtain ⟨here, from'⟩ := scanned.a1 other before otherNotAm
      refine ⟨by simpa [TwoQueue.In, TwoQueue.strategy, same] using here, ?_⟩
      have kept : paging.put frame page other = paging.page other := Function.update_of_ne same _ _
      rcases from' with old | ⟨seenPage, member, holds⟩
      · exact .inl ⟨old.1, kept.trans old.2⟩
      · exact .inr ⟨seenPage, Finset.mem_insert_of_mem member, kept.trans holds⟩

theorem Paging.Scanned.access (scanned : begun.Scanned size paging seen)
    (occupied : begun.Occupied size) (many : size / 10 < cold.card)
    (isCold : ∀ frame ∈ cold, frame < begun.loaded ∧ begun.own.In .a1 frame)
    (fresh : ∀ page ∈ seen, ¬ begun.InAm page)
    (absent : ¬ begun.InAm page → begun.find page = none ∧ page ∉ seen) :
    ∃ seen', begun.Scanned size (paging.access TwoQueue.strategy size page).2 seen' ∧
      (begun.InAm page ∧ seen' = seen ∨ ¬ begun.InAm page ∧ seen' = insert page seen) := by
  by_cases inAm : begun.InAm page
  · refine ⟨seen, ?_, .inl ⟨inAm, rfl⟩⟩
    cases found : paging.find page with
    | some frame =>
        have inUse := List.mem_range.mp (List.mem_of_find?_eq_some found)
        have holds : paging.page frame = some page := by simpa using List.find?_some found
        rw [access_of_hit found]
        exact scanned.hit occupied inAm fresh inUse holds
    | none =>
        obtain ⟨frame, inUse, holds, isAm⟩ := inAm
        have here := (scanned.am frame inUse isAm).1.trans holds
        exact absurd here (find_eq_none_iff.mp found frame (Nat.lt_of_lt_of_le inUse scanned.grown))
  · refine ⟨insert page seen, ?_, .inr ⟨inAm, rfl⟩⟩
    obtain ⟨notBegun, notSeen⟩ := absent inAm
    have missing : paging.find page = none := by
      apply find_eq_none
      intro frame inUse holds
      by_cases isAm : frame < begun.loaded ∧ begun.own.In .am frame
      · have samePage := (scanned.am frame isAm.1 isAm.2).1
        exact inAm ⟨frame, isAm.1, samePage.symm.trans holds, isAm.2⟩
      · obtain ⟨-, old | ⟨other, here, holds'⟩⟩ := scanned.a1 frame inUse isAm
        · exact find_eq_none_iff.mp notBegun frame old.1 (old.2.symm.trans holds)
        · rw [holds] at holds'
          exact notSeen (Option.some.inj holds' ▸ here)
    rcases Nat.lt_or_ge paging.loaded size with room | full
    · rw [access_of_fill missing room]
      have grown := scanned.grown
      exact scanned.put room (.inr ⟨rfl, rfl⟩) fun both => by omega
    · have all : paging.loaded = size := Nat.le_antisymm scanned.loaded_le full
      obtain ⟨frame, bound, inA1, victim⟩ := scanned.victim all many isCold
      rw [access_of_full missing all, victim]
      refine scanned.put scanned.loaded_le (.inl ⟨all ▸ bound, rfl⟩) fun both => ?_
      cases inA1.unique (scanned.am frame both.1 both.2).2

theorem Paging.Scanned.after (occupied : begun.Occupied size) (many : size / 10 < cold.card)
    (isCold : ∀ frame ∈ cold, frame < begun.loaded ∧ begun.own.In .a1 frame) (pages : List Nat)
    (scanned : begun.Scanned size paging seen) (fresh : ∀ page ∈ seen, ¬ begun.InAm page)
    (scan : begun.Scan seen pages) :
    ∃ seen', begun.Scanned size (paging.after TwoQueue.strategy size pages) seen' := by
  induction pages generalizing paging seen with
  | nil => exact ⟨seen, scanned⟩
  | cons page rest ih =>
      obtain ⟨first, once⟩ := List.pairwise_cons.mp scan.once
      obtain ⟨seen', scanned', which⟩ := scanned.access occupied many isCold fresh
        (scan.absent page List.mem_cons_self)
      have later : ∀ other ∈ rest, ¬ begun.InAm other → begun.find other = none ∧ other ∉ seen :=
        fun other member => scan.absent other (List.mem_cons_of_mem _ member)
      rcases which with ⟨-, rfl⟩ | ⟨notAm, rfl⟩
      · exact ih scanned' fresh ⟨later, once⟩
      · refine ih scanned' ?_ ⟨?_, once⟩
        · intro other member
          rcases Finset.mem_insert.mp member with rfl | old
          · exact notAm
          · exact fresh other old
        · intro other member otherNotAm
          obtain ⟨notBegun, notSeen⟩ := later other member otherNotAm
          refine ⟨notBegun, fun inSeen => ?_⟩
          rcases Finset.mem_insert.mp inSeen with rfl | old
          · exact notAm (first other member rfl)
          · exact notSeen old

end Scan

/-! ## The two queues in a state -/

def World.Referenced {σ : Type} (world : World σ) (page : Nat) : Prop :=
  ∃ root pte entry, world.pageTable = some root ∧ world.heap.leafAt root page = some pte ∧
    world.heap.pte pte = some entry ∧ entry.valid = true ∧ entry.reference = true

section Queues
variable {env : Env} {root : Addr} {paging : Paging TwoQueue} {world : World policyS2Q.State}
  (simulates : paging.Simulates env policyS2Q root (S2QSettled env.memsize) world)
  (coherent : world.Coherent env root none)
include simulates

theorem Paging.Simulates.inA1_of_bit {frame : Nat} (bound : frame < env.memsize)
    (clear : world.policyState.Bit frame false) :
    frame < paging.loaded ∧ paging.own.In .a1 frame := by
  have inUse : frame < paging.loaded := by
    apply Nat.lt_of_not_le
    intro later
    obtain ⟨addr, entry, owner, -⟩ := clear
    have owner' : (world.frames frame).pte = some addr := owner
    rw [simulates.residents.free frame later bound] at owner'
    contradiction
  obtain ⟨frames, linked⟩ := simulates.settled
  have notAm : false = decide (paging.own.In .am frame) := clear.unique (linked.bits frame inUse)
  obtain ⟨queue, here⟩ := TwoQueue.in_of_referenced (linked.referenced frame inUse)
  cases queue with
  | a1 => exact ⟨inUse, here⟩
  | am => exact absurd here (of_decide_eq_false notAm.symm)

theorem Paging.Simulates.bit_of_inA1 {frame : Nat} (inUse : frame < paging.loaded)
    (here : paging.own.In .a1 frame) : world.policyState.Bit frame false := by
  obtain ⟨frames, linked⟩ := simulates.settled
  have bits := linked.bits frame inUse
  have notAm : ¬ paging.own.In .am frame := fun inAm => by cases here.unique inAm
  rwa [decide_eq_false notAm] at bits

include coherent

theorem Paging.Simulates.inAm_iff (page : Nat) : paging.InAm page ↔ world.Referenced page := by
  obtain ⟨frames, linked⟩ := simulates.settled
  constructor
  · intro inAm
    obtain ⟨frame, inUse, holds, isAm⟩ := inAm
    obtain ⟨page', pte, holds', owner, leaf⟩ := simulates.residents.used frame inUse
    rw [holds] at holds'
    cases holds'
    have bound := Nat.lt_of_lt_of_le inUse simulates.residents.loaded_le
    obtain ⟨addr, entry, owner', here, valid, -⟩ := coherent.used bound (by rw [owner]) (by simp)
    rw [owner] at owner'
    cases owner'
    obtain ⟨addr', entry', owner'', here', -, bit⟩ := linked.bits frame inUse
    have ownerState : (world.frames frame).pte = some addr' := owner''
    rw [owner] at ownerState
    cases ownerState
    cases Option.some.inj (here.symm.trans here')
    exact ⟨root, pte, entry, coherent.pageTable, leaf, here, valid, by
      rw [bit, decide_eq_true isAm]⟩
  · intro referenced
    obtain ⟨root', pte, entry, isRoot, leaf, here, valid, isSet⟩ := referenced
    rw [coherent.pageTable] at isRoot
    cases isRoot
    obtain ⟨inUse, holds, -⟩ := simulates.residents.of_valid coherent leaf here valid
    have owner := (coherent.owner here valid).2
    have held : world.policyState.Bit entry.frameNumber true :=
      ⟨pte, entry, by simp only [World.policyState, owner], here, rfl, isSet⟩
    have isAm : true = decide (paging.own.In .am entry.frameNumber) :=
      held.unique (linked.bits _ inUse)
    exact ⟨entry.frameNumber, inUse, holds, of_decide_eq_true isAm.symm⟩

theorem Paging.Simulates.occupied : paging.Occupied env.memsize where
  loaded_le := simulates.residents.loaded_le
  used := by
    intro frame inUse
    obtain ⟨page, -, holds, -⟩ := simulates.residents.used frame inUse
    exact ⟨page, holds⟩
  unique := by
    intro frame inUse other otherInUse page holds holds'
    obtain ⟨page', pte, here, owner, leaf⟩ := simulates.residents.used frame inUse
    rw [holds] at here
    cases here
    have bound := Nat.lt_of_lt_of_le inUse simulates.residents.loaded_le
    obtain ⟨addr, entry, owner', there, valid, -⟩ := coherent.used bound (by rw [owner]) (by simp)
    rw [owner] at owner'
    cases owner'
    obtain ⟨-, -, unique⟩ := simulates.residents.of_valid coherent leaf there valid
    rw [unique frame inUse holds, unique other otherInUse holds']

end Queues

/-! ## S2Q -/

section S2Q
variable {β : Type} {env : Env} {swapSize : Nat} {step : MemAccess → Exec (World policyS2Q.State) β}
  {world before after : World policyS2Q.State} {front window : List MemAccess}
  {values values' : List β}

theorem Launched.s2q_follows (launched : Launched env policyS2Q swapSize world)
    (executes : Executes env policyS2Q step)
    (run : (runAll step front).run world = .ok values before) :
    ∃ root, Paging.Simulates env policyS2Q root (S2QSettled env.memsize)
        (referenceState TwoQueue.strategy env.memsize front) before ∧
      before.Coherent env root none := by
  obtain ⟨root, started⟩ := launched.started
  exact ⟨root, executes.run_follows (s2q_implements env launched.positive) front
    (s2q_starts (fresh_headsMapped policyS2Q) started) started.coherent run⟩

/-- While more than a tenth of the frames are in A1, a scan over pages that are accessed
once does not push a page out of Am. -/
theorem s2q_scan_resistant (executes : Executes env policyS2Q step)
    (launched : Launched env policyS2Q swapSize world)
    (frontRun : (runAll step front).run world = .ok values before)
    (windowRun : (runAll step window).run before = .ok values' after) {cold : Finset Nat}
    (many : env.memsize / 10 < cold.card)
    (isCold : ∀ frame ∈ cold, frame < env.memsize ∧ before.policyState.Bit frame false)
    (absent : ∀ access ∈ window, ¬ before.Referenced access.page →
      ¬ before.InMemory access.page)
    (once : window.Pairwise fun access later => access.page = later.page →
      before.Referenced access.page) :
    ∀ page, before.Referenced page → after.Referenced page := by
  obtain ⟨root, simulates, coherent⟩ := launched.s2q_follows executes frontRun
  have implements := s2q_implements env launched.positive
  obtain ⟨simulates', coherent'⟩ :=
    executes.run_follows implements window simulates coherent windowRun
  generalize referenceState TwoQueue.strategy env.memsize front = begun at simulates simulates'
  have occupied := simulates.occupied coherent
  have start : begun.Scanned env.memsize begun ∅ := by
    refine ⟨occupied.loaded_le, Nat.le_refl _, fun _ _ here => ⟨rfl, here⟩, ?_⟩
    intro frame inUse notAm
    obtain ⟨frames, linked⟩ := simulates.settled
    obtain ⟨queue, here⟩ := TwoQueue.in_of_referenced (linked.referenced frame inUse)
    cases queue with
    | a1 => exact ⟨here, .inl ⟨inUse, rfl⟩⟩
    | am => exact absurd ⟨inUse, here⟩ notAm
  have scan : begun.Scan ∅ (window.map MemAccess.page) := by
    constructor
    · intro page member notAm
      obtain ⟨access, inWindow, rfl⟩ := List.mem_map.mp member
      refine ⟨?_, Finset.notMem_empty _⟩
      rw [simulates.inAm_iff coherent] at notAm
      have notInMemory := absent access inWindow notAm
      rw [inMemory_iff coherent] at notInMemory
      exact Option.isNone_iff_eq_none.mp ((simulates.find_isNone coherent _).mpr notInMemory)
    · refine List.pairwise_map.mpr (once.imp fun first same => ?_)
      exact (simulates.inAm_iff coherent _).mpr (first same)
  obtain ⟨seen, scanned⟩ := Paging.Scanned.after occupied many
    (fun frame member => simulates.inA1_of_bit (isCold frame member).1 (isCold frame member).2)
    (window.map MemAccess.page) start (fun _ none' => absurd none' (Finset.notMem_empty _)) scan
  intro page referenced
  obtain ⟨frame, inUse, holds, isAm⟩ := (simulates.inAm_iff coherent page).mpr referenced
  obtain ⟨samePage, stays⟩ := scanned.am frame inUse isAm
  exact (simulates'.inAm_iff coherent' page).mp
    ⟨frame, Nat.lt_of_lt_of_le inUse scanned.grown, samePage.trans holds, stays⟩

/-- Page 0 is accessed twice, page 1 once, and then two more pages once. -/
def fourPages : List MemAccess :=
  [⟨.store, 0, 1⟩, ⟨.load, 0, 1⟩, ⟨.load, 4096, 0⟩, ⟨.load, 8192, 0⟩, ⟨.store, 12288, 2⟩]

theorem s2q_scan_resistant_fourPages : ∃ world values values' before after,
    Launched (Env.ideal 2) policyS2Q 4 world ∧
    (runAll (executeMemInstruction (Env.ideal 2) policyS2Q) (fourPages.take 3)).run world =
      .ok values before ∧
    (runAll (executeMemInstruction (Env.ideal 2) policyS2Q) (fourPages.drop 3)).run before =
      .ok values' after ∧
    before.Referenced 0 ∧ after.Referenced 0 := by
  have member : policyS2Q ∈ policies fun _ => 0 := by simp [policies]
  have grants : grantsRun (Env.ideal 2) policyS2Q 4
      (executeMemInstruction (Env.ideal 2) policyS2Q) fourPages = true := by decide +kernel
  obtain ⟨world, values, after, launched, run⟩ :=
    exists_returned member (by decide) (by decide) (by decide) (by decide) (by decide) (by decide)
      (by decide) grants
  have split : fourPages = fourPages.take 3 ++ fourPages.drop 3 := by decide
  rw [split] at run
  obtain ⟨first, before, second, frontRun, windowRun, -⟩ := runAll_append_ok _ run
  have executes := executes_executeMemInstruction (Env.ideal 2) policyS2Q
  obtain ⟨root, simulates, coherent⟩ := launched.s2q_follows executes frontRun
  have referenced : before.Referenced 0 :=
    (simulates.inAm_iff coherent 0).mp ⟨0, by decide, by decide, by decide⟩
  have clear : before.policyState.Bit 1 false :=
    simulates.bit_of_inA1 (by decide) (by decide)
  have notInMemory : ∀ access ∈ fourPages.drop 3, ¬ before.InMemory access.page := by
    intro access inWindow
    rw [inMemory_iff coherent, ← simulates.find_isNone coherent]
    revert access
    decide
  refine ⟨world, first, second, before, after, launched, frontRun, windowRun, referenced, ?_⟩
  apply s2q_scan_resistant executes launched frontRun windowRun
    (by decide : 2 / 10 < Finset.card {1})
  · intro frame isOne
    rw [Finset.mem_singleton.mp isOne]
    exact ⟨by decide, clear⟩
  · exact fun access inWindow _ => notInMemory access inWindow
  · exact List.Pairwise.imp (fun apart same => absurd same apart)
      (by decide : (fourPages.drop 3).Pairwise fun access later => access.page ≠ later.page)
  · exact referenced

end S2Q

end MemSim
