import MemSim.MissBounds

/-!
# How often pages are written back

A page is dirty when it is loaded for the first time, and after that only writes make
it dirty again.  The dirty pages in memory are what may still have to be written back:
with each of them that is evicted there is one less.
-/

set_option autoImplicit false

namespace MemSim

open Exec

/-! ## Dirty pages -/

def PageStore.dirtyPages (store : PageStore) (seen : Finset Nat) : Finset Nat :=
  seen.filter fun page => (store.entry page).any fun entry => entry.valid && entry.dirty

/-- The pages seen have entries, and those outside memory have a copy in swap. -/
structure PageStore.Seen (store : PageStore) (seen : Finset Nat) : Prop where
  known : ∀ page entry, store.entry page = some entry → page ∈ seen
  unknown : ∀ page, store.entry page = none → page ∉ seen
  outside : ∀ page entry, store.entry page = some entry → entry.valid = false →
    entry.onSwap = true ∧ entry.dirty = false

section Dirty
variable {store after : PageStore} {seen : Finset Nat} {page : Nat} {entry old : PTE}
  {write : Bool}

theorem PageStore.mem_dirtyPages : page ∈ store.dirtyPages seen ↔ page ∈ seen ∧
    ∃ entry, store.entry page = some entry ∧ entry.valid = true ∧ entry.dirty = true := by
  rw [dirtyPages, Finset.mem_filter, Option.any_eq_true]
  simp only [Bool.and_eq_true]

theorem PageStore.dirtyPages_congr (same : after.entry = store.entry) :
    after.dirtyPages seen = store.dirtyPages seen := by
  rw [dirtyPages, dirtyPages, same]

theorem PageStore.Seen.congr (holds : store.Seen seen) (same : after.entry = store.entry) :
    after.Seen seen := by
  constructor
  · rw [same]
    exact holds.known
  · rw [same]
    exact holds.unknown
  · rw [same]
    exact holds.outside

theorem PageStore.dirtyPages_set : (store.set page entry).dirtyPages (insert page seen) ⊆
    insert page (store.dirtyPages seen) := by
  intro other member
  obtain ⟨inSeen, found, here, valid, dirty⟩ := mem_dirtyPages.mp member
  rcases set_eq_some.mp here with ⟨same, -⟩ | ⟨apart, there⟩
  · exact Finset.mem_insert.mpr (.inl same)
  · refine Finset.mem_insert_of_mem (mem_dirtyPages.mpr ⟨?_, found, there, valid, dirty⟩)
    exact (Finset.mem_insert.mp inSeen).resolve_left apart

theorem PageStore.dirtyPages_set_clean (clean : entry.dirty = false) :
    (store.set page entry).dirtyPages (insert page seen) ⊆ store.dirtyPages seen := by
  intro other member
  obtain ⟨-, found, here, -, dirty⟩ := mem_dirtyPages.mp member
  rcases Finset.mem_insert.mp (dirtyPages_set member) with rfl | before
  · rw [set_same] at here
    cases here
    rw [clean] at dirty
    contradiction
  · exact before

theorem PageStore.Seen.set (holds : store.Seen seen) (fresh : entry.valid = false →
    entry.onSwap = true ∧ entry.dirty = false) :
    (store.set page entry).Seen (insert page seen) where
  known := by
    intro other found here
    rcases set_eq_some.mp here with ⟨rfl, -⟩ | ⟨-, there⟩
    · exact Finset.mem_insert_self _ _
    · exact Finset.mem_insert_of_mem (holds.known other found there)
  unknown := by
    intro other absent inSeen
    rcases Finset.mem_insert.mp inSeen with rfl | before
    · rw [set_same] at absent
      contradiction
    · by_cases same : other = page
      · rw [same, set_same] at absent
        contradiction
      · rw [set_other same] at absent
        exact holds.unknown other absent before
  outside := by
    intro other found here invalid
    rcases set_eq_some.mp here with ⟨-, rfl⟩ | ⟨-, there⟩
    · exact fresh invalid
    · exact holds.outside other found there invalid

theorem PageStore.Seen.hit (holds : store.Seen seen) (here : store.entry page = some entry)
    (valid : entry.valid = true) :
    ((store.set page (entry.accessed write)).dirtyPages (insert page seen)).card ≤
      (store.dirtyPages seen).card + write.toNat := by
  cases write with
  | true => exact (Finset.card_le_card dirtyPages_set).trans (Finset.card_insert_le _ _)
  | false =>
      cases dirty : entry.dirty with
      | false => exact Finset.card_le_card (dirtyPages_set_clean dirty)
      | true =>
          have member : page ∈ store.dirtyPages seen :=
            mem_dirtyPages.mpr ⟨holds.known page entry here, entry, here, valid, dirty⟩
          have atMost := Finset.card_le_card
            (@dirtyPages_set store seen page (entry.accessed false))
          rwa [Finset.insert_eq_self.mpr member] at atMost

theorem PageStore.Seen.load (holds : store.Seen seen) (missing : store.Missing page entry)
    (frame : Nat) :
    ((store.set page ((entry.loaded frame).accessed write)).dirtyPages (insert page seen)).card +
        seen.card ≤
      (store.dirtyPages seen).card + write.toNat + (insert page seen).card := by
  have one := (Finset.card_le_card (@dirtyPages_set store seen page
    ((entry.loaded frame).accessed write))).trans (Finset.card_insert_le _ _)
  have grows := Finset.card_le_card (Finset.subset_insert page seen)
  rcases missing with ⟨here, invalid⟩ | ⟨absent, -⟩
  · obtain ⟨onSwap, clean⟩ := holds.outside page entry here invalid
    cases write with
    | true =>
        rw [Bool.toNat_true]
        omega
    | false =>
        have stays : ((entry.loaded frame).accessed false).dirty = false := by
          simp [PTE.accessed, PTE.loaded, onSwap, clean]
        have none' := Finset.card_le_card
          (@dirtyPages_set_clean store seen page ((entry.loaded frame).accessed false) stays)
        omega
  · have counted := Finset.card_insert_of_notMem (holds.unknown page absent)
    omega

theorem PageStore.Seen.pageOut (holds : store.Seen seen) (here : store.entry page = some old)
    (valid : old.valid = true) (result : Int) :
    (store.set page (old.pagedOut result)).Seen seen ∧
      ((store.set page (old.pagedOut result)).dirtyPages seen).card + old.dirty.toNat ≤
        (store.dirtyPages seen).card := by
  have inSeen : insert page seen = seen := Finset.insert_eq_self.mpr (holds.known page old here)
  have seen' := @PageStore.Seen.set store seen page (old.pagedOut result) holds fun _ => ⟨rfl, rfl⟩
  have fewer := @dirtyPages_set_clean store seen page (old.pagedOut result) rfl
  rw [inSeen] at seen' fewer
  refine ⟨seen', ?_⟩
  cases dirty : old.dirty with
  | false => exact Finset.card_le_card fewer
  | true =>
      have member : page ∈ store.dirtyPages seen :=
        mem_dirtyPages.mpr ⟨holds.known page old here, old, here, valid, dirty⟩
      have erased : (store.set page (old.pagedOut result)).dirtyPages seen ⊆
          (store.dirtyPages seen).erase page := by
        intro other inAfter
        refine Finset.mem_erase.mpr ⟨?_, fewer inAfter⟩
        rintro rfl
        obtain ⟨-, found, there, valid', -⟩ := mem_dirtyPages.mp inAfter
        rw [set_same] at there
        cases there
        contradiction
      have atMost := Finset.card_le_card erased
      rw [Finset.card_erase_of_mem member] at atMost
      have positive := Finset.card_pos.mpr ⟨page, member⟩
      rw [Bool.toNat_true]
      omega

end Dirty

/-! ## Runs -/

/-- The evictions of dirty pages so far, and those that may follow, are paid for by
writes and by new pages. -/
structure WrittenBack {σ : Type} (root : Addr) (writes : Nat) (seen : Finset Nat)
    (world : World σ) : Prop where
  entries : (world.pageStore root).Seen seen
  paid : world.stats.evictDirtyCount + ((world.pageStore root).dirtyPages seen).card ≤
    writes + seen.card

section Access
variable {env : Env} {policy : Policy} {root : Addr} {access : MemAccess}
  {world after : World policy.State} {writes : Nat} {seen : Finset Nat}

theorem WrittenBack.step (holds : WrittenBack root writes seen world)
    (accounted : Accounted env root access world after) :
    WrittenBack root (writes + access.type.isWrite.toNat) (insert access.page seen) after := by
  have paid := holds.paid
  cases accounted with
  | @hit entry here valid entries stats frames =>
      have more := @PageStore.Seen.hit _ _ _ _ access.type.isWrite holds.entries here valid
      have grows := Finset.card_le_card (Finset.subset_insert access.page seen)
      refine ⟨(holds.entries.set fun invalid => ?_).congr entries, ?_⟩
      · rw [PTE.accessed_valid, valid] at invalid
        contradiction
      · have same : after.stats.evictDirtyCount = world.stats.evictDirtyCount := by
          rw [stats]
          rfl
        rw [PageStore.dirtyPages_congr entries, same]
        omega
  | @fill entry frame owner missing found entries stats frames used =>
      have more := @PageStore.Seen.load _ _ _ _ access.type.isWrite holds.entries missing frame
      refine ⟨(holds.entries.set fun invalid => by contradiction).congr entries, ?_⟩
      have same : after.stats.evictDirtyCount = world.stats.evictDirtyCount := by
        rw [stats]
        rfl
      rw [PageStore.dirtyPages_congr entries, same]
      omega
  | @replace entry old victim frame result owner missing full here valid apart entries stats frames
      used =>
      obtain ⟨seenOut, out⟩ := holds.entries.pageOut here valid result
      have missing' : ((world.pageStore root).set victim (old.pagedOut result)).Missing access.page
          entry := by
        rw [PageStore.Missing, PageStore.set_other (Ne.symm apart)]
        exact missing
      have more := @PageStore.Seen.load _ _ _ _ access.type.isWrite seenOut missing' frame
      refine ⟨(seenOut.set fun invalid => by contradiction).congr entries, ?_⟩
      have counted : after.stats.evictDirtyCount ≤
          world.stats.evictDirtyCount + old.dirty.toNat := by
        rw [stats]
        cases old.dirty with
        | false => exact Nat.le_refl _
        | true => exact increment32_le _
      rw [PageStore.dirtyPages_congr entries]
      omega

end Access

section Runs
variable {β : Type} {env : Env} {policy : Policy}
  {step : MemAccess → Exec (World policy.State) β} (executes : Executes env policy step)
include executes

end Runs

end MemSim
