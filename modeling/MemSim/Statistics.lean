import MemSim.FlatMemory
import MemSim.VisitHistory

/-!
# The statistics

What the counters of `CSC369_GLOBAL_STATS` count, in terms of the visits to the
pages: hits and misses, and evictions of clean and of dirty pages.
-/

set_option autoImplicit false

namespace MemSim

open Exec

/-! ## How a translation is accounted for -/

section Accounted
variable {env : Env} {policy : Policy} {root : Addr} {access : MemAccess}
  {world after : World policy.State} {frame : Nat}

/-- The entries after a translation, with the counters and the frames in use. -/
inductive Accounted {σ : Type} (env : Env) (root : Addr) (access : MemAccess)
    (before after : World σ) : Prop where
  | hit {entry : PTE} :
      (before.pageStore root).entry access.page = some entry → entry.valid = true →
      (after.pageStore root).entry = ((before.pageStore root).set access.page
        (entry.accessed access.type.isWrite)).entry →
      after.stats = countRef (countHit before.stats) → after.frames = before.frames →
      Accounted env root access before after
  | fill {entry : PTE} {frame : Nat} {owner : Frame} :
      (before.pageStore root).Missing access.page entry →
      findFreeFrom before.frames 0 env.memsize = some frame →
      (after.pageStore root).entry = ((before.pageStore root).set access.page
        ((entry.loaded frame).accessed access.type.isWrite)).entry →
      after.stats = countRef (countMiss before.stats) →
      after.frames = Function.update before.frames frame owner → owner.free = false →
      Accounted env root access before after
  | replace {entry old : PTE} {victim frame : Nat} {result : Int} {owner : Frame} :
      (before.pageStore root).Missing access.page entry →
      findFreeFrom before.frames 0 env.memsize = none →
      (before.pageStore root).entry victim = some old → old.valid = true → victim ≠ access.page →
      (after.pageStore root).entry = (((before.pageStore root).set victim
        (old.pagedOut result)).set access.page
          ((entry.loaded frame).accessed access.type.isWrite)).entry →
      after.stats = countRef (countEviction old.dirty (countMiss before.stats)) →
      after.frames = Function.update before.frames frame owner → owner.free = false →
      Accounted env root access before after

theorem Translates.accounted (translates : Translates env policy root access world frame after)
    (coherent : world.Coherent env root none) : Accounted env root access world after := by
  cases translates with
  | @hit pte entry leaf here valid =>
      have here' : world.countHit.heap.pte pte = some entry := here
      have counted : world.countHit.heap.Sound (· = root) := coherent.sound
      refine .hit (pageStore_entry leaf here) valid ?_ rfl rfl
      rw [pageStore_afterAccess counted leaf here' access.type.isWrite]
      rfl
  | @miss heap pte _ old entry obtained storage allocated here invalid obtains there same fills =>
      have counted : ((world.setHeap heap).countMiss).Coherent env root none :=
        (coherent.allocated allocated).setStats _
      obtain ⟨vacated, ready, -⟩ := obtains.coherent env counted
      have leaf := (obtains.leafAt env (pageNumber access.virtualAddress)).trans allocated.leaf
      obtain ⟨missing, looked⟩ := pageStore_miss coherent allocated here invalid
      have stored := @pageStore_loaded env policy root frame obtained vacated ready _ pte old entry
        leaf there same storage access.type.isWrite
      cases obtains with
      | free found =>
          refine .fill missing found ?_ rfl rfl rfl
          have again := congrArg PageStore.entry (@PageStore.set_set (world.pageStore root)
            (pageNumber access.virtualAddress) old.eraseReference
            ((old.eraseReference.loaded frame).accessed access.type.isWrite))
          rw [stored, looked]
          exact again
      | @evicted state victimPte victimEntry result victimStorage found evict bound owner victimHere
          valid number pageOut =>
          have only : ((world.setHeap heap).countMiss).policyState.OnlyReference state :=
            keeps_ok (policy.evict_keeps env.memsize) evict
          have sameFrames : state.frames = world.frames := only.frames
          have called := (counted.setPolicyState only).record (.evicted (some frame))
          obtain ⟨victim, present, evicted⟩ :=
            pageStore_afterEviction called (by exact victimHere) valid result victimStorage
          rw [pageStore_called only, looked] at present evicted
          obtain ⟨apart, present⟩ := PageStore.valid_of_set present valid invalid
          refine @Accounted.replace _ env root access _ _ _ _ victim frame result _ missing found
            present valid apart ?_ rfl (congrArg (Function.update · frame _) sameFrames) rfl
          have again := congrArg PageStore.entry (@PageStore.set_set
            ((world.pageStore root).set victim (victimEntry.eraseReference.pagedOut result))
            (pageNumber access.virtualAddress) old.eraseReference
            ((old.eraseReference.loaded frame).accessed access.type.isWrite))
          rw [stored, evicted, PageStore.set_comm apart]
          exact again

theorem Executes.accounted {β : Type} {step : MemAccess → Exec (World policy.State) β}
    (executes : Executes env policy step) (coherent : world.Coherent env root none) {value : β}
    (run : (step access).run world = .ok value after) : Accounted env root access world after := by
  rcases executes access world with
    ⟨fault, last, translated, run'⟩ | ⟨frame, middle, translated, run' | ⟨value', physmem, run'⟩⟩
  · cases run.symm.trans run'
  · cases run.symm.trans run'
  · cases run.symm.trans run'
    obtain ⟨before, state, translates, onRef, rfl⟩ := translate_ok coherent translated
    have only : before.policyState.OnlyReference state :=
      keeps_ok (policy.onRef_keeps env.memsize frame) onRef
    have sameFrames : state.frames = before.frames := only.frames
    have sameEntries : (((before.setPolicyState state).record
        (.referenced frame true)).pageStore root).entry = (before.pageStore root).entry :=
      congrArg PageStore.entry (pageStore_called only _)
    cases translates.accounted coherent with
    | hit here valid entries stats frames =>
        exact .hit here valid (sameEntries.trans entries) stats (sameFrames.trans frames)
    | fill missing found entries stats frames used =>
        exact .fill missing found (sameEntries.trans entries) stats (sameFrames.trans frames) used
    | replace missing found here valid apart entries stats frames used =>
        exact .replace missing found here valid apart (sameEntries.trans entries) stats
          (sameFrames.trans frames) used

end Accounted

/-! ## The ledger -/

section Ledger
variable {history : List Visit} {store after : PageStore} {page frame : Nat} {entry : PTE}
  {write : Bool}

def PageStore.InMemory (store : PageStore) (page : Nat) : Prop :=
  ∃ entry, store.entry page = some entry ∧ entry.valid = true

/-- The entries say what the history says. -/
structure Ledger (history : List Visit) (store : PageStore) : Prop where
  inMemory : ∀ page, store.InMemory page ↔ StillIn history page
  clean : ∀ page entry, store.entry page = some entry → entry.valid = true →
    (entry.dirty = false ↔ UnwrittenCopy history page)
  outside : ∀ page entry, store.entry page = some entry → entry.valid = false →
    entry.onSwap = true ∧ entry.dirty = false

theorem Ledger.hit (ledger : Ledger history store) (here : store.entry page = some entry)
    (valid : entry.valid = true)
    (entries : after.entry = (store.set page (entry.accessed write)).entry) :
    Ledger (⟨page, write, false, false, none⟩ :: history) after where
  inMemory := by
    intro other
    simp only [PageStore.InMemory, entries]
    by_cases same : page = other
    · subst same
      have wasIn : StillIn history page := (ledger.inMemory page).mp ⟨entry, here, valid⟩
      constructor
      · exact fun _ => stillIn_visited rfl (by simp) (fun _ => wasIn)
      · exact fun _ => ⟨_, PageStore.set_same, valid⟩
    · rw [PageStore.set_other (Ne.symm same), stillIn_other same]
      refine (ledger.inMemory other).trans ⟨fun stillIn => ⟨stillIn, by simp⟩, And.left⟩
  clean := by
    intro other found present valid'
    rw [entries] at present
    rcases PageStore.set_eq_some.mp present with ⟨rfl, rfl⟩ | ⟨apart, there⟩
    · rw [unwrittenCopy_hit rfl rfl, ← ledger.clean other entry here valid]
      simp only [PTE.accessed, Bool.or_eq_false_iff]
      exact And.comm
    · rw [unwrittenCopy_other (Ne.symm apart)]
      exact ledger.clean other found there valid'
  outside := by
    intro other found present invalid
    rw [entries] at present
    rcases PageStore.set_eq_some.mp present with ⟨rfl, rfl⟩ | ⟨-, there⟩
    · rw [PTE.accessed_valid, valid] at invalid
      contradiction
    · exact ledger.outside other found there invalid

theorem Ledger.missing_clean (ledger : Ledger history store) (missing : store.Missing page entry)
    (onSwap : entry.onSwap = true) : entry.dirty = false := by
  rcases missing with ⟨here, invalid⟩ | ⟨-, initial⟩
  · exact (ledger.outside page entry here invalid).2
  · rw [initial] at onSwap
    contradiction

theorem Ledger.miss (ledger : Ledger history store) (missing : store.Missing page entry)
    {evicted : Option Nat} (apart : evicted ≠ some page)
    (loaded : after.entry page = some ((entry.loaded frame).accessed write))
    (out : ∀ other, evicted = some other →
      ∃ old result, after.entry other = some (PTE.pagedOut old result))
    (others : ∀ other, other ≠ page → evicted ≠ some other →
      after.entry other = store.entry other) :
    Ledger (⟨page, write, true, entry.onSwap, evicted⟩ :: history) after := by
  refine ⟨?_, ?_, ?_⟩
  · intro other
    by_cases same : page = other
    · subst same
      constructor
      · exact fun _ => stillIn_visited rfl apart (fun hit => by contradiction)
      · exact fun _ => ⟨_, loaded, rfl⟩
    · rw [stillIn_other same]
      by_cases isOut : evicted = some other
      · obtain ⟨old, result, gone⟩ := out other isOut
        constructor
        · intro inMemory
          obtain ⟨found, there, valid⟩ := inMemory
          rw [gone] at there
          cases there
          contradiction
        · exact fun both => absurd isOut both.2
      · have unchanged := others other (Ne.symm same) isOut
        simp only [PageStore.InMemory, unchanged]
        exact (ledger.inMemory other).trans ⟨fun stillIn => ⟨stillIn, isOut⟩, And.left⟩
  · intro other found there valid
    by_cases same : page = other
    · subst same
      rw [loaded] at there
      cases there
      rw [unwrittenCopy_missed rfl rfl]
      have clean := ledger.missing_clean missing
      cases onSwap : entry.onSwap with
      | false => simp [PTE.accessed, PTE.loaded, onSwap]
      | true => simp [PTE.accessed, PTE.loaded, onSwap, clean onSwap]
    · rw [unwrittenCopy_other same]
      by_cases isOut : evicted = some other
      · obtain ⟨old, result, gone⟩ := out other isOut
        rw [gone] at there
        cases there
        contradiction
      · rw [others other (Ne.symm same) isOut] at there
        exact ledger.clean other found there valid
  · intro other found there invalid
    by_cases same : page = other
    · subst same
      rw [loaded] at there
      cases there
      contradiction
    · by_cases isOut : evicted = some other
      · obtain ⟨old, result, gone⟩ := out other isOut
        rw [gone] at there
        cases there
        exact ⟨rfl, rfl⟩
      · rw [others other (Ne.symm same) isOut] at there
        exact ledger.outside other found there invalid

end Ledger

/-! ## The counters -/

section Counters
variable {σ : Type}

/-- The counters after a number of accesses. -/
structure Tally (env : Env) (world : World σ) (accesses : Nat) : Prop where
  ref : world.stats.refCount = accesses
  sum : world.stats.hitCount + world.stats.missCount = accesses
  filled : ∃ count ≤ env.memsize,
    (∀ index < env.memsize, (world.frames index).free = decide (count ≤ index)) ∧
    world.stats.missCount =
      count + (world.stats.evictCleanCount + world.stats.evictDirtyCount) ∧
    (count < env.memsize → world.stats.evictCleanCount + world.stats.evictDirtyCount = 0)

def World.InMemory (world : World σ) (page : Nat) : Prop :=
  ∃ root pte entry, world.pageTable = some root ∧ world.heap.leafAt root page = some pte ∧
    world.heap.pte pte = some entry ∧ entry.valid = true

theorem inMemory_iff {env : Env} {root : Addr} {world : World σ}
    (coherent : world.Coherent env root none) {page : Nat} :
    world.InMemory page ↔ (world.pageStore root).InMemory page := by
  constructor
  · intro inMemory
    obtain ⟨root', pte, entry, isRoot, leaf, here, valid⟩ := inMemory
    rw [coherent.pageTable] at isRoot
    cases isRoot
    exact ⟨_, pageStore_entry leaf here, valid⟩
  · intro inMemory
    obtain ⟨entry, present, valid⟩ := inMemory
    obtain ⟨pte, old, leaf, here, rfl⟩ := pageStore_entry_eq_some.mp present
    exact ⟨root, pte, old, coherent.pageTable, leaf, here, valid⟩

/-- The visit is what the states before and after the access show: the counter that
went up, whether the page came from swap, and the page that left memory. -/
structure Visit.Shows (visit : Visit) (access : MemAccess) (before after : World σ) : Prop where
  page : visit.page = access.page
  write : visit.write = access.type.isWrite
  ref : after.stats.refCount = before.stats.refCount + 1
  hit : visit.missed = false → after.stats.hitCount = before.stats.hitCount + 1 ∧
    after.stats.missCount = before.stats.missCount
  miss : visit.missed = true → after.stats.hitCount = before.stats.hitCount ∧
    after.stats.missCount = before.stats.missCount + 1
  fromSwap : visit.fromSwap = true ↔ visit.missed = true ∧ before.OnSwap access.page
  evicted : ∀ page, visit.evicted = some page ↔ before.InMemory page ∧ ¬ after.InMemory page

/-- An eviction is counted as one of a clean page exactly when the page is an
unwritten copy of its slot. -/
def EvictionCounted (history : List Visit) (visit : Visit) (before after : MMStats) : Prop :=
  match visit.evicted with
  | none => after.evictCleanCount = before.evictCleanCount ∧
      after.evictDirtyCount = before.evictDirtyCount
  | some page =>
      (UnwrittenCopy history page ∧ after.evictCleanCount = before.evictCleanCount + 1 ∧
        after.evictDirtyCount = before.evictDirtyCount) ∨
      (¬ UnwrittenCopy history page ∧ after.evictCleanCount = before.evictCleanCount ∧
        after.evictDirtyCount = before.evictDirtyCount + 1)

/-- What an access adds to the history. -/
structure Visit.Counted (history : List Visit) (visit : Visit) (access : MemAccess)
    (before after : World σ) : Prop where
  shows : visit.Shows access before after
  hit_iff : visit.missed = false ↔ StillIn history access.page
  eviction : EvictionCounted history visit before.stats after.stats

/-- The visits of a run, from one history to a later one. -/
inductive Recounted {β : Type} (step : MemAccess → Exec (World σ) β) :
    List Visit → World σ → List MemAccess → List Visit → World σ → Prop where
  | nil {history : List Visit} {world : World σ} : Recounted step history world [] history world
  | cons {history later : List Visit} {visit : Visit} {access : MemAccess} {rest : List MemAccess}
      {world middle last : World σ} {value : β} :
      (step access).run world = .ok value middle → visit.Counted history access world middle →
      Recounted step (visit :: history) middle rest later last →
      Recounted step history world (access :: rest) later last

theorem countEviction_false : countEviction false = countClean := rfl

theorem countEviction_true : countEviction true = countDirty := rfl

theorem increment32_small {counter : Nat} (small : counter + 1 < 2 ^ 32) :
    increment32 counter = counter + 1 := Nat.mod_eq_of_lt small

theorem increment32_le (counter : Nat) : increment32 counter ≤ counter + 1 := Nat.mod_le ..

end Counters

/-! ## One access -/

section Access
variable {env : Env} {policy : Policy} {root : Addr} {access : MemAccess}
  {world after : World policy.State} {history : List Visit} {accesses : Nat}

theorem Ledger.onSwap_iff (coherent : world.Coherent env root none) {entry : PTE}
    (missing : (world.pageStore root).Missing access.page entry) :
    entry.onSwap = true ↔ world.OnSwap access.page := by
  rw [MemSim.onSwap_iff coherent]
  constructor
  · intro onSwap
    rcases missing with ⟨here, invalid⟩ | ⟨-, initial⟩
    · exact ⟨entry, here, invalid, onSwap⟩
    · rw [initial] at onSwap
      contradiction
  · intro there
    obtain ⟨found, here', -, onSwap⟩ := there
    rcases missing with ⟨here, -⟩ | ⟨absent, -⟩
    · rw [here] at here'
      cases here'
      exact onSwap
    · rw [absent] at here'
      contradiction

theorem PageStore.Missing.not_inMemory {store : PageStore} {page : Nat} {entry : PTE}
    (missing : store.Missing page entry) : ¬ store.InMemory page := by
  intro inMemory
  obtain ⟨found, here, valid⟩ := inMemory
  exact missing.apart here valid rfl

theorem Ledger.evicted_iff {store next : PageStore} {visit : Visit} (ledger : Ledger history store)
    (later : Ledger (visit :: history) next)
    (out : ∀ page, visit.evicted = some page → page ≠ visit.page ∧ store.InMemory page)
    (page : Nat) : visit.evicted = some page ↔ store.InMemory page ∧ ¬ next.InMemory page := by
  rw [ledger.inMemory, later.inMemory]
  constructor
  · intro evicted
    obtain ⟨apart, inMemory⟩ := out page evicted
    refine ⟨(ledger.inMemory page).mp inMemory, fun stillIn => ?_⟩
    exact ((stillIn_other (Ne.symm apart)).mp stillIn).2 evicted
  · intro both
    by_contra kept
    by_cases same : visit.page = page
    · exact both.2 (stillIn_visited same kept fun _ => both.1)
    · exact both.2 ((stillIn_other same).mpr ⟨both.1, kept⟩)

section Tally
variable (tally : Tally env world accesses) (short : accesses + 1 < 2 ^ 32)
include tally short

theorem Tally.increments :
    increment32 world.stats.refCount = world.stats.refCount + 1 ∧
    increment32 world.stats.hitCount = world.stats.hitCount + 1 ∧
    increment32 world.stats.missCount = world.stats.missCount + 1 ∧
    increment32 world.stats.evictCleanCount = world.stats.evictCleanCount + 1 ∧
    increment32 world.stats.evictDirtyCount = world.stats.evictDirtyCount + 1 := by
  obtain ⟨ref, sum, count, -, -, misses, -⟩ := tally
  refine ⟨?_, ?_, ?_, ?_, ?_⟩
  all_goals
    apply increment32_small
    omega

theorem Tally.hit (stats : after.stats = countRef (countHit world.stats))
    (frames : after.frames = world.frames) : Tally env after (accesses + 1) := by
  obtain ⟨refs, hits, -⟩ := tally.increments short
  obtain ⟨ref, sum, count, atMost, free, misses, few⟩ := tally
  refine ⟨?_, ?_, count, atMost, ?_, ?_, ?_⟩
  · rw [stats, ← ref]
    exact refs
  · rw [stats]
    simp only [countRef, countHit, hits]
    omega
  · rw [frames]
    exact free
  · rw [stats]
    exact misses
  · rw [stats]
    exact few

theorem Tally.fill {frame : Nat} {owner : Frame}
    (found : findFreeFrom world.frames 0 env.memsize = some frame)
    (stats : after.stats = countRef (countMiss world.stats))
    (frames : after.frames = Function.update world.frames frame owner)
    (used : owner.free = false) : Tally env after (accesses + 1) := by
  obtain ⟨refs, -, misses', -⟩ := tally.increments short
  obtain ⟨ref, sum, count, atMost, free, misses, few⟩ := tally
  obtain rfl := findFreeFrom_filled free found
  have room : frame < env.memsize := by simpa using (findFreeFrom_eq_some found).2.1
  refine ⟨?_, ?_, frame + 1, room, ?_, ?_, ?_⟩
  · rw [stats, ← ref]
    exact refs
  · rw [stats]
    simp only [countRef, countMiss, misses']
    omega
  · intro index bound
    rw [frames]
    by_cases same : index = frame
    · rw [same, Function.update_self, used]
      simp
    · rw [Function.update_of_ne same, free index bound]
      simp only [decide_eq_decide]
      omega
  · rw [stats]
    simp only [countRef, countMiss, misses']
    omega
  · intro _
    rw [stats]
    exact few room

theorem Tally.replace {frame : Nat} {owner : Frame} {dirty : Bool}
    (full : findFreeFrom world.frames 0 env.memsize = none)
    (stats : after.stats = countRef (countEviction dirty (countMiss world.stats)))
    (frames : after.frames = Function.update world.frames frame owner)
    (used : owner.free = false) : Tally env after (accesses + 1) := by
  obtain ⟨refs, -, misses', clean, dirty'⟩ := tally.increments short
  obtain ⟨ref, sum, count, atMost, free, misses, few⟩ := tally
  obtain rfl := findFreeFrom_full free atMost full
  refine ⟨?_, ?_, env.memsize, Nat.le_refl _, ?_, ?_, ?_⟩
  · rw [stats, ← ref]
    cases dirty <;> exact refs
  · rw [stats]
    cases dirty
    · simp only [countRef, countEviction_false, countClean, countMiss, misses']
      omega
    · simp only [countRef, countEviction_true, countDirty, countMiss, misses']
      omega
  · intro index bound
    rw [frames]
    by_cases same : index = frame
    · rw [same, Function.update_self, used]
      simp only [false_eq_decide_iff]
      omega
    · rw [Function.update_of_ne same, free index bound]
  · rw [stats]
    cases dirty
    · simp only [countRef, countEviction_false, countClean, countMiss, misses', clean]
      omega
    · simp only [countRef, countEviction_true, countDirty, countMiss, misses', dirty']
      omega
  · intro less
    exact absurd less (Nat.lt_irrefl _)

end Tally

theorem Accounted.counted (accounted : Accounted env root access world after)
    (coherent : world.Coherent env root none) (coherentAfter : after.Coherent env root none)
    (ledger : Ledger history (world.pageStore root)) (tally : Tally env world accesses)
    (short : accesses + 1 < 2 ^ 32) :
    ∃ visit, visit.Counted history access world after ∧
      Ledger (visit :: history) (after.pageStore root) ∧ Tally env after (accesses + 1) := by
  obtain ⟨refs, hits, misses, clean, dirty⟩ := tally.increments short
  cases accounted with
  | @hit entry here valid entries stats frames =>
      let visit : Visit := ⟨access.page, access.type.isWrite, false, false, none⟩
      have later : Ledger (visit :: history) (after.pageStore root) := ledger.hit here valid entries
      have stillIn := (ledger.inMemory access.page).mp ⟨entry, here, valid⟩
      refine ⟨visit, ⟨⟨rfl, rfl, ?_, ?_, ?_, ?_, ?_⟩, ?_, ?_⟩, later, tally.hit short stats frames⟩
      · rw [stats]
        exact refs
      · intro _
        rw [stats]
        exact ⟨hits, rfl⟩
      · intro missed
        contradiction
      · simp [visit]
      · intro page
        rw [inMemory_iff coherent, inMemory_iff coherentAfter]
        exact ledger.evicted_iff later (fun _ out => by contradiction) page
      · exact ⟨fun _ => stillIn, fun _ => rfl⟩
      · rw [EvictionCounted, stats]
        exact ⟨rfl, rfl⟩
  | @fill entry frame owner missing found entries stats frames used =>
      let visit : Visit := ⟨access.page, access.type.isWrite, true, entry.onSwap, none⟩
      have later : Ledger (visit :: history) (after.pageStore root) := by
        apply ledger.miss missing (by simp)
        · rw [entries]
          exact PageStore.set_same
        · intro other out
          contradiction
        · intro other apart _
          rw [entries]
          exact PageStore.set_other apart
      refine ⟨visit, ⟨⟨rfl, rfl, ?_, ?_, ?_, ?_, ?_⟩, ?_, ?_⟩, later,
        tally.fill short found stats frames used⟩
      · rw [stats]
        exact refs
      · intro hit
        contradiction
      · intro _
        rw [stats]
        exact ⟨rfl, misses⟩
      · simpa [visit] using Ledger.onSwap_iff coherent missing
      · intro page
        rw [inMemory_iff coherent, inMemory_iff coherentAfter]
        exact ledger.evicted_iff later (fun _ out => by contradiction) page
      · refine ⟨fun hit => by contradiction, fun stillIn => ?_⟩
        exact absurd ((ledger.inMemory access.page).mpr stillIn) missing.not_inMemory
      · rw [EvictionCounted, stats]
        exact ⟨rfl, rfl⟩
  | @replace entry old victim frame result owner missing found here valid apart entries stats
      frames used =>
      let visit : Visit := ⟨access.page, access.type.isWrite, true, entry.onSwap, some victim⟩
      have later : Ledger (visit :: history) (after.pageStore root) := by
        apply ledger.miss missing (by simpa using apart)
        · rw [entries]
          exact PageStore.set_same
        · intro other out
          cases Option.some.inj out
          refine ⟨old, result, ?_⟩
          rw [entries]
          exact (PageStore.set_other apart).trans PageStore.set_same
        · intro other notPage notVictim
          rw [entries]
          exact (PageStore.set_other notPage).trans
            (PageStore.set_other fun same => notVictim (congrArg some same.symm))
      have isClean := ledger.clean victim old here valid
      refine ⟨visit, ⟨⟨rfl, rfl, ?_, ?_, ?_, ?_, ?_⟩, ?_, ?_⟩, later,
        tally.replace short found stats frames used⟩
      · rw [stats]
        cases old.dirty <;> exact refs
      · intro hit
        contradiction
      · intro _
        rw [stats]
        cases old.dirty <;> exact ⟨rfl, misses⟩
      · simpa [visit] using Ledger.onSwap_iff coherent missing
      · intro page
        rw [inMemory_iff coherent, inMemory_iff coherentAfter]
        apply ledger.evicted_iff later
        intro other out
        cases Option.some.inj out
        exact ⟨apart, old, here, valid⟩
      · refine ⟨fun hit => by contradiction, fun stillIn => ?_⟩
        exact absurd ((ledger.inMemory access.page).mpr stillIn) missing.not_inMemory
      · rw [EvictionCounted, stats]
        cases wasDirty : old.dirty with
        | false => exact .inl ⟨isClean.mp wasDirty, clean, rfl⟩
        | true =>
            refine .inr ⟨fun unwritten => ?_, rfl, dirty⟩
            rw [isClean.mpr unwritten] at wasDirty
            contradiction

end Access

/-! ## Runs -/

section Runs
variable {env : Env} {policy : Policy} {root : Addr} {β : Type}
  {step : MemAccess → Exec (World policy.State) β}

theorem Executes.recounted (executes : Executes env policy step) (trace : List MemAccess)
    {world after : World policy.State} {history : List Visit} {accesses : Nat}
    (coherent : world.Coherent env root none) (ledger : Ledger history (world.pageStore root))
    (tally : Tally env world accesses) (short : accesses + trace.length < 2 ^ 32)
    {values : List β} (run : (runAll step trace).run world = .ok values after) :
    Tally env after (accesses + trace.length) ∧
      ∃ later, Recounted step history world trace later after := by
  induction trace generalizing world history accesses values with
  | nil =>
      obtain ⟨-, rfl⟩ := EStateM.Result.ok.inj run
      exact ⟨tally, history, .nil⟩
  | cons access rest ih =>
      rw [List.length_cons] at short ⊢
      obtain ⟨value, middle, others, stepRun, restRun, -⟩ := (runAll_cons_ok_iff step).mp run
      have coherent' := executes.coherent coherent stepRun
      obtain ⟨visit, counted, ledger', tally'⟩ :=
        (executes.accounted coherent stepRun).counted coherent coherent' ledger tally (by omega)
      obtain ⟨tallyAfter, later, recounted⟩ := ih coherent' ledger' tally' (by omega) restRun
      rw [Nat.add_right_comm] at tallyAfter
      exact ⟨tallyAfter, later, .cons stepRun counted recounted⟩

variable {process : Process policy.State} {swapSize : Nat} {world : World policy.State}

theorem World.Started.ledger (started : world.Started env policy process swapSize root) :
    Ledger [] (world.pageStore root) := by
  have noEntry : ∀ {page entry}, (world.pageStore root).entry page ≠ some entry := by
    intro page entry here
    rw [started.entry_none page] at here
    contradiction
  refine ⟨?_, fun _ _ here => absurd here noEntry, fun _ _ here => absurd here noEntry⟩
  intro page
  refine ⟨fun inMemory => ?_, fun stillIn => absurd stillIn not_stillIn_nil⟩
  obtain ⟨entry, here, -⟩ := inMemory
  exact absurd here noEntry

theorem World.Started.tally (started : world.Started env policy process swapSize root)
    (zero : process.stats = MMStats.zero) : Tally env world 0 := by
  have stats : world.stats = MMStats.zero := started.stats.trans zero
  refine ⟨by rw [stats]; rfl, by rw [stats]; rfl, 0, Nat.zero_le _, ?_, ?_, ?_⟩
  · intro index _
    simp [started.free index]
  · rw [stats]
    rfl
  · intro _
    rw [stats]
    rfl

end Runs

section Fresh
variable {env : Env} {policy : Policy} {swapSize : Nat} {β : Type}
  {step : MemAccess → Exec (World policy.State) β} {trace : List MemAccess}
  {world : World policy.State}

/-- After every prefix of a run the counters add up; a hit is an access to a page that
is still in memory; and an eviction of a clean page is one of an unwritten copy. -/
theorem statistics_count (fresh : FreshRun env policy swapSize step trace world)
    (executes : Executes env policy step) (short : trace.length < 2 ^ 32) :
    ∀ front rest, trace = front ++ rest → ∀ values middle,
      (runAll step front).run world = .ok values middle →
        middle.stats.refCount = front.length ∧
        middle.stats.hitCount + middle.stats.missCount = front.length ∧
        middle.stats.evictCleanCount + middle.stats.evictDirtyCount =
          middle.stats.missCount - env.memsize ∧
        ∃ history, Recounted step [] world front history middle := by
  intro front rest split values middle run
  obtain ⟨root, started⟩ := fresh.started
  have length : trace.length = front.length + rest.length := by rw [split, List.length_append]
  obtain ⟨tally, recounted⟩ := executes.recounted front started.coherent started.ledger
    (started.tally rfl) (by omega) run
  rw [Nat.zero_add] at tally
  obtain ⟨ref, sum, count, atMost, -, misses, few⟩ := tally
  refine ⟨ref, sum, ?_, recounted⟩
  rcases Nat.eq_or_lt_of_le atMost with rfl | room
  · omega
  · have none' := few room
    omega

theorem statistics_count_threePages : ∃ world values after,
    FreshRun (Env.ideal 2) policyClock 3 (translate (Env.ideal 2) policyClock) threePages world ∧
    (runAll (translate (Env.ideal 2) policyClock) threePages).run world = .ok values after ∧
    after.stats.refCount = 5 ∧ after.stats.hitCount + after.stats.missCount = 5 ∧
    after.stats.evictCleanCount + after.stats.evictDirtyCount = after.stats.missCount - 2 ∧
    ∃ history, Recounted (translate (Env.ideal 2) policyClock) [] world threePages history
      after := by
  have grants : grantsRun (Env.ideal 2) policyClock 3 (translate (Env.ideal 2) policyClock)
      threePages = true := by decide +kernel
  have returns : reaches (Env.ideal 2) policyClock 3 (translate (Env.ideal 2) policyClock)
      threePages (fun _ => true) = true := by decide +kernel
  obtain ⟨world, fresh⟩ := threePages_fresh grants
  obtain ⟨values, after, run, -⟩ := fresh.reached returns
  exact ⟨world, values, after, fresh, run, statistics_count fresh (executes_translate _ _)
    (by decide) threePages [] (List.append_nil _).symm values after run⟩

end Fresh

end MemSim
