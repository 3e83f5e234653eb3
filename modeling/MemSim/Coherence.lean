import MemSim.PageTableWalk
import MemSim.Simulation

/-!
# The coremap and the page table are inverse to each other

The mapping between pages and frames is stored twice: a frame points to the
entry of its page, and a valid entry holds the number of its frame.  In the
middle of a miss one frame may be without a page: its old page has been written
to swap and the new one has not been installed.
-/

set_option autoImplicit false

namespace MemSim

open Exec

/-! ## What a miss does to the entries -/

def PTE.pagedOut (entry : PTE) (offset : Int) : PTE :=
  { entry with dirty := false, valid := false, onSwap := true, swapOffset := offset }

def PTE.loaded (entry : PTE) (frame : Nat) : PTE :=
  { entry with
    frameNumber := frame
    valid := true
    dirty := !entry.onSwap || entry.dirty
    onSwap := false }

def PTE.accessed (entry : PTE) (write : Bool) : PTE :=
  { entry with dirty := write || entry.dirty }

@[simp] theorem PTE.pagedOut_pageTable (entry : PTE) (offset : Int) :
    (entry.pagedOut offset).pageTable = entry.pageTable := rfl

@[simp] theorem PTE.pagedOut_valid (entry : PTE) (offset : Int) :
    (entry.pagedOut offset).valid = false := rfl

@[simp] theorem PTE.accessed_pageTable (entry : PTE) (write : Bool) :
    (entry.accessed write).pageTable = entry.pageTable := rfl

@[simp] theorem PTE.accessed_valid (entry : PTE) (write : Bool) :
    (entry.accessed write).valid = entry.valid := rfl

@[simp] theorem PTE.accessed_frameNumber (entry : PTE) (write : Bool) :
    (entry.accessed write).frameNumber = entry.frameNumber := rfl

@[simp] theorem PTE.loaded_pageTable (entry : PTE) (frame : Nat) :
    (entry.loaded frame).pageTable = entry.pageTable := rfl

@[simp] theorem PTE.loaded_valid (entry : PTE) (frame : Nat) :
    (entry.loaded frame).valid = true := rfl

@[simp] theorem PTE.loaded_frameNumber (entry : PTE) (frame : Nat) :
    (entry.loaded frame).frameNumber = frame := rfl

section SetPte
variable {heap : Heap} {addr other : Addr} {entry new : PTE}

@[simp] theorem Heap.pte_setPte_self : (heap.setPte addr entry).pte addr = some entry := by
  simp [Heap.setPte]

theorem Heap.pte_setPte_of_ne (apart : other ≠ addr) :
    (heap.setPte addr entry).pte other = heap.pte other := by
  simp [Heap.setPte, Function.update_of_ne apart]

@[simp] theorem Heap.setPte_setPte :
    (heap.setPte addr entry).setPte addr new = heap.setPte addr new := by
  simp [Heap.setPte]

theorem Heap.setPte_same (here : heap.pte addr = some entry) : heap.setPte addr entry = heap := by
  simp only [Heap.setPte, ← here, Function.update_eq_self]

theorem Heap.pte_setPte_eq_some {found : PTE} :
    (heap.setPte addr entry).pte other = some found ↔
      other = addr ∧ entry = found ∨ other ≠ addr ∧ heap.pte other = some found := by
  by_cases same : other = addr
  · simp [same]
  · simp [same, Heap.pte_setPte_of_ne same]

end SetPte

/-! ## Changes of reference bits -/

section OnlyReference
variable {before after : Heap}

theorem Heap.OnlyReference.symm (only : before.OnlyReference after) :
    after.OnlyReference before where
  table := only.table.symm
  ptes := only.ptes.symm
  tracker := only.tracker.symm
  pte := fun addr => (only.pte addr).symm

theorem Heap.OnlyReference.entry (only : before.OnlyReference after) {addr : Addr} {entry : PTE}
    (here : before.pte addr = some entry) :
    ∃ reference, after.pte addr = some { entry with reference := reference } := by
  have same := only.pte addr
  rw [here] at same
  obtain ⟨entry', here', erased⟩ := Option.map_eq_some_iff.mp same
  refine ⟨entry'.reference, ?_⟩
  simp only [PTE.eraseReference, PTE.mk.injEq] at erased
  rw [here']
  congr 1
  obtain ⟨frameNumber, swapOffset, valid, dirty, -, onSwap, pageTable⟩ := erased
  cases entry'
  simp_all

theorem Heap.OnlyReference.trie (only : before.OnlyReference after) : after.trie = before.trie := by
  have child : after.trie.child = before.trie.child := by
    funext addr
    simp only [Heap.trie]
    cases here : before.pte addr with
    | none =>
        have same := only.pte addr
        rw [here, Option.map_none, Option.map_eq_none_iff] at same
        rw [same]
    | some entry =>
        obtain ⟨reference, there⟩ := only.entry here
        rw [there]
  have slot : after.trie.slot = before.trie.slot := by
    funext table index
    simp only [Heap.trie, only.table, only.ptes]
  cases afterTrie : after.trie
  cases beforeTrie : before.trie
  simp_all

theorem Heap.OnlyReference.sound (only : before.OnlyReference after) {isRoot : Addr → Prop}
    (sound : before.Sound isRoot) : after.Sound isRoot where
  pte_live := by
    intro addr entry here
    obtain ⟨_, there⟩ := only.symm.entry here
    rw [only.tracker]
    exact sound.pte_live there
  table_live := by
    intro addr ptes here
    rw [only.tracker]
    exact sound.table_live (only.table ▸ here)
  ptes_live := by
    intro addr slots here
    rw [only.tracker]
    exact sound.ptes_live (only.ptes ▸ here)
  pte_kind := by
    intro addr entry here
    obtain ⟨_, there⟩ := only.symm.entry here
    rw [only.table, only.ptes]
    exact sound.pte_kind there
  table_kind := by
    intro addr ptes here
    rw [only.ptes]
    exact sound.table_kind (only.table ▸ here)
  table_ptes := by
    intro table ptes here
    rw [only.ptes]
    exact sound.table_ptes (only.table ▸ here)
  table_inj := fun here there => sound.table_inj (only.table ▸ here) (only.table ▸ there)
  slot_pte := by
    intro table index pte inSlot
    rw [only.trie] at inSlot
    obtain ⟨entry, here⟩ := sound.slot_pte inSlot
    obtain ⟨_, there⟩ := only.entry here
    exact ⟨_, there⟩
  slot_lt := fun inSlot => sound.slot_lt (only.trie ▸ inSlot)
  child_table := by
    intro pte table hung
    rw [only.table]
    exact sound.child_table (only.trie ▸ hung)
  root_table := by
    intro table rootHere
    rw [only.table]
    exact sound.root_table rootHere
  parents := only.trie ▸ sound.parents
  leaf_childless := by
    intro root i j k pte rootHere found
    rw [only.trie] at found ⊢
    exact sound.leaf_childless rootHere found

theorem Heap.OnlyReference.leafAt (only : before.OnlyReference after) (root page : Nat) :
    after.leafAt root page = before.leafAt root page := by
  rw [Heap.leafAt, only.trie, Heap.leafAt]

end OnlyReference

/-! ## The invariant -/

section Invariant
variable {σ : Type} (env : Env) (root : Addr)

/-- `vacated` is the frame whose page was evicted and not replaced yet. -/
structure World.Coherent (vacated : Option Nat) (world : World σ) : Prop where
  pageTable : world.pageTable = some root
  sound : world.heap.Sound (· = root)
  owner : ∀ {addr entry}, world.heap.pte addr = some entry → entry.valid = true →
    entry.frameNumber < env.memsize ∧ world.frames entry.frameNumber = ⟨false, some addr⟩
  used : ∀ {index}, index < env.memsize → (world.frames index).free = false →
    vacated ≠ some index → ∃ addr entry, (world.frames index).pte = some addr ∧
      world.heap.pte addr = some entry ∧ entry.valid = true ∧ entry.frameNumber = index
  vacant : ∀ {index addr entry}, vacated = some index → world.heap.pte addr = some entry →
    entry.valid = true → entry.frameNumber ≠ index
  leaf : ∀ {addr entry}, world.heap.pte addr = some entry → entry.valid = true →
    ∃ page, world.heap.leafAt root page = some addr
  filled : ∃ count ≤ env.memsize, ∀ index < env.memsize,
    (world.frames index).free = decide (count ≤ index)
  swapmap : world.storage.swapmap.Shaped

end Invariant

section Steps
variable {σ : Type} {env : Env} {root : Addr} {vacated : Option Nat} {world : World σ}

theorem Heap.Grown.cases {before after : Heap} (grown : before.Grown after) {addr : Addr}
    {entry : PTE} (here : after.pte addr = some entry) :
    (∃ old, before.pte addr = some old ∧ entry = { old with pageTable := entry.pageTable }) ∨
      before.pte addr = none ∧ entry = { PTE.initial with pageTable := entry.pageTable } := by
  cases there : before.pte addr with
  | none =>
      right
      obtain ⟨pageTable, rfl⟩ := grown.new there here
      exact ⟨rfl, rfl⟩
  | some old =>
      left
      obtain ⟨pageTable, here'⟩ := grown.old there
      rw [here] at here'
      cases here'
      exact ⟨old, rfl, rfl⟩

theorem Heap.Allocated.leaf_mono {before after : Heap} {isRoot : Addr → Prop} {root page pte : Nat}
    (allocated : before.Allocated after isRoot root page pte) {root' page' pte' : Nat}
    (rootThere : isRoot root') (found : before.leafAt root' page' = some pte') :
    after.leafAt root' page' = some pte' := by
  by_cases same : root' = root ∧ page' = page
  · obtain ⟨rfl, rfl⟩ := same
    rw [allocated.leaf, (allocated.again pte' found).1]
  · rw [allocated.others root' page' rootThere same, found]

theorem World.Coherent.allocated (coherent : world.Coherent env root vacated) {heap : Heap}
    {page pte : Nat} (allocated : world.heap.Allocated heap (· = root) root page pte) :
    (world.setHeap heap).Coherent env root vacated := by
  have old : ∀ {addr entry}, heap.pte addr = some entry → entry.valid = true →
      ∃ entry', world.heap.pte addr = some entry' ∧ entry'.valid = true ∧
        entry'.frameNumber = entry.frameNumber := by
    intro addr entry here valid
    rcases allocated.grown.cases here with ⟨entry', there, same⟩ | ⟨-, same⟩
    · rw [same] at valid ⊢
      exact ⟨entry', there, valid, rfl⟩
    · rw [same] at valid
      contradiction
  refine ⟨coherent.pageTable, allocated.sound, ?_, ?_, ?_, ?_, coherent.filled, coherent.swapmap⟩
  · intro addr entry here valid
    obtain ⟨entry', there, valid', same⟩ := old here valid
    have owner := coherent.owner there valid'
    rwa [same] at owner
  · intro index bound notFree apart
    obtain ⟨addr, entry, owner, there, valid, number⟩ := coherent.used bound notFree apart
    obtain ⟨pageTable, here⟩ := allocated.grown.old there
    exact ⟨addr, _, owner, here, valid, number⟩
  · intro index addr entry isVacated here valid
    obtain ⟨entry', there, valid', same⟩ := old here valid
    rw [← same]
    exact coherent.vacant isVacated there valid'
  · intro addr entry here valid
    obtain ⟨entry', there, valid', -⟩ := old here valid
    obtain ⟨page', found⟩ := coherent.leaf there valid'
    exact ⟨page', allocated.leaf_mono rfl found⟩

theorem World.Coherent.setPolicyState (coherent : world.Coherent env root vacated)
    {state : PolicyState σ} (only : world.policyState.OnlyReference state) :
    (world.setPolicyState state).Coherent env root vacated := by
  have sameFrames : state.frames = world.frames := only.frames
  have onlyHeap : world.heap.OnlyReference state.heap := only.heap
  have old : ∀ {addr entry}, state.heap.pte addr = some entry →
      ∃ entry', world.heap.pte addr = some entry' ∧ entry'.valid = entry.valid ∧
        entry'.frameNumber = entry.frameNumber := by
    intro addr entry here
    obtain ⟨reference, there⟩ := onlyHeap.symm.entry here
    exact ⟨_, there, rfl, rfl⟩
  refine ⟨coherent.pageTable, onlyHeap.sound coherent.sound, ?_, ?_, ?_, ?_, ?_, coherent.swapmap⟩
  · intro addr entry here valid
    obtain ⟨entry', there, sameValid, sameNumber⟩ := old here
    have owner := coherent.owner there (sameValid.trans valid)
    rw [sameNumber, ← sameFrames] at owner
    exact owner
  · intro index bound notFree apart
    have notFree' : (world.frames index).free = false := by
      rw [← sameFrames]
      exact notFree
    obtain ⟨addr, entry, owner, there, valid, number⟩ := coherent.used bound notFree' apart
    obtain ⟨reference, here⟩ := onlyHeap.entry there
    refine ⟨addr, _, ?_, here, valid, number⟩
    rw [← sameFrames] at owner
    exact owner
  · intro index addr entry isVacated here valid
    obtain ⟨entry', there, sameValid, sameNumber⟩ := old here
    rw [← sameNumber]
    exact coherent.vacant isVacated there (sameValid.trans valid)
  · intro addr entry here valid
    obtain ⟨entry', there, sameValid, -⟩ := old here
    obtain ⟨page, found⟩ := coherent.leaf there (sameValid.trans valid)
    exact ⟨page, (onlyHeap.leafAt root page).trans found⟩
  · obtain ⟨count, bound, free⟩ := coherent.filled
    refine ⟨count, bound, fun index indexBound => ?_⟩
    rw [← free index indexBound, ← sameFrames]
    rfl

theorem World.Coherent.evict (coherent : world.Coherent env root none) {frame addr : Nat}
    {entry : PTE} (owner : (world.frames frame).pte = some addr)
    (notFree : (world.frames frame).free = false) (bound : frame < env.memsize)
    (here : world.heap.pte addr = some entry) (offset : Int) :
    (world.setHeap (world.heap.setPte addr (entry.pagedOut offset))).Coherent env root
      (some frame) := by
  have sameTrie : ∀ page, (world.heap.setPte addr (entry.pagedOut offset)).leafAt root page =
      world.heap.leafAt root page :=
    Heap.leafAt_setPte (by simp [Heap.trie, here]) root
  have old : ∀ {other found},
      (world.heap.setPte addr (entry.pagedOut offset)).pte other = some found →
      found.valid = true → other ≠ addr ∧ world.heap.pte other = some found := by
    intro other found present valid
    rcases Heap.pte_setPte_eq_some.mp present with ⟨-, rfl⟩ | kept
    · contradiction
    · exact kept
  refine ⟨coherent.pageTable, coherent.sound.setPte here rfl, ?_, ?_, ?_, ?_, coherent.filled,
    coherent.swapmap⟩
  · intro other found present valid
    exact coherent.owner (old present valid).2 valid
  · intro index indexBound used apart
    obtain ⟨other, found, otherOwner, there, valid, number⟩ :=
      coherent.used indexBound used (by simp)
    refine ⟨other, found, otherOwner, Heap.pte_setPte_eq_some.mpr (.inr ⟨?_, there⟩), valid, number⟩
    rintro rfl
    obtain ⟨victim, entry', victimOwner, there', -, number'⟩ :=
      coherent.used bound notFree (by simp)
    cases Option.some.inj (owner.symm.trans victimOwner)
    cases Option.some.inj (there.symm.trans there')
    exact apart (by rw [← number, ← number'])
  · intro index other found isVacated present valid number
    cases Option.some.inj isVacated
    obtain ⟨apart, there⟩ := old present valid
    have otherOwner := (coherent.owner there valid).2
    rw [number] at otherOwner
    rw [otherOwner] at owner
    exact apart (Option.some.inj owner)
  · intro other found present valid
    obtain ⟨page, leaf⟩ := coherent.leaf (old present valid).2 valid
    exact ⟨page, (sameTrie page).trans leaf⟩

end Steps

/-! ## Free frames -/

section FindFree
variable {frames : Nat → Frame}

theorem findFreeFrom_eq_some {i count found : Nat} (result : findFreeFrom frames i count = some found) :
    i ≤ found ∧ found < i + count ∧ (frames found).free = true ∧
      ∀ index, i ≤ index → index < found → (frames index).free = false := by
  induction count generalizing i with
  | zero => simp [findFreeFrom] at result
  | succ count ih =>
      rw [findFreeFrom] at result
      split at result
      · rename_i free
        cases Option.some.inj result
        exact ⟨Nat.le_refl _, by omega, free, by omega⟩
      · rename_i used
        obtain ⟨lower, upper, free, before⟩ := ih result
        refine ⟨by omega, by omega, free, fun index low high => ?_⟩
        rcases Nat.eq_or_lt_of_le low with rfl | later
        · simpa using used
        · exact before index later high

theorem findFreeFrom_eq_none {i count : Nat} (result : findFreeFrom frames i count = none) :
    ∀ index, i ≤ index → index < i + count → (frames index).free = false := by
  induction count generalizing i with
  | zero =>
      intro index low high
      omega
  | succ count ih =>
      rw [findFreeFrom] at result
      split at result
      · contradiction
      · rename_i used
        intro index low high
        rcases Nat.eq_or_lt_of_le low with rfl | later
        · simpa using used
        · exact ih result index later (by omega)

variable {count size : Nat}
  (filled : ∀ index < size, (frames index).free = decide (count ≤ index))
include filled

theorem findFreeFrom_filled {found : Nat} (result : findFreeFrom frames 0 size = some found) :
    found = count := by
  obtain ⟨-, upper, isFree, before⟩ := findFreeFrom_eq_some result
  have low : count ≤ found := by simpa [filled found (by omega)] using isFree
  rcases Nat.eq_or_lt_of_le low with same | later
  · exact same.symm
  · have used := before count (Nat.zero_le _) later
    rw [filled count (by omega)] at used
    simp at used

theorem findFreeFrom_full (atMost : count ≤ size) (result : findFreeFrom frames 0 size = none) :
    count = size := by
  rcases Nat.eq_or_lt_of_le atMost with same | room
  · exact same
  · have used := findFreeFrom_eq_none result count (Nat.zero_le _) (by omega)
    rw [filled count room] at used
    simp at used

end FindFree

section Install
variable {σ : Type} {env : Env} {root : Addr} {vacated : Option Nat} {world : World σ}

/-- The frame a page can be installed in: the first free one, or the one that
was just vacated. -/
def World.Available (env : Env) (vacated : Option Nat) (world : World σ) (frame : Nat) : Prop :=
  (vacated = none ∧ findFreeFrom world.frames 0 env.memsize = some frame) ∨
    (vacated = some frame ∧ frame < env.memsize ∧ (world.frames frame).free = false)

theorem World.Coherent.install (coherent : world.Coherent env root vacated) {frame addr : Nat}
    {entry new : PTE} (available : world.Available env vacated frame)
    (here : world.heap.pte addr = some entry) (invalid : entry.valid = false) {page : Nat}
    (leaf : world.heap.leafAt root page = some addr) (samePointer : new.pageTable = entry.pageTable)
    (newValid : new.valid = true) (newNumber : new.frameNumber = frame) :
    ((world.setHeap (world.heap.setPte addr new)).setFrame frame
      ⟨false, some addr⟩).Coherent env root none := by
  have bound : frame < env.memsize := by
    rcases available with ⟨-, found⟩ | ⟨-, bound, -⟩
    · simpa using (findFreeFrom_eq_some found).2.1
    · exact bound
  have sameTrie : ∀ page, (world.heap.setPte addr new).leafAt root page =
      world.heap.leafAt root page :=
    Heap.leafAt_setPte (by simp [Heap.trie, here, samePointer]) root
  have unused : ∀ {other found}, world.heap.pte other = some found → found.valid = true →
      found.frameNumber ≠ frame := by
    intro other found there valid
    rcases available with ⟨-, first⟩ | ⟨isVacated, -⟩
    · rintro rfl
      have owner := (coherent.owner there valid).2
      have free := (findFreeFrom_eq_some first).2.2.1
      rw [owner] at free
      contradiction
    · exact coherent.vacant isVacated there valid
  refine ⟨coherent.pageTable, coherent.sound.setPte here samePointer, ?_, ?_, ?_, ?_, ?_,
    coherent.swapmap⟩
  · intro other found present valid
    rcases Heap.pte_setPte_eq_some.mp present with ⟨rfl, rfl⟩ | ⟨apart, there⟩
    · rw [newNumber]
      exact ⟨bound, by simp [World.setFrame]⟩
    · obtain ⟨otherBound, owner⟩ := coherent.owner there valid
      refine ⟨otherBound, ?_⟩
      simpa [World.setFrame, World.setHeap, Function.update_of_ne (unused there valid)] using owner
  · intro index indexBound used _
    by_cases same : index = frame
    · subst same
      exact ⟨addr, new, by simp [World.setFrame],
        Heap.pte_setPte_eq_some.mpr (.inl ⟨rfl, rfl⟩), newValid, newNumber⟩
    · have used' : (world.frames index).free = false := by
        simpa [World.setFrame, World.setHeap, Function.update_of_ne same] using used
      have apart : vacated ≠ some index := by
        rintro rfl
        rcases available with ⟨none', -⟩ | ⟨isVacated, -⟩
        · contradiction
        · exact same (Option.some.inj isVacated)
      obtain ⟨other, found, owner, there, valid, number⟩ := coherent.used indexBound used' apart
      refine ⟨other, found, ?_, Heap.pte_setPte_eq_some.mpr (.inr ⟨?_, there⟩), valid, number⟩
      · simpa [World.setFrame, World.setHeap, Function.update_of_ne same] using owner
      · rintro rfl
        cases Option.some.inj (there.symm.trans here)
        exact Bool.noConfusion (valid.symm.trans invalid)
  · intro index other found isVacated
    contradiction
  · intro other found present valid
    rcases Heap.pte_setPte_eq_some.mp present with ⟨rfl, -⟩ | ⟨-, there⟩
    · exact ⟨page, (sameTrie page).trans leaf⟩
    · obtain ⟨page', found'⟩ := coherent.leaf there valid
      exact ⟨page', (sameTrie page').trans found'⟩
  · obtain ⟨count, countBound, free⟩ := coherent.filled
    have freeAt : ∀ index, ((world.setHeap (world.heap.setPte addr new)).setFrame frame
        ⟨false, some addr⟩).frames index =
          if index = frame then ⟨false, some addr⟩ else world.frames index := by
      intro index
      by_cases same : index = frame
      · simp [World.setFrame, same]
      · simp [World.setFrame, World.setHeap, same]
    rcases available with ⟨-, found⟩ | ⟨-, -, notFree⟩
    · have same := findFreeFrom_filled free found
      refine ⟨count + 1, by omega, fun index indexBound => ?_⟩
      rw [freeAt]
      split
      · simp
        omega
      · rw [free index indexBound]
        simp
        omega
    · refine ⟨count, countBound, fun index indexBound => ?_⟩
      rw [freeAt]
      split
      · rename_i same
        rw [← free index indexBound, same, notFree]
      · exact free index indexBound

theorem World.Coherent.setPte (coherent : world.Coherent env root vacated) {addr : Addr}
    {entry new : PTE} (here : world.heap.pte addr = some entry)
    (samePointer : new.pageTable = entry.pageTable) (sameValid : new.valid = entry.valid)
    (sameNumber : new.frameNumber = entry.frameNumber) :
    (world.setHeap (world.heap.setPte addr new)).Coherent env root vacated := by
  have old : ∀ {other found}, (world.heap.setPte addr new).pte other = some found →
      ∃ entry', world.heap.pte other = some entry' ∧ entry'.valid = found.valid ∧
        entry'.frameNumber = found.frameNumber := by
    intro other found present
    rcases Heap.pte_setPte_eq_some.mp present with ⟨rfl, rfl⟩ | ⟨-, there⟩
    · exact ⟨entry, here, sameValid.symm, sameNumber.symm⟩
    · exact ⟨found, there, rfl, rfl⟩
  have sameTrie : ∀ page, (world.heap.setPte addr new).leafAt root page =
      world.heap.leafAt root page :=
    Heap.leafAt_setPte (by simp [Heap.trie, here, samePointer]) root
  refine ⟨coherent.pageTable, coherent.sound.setPte here samePointer, ?_, ?_, ?_, ?_,
    coherent.filled, coherent.swapmap⟩
  · intro other found present valid
    obtain ⟨entry', there, valid', number⟩ := old present
    have owner := coherent.owner there (valid'.trans valid)
    rwa [number] at owner
  · intro index bound used apart
    obtain ⟨other, found, owner, there, valid, number⟩ := coherent.used bound used apart
    by_cases same : other = addr
    · subst same
      cases Option.some.inj (there.symm.trans here)
      exact ⟨other, new, owner, Heap.pte_setPte_self, sameValid.trans valid,
        sameNumber.trans number⟩
    · exact ⟨other, found, owner, (Heap.pte_setPte_of_ne same).trans there, valid, number⟩
  · intro index other found isVacated present valid
    obtain ⟨entry', there, valid', number⟩ := old present
    rw [← number]
    exact coherent.vacant isVacated there (valid'.trans valid)
  · intro other found present valid
    obtain ⟨entry', there, valid', -⟩ := old present
    obtain ⟨page, leaf⟩ := coherent.leaf there (valid'.trans valid)
    exact ⟨page, (sameTrie page).trans leaf⟩

theorem World.Coherent.setStorage (coherent : world.Coherent env root vacated) {storage : Storage}
    (shaped : storage.swapmap.Shaped) :
    (world.setStorage storage).Coherent env root vacated :=
  { coherent with swapmap := shaped }

theorem World.Coherent.setStats (coherent : world.Coherent env root vacated) (stats : MMStats) :
    (world.setStats stats).Coherent env root vacated :=
  { coherent with }

theorem World.Coherent.record (coherent : world.Coherent env root vacated) (event : Event) :
    (world.record event).Coherent env root vacated :=
  { coherent with }

end Install

end MemSim
