import MemSim.Residents

/-!
# Pages and storage

What decides where the bytes of a page are: the entry of every page, by page
number and less its reference bit, and the storage.  Seen this way a policy
changes nothing, and a translation is one of three steps: the page is found in
its frame, it is loaded into an unused frame, or it replaces another page.
-/

set_option autoImplicit false

namespace MemSim

open Exec

structure PageStore where
  entry : Nat → Option PTE
  storage : Storage

def World.pageStore {σ : Type} (root : Addr) (world : World σ) : PageStore where
  entry := fun page =>
    ((world.heap.leafAt root page).bind world.heap.pte).map PTE.eraseReference
  storage := world.storage

def PageStore.set (store : PageStore) (page : Nat) (entry : PTE) : PageStore :=
  { store with entry := Function.update store.entry page (some entry) }

def PageStore.setStorage (store : PageStore) (storage : Storage) : PageStore :=
  { store with storage := storage }

/-- The entry a page starts its next residency with: that of a page outside
memory, or a new one. -/
def PageStore.Missing (store : PageStore) (page : Nat) (entry : PTE) : Prop :=
  (store.entry page = some entry ∧ entry.valid = false) ∨
    store.entry page = none ∧ entry = PTE.initial

def PageStore.Unused (store : PageStore) (frame : Nat) : Prop :=
  ∀ page entry, store.entry page = some entry → entry.valid = true → entry.frameNumber ≠ frame

/-- A completed translation of an access to the page. -/
inductive PageStep (env : Env) (page : Nat) (write : Bool) (before : PageStore) :
    Nat → PageStore → Prop where
  | hit {entry : PTE} : before.entry page = some entry → entry.valid = true →
      PageStep env page write before entry.frameNumber (before.set page (entry.accessed write))
  | fill {entry : PTE} {frame : Nat} {storage : Storage} :
      before.Missing page entry → before.Unused frame → frame < env.memsize →
      Fills env frame entry before.storage storage →
      PageStep env page write before frame
        ((before.set page ((entry.loaded frame).accessed write)).setStorage storage)
  | replace {entry old : PTE} {victim : Nat} {result : Int} {middle storage : Storage} :
      before.Missing page entry → before.entry victim = some old → old.valid = true →
      old.frameNumber < env.memsize →
      (swapPageOut env old.frameNumber old.swapOffset).run before.storage = .ok result middle →
      Fills env old.frameNumber entry middle storage →
      PageStep env page write before old.frameNumber
        (((before.set victim (old.pagedOut result)).set page
          ((entry.loaded old.frameNumber).accessed write)).setStorage storage)

theorem PageStore.Missing.apart {store : PageStore} {page other : Nat} {entry found : PTE}
    (missing : store.Missing page entry) (here : store.entry other = some found)
    (valid : found.valid = true) : other ≠ page := by
  rintro rfl
  rcases missing with ⟨present, invalid⟩ | ⟨absent, -⟩
  · rw [here] at present
    cases present
    rw [valid] at invalid
    contradiction
  · rw [here] at absent
    contradiction

section Set
variable {store : PageStore} {page other : Nat} {entry new : PTE}

theorem PageStore.set_same : (store.set page entry).entry page = some entry := by
  simp [PageStore.set]

theorem PageStore.set_other (apart : other ≠ page) :
    (store.set page entry).entry other = store.entry other := by
  simp [PageStore.set, apart]

theorem PageStore.set_set : (store.set page entry).set page new = store.set page new := by
  simp [PageStore.set]

theorem PageStore.set_comm (apart : other ≠ page) :
    (store.set page entry).set other new = (store.set other new).set page entry := by
  simp only [PageStore.set, Function.update_comm apart]

theorem PageStore.valid_of_set {old : PTE} (present : (store.set page entry).entry other = some old)
    (valid : old.valid = true) (invalid : entry.valid = false) :
    other ≠ page ∧ store.entry other = some old := by
  have apart : other ≠ page := by
    rintro rfl
    rw [PageStore.set_same] at present
    cases present
    rw [invalid] at valid
    contradiction
  rw [PageStore.set_other apart] at present
  exact ⟨apart, present⟩

end Set

/-! ## Translations are steps -/

section Worlds
variable {σ : Type} {root : Addr} {world : World σ}

theorem pageStore_entry_eq_some {page : Nat} {entry : PTE} :
    (world.pageStore root).entry page = some entry ↔ ∃ pte old,
      world.heap.leafAt root page = some pte ∧ world.heap.pte pte = some old ∧
        old.eraseReference = entry := by
  simp only [World.pageStore, Option.map_eq_some_iff, Option.bind_eq_some_iff]
  constructor
  · intro here
    obtain ⟨old, ⟨pte, leaf, there⟩, same⟩ := here
    exact ⟨pte, old, leaf, there, same⟩
  · intro here
    obtain ⟨pte, old, leaf, there, same⟩ := here
    exact ⟨old, ⟨pte, leaf, there⟩, same⟩

theorem pageStore_entry {page pte : Nat} {entry : PTE}
    (leaf : world.heap.leafAt root page = some pte) (here : world.heap.pte pte = some entry) :
    (world.pageStore root).entry page = some entry.eraseReference :=
  pageStore_entry_eq_some.mpr ⟨pte, entry, leaf, here, rfl⟩

theorem pageStore_entry_none (sound : world.heap.Sound (· = root)) {page : Nat}
    (absent : (world.pageStore root).entry page = none) : world.heap.leafAt root page = none := by
  cases leaf : world.heap.leafAt root page with
  | none => rfl
  | some pte =>
      obtain ⟨entry, here⟩ := sound.leafAt_pte leaf
      rw [pageStore_entry leaf here] at absent
      contradiction

theorem pageStore_setPte (sound : world.heap.Sound (· = root)) {page pte : Nat} {entry new : PTE}
    (leaf : world.heap.leafAt root page = some pte) (here : world.heap.pte pte = some entry)
    (samePointer : new.pageTable = entry.pageTable) :
    (world.setHeap (world.heap.setPte pte new)).pageStore root =
      (world.pageStore root).set page new.eraseReference := by
  have sameLeaf : ∀ other, (world.heap.setPte pte new).leafAt root other =
      world.heap.leafAt root other :=
    Heap.leafAt_setPte (by simp [Heap.trie, here, samePointer]) root
  simp only [World.pageStore, PageStore.set, World.setHeap, PageStore.mk.injEq, and_true]
  funext other
  rw [sameLeaf]
  by_cases same : other = page
  · subst same
    rw [leaf, Function.update_self]
    simp
  · rw [Function.update_of_ne same]
    cases otherLeaf : world.heap.leafAt root other with
    | none => rfl
    | some pte' =>
        have apart : pte' ≠ pte := by
          rintro rfl
          exact same (sound.leafAt_inj rfl rfl otherLeaf leaf).2
        simp only [Option.bind_some, Heap.pte_setPte_of_ne apart]

theorem pageStore_called {state : PolicyState σ} (only : world.policyState.OnlyReference state)
    (event : Event) :
    ((world.setPolicyState state).record event).pageStore root = world.pageStore root := by
  have onlyHeap : world.heap.OnlyReference state.heap := only.heap
  simp only [World.pageStore, World.setPolicyState, World.record, PageStore.mk.injEq, and_true]
  funext page
  rw [onlyHeap.leafAt]
  cases leaf : world.heap.leafAt root page with
  | none => rfl
  | some pte => exact onlyHeap.pte pte

theorem pageStore_allocated (sound : world.heap.Sound (· = root)) {heap : Heap} {page pte : Nat}
    (allocated : world.heap.Allocated heap (· = root) root page pte) :
    (∃ entry, (world.pageStore root).entry page = some entry ∧
      (world.setHeap heap).pageStore root = world.pageStore root) ∨
    (world.pageStore root).entry page = none ∧
      (world.setHeap heap).pageStore root = (world.pageStore root).set page PTE.initial := by
  cases found : world.heap.leafAt root page with
  | some old =>
      obtain ⟨rfl, same⟩ := allocated.again old found
      obtain ⟨entry, here⟩ := sound.leafAt_pte found
      exact .inl ⟨_, pageStore_entry found here, by rw [same]; rfl⟩
  | none =>
      refine .inr ⟨by simp [World.pageStore, found], ?_⟩
      simp only [World.pageStore, PageStore.set, World.setHeap, PageStore.mk.injEq, and_true]
      funext other
      by_cases same : other = page
      · subst same
        rw [allocated.leaf, Function.update_self, Option.bind_some, (allocated.created found).2]
        rfl
      · rw [Function.update_of_ne same,
          allocated.others root other rfl fun both => same both.2]
        cases leaf : world.heap.leafAt root other with
        | none => rfl
        | some pte' =>
            rw [Option.bind_some, Option.bind_some, allocated.leaf_kept sound rfl leaf]

end Worlds

section Steps
variable {env : Env} {policy : Policy} {root : Addr} {access : MemAccess}
  {world after : World policy.State} {frame : Nat}

theorem Fills.eraseReference {entry : PTE} {storage storage' : Storage}
    (fills : Fills env frame entry storage storage') :
    Fills env frame entry.eraseReference storage storage' := by
  cases fills with
  | cleared notOnSwap => exact .cleared notOnSwap
  | pagedIn onSwap slot run => exact .pagedIn onSwap slot run

theorem pageStore_miss {heap : Heap} {page pte : Nat} {old : PTE}
    (coherent : world.Coherent env root none)
    (allocated : world.heap.Allocated heap (· = root) root page pte)
    (here : heap.pte pte = some old) (invalid : old.valid = false) :
    (world.pageStore root).Missing page old.eraseReference ∧
      ((world.setHeap heap).countMiss).pageStore root =
        (world.pageStore root).set page old.eraseReference := by
  have entryHere : ((world.setHeap heap).pageStore root).entry page = some old.eraseReference :=
    pageStore_entry allocated.leaf here
  rcases pageStore_allocated coherent.sound allocated with ⟨entry, present, same⟩ | ⟨absent, same⟩
  · rw [same, present] at entryHere
    cases entryHere
    refine ⟨.inl ⟨present, invalid⟩, ?_⟩
    have unchanged : (world.pageStore root).set page old.eraseReference = world.pageStore root := by
      rw [PageStore.set, ← present, Function.update_eq_self]
    rw [unchanged]
    exact same
  · rw [same] at entryHere
    simp only [PageStore.set, Function.update_self, Option.some.injEq] at entryHere
    exact ⟨.inr ⟨absent, entryHere.symm⟩, entryHere ▸ same⟩

theorem pageStore_afterLoad (sound : world.heap.Sound (· = root)) {page pte : Nat} {entry : PTE}
    (leaf : world.heap.leafAt root page = some pte) (here : world.heap.pte pte = some entry)
    (storage : Storage) :
    (world.afterLoad pte entry frame storage).pageStore root =
      ((world.pageStore root).set page (entry.loaded frame).eraseReference).setStorage storage := by
  have stored := pageStore_setPte sound leaf here (entry.loaded_pageTable frame)
  exact congrArg (fun store => PageStore.setStorage store storage) stored

theorem pageStore_afterAccess (sound : world.heap.Sound (· = root)) {page pte : Nat} {entry : PTE}
    (leaf : world.heap.leafAt root page = some pte) (here : world.heap.pte pte = some entry)
    (write : Bool) :
    (world.afterAccess pte entry write).pageStore root =
      (world.pageStore root).set page (entry.accessed write).eraseReference :=
  pageStore_setPte sound leaf here (entry.accessed_pageTable write)

theorem pageStore_afterEviction (coherent : world.Coherent env root none) {pte : Addr} {entry : PTE}
    (here : world.heap.pte pte = some entry) (valid : entry.valid = true) (result : Int)
    (storage : Storage) :
    ∃ victim, (world.pageStore root).entry victim = some entry.eraseReference ∧
      (world.afterEviction pte entry result storage).pageStore root =
        ((world.pageStore root).set victim
          (entry.eraseReference.pagedOut result)).setStorage storage := by
  obtain ⟨victim, leaf⟩ := coherent.leaf here valid
  have stored := pageStore_setPte coherent.sound leaf here (entry.pagedOut_pageTable result)
  exact ⟨victim, pageStore_entry leaf here,
    congrArg (fun store => PageStore.setStorage store storage) stored⟩

theorem pageStore_loaded {obtained : World policy.State} {vacated : Option Nat}
    (ready : obtained.Coherent env root vacated) {page pte : Nat} {old entry : PTE}
    (leaf : obtained.heap.leafAt root page = some pte)
    (there : obtained.heap.pte pte = some entry)
    (same : entry.eraseReference = old.eraseReference) (storage : Storage) (write : Bool) :
    ((obtained.afterLoad pte entry frame storage).afterAccess pte (entry.loaded frame)
        write).pageStore root =
      ((obtained.pageStore root).set page
        ((old.eraseReference.loaded frame).accessed write)).setStorage storage := by
  let filled := obtained.afterLoad pte entry frame storage
  have filledHere : filled.heap.pte pte = some (entry.loaded frame) := Heap.pte_setPte_self
  have filledLeaf : filled.heap.leafAt root page = some pte :=
    (leafAt_afterLoad there root page).trans leaf
  have filledSound : filled.heap.Sound (· = root) :=
    ready.sound.setPte there (entry.loaded_pageTable frame)
  rw [pageStore_afterAccess filledSound filledLeaf filledHere,
    pageStore_afterLoad ready.sound leaf there]
  have erased : ((entry.loaded frame).accessed write).eraseReference =
      (entry.eraseReference.loaded frame).accessed write := rfl
  rw [erased, same]
  exact congrArg (fun store => PageStore.setStorage store storage) PageStore.set_set

theorem Obtains.pageStore (obtains : Obtains env policy world frame after)
    (coherent : world.Coherent env root none) :
    (after.pageStore root = world.pageStore root ∧ (world.pageStore root).Unused frame ∧
      frame < env.memsize) ∨
    ∃ victim old result middle, (world.pageStore root).entry victim = some old ∧
      old.valid = true ∧ old.frameNumber = frame ∧ frame < env.memsize ∧
      (swapPageOut env frame old.swapOffset).run world.storage = .ok result middle ∧
      after.pageStore root =
        ((world.pageStore root).set victim (old.pagedOut result)).setStorage middle := by
  cases obtains with
  | free found =>
      left
      obtain ⟨-, upper, isFree, -⟩ := findFreeFrom_eq_some found
      refine ⟨rfl, ?_, by omega⟩
      intro page entry here valid number
      obtain ⟨pte, old, leaf, there, same⟩ := pageStore_entry_eq_some.mp here
      subst same
      have owner := (coherent.owner there valid).2
      have number' : old.frameNumber = frame := number
      rw [number'] at owner
      rw [owner] at isFree
      contradiction
  | @evicted state pte entry result storage found evict bound owner here valid number pageOut =>
      right
      have only : world.policyState.OnlyReference state :=
        keeps_ok (policy.evict_keeps env.memsize) evict
      let called := (world.setPolicyState state).record (.evicted (some frame))
      have same : called.pageStore root = world.pageStore root := pageStore_called only _
      have coherent' : called.Coherent env root none := (coherent.setPolicyState only).record _
      obtain ⟨victim, present, evicted⟩ :=
        pageStore_afterEviction coherent' (by exact here) valid result storage
      rw [same] at present evicted
      exact ⟨victim, entry.eraseReference, result, storage, present, valid, number, bound,
        pageOut, evicted⟩

theorem Translates.pageStep (translates : Translates env policy root access world frame after)
    (coherent : world.Coherent env root none) :
    PageStep env (pageNumber access.virtualAddress) access.type.isWrite (world.pageStore root) frame
      (after.pageStore root) := by
  cases translates with
  | @hit pte entry leaf here valid =>
      have here' : world.countHit.heap.pte pte = some entry := here
      have counted : world.countHit.heap.Sound (· = root) := coherent.sound
      rw [pageStore_afterAccess counted leaf here' access.type.isWrite]
      exact .hit (pageStore_entry leaf here) valid
  | @miss heap pte _ old entry obtained storage allocated here invalid obtains there same fills =>
      have counted : ((world.setHeap heap).countMiss).Coherent env root none :=
        (coherent.allocated allocated).setStats _
      obtain ⟨vacated, ready, -⟩ := obtains.coherent env counted
      have leaf := (obtains.leafAt env (pageNumber access.virtualAddress)).trans allocated.leaf
      obtain ⟨missing, looked⟩ := pageStore_miss coherent allocated here invalid
      have stored := @pageStore_loaded env policy root frame obtained vacated ready _ pte old entry
        leaf there same storage access.type.isWrite
      have fills' := fills.eraseReference
      rw [same] at fills'
      rw [stored]
      rcases obtains.pageStore counted with ⟨unchanged, unused, bound⟩ |
        ⟨victim, old', result, middle, present, valid, number, bound, pageOut, replaced⟩
      · have sameStorage : obtained.storage = world.storage := congrArg PageStore.storage unchanged
        rw [unchanged, looked, PageStore.set_set]
        rw [sameStorage] at fills'
        rw [looked] at unused
        refine .fill missing ?_ bound fills'
        intro page entry' here' valid
        have apart := missing.apart here' valid
        exact unused page entry' ((PageStore.set_other apart).trans here') valid
      · have sameStorage : obtained.storage = middle := congrArg PageStore.storage replaced
        rw [looked] at present replaced
        obtain ⟨apart, present⟩ := PageStore.valid_of_set present valid invalid
        have back : (obtained.pageStore root).set (pageNumber access.virtualAddress)
            ((old.eraseReference.loaded frame).accessed access.type.isWrite) =
            (((world.pageStore root).set victim (old'.pagedOut result)).set
              (pageNumber access.virtualAddress)
              ((old.eraseReference.loaded frame).accessed access.type.isWrite)).setStorage
                middle := by
          rw [replaced, PageStore.set_comm apart]
          exact congrArg (fun store => PageStore.setStorage store middle) PageStore.set_set
        rw [back]
        subst number
        rw [sameStorage] at fills'
        exact .replace missing present valid bound pageOut fills'

end Steps

end MemSim
