import MemSim.Backing

/-!
# What the bytes of a page are

The contents of all pages, and where each step of a translation keeps them: a
page in memory has its bytes in its frame, one that was written to swap has them
in its slot, and one in memory that is not dirty has them in both.  A page that
was never loaded is all zeros.
-/

set_option autoImplicit false

namespace MemSim

open Exec

/-! ## Frames -/

/-- Pages in memory have frames of their own. -/
structure PageStore.Framed (env : Env) (store : PageStore) : Prop where
  bound : ∀ page entry, store.entry page = some entry → entry.valid = true →
    entry.frameNumber < env.memsize
  apart : ∀ page other entry found, store.entry page = some entry →
    store.entry other = some found → entry.valid = true → found.valid = true →
      entry.frameNumber = found.frameNumber → page = other

theorem World.Coherent.framed {σ : Type} {env : Env} {root : Addr} {world : World σ}
    (coherent : world.Coherent env root none) : (world.pageStore root).Framed env where
  bound := by
    intro page entry here valid
    obtain ⟨pte, old, -, there, same⟩ := pageStore_entry_eq_some.mp here
    subst same
    exact (coherent.owner there valid).1
  apart := by
    intro page other entry found here there valid valid' sameFrame
    obtain ⟨pte, old, leaf, present, same⟩ := pageStore_entry_eq_some.mp here
    obtain ⟨pte', old', leaf', present', same'⟩ := pageStore_entry_eq_some.mp there
    subst same same'
    have owner := (coherent.owner present valid).2
    have owner' := (coherent.owner present' valid').2
    have sameFrame' : old.frameNumber = old'.frameNumber := sameFrame
    rw [sameFrame', owner'] at owner
    cases owner
    exact (coherent.sound.leafAt_inj rfl rfl leaf leaf').2

/-! ## Contents -/

abbrev Contents : Type := Nat → Nat → UInt8

/-- The storage holds the contents of the pages. -/
structure PageStore.Holds (contents : Contents) (store : PageStore) : Prop where
  inFrame : ∀ page entry, store.entry page = some entry → entry.valid = true → ∀ byte < 16,
    store.storage.physmem (entry.frameNumber * 16 + byte) = contents page byte
  inSlot : ∀ page entry, store.entry page = some entry → entry.valid = false →
    entry.onSwap = true → entry.swapOffset ≠ invalidSwap → ∀ byte < 16,
      store.storage.file.data (entry.swapOffset.toNat + byte) = contents page byte
  clean : ∀ page entry, store.entry page = some entry → entry.valid = true →
    entry.dirty = false → entry.swapOffset ≠ invalidSwap ∧ ∀ byte < 16,
      store.storage.file.data (entry.swapOffset.toNat + byte) = contents page byte
  zero : ∀ page, (∀ entry, store.entry page = some entry →
    entry.valid = false ∧ entry.onSwap = false) → ∀ byte < 16, contents page byte = 0

section Steps
variable {env : Env} {pages : Finset Nat} {contents : Contents} {store : PageStore}
  {page frame : Nat} {entry : PTE} {write : Bool} {storage : Storage}

theorem PageStore.set_eq_some {other : Nat} {found : PTE} :
    (store.set page entry).entry other = some found ↔
      other = page ∧ entry = found ∨ other ≠ page ∧ store.entry other = some found := by
  by_cases same : other = page
  · subst same
    simp [PageStore.set_same]
  · simp [same, PageStore.set_other same]

theorem PageStore.Holds.accessed (holds : store.Holds contents)
    (here : store.entry page = some entry) (valid : entry.valid = true) :
    (store.set page (entry.accessed write)).Holds contents where
  inFrame := by
    intro other found present valid' byte bound
    rcases PageStore.set_eq_some.mp present with ⟨rfl, rfl⟩ | ⟨-, present⟩
    · exact holds.inFrame other entry here valid byte bound
    · exact holds.inFrame other found present valid' byte bound
  inSlot := by
    intro other found present invalid onSwap slot byte bound
    rcases PageStore.set_eq_some.mp present with ⟨rfl, rfl⟩ | ⟨-, present⟩
    · rw [PTE.accessed_valid, valid] at invalid
      contradiction
    · exact holds.inSlot other found present invalid onSwap slot byte bound
  clean := by
    intro other found present valid' isClean
    rcases PageStore.set_eq_some.mp present with ⟨rfl, rfl⟩ | ⟨-, present⟩
    · have wasClean : entry.dirty = false := (Bool.or_eq_false_iff.mp isClean).2
      exact holds.clean other entry here valid wasClean
    · exact holds.clean other found present valid' isClean
  zero := by
    intro other unseen byte bound
    apply holds.zero other _ byte bound
    intro found present
    by_cases same : other = page
    · subst same
      have loaded := (unseen _ PageStore.set_same).1
      rw [PTE.accessed_valid, valid] at loaded
      contradiction
    · exact unseen found ((PageStore.set_other same).trans present)

theorem PageStore.Holds.pagedOut (holds : store.Holds contents) (framed : store.Framed env)
    (small : env.memsize ≤ 2 ^ 28) {old : PTE} (here : store.entry page = some old)
    (valid : old.valid = true) {result : Int}
    (out : store.PagedOut pages page old result storage) :
    ((store.set page (old.pagedOut result)).setStorage storage).Holds contents where
  inFrame := by
    intro other found present valid' byte bound
    simp only [PageStore.setStorage, out.physmem]
    rcases PageStore.set_eq_some.mp present with ⟨-, rfl⟩ | ⟨-, present⟩
    · contradiction
    · exact holds.inFrame other found present valid' byte bound
  inSlot := by
    intro other found present invalid onSwap slot byte bound
    rcases PageStore.set_eq_some.mp present with ⟨rfl, rfl⟩ | ⟨apart, present⟩
    · have inRange := framed.bound other old here valid
      have index := @swapFrameIndex_small old.frameNumber (by omega)
      have stored := out.stored slot byte bound
      rw [index] at stored
      exact stored.trans (holds.inFrame other old here valid byte bound)
    · exact (out.kept other found apart present slot byte bound).trans
        (holds.inSlot other found present invalid onSwap slot byte bound)
  clean := by
    intro other found present valid' isClean
    rcases PageStore.set_eq_some.mp present with ⟨-, rfl⟩ | ⟨apart, present⟩
    · contradiction
    · obtain ⟨slot, same⟩ := holds.clean other found present valid' isClean
      refine ⟨slot, fun byte bound => ?_⟩
      exact (out.kept other found apart present slot byte bound).trans (same byte bound)
  zero := by
    intro other unseen byte bound
    apply holds.zero other _ byte bound
    intro found present
    by_cases same : other = page
    · subst same
      have swapped := (unseen _ PageStore.set_same).2
      contradiction
    · exact unseen found ((PageStore.set_other same).trans present)

/-- The bytes of a page that is loaded into a frame. -/
structure PageStore.Filled (contents : Contents) (store : PageStore) (page frame : Nat)
    (entry : PTE) (storage : Storage) : Prop where
  file : storage.file.data = store.storage.file.data
  size : storage.file.size = store.storage.file.size
  swapmap : storage.swapmap = store.storage.swapmap
  outside : ∀ index, ¬ (frame * 16 ≤ index ∧ index < frame * 16 + 16) →
    storage.physmem index = store.storage.physmem index
  inside : ∀ byte < 16, storage.physmem (frame * 16 + byte) = contents page byte
  clean : (!entry.onSwap || entry.dirty) = false → entry.swapOffset ≠ invalidSwap ∧
    ∀ byte < 16, store.storage.file.data (entry.swapOffset.toNat + byte) = contents page byte

theorem PageStore.Holds.filled (holds : store.Holds contents) (slots : store.Slots pages)
    (succeeds : ∀ call, env.io call = .success) (small : env.memsize ≤ 2 ^ 28)
    (bound : frame < env.memsize) (missing : store.Missing page entry)
    (fills : Fills env frame entry store.storage storage) :
    store.Filled contents page frame entry storage := by
  cases fills with
  | cleared notOnSwap =>
      have isZero : ∀ byte < 16, contents page byte = 0 := by
        apply holds.zero
        intro found present
        rcases missing with ⟨there, invalid⟩ | ⟨absent, -⟩
        · rw [present] at there
          cases there
          exact ⟨invalid, notOnSwap⟩
        · rw [present] at absent
          contradiction
      refine ⟨rfl, rfl, rfl, ?_, ?_, ?_⟩
      · intro index outside
        simp only [simulatedFrameSize_eq]
        exact overwrite_outside outside
      · intro byte byteBound
        simp only [simulatedFrameSize_eq]
        rw [overwrite_inside byteBound, isZero byte byteBound]
      · simp [notOnSwap]
  | @pagedIn result after onSwap slot pageIn =>
      obtain ⟨there, invalid⟩ : store.entry page = some entry ∧ entry.valid = false := by
        rcases missing with there | ⟨-, rfl⟩
        · exact there
        · contradiction
      obtain ⟨idx, -, offset, -, inFile⟩ := slots.slot page entry there slot
      have index := @swapFrameIndex_small frame (by omega)
      have loads := @swapPageIn_loads env store.storage succeeds frame bound (idx * 16) inFile
      rw [offset, loads] at pageIn
      cases pageIn
      have here := holds.inSlot page entry there invalid onSwap slot
      refine ⟨rfl, rfl, rfl, ?_, ?_, fun _ => ⟨slot, here⟩⟩
      · intro other outside
        dsimp only
        rw [index]
        exact overwrite_outside outside
      · intro byte byteBound
        have same := here byte byteBound
        rw [offset, Int.toNat_natCast] at same
        dsimp only
        rw [index, simulatedFrameSize_eq, overwrite_inside byteBound, same]

theorem PageStore.Holds.fill (holds : store.Holds contents) (unused : store.Unused frame)
    (filled : store.Filled contents page frame entry storage) :
    ((store.set page ((entry.loaded frame).accessed write)).setStorage storage).Holds
      contents where
  inFrame := by
    intro other found present valid byte bound
    rcases PageStore.set_eq_some.mp present with ⟨rfl, rfl⟩ | ⟨-, present⟩
    · exact filled.inside byte bound
    · have elsewhere := unused other found present valid
      refine (filled.outside _ ?_).trans (holds.inFrame other found present valid byte bound)
      omega
  inSlot := by
    intro other found present invalid onSwap slot byte bound
    rcases PageStore.set_eq_some.mp present with ⟨-, rfl⟩ | ⟨-, present⟩
    · contradiction
    · simp only [PageStore.setStorage, filled.file]
      exact holds.inSlot other found present invalid onSwap slot byte bound
  clean := by
    intro other found present valid isClean
    simp only [PageStore.setStorage, filled.file]
    rcases PageStore.set_eq_some.mp present with ⟨rfl, rfl⟩ | ⟨-, present⟩
    · exact filled.clean (Bool.or_eq_false_iff.mp isClean).2
    · exact holds.clean other found present valid isClean
  zero := by
    intro other unseen byte bound
    apply holds.zero other _ byte bound
    intro found present
    by_cases same : other = page
    · subst same
      have loaded := (unseen _ PageStore.set_same).1
      contradiction
    · exact unseen found ((PageStore.set_other same).trans present)

theorem PageStore.Slots.fill (slots : store.Slots pages) (member : page ∈ pages)
    (missing : store.Missing page entry) (bound : frame < env.memsize)
    (fills : Fills env frame entry store.storage storage) :
    ((store.set page ((entry.loaded frame).accessed write)).setStorage storage).Slots pages := by
  have kept : storage.swapmap = store.storage.swapmap ∧
      storage.file.size = store.storage.file.size := by
    cases fills with
    | cleared notOnSwap => exact ⟨rfl, rfl⟩
    | pagedIn onSwap slot pageIn =>
        obtain ⟨result, after, run, loaded⟩ := @swapPageIn_spec env store.storage frame bound _ slot
        cases run.symm.trans pageIn
        exact ⟨loaded.swapmap, loaded.size⟩
  have written : (store.set page ((entry.loaded frame).accessed write)).Slots pages := by
    apply slots.set member
    · intro old present
      rcases missing with ⟨there, -⟩ | ⟨absent, -⟩
      · rw [present] at there
        cases there
        rfl
      · rw [present] at absent
        contradiction
    · intro absent
      rcases missing with ⟨there, -⟩ | ⟨-, rfl⟩
      · rw [absent] at there
        contradiction
      · rfl
  exact written.setStorage kept.1 (Nat.le_of_eq kept.2.symm)

theorem PageStore.Framed.unused (framed : store.Framed env) {old : PTE}
    (here : store.entry page = some old) (valid : old.valid = true) (result : Int) :
    ((store.set page (old.pagedOut result)).setStorage storage).Unused old.frameNumber := by
  intro other found present valid' sameFrame
  rcases PageStore.set_eq_some.mp present with ⟨-, rfl⟩ | ⟨apart, present⟩
  · contradiction
  · exact apart (framed.apart other page found old present here valid' valid sameFrame)

theorem PageStore.Missing.pagedOut {victim : Nat} {old : PTE} (missing : store.Missing page entry)
    (here : store.entry victim = some old) (valid : old.valid = true) (result : Int) :
    ((store.set victim (old.pagedOut result)).setStorage storage).Missing page entry := by
  have apart := missing.apart here valid
  have same : ((store.set victim (old.pagedOut result)).setStorage storage).entry page =
      store.entry page := PageStore.set_other apart.symm
  rw [PageStore.Missing, same]
  exact missing

variable {after : PageStore}

theorem PageStep.slots (step : PageStep env page write store frame after)
    (slots : store.Slots pages) (succeeds : ∀ call, env.io call = .success)
    (few : pages.card ≤ 2 ^ 36) (member : page ∈ pages) :
    after.Slots pages ∧ after.storage.swapmap.nbits = store.storage.swapmap.nbits := by
  have nbits : ∀ {before : Storage} {entry : PTE} {frame : Nat} {storage : Storage},
      frame < env.memsize → Fills env frame entry before storage →
        storage.swapmap.nbits = before.swapmap.nbits := by
    intro before entry frame storage bound fills
    rw [fills.swapmap bound]
  cases step with
  | @hit entry here valid =>
      refine ⟨slots.set member ?_ ?_, rfl⟩
      · intro old present
        rw [here] at present
        cases present
        rfl
      · intro absent
        rw [here] at absent
        contradiction
  | fill missing unused bound fills =>
      exact ⟨slots.fill member missing bound fills, nbits bound fills⟩
  | replace missing here valid bound pageOut fills =>
      have out := slots.pageOut succeeds few here bound pageOut
      exact ⟨out.slots.fill member (missing.pagedOut here valid _) bound fills,
        (nbits bound fills).trans out.nbits⟩

theorem PageStep.holds (step : PageStep env page write store frame after)
    (slots : store.Slots pages) (holds : store.Holds contents)
    (succeeds : ∀ call, env.io call = .success) (few : pages.card ≤ 2 ^ 36)
    (small : env.memsize ≤ 2 ^ 28) (framed : store.Framed env) : after.Holds contents := by
  cases step with
  | hit here valid => exact holds.accessed here valid
  | fill missing unused bound fills =>
      exact holds.fill unused (holds.filled slots succeeds small bound missing fills)
  | @replace entry old victim result middle storage missing here valid bound pageOut fills =>
      have out := slots.pageOut succeeds few here bound pageOut
      have holds' := holds.pagedOut framed small here valid out
      have missing' : ((store.set victim (old.pagedOut result)).setStorage middle).Missing page
          entry := missing.pagedOut here valid result
      exact holds'.fill (framed.unused here valid result)
        (holds'.filled out.slots succeeds small bound missing' fills)

end Steps

end MemSim
