import Mathlib.Data.Finset.Card
import MemSim.PageStore

/-!
# Where the bytes of a page are

While no system call on the swap file fails, every page that was ever written
to swap owns a slot, and no two pages own the same one.  A page in memory has
its bytes in its frame, one on swap has them in its slot, and one in memory that
is not dirty has them in both.
-/

set_option autoImplicit false

namespace MemSim

open Exec

/-! ## Slots -/

/-- Only the given pages have entries, and the slots in use are owned by one
page each. -/
structure PageStore.Slots (pages : Finset Nat) (store : PageStore) : Prop where
  known : ∀ page entry, store.entry page = some entry → page ∈ pages
  shaped : store.storage.swapmap.Shaped
  slot : ∀ page entry, store.entry page = some entry → entry.swapOffset ≠ invalidSwap →
    ∃ idx < bitmapCapacity store.storage.swapmap.nbits,
      entry.swapOffset = (idx * 16 : Nat) ∧ store.storage.swapmap.bit idx = true ∧
        idx * 16 + 16 ≤ store.storage.file.size
  owner : ∀ idx < bitmapCapacity store.storage.swapmap.nbits,
    store.storage.swapmap.bit idx = true → ∃ page entry, store.entry page = some entry ∧
      entry.swapOffset = (idx * 16 : Nat)
  exclusive : ∀ page other entry found, store.entry page = some entry →
    store.entry other = some found → entry.swapOffset ≠ invalidSwap →
      entry.swapOffset = found.swapOffset → page = other

section Slots
variable {env : Env} {pages : Finset Nat} {store : PageStore} {page : Nat} {entry : PTE}

theorem PageStore.Slots.count (slots : store.Slots pages) (here : store.entry page = some entry)
    (without : entry.swapOffset = invalidSwap) {count : Nat}
    (bound : count ≤ bitmapCapacity store.storage.swapmap.nbits)
    (used : ∀ idx < count, store.storage.swapmap.bit idx = true) : count < pages.card := by
  have owners : ∀ idx, ∃ owner, idx < count → owner ∈ pages.erase page ∧
      ∃ found, store.entry owner = some found ∧ found.swapOffset = (idx * 16 : Nat) := by
    intro idx
    by_cases below : idx < count
    · obtain ⟨owner, found, there, offset⟩ := slots.owner idx (by omega) (used idx below)
      refine ⟨owner, fun _ => ⟨Finset.mem_erase.mpr ⟨?_, slots.known owner found there⟩,
        found, there, offset⟩⟩
      rintro rfl
      rw [here] at there
      cases there
      rw [without, invalidSwap] at offset
      omega
    · exact ⟨0, fun lower => absurd lower below⟩
  obtain ⟨owner, owns⟩ := Classical.axiomOfChoice owners
  have injective : Set.InjOn owner (Finset.range count) := by
    intro first firstIn second secondIn same
    obtain ⟨-, found, there, offset⟩ := owns first (Finset.mem_range.mp firstIn)
    obtain ⟨-, found', there', offset'⟩ := owns second (Finset.mem_range.mp secondIn)
    rw [same, there'] at there
    cases there
    rw [offset] at offset'
    omega
  have maps : Set.MapsTo owner (Finset.range count) (pages.erase page) := by
    intro idx member
    exact (owns idx (Finset.mem_range.mp member)).1
  have atMost := Finset.card_le_card_of_injOn owner maps injective
  have member := slots.known page entry here
  rw [Finset.card_range, Finset.card_erase_of_mem member] at atMost
  have positive := Finset.card_pos.mpr ⟨page, member⟩
  omega

theorem PageStore.Slots.set (slots : store.Slots pages) (member : page ∈ pages)
    (same : ∀ old, store.entry page = some old → entry.swapOffset = old.swapOffset)
    (fresh : store.entry page = none → entry.swapOffset = invalidSwap) :
    (store.set page entry).Slots pages := by
  have old : ∀ other found, (store.set page entry).entry other = some found →
      found.swapOffset ≠ invalidSwap →
        ∃ before, store.entry other = some before ∧ before.swapOffset = found.swapOffset := by
    intro other found here slot
    by_cases isPage : other = page
    · subst isPage
      rw [PageStore.set_same] at here
      cases here
      cases present : store.entry other with
      | none => exact absurd (fresh present) slot
      | some before => exact ⟨before, rfl, (same before present).symm⟩
    · rw [PageStore.set_other isPage] at here
      exact ⟨found, here, rfl⟩
  refine ⟨?_, slots.shaped, ?_, ?_, ?_⟩
  · intro other found here
    by_cases isPage : other = page
    · rw [isPage]
      exact member
    · rw [PageStore.set_other isPage] at here
      exact slots.known other found here
  · intro other found here slot
    obtain ⟨before, there, offset⟩ := old other found here slot
    rw [← offset] at slot ⊢
    exact slots.slot other before there slot
  · intro idx below used
    obtain ⟨owner, found, there, offset⟩ := slots.owner idx below used
    by_cases isPage : owner = page
    · subst isPage
      exact ⟨owner, entry, PageStore.set_same, (same found there).trans offset⟩
    · exact ⟨owner, found, (PageStore.set_other isPage).trans there, offset⟩
  · intro first second found found' here there slot sameSlot
    obtain ⟨before, here', offset⟩ := old first found here slot
    obtain ⟨before', there', offset'⟩ := old second found' there (sameSlot ▸ slot)
    exact slots.exclusive first second before before' here' there' (offset ▸ slot)
      (offset.trans (sameSlot.trans offset'.symm))

theorem PageStore.Slots.setStorage (slots : store.Slots pages) {storage : Storage}
    (sameMap : storage.swapmap = store.storage.swapmap)
    (size : store.storage.file.size ≤ storage.file.size) :
    (store.setStorage storage).Slots pages := by
  have sameMap' : (store.setStorage storage).storage.swapmap = store.storage.swapmap := sameMap
  refine ⟨slots.known, sameMap'.symm ▸ slots.shaped, ?_, ?_, slots.exclusive⟩
  · intro page entry here slot
    obtain ⟨idx, below, offset, used, inFile⟩ := slots.slot page entry here slot
    rw [sameMap']
    exact ⟨idx, below, offset, used, Nat.le_trans inFile size⟩
  · rw [sameMap']
    exact slots.owner

end Slots

/-! ## Writing a page to swap -/

section PageOut
variable {env : Env} {pages : Finset Nat} {store : PageStore} {victim : Nat} {old : PTE}

/-- What a page-out did. -/
structure PageStore.PagedOut (pages : Finset Nat) (store : PageStore) (victim : Nat) (old : PTE)
    (result : Int) (middle : Storage) : Prop where
  slots : ((store.set victim (old.pagedOut result)).setStorage middle).Slots pages
  nbits : middle.swapmap.nbits = store.storage.swapmap.nbits
  physmem : middle.physmem = store.storage.physmem
  kept : ∀ page entry, page ≠ victim → store.entry page = some entry →
    entry.swapOffset ≠ invalidSwap → ∀ byte < 16,
      middle.file.data (entry.swapOffset.toNat + byte) =
        store.storage.file.data (entry.swapOffset.toNat + byte)
  stored : result ≠ invalidSwap → ∀ byte < 16,
    middle.file.data (result.toNat + byte) =
      store.storage.physmem (swapFrameIndex old.frameNumber + byte)
  again : old.swapOffset ≠ invalidSwap → result = old.swapOffset ∧
    middle.swapmap = store.storage.swapmap
  lost : result = invalidSwap → bitmapCapacity store.storage.swapmap.nbits < pages.card

theorem writeOk_of_succeeds (succeeds : ∀ call, env.io call = .success) {storage : Storage}
    {offset : Nat} : storage.writeOk env (offset : Int) = true := by
  simp [Storage.writeOk, succeeds, IoOutcome.proceeds, IoOutcome.whole]

theorem PageStore.Slots.unowned (slots : store.Slots pages) {idx : Nat}
    (isClear : store.storage.swapmap.bit idx = false) {page : Nat} {entry : PTE}
    (there : store.entry page = some entry) : entry.swapOffset ≠ (idx * 16 : Nat) := by
  intro offset
  have slot : entry.swapOffset ≠ invalidSwap := by
    rw [offset, invalidSwap]
    omega
  obtain ⟨idx', -, offset', used', -⟩ := slots.slot page entry there slot
  rw [offset] at offset'
  have sameIdx : idx' = idx := by omega
  rw [sameIdx, isClear] at used'
  contradiction

theorem PageStore.Slots.outside (slots : store.Slots pages) {page idx : Nat} {entry : PTE}
    (there : store.entry page = some entry) (slot : entry.swapOffset ≠ invalidSwap)
    (different : entry.swapOffset ≠ (idx * 16 : Nat)) {byte : Nat} (bound : byte < 16) :
    ¬ (idx * 16 ≤ entry.swapOffset.toNat + byte ∧
      entry.swapOffset.toNat + byte < idx * 16 + 16) := by
  obtain ⟨idx', -, offset', -, -⟩ := slots.slot page entry there slot
  rw [offset'] at different ⊢
  simp only [Int.toNat_natCast]
  omega

theorem PageStore.Slots.take (slots : store.Slots pages) (here : store.entry victim = some old)
    (without : old.swapOffset = invalidSwap) {idx : Nat}
    (below : idx < bitmapCapacity store.storage.swapmap.nbits)
    (isClear : store.storage.swapmap.bit idx = false) {middle : Storage}
    (sameMap : middle.swapmap = store.storage.swapmap.setBit idx)
    (size : store.storage.file.size ≤ middle.file.size)
    (sized : idx * 16 + 16 ≤ middle.file.size) :
    ((store.set victim (old.pagedOut (idx * 16 : Nat))).setStorage middle).Slots pages := by
  have inside := Nat.lt_of_lt_of_le below slots.shaped.capacity_le
  have bit : ∀ other, middle.swapmap.bit other =
      (decide (other = idx) || store.storage.swapmap.bit other) := by
    intro other
    rw [sameMap]
    exact Bitmap.bit_setBit inside other
  have nbits : middle.swapmap.nbits = store.storage.swapmap.nbits := by
    rw [sameMap]
    rfl
  have entries : ∀ {page entry}, (store.set victim (old.pagedOut (idx * 16 : Nat))).entry page =
      some entry → (page = victim ∧ entry.swapOffset = (idx * 16 : Nat)) ∨
        page ≠ victim ∧ store.entry page = some entry := by
    intro page entry present
    by_cases isVictim : page = victim
    · subst isVictim
      rw [PageStore.set_same] at present
      cases present
      exact .inl ⟨rfl, rfl⟩
    · exact .inr ⟨isVictim, (PageStore.set_other isVictim).symm.trans present⟩
  refine ⟨?_, ?_, ?_, ?_, ?_⟩
  · intro page entry present
    rcases entries present with ⟨isVictim, -⟩ | ⟨-, there⟩
    · rw [isVictim]
      exact slots.known victim old here
    · exact slots.known page entry there
  · have shaped := slots.shaped.setBit inside
    rw [← sameMap] at shaped
    exact shaped
  · intro page entry present slot
    simp only [PageStore.setStorage, nbits]
    rcases entries present with ⟨-, offset⟩ | ⟨-, there⟩
    · exact ⟨idx, below, offset, by simp [bit], sized⟩
    · obtain ⟨idx', below', offset', used', inFile'⟩ := slots.slot page entry there slot
      exact ⟨idx', below', offset', by simp [bit, used'], Nat.le_trans inFile' size⟩
  · intro other otherBelow used
    simp only [PageStore.setStorage, nbits] at otherBelow
    by_cases isNew : other = idx
    · subst isNew
      exact ⟨victim, old.pagedOut _, PageStore.set_same, rfl⟩
    · have used' : store.storage.swapmap.bit other = true := by
        have changed := bit other
        simp only [isNew, decide_false, Bool.false_or] at changed
        rw [← changed]
        exact used
      obtain ⟨page, entry, there, offset⟩ := slots.owner other otherBelow used'
      have isOther : page ≠ victim := by
        rintro rfl
        rw [here] at there
        cases there
        rw [without, invalidSwap] at offset
        omega
      exact ⟨page, entry, (PageStore.set_other isOther).trans there, offset⟩
  · intro first second found found' present present' slot sameSlot
    rcases entries present with ⟨isFirst, offset⟩ | ⟨-, there⟩
    · rcases entries present' with ⟨isSecond, -⟩ | ⟨-, there'⟩
      · rw [isFirst, isSecond]
      · exact absurd (sameSlot.symm.trans offset) (slots.unowned isClear there')
    · rcases entries present' with ⟨-, offset⟩ | ⟨-, there'⟩
      · exact absurd (sameSlot.trans offset) (slots.unowned isClear there)
      · exact slots.exclusive first second found found' there there' slot sameSlot

theorem PageStore.Slots.pageOut (slots : store.Slots pages)
    (succeeds : ∀ call, env.io call = .success) (few : pages.card ≤ 2 ^ 36)
    (here : store.entry victim = some old) (bound : old.frameNumber < env.memsize) {result : Int}
    {middle : Storage}
    (run : (swapPageOut env old.frameNumber old.swapOffset).run store.storage =
      .ok result middle) : store.PagedOut pages victim old result middle := by
  have member := slots.known victim old here
  have rewritten : result = old.swapOffset →
      (store.set victim (old.pagedOut result)).Slots pages := by
    intro same
    apply slots.set member
    · intro before present
      rw [here] at present
      cases present
      exact same
    · intro absent
      rw [here] at absent
      contradiction
  rcases swapPageOut_spec slots.shaped bound old.swapOffset with
    ⟨without, full, run'⟩ |
    ⟨slot, swapmap, result', after, chosen, run', written, value⟩
  · rw [run'] at run
    cases run
    have used := Bitmap.firstClear_eq_none.mp full
    refine
      { slots := rewritten without.symm
        nbits := rfl
        physmem := rfl
        kept := fun _ _ _ _ _ _ _ => rfl
        stored := fun valid => absurd rfl valid
        again := fun slot => absurd without slot
        lost := fun _ => ?_ }
    apply slots.count here without (Nat.le_refl _)
    intro idx below
    exact used idx (Nat.lt_of_lt_of_le below slots.shaped.capacity_le)
  · rw [run'] at run
    cases run
    rcases chosen with ⟨hasSlot, same, sameMap⟩ | ⟨without, idx, below, clear, same, sameMap⟩
    · subst same sameMap
      obtain ⟨idx, -, offset, -, -⟩ := slots.slot victim old here hasSlot
      have ok : result = old.swapOffset := by
        rw [value, offset, writeOk_of_succeeds succeeds, if_pos rfl]
      have valid : result ≠ invalidSwap := ok ▸ hasSlot
      have written' : store.storage.PageWritten middle (swapFrameIndex old.frameNumber)
          old.swapOffset.toNat result := written
      refine
        { slots := (rewritten ok).setStorage (by exact written'.swapmap) (by exact written'.size)
          nbits := by rw [written'.swapmap]
          physmem := written'.physmem
          kept := ?_
          stored := fun _ byte byteBound => ok ▸ (written'.stored valid).2 byte byteBound
          again := fun _ => ⟨ok, written'.swapmap⟩
          lost := fun isLost => absurd isLost valid }
      intro page entry apart there slot byte byteBound
      apply written'.outside
      have different : entry.swapOffset ≠ (idx * 16 : Nat) := by
        intro sameSlot
        exact apart (slots.exclusive page victim entry old there here slot
          (sameSlot.trans offset.symm))
      rw [offset]
      exact slots.outside there slot different byteBound
    · obtain ⟨-, isClear, before⟩ := Bitmap.firstClear_eq_some.mp clear
      have small : idx < pages.card := slots.count here without (Nat.le_of_lt below) before
      have slotHere : slot = (idx * 16 : Nat) := same.trans (slotOffset_small (by omega))
      subst slotHere sameMap
      have ok : result = (idx * 16 : Nat) := by
        rw [value, writeOk_of_succeeds succeeds, if_pos rfl]
      subst ok
      have valid : ((idx * 16 : Nat) : Int) ≠ invalidSwap := by
        rw [invalidSwap]
        omega
      refine
        { slots := slots.take here without below isClear written.swapmap written.size
            (written.stored valid).1
          nbits := by rw [written.swapmap]; rfl
          physmem := written.physmem
          kept := ?_
          stored := fun _ byte byteBound => (written.stored valid).2 byte byteBound
          again := fun slot => absurd without slot
          lost := fun isLost => absurd isLost valid }
      intro page entry apart there slot byte byteBound
      exact written.outside _ (slots.outside there slot (slots.unowned isClear there) byteBound)

end PageOut

end MemSim
