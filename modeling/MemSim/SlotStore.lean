import Mathlib.Data.Finset.Card
import MemSim.SimulationRun

/-!
# The swap space as a store of slots

Pages are written out and read back in any order, while physical memory changes
between the calls.  A page-out without a slot gets one that was never handed out,
until none is left, and a page-in finds the bytes of the latest page-out to the
slot.
-/

set_option autoImplicit false

namespace MemSim

open Exec

/-! ## Histories of page-outs -/

/-- A call of `CSC369_SwapPageOut` that returned, with the page it was to write. -/
structure PageOutCall where
  offset : Int
  page : Nat → UInt8
  result : Int

def returnedOffsets (history : List PageOutCall) : List Int :=
  (history.map PageOutCall.result).filter (· ≠ invalidSwap)

/-- The offsets returned by the calls that asked for a slot. -/
def handedOut (history : List PageOutCall) : List Int :=
  returnedOffsets (history.filter fun call => call.offset = invalidSwap)

def latestPage (offset : Int) (history : List PageOutCall) : Option (Nat → UInt8) :=
  (history.find? fun call => call.result = offset).map PageOutCall.page

def Storage.page (storage : Storage) (frame : Nat) : Nat → UInt8 :=
  fun byte => storage.physmem (frame * simulatedFrameSize + byte)

/-- Page-outs and page-ins in any order, with the page-outs so far, the latest
first.  An offset that is passed was returned before. -/
inductive SwapRun (env : Env) (start : Storage) : List PageOutCall → Storage → Prop where
  | start : SwapRun env start [] start
  | pageOut {history : List PageOutCall} {before after : Storage} {frame : Nat}
      {offset result : Int} :
      SwapRun env start history before → frame < env.memsize → frame < 2 ^ 28 →
      offset = invalidSwap ∨ offset ∈ returnedOffsets history →
      (swapPageOut env frame offset).run before = .ok result after →
      SwapRun env start (⟨offset, before.page frame, result⟩ :: history) after
  | pageIn {history : List PageOutCall} {before after : Storage} {frame : Nat}
      {offset result : Int} :
      SwapRun env start history before → frame < env.memsize → frame < 2 ^ 28 →
      offset ∈ returnedOffsets history →
      (swapPageIn env frame offset).run before = .ok result after →
      SwapRun env start history after
  | change {history : List PageOutCall} {before : Storage} (physmem : Nat → UInt8) :
      SwapRun env start history before →
      SwapRun env start history { before with physmem := physmem }

section Histories
variable {history : List PageOutCall} {call : PageOutCall}

theorem mem_returnedOffsets {offset : Int} :
    offset ∈ returnedOffsets history ↔
      (∃ call ∈ history, call.result = offset) ∧ offset ≠ invalidSwap := by
  simp [returnedOffsets]

theorem returnedOffsets_cons (valid : call.result ≠ invalidSwap) :
    returnedOffsets (call :: history) = call.result :: returnedOffsets history := by
  simp [returnedOffsets, valid]

theorem returnedOffsets_cons_invalid (failed : call.result = invalidSwap) :
    returnedOffsets (call :: history) = returnedOffsets history := by
  simp [returnedOffsets, failed]

theorem handedOut_cons_new (asked : call.offset = invalidSwap)
    (valid : call.result ≠ invalidSwap) :
    handedOut (call :: history) = call.result :: handedOut history := by
  simp [handedOut, returnedOffsets, asked, valid]

theorem handedOut_cons_old (had : call.offset ≠ invalidSwap) :
    handedOut (call :: history) = handedOut history := by
  simp [handedOut, had]

theorem latestPage_same : latestPage call.result (call :: history) = some call.page := by
  simp [latestPage]

theorem latestPage_other {offset : Int} (apart : call.result ≠ offset) :
    latestPage offset (call :: history) = latestPage offset history := by
  simp [latestPage, apart]

end Histories

/-! ## The slots between calls -/

/-- The slots handed out are those whose bits are set, and each holds the page written
to it last. -/
structure SlotStore (size : Nat) (history : List PageOutCall) (storage : Storage) : Prop where
  shaped : storage.swapmap.Shaped
  nbits : storage.swapmap.nbits = size
  slots : ∃ indices : List Nat, indices.Nodup ∧
    (∀ idx, idx ∈ indices ↔ idx < size ∧ storage.swapmap.bit idx = true) ∧
    handedOut history = indices.map fun idx => ((idx * 16 : Nat) : Int)
  handed : ∀ offset ∈ returnedOffsets history, offset ∈ handedOut history
  stored : ∀ offset ∈ handedOut history, offset.toNat + 16 ≤ storage.file.size ∧
    ∃ page, latestPage offset history = some page ∧
      ∀ byte < 16, storage.file.data (offset.toNat + byte) = page byte

section Store
variable {env : Env} {size : Nat} {history : List PageOutCall} {storage : Storage}

theorem SlotStore.changed (store : SlotStore size history storage) {after : Storage}
    (swapmap : after.swapmap = storage.swapmap) (data : after.file.data = storage.file.data)
    (fileSize : after.file.size = storage.file.size) : SlotStore size history after := by
  refine ⟨?_, ?_, ?_, store.handed, ?_⟩
  · rw [swapmap]
    exact store.shaped
  · rw [swapmap]
    exact store.nbits
  · rw [swapmap]
    exact store.slots
  · rw [data, fileSize]
    exact store.stored

theorem SlotStore.index (store : SlotStore size history storage) {offset : Int}
    (handed : offset ∈ handedOut history) :
    ∃ idx < size, offset = (idx * 16 : Nat) ∧ storage.swapmap.bit idx = true := by
  obtain ⟨indices, -, bits, same⟩ := store.slots
  rw [same] at handed
  obtain ⟨idx, member, rfl⟩ := List.mem_map.mp handed
  obtain ⟨bound, used⟩ := (bits idx).mp member
  exact ⟨idx, bound, rfl, used⟩

theorem SlotStore.full_iff (store : SlotStore size history storage) (fits : size ≤ 2 ^ 64 - 64) :
    storage.swapmap.firstClear = none ↔ (handedOut history).length = size := by
  obtain ⟨indices, nodup, bits, same⟩ := store.slots
  have capacity : size ≤ 64 * storage.swapmap.words.length := by
    have room := store.shaped.capacity_le
    rwa [store.nbits, bitmapCapacity_fits fits] at room
  have subset : indices.toFinset ⊆ Finset.range size := by
    intro idx member
    exact Finset.mem_range.mpr ((bits idx).mp (List.mem_toFinset.mp member)).1
  have count : indices.toFinset.card = (handedOut history).length := by
    rw [List.toFinset_card_of_nodup nodup, same, List.length_map]
  rw [Bitmap.firstClear_eq_none, ← count]
  constructor
  · intro full
    have all : Finset.range size ⊆ indices.toFinset := by
      intro idx member
      have bound := Finset.mem_range.mp member
      exact List.mem_toFinset.mpr ((bits idx).mpr ⟨bound, full idx (by omega)⟩)
    rw [Finset.Subset.antisymm subset all, Finset.card_range]
  · intro all idx inside
    have equal : indices.toFinset = Finset.range size := by
      apply Finset.eq_of_subset_of_card_le subset
      rw [all, Finset.card_range]
    by_cases bound : idx < size
    · have member : idx ∈ indices.toFinset := by
        rw [equal]
        exact Finset.mem_range.mpr bound
      exact ((bits idx).mp (List.mem_toFinset.mp member)).2
    · apply store.shaped.padding idx _ inside
      rw [store.nbits, bitmapCapacity_fits fits]
      omega

/-! ## What the calls do to the store -/

def Storage.written (storage : Storage) (frame idx : Nat) : Storage :=
  { storage with
    calls := storage.calls + 1 + 1
    file := (storage.file.seek (idx * 16)).write 16 (storage.page frame) }

theorem Storage.written_same (frame idx : Nat) {byte : Nat} (bound : byte < 16) :
    (storage.written frame idx).file.data (idx * 16 + byte) = storage.page frame byte :=
  overwrite_inside bound

theorem Storage.written_other (frame : Nat) {idx other byte : Nat} (apart : other ≠ idx)
    (bound : byte < 16) :
    (storage.written frame idx).file.data (other * 16 + byte) =
      storage.file.data (other * 16 + byte) := by
  apply overwrite_outside
  simp only [SwapFile.seek]
  omega

theorem Storage.written_size (frame idx : Nat) :
    (storage.written frame idx).file.size = max storage.file.size (idx * 16 + 16) := rfl

section Runs
variable (succeeds : ∀ call, env.io call = .success) {frame : Nat}
  (inMemory : frame < env.memsize) (small : frame < 2 ^ 28)
include succeeds inMemory small

theorem run_swapWritePage_slot (idx : Nat) :
    (swapWritePage env frame ((idx * 16 : Nat) : Int)).run storage =
      .ok ((idx * 16 : Nat) : Int) (storage.written frame idx) := by
  have slot : ((idx * 16 : Nat) : Int) ≠ invalidSwap := by
    rw [invalidSwap]
    omega
  have natural : ¬ ((idx * 16 : Nat) : Int) < 0 := by omega
  have index := swapFrameIndex_small small
  have inRange : swapFrameIndex frame + 16 ≤ env.memsize * 16 := by
    rw [index, simulatedFrameSize_eq]
    omega
  rw [run_swapWritePage_succeeds succeeds frame slot, if_neg natural, if_pos inRange, index]
  rfl

theorem SlotStore.run_pageOut_again (store : SlotStore size history storage) {offset : Int}
    (handed : offset ∈ handedOut history) :
    ∃ idx < size, offset = (idx * 16 : Nat) ∧
      (swapPageOut env frame offset).run storage = .ok offset (storage.written frame idx) := by
  obtain ⟨idx, bound, rfl, -⟩ := store.index handed
  have slot : ((idx * 16 : Nat) : Int) ≠ invalidSwap := by
    rw [invalidSwap]
    omega
  refine ⟨idx, bound, rfl, ?_⟩
  rw [swapPageOut, if_neg slot]
  exact run_swapWritePage_slot succeeds inMemory small idx

theorem SlotStore.run_pageOut_new (store : SlotStore size history storage)
    (fits : size ≤ 2 ^ 59) :
    ((handedOut history).length = size ∧
      (swapPageOut env frame invalidSwap).run storage = .ok invalidSwap storage) ∨
    ((handedOut history).length ≠ size ∧
      ∃ idx < size, storage.swapmap.bit idx = false ∧
        ((idx * 16 : Nat) : Int) ∉ handedOut history ∧
        (swapPageOut env frame invalidSwap).run storage = .ok ((idx * 16 : Nat) : Int)
          ((storage.setSwapmap (storage.swapmap.setBit idx)).written frame idx)) := by
  have full := store.full_iff (by omega)
  simp only [swapPageOut, if_true, EStateM.run_bind, run_onPart]
  rcases bitmapAlloc_spec store.shaped with ⟨idx, below, first, alloc⟩ | ⟨none', alloc⟩
  · right
    rw [store.nbits, bitmapCapacity_fits (by omega)] at below
    obtain ⟨-, clear, -⟩ := Bitmap.firstClear_eq_some.mp first
    have slot := @slotOffset_small idx (by omega)
    refine ⟨fun all => ?_, idx, below, clear, fun handed => ?_, ?_⟩
    · rw [full.mpr all] at first
      contradiction
    · obtain ⟨other, -, same, used⟩ := store.index handed
      obtain rfl : idx = other := by omega
      exact Bool.false_ne_true (clear.symm.trans used)
    · simp only [alloc, slot]
      exact run_swapWritePage_slot succeeds inMemory small idx
  · left
    refine ⟨full.mp none', ?_⟩
    simp only [alloc]
    rfl

theorem SlotStore.run_pageIn (store : SlotStore size history storage) {offset : Int}
    (handed : offset ∈ handedOut history) :
    ∃ after page, latestPage offset history = some page ∧
      (swapPageIn env frame offset).run storage = .ok 0 after ∧
      (∀ byte < 16, after.page frame byte = page byte) ∧
      (∀ index, ¬ (frame * 16 ≤ index ∧ index < frame * 16 + 16) →
        after.physmem index = storage.physmem index) ∧
      after.swapmap = storage.swapmap ∧ after.file.data = storage.file.data ∧
      after.file.size = storage.file.size := by
  obtain ⟨inFile, page, latest, stored⟩ := store.stored offset handed
  obtain ⟨idx, -, rfl, -⟩ := store.index handed
  rw [Int.toNat_natCast] at inFile stored
  have index := swapFrameIndex_small small
  rw [simulatedFrameSize_eq] at index
  refine ⟨_, page, latest, swapPageIn_loads succeeds inMemory inFile, ?_, ?_, rfl, rfl, rfl⟩
  · intro byte bound
    rw [← stored byte bound]
    simp only [Storage.page, index, simulatedFrameSize_eq]
    exact overwrite_inside bound
  · intro other outside
    dsimp only
    rw [index]
    exact overwrite_outside outside

end Runs

/-! ## Steps of the store -/

theorem SlotStore.rewrite (store : SlotStore size history storage) {idx : Nat} (frame : Nat)
    (handed : ((idx * 16 : Nat) : Int) ∈ handedOut history) :
    SlotStore size (⟨(idx * 16 : Nat), storage.page frame, (idx * 16 : Nat)⟩ :: history)
      (storage.written frame idx) := by
  have slot : ((idx * 16 : Nat) : Int) ≠ invalidSwap := by
    rw [invalidSwap]
    omega
  refine ⟨store.shaped, store.nbits, ?_, ?_, ?_⟩
  · rw [handedOut_cons_old slot]
    exact store.slots
  · rw [handedOut_cons_old slot, returnedOffsets_cons slot]
    intro offset member
    rcases List.mem_cons.mp member with rfl | earlier
    · exact handed
    · exact store.handed offset earlier
  · rw [handedOut_cons_old slot]
    intro offset member
    obtain ⟨inFile, page, latest, stored⟩ := store.stored offset member
    obtain ⟨other, -, rfl, -⟩ := store.index member
    rw [Int.toNat_natCast] at inFile stored ⊢
    refine ⟨?_, ?_⟩
    · rw [Storage.written_size]
      omega
    by_cases same : other = idx
    · subst same
      exact ⟨storage.page frame, latestPage_same,
        fun byte bound => Storage.written_same frame other bound⟩
    · refine ⟨page, ?_, fun byte bound => ?_⟩
      · rw [latestPage_other (by simp only [ne_eq, Int.natCast_inj]; omega)]
        exact latest
      · rw [Storage.written_other frame same bound]
        exact stored byte bound

theorem SlotStore.failed (store : SlotStore size history storage) (page : Nat → UInt8) :
    SlotStore size (⟨invalidSwap, page, invalidSwap⟩ :: history) storage := by
  have sameHanded : handedOut (⟨invalidSwap, page, invalidSwap⟩ :: history) =
      handedOut history := by
    simp [handedOut, returnedOffsets_cons_invalid]
  refine ⟨store.shaped, store.nbits, ?_, ?_, ?_⟩
  · rw [sameHanded]
    exact store.slots
  · rw [sameHanded, returnedOffsets_cons_invalid rfl]
    exact store.handed
  · rw [sameHanded]
    intro offset member
    obtain ⟨idx, -, rfl, -⟩ := store.index member
    have apart : invalidSwap ≠ ((idx * 16 : Nat) : Int) := by
      rw [invalidSwap]
      omega
    rw [latestPage_other apart]
    exact store.stored _ member

theorem SlotStore.write (store : SlotStore size history storage) (fits : size ≤ 2 ^ 64 - 64)
    {idx : Nat} (frame : Nat) (bound : idx < size) (clear : storage.swapmap.bit idx = false) :
    SlotStore size (⟨invalidSwap, storage.page frame, (idx * 16 : Nat)⟩ :: history)
      ((storage.setSwapmap (storage.swapmap.setBit idx)).written frame idx) := by
  have slot : ((idx * 16 : Nat) : Int) ≠ invalidSwap := by
    rw [invalidSwap]
    omega
  have inside : idx < 64 * storage.swapmap.words.length := by
    have room := store.shaped.capacity_le
    rw [store.nbits, bitmapCapacity_fits fits] at room
    omega
  have bits : ∀ other, ((storage.setSwapmap (storage.swapmap.setBit idx)).written frame
      idx).swapmap.bit other = (decide (other = idx) || storage.swapmap.bit other) :=
    Bitmap.bit_setBit inside
  obtain ⟨indices, nodup, used, same⟩ := store.slots
  have fresh : idx ∉ indices := by
    intro member
    rw [((used idx).mp member).2] at clear
    contradiction
  refine ⟨store.shaped.setBit inside, store.nbits, ⟨idx :: indices, ?_, ?_, ?_⟩, ?_, ?_⟩
  · exact List.nodup_cons.mpr ⟨fresh, nodup⟩
  · intro other
    rw [bits, List.mem_cons, used]
    by_cases isNew : other = idx
    · simp [isNew, bound]
    · simp [isNew]
  · rw [handedOut_cons_new rfl slot, same, List.map_cons]
  · rw [handedOut_cons_new rfl slot, returnedOffsets_cons slot]
    intro offset member
    rcases List.mem_cons.mp member with rfl | earlier
    · exact List.mem_cons_self
    · exact List.mem_cons_of_mem _ (store.handed offset earlier)
  · rw [handedOut_cons_new rfl slot]
    intro offset member
    by_cases isNew : offset = (idx * 16 : Nat)
    · subst isNew
      rw [Int.toNat_natCast]
      refine ⟨?_, storage.page frame, latestPage_same, fun byte bound => ?_⟩
      · rw [Storage.written_size]
        omega
      · exact Storage.written_same frame idx bound
    · have earlier := (List.mem_cons.mp member).resolve_left isNew
      obtain ⟨inFile, page, latest, stored⟩ := store.stored offset earlier
      obtain ⟨other, -, rfl, -⟩ := store.index earlier
      rw [Int.toNat_natCast] at inFile stored ⊢
      have apart : other ≠ idx := fun same => isNew (by rw [same])
      refine ⟨?_, page, ?_, fun byte bound => ?_⟩
      · have size := @Storage.written_size (storage.setSwapmap (storage.swapmap.setBit idx))
          frame idx
        have sameSize : (storage.setSwapmap (storage.swapmap.setBit idx)).file.size =
          storage.file.size := rfl
        omega
      · rw [latestPage_other (Ne.symm isNew)]
        exact latest
      · exact (Storage.written_other frame apart bound).trans (stored byte bound)

end Store

/-! ## Runs -/

section Swap
variable {env : Env} {size : Nat} {swapmap : Bitmap} {history : List PageOutCall}
  {before : Storage}

theorem SlotStore.start (fits : size ≤ 2 ^ 64 - 64)
    (created : swapCreate env size = .ok (some swapmap)) (physmem : Nat → UInt8)
    (errno calls : Nat) :
    SlotStore size [] ⟨physmem, swapmap, SwapFile.empty, errno, calls⟩ := by
  obtain ⟨nbits, shaped, clear⟩ := swapCreate_some (by omega) created
  refine ⟨shaped, nbits, ⟨[], List.nodup_nil, ?_, rfl⟩, ?_, ?_⟩
  · intro idx
    refine ⟨fun member => absurd member List.not_mem_nil, fun both => ?_⟩
    have isClear := clear idx (by rw [bitmapCapacity_fits fits]; exact both.1)
    exact absurd (isClear.symm.trans both.2) Bool.false_ne_true
  · exact fun offset member => absurd member List.not_mem_nil
  · exact fun offset member => absurd member List.not_mem_nil

theorem SwapRun.store (fits : size ≤ 2 ^ 59) (succeeds : ∀ call, env.io call = .success)
    {start : Storage} (initial : SlotStore size [] start)
    (run : SwapRun env start history before) : SlotStore size history before := by
  induction run with
  | start => exact initial
  | @pageOut history before after frame offset result run inMemory small known call store =>
      rcases known with rfl | known
      · rcases store.run_pageOut_new succeeds inMemory small fits with
          ⟨-, call'⟩ | ⟨-, idx, bound, clear, -, call'⟩
        · cases call.symm.trans call'
          exact store.failed _
        · cases call.symm.trans call'
          exact store.write (by omega) frame bound clear
      · have handed := store.handed offset known
        obtain ⟨idx, -, rfl, call'⟩ := store.run_pageOut_again succeeds inMemory small handed
        cases call.symm.trans call'
        exact store.rewrite frame handed
  | pageIn run inMemory small known call store =>
      obtain ⟨after, page, -, call', -, -, swapmap, data, fileSize⟩ :=
        store.run_pageIn succeeds inMemory small (store.handed _ known)
      cases call.symm.trans call'
      exact store.changed swapmap data fileSize
  | change physmem run store => exact store.changed rfl rfl rfl

/-- After any calls of a run, a page-out without a slot gets one that was not handed out
before, unless all are; one with a slot keeps it; and a page-in loads the page that
was written to its slot last, and nothing else. -/
theorem swap_is_slot_store (fits : size ≤ 2 ^ 59) (succeeds : ∀ call, env.io call = .success)
    (created : swapCreate env size = .ok (some swapmap)) {physmem : Nat → UInt8}
    {errno calls : Nat}
    (run : SwapRun env ⟨physmem, swapmap, SwapFile.empty, errno, calls⟩ history before)
    {frame : Nat} (inMemory : frame < env.memsize) (small : frame < 2 ^ 28) :
    (∃ result after, (swapPageOut env frame invalidSwap).run before = .ok result after ∧
      (result = invalidSwap ↔ (handedOut history).length = size) ∧
      (result ≠ invalidSwap →
        ∃ idx < size, result = (idx * 16 : Nat) ∧ result ∉ handedOut history)) ∧
    ∀ offset ∈ returnedOffsets history,
      (∃ after, (swapPageOut env frame offset).run before = .ok offset after) ∧
      ∃ after page, latestPage offset history = some page ∧
        (swapPageIn env frame offset).run before = .ok 0 after ∧
        (∀ byte < 16, after.page frame byte = page byte) ∧
        ∀ index, ¬ (frame * 16 ≤ index ∧ index < frame * 16 + 16) →
          after.physmem index = before.physmem index := by
  have store := run.store fits succeeds (SlotStore.start (by omega) created physmem errno calls)
  refine ⟨?_, fun offset returned => ⟨?_, ?_⟩⟩
  · rcases store.run_pageOut_new succeeds inMemory small fits with
      ⟨all, call⟩ | ⟨notAll, idx, bound, -, fresh, call⟩
    · exact ⟨_, _, call, by simp [all], fun valid => absurd rfl valid⟩
    · have slot : ((idx * 16 : Nat) : Int) ≠ invalidSwap := by
        rw [invalidSwap]
        omega
      refine ⟨_, _, call, ?_, fun _ => ⟨idx, bound, rfl, fresh⟩⟩
      exact ⟨fun same => absurd same slot, fun all => absurd all notAll⟩
  · obtain ⟨idx, -, -, call⟩ :=
      store.run_pageOut_again succeeds inMemory small (store.handed offset returned)
    exact ⟨_, call⟩
  · obtain ⟨after, page, latest, call, loaded, others, -⟩ :=
      store.run_pageIn succeeds inMemory small (store.handed offset returned)
    exact ⟨after, page, latest, call, loaded, others⟩

/-- A swap of two slots, after a page was written. -/
theorem swap_is_slot_store_two_slots : ∃ swapmap history before offset,
    swapCreate (Env.ideal 2) 2 = .ok (some swapmap) ∧
    SwapRun (Env.ideal 2) ⟨fun _ => 7, swapmap, SwapFile.empty, 0, 0⟩ history before ∧
    offset ∈ returnedOffsets history ∧
    ∃ after page, latestPage offset history = some page ∧
      (swapPageIn (Env.ideal 2) 1 offset).run before = .ok 0 after ∧
      ∀ byte < 16, after.page 1 byte = page byte := by
  obtain ⟨swapmap, created, -⟩ :=
    @bitmapCreate_spec (Env.ideal 2) 2 (by decide) (by decide) (by decide)
  have created' : swapCreate (Env.ideal 2) 2 = .ok (some swapmap) := by
    rw [← created]
    rfl
  let start : Storage := ⟨fun _ => 7, swapmap, SwapFile.empty, 0, 0⟩
  have empty : SwapRun (Env.ideal 2) start [] start := .start
  obtain ⟨⟨result, after, call, isFull, -⟩, -⟩ :=
    @swap_is_slot_store (Env.ideal 2) 2 swapmap [] start (by decide) (fun _ => rfl) created' _ _ _
      empty 0 (by decide) (by decide)
  have valid : result ≠ invalidSwap := fun failed => by
    have all := isFull.mp failed
    contradiction
  have run := SwapRun.pageOut empty (by decide) (by decide) (.inl rfl) call
  have returned : result ∈ returnedOffsets [⟨invalidSwap, start.page 0, result⟩] :=
    mem_returnedOffsets.mpr ⟨⟨_, List.mem_cons_self, rfl⟩, valid⟩
  obtain ⟨-, again⟩ := @swap_is_slot_store (Env.ideal 2) 2 swapmap _ after (by decide)
    (fun _ => rfl) created' _ _ _ run 1 (by decide) (by decide)
  obtain ⟨-, last, page, latest, pageIn, loaded, -⟩ := again result returned
  exact ⟨swapmap, _, after, result, created', run, returned, last, page, latest, pageIn, loaded⟩

end Swap

end MemSim
