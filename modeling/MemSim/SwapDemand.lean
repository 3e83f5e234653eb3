import MemSim.MissBounds
import MemSim.SlotLeaks

/-!
# How much swap a run needs

A page keeps the slot that it got when it was evicted for the first time, also while it
is in memory.  So the slots in use are as many as the pages that were ever evicted, and
a page is lost exactly when there are more of these than slots.
-/

set_option autoImplicit false

namespace MemSim

open Exec

/-! ## Victims -/

def Event.handled? : Event → Option EvictionRecord
  | .handled record => some record
  | _ => none

def handledRecords (log : List Event) : List EvictionRecord := log.filterMap Event.handled?

def victims (log : List Event) : Finset Addr :=
  ((handledRecords log).filterMap EvictionRecord.victim).toFinset

/-- A page was written to swap without getting a slot. -/
def LosesPage (log : List Event) : Prop :=
  ∃ record ∈ handledRecords log, record.result = invalidSwap

section Victims
variable {log : List Event} {record : EvictionRecord} {victim : Addr}

theorem not_losesPage_nil : ¬ LosesPage [] := by
  rintro ⟨record, member, -⟩
  exact absurd member List.not_mem_nil

theorem handledRecords_append (log other : List Event) :
    handledRecords (log ++ other) = handledRecords log ++ handledRecords other :=
  List.filterMap_append

theorem victims_handled (isVictim : record.victim = some victim) :
    victims (log ++ [.handled record]) = insert victim (victims log) := by
  have one : handledRecords [.handled record] = [record] := rfl
  have only : [record].filterMap EvictionRecord.victim = [victim] := by
    rw [List.filterMap_cons_some isVictim, List.filterMap_nil]
  rw [victims, handledRecords_append, one, List.filterMap_append, only, List.toFinset_append,
    Finset.union_comm]
  rfl

theorem losesPage_handled : LosesPage (log ++ [.handled record]) ↔
    LosesPage log ∨ record.result = invalidSwap := by
  have one : handledRecords [.handled record] = [record] := rfl
  rw [LosesPage, handledRecords_append, one]
  simp only [List.mem_append, List.mem_singleton, or_and_right, exists_or, exists_eq_left,
    LosesPage]

end Victims

/-! ## Entries and slots -/

/-- Only a page that was evicted has a slot, and only a page that is lost for good was
evicted and has none. -/
structure PTE.Owns (size : Nat) (full gone : Prop) (entry : PTE) : Prop where
  slot : entry.swapOffset ≠ invalidSwap →
    gone ∧ ∃ idx < size, entry.swapOffset = (idx * 16 : Nat)
  lost : gone → entry.swapOffset = invalidSwap →
    full ∧ entry.valid = false ∧ entry.onSwap = true

/-- The slots in use are those of the victims, as far as there are enough of them. -/
structure World.Taken {σ : Type} (size : Nat) (world : World σ) : Prop where
  used : world.storage.swapmap.used = min size (victims world.log).card
  loses : LosesPage world.log ↔ size < (victims world.log).card

structure World.Demands {σ : Type} (size : Nat) (world : World σ) : Prop where
  taken : world.Taken size
  nbits : world.storage.swapmap.nbits = size
  present : ∀ pte ∈ victims world.log, world.heap.pte pte ≠ none
  entries : ∀ pte entry, world.heap.pte pte = some entry →
    entry.Owns size (world.storage.swapmap.firstClear = none) (pte ∈ victims world.log)

/-- What happens to the entries apart from evictions: an entry that is on swap without a
slot stays so, and new entries have no slot. -/
structure Heap.KeepsSlots (before after : Heap) : Prop where
  present : ∀ pte, before.pte pte ≠ none → after.pte pte ≠ none
  entries : ∀ pte entry, after.pte pte = some entry →
    (∃ old, before.pte pte = some old ∧ entry.swapOffset = old.swapOffset ∧
      (old.swapOffset = invalidSwap → old.valid = false → old.onSwap = true →
        entry.valid = false ∧ entry.onSwap = true)) ∨
    before.pte pte = none ∧ entry.swapOffset = invalidSwap

section Keeps
variable {σ : Type} {size : Nat} {world after : World σ} {before later : Heap} {root : Addr}

theorem World.Taken.congr (taken : world.Taken size)
    (swapmap : after.storage.swapmap = world.storage.swapmap)
    (log : handledRecords after.log = handledRecords world.log) : after.Taken size := by
  have same : victims after.log = victims world.log := by rw [victims, log, victims]
  refine ⟨?_, ?_⟩
  · rw [swapmap, same]
    exact taken.used
  · rw [LosesPage, log, same]
    exact taken.loses

theorem World.Demands.keep (demands : world.Demands size)
    (keeps : world.heap.KeepsSlots after.heap)
    (swapmap : after.storage.swapmap = world.storage.swapmap)
    (log : handledRecords after.log = handledRecords world.log) : after.Demands size := by
  have same : victims after.log = victims world.log := by rw [victims, log, victims]
  refine ⟨demands.taken.congr swapmap log, by rw [swapmap]; exact demands.nbits, ?_, ?_⟩
  · intro pte gone
    rw [same] at gone
    exact keeps.present pte (demands.present pte gone)
  · intro pte entry here
    rw [swapmap, same]
    rcases keeps.entries pte entry here with ⟨old, there, offset, stays⟩ | ⟨absent, none'⟩
    · have owns := demands.entries pte old there
      refine ⟨fun slot => ?_, fun gone without => ?_⟩
      · rw [offset] at slot ⊢
        exact owns.slot slot
      · rw [offset] at without
        obtain ⟨full, invalid, onSwap⟩ := owns.lost gone without
        exact ⟨full, stays without invalid onSwap⟩
    · exact ⟨fun slot => absurd none' slot, fun gone => absurd absent (demands.present pte gone)⟩

theorem Heap.KeepsSlots.refl (heap : Heap) : heap.KeepsSlots heap :=
  ⟨fun _ => id, fun _ entry here => .inl ⟨entry, here, rfl, fun _ invalid onSwap =>
    ⟨invalid, onSwap⟩⟩⟩

theorem Heap.KeepsSlots.setPte {pte : Addr} {old entry : PTE} (here : before.pte pte = some old)
    (offset : entry.swapOffset = old.swapOffset)
    (stays : old.swapOffset = invalidSwap → old.valid = false → old.onSwap = true →
      entry.valid = false ∧ entry.onSwap = true) :
    before.KeepsSlots (before.setPte pte entry) where
  present := by
    intro other there
    by_cases same : other = pte
    · rw [same, Heap.pte_setPte_self]
      exact Option.some_ne_none _
    · rw [Heap.pte_setPte_of_ne same]
      exact there
  entries := by
    intro other found there
    rcases Heap.pte_setPte_eq_some.mp there with ⟨rfl, rfl⟩ | ⟨-, kept⟩
    · exact .inl ⟨old, here, offset, stays⟩
    · exact .inl ⟨found, kept, rfl, fun _ invalid onSwap => ⟨invalid, onSwap⟩⟩

theorem Heap.OnlyReference.keepsSlots (only : before.OnlyReference later) :
    before.KeepsSlots later where
  present := by
    intro pte there
    obtain ⟨entry, here⟩ := Option.ne_none_iff_exists'.mp there
    obtain ⟨reference, kept⟩ := only.entry here
    rw [kept]
    exact Option.some_ne_none _
  entries := by
    intro pte entry here
    obtain ⟨reference, old⟩ := only.symm.entry here
    exact .inl ⟨_, old, rfl, fun _ invalid onSwap => ⟨invalid, onSwap⟩⟩

theorem Heap.Allocated.keepsSlots {page pte : Nat}
    (allocated : before.Allocated later (· = root) root page pte) :
    before.KeepsSlots later where
  present := by
    intro other there
    obtain ⟨entry, here⟩ := Option.ne_none_iff_exists'.mp there
    obtain ⟨pageTable, kept⟩ := allocated.grown.old here
    rw [kept]
    exact Option.some_ne_none _
  entries := by
    intro other entry here
    rcases allocated.grown.cases here with ⟨old, there, same⟩ | ⟨absent, same⟩
    · rw [same]
      exact .inl ⟨old, there, rfl, fun _ invalid onSwap => ⟨invalid, onSwap⟩⟩
    · rw [same]
      exact .inr ⟨absent, rfl⟩

end Keeps

/-! ## Page-outs -/

section PageOut
variable {σ : Type} {env : Env} {size : Nat} {world : World σ} {victim frame : Addr} {entry : PTE}
  {result : Int} {storage : Storage}

theorem Bitmap.used_le (bitmap : Bitmap) : bitmap.used ≤ bitmapCapacity bitmap.nbits :=
  (Finset.card_filter_le _ _).trans_eq (Finset.card_range _)

theorem swapPageOut_succeeds {before : Storage} {offset : Int} (shaped : before.swapmap.Shaped)
    (succeeds : ∀ call, env.io call = .success) (bound : frame < env.memsize)
    (small : bitmapCapacity before.swapmap.nbits ≤ 2 ^ 59)
    (slot : offset ≠ invalidSwap → ∃ idx, offset = ((idx * 16 : Nat) : Int))
    (run : (swapPageOut env frame offset).run before = .ok result storage) :
    (offset ≠ invalidSwap ∧ result = offset ∧ storage.swapmap = before.swapmap) ∨
    (offset = invalidSwap ∧ before.swapmap.firstClear = none ∧ result = invalidSwap ∧
      storage.swapmap = before.swapmap) ∨
    (offset = invalidSwap ∧ ∃ idx < bitmapCapacity before.swapmap.nbits,
      before.swapmap.firstClear = some idx ∧ result = (idx * 16 : Nat) ∧
      storage.swapmap = before.swapmap.setBit idx) := by
  rcases swapPageOut_spec shaped bound offset with
    ⟨without, full, run'⟩ | ⟨place, swapmap, result', after, chosen, run', written, value⟩
  · rw [run'] at run
    cases run
    exact .inr (.inl ⟨without, full, rfl, rfl⟩)
  · rw [run'] at run
    cases run
    rcases chosen with ⟨hasSlot, rfl, rfl⟩ | ⟨without, idx, below, clear, same, sameMap⟩
    · obtain ⟨idx, isSlot⟩ := slot hasSlot
      rw [isSlot, writeOk_of_succeeds succeeds, if_pos rfl, ← isSlot] at value
      exact .inl ⟨hasSlot, value, written.swapmap⟩
    · rw [slotOffset_small (below.trans_le small)] at same
      subst same sameMap
      rw [writeOk_of_succeeds succeeds, if_pos rfl] at value
      exact .inr (.inr ⟨without, idx, below, clear, value, written.swapmap⟩)

theorem World.Demands.handled (demands : world.Demands size)
    (used : storage.swapmap.used = min size (insert victim (victims world.log)).card)
    (loses : LosesPage world.log ∨ result = invalidSwap ↔
      size < (insert victim (victims world.log)).card)
    (nbits : storage.swapmap.nbits = size)
    (ofVictim : (entry.pagedOut result).Owns size (storage.swapmap.firstClear = none) True)
    (stays : world.storage.swapmap.firstClear = none → storage.swapmap.firstClear = none) :
    (world.afterEviction victim entry result storage).Demands size := by
  have gone : victims (world.afterEviction victim entry result storage).log =
      insert victim (victims world.log) := victims_handled rfl
  have losesHere : LosesPage (world.afterEviction victim entry result storage).log ↔
      LosesPage world.log ∨ result = invalidSwap := losesPage_handled
  refine ⟨⟨?_, ?_⟩, nbits, ?_, ?_⟩
  · rw [gone]
    exact used
  · rw [gone, losesHere]
    exact loses
  · intro pte inGone
    change (world.heap.setPte victim (entry.pagedOut result)).pte pte ≠ none
    rw [gone] at inGone
    by_cases same : pte = victim
    · rw [same, Heap.pte_setPte_self]
      exact Option.some_ne_none _
    · rw [Heap.pte_setPte_of_ne same]
      exact demands.present pte ((Finset.mem_insert.mp inGone).resolve_left same)
  · intro pte found there
    rw [gone]
    rcases Heap.pte_setPte_eq_some.mp there with ⟨rfl, rfl⟩ | ⟨apart, kept⟩
    · rw [eq_true (Finset.mem_insert_self _ _)]
      exact ofVictim
    · have owned := demands.entries pte found kept
      refine ⟨fun slot => ?_, fun inGone without => ?_⟩
      · obtain ⟨before, isSlot⟩ := owned.slot slot
        exact ⟨Finset.mem_insert_of_mem before, isSlot⟩
      · have before := (Finset.mem_insert.mp inGone).resolve_left apart
        obtain ⟨wasFull, marked⟩ := owned.lost before without
        exact ⟨stays wasFull, marked⟩

theorem World.Demands.pageOut (demands : world.Demands size)
    (shaped : world.storage.swapmap.Shaped) (succeeds : ∀ call, env.io call = .success)
    (small : size ≤ 2 ^ 59) (here : world.heap.pte victim = some entry)
    (valid : entry.valid = true) (bound : frame < env.memsize)
    (run : (swapPageOut env frame entry.swapOffset).run world.storage = .ok result storage) :
    (world.afterEviction victim entry result storage).Demands size := by
  have capacity : bitmapCapacity world.storage.swapmap.nbits = size := by
    rw [demands.nbits, bitmapCapacity_fits (by omega)]
  have owns := demands.entries victim entry here
  have used := demands.taken.used
  have lost := demands.taken.loses
  -- a victim without a slot was not evicted before, as it would be lost
  have first : entry.swapOffset = invalidSwap → victim ∉ victims world.log := by
    intro without before
    obtain ⟨-, invalid, -⟩ := owns.lost before without
    rw [valid] at invalid
    contradiction
  have hasSlot : entry.swapOffset ≠ invalidSwap → ∃ idx : Nat,
      entry.swapOffset = ((idx * 16 : Nat) : Int) := by
    intro slot
    obtain ⟨-, idx, -, isSlot⟩ := owns.slot slot
    exact ⟨idx, isSlot⟩
  rcases swapPageOut_succeeds shaped succeeds bound (by omega) hasSlot run with
    ⟨slot, rfl, sameMap⟩ | ⟨without, full, rfl, sameMap⟩ |
      ⟨without, idx, below, clear, rfl, newMap⟩
  · obtain ⟨before, isSlot⟩ := owns.slot slot
    apply demands.handled
    · rw [sameMap, Finset.insert_eq_self.mpr before]
      exact used
    · rw [Finset.insert_eq_self.mpr before]
      exact ⟨fun either => lost.mp (either.resolve_right slot), fun more => .inl (lost.mpr more)⟩
    · rw [sameMap]
      exact demands.nbits
    · exact ⟨fun _ => ⟨trivial, isSlot⟩, fun _ without => absurd without slot⟩
    · rw [sameMap]
      exact id
  · have more := shaped.used_full full
    have card := Finset.card_insert_of_notMem (first without)
    apply demands.handled
    · rw [sameMap, card]
      omega
    · rw [card]
      exact ⟨fun _ => by omega, fun _ => .inr rfl⟩
    · rw [sameMap]
      exact demands.nbits
    · rw [sameMap]
      exact ⟨fun slot => absurd rfl slot, fun _ _ => ⟨full, rfl, rfl⟩⟩
    · rw [sameMap]
      exact id
  · have taken := Bitmap.used_setBit below clear
    have room : world.storage.swapmap.used < size := by
      have atMost := (world.storage.swapmap.setBit idx).used_le
      rw [Bitmap.nbits_setBit, capacity, taken] at atMost
      exact atMost
    have fewer : (victims world.log).card < size := by
      rw [used] at room
      exact (min_lt_iff.mp room).resolve_left (lt_irrefl size)
    have card := Finset.card_insert_of_notMem (first without)
    have isSlot : ((idx * 16 : Nat) : Int) ≠ invalidSwap := by
      rw [invalidSwap]
      omega
    apply demands.handled
    · rw [newMap, taken, card, used, min_eq_right fewer.le, min_eq_right fewer]
    · rw [card]
      refine ⟨fun either => ?_, fun more => absurd more (Nat.not_lt.mpr fewer)⟩
      exact absurd (lost.mp (either.resolve_right isSlot)) (Nat.not_lt.mpr fewer.le)
    · rw [newMap]
      exact demands.nbits
    · exact ⟨fun _ => ⟨trivial, idx, below.trans_eq capacity, rfl⟩, fun _ same =>
        absurd same isSlot⟩
    · intro wasFull
      rw [clear] at wasFull
      contradiction

end PageOut

/-! ## Runs -/

section Runs
variable {env : Env} {policy : Policy} {root : Addr} {size : Nat} {access : MemAccess}
  {world after : World policy.State} {frame : Nat}

theorem handledRecords_record (world : World policy.State) {event : Event}
    (other : event.handled? = none) :
    handledRecords (world.record event).log = handledRecords world.log := by
  have nothing : handledRecords [event] = [] := List.filterMap_cons_none other
  rw [World.record, handledRecords_append, nothing, List.append_nil]

theorem Obtains.demands (obtains : Obtains env policy world frame after)
    (demands : world.Demands size) (shaped : world.storage.swapmap.Shaped)
    (succeeds : ∀ call, env.io call = .success) (small : size ≤ 2 ^ 59) : after.Demands size := by
  cases obtains with
  | free found => exact demands
  | @evicted state victim entry result storage found evict bound owner here valid number pageOut =>
      have only : world.policyState.OnlyReference state :=
        keeps_ok (policy.evict_keeps env.memsize) evict
      have onlyHeap : world.heap.OnlyReference state.heap := only.heap
      have called : ((world.setPolicyState state).record (.evicted (some frame))).Demands size :=
        demands.keep onlyHeap.keepsSlots rfl (handledRecords_record _ rfl)
      exact called.pageOut shaped succeeds small here valid bound pageOut

theorem Translates.demands (translates : Translates env policy root access world frame after)
    (coherent : world.Coherent env root none) (demands : world.Demands size)
    (succeeds : ∀ call, env.io call = .success) (small : size ≤ 2 ^ 59) : after.Demands size := by
  cases translates with
  | @hit pte entry leaf here valid =>
      refine demands.keep (Heap.KeepsSlots.setPte here rfl fun _ invalid => ?_) rfl rfl
      rw [valid] at invalid
      contradiction
  | @miss heap pte _ old entry obtained storage allocated here invalid obtains there same fills =>
      have counted : ((world.setHeap heap).countMiss).Demands size :=
        demands.keep allocated.keepsSlots rfl rfl
      have ready := obtains.demands counted coherent.swapmap succeeds small
      have loaded : (obtained.afterLoad pte entry frame storage).Demands size := by
        refine ready.keep (Heap.KeepsSlots.setPte there rfl fun without _ onSwap => ?_)
          (fills.swapmap (obtains.bound env)) rfl
        cases fills with
        | cleared notOnSwap =>
            rw [onSwap] at notOnSwap
            contradiction
        | pagedIn _ slot => exact absurd without slot
      exact loaded.keep (Heap.KeepsSlots.setPte Heap.pte_setPte_self rfl fun _ notValid =>
        by contradiction) rfl rfl

theorem World.Demands.translated (demands : world.Demands size)
    (coherent : world.Coherent env root none) (succeeds : ∀ call, env.io call = .success)
    (small : size ≤ 2 ^ 59) :
    (finalState ((translate env policy access).run world)).Taken size ∧
      ∀ frame after, (translate env policy access).run world = .ok frame after →
        after.Demands size := by
  have outcome := @translate_outcome env policy root access world coherent
  generalize (translate env policy access).run world = result at outcome
  cases outcome with
  | stops stops =>
      refine ⟨?_, fun _ _ same => by contradiction⟩
      cases stops with
      | outside wide => exact demands.taken
      | refused fault log refused => exact demands.taken.congr rfl rfl
      | evictFails allocated here invalid fails =>
          cases fails with
          | stopped full evict => exact demands.taken.congr rfl (handledRecords_record _ rfl)
          | outside full evict wide =>
              exact demands.taken.congr rfl (handledRecords_record _ rfl)
      | @lost heap _ _ _ _ _ allocated here invalid obtains there same onSwap isLost =>
          have counted : ((world.setHeap heap).countMiss).Demands size :=
            demands.keep allocated.keepsSlots rfl rfl
          exact (obtains.demands counted coherent.swapmap succeeds small).taken.congr rfl rfl
  | @refFails frame after fault state translates onRef =>
      refine ⟨?_, fun _ _ same => by contradiction⟩
      have translated := translates.demands coherent demands succeeds small
      exact translated.taken.congr rfl (handledRecords_record _ rfl)
  | @done frame after state translates onRef =>
      have only : after.policyState.OnlyReference state :=
        keeps_ok (policy.onRef_keeps env.memsize frame) onRef
      have onlyHeap : after.heap.OnlyReference state.heap := only.heap
      have called : ((after.setPolicyState state).record (.referenced frame true)).Demands size :=
        (translates.demands coherent demands succeeds small).keep onlyHeap.keepsSlots rfl
          (handledRecords_record _ rfl)
      refine ⟨called.taken, fun _ _ same => ?_⟩
      cases same
      exact called

variable {β : Type} {step : MemAccess → Exec (World policy.State) β} {swapSize : Nat}
  (executes : Executes env policy step)
include executes

theorem Executes.demands (demands : world.Demands size) (coherent : world.Coherent env root none)
    (succeeds : ∀ call, env.io call = .success) (small : size ≤ 2 ^ 59) :
    (finalState ((step access).run world)).Taken size ∧
      ∀ value after, (step access).run world = .ok value after → after.Demands size := by
  obtain ⟨taken, kept⟩ :=
    @World.Demands.translated env policy root size access world demands coherent succeeds small
  rcases executes access world with
    ⟨fault, middle, translated, run⟩ | ⟨frame, middle, translated, run | ⟨value, physmem, run⟩⟩
  · rw [translated] at taken
    rw [run]
    exact ⟨taken, fun _ _ same => by contradiction⟩
  · rw [translated] at taken
    rw [run]
    exact ⟨taken, fun _ _ same => by contradiction⟩
  · rw [translated] at taken
    rw [run]
    refine ⟨taken.congr rfl rfl, fun _ _ same => ?_⟩
    cases same
    exact (kept frame middle translated).keep (.refl _) rfl rfl

/-- However a run ends, one slot is in use for each page that was evicted until all are,
and a page is lost exactly when more pages were evicted than there are slots. -/
theorem slots_taken_by_victims {trace : List MemAccess}
    (launched : Launched env policy swapSize world) (succeeds : ∀ call, env.io call = .success)
    (small : swapSize ≤ 2 ^ 59) :
    (finalState ((runAll step trace).run world)).Taken swapSize := by
  obtain ⟨root, started⟩ := launched.started
  have none' : victims world.log = ∅ := by
    rw [started.log]
    rfl
  have unused : world.storage.swapmap.used = 0 := by
    rw [Bitmap.used, Finset.card_eq_zero, Finset.filter_eq_empty_iff]
    intro index inside set
    rw [Finset.mem_range, started.nbits] at inside
    rw [started.clear index inside] at set
    contradiction
  have start : world.Demands swapSize := by
    refine ⟨⟨?_, ?_⟩, started.nbits, ?_, ?_⟩
    · rw [unused, none', Finset.card_empty, Nat.min_zero]
    · rw [none', Finset.card_empty, started.log]
      exact iff_of_false not_losesPage_nil (Nat.not_lt_zero swapSize)
    · intro pte gone
      rw [none'] at gone
      exact absurd gone (Finset.notMem_empty pte)
    · intro pte entry here
      rw [started.noPte pte] at here
      contradiction
  apply @runAll_keeps _ _ _ _ step
    (fun middle => middle.Demands swapSize ∧ middle.Coherent env root none)
    (fun middle => middle.Taken swapSize) (fun _ => True) _ _ trace (fun _ _ => trivial) world
    ⟨start, started.coherent⟩ start.taken
  · intro access middle value next _ holds _ run
    exact ⟨(executes.demands holds.1 holds.2 succeeds small).2 value next run,
      executes.coherent holds.2 run⟩
  · intro access middle _ holds _
    exact (executes.demands holds.1 holds.2 succeeds small).1

end Runs

theorem slots_taken_by_victims_threePages : ∃ world values final,
    Launched (Env.ideal 2) policyClock 3 world ∧
    (runAll (executeMemInstruction (Env.ideal 2) policyClock) threePages).run world =
      .ok values final ∧
    final.Taken 3 := by
  have member : policyClock ∈ policies fun _ => 0 := by simp [policies]
  have grants : grantsRun (Env.ideal 2) policyClock 3
      (executeMemInstruction (Env.ideal 2) policyClock) threePages = true := by decide +kernel
  obtain ⟨world, values, final, launched, run⟩ :=
    threePages_returns member (by decide) (by decide) grants
  have taken : (finalState ((runAll (executeMemInstruction (Env.ideal 2) policyClock)
      threePages).run world)).Taken 3 :=
    slots_taken_by_victims (executes_executeMemInstruction _ _) launched (fun _ => rfl) (by decide)
  rw [run] at taken
  exact ⟨world, values, final, launched, run, taken⟩

end MemSim
