import MemSim.SlotStore

/-!
# Slots that a failed page-out keeps

`CSC369_SwapPageOut` takes a slot before it seeks and writes, and returns
`CSC369_INVALID_SWAP` if either fails.  The slot stays taken.
-/

set_option autoImplicit false

namespace MemSim

open Exec

/-! ## One call -/

/-- The frame lies in physical memory, at the address that swap computes for it. -/
def SwapsInMemory (env : Env) (frame : Nat) : Prop :=
  swapFrameIndex frame + simulatedFrameSize ≤ env.memsize * simulatedFrameSize

/-- The seek to `offset` would do its work. -/
def Storage.seekOk (env : Env) (storage : Storage) (offset : Int) : Bool :=
  decide (0 ≤ offset) && (env.io storage.calls).proceeds

/-- A slot is free, but the page cannot be written to it. -/
def Storage.Leaks (env : Env) (storage : Storage) (frame : Nat) (offset : Int) : Prop :=
  offset = invalidSwap ∧ ∃ idx, storage.swapmap.firstClear = some idx ∧
    storage.writeOk env (slotOffset idx) = false ∧
    (storage.seekOk env (slotOffset idx) = true → SwapsInMemory env frame)

/-- If the page-out fails, the bitmap is what it was. -/
def KeepsBitmap (env : Env) (storage : Storage) (frame : Nat) (offset : Int) : Prop :=
  ∀ after, (swapPageOut env frame offset).run storage = .ok invalidSwap after →
    after.swapmap = storage.swapmap

section Call
variable {env : Env} {storage : Storage} {frame : Nat} {offset : Int}

theorem swapWritePage_congr {other : Nat} (same : swapFrameIndex frame = swapFrameIndex other) :
    swapWritePage env frame offset = swapWritePage env other offset := by
  simp only [swapWritePage, swapFramePtr, same]

theorem swapFrameIndex_div (frame : Nat) :
    swapFrameIndex (swapFrameIndex frame / 16) = swapFrameIndex frame := by
  simp only [swapFrameIndex, simulatedFrameSize_eq]
  omega

/-- The three ways in which the writing part of a page-out can end. -/
inductive WriteOutcome (env : Env) (storage : Storage) (frame : Nat) (offset : Int) :
    EStateM.Result Fault Storage Int → Prop where
  | written {after : Storage} : SwapsInMemory env frame → storage.writeOk env offset = true →
      after.swapmap = storage.swapmap → WriteOutcome env storage frame offset (.ok offset after)
  | failed {after : Storage} : (storage.seekOk env offset = true → SwapsInMemory env frame) →
      storage.writeOk env offset = false → after.swapmap = storage.swapmap →
      WriteOutcome env storage frame offset (.ok invalidSwap after)
  | outside {after : Storage} : storage.seekOk env offset = true → ¬ SwapsInMemory env frame →
      WriteOutcome env storage frame offset (.error .outOfBounds after)

theorem swapWritePage_outcome (slot : offset ≠ invalidSwap) :
    WriteOutcome env storage frame offset ((swapWritePage env frame offset).run storage) := by
  have writeOk : storage.writeOk env offset =
      (storage.seekOk env offset && (env.io (storage.calls + 1)).whole simulatedFrameSize) := rfl
  by_cases inside : SwapsInMemory env frame
  · have bound : swapFrameIndex frame / 16 < env.memsize := by
      simp only [SwapsInMemory, simulatedFrameSize_eq] at inside
      omega
    obtain ⟨result, after, run, written, value⟩ :=
      @swapWritePage_spec env storage _ bound offset slot
    rw [swapWritePage_congr (swapFrameIndex_div frame)] at run
    rw [run]
    cases ok : storage.writeOk env offset with
    | true =>
        rw [ok, if_pos rfl] at value
        subst value
        exact .written inside ok written.swapmap
    | false =>
        rw [ok, if_neg Bool.false_ne_true] at value
        subst value
        exact .failed (fun _ => inside) ok written.swapmap
  · have required : decide (offset ≠ invalidSwap) = true := decide_eq_true slot
    cases seekOk : storage.seekOk env offset with
    | true =>
        obtain ⟨natural, proceeds⟩ : 0 ≤ offset ∧ (env.io storage.calls).proceeds = true := by
          simpa [Storage.seekOk] using seekOk
        obtain ⟨position, rfl⟩ := Int.eq_ofNat_of_zero_le natural
        have seek : (lseek env (position : Int)).run storage = _ := run_lseek_proceeds proceeds
        have wide : decide (swapFrameIndex frame + simulatedFrameSize ≤
            env.memsize * simulatedFrameSize) = false := decide_eq_false inside
        have run : (swapWritePage env frame (position : Int)).run storage = .error .outOfBounds
            { storage with calls := storage.calls + 1, file := storage.file.seek position } := by
          simp only [swapWritePage, swapFramePtr, required, EStateM.run_bind, run_require_true,
            seek, ne_eq, not_true, if_false, wide, run_require_false]
        rw [run]
        exact .outside seekOk inside
    | false =>
        have refused : offset < 0 ∨ (env.io storage.calls).proceeds = false := by
          simpa only [Storage.seekOk, Bool.and_eq_false_iff, decide_eq_false_iff_not, Int.not_le]
            using seekOk
        obtain ⟨after, seek, moved, -⟩ := run_lseek_refused refused
        have apart : ¬ (-1 = offset) := fun same => slot same.symm
        have run : (swapWritePage env frame offset).run storage = .ok invalidSwap after := by
          simp only [swapWritePage, required, EStateM.run_bind, run_require_true, seek]
          simp [apart]
        rw [run]
        have notOk : storage.writeOk env offset = false := by rw [writeOk, seekOk, Bool.false_and]
        refine .failed (fun ok => ?_) notOk moved.swapmap
        rw [seekOk] at ok
        contradiction

/-- A page-out takes at most the first free slot, and keeps it when it fails. -/
inductive PageOutOutcome (env : Env) (storage : Storage) (frame : Nat) (offset : Int) :
    EStateM.Result Fault Storage Int → Prop where
  | full : offset = invalidSwap → storage.swapmap.firstClear = none →
      PageOutOutcome env storage frame offset (.ok invalidSwap storage)
  | again {result : Int} {after : Storage} : offset ≠ invalidSwap →
      after.swapmap = storage.swapmap → PageOutOutcome env storage frame offset (.ok result after)
  | taken {idx : Nat} {after : Storage} : offset = invalidSwap →
      idx < bitmapCapacity storage.swapmap.nbits → storage.swapmap.firstClear = some idx →
      ¬ storage.Leaks env frame offset → after.swapmap = storage.swapmap.setBit idx →
      PageOutOutcome env storage frame offset (.ok (slotOffset idx) after)
  | leaked {idx : Nat} {after : Storage} : offset = invalidSwap →
      idx < bitmapCapacity storage.swapmap.nbits → storage.swapmap.firstClear = some idx →
      storage.Leaks env frame offset → after.swapmap = storage.swapmap.setBit idx →
      PageOutOutcome env storage frame offset (.ok invalidSwap after)
  | stopped {fault : Fault} {after : Storage} : ¬ storage.Leaks env frame offset →
      PageOutOutcome env storage frame offset (.error fault after)

theorem swapPageOut_outcome (shaped : storage.swapmap.Shaped) :
    PageOutOutcome env storage frame offset ((swapPageOut env frame offset).run storage) := by
  by_cases fresh : offset = invalidSwap
  · rcases bitmapAlloc_spec shaped with ⟨idx, below, clear, alloc⟩ | ⟨full, alloc⟩
    · have leaks : storage.Leaks env frame offset ↔
          storage.writeOk env (slotOffset idx) = false ∧
            (storage.seekOk env (slotOffset idx) = true → SwapsInMemory env frame) := by
        constructor
        · intro leaks
          obtain ⟨-, idx', clear', notOk, inside⟩ := leaks
          cases Option.some.inj (clear.symm.trans clear')
          exact ⟨notOk, inside⟩
        · intro fails
          exact ⟨fresh, idx, clear, fails⟩
      have outcome := @swapWritePage_outcome env
        (storage.setSwapmap (storage.swapmap.setBit idx)) frame (slotOffset idx)
        (slotOffset_ne_invalid idx)
      have run : (swapPageOut env frame offset).run storage =
          (swapWritePage env frame (slotOffset idx)).run
            (storage.setSwapmap (storage.swapmap.setBit idx)) := by
        simp only [swapPageOut, fresh, if_true, EStateM.run_bind, run_onPart, alloc]
      rw [run]
      generalize (swapWritePage env frame (slotOffset idx)).run
        (storage.setSwapmap (storage.swapmap.setBit idx)) = result at outcome
      cases outcome with
      | written inside ok same =>
          refine .taken fresh below clear ?_ same
          rw [leaks]
          intro fails
          exact Bool.false_ne_true (fails.1.symm.trans ok)
      | failed inside notOk same =>
          exact .leaked fresh below clear (leaks.mpr ⟨notOk, inside⟩) same
      | outside seekOk outside =>
          apply PageOutOutcome.stopped
          rw [leaks]
          intro fails
          exact outside (fails.2 seekOk)
    · have run : (swapPageOut env frame offset).run storage = .ok invalidSwap storage := by
        simp only [swapPageOut, fresh, if_true, EStateM.run_bind, run_onPart, alloc]
        rfl
      rw [run]
      exact .full fresh full
  · have run : (swapPageOut env frame offset).run storage =
        (swapWritePage env frame offset).run storage := by
      simp only [swapPageOut, fresh, if_false]
    rw [run]
    have outcome := @swapWritePage_outcome env storage frame offset fresh
    generalize (swapWritePage env frame offset).run storage = result at outcome
    cases outcome with
    | written inside ok same => exact .again fresh same
    | failed inside notOk same => exact .again fresh same
    | outside seekOk outside => exact .stopped fun leaks => fresh leaks.1

theorem Bitmap.setBit_ne {bitmap : Bitmap} {idx : Nat} (clear : bitmap.firstClear = some idx) :
    bitmap.setBit idx ≠ bitmap := by
  obtain ⟨inside, isClear, -⟩ := Bitmap.firstClear_eq_some.mp clear
  intro same
  have set := Bitmap.bit_setBit inside idx
  rw [same, isClear] at set
  simp at set

theorem keepsBitmap_iff (shaped : storage.swapmap.Shaped) :
    KeepsBitmap env storage frame offset ↔ ¬ storage.Leaks env frame offset := by
  have outcome := @swapPageOut_outcome env storage frame offset shaped
  unfold KeepsBitmap
  generalize (swapPageOut env frame offset).run storage = result at outcome
  cases outcome with
  | full fresh none' =>
      constructor
      · intro _ leaks
        obtain ⟨-, idx, clear, -⟩ := leaks
        rw [none'] at clear
        contradiction
      · intro _ after same
        cases same
        rfl
  | again slot same =>
      constructor
      · intro _ leaks
        exact slot leaks.1
      · intro _ after here
        cases here
        exact same
  | @taken idx after fresh below clear kept same =>
      constructor
      · exact fun _ => kept
      · intro _ after' here
        exact absurd (EStateM.Result.ok.inj here).1 (slotOffset_ne_invalid idx)
  | leaked fresh below clear leaks same =>
      constructor
      · intro keeps
        exact absurd (same.symm.trans (keeps _ rfl)) (Bitmap.setBit_ne clear)
      · exact fun kept => absurd leaks kept
  | stopped kept =>
      constructor
      · exact fun _ => kept
      · intro _ after here
        contradiction

end Call

/-! ## Sequences of calls -/

/-- A call of `CSC369_SwapPageOut`: the storage it found, its arguments and its
result. -/
structure PageOutRecord where
  before : Storage
  frame : Nat
  offset : Int
  result : Int

/-- Page-outs one after the other, the latest first.  In between, anything but the
bitmap may change. -/
inductive PageOutRun (env : Env) (start : Storage) : List PageOutRecord → Storage → Prop where
  | start : PageOutRun env start [] start
  | pageOut {history : List PageOutRecord} {before after : Storage} {frame : Nat}
      {offset result : Int} :
      PageOutRun env start history before →
      (swapPageOut env frame offset).run before = .ok result after →
      PageOutRun env start (⟨before, frame, offset, result⟩ :: history) after
  | other {history : List PageOutRecord} {before after : Storage} :
      PageOutRun env start history before → after.swapmap = before.swapmap →
      PageOutRun env start history after

def slotsGiven (history : List PageOutRecord) : Nat :=
  history.countP fun call => call.offset = invalidSwap ∧ call.result ≠ invalidSwap

def Bitmap.used (bitmap : Bitmap) : Nat :=
  ((Finset.range (bitmapCapacity bitmap.nbits)).filter fun idx => bitmap.bit idx = true).card

/-- Every taken slot was given to a page, and only such slots can use up the swap. -/
structure SlotsAccounted (start : Storage) (history : List PageOutRecord) (storage : Storage) :
    Prop where
  used : storage.swapmap.used = start.swapmap.used + slotsGiven history
  exhausted : storage.swapmap.firstClear = none →
    start.swapmap.used + slotsGiven history = bitmapCapacity start.swapmap.nbits

section Runs
variable {env : Env} {start storage : Storage} {history : List PageOutRecord}

theorem Bitmap.used_setBit {bitmap : Bitmap} {idx : Nat} (below : idx < bitmapCapacity bitmap.nbits)
    (clear : bitmap.firstClear = some idx) : (bitmap.setBit idx).used = bitmap.used + 1 := by
  obtain ⟨inside, isClear, -⟩ := Bitmap.firstClear_eq_some.mp clear
  have more : (Finset.range (bitmapCapacity bitmap.nbits)).filter
      (fun other => (bitmap.setBit idx).bit other = true) =
      insert idx ((Finset.range (bitmapCapacity bitmap.nbits)).filter
        fun other => bitmap.bit other = true) := by
    ext other
    simp only [Finset.mem_filter, Finset.mem_range, Finset.mem_insert, Bitmap.bit_setBit inside,
      Bool.or_eq_true, decide_eq_true_eq]
    constructor
    · intro both
      obtain ⟨bound, same | set⟩ := both
      · exact Or.inl same
      · exact Or.inr ⟨bound, set⟩
    · intro either
      obtain rfl | both := either
      · exact ⟨below, Or.inl rfl⟩
      · exact ⟨both.1, Or.inr both.2⟩
  rw [Bitmap.used, Bitmap.nbits_setBit, more, Finset.card_insert_of_notMem, Bitmap.used]
  simp [isClear]

theorem Bitmap.Shaped.used_full {bitmap : Bitmap} (shaped : bitmap.Shaped)
    (full : bitmap.firstClear = none) : bitmap.used = bitmapCapacity bitmap.nbits := by
  have all : (Finset.range (bitmapCapacity bitmap.nbits)).filter
      (fun idx => bitmap.bit idx = true) = Finset.range (bitmapCapacity bitmap.nbits) := by
    apply Finset.filter_true_of_mem
    intro idx mem
    apply Bitmap.firstClear_eq_none.mp full
    exact Nat.lt_of_lt_of_le (Finset.mem_range.mp mem) shaped.capacity_le
  rw [Bitmap.used, all, Finset.card_range]

open Classical in
theorem PageOutRun.used (shaped : start.swapmap.Shaped) (run : PageOutRun env start history storage) :
    storage.swapmap.Shaped ∧ storage.swapmap.nbits = start.swapmap.nbits ∧
      storage.swapmap.used = start.swapmap.used + slotsGiven history +
        history.countP fun call => call.before.Leaks env call.frame call.offset := by
  induction run with
  | start => exact ⟨shaped, rfl, rfl⟩
  | @other history before after _ same ih =>
      rw [same]
      exact ih
  | @pageOut history before after frame offset result _ step ih =>
      obtain ⟨shaped', nbits, used⟩ := ih
      have outcome := @swapPageOut_outcome env before frame offset shaped'
      generalize (swapPageOut env frame offset).run before = outcome' at outcome step
      cases outcome with
      | full fresh none' =>
          obtain ⟨rfl, rfl⟩ := EStateM.Result.ok.inj step
          have kept : ¬ before.Leaks env frame offset := by
            intro leaks
            obtain ⟨-, idx, clear, -⟩ := leaks
            rw [none'] at clear
            contradiction
          refine ⟨shaped', nbits, ?_⟩
          rw [used]
          simp [slotsGiven, kept]
      | again slot same =>
          obtain ⟨rfl, rfl⟩ := EStateM.Result.ok.inj step
          have kept : ¬ before.Leaks env frame offset := fun leaks => slot leaks.1
          rw [same]
          refine ⟨shaped', nbits, ?_⟩
          rw [used]
          simp [slotsGiven, kept, slot]
      | @taken idx _ fresh below clear kept same =>
          obtain ⟨rfl, rfl⟩ := EStateM.Result.ok.inj step
          have inside := (Bitmap.firstClear_eq_some.mp clear).1
          have given : slotOffset idx ≠ invalidSwap := slotOffset_ne_invalid idx
          generalize slotOffset idx = slot at given
          subst fresh
          rw [same]
          refine ⟨shaped'.setBit inside, nbits, ?_⟩
          rw [Bitmap.used_setBit below clear, used]
          simp [slotsGiven, kept, given]
          omega
      | @leaked idx _ fresh below clear leaks same =>
          obtain ⟨rfl, rfl⟩ := EStateM.Result.ok.inj step
          have inside := (Bitmap.firstClear_eq_some.mp clear).1
          rw [same]
          refine ⟨shaped'.setBit inside, nbits, ?_⟩
          rw [Bitmap.used_setBit below clear, used]
          simp [slotsGiven, leaks]
          omega
      | stopped kept => contradiction

end Runs

/-- A failed page-out keeps the bitmap, and over a run the taken slots are those
given to pages, as far as no call that took a slot failed to seek or to write. -/
theorem failed_pageOut_keeps_no_slot_iff {env : Env} {start storage : Storage}
    {history : List PageOutRecord} (shaped : start.swapmap.Shaped)
    (run : PageOutRun env start history storage) :
    (∀ frame offset, KeepsBitmap env storage frame offset ↔ ¬ storage.Leaks env frame offset) ∧
      (SlotsAccounted start history storage ↔
        ∀ call ∈ history, ¬ call.before.Leaks env call.frame call.offset) := by
  classical
  obtain ⟨shaped', nbits, used⟩ := run.used shaped
  refine ⟨fun frame offset => keepsBitmap_iff shaped', ?_⟩
  have none_leaks : (history.countP fun call => call.before.Leaks env call.frame call.offset) = 0 ↔
      ∀ call ∈ history, ¬ call.before.Leaks env call.frame call.offset := by
    simp [List.countP_eq_zero]
  rw [← none_leaks]
  constructor
  · intro accounted
    have := accounted.used
    omega
  · intro none'
    refine ⟨by omega, fun full => ?_⟩
    have := shaped'.used_full full
    rw [nbits] at this
    omega

/-- A disk that takes no byte. -/
def fullDisk : Env := { Env.ideal 1 with io := fun _ => .short 0 }

def oneSlot : Storage := ⟨fun _ => 0, ⟨1, [markLeftover 0#64 1]⟩, SwapFile.empty, 0, 0⟩

theorem oneSlot_shaped : oneSlot.swapmap.Shaped := by
  have created : swapCreate fullDisk 1 = .ok (some oneSlot.swapmap) := by decide +kernel
  exact (swapCreate_some (by decide) created).2.1

theorem oneSlot_leaks : oneSlot.Leaks fullDisk 0 invalidSwap := by
  refine ⟨rfl, 0, by decide +kernel, rfl, fun _ => ?_⟩
  unfold SwapsInMemory
  decide

theorem oneSlot_fails : ∃ after,
    (swapPageOut fullDisk 0 invalidSwap).run oneSlot = .ok invalidSwap after := by
  have outcome := @swapPageOut_outcome fullDisk oneSlot 0 invalidSwap oneSlot_shaped
  have leaks := oneSlot_leaks
  generalize (swapPageOut fullDisk 0 invalidSwap).run oneSlot = result at outcome
  cases outcome with
  | full fresh none' => exact ⟨_, rfl⟩
  | again slot same => exact absurd rfl slot
  | taken fresh below clear kept same => exact absurd leaks kept
  | leaked fresh below clear _ same => exact ⟨_, rfl⟩
  | stopped kept => exact absurd leaks kept

theorem failed_pageOut_keeps_no_slot_oneSlot : ∃ storage,
    (∀ frame offset,
      KeepsBitmap fullDisk storage frame offset ↔ ¬ storage.Leaks fullDisk frame offset) ∧
    (SlotsAccounted oneSlot [⟨oneSlot, 0, invalidSwap, invalidSwap⟩] storage ↔
      ∀ call ∈ [(⟨oneSlot, 0, invalidSwap, invalidSwap⟩ : PageOutRecord)],
        ¬ call.before.Leaks fullDisk call.frame call.offset) := by
  obtain ⟨after, call⟩ := oneSlot_fails
  exact ⟨after, failed_pageOut_keeps_no_slot_iff oneSlot_shaped (.pageOut .start call)⟩

theorem failed_pageOut_leaks :
    ¬ ∀ env start history storage, start.swapmap.Shaped → PageOutRun env start history storage →
      (∀ frame offset, KeepsBitmap env storage frame offset) ∧
        SlotsAccounted start history storage := by
  intro claim
  have keeps := (claim fullDisk oneSlot [] oneSlot oneSlot_shaped .start).1 0 invalidSwap
  exact (keepsBitmap_iff oneSlot_shaped).mp keeps oneSlot_leaks

end MemSim
