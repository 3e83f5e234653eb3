import MemSim.BitUtil

/-!
# The swap space

`csc369_swap.c`: pages move between the frames of simulated physical memory and
16-byte slots of the swap file.  A slot is taken from the bitmap the first time
a page is written and is kept by the page from then on.  The system calls on the
file take their outcome from the environment.
-/

set_option autoImplicit false

namespace MemSim

open Exec

/-- `target` with `count` bytes of `source` copied to position `start`. -/
def overwrite (target : Nat → UInt8) (start count : Nat) (source : Nat → UInt8) : Nat → UInt8 :=
  fun index => if start ≤ index ∧ index < start + count then source (index - start)
    else target index

/-- An open file.  Bytes that were never written read as zero, also those that
a write past the end leaves behind. -/
structure SwapFile where
  data : Nat → UInt8
  size : Nat
  pos : Nat
  zeros : ∀ index, size ≤ index → data index = 0

def SwapFile.empty : SwapFile := ⟨fun _ => 0, 0, 0, fun _ _ => rfl⟩

def SwapFile.seek (file : SwapFile) (pos : Nat) : SwapFile := { file with pos := pos }

/-- What writing `count` bytes at the current position leaves. -/
def SwapFile.write (file : SwapFile) (count : Nat) (source : Nat → UInt8) : SwapFile where
  data := overwrite file.data file.pos count source
  size := if count = 0 then file.size else max file.size (file.pos + count)
  pos := file.pos + count
  zeros := by
    intro index above
    split at above
    · rename_i none'
      have outside : ¬ (file.pos ≤ index ∧ index < file.pos + count) := by omega
      simp only [overwrite, if_neg outside]
      exact file.zeros index above
    · have outside : ¬ (file.pos ≤ index ∧ index < file.pos + count) := by omega
      simp only [overwrite, if_neg outside]
      exact file.zeros index (by omega)

/-- Simulated physical memory and what `CSC369_Swap` holds.  `calls` counts the
system calls made so far. -/
structure Storage where
  physmem : Nat → UInt8
  swapmap : Bitmap
  file : SwapFile
  errno : Nat
  calls : Nat

def invalidSwap : Int := -1

/-- `((off_t)idx) * CSC369_SIMULATED_FRAME_SIZE` -/
def slotOffset (idx : Nat) : Int := toOffT (idx * simulatedFrameSize)

variable (env : Env)

/-! ## System calls -/

/-- The outcome of the next system call. -/
def systemCall : Exec Storage IoOutcome := do
  let storage ← get
  set { storage with calls := storage.calls + 1 }
  pure (env.io storage.calls)

/-- A call that fails sets `errno` and returns -1. -/
def systemCallFails (errno : Nat) : Exec Storage Int := do
  modify fun storage => { storage with errno := errno }
  pure (-1)

/-- `EINVAL` -/
def einval : Nat := 22

/-- `lseek(fd, offset, SEEK_SET)` -/
def lseek (offset : Int) : Exec Storage Int := do
  match ← systemCall env with
  | .failure errno _ => systemCallFails errno
  | _ =>
      if offset < 0 then systemCallFails einval
      else do
        modify fun storage => { storage with file := storage.file.seek offset.toNat }
        pure offset

/-- How many of `count` bytes a call transfers that did not fail. -/
def IoOutcome.transferred (outcome : IoOutcome) (count : Nat) : Nat :=
  match outcome with
  | .short limit => min limit count
  | _ => count

/-- `read(fd, &physmem[start], count)` -/
def read (start count : Nat) : Exec Storage Int := do
  match ← systemCall env with
  | .failure errno _ => systemCallFails errno
  | outcome => do
      let storage ← get
      let file := storage.file
      let bytes := outcome.transferred (min count (file.size - file.pos))
      set { storage with
        physmem := overwrite storage.physmem start bytes fun index => file.data (file.pos + index)
        file := file.seek (file.pos + bytes) }
      pure bytes

/-- `write(fd, &physmem[start], count)` -/
def write (start count : Nat) : Exec Storage Int := do
  match ← systemCall env with
  | .failure errno _ => systemCallFails errno
  | outcome => do
      let storage ← get
      let bytes := outcome.transferred count
      set { storage with
        file := storage.file.write bytes fun index => storage.physmem (start + index) }
      pure bytes

/-! ## Pages -/

/-- The index in `&swap->physmem[frame * CSC369_SIMULATED_FRAME_SIZE]`, where
`frame` is an `unsigned int`. -/
def swapFrameIndex (frame : Nat) : Nat := frame % 2 ^ 32 * simulatedFrameSize % 2 ^ 32

/-- The pointer to the page data of a frame. -/
def swapFramePtr (frame : Nat) : Exec Storage Nat := do
  require (swapFrameIndex frame + simulatedFrameSize ≤ env.memsize * simulatedFrameSize)
    .outOfBounds
  pure (swapFrameIndex frame)

/-- `CSC369_SwapPageIn`. -/
def swapPageIn (frame : Nat) (offset : Int) : Exec Storage Int := do
  require (offset ≠ invalidSwap) (.failed .pageInOffset)
  let pos ← lseek env offset
  if pos ≠ offset then
    require (pos = -1) (.failed .seekPosition)
    let storage ← get
    pure (-storage.errno)
  else
    let framePtr ← swapFramePtr env frame
    let bytesRead ← read env framePtr simulatedFrameSize
    if bytesRead ≠ simulatedFrameSize then pure bytesRead
    else pure 0

/-- `CSC369_SwapPageOut` once the page has a slot. -/
def swapWritePage (frame : Nat) (offset : Int) : Exec Storage Int := do
  require (offset ≠ invalidSwap) (.failed .pageOutOffset)
  let pos ← lseek env offset
  if pos ≠ offset then
    require (pos = -1) (.failed .seekPosition)
    pure invalidSwap
  else
    let framePtr ← swapFramePtr env frame
    let bytesWritten ← write env framePtr simulatedFrameSize
    if bytesWritten ≠ simulatedFrameSize then pure invalidSwap
    else pure offset

def Storage.setSwapmap (storage : Storage) (swapmap : Bitmap) : Storage :=
  { storage with swapmap := swapmap }

/-- `CSC369_SwapPageOut`. -/
def swapPageOut (frame : Nat) (offset : Int) : Exec Storage Int := do
  if offset = invalidSwap then
    match ← onPart Storage.swapmap Storage.setSwapmap bitmapAlloc with
    | none => pure invalidSwap
    | some idx => swapWritePage env frame (slotOffset idx)
  else swapWritePage env frame offset

/-- `CSC369_SwapCreate`, less the temporary file, which starts empty. -/
def swapCreate (size : Nat) : Except Fault (Option Bitmap) := do
  if env.calloc 1 48 then bitmapCreate env size
  else pure none

/-! ## What the calls do -/

def IoOutcome.proceeds : IoOutcome → Bool
  | .failure _ _ => false
  | _ => true

def IoOutcome.whole (count : Nat) : IoOutcome → Bool
  | .success => true
  | .short limit => count ≤ limit
  | .failure _ _ => false

section Calls
variable {env} {storage : Storage}

theorem run_lseek_proceeds {offset : Nat} (proceeds : (env.io storage.calls).proceeds = true) :
    (lseek env offset).run storage =
      .ok (offset : Int)
        { storage with calls := storage.calls + 1, file := storage.file.seek offset } := by
  have natural : ¬ ((offset : Int) < 0) := by omega
  cases outcome : env.io storage.calls with
  | failure errno positive =>
      rw [outcome] at proceeds
      contradiction
  | success => simp [lseek, systemCall, outcome, natural]
  | short count => simp [lseek, systemCall, outcome, natural]

/-- Nothing but the position, `errno` and the number of calls changes. -/
structure Storage.Moved (before after : Storage) : Prop where
  physmem : after.physmem = before.physmem
  swapmap : after.swapmap = before.swapmap
  data : after.file.data = before.file.data
  size : after.file.size = before.file.size

theorem run_lseek_refused {offset : Int}
    (refused : offset < 0 ∨ (env.io storage.calls).proceeds = false) :
    ∃ after, (lseek env offset).run storage = .ok (-1) after ∧ storage.Moved after ∧
      0 < after.errno := by
  cases outcome : env.io storage.calls with
  | failure errno positive =>
      refine ⟨{ storage with calls := storage.calls + 1, errno := errno }, ?_,
        ⟨rfl, rfl, rfl, rfl⟩, positive⟩
      simp [lseek, systemCall, systemCallFails, outcome]
  | success =>
      have negative : offset < 0 := by simpa [outcome, IoOutcome.proceeds] using refused
      refine ⟨{ storage with calls := storage.calls + 1, errno := einval }, ?_,
        ⟨rfl, rfl, rfl, rfl⟩, Nat.zero_lt_succ 21⟩
      simp [lseek, systemCall, systemCallFails, outcome, negative]
  | short count =>
      have negative : offset < 0 := by simpa [outcome, IoOutcome.proceeds] using refused
      refine ⟨{ storage with calls := storage.calls + 1, errno := einval }, ?_,
        ⟨rfl, rfl, rfl, rfl⟩, Nat.zero_lt_succ 21⟩
      simp [lseek, systemCall, systemCallFails, outcome, negative]

theorem overwrite_outside {target source : Nat → UInt8} {start count index : Nat}
    (outside : ¬ (start ≤ index ∧ index < start + count)) :
    overwrite target start count source index = target index := if_neg outside

theorem overwrite_inside {target source : Nat → UInt8} {start count offset : Nat}
    (inside : offset < count) :
    overwrite target start count source (start + offset) = source offset := by
  rw [overwrite, if_pos (by omega), Nat.add_sub_cancel_left]

/-- What a write of a page to `offset` did, whatever its result. -/
structure Storage.PageWritten (before after : Storage) (start offset : Nat) (result : Int) :
    Prop where
  physmem : after.physmem = before.physmem
  swapmap : after.swapmap = before.swapmap
  outside : ∀ index, ¬ (offset ≤ index ∧ index < offset + 16) →
    after.file.data index = before.file.data index
  size : before.file.size ≤ after.file.size
  stored : result ≠ invalidSwap → offset + 16 ≤ after.file.size ∧
    ∀ byte < 16, after.file.data (offset + byte) = before.physmem (start + byte)

theorem Storage.Moved.pageWritten {after : Storage} (moved : storage.Moved after)
    (start offset : Nat) : storage.PageWritten after start offset invalidSwap where
  physmem := moved.physmem
  swapmap := moved.swapmap
  outside := fun _ _ => by rw [moved.data]
  size := Nat.le_of_eq moved.size.symm
  stored := fun ok => absurd rfl ok

theorem IoOutcome.transferred_le (outcome : IoOutcome) (count : Nat) :
    outcome.transferred count ≤ count := by
  cases outcome with
  | success => exact Nat.le_refl count
  | short limit => exact Nat.min_le_right limit count
  | failure errno positive => exact Nat.le_refl count

theorem IoOutcome.transferred_whole {outcome : IoOutcome} {count : Nat}
    (proceeds : outcome.proceeds = true) :
    outcome.transferred count = count ↔ outcome.whole count = true := by
  cases outcome with
  | failure errno positive => contradiction
  | success => simp [IoOutcome.transferred, IoOutcome.whole]
  | short limit =>
      simp only [IoOutcome.transferred, IoOutcome.whole, decide_eq_true_eq]
      omega

theorem IoOutcome.whole_of_not_proceeds {outcome : IoOutcome} {count : Nat}
    (refused : outcome.proceeds = false) : outcome.whole count = false := by
  cases outcome with
  | failure errno positive => rfl
  | success => contradiction
  | short limit => contradiction

theorem run_write_refused (start count : Nat)
    (refused : (env.io storage.calls).proceeds = false) :
    ∃ after, (write env start count).run storage = .ok (-1) after ∧ storage.Moved after := by
  cases outcome : env.io storage.calls with
  | failure errno positive =>
      refine ⟨{ storage with calls := storage.calls + 1, errno := errno }, ?_, ⟨rfl, rfl, rfl, rfl⟩⟩
      simp [write, systemCall, systemCallFails, outcome]
  | success => simp [outcome, IoOutcome.proceeds] at refused
  | short limit => simp [outcome, IoOutcome.proceeds] at refused

theorem run_write_proceeds (start count : Nat)
    (proceeds : (env.io storage.calls).proceeds = true) :
    (write env start count).run storage =
      .ok ((env.io storage.calls).transferred count : Int)
        { storage with
          calls := storage.calls + 1
          file := storage.file.write ((env.io storage.calls).transferred count)
            fun index => storage.physmem (start + index) } := by
  cases outcome : env.io storage.calls with
  | failure errno positive =>
      rw [outcome] at proceeds
      contradiction
  | success => simp [write, systemCall, outcome, IoOutcome.transferred]
  | short limit => simp [write, systemCall, outcome, IoOutcome.transferred]

/-- Writing `count` bytes of a page at the current position. -/
theorem Storage.pageWritten_write (storage : Storage) (start : Nat) {count calls : Nat}
    (atMost : count ≤ 16) {result : Int} (stored : result ≠ invalidSwap → count = 16) :
    storage.PageWritten
      { storage with
        calls := calls
        file := storage.file.write count fun index => storage.physmem (start + index) }
      start storage.file.pos result where
  physmem := rfl
  swapmap := rfl
  outside := by
    intro index outside
    have untouched : ¬ (storage.file.pos ≤ index ∧ index < storage.file.pos + count) := by omega
    simp only [SwapFile.write, overwrite_outside untouched]
  size := by
    simp only [SwapFile.write]
    split <;> omega
  stored := by
    intro ok
    obtain rfl := stored ok
    constructor
    · simp only [SwapFile.write, Nat.reduceEqDiff, if_false]
      omega
    · intro byte bound
      simp only [SwapFile.write, overwrite_inside bound]

theorem swapFrameIndex_inRange {frame : Nat} (bound : frame < env.memsize) :
    swapFrameIndex frame + simulatedFrameSize ≤ env.memsize * simulatedFrameSize := by
  simp only [swapFrameIndex, simulatedFrameSize_eq]
  omega

theorem swapFrameIndex_small {frame : Nat} (small : frame < 2 ^ 28) :
    swapFrameIndex frame = frame * simulatedFrameSize := by
  simp only [swapFrameIndex, simulatedFrameSize_eq]
  omega

theorem run_swapFramePtr {frame : Nat} (bound : frame < env.memsize) :
    (swapFramePtr env frame).run storage = .ok (swapFrameIndex frame) storage := by
  have inRange : swapFrameIndex frame + simulatedFrameSize ≤ env.memsize * simulatedFrameSize :=
    swapFrameIndex_inRange bound
  simp only [simulatedFrameSize_eq] at inRange
  simp [swapFramePtr, inRange]

/-- The seek and the write of a page to `offset` would both do their work. -/
def Storage.writeOk (env : Env) (storage : Storage) (offset : Int) : Bool :=
  decide (0 ≤ offset) && (env.io storage.calls).proceeds &&
    (env.io (storage.calls + 1)).whole simulatedFrameSize

theorem swapWritePage_spec {frame : Nat} (bound : frame < env.memsize) {offset : Int}
    (slot : offset ≠ invalidSwap) :
    ∃ result after, (swapWritePage env frame offset).run storage = .ok result after ∧
      storage.PageWritten after (swapFrameIndex frame) offset.toNat result ∧
      result = if storage.writeOk env offset then offset else invalidSwap := by
  have required : decide (offset ≠ invalidSwap) = true := decide_eq_true slot
  by_cases refused : offset < 0 ∨ (env.io storage.calls).proceeds = false
  · obtain ⟨after, seek, moved, -⟩ := run_lseek_refused refused
    have apart : ¬ (-1 = offset) := fun same => slot same.symm
    have notOk : storage.writeOk env offset = false := by
      rcases refused with negative | refused
      · simp [Storage.writeOk, Int.not_le.mpr negative]
      · simp [Storage.writeOk, refused]
    refine ⟨invalidSwap, after, ?_, moved.pageWritten _ _, by simp [notOk]⟩
    simp only [swapWritePage, required, EStateM.run_bind, run_require_true, seek]
    simp [apart]
  · obtain ⟨natural, proceeds⟩ : 0 ≤ offset ∧ (env.io storage.calls).proceeds = true := by
      simpa using refused
    obtain ⟨position, rfl⟩ := Int.eq_ofNat_of_zero_le natural
    let sought : Storage :=
      { storage with calls := storage.calls + 1, file := storage.file.seek position }
    have seek : (lseek env (position : Int)).run storage = .ok (position : Int) sought :=
      run_lseek_proceeds proceeds
    have pointer := @run_swapFramePtr env sought frame bound
    cases writes : (env.io sought.calls).proceeds with
    | false =>
        obtain ⟨after, write, moved⟩ :=
          run_write_refused (swapFrameIndex frame) simulatedFrameSize writes
        have notOk : storage.writeOk env position = false := by
          have notWhole : (env.io (storage.calls + 1)).whole simulatedFrameSize = false :=
            IoOutcome.whole_of_not_proceeds writes
          simp only [Storage.writeOk, notWhole, Bool.and_false]
        refine ⟨invalidSwap, after, ?_, Storage.Moved.pageWritten ?_ _ _, by simp [notOk]⟩
        · simp only [swapWritePage, required, EStateM.run_bind, run_require_true, seek, pointer,
            ne_eq, not_true, if_false, write]
          rfl
        · exact ⟨moved.physmem, moved.swapmap, moved.data, moved.size⟩
    | true =>
        have write := run_write_proceeds (swapFrameIndex frame) simulatedFrameSize writes
        have whole := @IoOutcome.transferred_whole _ simulatedFrameSize writes
        have atMost := (env.io sought.calls).transferred_le simulatedFrameSize
        have ok : storage.writeOk env position =
            (env.io sought.calls).whole simulatedFrameSize := by
          simp only [Storage.writeOk, natural, proceeds, decide_true, Bool.true_and]
          rfl
        simp only [simulatedFrameSize_eq] at whole atMost ok write
        let after : Storage :=
          { sought with
            calls := sought.calls + 1
            file := sought.file.write ((env.io sought.calls).transferred 16)
              fun index => sought.physmem (swapFrameIndex frame + index) }
        have written : ∀ {result : Int}, (result ≠ invalidSwap →
            (env.io sought.calls).transferred 16 = 16) →
            storage.PageWritten after (swapFrameIndex frame) position result := by
          intro result stored
          have here := @Storage.pageWritten_write sought (swapFrameIndex frame) _
            (sought.calls + 1) atMost result stored
          exact ⟨here.physmem, here.swapmap, here.outside, here.size, here.stored⟩
        have run : ∀ result : Int, (if ((env.io sought.calls).transferred 16 : Int) ≠ 16 then
            invalidSwap else (position : Int)) = result →
            (swapWritePage env frame position).run storage = .ok result after := by
          rintro result rfl
          simp only [swapWritePage, required, EStateM.run_bind, run_require_true, seek, pointer,
            ne_eq, not_true, if_false, simulatedFrameSize_eq, write]
          by_cases all : ((env.io sought.calls).transferred 16 : Int) = 16
          · simp [all, after]
          · simp [all, after]
        cases complete : (env.io sought.calls).whole 16 with
        | true =>
            have all := whole.mpr complete
            refine ⟨position, after, run _ (by simp [all]), written fun _ => all, ?_⟩
            rw [ok, complete, if_pos rfl]
        | false =>
            have partly : (env.io sought.calls).transferred 16 ≠ 16 := fun all =>
              Bool.noConfusion (complete.symm.trans (whole.mp all))
            refine ⟨invalidSwap, after, run _ ?_, written fun good => absurd rfl good, ?_⟩
            · rw [if_pos]
              omega
            · rw [ok, complete]
              rfl

theorem slotOffset_ne_invalid (idx : Nat) : slotOffset idx ≠ invalidSwap := by
  intro same
  have remainder : Int.bmod ((idx * 16 : Nat) : Int) (2 ^ 64) % ((2 ^ 64 : Nat) : Int) =
      ((idx * 16 : Nat) : Int) % ((2 ^ 64 : Nat) : Int) := Int.bmod_emod
  have value : Int.bmod ((idx * 16 : Nat) : Int) (2 ^ 64) = -1 := same
  rw [value] at remainder
  omega

/-- Slots below 2^59 have an offset that fits `off_t`. -/
theorem slotOffset_small {idx : Nat} (small : idx < 2 ^ 59) :
    slotOffset idx = (idx * 16 : Nat) := by
  have value : slotOffset idx = Int.bmod ((idx * 16 : Nat) : Int) (2 ^ 64) := rfl
  rw [value]
  apply Int.bmod_eq_of_le
  · omega
  · omega

/-- The bitmap has a slot for the page, or the page has one already, and the
seek and the write do their work. -/
def Storage.PageOutOk (env : Env) (storage : Storage) (offset : Int) : Prop :=
  if offset = invalidSwap then
    ∃ idx, storage.swapmap.firstClear = some idx ∧ storage.writeOk env (slotOffset idx) = true
  else storage.writeOk env offset = true

theorem swapPageOut_spec (shaped : storage.swapmap.Shaped) {frame : Nat}
    (bound : frame < env.memsize) (offset : Int) :
    (offset = invalidSwap ∧ storage.swapmap.firstClear = none ∧
      (swapPageOut env frame offset).run storage = .ok invalidSwap storage) ∨
    ∃ slot swapmap result after,
      (offset ≠ invalidSwap ∧ slot = offset ∧ swapmap = storage.swapmap ∨
        offset = invalidSwap ∧ ∃ idx < bitmapCapacity storage.swapmap.nbits,
          storage.swapmap.firstClear = some idx ∧ slot = slotOffset idx ∧
          swapmap = storage.swapmap.setBit idx) ∧
      (swapPageOut env frame offset).run storage = .ok result after ∧
      (storage.setSwapmap swapmap).PageWritten after (swapFrameIndex frame) slot.toNat result ∧
      result = if storage.writeOk env slot then slot else invalidSwap := by
  by_cases fresh : offset = invalidSwap
  · rcases bitmapAlloc_spec shaped with ⟨idx, below, clear, alloc⟩ | ⟨full, alloc⟩
    · right
      obtain ⟨result, after, write, written, value⟩ :=
        @swapWritePage_spec env (storage.setSwapmap (storage.swapmap.setBit idx)) frame bound
          (slotOffset idx) (slotOffset_ne_invalid idx)
      refine ⟨slotOffset idx, _, result, after, .inr ⟨fresh, idx, below, clear, rfl, rfl⟩, ?_,
        written, value⟩
      simp only [swapPageOut, fresh, if_true, EStateM.run_bind, run_onPart, alloc, write]
    · left
      refine ⟨fresh, full, ?_⟩
      simp only [swapPageOut, fresh, if_true, EStateM.run_bind, run_onPart, alloc]
      rfl
  · right
    obtain ⟨result, after, write, written, value⟩ := @swapWritePage_spec env storage frame bound
      offset fresh
    exact ⟨offset, storage.swapmap, result, after, .inl ⟨fresh, rfl, rfl⟩,
      by simp only [swapPageOut, fresh, if_false, write], written, value⟩

theorem swapPageOut_returns (shaped : storage.swapmap.Shaped) {frame : Nat}
    (bound : frame < env.memsize) (offset : Int) :
    ∃ result after, (swapPageOut env frame offset).run storage = .ok result after := by
  rcases swapPageOut_spec shaped bound offset with
    ⟨-, -, run⟩ | ⟨slot, swapmap, result, after, -, run, -⟩
  · exact ⟨_, _, run⟩
  · exact ⟨_, _, run⟩

/-- A page-out fails exactly when it is not `PageOutOk`. -/
theorem swapPageOut_invalid_iff (shaped : storage.swapmap.Shaped) {frame : Nat}
    (bound : frame < env.memsize) {offset result : Int} {after : Storage}
    (run : (swapPageOut env frame offset).run storage = .ok result after) :
    result = invalidSwap ↔ ¬ storage.PageOutOk env offset := by
  rcases swapPageOut_spec shaped bound offset with
    ⟨fresh, full, run'⟩ | ⟨slot, swapmap, result', after', chosen, run', -, value⟩
  · rw [run'] at run
    cases run
    simp [Storage.PageOutOk, fresh, full]
  · rw [run'] at run
    cases run
    have decided : ∀ {slot : Int}, slot ≠ invalidSwap →
        ((if storage.writeOk env slot then slot else invalidSwap) = invalidSwap ↔
          ¬ storage.writeOk env slot = true) := by
      intro slot valid
      split <;> simp_all
    rcases chosen with ⟨notFresh, same, -⟩ | ⟨fresh, idx, -, clear, same, -⟩
    · rw [value, Storage.PageOutOk, if_neg notFresh, same]
      exact decided notFresh
    · rw [value, Storage.PageOutOk, if_pos fresh, same, decided (slotOffset_ne_invalid idx)]
      simp [clear]

/-- What reading a page into physical memory at `start` did, whatever its result. -/
structure Storage.PageLoaded (before after : Storage) (start : Nat) : Prop where
  swapmap : after.swapmap = before.swapmap
  data : after.file.data = before.file.data
  size : after.file.size = before.file.size
  outside : ∀ index, ¬ (start ≤ index ∧ index < start + 16) →
    after.physmem index = before.physmem index

theorem run_read_refused (start count : Nat)
    (refused : (env.io storage.calls).proceeds = false) :
    ∃ after, (read env start count).run storage = .ok (-1) after ∧ storage.Moved after := by
  cases outcome : env.io storage.calls with
  | failure errno positive =>
      refine ⟨{ storage with calls := storage.calls + 1, errno := errno }, ?_, ⟨rfl, rfl, rfl, rfl⟩⟩
      simp [read, systemCall, systemCallFails, outcome]
  | success => simp [outcome, IoOutcome.proceeds] at refused
  | short limit => simp [outcome, IoOutcome.proceeds] at refused

/-- Reading `bytes` bytes from the current position. -/
def Storage.read (storage : Storage) (start bytes : Nat) : Storage :=
  { storage with
    calls := storage.calls + 1
    physmem := overwrite storage.physmem start bytes
      fun index => storage.file.data (storage.file.pos + index)
    file := storage.file.seek (storage.file.pos + bytes) }

theorem run_read_proceeds (start count : Nat)
    (proceeds : (env.io storage.calls).proceeds = true) :
    ∃ bytes ≤ count, bytes = (env.io storage.calls).transferred
        (min count (storage.file.size - storage.file.pos)) ∧
      (read env start count).run storage = .ok (bytes : Int) (storage.read start bytes) := by
  refine ⟨_, ?_, rfl, ?_⟩
  · exact Nat.le_trans (IoOutcome.transferred_le _ _) (Nat.min_le_left _ _)
  · cases outcome : env.io storage.calls with
    | failure errno positive =>
        rw [outcome] at proceeds
        contradiction
    | success => simp [MemSim.read, systemCall, outcome, IoOutcome.transferred, Storage.read]
    | short limit => simp [MemSim.read, systemCall, outcome, IoOutcome.transferred, Storage.read]

theorem run_swapPageIn_refused {frame : Nat} {offset : Int} (slot : offset ≠ invalidSwap)
    (refused : offset < 0 ∨ (env.io storage.calls).proceeds = false) :
    ∃ after, (swapPageIn env frame offset).run storage = .ok (-after.errno) after ∧
      storage.Moved after ∧ 0 < after.errno := by
  have required : decide (offset ≠ invalidSwap) = true := decide_eq_true slot
  have apart : ¬ (-1 = offset) := fun same => slot same.symm
  obtain ⟨after, seek, moved, positive⟩ := run_lseek_refused refused
  refine ⟨after, ?_, moved, positive⟩
  simp only [swapPageIn, required, EStateM.run_bind, run_require_true, seek]
  simp [apart]

theorem run_swapPageIn_read {frame position : Nat} {bytes : Int} {after : Storage}
    (bound : frame < env.memsize) (slot : (position : Int) ≠ invalidSwap)
    (proceeds : (env.io storage.calls).proceeds = true)
    (reads : (MemSim.read env (swapFrameIndex frame) simulatedFrameSize).run
      { storage with calls := storage.calls + 1, file := storage.file.seek position } =
        .ok bytes after) :
    (swapPageIn env frame position).run storage =
      .ok (if bytes = simulatedFrameSize then 0 else bytes) after := by
  have required : decide ((position : Int) ≠ invalidSwap) = true := decide_eq_true slot
  have seek := @run_lseek_proceeds env storage position proceeds
  have pointer := @run_swapFramePtr env
    { storage with calls := storage.calls + 1, file := storage.file.seek position } frame bound
  simp only [swapPageIn, required, EStateM.run_bind, run_require_true, seek, pointer, ne_eq,
    not_true, if_false, reads]
  by_cases whole : bytes = (simulatedFrameSize : Int)
  · rw [if_neg (not_not_intro whole), if_pos whole]
    rfl
  · rw [if_pos whole, if_neg whole]
    rfl

theorem swapPageIn_spec {frame : Nat} (bound : frame < env.memsize) {offset : Int}
    (slot : offset ≠ invalidSwap) :
    ∃ result after, (swapPageIn env frame offset).run storage = .ok result after ∧
      storage.PageLoaded after (swapFrameIndex frame) := by
  by_cases refused : offset < 0 ∨ (env.io storage.calls).proceeds = false
  · obtain ⟨after, run, moved, -⟩ := @run_swapPageIn_refused env storage frame offset slot refused
    exact ⟨_, after, run, moved.swapmap, moved.data, moved.size,
      fun _ _ => by rw [moved.physmem]⟩
  · obtain ⟨natural, proceeds⟩ : 0 ≤ offset ∧ (env.io storage.calls).proceeds = true := by
      simpa using refused
    obtain ⟨position, rfl⟩ := Int.eq_ofNat_of_zero_le natural
    let sought : Storage :=
      { storage with calls := storage.calls + 1, file := storage.file.seek position }
    cases reads : (env.io sought.calls).proceeds with
    | false =>
        obtain ⟨after, run, moved⟩ :=
          run_read_refused (swapFrameIndex frame) simulatedFrameSize reads
        exact ⟨_, after, run_swapPageIn_read bound slot proceeds run, moved.swapmap, moved.data,
          moved.size, fun _ _ => by rw [moved.physmem]⟩
    | true =>
        obtain ⟨bytes, atMost, -, run⟩ :=
          run_read_proceeds (swapFrameIndex frame) simulatedFrameSize reads
        refine ⟨_, _, run_swapPageIn_read bound slot proceeds run, rfl, rfl, rfl, ?_⟩
        intro index outside
        have untouched :
            ¬ (swapFrameIndex frame ≤ index ∧ index < swapFrameIndex frame + bytes) := by
          rw [simulatedFrameSize_eq] at atMost
          omega
        simp only [Storage.read, overwrite_outside untouched]
        rfl

theorem swapPageIn_loads (succeeds : ∀ call, env.io call = .success) {frame : Nat}
    (bound : frame < env.memsize) {offset : Nat} (inside : offset + 16 ≤ storage.file.size) :
    (swapPageIn env frame (offset : Int)).run storage =
      .ok 0
        { storage with
          physmem := overwrite storage.physmem (swapFrameIndex frame) 16
            fun index => storage.file.data (offset + index)
          file := storage.file.seek (offset + 16)
          calls := storage.calls + 2 } := by
  have slot : ((offset : Int) ≠ invalidSwap) := by
    simp only [invalidSwap]
    omega
  let sought : Storage :=
    { storage with calls := storage.calls + 1, file := storage.file.seek offset }
  obtain ⟨bytes, -, count, run⟩ := @run_read_proceeds env sought (swapFrameIndex frame) 16
    (by rw [succeeds]; rfl)
  have whole : bytes = 16 := by
    rw [count, succeeds]
    exact Nat.min_eq_left (by simp only [sought, SwapFile.seek]; omega)
  subst whole
  exact run_swapPageIn_read bound slot (by rw [succeeds]; rfl) run

end Calls

/-! ## Calls that succeed -/

section Succeeds
variable {env : Env} (succeeds : ∀ call, env.io call = .success) {storage : Storage}
include succeeds

theorem run_lseek_succeeds (offset : Int) :
    (lseek env offset).run storage =
      if offset < 0 then
        .ok (-1) { storage with calls := storage.calls + 1, errno := einval }
      else .ok offset
        { storage with calls := storage.calls + 1, file := storage.file.seek offset.toNat } := by
  by_cases negative : offset < 0
  · simp [lseek, systemCall, systemCallFails, succeeds, negative]
  · simp [lseek, systemCall, succeeds, negative]

theorem run_read_succeeds (start count : Nat) :
    (read env start count).run storage =
      .ok (min count (storage.file.size - storage.file.pos) : Nat)
        (storage.read start (min count (storage.file.size - storage.file.pos))) := by
  simp [MemSim.read, systemCall, succeeds, IoOutcome.transferred, Storage.read]

theorem run_write_succeeds (start count : Nat) :
    (write env start count).run storage =
      .ok (count : Int)
        { storage with
          calls := storage.calls + 1
          file := storage.file.write count fun index => storage.physmem (start + index) } := by
  simp [write, systemCall, succeeds, IoOutcome.transferred]

theorem run_swapPageIn_succeeds (frame : Nat) {offset : Int} (slot : offset ≠ invalidSwap) :
    (swapPageIn env frame offset).run storage =
      if offset < 0 then
        .ok (-einval) { storage with calls := storage.calls + 1, errno := einval }
      else if swapFrameIndex frame + 16 ≤ env.memsize * 16 then
        .ok (if min 16 (storage.file.size - offset.toNat) = 16 then 0
          else (min 16 (storage.file.size - offset.toNat) : Nat))
          ({ storage with
            calls := storage.calls + 1
            file := storage.file.seek offset.toNat }.read (swapFrameIndex frame)
              (min 16 (storage.file.size - offset.toNat)))
      else .error .outOfBounds
        { storage with calls := storage.calls + 1, file := storage.file.seek offset.toNat } := by
  have required : decide (offset ≠ invalidSwap) = true := decide_eq_true slot
  have apart : (-1 : Int) ≠ offset := fun same => slot same.symm
  have finish : ∀ (bytes : Nat) (after : Storage),
      (if (bytes : Int) ≠ simulatedFrameSize then pure (bytes : Int) else pure 0 :
        Exec Storage Int).run after = .ok (if bytes = 16 then 0 else (bytes : Int)) after := by
    intro bytes after
    by_cases whole : bytes = 16
    · simp [whole]
    · have short : (bytes : Int) ≠ simulatedFrameSize := by
        rw [simulatedFrameSize_eq]
        omega
      rw [if_pos short, if_neg whole]
      rfl
  simp only [swapPageIn, swapFramePtr, simulatedFrameSize_eq, required, EStateM.run_bind,
    run_require_true, run_lseek_succeeds succeeds]
  by_cases negative : offset < 0
  · simp [negative, apart]
  · by_cases inRange : swapFrameIndex frame + 16 ≤ env.memsize * 16
    · simp only [negative, if_false, inRange, decide_true, EStateM.run_bind, run_require_true,
        EStateM.run_pure, ne_eq, not_true, if_true, run_read_succeeds succeeds, SwapFile.seek]
      exact finish _ _
    · simp [negative, inRange]

theorem run_swapWritePage_succeeds (frame : Nat) {offset : Int} (slot : offset ≠ invalidSwap) :
    (swapWritePage env frame offset).run storage =
      if offset < 0 then
        .ok invalidSwap { storage with calls := storage.calls + 1, errno := einval }
      else if swapFrameIndex frame + 16 ≤ env.memsize * 16 then
        .ok offset
          { storage with
            calls := storage.calls + 1 + 1
            file := (storage.file.seek offset.toNat).write 16
              fun index => storage.physmem (swapFrameIndex frame + index) }
      else .error .outOfBounds
        { storage with calls := storage.calls + 1, file := storage.file.seek offset.toNat } := by
  have required : decide (offset ≠ invalidSwap) = true := decide_eq_true slot
  have apart : (-1 : Int) ≠ offset := fun same => slot same.symm
  simp only [swapWritePage, swapFramePtr, simulatedFrameSize_eq, required, EStateM.run_bind,
    run_require_true, run_lseek_succeeds succeeds]
  by_cases negative : offset < 0
  · simp [negative, apart]
  · by_cases inRange : swapFrameIndex frame + 16 ≤ env.memsize * 16
    · simp only [negative, if_false, inRange, decide_true, EStateM.run_bind, run_require_true,
        EStateM.run_pure, ne_eq, not_true, if_true, run_write_succeeds succeeds]
    · simp [negative, inRange]

end Succeeds

end MemSim
