import MemSim.SlotLeaks

/-!
# The result of a page-in

`CSC369_SwapPageIn` returns 0, a negated `errno` or the number of bytes that
`read` returned.  At the end of the file `read` returns 0 as well.
-/

set_option autoImplicit false

namespace MemSim

open Exec

/-! ## What a page-in reads -/

/-- The seek and the read of the page at `offset` would both do their work, up to
the last byte. -/
def Storage.readOk (env : Env) (storage : Storage) (offset : Int) : Bool :=
  storage.seekOk env offset && decide (offset.toNat + simulatedFrameSize ≤ storage.file.size) &&
    (env.io (storage.calls + 1)).whole simulatedFrameSize

/-- How many bytes of the slot at `offset` a page-in places in the frame. -/
def Storage.bytesRead (env : Env) (storage : Storage) (offset : Int) : Nat :=
  if storage.seekOk env offset && (env.io (storage.calls + 1)).proceeds then
    (env.io (storage.calls + 1)).transferred
      (min simulatedFrameSize (storage.file.size - offset.toNat))
  else 0

/-- Neither the seek nor the read for the page at `offset` is refused. -/
def Storage.reads (env : Env) (storage : Storage) (offset : Int) : Bool :=
  storage.seekOk env offset && (env.io (storage.calls + 1)).proceeds

/-- What a page-in that returned `result` left. -/
structure Storage.PageRead (env : Env) (before after : Storage) (start : Nat)
    (offset result : Int) : Prop where
  physmem : after.physmem = overwrite before.physmem start (before.bytesRead env offset)
    fun index => before.file.data (offset.toNat + index)
  refused : before.reads env offset = false → result < 0
  counted : before.reads env offset = true →
    result = if before.bytesRead env offset = simulatedFrameSize then 0
      else (before.bytesRead env offset : Int)

/-- The page-in places the bytes that it read in the frame.  Its result is 0 if
and only if that was the whole page, and a positive result is the number of bytes
of a partial read. -/
def FaithfulPageIn (env : Env) (storage : Storage) (frame : Nat) (offset : Int) : Prop :=
  ∃ result after, (swapPageIn env frame offset).run storage = .ok result after ∧
    after.physmem = overwrite storage.physmem (frame * simulatedFrameSize)
      (storage.bytesRead env offset) (fun index => storage.file.data (offset.toNat + index)) ∧
    (result = 0 ↔ storage.bytesRead env offset = simulatedFrameSize) ∧
    (0 < result → result = storage.bytesRead env offset ∧
      storage.bytesRead env offset < simulatedFrameSize)

/-- Neither call is refused, and the read is at or past the end of the file or
transfers nothing. -/
def Storage.ReadsNothing (env : Env) (storage : Storage) (offset : Int) : Prop :=
  (env.io storage.calls).proceeds = true ∧ (env.io (storage.calls + 1)).proceeds = true ∧
    (storage.file.size ≤ offset.toNat ∨ env.io (storage.calls + 1) = .short 0)

section Reads
variable {env : Env} {storage : Storage} {frame : Nat} {offset : Int}

theorem Storage.bytesRead_le : storage.bytesRead env offset ≤ simulatedFrameSize := by
  unfold Storage.bytesRead
  split
  · exact Nat.le_trans (IoOutcome.transferred_le _ _) (Nat.min_le_left _ _)
  · exact Nat.zero_le _

theorem Storage.bytesRead_eq_iff :
    storage.bytesRead env offset = simulatedFrameSize ↔ storage.readOk env offset = true := by
  unfold Storage.bytesRead Storage.readOk
  cases seekOk : storage.seekOk env offset with
  | false => simp [simulatedFrameSize_eq]
  | true =>
      cases reads : (env.io (storage.calls + 1)).proceeds with
      | false => simp [IoOutcome.whole_of_not_proceeds reads, simulatedFrameSize_eq]
      | true =>
          have limit := (env.io (storage.calls + 1)).transferred_le
            (min simulatedFrameSize (storage.file.size - offset.toNat))
          have whole := @IoOutcome.transferred_whole _ simulatedFrameSize reads
          simp only [Bool.and_self, if_true, Bool.true_and, Bool.and_eq_true, decide_eq_true_eq,
            ← whole]
          constructor
          · intro all
            have inFile : offset.toNat + simulatedFrameSize ≤ storage.file.size := by
              rw [all] at limit
              simp only [simulatedFrameSize_eq] at limit ⊢
              omega
            rw [Nat.min_eq_left (by omega)] at all
            exact ⟨inFile, all⟩
          · intro both
            rw [Nat.min_eq_left (by omega)]
            exact both.2

theorem Storage.bytesRead_of_not_reads (refused : storage.reads env offset = false) :
    storage.bytesRead env offset = 0 := by
  unfold Storage.bytesRead
  rw [Storage.reads] at refused
  rw [refused]
  rfl

theorem swapPageIn_seek_refused (slot : offset ≠ invalidSwap)
    (refused : storage.seekOk env offset = false) :
    ∃ result after, (swapPageIn env frame offset).run storage = .ok result after ∧
      storage.PageRead env after (swapFrameIndex frame) offset result := by
  have stops : offset < 0 ∨ (env.io storage.calls).proceeds = false := by
    simpa only [Storage.seekOk, Bool.and_eq_false_iff, decide_eq_false_iff_not, Int.not_le]
      using refused
  obtain ⟨after, run, moved, positive⟩ :=
    @run_swapPageIn_refused env storage frame offset slot stops
  have noRead : storage.reads env offset = false := by rw [Storage.reads, refused]; rfl
  refine ⟨_, after, run, ⟨?_, fun _ => ?_, fun reads => ?_⟩⟩
  · rw [Storage.bytesRead_of_not_reads noRead, moved.physmem]
    funext index
    rw [overwrite_outside (by omega)]
  · exact Int.neg_neg_of_pos (by exact_mod_cast positive)
  · rw [noRead] at reads
    exact absurd reads Bool.false_ne_true

theorem swapPageIn_reads (bound : frame < env.memsize) (slot : offset ≠ invalidSwap) :
    ∃ result after, (swapPageIn env frame offset).run storage = .ok result after ∧
      storage.PageRead env after (swapFrameIndex frame) offset result := by
  cases seekOk : storage.seekOk env offset with
  | false => exact swapPageIn_seek_refused slot seekOk
  | true =>
      obtain ⟨natural, proceeds⟩ : 0 ≤ offset ∧ (env.io storage.calls).proceeds = true := by
        simpa [Storage.seekOk] using seekOk
      obtain ⟨position, rfl⟩ := Int.eq_ofNat_of_zero_le natural
      let sought : Storage :=
        { storage with calls := storage.calls + 1, file := storage.file.seek position }
      cases reads : (env.io sought.calls).proceeds with
      | false =>
          obtain ⟨after, run, moved⟩ :=
            run_read_refused (swapFrameIndex frame) simulatedFrameSize reads
          have noRead : storage.reads env (position : Int) = false := by
            rw [Storage.reads, seekOk]
            exact reads
          refine ⟨_, after, run_swapPageIn_read bound slot proceeds run, ?_, fun _ => ?_,
            fun reads => ?_⟩
          · rw [Storage.bytesRead_of_not_reads noRead, moved.physmem]
            funext index
            rw [overwrite_outside (by omega)]
          · rw [if_neg (by rw [simulatedFrameSize_eq]; omega)]
            decide
          · rw [noRead] at reads
            exact absurd reads Bool.false_ne_true
      | true =>
          obtain ⟨bytes, -, count, run⟩ :=
            run_read_proceeds (swapFrameIndex frame) simulatedFrameSize reads
          have proceeds' : (env.io (storage.calls + 1)).proceeds = true := reads
          have placed : storage.bytesRead env (position : Int) = bytes := by
            rw [Storage.bytesRead, seekOk, proceeds', count]
            rfl
          refine ⟨_, _, run_swapPageIn_read bound slot proceeds run, ?_, fun noRead => ?_,
            fun _ => ?_⟩
          · rw [placed]
            rfl
          · rw [Storage.reads, seekOk, proceeds'] at noRead
            exact absurd noRead.symm Bool.false_ne_true
          · rw [placed]
            simp only [Int.ofNat_inj]

theorem Storage.readsNothing_iff (natural : 0 ≤ offset) :
    storage.ReadsNothing env offset ↔
      storage.reads env offset = true ∧ storage.bytesRead env offset = 0 := by
  unfold Storage.ReadsNothing Storage.bytesRead Storage.reads Storage.seekOk
  simp only [decide_eq_true natural, Bool.true_and, Bool.and_eq_true, and_assoc]
  refine and_congr_right fun seeks => and_congr_right fun reads => ?_
  simp only [seeks, reads, and_self, if_true, simulatedFrameSize_eq]
  cases outcome : env.io (storage.calls + 1) with
  | failure errno positive =>
      rw [outcome] at reads
      exact absurd reads Bool.false_ne_true
  | success =>
      simp only [IoOutcome.transferred]
      constructor
      · intro nothing
        rcases nothing with past | short
        · omega
        · contradiction
      · intro nothing
        exact .inl (by omega)
  | short limit =>
      simp only [IoOutcome.transferred, IoOutcome.short.injEq]
      omega

theorem swapPageIn_faithful_iff (bound : frame < env.memsize) (narrow : frame < 2 ^ 28)
    (natural : 0 ≤ offset) :
    FaithfulPageIn env storage frame offset ↔ ¬ storage.ReadsNothing env offset := by
  have slot : offset ≠ invalidSwap := by
    simp only [invalidSwap]
    omega
  have start : swapFrameIndex frame = frame * simulatedFrameSize := by
    simp only [swapFrameIndex, simulatedFrameSize_eq]
    omega
  obtain ⟨result, after, run, read⟩ := @swapPageIn_reads env storage frame offset bound slot
  have atMost := @Storage.bytesRead_le env storage offset
  rw [Storage.readsNothing_iff natural]
  constructor
  · intro faithful nothing
    obtain ⟨result', after', run', -, whole, -⟩ := faithful
    obtain ⟨same, -⟩ : result = result' ∧ after = after' := by
      rw [run] at run'
      simpa using run'
    have zero : result = 0 := by
      rw [read.counted nothing.1, nothing.2, if_neg (by decide)]
      rfl
    have all := whole.mp (same ▸ zero)
    rw [nothing.2] at all
    exact absurd all (by decide)
  · intro something
    refine ⟨result, after, run, by rw [← start, read.physmem], ?_⟩
    cases reads : storage.reads env offset with
    | false =>
        have negative := read.refused reads
        rw [Storage.bytesRead_of_not_reads reads, simulatedFrameSize_eq]
        omega
    | true =>
        have some' : storage.bytesRead env offset ≠ 0 := fun none' => something ⟨reads, none'⟩
        rw [read.counted reads]
        by_cases all : storage.bytesRead env offset = simulatedFrameSize
        · rw [if_pos all]
          omega
        · rw [if_neg all]
          omega

end Reads

/-! ## An empty swap file -/

def emptySwap : Storage where
  physmem := fun _ => 0
  swapmap := ⟨0, []⟩
  file := .empty
  errno := 0
  calls := 0

/-- A page of a swap file of 16 bytes is loaded. -/
theorem swapPageIn_faithful_onePage :
    FaithfulPageIn (Env.ideal 1)
      { emptySwap with file := SwapFile.empty.write 16 (fun _ => 7) } 0 0 := by
  apply (swapPageIn_faithful_iff (by decide) (by decide) (by decide)).mpr
  intro nothing
  rcases nothing.2.2 with past | short
  · exact absurd past (by decide)
  · contradiction

/-- Nothing is loaded from an empty swap file, and the result says that it was. -/
theorem swapPageIn_reports_success_at_end :
    ¬ FaithfulPageIn (Env.ideal 1) emptySwap 0 0 ∧
      ∃ after, (swapPageIn (Env.ideal 1) 0 0).run emptySwap = .ok 0 after := by
  constructor
  · intro faithful
    exact (swapPageIn_faithful_iff (by decide) (by decide) (by decide)).mp faithful
      ⟨rfl, rfl, .inl (by decide)⟩
  · exact ⟨_, rfl⟩

end MemSim
