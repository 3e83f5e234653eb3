import Mathlib.Algebra.GroupWithZero.Nat
import Mathlib.Data.List.Basic
import MemSim.KMalloc

/-!
# The books of the allocation tracker

The log of a tracker tells which blocks are live and how many bytes were ever
granted.  The counters and the map of `csc369_kmalloc.c` agree with it after every
sequence of requests.
-/

set_option autoImplicit false

namespace MemSim

open Exec

/-! ## What a log says -/

/-- The live blocks, with the sizes requested for them, after one more call. -/
def AllocEvent.apply (blocks : List (Addr × Nat)) : AllocEvent → List (Addr × Nat)
  | .malloc size (some m) => (m, size) :: blocks
  | .malloc _ none => blocks
  | .free (some p) => blocks.filter fun block => block.1 ≠ p
  | .free none => blocks

/-- The blocks returned and not yet freed. -/
def liveBlocks (log : List AllocEvent) : List (Addr × Nat) := log.foldl AllocEvent.apply []

def totalSize (blocks : List (Addr × Nat)) : Nat := (blocks.map Prod.snd).sum

def IsLive (log : List AllocEvent) (m : Addr) : Prop := m ∈ (liveBlocks log).map Prod.fst

def WasReturned (log : List AllocEvent) (m : Addr) : Prop := ∃ size, .malloc size (some m) ∈ log

def AllocEvent.granted : AllocEvent → Nat
  | .malloc size (some _) => size
  | _ => 0

def grantedBytes (log : List AllocEvent) : Nat := (log.map AllocEvent.granted).sum

theorem liveBlocks_append (log : List AllocEvent) (event : AllocEvent) :
    liveBlocks (log ++ [event]) = event.apply (liveBlocks log) := by
  simp [liveBlocks]

theorem grantedBytes_append (log : List AllocEvent) (event : AllocEvent) :
    grantedBytes (log ++ [event]) = grantedBytes log + event.granted := by
  simp [grantedBytes]

theorem wasReturned_append {log : List AllocEvent} {event : AllocEvent} {m : Addr} :
    WasReturned (log ++ [event]) m ↔ WasReturned log m ∨ ∃ size, event = .malloc size (some m) := by
  simp only [WasReturned, List.mem_append, List.mem_singleton, exists_or]
  simp only [eq_comm]

@[simp] theorem totalSize_cons (block : Addr × Nat) (blocks : List (Addr × Nat)) :
    totalSize (block :: blocks) = block.2 + totalSize blocks := by
  simp [totalSize]

theorem perm_cons_filter {blocks : List (Addr × Nat)} {p : Addr} {size : Nat}
    (distinct : (blocks.map Prod.fst).Nodup) (mem : (p, size) ∈ blocks) :
    List.Perm blocks ((p, size) :: blocks.filter fun block => block.1 ≠ p) := by
  induction blocks with
  | nil => exact absurd mem List.not_mem_nil
  | cons block blocks ih =>
      obtain ⟨new, distinct⟩ := List.nodup_cons.mp distinct
      obtain same | mem := List.mem_cons.mp mem
      · subst same
        have others : blocks.filter (fun block => block.1 ≠ p) = blocks := by
          apply List.filter_eq_self.mpr
          intro other here
          have apart : other.1 ≠ p := fun same => new (List.mem_map.mpr ⟨other, here, same⟩)
          simpa using apart
        simp only [ne_eq, decide_not] at others
        simp [others]
      · have apart : block.1 ≠ p := fun same => new (List.mem_map.mpr ⟨_, mem, same.symm⟩)
        have kept : (block :: blocks).filter (fun block => block.1 ≠ p) =
            block :: blocks.filter fun block => block.1 ≠ p := by
          simp [apart]
        rw [kept]
        exact ((ih distinct mem).cons block).trans (List.Perm.swap _ _ _)

/-! ## The counters and the map -/

def Tracker.MarksFreed (tracker : Tracker) (m : Addr) : Prop :=
  ∃ size, tracker.mallocMap m = some size ∧ size &&& freedBit ≠ 0#64

/-- The counters and the map agree with the log. -/
structure Tracker.Books (tracker : Tracker) : Prop where
  distinct : ((liveBlocks tracker.log).map Prod.fst).Nodup
  sizes : ∀ block ∈ liveBlocks tracker.log, 1 ≤ block.2 ∧ block.2 < kmallocMax
  kept : ∀ block ∈ liveBlocks tracker.log,
    tracker.mallocMap block.1 = some (BitVec.ofNat 64 block.2)
  freed : ∀ m, WasReturned tracker.log m → ¬ IsLive tracker.log m → tracker.MarksFreed m
  absent : ∀ m, ¬ WasReturned tracker.log m → tracker.mallocMap m = none
  count : tracker.numMallocs = tracker.numFrees + (liveBlocks tracker.log).length
  bytes : tracker.bytesMalloced = tracker.bytesFreed + totalSize (liveBlocks tracker.log)
  granted : tracker.bytesMalloced = grantedBytes tracker.log
  budget : grantedBytes tracker.log ≤ kmallocMax

theorem Tracker.books_init : Tracker.init.Books where
  distinct := List.nodup_nil
  sizes := fun _ mem => absurd mem List.not_mem_nil
  kept := fun _ mem => absurd mem List.not_mem_nil
  freed := fun _ returned => by
    obtain ⟨size, mem⟩ := returned
    exact absurd mem List.not_mem_nil
  absent := fun _ _ => rfl
  count := rfl
  bytes := rfl
  granted := rfl
  budget := Nat.zero_le _

section Books
variable {tracker : Tracker} {m : Addr} {size : Nat}

theorem freedBit_mark (size : BitVec 64) : (size ||| freedBit) &&& freedBit ≠ 0#64 := by
  have whole : (size ||| freedBit) &&& freedBit = freedBit := by
    ext i
    simp only [BitVec.getElem_and, BitVec.getElem_or]
    cases size[i] <;> cases freedBit[i] <;> rfl
  rw [whole]
  decide

theorem kmallocMax_lt : kmallocMax < 2 ^ 63 := by decide

theorem Tracker.Books.live_iff (books : tracker.Books) :
    tracker.live m = true ↔ IsLive tracker.log m := by
  constructor
  · intro live
    by_contra dead
    by_cases returned : WasReturned tracker.log m
    · obtain ⟨size, known, marked⟩ := books.freed m returned dead
      simp only [Tracker.live, known, beq_iff_eq] at live
      exact marked live
    · simp [Tracker.live, books.absent m returned] at live
  · intro live
    obtain ⟨block, mem, rfl⟩ := List.mem_map.mp live
    have small : block.2 < 2 ^ 63 := Nat.lt_trans (books.sizes block mem).2 kmallocMax_lt
    simp [Tracker.live, books.kept block mem, size_not_freed small]

theorem Tracker.Books.marksFreed_iff (books : tracker.Books) :
    tracker.MarksFreed m ↔ WasReturned tracker.log m ∧ ¬ IsLive tracker.log m := by
  constructor
  · intro marks
    obtain ⟨size, known, marked⟩ := marks
    constructor
    · by_contra new
      rw [books.absent m new] at known
      contradiction
    · intro live
      rw [← books.live_iff] at live
      simp only [Tracker.live, known, beq_iff_eq] at live
      exact marked live
  · intro gone
    exact books.freed m gone.1 gone.2

/-- Refused requests and `free(NULL)` leave the books alone. -/
theorem Tracker.Books.idle (books : tracker.Books) {event : AllocEvent}
    (blocks : ∀ blocks, event.apply blocks = blocks) (none' : event.granted = 0)
    (silent : ∀ size m, event ≠ .malloc size (some m)) :
    Tracker.Books { tracker with log := tracker.log ++ [event] } := by
  have live : liveBlocks (tracker.log ++ [event]) = liveBlocks tracker.log := by
    rw [liveBlocks_append, blocks]
  have bytes : grantedBytes (tracker.log ++ [event]) = grantedBytes tracker.log := by
    rw [grantedBytes_append, none', Nat.add_zero]
  have returned (m : Addr) : WasReturned (tracker.log ++ [event]) m ↔ WasReturned tracker.log m := by
    rw [wasReturned_append]
    simp [silent]
  constructor
  · rw [live]
    exact books.distinct
  · rw [live]
    exact books.sizes
  · rw [live]
    exact books.kept
  · intro m before dead
    rw [returned] at before
    rw [IsLive, live] at dead
    exact books.freed m before dead
  · intro m new
    rw [returned] at new
    exact books.absent m new
  · rw [live]
    exact books.count
  · rw [live]
    exact books.bytes
  · rw [bytes]
    exact books.granted
  · rw [bytes]
    exact books.budget

theorem Tracker.Books.malloc (books : tracker.Books) (env : Env) (positive : 1 ≤ size) :
    (tracker.record size (mallocAnswer env tracker size)).Books := by
  cases answer : mallocAnswer env tracker size with
  | none => exact books.idle (fun _ => rfl) rfl (by simp)
  | some new =>
      obtain ⟨small, fresh⟩ := mallocAnswer_eq_some env answer
      have dead : ¬ IsLive tracker.log new := by
        rw [← books.live_iff, fresh]
        exact Bool.false_ne_true
      have fits : grantedBytes tracker.log + size ≤ kmallocMax := by
        have granted := books.granted
        unfold mallocAnswer at answer
        split at answer
        · contradiction
        · split at answer
          · contradiction
          · omega
      have blocks : liveBlocks (tracker.record size (some new)).log =
          (new, size) :: liveBlocks tracker.log := by
        rw [Tracker.log_record, liveBlocks_append]
        rfl
      have bytes : grantedBytes (tracker.record size (some new)).log =
          grantedBytes tracker.log + size := by
        rw [Tracker.log_record, grantedBytes_append]
        rfl
      have returned (m : Addr) : WasReturned (tracker.record size (some new)).log m ↔
          WasReturned tracker.log m ∨ m = new := by
        rw [Tracker.log_record, wasReturned_append]
        simp [eq_comm]
      have map (m : Addr) (apart : m ≠ new) :
          (tracker.record size (some new)).mallocMap m = tracker.mallocMap m := by
        simp [Tracker.record, Function.update_of_ne apart]
      have opened : (tracker.record size (some new)).mallocMap new =
          some (BitVec.ofNat 64 size) := by
        simp [Tracker.record]
      constructor
      · rw [blocks]
        exact List.nodup_cons.mpr ⟨dead, books.distinct⟩
      · rw [blocks]
        intro block mem
        obtain rfl | mem := List.mem_cons.mp mem
        · exact ⟨positive, small⟩
        · exact books.sizes block mem
      · rw [blocks]
        intro block mem
        obtain rfl | mem := List.mem_cons.mp mem
        · exact opened
        · have apart : block.1 ≠ new := fun same => dead (List.mem_map.mpr ⟨block, mem, same⟩)
          rw [map _ apart]
          exact books.kept block mem
      · intro m before gone
        rw [IsLive, blocks, List.map_cons, List.mem_cons, not_or] at gone
        rw [returned] at before
        obtain before | same := before
        · obtain ⟨size', known, marked⟩ := books.freed m before gone.2
          exact ⟨size', by rw [map _ gone.1, known], marked⟩
        · exact absurd same gone.1
      · intro m never
        rw [returned, not_or] at never
        rw [map _ never.2]
        exact books.absent m never.1
      · rw [blocks, List.length_cons]
        have := books.count
        simp only [Tracker.record]
        omega
      · rw [blocks, totalSize_cons]
        have := books.bytes
        simp only [Tracker.record]
        omega
      · rw [bytes]
        have := books.granted
        simp only [Tracker.record]
        omega
      · rw [bytes]
        exact fits

def Tracker.release (tracker : Tracker) (p : Addr) (size : Nat) : Tracker :=
  { tracker with
    numFrees := tracker.numFrees + 1
    bytesFreed := tracker.bytesFreed + size
    mallocMap := Function.update tracker.mallocMap p (some (BitVec.ofNat 64 size ||| freedBit))
    log := tracker.log ++ [.free (some p)] }

theorem Tracker.Books.run_csc369Free (books : tracker.Books) {p : Addr}
    (mem : (p, size) ∈ liveBlocks tracker.log) :
    (csc369Free (some p)).run tracker = .ok () (tracker.release p size) := by
  obtain ⟨positive, small⟩ := books.sizes _ mem
  have below : size < 2 ^ 63 - 1 := Nat.lt_of_lt_of_le small (by decide)
  have toNat : (BitVec.ofNat 64 size).toNat = size := by
    rw [BitVec.toNat_ofNat]
    omega
  have clear : (BitVec.ofNat 64 size &&& freedBit == 0#64) = true := by
    rw [size_not_freed (by omega)]
    rfl
  have nonzero : BitVec.ofNat 64 size ≠ 0#64 := by
    intro zero
    have := congrArg BitVec.toNat zero
    rw [toNat] at this
    simp only [BitVec.toNat_ofNat] at this
    omega
  have split := perm_cons_filter books.distinct mem
  have count : 0 < tracker.numMallocs - tracker.numFrees := by
    have := books.count
    rw [split.length_eq, List.length_cons] at this
    omega
  have bytes : (size : Int) ≤ tracker.bytesMalloced - tracker.bytesFreed := by
    have := books.bytes
    have total : totalSize (liveBlocks tracker.log) = size + totalSize
        ((liveBlocks tracker.log).filter fun block => block.1 ≠ p) := by
      rw [totalSize, (split.map Prod.snd).sum_nat]
      rfl
    omega
  simp only [csc369Free, EStateM.run_bind, EStateM.run_modify, EStateM.run_get, books.kept _ mem,
    toNat, clear, nonzero, count, bytes, below, ne_eq, not_false_eq_true, decide_true,
    run_require_true]
  rfl

theorem Tracker.Books.release (books : tracker.Books) {p : Addr}
    (mem : (p, size) ∈ liveBlocks tracker.log) : (tracker.release p size).Books := by
  have log : (tracker.release p size).log = tracker.log ++ [.free (some p)] := rfl
  have blocks : liveBlocks (tracker.release p size).log =
      (liveBlocks tracker.log).filter fun block => block.1 ≠ p := by
    rw [log, liveBlocks_append]
    rfl
  have bytes : grantedBytes (tracker.release p size).log = grantedBytes tracker.log := by
    rw [log, grantedBytes_append]
    rfl
  have returned (m : Addr) :
      WasReturned (tracker.release p size).log m ↔ WasReturned tracker.log m := by
    rw [log, wasReturned_append]
    simp
  have map (m : Addr) (apart : m ≠ p) :
      (tracker.release p size).mallocMap m = tracker.mallocMap m := by
    simp [Tracker.release, Function.update_of_ne apart]
  have marked : (tracker.release p size).mallocMap p =
      some (BitVec.ofNat 64 size ||| freedBit) := by
    simp [Tracker.release]
  have split := perm_cons_filter books.distinct mem
  constructor
  · rw [blocks]
    exact List.Nodup.sublist (List.filter_sublist.map Prod.fst) books.distinct
  · rw [blocks]
    intro block here
    exact books.sizes block (List.mem_of_mem_filter here)
  · rw [blocks]
    intro block here
    have apart : block.1 ≠ p := by simpa using (List.mem_filter.mp here).2
    rw [map _ apart]
    exact books.kept block (List.mem_of_mem_filter here)
  · intro m before gone
    rw [returned] at before
    by_cases same : m = p
    · rw [same]
      exact ⟨_, marked, freedBit_mark _⟩
    · have dead : ¬ IsLive tracker.log m := by
        intro live
        obtain ⟨block, here, rfl⟩ := List.mem_map.mp live
        apply gone
        rw [IsLive, blocks]
        exact List.mem_map.mpr ⟨block, List.mem_filter.mpr ⟨here, by simpa using same⟩, rfl⟩
      obtain ⟨size', known, marked⟩ := books.freed m before dead
      exact ⟨size', by rw [map _ same, known], marked⟩
  · intro m never
    rw [returned] at never
    have apart : m ≠ p := by
      intro same
      have here := books.kept _ mem
      rw [same] at never
      rw [books.absent p never] at here
      contradiction
    rw [map _ apart]
    exact books.absent m never
  · rw [blocks]
    have := books.count
    rw [split.length_eq, List.length_cons] at this
    simp only [Tracker.release]
    omega
  · rw [blocks]
    have := books.bytes
    rw [totalSize, (split.map Prod.snd).sum_nat, List.map_cons, List.sum_cons] at this
    simp only [Tracker.release, totalSize]
    omega
  · rw [bytes]
    exact books.granted
  · rw [bytes]
    exact books.budget

theorem Tracker.Books.run_mallocCurrentCount (books : tracker.Books) :
    mallocCurrentCount.run tracker = .ok (liveBlocks tracker.log).length tracker := by
  have count := books.count
  have inOrder : tracker.numFrees ≤ tracker.numMallocs := by omega
  simp only [mallocCurrentCount, EStateM.run_bind, EStateM.run_get, inOrder, decide_true,
    run_require_true, EStateM.run_pure]
  congr 1
  omega

theorem Tracker.Books.run_mallocCurrentBytes (books : tracker.Books) :
    mallocCurrentBytes.run tracker = .ok (totalSize (liveBlocks tracker.log)) tracker := by
  have bytes := books.bytes
  have inOrder : tracker.bytesFreed ≤ tracker.bytesMalloced := by omega
  simp only [mallocCurrentBytes, EStateM.run_bind, EStateM.run_get, inOrder, decide_true,
    run_require_true, EStateM.run_pure]
  congr 1
  omega

end Books

/-! ## Sequences of requests -/

/-- Requests from `CSC369_MallocInit` on: sizes are at least 1, and only `NULL` and
live pointers are freed. -/
inductive TrackerRun (env : Env) : Tracker → Prop where
  | init : TrackerRun env Tracker.init
  | malloc {before after : Tracker} {size : Nat} {result : Option Addr} :
      TrackerRun env before → 1 ≤ size →
      (csc369Malloc env size).run before = .ok result after → TrackerRun env after
  | free {before after : Tracker} {ptr : Option Addr} :
      TrackerRun env before → (∀ p, ptr = some p → IsLive before.log p) →
      (csc369Free ptr).run before = .ok () after → TrackerRun env after

section Runs
variable {env : Env} {tracker : Tracker}

theorem TrackerRun.books (run : TrackerRun env tracker) : tracker.Books := by
  induction run with
  | init => exact Tracker.books_init
  | malloc _ positive step ih =>
      rw [run_csc369Malloc] at step
      cases step
      exact ih.malloc env positive
  | @free before after ptr _ live step ih =>
      cases ptr with
      | none =>
          cases step
          exact ih.idle (fun _ => rfl) rfl (by simp)
      | some p =>
          obtain ⟨⟨_, size⟩, mem, rfl⟩ := List.mem_map.mp (live p rfl)
          rw [ih.run_csc369Free mem] at step
          cases step
          exact ih.release mem

/-- What the tracker reports and what it can be asked next. -/
structure Tracker.InBalance (env : Env) (tracker : Tracker) : Prop where
  currentCount : mallocCurrentCount.run tracker = .ok (liveBlocks tracker.log).length tracker
  currentBytes : mallocCurrentBytes.run tracker = .ok (totalSize (liveBlocks tracker.log)) tracker
  budget : grantedBytes tracker.log ≤ 2 ^ 31
  freed : ∀ m, tracker.MarksFreed m ↔ WasReturned tracker.log m ∧ ¬ IsLive tracker.log m
  mallocReturns : ∀ size, ∃ result after, (csc369Malloc env size).run tracker = .ok result after
  freeReturns : ∀ ptr, (∀ p, ptr = some p → IsLive tracker.log p) →
    ∃ after, (csc369Free ptr).run tracker = .ok () after

/-- After every sequence of requests the books balance, and no assertion stands in
the way of the next request. -/
theorem tracker_in_balance (run : TrackerRun env tracker) : tracker.InBalance env where
  currentCount := run.books.run_mallocCurrentCount
  currentBytes := run.books.run_mallocCurrentBytes
  budget := run.books.budget
  freed := fun _ => run.books.marksFreed_iff
  mallocReturns := fun size => ⟨_, _, run_csc369Malloc env tracker size⟩
  freeReturns := by
    intro ptr live
    cases ptr with
    | none => exact ⟨_, rfl⟩
    | some p =>
        obtain ⟨⟨_, size⟩, mem, rfl⟩ := List.mem_map.mp (live p rfl)
        exact ⟨_, run.books.run_csc369Free mem⟩

end Runs

/-- An allocator that hands out address 16 whenever it is not live. -/
def oneAddress : Env :=
  { Env.ideal 1 with
    malloc := fun live _ _ => if live 16 then none else some 16
    malloc_fresh := by
      intro live _ _ addr answer
      split at answer
      · contradiction
      · rename_i free
        cases Option.some.inj answer
        exact Bool.eq_false_iff.mpr free }

/-- The address is handed out, freed and handed out again, and then refused. -/
def reusedTracker : Tracker :=
  (((Tracker.init.record 8 (some 16)).release 16 8).record 4 (some 16)).record 4 none

theorem trackerRun_reused : TrackerRun oneAddress reusedTracker := by
  have first : TrackerRun oneAddress (Tracker.init.record 8 (some 16)) :=
    @TrackerRun.malloc _ _ _ 8 (some 16) TrackerRun.init (by decide) rfl
  have mem : (16, 8) ∈ liveBlocks (Tracker.init.record 8 (some 16)).log := by decide
  have freed : TrackerRun oneAddress ((Tracker.init.record 8 (some 16)).release 16 8) := by
    apply TrackerRun.free first _ (first.books.run_csc369Free mem)
    intro p same
    cases same
    exact List.mem_map.mpr ⟨_, mem, rfl⟩
  have again : TrackerRun oneAddress
      (((Tracker.init.record 8 (some 16)).release 16 8).record 4 (some 16)) :=
    @TrackerRun.malloc _ _ _ 4 (some 16) freed (by decide) rfl
  exact @TrackerRun.malloc _ _ _ 4 none again (by decide) rfl

theorem tracker_in_balance_reused : reusedTracker.InBalance oneAddress :=
  tracker_in_balance trackerRun_reused

end MemSim
