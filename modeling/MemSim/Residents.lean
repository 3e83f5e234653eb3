import MemSim.FrameBits
import MemSim.PolicyContract

/-!
# Which pages are in memory

`Residents` names the pages in the frames in use.  Between two calls to a policy
the simulation changes frames and entries itself: `Unmoved` collects what a
policy can rely on when no page changes places, and `Moved` what it can rely on
when a page has been put into a frame.
-/

set_option autoImplicit false

namespace MemSim

open Exec

/-! ## Residents -/

section Residents
variable {σ : Type} (env : Env) (root : Addr)

/-- The first `loaded` frames are in use, and hold these pages. -/
structure World.Residents (loaded : Nat) (page : Nat → Option Nat) (world : World σ) : Prop where
  loaded_le : loaded ≤ env.memsize
  used : ∀ frame < loaded, ∃ number pte, page frame = some number ∧
    world.frames frame = ⟨false, some pte⟩ ∧ world.heap.leafAt root number = some pte
  free : ∀ frame, loaded ≤ frame → frame < env.memsize → world.frames frame = ⟨true, none⟩

def World.Absent (page : Nat) (world : World σ) : Prop :=
  ∀ pte entry, world.heap.leafAt root page = some pte → world.heap.pte pte = some entry →
    entry.valid = false

variable {env root} {world : World σ} {loaded : Nat} {page : Nat → Option Nat}

theorem World.Residents.notFree (residents : world.Residents env root loaded page) {frame : Nat}
    (inUse : frame < loaded) : (world.frames frame).free = false := by
  obtain ⟨number, pte, -, here, -⟩ := residents.used frame inUse
  rw [here]

theorem World.Residents.of_full (residents : world.Residents env root loaded page)
    (full : findFreeFrom world.frames 0 env.memsize = none) : loaded = env.memsize := by
  rcases Nat.eq_or_lt_of_le residents.loaded_le with same | room
  · exact same
  · have used := findFreeFrom_eq_none full loaded (Nat.zero_le _) (by omega)
    rw [residents.free loaded (Nat.le_refl _) room] at used
    contradiction

theorem World.Residents.of_free (residents : world.Residents env root loaded page) {frame : Nat}
    (found : findFreeFrom world.frames 0 env.memsize = some frame) :
    frame = loaded ∧ loaded < env.memsize := by
  obtain ⟨-, upper, isFree, before⟩ := findFreeFrom_eq_some found
  have later : loaded ≤ frame := by
    apply Nat.le_of_not_lt
    intro inUse
    rw [residents.notFree inUse] at isFree
    contradiction
  rcases Nat.eq_or_lt_of_le later with same | behind
  · exact ⟨same.symm, by omega⟩
  · have used := before loaded (Nat.zero_le _) behind
    rw [residents.free loaded (Nat.le_refl _) (by omega)] at used
    contradiction

theorem World.Residents.of_valid (residents : world.Residents env root loaded page)
    (coherent : world.Coherent env root none) {number pte : Nat} {entry : PTE}
    (leaf : world.heap.leafAt root number = some pte) (here : world.heap.pte pte = some entry)
    (valid : entry.valid = true) :
    entry.frameNumber < loaded ∧ page entry.frameNumber = some number ∧
      ∀ other < loaded, page other = some number → other = entry.frameNumber := by
  obtain ⟨bound, owner⟩ := coherent.owner here valid
  have inUse : entry.frameNumber < loaded := by
    apply Nat.lt_of_not_le
    intro later
    rw [residents.free _ later bound] at owner
    cases owner
  refine ⟨inUse, ?_, ?_⟩
  · obtain ⟨number', pte', holds, owner', leaf'⟩ := residents.used _ inUse
    rw [owner'] at owner
    cases owner
    rw [holds, (coherent.sound.leafAt_inj rfl rfl leaf' leaf).2]
  · intro other otherInUse holds
    obtain ⟨number', pte', holds', owner', leaf'⟩ := residents.used other otherInUse
    rw [holds] at holds'
    cases holds'
    rw [leaf] at leaf'
    cases leaf'
    have otherBound : other < env.memsize := Nat.lt_of_lt_of_le otherInUse residents.loaded_le
    obtain ⟨addr, entry', owner'', there, -, same⟩ :=
      coherent.used otherBound (by rw [owner']) (by simp)
    rw [owner'] at owner''
    cases owner''
    rw [here] at there
    cases there
    exact same.symm

theorem World.Residents.of_absent (residents : world.Residents env root loaded page)
    (coherent : world.Coherent env root none) {number : Nat}
    (absent : world.Absent root number) : ∀ frame < loaded, page frame ≠ some number := by
  intro frame inUse holds
  obtain ⟨number', pte, holds', owner, leaf⟩ := residents.used frame inUse
  rw [holds] at holds'
  cases holds'
  have bound : frame < env.memsize := Nat.lt_of_lt_of_le inUse residents.loaded_le
  obtain ⟨addr, entry, owner', here, valid, -⟩ := coherent.used bound (by rw [owner]) (by simp)
  rw [owner] at owner'
  cases owner'
  rw [absent pte entry leaf here] at valid
  contradiction

theorem World.Residents.congr (residents : world.Residents env root loaded page) {after : World σ}
    (sameFrames : after.frames = world.frames)
    (leaves : ∀ number pte, world.heap.leafAt root number = some pte →
      after.heap.leafAt root number = some pte) : after.Residents env root loaded page where
  loaded_le := residents.loaded_le
  used := by
    intro frame inUse
    obtain ⟨number, pte, holds, here, leaf⟩ := residents.used frame inUse
    exact ⟨number, pte, holds, by rw [sameFrames, here], leaves number pte leaf⟩
  free := by
    intro frame later bound
    rw [sameFrames]
    exact residents.free frame later bound

theorem World.Residents.put (residents : world.Residents env root loaded page) {after : World σ}
    {frame number pte loaded' : Nat} (bound : loaded' ≤ env.memsize)
    (next : frame < loaded ∧ loaded' = loaded ∨ frame = loaded ∧ loaded' = loaded + 1)
    (frames : after.frames = Function.update world.frames frame ⟨false, some pte⟩)
    (leaves : ∀ number pte, world.heap.leafAt root number = some pte →
      after.heap.leafAt root number = some pte)
    (leaf : after.heap.leafAt root number = some pte) :
    after.Residents env root loaded' (Function.update page frame (some number)) where
  loaded_le := bound
  used := by
    intro other inUse
    rw [frames]
    by_cases same : other = frame
    · subst same
      exact ⟨number, pte, by simp, by simp, leaf⟩
    · obtain ⟨number', pte', holds, here, leaf'⟩ := residents.used other (by omega)
      refine ⟨number', pte', ?_, ?_, leaves number' pte' leaf'⟩
      · rw [Function.update_of_ne same, holds]
      · rw [Function.update_of_ne same, here]
  free := by
    intro other later otherBound
    rw [frames, Function.update_of_ne (by omega)]
    exact residents.free other (by omega) otherBound

theorem World.Residents.called (residents : world.Residents env root loaded page)
    {state : PolicyState σ} (only : world.policyState.OnlyReference state) (event : Event) :
    ((world.setPolicyState state).record event).Residents env root loaded page := by
  have onlyHeap : world.heap.OnlyReference state.heap := only.heap
  apply residents.congr only.frames
  intro number pte leaf
  exact (onlyHeap.leafAt root number).trans leaf

theorem leafAt_afterAccess {pte : Addr} {entry : PTE} (here : world.heap.pte pte = some entry)
    (write : Bool) (root number : Nat) :
    (world.afterAccess pte entry write).heap.leafAt root number = world.heap.leafAt root number :=
  Heap.leafAt_setPte (by simp [Heap.trie, here]) root number

theorem leafAt_afterLoad {pte frame : Addr} {entry : PTE} {storage : Storage}
    (here : world.heap.pte pte = some entry) (root number : Nat) :
    (world.afterLoad pte entry frame storage).heap.leafAt root number =
      world.heap.leafAt root number :=
  Heap.leafAt_setPte (by simp [Heap.trie, here]) root number

end Residents

/-! ## What policies can rely on -/

section Relied
variable {σ : Type}

/-- The frame is in use, and its page in memory. -/
structure PolicyState.InMemory (state : PolicyState σ) (frame : Nat) : Prop where
  used : (state.frames frame).free = false
  valid : ∀ addr entry, (state.frames frame).pte = some addr → state.heap.pte addr = some entry →
    entry.valid = true

/-- No entry of a page outside memory has its reference bit set. -/
def PolicyState.Idle (state : PolicyState σ) : Prop :=
  ∀ addr entry, state.heap.pte addr = some entry → entry.valid = false → entry.reference = false

/-- No page has changed places. -/
structure PolicyState.Unmoved (loaded : Nat) (before after : PolicyState σ) : Prop where
  links : after.links = before.links
  own : after.own = before.own
  frames : after.frames = before.frames
  bit : ∀ frame < loaded, ∀ bit, before.Bit frame bit → after.Bit frame bit
  idle : before.Idle → after.Idle

/-- A page has been put into the frame, in the place of the one before, if any. -/
structure PolicyState.Moved (loaded frame : Nat) (before after : PolicyState σ) : Prop where
  links : after.links = before.links
  own : after.own = before.own
  used : (after.frames frame).free = false
  present : ∃ bit, after.Bit frame bit
  bit : ∀ other < loaded, other ≠ frame → ∀ bit, before.Bit other bit → after.Bit other bit
  idle : before.Idle → (∀ bit, before.Bit frame bit → bit = false) →
    after.Idle ∧ after.Bit frame false

theorem PolicyState.Unmoved.bits {before after : PolicyState σ} {loaded : Nat} {bit : Nat → Bool}
    (unmoved : before.Unmoved loaded after) (bits : before.Bits loaded bit) :
    after.Bits loaded bit :=
  fun frame inUse => unmoved.bit frame inUse _ (bits frame inUse)

end Relied

section Changes
variable {env : Env} {policy : Policy} {root : Addr} {world after : World policy.State}
  {loaded : Nat} {page : Nat → Option Nat}

theorem unmoved_allocated {heap : Heap} {number pte : Nat}
    (allocated : world.heap.Allocated heap (· = root) root number pte) :
    world.policyState.Unmoved loaded ((world.setHeap heap).countMiss).policyState where
  links := rfl
  own := rfl
  frames := rfl
  bit := by
    intro frame inUse bit held
    obtain ⟨addr, entry, owner, here, sameNumber, sameBit⟩ := held
    obtain ⟨pageTable, here'⟩ := allocated.grown.old here
    exact ⟨addr, _, owner, here', sameNumber, sameBit⟩
  idle := by
    intro idle addr entry here invalid
    rcases allocated.grown.cases here with ⟨old, there, same⟩ | ⟨-, same⟩
    · rw [same] at invalid ⊢
      exact idle addr old there invalid
    · rw [same]
      rfl

theorem unmoved_accessed {pte : Addr} {entry : PTE} (here : world.heap.pte pte = some entry)
    (write : Bool) :
    world.policyState.Unmoved loaded (world.afterAccess pte entry write).policyState where
  links := rfl
  own := rfl
  frames := rfl
  bit := by
    intro frame inUse bit held
    obtain ⟨addr, entry', owner, there, sameNumber, sameBit⟩ := held
    by_cases same : addr = pte
    · subst same
      have there' : world.heap.pte addr = some entry' := there
      rw [here] at there'
      cases there'
      exact ⟨addr, _, owner, Heap.pte_setPte_self, sameNumber, sameBit⟩
    · exact ⟨addr, entry', owner, (Heap.pte_setPte_of_ne same).trans there, sameNumber, sameBit⟩
  idle := by
    intro idle addr entry' there invalid
    rcases Heap.pte_setPte_eq_some.mp there with ⟨rfl, rfl⟩ | ⟨-, there'⟩
    · exact idle addr entry here invalid
    · exact idle addr entry' there' invalid

theorem PolicyState.Moved.trans_unmoved {before middle last : PolicyState policy.State}
    {frame : Nat} (moved : before.Moved loaded frame middle) (inUse : frame < loaded)
    (unmoved : middle.Unmoved loaded last) : before.Moved loaded frame last where
  links := unmoved.links.trans moved.links
  own := unmoved.own.trans moved.own
  used := by
    rw [unmoved.frames]
    exact moved.used
  present := by
    obtain ⟨bit, held⟩ := moved.present
    exact ⟨bit, unmoved.bit frame inUse bit held⟩
  bit := by
    intro other otherInUse apart bit held
    exact unmoved.bit other otherInUse bit (moved.bit other otherInUse apart bit held)
  idle := by
    intro idle clear
    obtain ⟨idle', held⟩ := moved.idle idle clear
    exact ⟨unmoved.idle idle', unmoved.bit frame inUse false held⟩

/-- The frames before a page is put into one of them: their owners are in memory,
and the page is not. -/
theorem moved_loaded {before : PolicyState policy.State} {pte frame : Nat} {entry : PTE}
    {storage : Storage} (links : after.links = before.links) (own : after.own = before.own)
    (frames : after.frames = before.frames) (here : after.heap.pte pte = some entry)
    (invalid : entry.valid = false)
    (owners : ∀ other < loaded, other ≠ frame → (before.frames other).pte ≠ some pte)
    (kept : ∀ other < loaded, other ≠ frame → ∀ bit, before.Bit other bit →
      after.policyState.Bit other bit)
    (idle : before.Idle → (∀ bit, before.Bit frame bit → bit = false) → after.policyState.Idle) :
    before.Moved loaded frame (after.afterLoad pte entry frame storage).policyState where
  links := links
  own := own
  used := by
    simp [World.policyState, World.afterLoad]
  present := by
    refine ⟨entry.reference, pte, entry.loaded frame, ?_, Heap.pte_setPte_self, rfl, rfl⟩
    simp [World.policyState, World.afterLoad]
  bit := by
    intro other inUse apart bit held
    obtain ⟨addr, entry', owner, there, sameNumber, sameBit⟩ := kept other inUse apart bit held
    have owner' : (after.frames other).pte = some addr := owner
    have notLoaded : addr ≠ pte := by
      rintro rfl
      rw [frames] at owner'
      exact owners other inUse apart owner'
    refine ⟨addr, entry', ?_, (Heap.pte_setPte_of_ne notLoaded).trans there, sameNumber, sameBit⟩
    simpa [World.policyState, World.afterLoad, Function.update_of_ne apart] using owner'
  idle := by
    intro idleBefore clear
    have idleAfter := idle idleBefore clear
    constructor
    · intro addr entry' there invalid'
      rcases Heap.pte_setPte_eq_some.mp there with ⟨rfl, rfl⟩ | ⟨-, there'⟩
      · contradiction
      · exact idleAfter addr entry' there' invalid'
    · refine ⟨pte, entry.loaded frame, ?_, Heap.pte_setPte_self, rfl, idleAfter pte entry here invalid⟩
      simp [World.policyState, World.afterLoad]

end Changes

end MemSim
