import MemSim.SecondChance
import MemSim.StrategyRefinement

/-!
# The Clock policy is the second-chance machine

The frames in use are linked into one ring in the order of their numbers.  The
hand is the entry of the frame loaded last; the list has no head of its own, and
`list` points to some entry of the ring, the first frame as long as frames are
being filled.  Between an eviction and the next reference the victim's entry is
in no ring, and the hand still points to it.
-/

set_option autoImplicit false

namespace MemSim

open Exec

def frameEntries (frames : List Nat) : List EntryAddr := frames.map .frame

theorem mem_frameEntries {frames : List Nat} {frame : Nat} :
    .frame frame ∈ frameEntries frames ↔ frame ∈ frames := by
  simp [frameEntries]

/-- The ring and the two pointers into it, when no eviction is under way. -/
structure ClockLinked (size loaded hand : Nat) (state : PolicyState ClockStatics) : Prop where
  hand_at : state.own.hand = some (.frame hand)
  hand_lt : hand < loaded
  ring : ∃ head < loaded, state.own.list = some (.frame head) ∧
    state.links.Ring (frameEntries (around loaded head)) ∧ (loaded < size → head = 0)

/-- The frame is about to be linked as the last of `loaded` frames. -/
structure ClockReady (size loaded frame : Nat) (state : PolicyState ClockStatics) : Prop where
  unlinked : state.links.Unlinked (.frame frame)
  ring : (state.own.list = none ∧ loaded = 1 ∧ frame = 0) ∨
    ∃ head < loaded, ∃ rest, state.own.list = some (.frame head) ∧
      state.links.Ring (frameEntries (head :: rest)) ∧
      head :: rest ++ [frame] = around loaded head ∧ (loaded < size → head = 0)

section Evict
variable {state : PolicyState ClockStatics} {size hand : Nat} {bit : Nat → Bool}

theorem ring_next {links : Entries EntryAddr} {head frame : Nat}
    (ring : links.Ring (frameEntries (around size head))) (headBound : head < size)
    (bound : frame < size) :
    links.mapped (.frame frame) = true ∧
      links.next (.frame frame) = some (.frame ((frame + 1) % size)) := by
  obtain ⟨rest, here, next⟩ := around_step bound
  have turned : links.Ring (frameEntries (around size frame)) :=
    ring.rotated ((around_isRotated headBound bound).map _)
  have turned' := turned
  rw [here] at turned'
  refine ⟨turned'.mapped _ (mem_frameEntries.mpr (by simp)), ?_⟩
  have following := turned'.neighbours.1
  have wrapped : frameEntries rest ++ [EntryAddr.frame frame] =
      frameEntries (around size ((frame + 1) % size)) := by
    rw [next]
    simp [frameEntries]
  obtain ⟨rest', here', -⟩ := around_step (Nat.mod_lt (frame + 1) (Nat.zero_lt_of_lt bound))
  rw [show frameEntries rest = List.map EntryAddr.frame rest from rfl] at wrapped
  rw [wrapped, here'] at following
  exact following

theorem run_advanceHand {frame head : Nat} (handHere : state.own.hand = some (.frame frame))
    (ring : state.links.Ring (frameEntries (around size head))) (headBound : head < size)
    (bound : frame < size) :
    advanceHand.run state =
      .ok () (state.setOwn { state.own with hand := some (.frame ((frame + 1) % size)) }) := by
  obtain ⟨mapped, next⟩ := ring_next ring headBound bound
  have read : (onLinks (readNext state.own.hand) : Exec (PolicyState ClockStatics) _).run state =
      .ok (some (.frame ((frame + 1) % size))) state := by
    rw [handHere, ← next]
    exact run_onLinks_of_ok (run_readNext mapped)
  simp only [advanceHand, EStateM.run_bind, EStateM.run_get, read, setHand, EStateM.run_modify]

theorem clockTake_first {frame addr : Nat} {rest : List Nat} {entry : PTE}
    (handHere : state.own.hand = some (.frame frame))
    (ring : state.links.Ring (frameEntries (frame :: rest)))
    (owner : (state.frames frame).pte = some addr) (here : state.heap.pte addr = some entry) :
    ∃ links, (clockTake frame).run state = .ok entry.frameNumber
        ((state.setLinks links).setOwn ⟨rest.head?.map EntryAddr.frame, some (.frame frame)⟩) ∧
      links.Ring (frameEntries rest) ∧ links.Unlinked (.frame frame) := by
  have mapped : state.links.mapped (.frame frame) = true :=
    ring.mapped _ (mem_frameEntries.mpr List.mem_cons_self)
  have next : state.links.next (.frame frame) =
      (frameEntries rest ++ [EntryAddr.frame frame]).head? := ring.neighbours.1
  obtain ⟨links, del, -, ringRest, unlinked⟩ := listDel_first ring
  refine ⟨links, ?_, ringRest, unlinked⟩
  simp only [clockTake, EStateM.run_bind, EStateM.run_get, handHere]
  rw [run_onLinks_of_ok (run_readNext mapped), next]
  simp only [setList, EStateM.run_modify]
  rw [run_onLinks_of_ok (by exact del)]
  dsimp only
  rw [run_onLinks_of_ok (by exact run_listEntryInit_unlinked unlinked)]
  dsimp only
  have number : ∀ last : PolicyState ClockStatics, last.frames = state.frames →
      last.heap = state.heap → (onPtes (pteGetFrameNumber (last.frames frame).pte) :
        Exec (PolicyState ClockStatics) Nat).run last = .ok entry.frameNumber last := by
    intro last sameFrames sameHeap
    rw [sameFrames, owner]
    exact run_onPtes_pteGet PTE.frameNumber (by rw [sameHeap]; exact here)
  cases rest with
  | nil =>
      have alone : (frameEntries [] ++ [EntryAddr.frame frame]).head? = some (.frame frame) := rfl
      simp only [alone, decide_true, onlyIf_true, EStateM.run_modify, run_framePte]
      rw [number _ (by rfl) (by rfl)]
      simp only [PolicyState.setLinks, PolicyState.setOwn, handHere]
      rfl
  | cons successor rest =>
      have succ : (frameEntries (successor :: rest) ++ [EntryAddr.frame frame]).head? =
          some (.frame successor) := rfl
      have apart : some (EntryAddr.frame frame) ≠ some (.frame successor) := by
        intro same
        cases same
        exact (List.nodup_cons.mp ring.nodup).1 (mem_frameEntries.mpr List.mem_cons_self)
      simp only [succ, apart, decide_false, onlyIf_false, EStateM.run_pure, run_framePte]
      rw [number _ (by rfl) (by rfl)]
      simp only [PolicyState.setLinks, PolicyState.setOwn, handHere]
      rfl

theorem clockTake_spec {frame addr : Nat} {entry : PTE}
    (handHere : state.own.hand = some (.frame frame)) {head : Nat}
    (ring : state.links.Ring (frameEntries (around size head))) (headBound : head < size)
    (bound : frame < size) (owner : (state.frames frame).pte = some addr)
    (here : state.heap.pte addr = some entry) :
    ∃ after, (clockTake frame).run state = .ok entry.frameNumber after ∧
      after.frames = state.frames ∧ after.heap = state.heap ∧ ClockReady size size frame after := by
  obtain ⟨rest, first, last⟩ := around_step bound
  have turned : state.links.Ring (frameEntries (frame :: rest)) := by
    rw [← first]
    exact ring.rotated ((around_isRotated headBound bound).map EntryAddr.frame)
  obtain ⟨links, run, ringRest, unlinked⟩ := clockTake_first handHere turned owner here
  refine ⟨_, run, rfl, rfl, unlinked, ?_⟩
  have turns : (frame + 1) % size < size := Nat.mod_lt _ (Nat.zero_lt_of_lt bound)
  obtain ⟨rest', second, -⟩ := around_step turns
  rw [last] at second
  cases rest with
  | nil =>
      left
      have single : size = 1 := by
        have lengths := congrArg List.length first
        rwa [around, List.length_map, List.length_range, List.length_singleton] at lengths
      exact ⟨rfl, single, by omega⟩
  | cons successor rest =>
      right
      simp only [List.cons_append, List.cons.injEq] at second
      obtain ⟨rfl, -⟩ := second
      exact ⟨_, turns, rest, rfl, ringRest, last.symm, fun more => absurd more (Nat.lt_irrefl _)⟩

theorem clockSweep_spec {steps frame head : Nat} (bits : state.Bits size bit)
    (handHere : state.own.hand = some (.frame frame))
    (ring : state.links.Ring (frameEntries (around size head))) (headBound : head < size)
    (bound : frame < size) (enough : (SecondChance.bitsSet size bit).card ≤ steps) :
    ∃ after, (clockSweep (steps + 1)).run state =
        .ok (SecondChance.sweep size bit steps frame).1 after ∧
      after.frames = state.frames ∧
      after.Bits size (SecondChance.sweep size bit steps frame).2 ∧
      ClockReady size size (SecondChance.sweep size bit steps frame).1 after := by
  induction steps generalizing state bit frame with
  | zero =>
      obtain ⟨addr, entry, owner, here, number, reference⟩ := bits frame bound
      have clear := SecondChance.clear_of_card_zero bound (Nat.le_zero.mp enough)
      obtain ⟨after, take, sameFrames, sameHeap, ready⟩ :=
        clockTake_spec handHere ring headBound bound owner here
      refine ⟨after, ?_, sameFrames, ?_, ready⟩
      · rw [clear] at reference
        simp only [clockSweep, EStateM.run_bind, EStateM.run_get, handHere,
          run_containerFrame (ring_next ring headBound bound).1, run_framePte, owner,
          pteIsReferenced, run_onPtes_pteGet PTE.reference here, reference, Bool.not_false,
          if_true, take, number, SecondChance.sweep]
      · intro other otherBound
        obtain ⟨addr', entry', rest⟩ := bits other otherBound
        exact ⟨addr', entry', by rw [sameFrames, sameHeap]; exact rest⟩
  | succ steps ih =>
      obtain ⟨addr, entry, owner, here, number, reference⟩ := bits frame bound
      have read : ∀ fuel, (clockSweep (fuel + 1)).run state =
          (if !entry.reference then clockTake frame else do
            onPtes (pteSetReferenced (some addr) false)
            advanceHand
            clockSweep fuel : Exec (PolicyState ClockStatics) Nat).run state := by
        intro fuel
        simp only [clockSweep, EStateM.run_bind, EStateM.run_get, handHere,
          run_containerFrame (ring_next ring headBound bound).1, run_framePte, owner,
          pteIsReferenced, run_onPtes_pteGet PTE.reference here]
      cases isSet : bit frame with
      | false =>
          obtain ⟨after, take, sameFrames, sameHeap, ready⟩ :=
            clockTake_spec handHere ring headBound bound owner here
          have stops : SecondChance.sweep size bit (steps + 1) frame = (frame, bit) := by
            simp [SecondChance.sweep, isSet]
          rw [stops, read, reference, isSet]
          refine ⟨after, by rw [← number] at take ⊢; exact take, sameFrames, ?_, ready⟩
          intro other otherBound
          obtain ⟨addr', entry', rest⟩ := bits other otherBound
          exact ⟨addr', entry', by rw [sameFrames, sameHeap]; exact rest⟩
      | true =>
          let cleared := state.setHeap (state.heap.setPte addr { entry with reference := false })
          let moved := cleared.setOwn
            { cleared.own with hand := some (.frame ((frame + 1) % size)) }
          have goesOn : SecondChance.sweep size bit (steps + 1) frame = SecondChance.sweep size
              (Function.update bit frame false) steps ((frame + 1) % size) := by
            simp [SecondChance.sweep, isSet]
          have fewer := SecondChance.card_bitsSet_clear bound isSet
          have movedBits : moved.Bits size (Function.update bit frame false) :=
            bits.setReferenced owner here number false
          obtain ⟨after, run, sameFrames, afterBits, ready⟩ := ih movedBits rfl ring
            (Nat.mod_lt _ (Nat.zero_lt_of_lt bound)) (by omega)
          rw [goesOn]
          refine ⟨after, ?_, sameFrames, afterBits, ready⟩
          have advance : advanceHand.run cleared = .ok () moved :=
            run_advanceHand handHere ring headBound bound
          rw [read, reference, isSet]
          simp only [Bool.not_true, Bool.false_eq_true, if_false, EStateM.run_bind,
            pteSetReferenced, run_onPtes_pteSet _ here]
          rw [show state.setHeap (state.heap.setPte addr { entry with reference := false }) =
            cleared from rfl, advance]
          exact run

/-- `CSC369_PolicyClockEvict` evicts the frame the strategy gives up. -/
theorem clockEvict_spec {machine : SecondChance} (bits : state.Bits size machine.bit)
    (linked : ClockLinked size size machine.hand state) :
    ∃ after, (clockEvict size).run state =
        .ok (SecondChance.strategy.victim size machine).1 after ∧
      (SecondChance.strategy.victim size machine).1 < size ∧ after.frames = state.frames ∧
      after.Bits size (SecondChance.strategy.victim size machine).2.bit ∧
      ClockReady size size (SecondChance.strategy.victim size machine).1 after := by
  obtain ⟨head, headBound, -, ring, -⟩ := linked.ring
  have start : (machine.hand + 1) % size < size :=
    Nat.mod_lt _ (Nat.zero_lt_of_lt linked.hand_lt)
  have advance := run_advanceHand linked.hand_at ring headBound linked.hand_lt
  have movedBits : (state.setOwn { state.own with
      hand := some (.frame ((machine.hand + 1) % size)) }).Bits size machine.bit := bits
  have enough := SecondChance.card_bitsSet_le size machine.bit
  obtain ⟨after, run, sameFrames, afterBits, ready⟩ :=
    clockSweep_spec movedBits rfl ring headBound start enough
  refine ⟨after, ?_, (SecondChance.sweep_spec start enough).1, sameFrames, afterBits, ready⟩
  simp only [clockEvict, EStateM.run_bind, advance, run]
  rfl

end Evict

section Reference
variable {state : PolicyState ClockStatics} {size loaded hand frame addr : Nat} {entry : PTE}

theorem clockOnRef_linked (linked : ClockLinked size loaded hand state) (bound : frame < loaded)
    (owner : (state.frames frame).pte = some addr) (here : state.heap.pte addr = some entry) :
    (clockOnRef frame).run state =
      .ok () (state.setHeap (state.heap.setPte addr { entry with reference := true })) := by
  obtain ⟨head, headBound, list, ring, -⟩ := linked.ring
  obtain ⟨mapped, next⟩ := ring_next ring headBound bound
  have isLinked : (onLinks (listEntryIsLinked (frameEntry frame)) :
      Exec (PolicyState ClockStatics) Bool).run
        (state.setHeap (state.heap.setPte addr { entry with reference := true })) =
      .ok true (state.setHeap (state.heap.setPte addr { entry with reference := true })) := by
    have run := @run_listEntryIsLinked _ state.links _ mapped
    rw [next] at run
    exact run_onLinks_of_ok run
  have notEmpty : (state.setHeap (state.heap.setPte addr
      { entry with reference := true })).own.list.isNone = false := by
    rw [show (state.setHeap (state.heap.setPte addr { entry with reference := true })).own =
      state.own from rfl, list]
    rfl
  simp only [clockOnRef, EStateM.run_bind, run_framePte, owner, pteSetReferenced,
    run_onPtes_pteSet _ here, EStateM.run_get, notEmpty, Bool.false_eq_true, if_false, isLinked,
    Bool.not_true, onlyIf_false, EStateM.run_pure]

/-- A frame that is in no ring is linked behind all others, and the hand points
to it. -/
theorem clockOnRef_ready (ready : ClockReady size loaded frame state)
    (owner : (state.frames frame).pte = some addr) (here : state.heap.pte addr = some entry) :
    ∃ after, (clockOnRef frame).run state = .ok () after ∧ after.frames = state.frames ∧
      after.heap = state.heap.setPte addr { entry with reference := true } ∧
      ClockLinked size loaded frame after ∧
      ∀ other, loaded ≤ other → state.links.Unlinked (.frame other) →
        after.links.Unlinked (.frame other) := by
  let marked := state.setHeap (state.heap.setPte addr { entry with reference := true })
  have mark : (onPtes (pteSetReferenced (some addr) true) :
      Exec (PolicyState ClockStatics) Unit).run state = .ok () marked :=
    run_onPtes_pteSet _ here
  have initEntry : (onLinks (listEntryInit (frameEntry frame)) :
      Exec (PolicyState ClockStatics) Unit).run marked = .ok () marked :=
    run_onLinks_of_ok (run_listEntryInit_unlinked ready.unlinked)
  rcases ready.ring with ⟨none', rfl, rfl⟩ | ⟨head, headBound, rest, list, ring, order, first⟩
  · let links := (state.links.setNext (.frame 0) (some (.frame 0))).setPrev (.frame 0)
      (some (.frame 0))
    let after := (marked.setLinks links).setOwn ⟨some (.frame 0), some (.frame 0)⟩
    refine ⟨after, ?_, rfl, rfl, ⟨rfl, Nat.zero_lt_one, 0, Nat.zero_lt_one, rfl, ?_,
      fun _ => rfl⟩, ?_⟩
    · have empty : marked.own.list.isNone = true := by
        rw [show marked.own = state.own from rfl, none']
        rfl
      simp only [clockOnRef, EStateM.run_bind, run_framePte, owner, mark, EStateM.run_get, empty,
        if_true, initEntry, setList, EStateM.run_modify]
      rw [run_onLinks_of_ok (by exact run_listInit ready.unlinked.mapped)]
      rfl
    · exact listInit_ring ready.unlinked.mapped
    · intro other later unlinked
      have apart : EntryAddr.frame other ≠ .frame 0 := by
        simp only [ne_eq, EntryAddr.frame.injEq]
        omega
      refine ⟨unlinked.mapped, ?_, ?_⟩
      · exact (Function.update_of_ne apart _ _).trans unlinked.next
      · exact (Function.update_of_ne apart _ _).trans unlinked.prev
  · have fresh : EntryAddr.frame frame ∉ frameEntries (head :: rest) := by
      intro member
      exact ring.linked member ready.unlinked.next
    obtain ⟨prev, prevMember, run, ringAfter⟩ :=
      listAddTail_spec ring ready.unlinked.mapped fresh
    let links := state.links.insertBetween (.frame frame) prev (.frame head)
    let after := (marked.setLinks links).setOwn ⟨some (.frame head), some (.frame frame)⟩
    have inOrder : frameEntries (around loaded head) =
        .frame head :: (frameEntries rest ++ [.frame frame]) := by
      rw [← order]
      simp [frameEntries]
    have frameBound : frame < loaded := by
      rw [← mem_around headBound, ← order]
      simp
    refine ⟨after, ?_, rfl, rfl, ⟨rfl, frameBound, head, headBound, rfl, ?_, first⟩, ?_⟩
    · have notEmpty : marked.own.list.isNone = false := by
        rw [show marked.own = state.own from rfl, list]
        rfl
      have notLinked : (onLinks (listEntryIsLinked (frameEntry frame)) :
          Exec (PolicyState ClockStatics) Bool).run marked = .ok false marked := by
        have run := @run_listEntryIsLinked _ state.links _ ready.unlinked.mapped
        rw [ready.unlinked.next] at run
        exact run_onLinks_of_ok run
      have addTail : (onLinks (listAddTail marked.own.list (frameEntry frame)) :
          Exec (PolicyState ClockStatics) Unit).run marked = .ok () (marked.setLinks links) := by
        rw [show marked.own.list = some (.frame head) from list]
        exact run_onLinks_of_ok run
      simp only [clockOnRef, EStateM.run_bind, run_framePte, owner, mark, EStateM.run_get,
        notEmpty, Bool.false_eq_true, if_false, notLinked, Bool.not_false, onlyIf_true, initEntry,
        addTail, setHand, EStateM.run_modify]
      simp only [after, PolicyState.setOwn, PolicyState.setLinks]
      rw [show marked.own.list = some (.frame head) from list]
      rfl
    · rw [inOrder]
      exact ringAfter
    · intro other later unlinked
      have notLinked : EntryAddr.frame other ∉ frameEntries (head :: rest) := fun member =>
        ring.linked member unlinked.next
      have notPrev : EntryAddr.frame other ≠ prev := fun same => notLinked (same ▸ prevMember)
      have notHead : EntryAddr.frame other ≠ .frame head := fun same =>
        notLinked (same ▸ List.mem_cons_self ..)
      have notFrame : EntryAddr.frame other ≠ .frame frame := by
        simp only [ne_eq, EntryAddr.frame.injEq]
        omega
      exact unlinked.insertBetween notFrame notPrev notHead

end Reference

/-! ## The policy implements the strategy -/

section Implements
variable {state : PolicyState ClockStatics} {size loaded hand frame : Nat}

theorem ClockLinked.congr {after : PolicyState ClockStatics}
    (linked : ClockLinked size loaded hand state) (links : after.links = state.links)
    (own : after.own = state.own) : ClockLinked size loaded hand after where
  hand_at := own ▸ linked.hand_at
  hand_lt := linked.hand_lt
  ring := by
    rw [own, links]
    exact linked.ring

theorem ClockReady.congr {after : PolicyState ClockStatics}
    (ready : ClockReady size loaded frame state) (links : after.links = state.links)
    (own : after.own = state.own) : ClockReady size loaded frame after where
  unlinked := links ▸ ready.unlinked
  ring := by
    rw [own, links]
    exact ready.ring

/-- The states between accesses, with the bits and the hand of the strategy. -/
structure ClockSettled (size loaded : Nat) (machine : SecondChance)
    (state : PolicyState ClockStatics) : Prop where
  bits : state.Bits loaded machine.bit
  linked : loaded = 0 ∧ state.own.list = none ∨ ClockLinked size loaded machine.hand state
  unlinked : ∀ other, loaded ≤ other → other < size → state.links.Unlinked (.frame other)

/-- The states in which a page is about to be put into the frame. -/
structure ClockAwaiting (size loaded : Nat) (machine : SecondChance) (frame : Nat)
    (state : PolicyState ClockStatics) : Prop where
  bits : ∀ other < loaded, other ≠ frame → state.Bit other (machine.bit other)
  ready : ClockReady size loaded frame state
  unlinked : ∀ other, loaded ≤ other → other < size → state.links.Unlinked (.frame other)

theorem ClockSettled.unmoved {machine : SecondChance} {after : PolicyState ClockStatics}
    (settled : ClockSettled size loaded machine state) (unmoved : state.Unmoved loaded after) :
    ClockSettled size loaded machine after where
  bits := unmoved.bits settled.bits
  linked := by
    rcases settled.linked with ⟨empty, none'⟩ | linked
    · exact .inl ⟨empty, unmoved.own ▸ none'⟩
    · exact .inr (linked.congr unmoved.links unmoved.own)
  unlinked := by
    rw [unmoved.links]
    exact settled.unlinked

theorem ClockSettled.hit {machine : SecondChance} (settled : ClockSettled size loaded machine state)
    (inUse : frame < loaded) : ∃ after, (clockOnRef frame).run state = .ok () after ∧
      ClockSettled size loaded (SecondChance.strategy.hit machine frame) after := by
  obtain ⟨addr, entry, owner, here, number, -⟩ := settled.bits frame inUse
  rcases settled.linked with ⟨empty, -⟩ | linked
  · omega
  · refine ⟨_, clockOnRef_linked linked inUse owner here, ?_⟩
    exact ⟨settled.bits.setReferenced owner here number true, .inr (linked.congr rfl rfl),
      settled.unlinked⟩

theorem ClockSettled.next {machine : SecondChance} (settled : ClockSettled size loaded machine state)
    (room : loaded < size) : ClockAwaiting size (loaded + 1) machine loaded state where
  bits := by
    intro other inUse apart
    exact settled.bits other (by omega)
  ready := by
    refine ⟨settled.unlinked loaded (Nat.le_refl _) room, ?_⟩
    rcases settled.linked with ⟨rfl, none'⟩ | linked
    · exact .inl ⟨none', rfl, rfl⟩
    · obtain ⟨head, headBound, list, ring, first⟩ := linked.ring
      cases first room
      obtain ⟨rest, here, -⟩ := around_step headBound
      refine .inr ⟨0, Nat.succ_pos loaded, rest, list, here ▸ ring, ?_, fun _ => rfl⟩
      rw [← here, around_zero, around_zero, List.range_succ]
  unlinked := by
    intro other later bound
    exact settled.unlinked other (by omega) bound

theorem ClockSettled.evict {machine : SecondChance} (settled : ClockSettled size size machine state)
    (positive : 0 < size) : ∃ after,
      (clockEvict size).run state = .ok (SecondChance.strategy.victim size machine).1 after ∧
        (SecondChance.strategy.victim size machine).1 < size ∧
        ClockAwaiting size size (SecondChance.strategy.victim size machine).2
          (SecondChance.strategy.victim size machine).1 after ∧
        ∀ bit, after.Bit (SecondChance.strategy.victim size machine).1 bit → bit = false := by
  rcases settled.linked with ⟨empty, -⟩ | linked
  · omega
  · obtain ⟨after, run, bound, -, bits, ready⟩ := clockEvict_spec settled.bits linked
    refine ⟨after, run, bound, ⟨fun other inUse _ => bits other inUse, ready, ?_⟩, ?_⟩
    · intro other later inUse
      omega
    · intro bit held
      have start : (machine.hand + 1) % size < size := Nat.mod_lt _ positive
      have clear := (SecondChance.sweep_spec start
        (SecondChance.card_bitsSet_le size machine.bit)).2
      exact (held.unique (bits _ bound)).trans clear

theorem ClockAwaiting.load {machine : SecondChance} {after : PolicyState ClockStatics}
    (awaiting : ClockAwaiting size loaded machine frame state)
    (moved : state.Moved loaded frame after) : ∃ last, (clockOnRef frame).run after = .ok () last ∧
      ClockSettled size loaded (SecondChance.strategy.load machine frame) last := by
  obtain ⟨bit, addr, entry, owner, here, number, -⟩ := moved.present
  obtain ⟨last, run, frames, heap, linked, unlinked⟩ :=
    clockOnRef_ready (awaiting.ready.congr moved.links moved.own) owner here
  refine ⟨last, run, ?_, .inr linked, ?_⟩
  · have marked : ∀ other bit, (after.setHeap (after.heap.setPte addr
        { entry with reference := true })).Bit other bit → last.Bit other bit := by
      intro other bit held
      obtain ⟨addr', entry', owner', there⟩ := held
      exact ⟨addr', entry', by rw [frames]; exact owner', by rw [heap]; exact there⟩
    intro other inUse
    apply marked
    by_cases same : other = frame
    · subst same
      have set : (SecondChance.strategy.load machine other).bit other = true :=
        Function.update_self ..
      rw [set]
      exact PolicyState.Bit.setReferenced owner number true
    · have kept : (SecondChance.strategy.load machine frame).bit other = machine.bit other :=
        Function.update_of_ne same ..
      rw [kept]
      exact (moved.bit other inUse same _ (awaiting.bits other inUse same)).setReferenced_of_ne
        here number same true
  · intro other later bound
    apply unlinked other later
    rw [moved.links]
    exact awaiting.unlinked other later bound

theorem clock_implements (env : Env) (positive : 0 < env.memsize) :
    Implements env policyClock SecondChance.strategy (ClockSettled env.memsize)
      (ClockAwaiting env.memsize) where
  unmoved := fun settled unmoved => settled.unmoved unmoved
  hit := fun settled inUse _ => settled.hit inUse
  next := fun settled room _ => settled.next room
  evict := fun settled => settled.evict positive
  load := fun awaiting _ moved => awaiting.load moved

end Implements

end MemSim
