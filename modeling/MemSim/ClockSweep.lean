import MemSim.Clock

/-!
# The sweep of the Clock policy over any ring

The policy never looks at the numbers of the frames, only at the entry the hand
points to.  So the sweep is followed over rings in any order, with the hand
anywhere in the ring.
-/

set_option autoImplicit false

namespace MemSim

open Exec

/-- Just the reference bits of these frames have been cleared. -/
structure BitsCleared (before after : PolicyState ClockStatics) (passed : List Nat) : Prop where
  frames : after.frames = before.frames
  cleared : ∀ frame ∈ passed, ∀ pte entry, (before.frames frame).pte = some pte →
    before.heap.pte pte = some entry →
      after.heap.pte pte = some { entry with reference := false }
  kept : ∀ pte, (∀ frame ∈ passed, (before.frames frame).pte ≠ some pte) →
    after.heap.pte pte = before.heap.pte pte

/-- What a sweep does that meets the frames of a ring in this order. -/
structure Sweeps (before after : PolicyState ClockStatics) (order : List Nat) (bit : Nat → Bool)
    (victim : Nat) : Prop where
  first : some victim = (order.find? fun frame => !bit frame).or order.head?
  bits : BitsCleared before after (order.takeWhile bit)
  unlinked : after.links.Unlinked (.frame victim)
  list_none : after.own.list = none ↔ order.length = 1
  list_next : order.length ≠ 1 → after.own.list = before.links.next (.frame victim)

section Steps
variable {state : PolicyState ClockStatics} {frame addr : Nat} {entry : PTE} {rest : List Nat}

theorem bitsCleared_nil {after : PolicyState ClockStatics} (frames : after.frames = state.frames)
    (heap : after.heap = state.heap) : BitsCleared state after [] where
  frames := frames
  cleared := fun _ member => absurd member List.not_mem_nil
  kept := fun _ _ => by rw [heap]

theorem BitsCleared.cons {middle after : PolicyState ClockStatics} {passed : List Nat}
    (owner : (state.frames frame).pte = some addr) (here : state.heap.pte addr = some entry)
    (frames : middle.frames = state.frames)
    (heap : middle.heap = state.heap.setPte addr { entry with reference := false })
    (cleared : BitsCleared middle after passed) : BitsCleared state after (frame :: passed) where
  frames := cleared.frames.trans frames
  cleared := by
    intro other member pte found owner' there
    have atMiddle : ∃ found', middle.heap.pte pte = some found' ∧
        { found' with reference := false } = { found with reference := false } ∧
        (pte = addr → found' = { found with reference := false }) := by
      rw [heap]
      by_cases same : pte = addr
      · subst same
        rw [here] at there
        cases there
        exact ⟨_, Heap.pte_setPte_self, rfl, fun _ => rfl⟩
      · exact ⟨found, (Heap.pte_setPte_of_ne same).trans there, rfl,
          fun isAddr => absurd isAddr same⟩
    obtain ⟨found', middleHere, same, atAddr⟩ := atMiddle
    by_cases again : ∃ later ∈ passed, (state.frames later).pte = some pte
    · obtain ⟨later, laterMember, laterOwner⟩ := again
      rw [← same]
      exact cleared.cleared later laterMember pte found' (by rw [frames]; exact laterOwner)
        middleHere
    · rcases List.mem_cons.mp member with isFirst | later
      · rw [isFirst, owner] at owner'
        have isAddr : pte = addr := (Option.some.inj owner').symm
        rw [cleared.kept pte ?_, middleHere, atAddr isAddr]
        intro later laterMember laterOwner
        rw [frames] at laterOwner
        exact again ⟨later, laterMember, laterOwner⟩
      · exact absurd ⟨other, later, owner'⟩ again
  kept := by
    intro pte apart
    have notAddr : pte ≠ addr := fun same => apart frame List.mem_cons_self (by rw [owner, same])
    rw [cleared.kept pte ?_, heap, Heap.pte_setPte_of_ne notAddr]
    intro later laterMember
    rw [frames]
    exact apart later (List.mem_cons_of_mem _ laterMember)

theorem run_advanceHand_first (handHere : state.own.hand = some (.frame frame))
    (ring : state.links.Ring (frameEntries (frame :: rest))) :
    advanceHand.run state = .ok ()
      (state.setOwn { state.own with hand := (rest ++ [frame]).head?.map EntryAddr.frame }) := by
  have mapped : state.links.mapped (.frame frame) = true :=
    ring.mapped _ (mem_frameEntries.mpr List.mem_cons_self)
  have next : state.links.next (.frame frame) = (rest ++ [frame]).head?.map EntryAddr.frame := by
    rw [← List.head?_map, List.map_append]
    exact ring.neighbours.1
  have read : (onLinks (readNext state.own.hand) : Exec (PolicyState ClockStatics) _).run state =
      .ok ((rest ++ [frame]).head?.map EntryAddr.frame) state := by
    rw [handHere, ← next]
    exact run_onLinks_of_ok (run_readNext mapped)
  simp only [advanceHand, EStateM.run_bind, EStateM.run_get, read, setHand, EStateM.run_modify]

theorem run_clockSweep_succ (handHere : state.own.hand = some (.frame frame))
    (mapped : state.links.mapped (.frame frame) = true)
    (owner : (state.frames frame).pte = some addr) (here : state.heap.pte addr = some entry)
    (fuel : Nat) :
    (clockSweep (fuel + 1)).run state =
      (if !entry.reference then clockTake frame else do
        onPtes (pteSetReferenced (some addr) false)
        advanceHand
        clockSweep fuel : Exec (PolicyState ClockStatics) Nat).run state := by
  simp only [clockSweep, EStateM.run_bind, EStateM.run_get, handHere, run_containerFrame mapped,
    run_framePte, owner, pteIsReferenced, run_onPtes_pteGet PTE.reference here]

theorem clockSweep_takes (handHere : state.own.hand = some (.frame frame))
    (ring : state.links.Ring (frameEntries (frame :: rest))) (clear : state.Bit frame false) :
    ∃ after, (∀ fuel, (clockSweep (fuel + 1)).run state = .ok frame after) ∧
      BitsCleared state after [] ∧ after.links.Ring (frameEntries rest) ∧
      after.links.Unlinked (.frame frame) ∧
      after.own.list = rest.head?.map EntryAddr.frame := by
  have mapped : state.links.mapped (.frame frame) = true :=
    ring.mapped _ (mem_frameEntries.mpr List.mem_cons_self)
  obtain ⟨addr, entry, owner, here, number, reference⟩ := clear
  obtain ⟨links, take, ringRest, unlinked⟩ := clockTake_first handHere ring owner here
  refine ⟨(state.setLinks links).setOwn ⟨rest.head?.map EntryAddr.frame, some (.frame frame)⟩,
    fun fuel => ?_, bitsCleared_nil rfl rfl, ringRest, unlinked, rfl⟩
  rw [run_clockSweep_succ handHere mapped owner here, reference, ← number]
  rw [← number] at take
  exact take

theorem clockSweep_passes (handHere : state.own.hand = some (.frame frame))
    (ring : state.links.Ring (frameEntries (frame :: rest))) (isSet : state.Bit frame true) :
    ∃ middle, (∀ fuel, (clockSweep (fuel + 1)).run state = (clockSweep fuel).run middle) ∧
      middle.own.hand = (rest ++ [frame]).head?.map EntryAddr.frame ∧
      middle.links = state.links ∧ middle.Bit frame false ∧
      (∀ other bit, other ≠ frame → state.Bit other bit → middle.Bit other bit) ∧
      ∀ after passed, BitsCleared middle after passed →
        BitsCleared state after (frame :: passed) := by
  have mapped : state.links.mapped (.frame frame) = true :=
    ring.mapped _ (mem_frameEntries.mpr List.mem_cons_self)
  obtain ⟨addr, entry, owner, here, number, reference⟩ := isSet
  let cleared := state.setHeap (state.heap.setPte addr { entry with reference := false })
  have clear : cleared.Bit frame false := PolicyState.Bit.setReferenced owner number false
  have others : ∀ other bit, other ≠ frame → state.Bit other bit → cleared.Bit other bit :=
    fun other bit apart held => held.setReferenced_of_ne here number apart false
  have advance := @run_advanceHand_first cleared frame rest handHere ring
  let middle := cleared.setOwn
    { cleared.own with hand := (rest ++ [frame]).head?.map EntryAddr.frame }
  have before : ∀ after passed, BitsCleared middle after passed →
      BitsCleared state after (frame :: passed) := by
    intro after passed later
    exact @BitsCleared.cons state frame addr entry middle after passed owner here rfl rfl later
  refine ⟨middle, fun fuel => ?_, rfl, rfl, clear, others, before⟩
  rw [run_clockSweep_succ handHere mapped owner here, reference]
  simp only [Bool.not_true, Bool.false_eq_true, if_false, EStateM.run_bind, pteSetReferenced,
    run_onPtes_pteSet _ here]
  rw [show state.setHeap (state.heap.setPte addr { entry with reference := false }) = cleared
    from rfl, advance]

/-- The frames `todo` are still to be met, those of `done` have been passed over. -/
theorem clockSweep_ring {bit : Nat → Bool} (todo : List Nat) {done : List Nat}
    (someFrame : todo ++ done ≠ [])
    (handHere : state.own.hand = (todo ++ done).head?.map EntryAddr.frame)
    (ring : state.links.Ring (frameEntries (todo ++ done)))
    (bits : ∀ frame ∈ todo, state.Bit frame (bit frame))
    (clear : ∀ frame ∈ done, state.Bit frame false) :
    ∃ victim rest after,
      (∀ fuel, todo.length < fuel → (clockSweep fuel).run state = .ok victim after) ∧
      some victim = (todo.find? fun frame => !bit frame).or (done ++ todo).head? ∧
      BitsCleared state after (todo.takeWhile bit) ∧
      todo ++ done ~r victim :: rest ∧ after.links.Ring (frameEntries rest) ∧
      after.links.Unlinked (.frame victim) ∧
      after.own.list = rest.head?.map EntryAddr.frame := by
  induction todo generalizing state done with
  | nil =>
      cases done with
      | nil => exact absurd rfl someFrame
      | cons frame rest =>
          obtain ⟨after, run, same, ringRest, unlinked, list⟩ :=
            clockSweep_takes handHere ring (clear frame List.mem_cons_self)
          refine ⟨frame, rest, after, ?_, rfl, same, List.IsRotated.refl _, ringRest, unlinked,
            list⟩
          intro fuel enough
          obtain ⟨fuel, rfl⟩ := Nat.exists_eq_succ_of_ne_zero (Nat.ne_zero_of_lt enough)
          exact run fuel
  | cons frame todo ih =>
      have here := bits frame List.mem_cons_self
      have distinct : frame ∉ todo ++ done := by
        intro member
        exact (List.nodup_cons.mp ring.nodup).1 (mem_frameEntries.mpr member)
      cases isSet : bit frame with
      | false =>
          rw [isSet] at here
          obtain ⟨after, run, same, ringRest, unlinked, list⟩ :=
            clockSweep_takes handHere ring here
          refine ⟨frame, todo ++ done, after, ?_, ?_, ?_, List.IsRotated.refl _, ringRest,
            unlinked, list⟩
          · intro fuel enough
            obtain ⟨fuel, rfl⟩ := Nat.exists_eq_succ_of_ne_zero (Nat.ne_zero_of_lt enough)
            exact run fuel
          · rw [List.find?_cons_of_pos (by rw [isSet]; rfl)]
            rfl
          · rw [List.takeWhile_cons_of_neg (by rw [isSet]; exact Bool.false_ne_true)]
            exact same
      | true =>
          rw [isSet] at here
          obtain ⟨middle, run, handNext, links, cleared, others, passes⟩ :=
            @clockSweep_passes state frame (todo ++ done) handHere ring here
          rw [List.append_assoc] at handNext
          have apart : ∀ other ∈ todo ++ done, other ≠ frame := by
            intro other member same
            exact distinct (same ▸ member)
          have turned : middle.links.Ring (frameEntries (todo ++ (done ++ [frame]))) := by
            rw [links, ← List.append_assoc, frameEntries, List.map_append]
            exact ring.rotate_one
          obtain ⟨victim, rest, after, runs, isVictim, later, rotated, ringRest, unlinked, list⟩ :=
            ih (by simp) handNext turned
              (fun other member => others other _ (apart other (List.mem_append_left _ member))
                (bits other (List.mem_cons_of_mem _ member)))
              (by
                intro other member
                rcases List.mem_append.mp member with old | last
                · exact others other _ (apart other (List.mem_append_right _ old)) (clear other old)
                · rw [List.mem_singleton.mp last]
                  exact cleared)
          refine ⟨victim, rest, after, ?_, ?_, ?_, ?_, ringRest, unlinked, list⟩
          · intro fuel enough
            obtain ⟨fuel, rfl⟩ := Nat.exists_eq_succ_of_ne_zero (Nat.ne_zero_of_lt enough)
            rw [run]
            exact runs fuel (Nat.lt_of_succ_lt_succ enough)
          · rw [isVictim, List.find?_cons_of_neg (by rw [isSet]; exact Bool.false_ne_true),
              List.append_assoc]
            rfl
          · rw [List.takeWhile_cons_of_pos isSet]
            exact passes after _ later
          · rw [← List.append_assoc] at rotated
            exact (List.isRotated_append : [frame] ++ (todo ++ done) ~r _).trans rotated

end Steps

theorem erase_isRotated {α : Type} [DecidableEq α] {ring rest : List α} {first : α}
    (distinct : ring.Nodup) (rotated : ring ~r first :: rest) : ring.erase first ~r rest := by
  obtain ⟨count, bound, here⟩ := List.isRotated_iff_mod.mp rotated
  rw [List.rotate_eq_drop_append_take bound] at here
  have split : ring = ring.take count ++ ring.drop count := (List.take_append_drop ..).symm
  generalize ring.take count = front at here split
  generalize ring.drop count = back at here split
  subst split
  cases back with
  | nil =>
      rw [List.nil_append] at here
      subst here
      rw [List.append_nil, List.erase_cons_head]
  | cons next back =>
      rw [List.cons_append, List.cons.injEq] at here
      obtain ⟨rfl, rfl⟩ := here
      have notFront : next ∉ front := by
        intro member
        exact (List.nodup_append.mp distinct).2.2 next member next List.mem_cons_self rfl
      rw [List.erase_append_right _ notFront, List.erase_cons_head]
      exact List.isRotated_append

/-- The sweep over any ring, with the hand at any of its entries, ends within one
iteration more than the ring has frames. -/
theorem clockEvict_sweeps_ring {state : PolicyState ClockStatics} {front back : List Nat}
    {hand : Nat} {bit : Nat → Bool} (handHere : state.own.hand = some (.frame hand))
    (ring : state.links.Ring (frameEntries (front ++ hand :: back)))
    (bits : ∀ frame ∈ front ++ hand :: back, state.Bit frame (bit frame)) :
    ∃ victim after,
      (∀ size, (front ++ hand :: back).length ≤ size →
        (clockEvict size).run state = .ok victim after) ∧
      Sweeps state after (back ++ front ++ [hand]) bit victim ∧
      after.links.Ring (frameEntries ((front ++ hand :: back).erase victim)) := by
  have fromHand : front ++ hand :: back ~r hand :: (back ++ front) :=
    List.isRotated_append
  have ringHand : state.links.Ring (frameEntries (hand :: (back ++ front))) :=
    ring.rotated (fromHand.map EntryAddr.frame)
  have distinct : (front ++ hand :: back).Nodup := List.Nodup.of_map _ ring.nodup
  have sameLength : (front ++ hand :: back).length = (back ++ front ++ [hand]).length := by
    simp only [List.length_append, List.length_cons, List.length_nil]
    omega
  have advance := run_advanceHand_first handHere ringHand
  have turned : state.links.Ring (frameEntries (back ++ front ++ [hand] ++ [])) := by
    rw [List.append_nil, frameEntries, List.map_append]
    exact ringHand.rotate_one
  have bitsHere : ∀ frame ∈ back ++ front ++ [hand], state.Bit frame (bit frame) := by
    intro frame member
    apply bits
    simpa [or_comm, or_left_comm, or_assoc] using member
  obtain ⟨victim, rest, after, run, isVictim, passed, rotated, ringRest, unlinked, list⟩ :=
    @clockSweep_ring (state.setOwn { state.own with
        hand := (back ++ front ++ [hand]).head?.map EntryAddr.frame }) bit
      (back ++ front ++ [hand]) [] (by simp) (by rw [List.append_nil]; rfl) turned bitsHere
      (fun _ none' => absurd none' List.not_mem_nil)
  rw [List.append_nil] at rotated
  have wholeRotated : front ++ hand :: back ~r victim :: rest :=
    (fromHand.trans (List.isRotated_append : [hand] ++ (back ++ front) ~r _)).trans rotated
  have fromVictim : state.links.Ring (frameEntries (victim :: rest)) :=
    ring.rotated (wholeRotated.map EntryAddr.frame)
  have next : state.links.next (.frame victim) = (rest ++ [victim]).head?.map EntryAddr.frame := by
    rw [← List.head?_map, List.map_append]
    exact fromVictim.neighbours.1
  have number : (back ++ front ++ [hand]).length = rest.length + 1 := rotated.perm.length_eq
  refine ⟨victim, after, ?_, ⟨isVictim, ?_, unlinked, ?_, ?_⟩, ?_⟩
  · intro size enough
    simp only [clockEvict, EStateM.run_bind, advance]
    exact run (size + 1) (by omega)
  · exact ⟨passed.frames, passed.cleared, passed.kept⟩
  · rw [list, number]
    cases rest with
    | nil => exact iff_of_true rfl rfl
    | cons successor rest =>
        exact iff_of_false (Option.some_ne_none _) (Nat.succ_ne_zero _ ∘ Nat.succ.inj)
  · intro several
    rw [list, next]
    cases rest with
    | nil => exact absurd number several
    | cons successor rest => rfl
  · exact ringRest.rotated ((erase_isRotated distinct wholeRotated).symm.map EntryAddr.frame)

/-! ## Three frames out of order -/

/-- Frames 2, 0 and 1 follow each other in the ring, and the hand is at frame 0.
Only the page in frame 2 has not been referenced. -/
def threeFrames : PolicyState ClockStatics where
  heap := { Heap.empty with
    pte := fun addr => some { PTE.initial with frameNumber := addr, reference := addr ≠ 2 } }
  frames := fun frame => ⟨false, some frame⟩
  links :=
    { mapped := fun _ => true
      next := fun entry => if entry = .frame 2 then some (.frame 0)
        else if entry = .frame 0 then some (.frame 1) else some (.frame 2)
      prev := fun entry => if entry = .frame 2 then some (.frame 1)
        else if entry = .frame 0 then some (.frame 2) else some (.frame 0) }
  own := ⟨some (.frame 2), some (.frame 0)⟩

/-- Frame 1 is passed over, and frame 2 is evicted. -/
theorem clockEvict_sweeps_ring_threeFrames : ∃ after,
    (clockEvict 3).run threeFrames = .ok 2 after ∧ Sweeps threeFrames after [1, 2, 0] (· ≠ 2) 2 ∧
      after.links.Ring (frameEntries [0, 1]) := by
  have ring : threeFrames.links.Ring (frameEntries ([2] ++ 0 :: [1])) :=
    Entries.ring_cons (by decide) (fun _ _ => rfl) ⟨⟨rfl, rfl⟩, ⟨rfl, rfl⟩, rfl, rfl⟩
  obtain ⟨victim, after, run, sweeps, ringAfter⟩ :=
    @clockEvict_sweeps_ring threeFrames [2] [1] 0 (· ≠ 2) rfl ring
      (fun frame _ => ⟨frame, _, rfl, rfl, rfl, rfl⟩)
  obtain rfl : victim = 2 := Option.some.inj sweeps.first
  exact ⟨after, run 3 (by decide), sweeps, ringAfter⟩

end MemSim
