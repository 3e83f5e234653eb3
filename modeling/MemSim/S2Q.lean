import MemSim.ListSequences
import MemSim.StrategyRefinement
import MemSim.TwoQueue

/-!
# The S2Q policy is simplified 2Q

A1 holds the entries of the frames whose pages were referenced once, in the
order of their loads; Am those of the other frames, the last referenced first.
Between an eviction and the next reference the victim's entry is in neither.
-/

set_option autoImplicit false

namespace MemSim

open Exec

def Queue.head : Queue → EntryAddr
  | .a1 => .a1
  | .am => .am

def queueEntries (frames : Queue → List Nat) (queue : Queue) : List EntryAddr :=
  (frames queue).map .frame

theorem mem_queueEntries {frames : Queue → List Nat} {queue : Queue} {frame : Nat} :
    .frame frame ∈ queueEntries frames queue ↔ frame ∈ frames queue := by
  simp [queueEntries]

theorem queueEntries_update (frames : Queue → List Nat) (queue : Queue) (changed : List Nat) :
    Function.update (queueEntries frames) queue (changed.map .frame) =
      queueEntries (Function.update frames queue changed) := by
  funext other
  by_cases same : other = queue
  · subst same
    simp [queueEntries]
  · simp [queueEntries, same]

theorem erase_queueEntries (frames : Queue → List Nat) (queue : Queue) (frame : Nat) :
    (queueEntries frames queue).erase (.frame frame) =
      ((frames queue).erase frame).map EntryAddr.frame := by
  have injective : Function.Injective EntryAddr.frame := by
    intro first second same
    cases same
    rfl
  rw [queueEntries, List.map_erase injective]

/-- The two lists hold the frames in use, in the order of the strategy's times. -/
structure S2QLinked (size : Nat) (inUse : Nat → Prop) (history : TwoQueue)
    (frames : Queue → List Nat) (state : PolicyState Unit) : Prop where
  holds : state.links.Holds Queue.head (queueEntries frames)
  member : ∀ queue frame, frame ∈ frames queue ↔ inUse frame ∧ history.In queue frame
  inUse_lt : ∀ frame, inUse frame → frame < size
  referenced : ∀ frame, inUse frame → 1 ≤ history.references frame
  orderA1 : (frames .a1).Pairwise fun first second =>
    history.loadedAt first < history.loadedAt second
  orderAm : (frames .am).Pairwise fun first second =>
    history.lastRef second < history.lastRef first
  times : ∀ frame, inUse frame →
    history.loadedAt frame < history.time ∧ history.lastRef frame < history.time
  unlinked : ∀ frame < size, ¬ inUse frame → state.links.Unlinked (.frame frame)
  bits : ∀ frame, inUse frame → state.Bit frame (decide (history.In .am frame))
  idle : state.Idle

section Linked
variable {size : Nat} {inUse : Nat → Prop} {history : TwoQueue} {frames : Queue → List Nat}
  {state : PolicyState Unit} {frame : Nat}

theorem S2QLinked.nodup (linked : S2QLinked size inUse history frames state) (queue : Queue) :
    (frames queue).Nodup := by
  have nodup := (List.nodup_cons.mp (linked.holds.ring queue).nodup).2
  exact List.Nodup.of_map _ nodup

theorem S2QLinked.queue_of (linked : S2QLinked size inUse history frames state)
    (used : inUse frame) : ∃ queue, frame ∈ frames queue := by
  obtain ⟨queue, here⟩ := TwoQueue.in_of_referenced (linked.referenced frame used)
  exact ⟨queue, (linked.member queue frame).mpr ⟨used, here⟩⟩

theorem S2QLinked.perm (linked : S2QLinked size (· < size) history frames state) (queue : Queue) :
    (frames queue).Perm (history.members size queue) := by
  apply (List.perm_ext_iff_of_nodup (linked.nodup queue) TwoQueue.nodup_members).mpr
  intro frame
  rw [linked.member, TwoQueue.mem_members]

theorem S2QLinked.victim (linked : S2QLinked size (· < size) history frames state)
    (positive : 0 < size) : ∃ frame, history.victim size = some frame ∧
      ((history.chosen size = .a1 ∧ ∃ rest, frames .a1 = frame :: rest) ∨
        history.chosen size = .am ∧ ∃ rest, frames .am = rest ++ [frame]) := by
  have nonempty : frames (history.chosen size) ≠ [] := by
    intro empty
    have perm := linked.perm (history.chosen size)
    rw [empty] at perm
    exact TwoQueue.chosen_nonempty positive linked.referenced perm.nil_eq.symm
  have members := linked.perm (history.chosen size)
  cases choice : history.chosen size with
  | a1 =>
      rw [choice] at nonempty members
      cases first : frames .a1 with
      | nil => exact absurd first nonempty
      | cons frame rest =>
          refine ⟨frame, ?_, .inl ⟨rfl, rest, rfl⟩⟩
          have order := linked.orderA1
          rw [first] at order members
          rw [TwoQueue.victim, choice]
          apply TwoQueue.argmin_eq_of_least
          · exact members.mem_iff.mp (List.mem_cons_self ..)
          · intro other member apart
            have inList := members.mem_iff.mpr member
            rcases List.mem_cons.mp inList with same | later
            · exact absurd same apart
            · exact (List.pairwise_cons.mp order).1 other later
  | am =>
      rw [choice] at nonempty members
      rcases List.eq_nil_or_concat (frames .am) with empty | ⟨rest, frame, last⟩
      · exact absurd empty nonempty
      · rw [List.concat_eq_append] at last
        refine ⟨frame, ?_, .inr ⟨rfl, rest, last⟩⟩
        have order := linked.orderAm
        rw [last] at order members
        rw [TwoQueue.victim, choice]
        apply TwoQueue.argmin_eq_of_least
        · exact members.mem_iff.mp (by simp)
        · intro other member apart
          have inList := members.mem_iff.mpr member
          rcases List.mem_append.mp inList with earlier | same
          · exact (List.pairwise_append.mp order).2.2 other earlier frame (List.mem_singleton_self _)
          · exact absurd (List.mem_singleton.mp same) apart

theorem S2QLinked.del (linked : S2QLinked size inUse history frames state) (used : inUse frame) :
    ∃ links, (listDel (frameEntry frame)).run state.links = .ok () links ∧
      links.mapped = state.links.mapped ∧ links.Unlinked (.frame frame) ∧
      S2QLinked size (fun other => inUse other ∧ other ≠ frame) history
        (fun queue => (frames queue).erase frame) (state.setLinks links) := by
  obtain ⟨queue, member⟩ := linked.queue_of used
  obtain ⟨links, run, sameMapped, holds, unlinked, others⟩ :=
    linked.holds.del (mem_queueEntries.mpr member)
  have erased : Function.update frames queue ((frames queue).erase frame) =
      fun other => (frames other).erase frame := by
    funext other
    by_cases same : other = queue
    · subst same
      rw [Function.update_self]
    · rw [Function.update_of_ne same, List.erase_of_not_mem]
      intro there
      have inOther := ((linked.member other frame).mp there).2
      exact same (inOther.unique ((linked.member queue frame).mp member).2)
  rw [erase_queueEntries, queueEntries_update, erased] at holds
  refine ⟨links, run, sameMapped, unlinked, ?_⟩
  refine
    { holds := holds
      member := ?_
      inUse_lt := fun other here => linked.inUse_lt other here.1
      referenced := fun other here => linked.referenced other here.1
      orderA1 := linked.orderA1.sublist List.erase_sublist
      orderAm := linked.orderAm.sublist List.erase_sublist
      times := fun other here => linked.times other here.1
      unlinked := ?_
      bits := fun other here => linked.bits other here.1
      idle := linked.idle }
  · intro other index
    rw [(linked.nodup other).mem_erase_iff, linked.member]
    constructor
    · intro both
      exact ⟨⟨both.2.1, both.1⟩, both.2.2⟩
    · intro both
      exact ⟨both.1.2, both.1.1, both.2⟩
  · intro other bound notUsed
    by_cases same : other = frame
    · subst same
      exact unlinked
    · exact others _ (linked.unlinked other bound fun here => notUsed ⟨here, same⟩)

theorem S2QLinked.setReferenced (linked : S2QLinked size inUse history frames state)
    (notUsed : ¬ inUse frame) {addr : Addr} {entry : PTE}
    (here : state.heap.pte addr = some entry) (number : entry.frameNumber = frame) (value : Bool)
    (keepsIdle : entry.valid = true ∨ value = false) :
    S2QLinked size inUse history frames
      (state.setHeap (state.heap.setPte addr { entry with reference := value })) :=
  { linked with
    bits := by
      intro other used
      apply (linked.bits other used).setReferenced_of_ne here number
      rintro rfl
      exact notUsed used
    idle := by
      intro other found there invalid
      rcases Heap.pte_setPte_eq_some.mp there with ⟨-, rfl⟩ | ⟨-, there'⟩
      · rcases keepsIdle with valid | clear
        · exact Bool.noConfusion (valid.symm.trans invalid)
        · exact clear
      · exact linked.idle other found there' invalid }

end Linked

/-! ## Eviction -/

section Evict
variable {size : Nat} {history : TwoQueue} {frames : Queue → List Nat} {state : PolicyState Unit}

/-- The entry `CSC369_PolicyS2QEvict` takes is that of the victim. -/
theorem run_s2qVictim (linked : S2QLinked size (· < size) history frames state) {frame : Nat}
    (position : (history.chosen size = .a1 ∧ ∃ rest, frames .a1 = frame :: rest) ∨
      history.chosen size = .am ∧ ∃ rest, frames .am = rest ++ [frame]) :
    (s2qVictim (frames .a1).length size).run state.links =
      .ok (some (.frame frame)) state.links := by
  have count : (frames .a1).length = (history.members size .a1).length :=
    (linked.perm .a1).length_eq
  have mapped : ∀ queue : Queue, state.links.mapped queue.head = true := by
    intro queue
    exact (linked.holds.ring queue).mapped _ (List.mem_cons_self ..)
  rw [TwoQueue.chosen, ← count] at position
  rw [s2qVictim]
  rcases position with ⟨choice, rest, first⟩ | ⟨choice, rest, last⟩
  · have many : (frames .a1).length > size / 10 := by
      by_contra few
      rw [if_neg few] at choice
      contradiction
    have ring := linked.holds.ring .a1
    rw [queueEntries, first, List.map_cons] at ring
    have next : state.links.next .a1 = some (.frame frame) := ring.neighbours.1
    rw [if_pos many, listFirstEntry, headA1, run_readNext (by exact mapped .a1), next]
  · have few : ¬ (frames .a1).length > size / 10 := by
      intro many
      rw [if_pos many] at choice
      contradiction
    have ring := linked.holds.ring .am
    rw [queueEntries, last, List.map_append] at ring
    have prev : state.links.prev .am = some (.frame frame) := by
      have atEnd := ring.neighbours.2
      rw [← List.cons_append, List.getLast?_append] at atEnd
      exact atEnd
    rw [if_neg few, listLastEntry, headAm, run_readPrev (by exact mapped .am), prev]

theorem s2qEvict_spec (linked : S2QLinked size (· < size) history frames state)
    (positive : 0 < size) : ∃ after,
      (s2qEvict size).run state = .ok (TwoQueue.strategy.victim size history).1 after ∧
        (TwoQueue.strategy.victim size history).1 < size ∧
        S2QLinked size
          (fun other => other < size ∧ other ≠ (TwoQueue.strategy.victim size history).1) history
          (fun queue => (frames queue).erase (TwoQueue.strategy.victim size history).1) after ∧
        after.Bit (TwoQueue.strategy.victim size history).1 false := by
  obtain ⟨frame, victim, position⟩ := linked.victim positive
  have chosen : (TwoQueue.strategy.victim size history).1 = frame := by
    simp only [TwoQueue.strategy, victim, Option.getD_some]
  rw [chosen]
  have inUse : frame < size := by
    have member : frame ∈ frames (history.chosen size) := by
      rcases position with ⟨choice, rest, first⟩ | ⟨choice, rest, last⟩
      · rw [choice, first]
        exact List.mem_cons_self ..
      · rw [choice, last]
        simp
    exact ((linked.member _ frame).mp member).1
  have short : (queueEntries frames .a1).length < size + 1 := by
    have within : frames .a1 ⊆ List.range size := fun other member =>
      List.mem_range.mpr ((linked.member .a1 other).mp member).1
    have bounded := (List.subperm_of_subset (linked.nodup .a1) within).length_le
    rw [List.length_range] at bounded
    rw [queueEntries, List.length_map]
    omega
  obtain ⟨links, del, -, unlinked, without⟩ := linked.del inUse
  obtain ⟨addr, entry, owner, here, number, -⟩ := linked.bits frame inUse
  let after := (state.setLinks links).setHeap
    (state.heap.setPte addr { entry with reference := false })
  refine ⟨after, ?_, inUse, ?_, ?_⟩
  · have visit : (onLinks (listForEach headA1 (size + 1)) : Exec (PolicyState Unit) _).run state =
        .ok ((queueEntries frames .a1).map some) state :=
      run_onLinks_of_ok (listForEach_spec (linked.holds.ring .a1) short)
    have select : (onLinks (s2qVictim ((queueEntries frames .a1).map some).length size) :
        Exec (PolicyState Unit) _).run state = .ok (some (.frame frame)) state := by
      rw [List.length_map, queueEntries, List.length_map]
      exact run_onLinks_of_ok (run_s2qVictim linked position)
    have delete : (onLinks (listDel (some (.frame frame))) : Exec (PolicyState Unit) Unit).run
        state = .ok () (state.setLinks links) := run_onLinks_of_ok del
    have reset : (onLinks (listEntryInit (some (.frame frame))) :
        Exec (PolicyState Unit) Unit).run (state.setLinks links) = .ok () (state.setLinks links) :=
      run_onLinks_of_ok (by exact run_listEntryInit_unlinked unlinked)
    simp only [s2qEvict, EStateM.run_bind, visit, select, delete, reset]
    rw [run_containerFrame (by exact unlinked.mapped)]
    dsimp only
    rw [run_framePte]
    dsimp only
    rw [show ((state.setLinks links).frames frame).pte = some addr from owner, pteSetReferenced,
      run_onPtes_pteSet _ (by exact here)]
    dsimp only
    rw [pteGetFrameNumber, run_onPtes_pteGet _ Heap.pte_setPte_self]
    exact congrArg (fun value => EStateM.Result.ok value after) number
  · exact without.setReferenced (fun used => used.2 rfl) (by exact here) number false (.inr rfl)
  · exact ⟨addr, _, owner, Heap.pte_setPte_self, number, rfl⟩

end Evict

/-! ## Reference -/

/-- The two histories differ in one frame, and in the time. -/
structure TwoQueue.Follows (frame : Nat) (before after : TwoQueue) : Prop where
  time : after.time = before.time + 1
  references : ∀ other, other ≠ frame → after.references other = before.references other
  loadedAt : ∀ other, other ≠ frame → after.loadedAt other = before.loadedAt other
  lastRef : ∀ other, other ≠ frame → after.lastRef other = before.lastRef other
  lastRef_eq : after.lastRef frame = before.time

theorem TwoQueue.follows_hit (history : TwoQueue) (frame : Nat) :
    history.Follows frame (TwoQueue.strategy.hit history frame) where
  time := rfl
  references := fun _ apart => Function.update_of_ne apart _ _
  loadedAt := fun _ _ => rfl
  lastRef := fun _ apart => Function.update_of_ne apart _ _
  lastRef_eq := Function.update_self ..

theorem TwoQueue.follows_load (history : TwoQueue) (frame : Nat) :
    history.Follows frame (TwoQueue.strategy.load history frame) where
  time := rfl
  references := fun _ apart => Function.update_of_ne apart _ _
  loadedAt := fun _ apart => Function.update_of_ne apart _ _
  lastRef := fun _ apart => Function.update_of_ne apart _ _
  lastRef_eq := Function.update_self ..

theorem TwoQueue.Follows.in_iff {before after : TwoQueue} {frame other : Nat}
    (follows : before.Follows frame after) (apart : other ≠ frame) (queue : Queue) :
    after.In queue other ↔ before.In queue other := by
  cases queue with
  | a1 => simp only [TwoQueue.In, follows.references other apart]
  | am => simp only [TwoQueue.In, follows.references other apart]

section Reference
variable {size : Nat} {inUse : Nat → Prop} {history history' : TwoQueue}
  {frames : Queue → List Nat} {state : PolicyState Unit} {frame : Nat}

theorem S2QLinked.insert
    (linked : S2QLinked size (fun other => inUse other ∧ other ≠ frame) history frames state)
    (bound : frame < size) (used : inUse frame) (follows : history.Follows frame history')
    (loadedAt_le : history'.loadedAt frame ≤ history.time) {queue : Queue} {changed : List Nat}
    (members : ∀ other, other ∈ changed ↔ other = frame ∨ other ∈ frames queue)
    (place : history'.In queue frame) {links : Entries EntryAddr}
    (holds : links.Holds Queue.head (queueEntries (Function.update frames queue changed)))
    (others : ∀ other, other ≠ .frame frame → state.links.Unlinked other → links.Unlinked other)
    (orderA1 : (Function.update frames queue changed .a1).Pairwise fun first second =>
      history'.loadedAt first < history'.loadedAt second)
    (orderAm : (Function.update frames queue changed .am).Pairwise fun first second =>
      history'.lastRef second < history'.lastRef first)
    (bit : state.Bit frame (decide (history'.In .am frame))) :
    S2QLinked size inUse history' (Function.update frames queue changed)
      (state.setLinks links) where
  holds := holds
  member := by
    intro other index
    have old : index ∈ frames other ↔ (inUse index ∧ index ≠ frame) ∧ history.In other index :=
      linked.member other index
    by_cases isFrame : index = frame
    · subst isFrame
      by_cases same : other = queue
      · subst same
        rw [Function.update_self, members]
        exact ⟨fun _ => ⟨used, place⟩, fun _ => .inl rfl⟩
      · rw [Function.update_of_ne same, old]
        constructor
        · intro both
          exact absurd rfl both.1.2
        · intro both
          exact absurd (both.2.unique place) same
    · have sameIn := follows.in_iff isFrame other
      have unchanged : index ∈ Function.update frames queue changed other ↔
          index ∈ frames other := by
        by_cases same : other = queue
        · subst same
          rw [Function.update_self, members]
          exact or_iff_right isFrame
        · rw [Function.update_of_ne same]
      rw [unchanged, old, sameIn]
      exact and_congr_left fun _ => and_iff_left isFrame
  inUse_lt := by
    intro other here
    by_cases same : other = frame
    · rw [same]
      exact bound
    · exact linked.inUse_lt other ⟨here, same⟩
  referenced := by
    intro other here
    by_cases same : other = frame
    · subst same
      cases queue with
      | a1 => exact Nat.le_of_eq place.symm
      | am => exact Nat.le_of_lt place
    · rw [follows.references other same]
      exact linked.referenced other ⟨here, same⟩
  orderA1 := orderA1
  orderAm := orderAm
  times := by
    intro other here
    rw [follows.time]
    by_cases same : other = frame
    · subst same
      have last := follows.lastRef_eq
      omega
    · have before := linked.times other ⟨here, same⟩
      rw [follows.loadedAt other same, follows.lastRef other same]
      omega
  unlinked := by
    intro other otherBound notUsed
    have apart : other ≠ frame := by
      rintro rfl
      exact notUsed used
    apply others
    · intro same
      cases same
      exact apart rfl
    · exact linked.unlinked other otherBound fun here => notUsed here.1
  bits := by
    intro other here
    by_cases same : other = frame
    · subst same
      exact bit
    · have sameIn := follows.in_iff same .am
      have before := linked.bits other ⟨here, same⟩
      rw [show decide (history'.In .am other) = decide (history.In .am other) from
        decide_eq_decide.mpr sameIn]
      exact before
  idle := linked.idle

theorem S2QLinked.orders (linked :
    S2QLinked size (fun other => inUse other ∧ other ≠ frame) history frames state)
    (follows : history.Follows frame history') :
    ((frames .a1).Pairwise fun first second =>
        history'.loadedAt first < history'.loadedAt second) ∧
      (frames .am).Pairwise fun first second =>
        history'.lastRef second < history'.lastRef first := by
  have apart : ∀ queue other, other ∈ frames queue → other ≠ frame := fun queue other member =>
    ((linked.member queue other).mp member).1.2
  constructor
  · apply linked.orderA1.imp_of_mem
    intro first second firstIn secondIn before
    rw [follows.loadedAt first (apart _ first firstIn),
      follows.loadedAt second (apart _ second secondIn)]
    exact before
  · apply linked.orderAm.imp_of_mem
    intro first second firstIn secondIn before
    rw [follows.lastRef first (apart _ first firstIn),
      follows.lastRef second (apart _ second secondIn)]
    exact before

theorem s2qOnRef_hit (linked : S2QLinked size inUse history frames state) (used : inUse frame)
    (inMemory : state.InMemory frame) : ∃ frames' after,
      (s2qOnRef frame).run state = .ok () after ∧
        S2QLinked size inUse (TwoQueue.strategy.hit history frame) frames' after := by
  obtain ⟨addr, entry, owner, here, number, -⟩ := linked.bits frame used
  obtain ⟨queue, member⟩ := linked.queue_of used
  have ring := linked.holds.ring queue
  have inRing : EntryAddr.frame frame ∈ queue.head :: queueEntries frames queue :=
    List.mem_cons_of_mem _ (mem_queueEntries.mpr member)
  let marked := state.setHeap (state.heap.setPte addr { entry with reference := true })
  obtain ⟨links, del, -, unlinked, without⟩ := linked.del used
  have marking := without.setReferenced (fun here => here.2 rfl) (by exact here) number true
    (.inl (inMemory.valid addr entry owner here))
  obtain ⟨links', add, -, holds, others⟩ := marking.holds.addHead (by exact unlinked) .am
  have follows := history.follows_hit frame
  have twice : (TwoQueue.strategy.hit history frame).In .am frame := by
    have once := linked.referenced frame used
    have more : (TwoQueue.strategy.hit history frame).references frame =
        history.references frame + 1 := Function.update_self ..
    rw [TwoQueue.In, more]
    omega
  have moved : Function.update (queueEntries fun queue => (frames queue).erase frame) .am
      (.frame frame :: queueEntries (fun queue => (frames queue).erase frame) .am) =
        queueEntries (Function.update (fun queue => (frames queue).erase frame) .am
          (frame :: (frames .am).erase frame)) :=
    queueEntries_update _ .am (frame :: (frames .am).erase frame)
  rw [moved] at holds
  obtain ⟨orderA1, orderAm⟩ := marking.orders follows
  refine ⟨_, _, ?_, marking.insert (linked.inUse_lt frame used) used follows
    (Nat.le_of_lt (linked.times frame used).1) (fun other => List.mem_cons) twice holds others
    ?_ ?_ ?_⟩
  · have notFree : (!(state.frames frame).free) = true := by simp [inMemory.used]
    have isLinked : (onLinks (listEntryIsLinked (frameEntry frame)) :
        Exec (PolicyState Unit) Bool).run state = .ok true state := by
      have run := run_listEntryIsLinked (ring.mapped _ inRing)
      rw [Option.isSome_iff_ne_none.mpr (ring.linked inRing)] at run
      exact run_onLinks_of_ok run
    have mark : (onlyIf (!entry.reference) (onPtes (pteSetReferenced (some addr) true)) :
        Exec (PolicyState Unit) Unit).run state = .ok () marked := by
      rcases Bool.eq_false_or_eq_true entry.reference with set | clear
      · have same : state.heap.setPte addr { entry with reference := true } = state.heap := by
          apply Heap.setPte_same
          rw [here, ← set]
        rw [set, Bool.not_true, onlyIf_false, EStateM.run_pure]
        simp only [marked, same]
        rfl
      · rw [clear, Bool.not_false, onlyIf_true]
        exact run_onPtes_pteSet _ here
    have delete : (onLinks (listDel (frameEntry frame)) : Exec (PolicyState Unit) Unit).run
        marked = .ok () (marked.setLinks links) := run_onLinks_of_ok del
    have prepend : (onLinks (listAddHead headAm (frameEntry frame)) :
        Exec (PolicyState Unit) Unit).run (marked.setLinks links) =
          .ok () ((marked.setLinks links).setLinks links') := run_onLinks_of_ok add
    simp only [s2qOnRef, EStateM.run_bind, EStateM.run_get, notFree, run_require_true, isLinked,
      Bool.not_true, Bool.false_eq_true, if_false, run_framePte, owner, pteIsReferenced,
      run_onPtes_pteGet PTE.reference here, mark, delete, prepend]
    rfl
  · rw [Function.update_of_ne (by simp)]
    exact orderA1
  · rw [Function.update_self]
    apply List.pairwise_cons.mpr
    refine ⟨?_, orderAm⟩
    intro other inAm
    have here := ((marking.member .am other).mp inAm).1
    rw [follows.lastRef other here.2, follows.lastRef_eq]
    exact (linked.times other here.1).2
  · rw [show decide ((TwoQueue.strategy.hit history frame).In .am frame) = true from
      decide_eq_true twice]
    exact @PolicyState.Bit.setReferenced _ (state.setLinks links) _ _ _ owner number true

theorem s2qOnRef_load (linked :
    S2QLinked size (fun other => inUse other ∧ other ≠ frame) history frames state)
    (bound : frame < size) (used : inUse frame) (notFree : (state.frames frame).free = false)
    (bit : state.Bit frame false) : ∃ frames' after, (s2qOnRef frame).run state = .ok () after ∧
      S2QLinked size inUse (TwoQueue.strategy.load history frame) frames' after := by
  have unlinked := linked.unlinked frame bound fun here => here.2 rfl
  obtain ⟨links, add, -, holds, others⟩ := linked.holds.addTail unlinked .a1
  have follows := history.follows_load frame
  have once : (TwoQueue.strategy.load history frame).In .a1 frame := Function.update_self ..
  have loadedAt : (TwoQueue.strategy.load history frame).loadedAt frame = history.time :=
    Function.update_self ..
  have moved : Function.update (queueEntries frames) .a1
      (queueEntries frames .a1 ++ [.frame frame]) =
        queueEntries (Function.update frames .a1 (frames .a1 ++ [frame])) := by
    rw [← queueEntries_update, List.map_append]
    rfl
  rw [moved] at holds
  obtain ⟨orderA1, orderAm⟩ := linked.orders follows
  refine ⟨_, _, ?_, linked.insert bound used follows (Nat.le_of_eq loadedAt)
    (fun other => ?_) once holds others ?_ ?_ ?_⟩
  · have inFrame : (!(state.frames frame).free) = true := by simp [notFree]
    have notLinked : (onLinks (listEntryIsLinked (frameEntry frame)) :
        Exec (PolicyState Unit) Bool).run state = .ok false state := by
      have run := run_listEntryIsLinked unlinked.mapped
      rw [unlinked.next] at run
      exact run_onLinks_of_ok run
    have append : (onLinks (listAddTail headA1 (frameEntry frame)) :
        Exec (PolicyState Unit) Unit).run state = .ok () (state.setLinks links) :=
      run_onLinks_of_ok add
    simp only [s2qOnRef, EStateM.run_bind, EStateM.run_get, inFrame, run_require_true, notLinked,
      Bool.not_false, if_true, append]
  · rw [List.mem_append, List.mem_singleton, or_comm]
  · rw [Function.update_self]
    apply List.pairwise_append.mpr
    refine ⟨orderA1, List.pairwise_singleton _ _, ?_⟩
    intro first inA1 second isFrame
    cases List.mem_singleton.mp isFrame
    have here := ((linked.member .a1 first).mp inA1).1
    rw [follows.loadedAt first here.2, loadedAt]
    exact (linked.times first here).1
  · rw [Function.update_of_ne (by simp)]
    exact orderAm
  · have notTwice : ¬ (TwoQueue.strategy.load history frame).In .am frame := by
      intro twice
      exact absurd (once.unique twice) (by simp)
    rw [decide_eq_false notTwice]
    exact bit

end Reference

/-! ## The policy implements the strategy -/

section Implements
variable {size loaded : Nat} {inUse : Nat → Prop} {history : TwoQueue}
  {frames : Queue → List Nat} {state after : PolicyState Unit} {frame : Nat}

theorem S2QLinked.congr (linked : S2QLinked size inUse history frames state)
    (links : after.links = state.links)
    (bit : ∀ frame, inUse frame → ∀ bit, state.Bit frame bit → after.Bit frame bit)
    (idle : after.Idle) : S2QLinked size inUse history frames after :=
  { linked with
    holds := links ▸ linked.holds
    unlinked := links ▸ linked.unlinked
    bits := fun frame used => bit frame used _ (linked.bits frame used)
    idle := idle }

/-- The states between accesses. -/
def S2QSettled (size loaded : Nat) (history : TwoQueue) (state : PolicyState Unit) : Prop :=
  ∃ frames, S2QLinked size (· < loaded) history frames state

/-- The states in which a page is about to be put into the frame. -/
structure S2QAwaiting (size loaded : Nat) (history : TwoQueue) (frame : Nat)
    (state : PolicyState Unit) : Prop where
  bound : frame < size
  linked : ∃ frames,
    S2QLinked size (fun other => other < loaded ∧ other ≠ frame) history frames state
  clear : ∀ bit, state.Bit frame bit → bit = false

theorem S2QSettled.next (settled : S2QSettled size loaded history state) (room : loaded < size)
    (unowned : (state.frames loaded).pte = none) :
    S2QAwaiting size (loaded + 1) history loaded state where
  bound := room
  linked := by
    obtain ⟨frames, linked⟩ := settled
    have same : (fun other => other < loaded) =
        fun other => other < loaded + 1 ∧ other ≠ loaded := by
      funext other
      apply propext
      omega
    exact ⟨frames, same ▸ linked⟩
  clear := by
    intro bit held
    obtain ⟨addr, entry, owner, -⟩ := held
    rw [unowned] at owner
    contradiction

theorem S2QAwaiting.load (awaiting : S2QAwaiting size loaded history frame state)
    (inUse : frame < loaded) (moved : state.Moved loaded frame after) :
    ∃ last, (s2qOnRef frame).run after = .ok () last ∧
      S2QSettled size loaded (TwoQueue.strategy.load history frame) last := by
  obtain ⟨frames, linked⟩ := awaiting.linked
  obtain ⟨idle, clear⟩ := moved.idle linked.idle awaiting.clear
  have linked' : S2QLinked size (fun other => other < loaded ∧ other ≠ frame) history frames
      after :=
    linked.congr moved.links (fun other here => moved.bit other here.1 here.2) idle
  obtain ⟨frames', last, run, settled⟩ :=
    s2qOnRef_load linked' awaiting.bound inUse moved.used clear
  exact ⟨last, run, frames', settled⟩

theorem s2q_implements (env : Env) (positive : 0 < env.memsize) :
    Implements env policyS2Q TwoQueue.strategy (S2QSettled env.memsize)
      (S2QAwaiting env.memsize) where
  unmoved := by
    intro loaded own before after settled unmoved
    obtain ⟨frames, linked⟩ := settled
    exact ⟨frames, linked.congr unmoved.links unmoved.bit (unmoved.idle linked.idle)⟩
  hit := by
    intro loaded own frame state settled inUse inMemory
    obtain ⟨frames, linked⟩ := settled
    obtain ⟨frames', after, run, linked'⟩ := s2qOnRef_hit linked inUse inMemory
    exact ⟨after, run, frames', linked'⟩
  next := fun settled room unowned => settled.next room unowned
  evict := by
    intro own state settled
    obtain ⟨frames, linked⟩ := settled
    obtain ⟨after, run, bound, linked', clear⟩ := s2qEvict_spec linked positive
    exact ⟨after, run, bound, ⟨bound, ⟨_, linked'⟩, fun bit held => held.unique clear⟩,
      fun bit held => held.unique clear⟩
  load := fun awaiting inUse moved => awaiting.load inUse moved

end Implements

end MemSim
