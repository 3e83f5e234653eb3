import MemSim.Conservative

/-!
# Round robin and second chance are conservative

Both strategies inspect the frames in turn, and a frame that was loaded becomes the
last in turn.  So before a frame loaded in a stretch of accesses comes up again, the
frames behind it have been given up, or passed over because their pages were
accessed.
-/

set_option autoImplicit false

namespace MemSim

/-! ## Frames in turn -/

/-- The frames in use, in the order in which they come up once all are in use. -/
def inTurn (size loaded first : Nat) : List Nat :=
  if loaded < size then List.range loaded else around size first

section InTurn
variable {size loaded first : Nat}

theorem inTurn_full : inTurn size size first = around size first :=
  if_neg (Nat.lt_irrefl size)

theorem inTurn_fill (room : loaded < size) {next : Nat} (last : loaded + 1 = size → next = 0) :
    inTurn size (loaded + 1) next = inTurn size loaded first ++ [loaded] := by
  have before : inTurn size loaded first = List.range loaded := if_pos room
  rw [before, ← List.range_succ, Nat.succ_eq_add_one]
  rcases Nat.lt_or_ge (loaded + 1) size with more | full
  · exact if_pos more
  · have all : loaded + 1 = size := Nat.le_antisymm room full
    rw [all, inTurn_full, last all, around_zero]

theorem lt_of_mem_inTurn (room : loaded < size) {frame : Nat}
    (member : frame ∈ inTurn size loaded first) : frame < loaded := by
  rw [inTurn, if_pos room] at member
  exact List.mem_range.mp member

theorem around_nodup (bound : first < size) : (around size first).Nodup := by
  rw [← (around_isRotated_zero bound).nodup_iff, around_zero]
  exact List.nodup_range

end InTurn

/-! ## Round robin -/

namespace RoundRobin
variable {size : Nat}

/-- The frames behind a loaded one in turn were loaded later. -/
structure Keeps (size loaded turn : Nat) (fresh touched : Finset Nat) : Prop where
  turn_lt : turn < size
  filling : loaded < size → turn = 0
  subset : fresh ⊆ touched
  order : (inTurn size loaded turn).Pairwise fun earlier later =>
    earlier ∈ fresh → later ∈ touched

theorem conserves (positive : 0 < size) : Conserves strategy size (Keeps size) where
  start := by
    refine ⟨positive, fun _ => rfl, Finset.Subset.refl _, ?_⟩
    rw [inTurn, if_pos positive]
    exact List.Pairwise.nil
  forget := by
    intro loaded turn fresh touched keeps
    refine ⟨keeps.turn_lt, keeps.filling, Finset.Subset.refl _, ?_⟩
    exact keeps.order.imp fun _ none' => absurd none' (Finset.notMem_empty _)
  hit := by
    intro loaded turn fresh touched frame keeps _
    refine ⟨keeps.turn_lt, keeps.filling, keeps.subset.trans (Finset.subset_insert _ _), ?_⟩
    exact keeps.order.imp fun behind here => Finset.mem_insert_of_mem (behind here)
  fill := by
    intro loaded turn fresh touched keeps room
    have start := keeps.filling room
    refine ⟨keeps.turn_lt, fun _ => start, Finset.insert_subset_insert _ keeps.subset, ?_⟩
    change (inTurn size (loaded + 1) turn).Pairwise _
    rw [@inTurn_fill size loaded turn room turn fun _ => start]
    refine List.pairwise_append.mpr ⟨?_, List.pairwise_singleton _ _, ?_⟩
    · apply keeps.order.imp_of_mem
      intro earlier later earlierHere _ behind here
      have old := lt_of_mem_inTurn room earlierHere
      exact Finset.mem_insert_of_mem (behind ((Finset.mem_insert.mp here).resolve_left (by omega)))
    · intro earlier _ later isLast _
      rw [List.mem_singleton.mp isLast]
      exact Finset.mem_insert_self _ _
  replace := by
    intro turn fresh touched keeps
    obtain ⟨rest, here, next⟩ := around_step keeps.turn_lt
    have order := keeps.order
    rw [inTurn_full, here, List.pairwise_cons] at order
    have distinct := around_nodup keeps.turn_lt
    rw [here, List.nodup_cons] at distinct
    refine ⟨keeps.turn_lt, ?_, Nat.mod_lt _ positive, fun room => absurd room (Nat.lt_irrefl _),
      Finset.insert_subset_insert _ keeps.subset, ?_⟩
    · intro loaded frame bound
      rw [← mem_around keeps.turn_lt, here] at bound
      rcases List.mem_cons.mp bound with rfl | behind
      · exact keeps.subset loaded
      · exact order.1 frame behind loaded
    · change (inTurn size size ((turn + 1) % size)).Pairwise _
      rw [inTurn_full, next]
      refine List.pairwise_append.mpr ⟨?_, List.pairwise_singleton _ _, ?_⟩
      · apply order.2.imp_of_mem
        intro earlier later earlierHere _ behind here'
        have apart : earlier ≠ turn := fun same => distinct.1 (same ▸ earlierHere)
        exact Finset.mem_insert_of_mem (behind ((Finset.mem_insert.mp here').resolve_left apart))
      · intro earlier _ later isLast _
        rw [List.mem_singleton.mp isLast]
        exact Finset.mem_insert_self _ _

end RoundRobin

/-! ## Second chance -/

namespace SecondChance
variable {size : Nat} {bit passed : Nat → Bool} {fresh touched : Finset Nat}

/-- What holds of a frame and one behind it.  `passed` are the frames whose bits were
cleared since they were loaded. -/
structure Renews (bit passed : Nat → Bool) (fresh touched : Finset Nat)
    (earlier later : Nat) : Prop where
  after : earlier ∈ fresh → passed earlier = true → later ∈ touched
  ahead : earlier ∈ fresh → passed earlier = false → bit later = true → later ∈ touched
  behind : later ∈ fresh → passed later = true → bit earlier = true → earlier ∈ touched

/-- The bits that are set again belong to pages that were accessed. -/
structure Renewed (size : Nat) (bit passed : Nat → Bool) (fresh touched : Finset Nat)
    (order : List Nat) : Prop where
  loaded : ∀ frame ∈ fresh, passed frame = false → bit frame = true
  order : order.Pairwise (Renews bit passed fresh touched)

structure Keeps (size loaded : Nat) (machine : SecondChance) (fresh touched : Finset Nat) :
    Prop where
  hand_lt : machine.hand < size
  subset : fresh ⊆ touched
  renewed : ∃ passed, Renewed size machine.bit passed fresh touched
    (inTurn size loaded ((machine.hand + 1) % size))

theorem renewed_nothing (touched : Finset Nat) (order : List Nat) :
    Renewed size bit passed ∅ touched order where
  loaded := fun _ none' => absurd none' (Finset.notMem_empty _)
  order := List.pairwise_of_forall fun _ _ =>
    ⟨fun none' => absurd none' (Finset.notMem_empty _),
      fun none' => absurd none' (Finset.notMem_empty _),
      fun none' => absurd none' (Finset.notMem_empty _)⟩

theorem Renewed.load {order : List Nat} {frame : Nat}
    (renewed : Renewed size bit passed fresh touched order) (apart : frame ∉ order) :
    Renewed size (Function.update bit frame true) (Function.update passed frame false)
      (insert frame fresh) (insert frame touched) (order ++ [frame]) where
  loaded := by
    intro other here notPassed
    by_cases same : other = frame
    · rw [same, Function.update_self]
    · rw [Function.update_of_ne same] at notPassed ⊢
      exact renewed.loaded other ((Finset.mem_insert.mp here).resolve_left same) notPassed
  order := by
    refine List.pairwise_append.mpr ⟨?_, List.pairwise_singleton _ _, ?_⟩
    · apply renewed.order.imp_of_mem
      intro earlier later earlierHere laterHere renews
      have first : earlier ≠ frame := fun same => apart (same ▸ earlierHere)
      have second : later ≠ frame := fun same => apart (same ▸ laterHere)
      have old : ∀ {other}, other ≠ frame → other ∈ insert frame fresh → other ∈ fresh :=
        fun different here => (Finset.mem_insert.mp here).resolve_left different
      constructor
      · intro here isPassed
        rw [Function.update_of_ne first] at isPassed
        exact Finset.mem_insert_of_mem (renews.after (old first here) isPassed)
      · intro here notPassed isSet
        rw [Function.update_of_ne first] at notPassed
        rw [Function.update_of_ne second] at isSet
        exact Finset.mem_insert_of_mem (renews.ahead (old first here) notPassed isSet)
      · intro here isPassed isSet
        rw [Function.update_of_ne second] at isPassed
        rw [Function.update_of_ne first] at isSet
        exact Finset.mem_insert_of_mem (renews.behind (old second here) isPassed isSet)
    · intro earlier _ later isLast
      rw [List.mem_singleton.mp isLast]
      refine ⟨fun _ _ => Finset.mem_insert_self _ _, fun _ _ _ => Finset.mem_insert_self _ _, ?_⟩
      intro _ isPassed _
      rw [Function.update_self] at isPassed
      contradiction

theorem Renewed.pass {rest : List Nat} {frame : Nat}
    (renewed : Renewed size bit passed fresh touched (frame :: rest)) (apart : frame ∉ rest)
    (isSet : bit frame = true) :
    Renewed size (Function.update bit frame false) (Function.update passed frame true)
      fresh touched (rest ++ [frame]) where
  loaded := by
    intro other here notPassed
    by_cases same : other = frame
    · rw [same, Function.update_self] at notPassed
      contradiction
    · rw [Function.update_of_ne same] at notPassed ⊢
      exact renewed.loaded other here notPassed
  order := by
    obtain ⟨first, order⟩ := List.pairwise_cons.mp renewed.order
    refine List.pairwise_append.mpr ⟨?_, List.pairwise_singleton _ _, ?_⟩
    · apply order.imp_of_mem
      intro earlier later earlierHere laterHere renews
      have apartEarlier : earlier ≠ frame := fun same => apart (same ▸ earlierHere)
      have apartLater : later ≠ frame := fun same => apart (same ▸ laterHere)
      constructor
      · rw [Function.update_of_ne apartEarlier]
        exact renews.after
      · rw [Function.update_of_ne apartEarlier, Function.update_of_ne apartLater]
        exact renews.ahead
      · rw [Function.update_of_ne apartEarlier, Function.update_of_ne apartLater]
        exact renews.behind
    · intro earlier earlierHere later isLast
      rw [List.mem_singleton.mp isLast]
      have apartEarlier : earlier ≠ frame := fun same => apart (same ▸ earlierHere)
      have renews := first earlier earlierHere
      constructor
      · intro here isPassed
        rw [Function.update_of_ne apartEarlier] at isPassed
        exact renews.behind here isPassed isSet
      · intro _ _ isSet'
        rw [Function.update_self] at isSet'
        contradiction
      · intro here _ isSet'
        rw [Function.update_of_ne apartEarlier] at isSet'
        cases isPassed : passed frame with
        | true => exact renews.after here isPassed
        | false => exact renews.ahead here isPassed isSet'

theorem Renewed.sweep {steps frame : Nat} (bound : frame < size)
    (renewed : Renewed size bit passed fresh touched (around size frame)) :
    ∃ passed', Renewed size (sweep size bit steps frame).2 passed' fresh touched
      (around size (sweep size bit steps frame).1) := by
  induction steps generalizing bit passed frame with
  | zero => exact ⟨passed, renewed⟩
  | succ steps ih =>
      simp only [SecondChance.sweep]
      split
      · rename_i isSet
        obtain ⟨rest, here, next⟩ := around_step bound
        have distinct := around_nodup bound
        rw [here, List.nodup_cons] at distinct
        rw [here] at renewed
        have later := renewed.pass distinct.1 isSet
        rw [← next] at later
        exact ih (Nat.mod_lt _ (Nat.zero_lt_of_lt bound)) later
      · exact ⟨passed, renewed⟩

theorem conserves (positive : 0 < size) : Conserves strategy size (Keeps size) where
  start := ⟨positive, Finset.Subset.refl _, fun _ => false, renewed_nothing _ _⟩
  forget := fun keeps =>
    ⟨keeps.hand_lt, Finset.Subset.refl _, fun _ => false, renewed_nothing _ _⟩
  hit := by
    intro loaded machine fresh touched frame keeps _
    obtain ⟨passed, renewed⟩ := keeps.renewed
    have again : ∀ other, Function.update machine.bit frame true other = true →
        (machine.bit other = true → other ∈ touched) → other ∈ insert frame touched := by
      intro other isSet before
      by_cases same : other = frame
      · rw [same]
        exact Finset.mem_insert_self _ _
      · rw [Function.update_of_ne same] at isSet
        exact Finset.mem_insert_of_mem (before isSet)
    refine ⟨keeps.hand_lt, keeps.subset.trans (Finset.subset_insert _ _), passed, ?_, ?_⟩
    · intro other here notPassed
      by_cases same : other = frame
      · rw [same]
        exact Function.update_self _ _ _
      · exact (Function.update_of_ne same _ _).trans (renewed.loaded other here notPassed)
    · apply renewed.order.imp
      intro earlier later renews
      exact ⟨fun here isPassed => Finset.mem_insert_of_mem (renews.after here isPassed),
        fun here notPassed isSet => again later isSet (renews.ahead here notPassed),
        fun here isPassed isSet => again earlier isSet (renews.behind here isPassed)⟩
  fill := by
    intro loaded machine fresh touched keeps room
    obtain ⟨passed, renewed⟩ := keeps.renewed
    refine ⟨room, Finset.insert_subset_insert _ keeps.subset,
      Function.update passed loaded false, ?_⟩
    change Renewed size _ _ _ _ (inTurn size (loaded + 1) ((loaded + 1) % size))
    rw [@inTurn_fill size loaded ((machine.hand + 1) % size) room _ fun last => by
      rw [last, Nat.mod_self]]
    exact renewed.load fun member => Nat.lt_irrefl _ (lt_of_mem_inTurn room member)
  replace := by
    intro machine fresh touched keeps
    obtain ⟨passed, renewed⟩ := keeps.renewed
    have next : (machine.hand + 1) % size < size := Nat.mod_lt _ positive
    have counted := card_bitsSet_le size machine.bit
    rw [inTurn_full] at renewed
    obtain ⟨bound, clear⟩ := sweep_spec next counted
    obtain ⟨passed', swept⟩ := Renewed.sweep next renewed
    simp only [strategy]
    generalize SecondChance.sweep size machine.bit size ((machine.hand + 1) % size) = found
      at bound clear swept
    obtain ⟨rest, here, after⟩ := around_step bound
    have distinct := around_nodup bound
    rw [here, List.nodup_cons] at distinct
    rw [here] at swept
    obtain ⟨first, order⟩ := List.pairwise_cons.mp swept.order
    refine ⟨bound, ?_, bound, Finset.insert_subset_insert _ keeps.subset,
      Function.update passed' found.1 false, ?_⟩
    · intro loaded frame within
      -- its bit is clear, so it was passed over since it was loaded
      have isPassed : passed' found.1 = true := by
        cases known : passed' found.1 with
        | true => rfl
        | false => exact absurd (swept.loaded found.1 loaded known) (by rw [clear]; simp)
      rw [← mem_around bound, here] at within
      rcases List.mem_cons.mp within with rfl | behind
      · exact keeps.subset loaded
      · exact (first frame behind).after loaded isPassed
    · rw [inTurn_full, after]
      have others : Renewed size found.2 passed' fresh touched rest := ⟨swept.loaded, order⟩
      exact others.load distinct.1

end SecondChance

end MemSim
