import MemSim.SecondChance

/-!
# Round robin and first in, first out

The reference for the RR policy gives the frames up in turn.  A queue of the
pages in memory, the oldest first, evicts just as often, so that the frame to be
given up next is known from the number of evictions.
-/

set_option autoImplicit false

namespace MemSim

/-! ## A queue of pages -/

namespace Fifo

section Queue
variable {α : Type} [DecidableEq α] (size : Nat)

def evicts (queue : List α) (page : α) : Bool := decide (page ∉ queue ∧ size ≤ queue.length)

def access (queue : List α) (page : α) : List α :=
  if page ∈ queue then queue
  else if queue.length < size then queue ++ [page]
  else queue.tail ++ [page]

def evictions : List α → List α → Nat
  | _, [] => 0
  | queue, page :: rest => (evicts size queue page).toNat + evictions (access size queue page) rest

variable {size} {queue : List α} {page : α}

theorem evicts_of_mem (member : page ∈ queue) : evicts size queue page = false := by
  simp [evicts, member]

theorem evicts_of_room (room : queue.length < size) : evicts size queue page = false := by
  simp [evicts, room]

theorem evicts_of_full (absent : page ∉ queue) (full : size ≤ queue.length) :
    evicts size queue page = true := by
  simp [evicts, absent, full]

theorem access_of_mem (member : page ∈ queue) : access size queue page = queue := by
  simp only [access, member, if_true]

theorem access_of_room (absent : page ∉ queue) (room : queue.length < size) :
    access size queue page = queue ++ [page] := by
  simp only [access, absent, room, if_false, if_true]

theorem access_of_full (absent : page ∉ queue) (full : size ≤ queue.length) :
    access size queue page = queue.tail ++ [page] := by
  simp only [access, absent, Nat.not_lt.mpr full, if_false]

theorem evictions_eq_zero (distinct : queue.Nodup) (fits : queue.length ≤ size)
    (pages : List α) :
    evictions size queue pages = 0 ↔ (queue ++ pages).toFinset.card ≤ size := by
  induction pages generalizing queue with
  | nil =>
      rw [List.append_nil, List.toFinset_card_of_nodup distinct]
      exact ⟨fun _ => fits, fun _ => rfl⟩
  | cons page rest ih =>
      have grouped : queue ++ page :: rest = queue ++ [page] ++ rest := by simp
      rw [evictions]
      by_cases member : page ∈ queue
      · rw [evicts_of_mem member, access_of_mem member, Bool.toNat_false, Nat.zero_add,
          ih distinct fits]
        have same : (queue ++ page :: rest).toFinset = (queue ++ rest).toFinset := by
          ext other
          simp only [List.mem_toFinset, List.mem_append, List.mem_cons]
          constructor
          · intro here
            rcases here with old | rfl | later
            · exact .inl old
            · exact .inl member
            · exact .inr later
          · intro here
            exact here.imp_right .inr
        rw [same]
      · have longer : (queue ++ [page]).Nodup := by
          rw [← List.concat_eq_append]
          exact distinct.concat member
        rcases Nat.lt_or_ge queue.length size with room | full
        · have fits' : (queue ++ [page]).length ≤ size := by
            rw [List.length_append, List.length_singleton]
            exact room
          rw [evicts_of_room room, access_of_room member room, Bool.toNat_false, Nat.zero_add,
            ih longer fits', grouped]
        · rw [evicts_of_full member full, Bool.toNat_true, grouped]
          have subset : (queue ++ [page]).toFinset ⊆ (queue ++ [page] ++ rest).toFinset := by
            intro other here
            rw [List.mem_toFinset] at here ⊢
            exact List.mem_append_left _ here
          have more := Finset.card_le_card subset
          rw [List.toFinset_card_of_nodup longer, List.length_append, List.length_singleton] at more
          constructor
          · intro none'
            omega
          · intro few
            omega

theorem evictions_nil_eq_zero (pages : List α) :
    evictions size [] pages = 0 ↔ pages.toFinset.card ≤ size :=
  evictions_eq_zero List.nodup_nil (Nat.zero_le _) pages

/-! ### The order of the queue -/

variable (size) in
def after (queue pages : List α) : List α := pages.foldl (access size) queue

variable (size) in
/-- The page came into the queue with the access number `began` and has stayed. -/
structure Since (pages : List α) (page : α) (began : Nat) : Prop where
  bound : began < pages.length
  absent : page ∉ after size [] (pages.take began)
  stays : ∀ count, began < count → count ≤ pages.length →
    page ∈ after size [] (pages.take count)

variable {pages : List α} {last : α} {began : Nat}

theorem after_append : after size queue (pages ++ [last]) =
    access size (after size queue pages) last := by
  rw [after, List.foldl_append]
  rfl

theorem mem_access : page ∈ access size queue page := by
  unfold access
  split
  · assumption
  · split
    · exact List.mem_append_right _ (List.mem_singleton_self page)
    · exact List.mem_append_right _ (List.mem_singleton_self page)

theorem mem_of_mem_access (member : page ∈ access size queue last) (apart : page ≠ last) :
    page ∈ queue := by
  unfold access at member
  split at member
  · exact member
  · have notLast : page ∉ [last] := fun here => apart (List.mem_singleton.mp here)
    split at member
    · exact (List.mem_append.mp member).resolve_right notLast
    · exact List.mem_of_mem_tail ((List.mem_append.mp member).resolve_right notLast)

theorem Since.mem (since : Since size pages page began) : page ∈ after size [] pages := by
  have here := since.stays pages.length since.bound (Nat.le_refl _)
  rwa [List.take_length] at here

theorem since_last (absent : last ∉ after size [] pages) :
    Since size (pages ++ [last]) last pages.length where
  bound := by simp
  absent := by rwa [List.take_left]
  stays := by
    intro count later bound
    rw [List.length_append, List.length_singleton] at bound
    rw [List.take_of_length_le (by simp; omega), after_append]
    exact mem_access

theorem Since.append (since : Since size pages page began)
    (stays : page ∈ after size [] (pages ++ [last])) : Since size (pages ++ [last]) page began where
  bound := by
    rw [List.length_append]
    exact Nat.lt_add_right _ since.bound
  absent := by
    rw [List.take_append_of_le_length (Nat.le_of_lt since.bound)]
    exact since.absent
  stays := by
    intro count later bound
    rcases Nat.lt_or_ge pages.length count with all | within
    · rwa [List.take_of_length_le (by simp; omega)]
    · rw [List.take_append_of_le_length within]
      exact since.stays count later within

theorem Since.of_append (since : Since size (pages ++ [last]) page began)
    (before : began < pages.length) : Since size pages page began where
  bound := before
  absent := by
    have absent := since.absent
    rwa [List.take_append_of_le_length (Nat.le_of_lt before)] at absent
  stays := by
    intro count later bound
    have here := since.stays count later (by simp; omega)
    rwa [List.take_append_of_le_length bound] at here

theorem Since.before (since : Since size (pages ++ [last]) page began)
    (member : page ∈ after size [] pages) : began < pages.length := by
  have bound := since.bound
  rw [List.length_append, List.length_singleton] at bound
  apply Nat.lt_of_le_of_ne (Nat.le_of_lt_succ bound)
  intro same
  have absent := since.absent
  rw [same, List.take_left] at absent
  exact absent member

theorem Since.of_absent (since : Since size (pages ++ [last]) page began)
    (absent : page ∉ after size [] pages) : began = pages.length := by
  have bound := since.bound
  rw [List.length_append, List.length_singleton] at bound
  rcases Nat.eq_or_lt_of_le (Nat.le_of_lt_succ bound) with same | before
  · exact same
  · exact absurd (since.of_append before).mem absent

variable (size) in
theorem after_inOrder (pages : List α) :
    (after size [] pages).Pairwise (fun earlier later => ∀ began began',
        Since size pages earlier began → Since size pages later began' → began < began') ∧
      ∀ page ∈ after size [] pages, ∃ began, Since size pages page began := by
  induction pages using List.reverseRecOn with
  | nil => exact ⟨List.Pairwise.nil, fun _ member => absurd member List.not_mem_nil⟩
  | append_singleton pages last ih =>
      obtain ⟨ordered, known⟩ := ih
      have old : ∀ {page}, page ∈ after size [] pages →
          page ∈ after size [] (pages ++ [last]) → ∃ began,
            Since size (pages ++ [last]) page began := by
        intro page before stays
        obtain ⟨began, since⟩ := known page before
        exact ⟨began, since.append stays⟩
      have keeps : ∀ {kept : List α}, kept.Sublist (after size [] pages) →
          kept.Pairwise (fun earlier later => ∀ began began',
            Since size (pages ++ [last]) earlier began →
              Since size (pages ++ [last]) later began' → began < began') := by
        intro kept sublist
        apply (ordered.sublist sublist).imp_of_mem
        intro earlier later earlierHere laterHere before began began' since since'
        exact before began began' (since.of_append (since.before (sublist.subset earlierHere)))
          (since'.of_append (since'.before (sublist.subset laterHere)))
      have behind : last ∉ after size [] pages → ∀ {kept : List α},
          kept.Sublist (after size [] pages) →
          (kept ++ [last]).Pairwise (fun earlier later => ∀ began began',
            Since size (pages ++ [last]) earlier began →
              Since size (pages ++ [last]) later began' → began < began') := by
        intro absent kept sublist
        refine List.pairwise_append.mpr ⟨keeps sublist, List.pairwise_singleton _ _, ?_⟩
        intro earlier earlierHere later isLast began began' since since'
        rw [List.mem_singleton.mp isLast] at since'
        rw [since'.of_absent absent]
        exact since.before (sublist.subset earlierHere)
      constructor
      · rw [after_append]
        unfold access
        split
        · exact keeps (List.Sublist.refl _)
        · rename_i absent
          split
          · exact behind absent (List.Sublist.refl _)
          · exact behind absent (List.tail_sublist _)
      · intro page member
        by_cases before : page ∈ after size [] pages
        · exact old before member
        · have same : page = last := by
            apply Classical.byContradiction
            intro apart
            rw [after_append] at member
            exact before (mem_of_mem_access member apart)
          subst same
          exact ⟨_, since_last before⟩

end Queue

end Fifo

/-! ## The strategy -/

namespace RoundRobin

/-- The state is the frame to be given up next. -/
def strategy : Strategy Nat where
  start := 0
  hit := fun frame _ => frame
  load := fun frame _ => frame
  victim := fun size frame => (frame, (frame + 1) % size)

end RoundRobin

namespace Paging

variable {size : Nat} {queue : List Nat} {paging : Paging Nat} {page : Nat}

def order (size : Nat) (paging : Paging Nat) : List Nat :=
  if paging.loaded < size then List.range paging.loaded else around size paging.own

/-- The pages of the queue are in the frames, in order. -/
structure InOrder (size : Nat) (queue : List Nat) (paging : Paging Nat) : Prop where
  loaded_le : paging.loaded ≤ size
  own_lt : paging.own < size
  filling : paging.loaded < size → paging.own = 0
  pages : (paging.order size).map paging.page = queue.map some

theorem start_inOrder (positive : 0 < size) :
    (Paging.start RoundRobin.strategy).InOrder size [] where
  loaded_le := Nat.zero_le _
  own_lt := positive
  filling := fun _ => rfl
  pages := by
    have empty : (Paging.start RoundRobin.strategy).order size = [] := if_pos positive
    rw [empty]
    rfl

theorem InOrder.mem_order (inOrder : paging.InOrder size queue) {frame : Nat} :
    frame ∈ paging.order size ↔ frame < paging.loaded := by
  unfold order
  split
  · exact List.mem_range
  · rename_i full
    rw [mem_around inOrder.own_lt]
    have loaded_le := inOrder.loaded_le
    omega

theorem InOrder.length (inOrder : paging.InOrder size queue) : queue.length = paging.loaded := by
  have lengths := congrArg List.length inOrder.pages
  rw [List.length_map, List.length_map] at lengths
  rw [← lengths, order]
  split
  · exact List.length_range
  · rename_i full
    have loaded_le := inOrder.loaded_le
    rw [around, List.length_map, List.length_range]
    omega

theorem InOrder.mem_iff (inOrder : paging.InOrder size queue) :
    page ∈ queue ↔ ∃ frame < paging.loaded, paging.page frame = some page := by
  have inQueue : page ∈ queue ↔ some page ∈ queue.map some := by simp
  rw [inQueue, ← inOrder.pages, List.mem_map]
  constructor
  · intro here
    obtain ⟨frame, member, holds⟩ := here
    exact ⟨frame, inOrder.mem_order.mp member, holds⟩
  · intro here
    obtain ⟨frame, inUse, holds⟩ := here
    exact ⟨frame, inOrder.mem_order.mpr inUse, holds⟩

theorem InOrder.find_none (inOrder : paging.InOrder size queue) (absent : page ∉ queue) :
    paging.find page = none := by
  apply find_eq_none
  intro frame inUse holds
  exact absent (inOrder.mem_iff.mpr ⟨frame, inUse, holds⟩)

theorem InOrder.find_some (inOrder : paging.InOrder size queue) (member : page ∈ queue) :
    ∃ frame, paging.find page = some frame := by
  obtain ⟨frame, inUse, holds⟩ := inOrder.mem_iff.mp member
  cases found : paging.find page with
  | some other => exact ⟨other, rfl⟩
  | none =>
      have absent := List.find?_eq_none.mp found frame (List.mem_range.mpr inUse)
      exact absurd holds (by simpa using absent)

theorem InOrder.fill (inOrder : paging.InOrder size queue) (room : paging.loaded < size) :
    InOrder size (queue ++ [page])
      ⟨paging.put paging.loaded page, paging.loaded + 1, paging.own⟩ where
  loaded_le := room
  own_lt := inOrder.own_lt
  filling := fun _ => inOrder.filling room
  pages := by
    have frames : order size ⟨paging.put paging.loaded page, paging.loaded + 1, paging.own⟩ =
        List.range paging.loaded ++ [paging.loaded] := by
      rw [order, ← List.range_succ]
      split
      · rfl
      · rename_i full
        have all : size = paging.loaded + 1 := by
          simp only at full
          omega
        rw [inOrder.filling room, around_zero, all]
    have before : (List.range paging.loaded).map (paging.put paging.loaded page) =
        queue.map some := by
      rw [← inOrder.pages, order, if_pos room]
      apply List.map_congr_left
      intro frame member
      exact Function.update_of_ne (Nat.ne_of_lt (List.mem_range.mp member)) _ _
    have last : paging.put paging.loaded page paging.loaded = some page :=
      Function.update_self _ _ _
    rw [frames, List.map_append, List.map_append, before, List.map_singleton, List.map_singleton]
    exact congrArg (fun holds => queue.map some ++ [holds]) last

theorem InOrder.replace (inOrder : paging.InOrder size queue) (full : paging.loaded = size) :
    InOrder size (queue.tail ++ [page])
      ⟨paging.put paging.own page, paging.loaded, (paging.own + 1) % size⟩ where
  loaded_le := inOrder.loaded_le
  own_lt := Nat.mod_lt _ (Nat.zero_lt_of_lt inOrder.own_lt)
  filling := fun room => absurd full (Nat.ne_of_lt room)
  pages := by
    have notFilling : ¬ paging.loaded < size := by omega
    obtain ⟨rest, here, next⟩ := around_step inOrder.own_lt
    have distinct : (around size paging.own).Nodup := by
      rw [← (around_isRotated_zero inOrder.own_lt).nodup_iff, around_zero]
      exact List.nodup_range
    rw [here, List.nodup_cons] at distinct
    have pages := inOrder.pages
    rw [order, if_neg notFilling, here] at pages
    have tail : rest.map (paging.put paging.own page) = queue.tail.map some := by
      rw [List.map_tail, ← pages, List.map_cons, List.tail_cons]
      apply List.map_congr_left
      intro frame member
      apply Function.update_of_ne
      rintro rfl
      exact distinct.1 member
    have last : paging.put paging.own page paging.own = some page := Function.update_self _ _ _
    rw [order, if_neg notFilling, next, List.map_append, List.map_append, tail,
      List.map_singleton, List.map_singleton]
    exact congrArg (fun holds => queue.tail.map some ++ [holds]) last

theorem InOrder.access (inOrder : paging.InOrder size queue) :
    (paging.access RoundRobin.strategy size page).2.InOrder size (Fifo.access size queue page) ∧
      (paging.access RoundRobin.strategy size page).1.evicted = Fifo.evicts size queue page ∧
      (paging.access RoundRobin.strategy size page).2.own =
        (paging.own + (Fifo.evicts size queue page).toNat) % size := by
  have kept : paging.own = (paging.own + 0) % size := (Nat.mod_eq_of_lt inOrder.own_lt).symm
  by_cases member : page ∈ queue
  · obtain ⟨frame, found⟩ := inOrder.find_some member
    rw [access_of_hit found, Fifo.access_of_mem member, Fifo.evicts_of_mem member]
    exact ⟨inOrder, rfl, kept⟩
  · have missing := inOrder.find_none member
    rcases Nat.lt_or_ge paging.loaded size with room | full
    · have room' : queue.length < size := by rwa [inOrder.length]
      rw [access_of_fill missing room, Fifo.access_of_room member room',
        Fifo.evicts_of_room room']
      exact ⟨inOrder.fill room, rfl, kept⟩
    · have all : paging.loaded = size := Nat.le_antisymm inOrder.loaded_le full
      have full' : size ≤ queue.length := by rwa [inOrder.length]
      rw [access_of_full missing all, Fifo.access_of_full member full',
        Fifo.evicts_of_full member full']
      exact ⟨inOrder.replace all, rfl, rfl⟩

theorem InOrder.after (inOrder : paging.InOrder size queue) (pages : List Nat) :
    (paging.after RoundRobin.strategy size pages).InOrder size (Fifo.after size queue pages) := by
  induction pages generalizing paging queue with
  | nil => exact inOrder
  | cons page rest ih => exact ih inOrder.access.1

theorem InOrder.victim (inOrder : paging.InOrder size queue) {frame : Nat}
    (victim : (paging.access RoundRobin.strategy size page).1.victim = some frame) :
    frame < paging.loaded ∧ ∃ oldest rest, queue = oldest :: rest ∧
      paging.page frame = some oldest := by
  obtain ⟨-, evicted, -⟩ := @InOrder.access size queue paging page inOrder
  cases evicts : Fifo.evicts size queue page with
  | false =>
      rw [Placement.victim, evicted, evicts] at victim
      contradiction
  | true =>
      obtain ⟨absent, full⟩ : page ∉ queue ∧ size ≤ queue.length := by
        simpa [Fifo.evicts] using evicts
      have all : paging.loaded = size := by
        rw [inOrder.length] at full
        exact Nat.le_antisymm inOrder.loaded_le full
      rw [access_of_full (inOrder.find_none absent) all] at victim
      cases Option.some.inj victim
      obtain ⟨rest, here, -⟩ := around_step inOrder.own_lt
      have pages := inOrder.pages
      rw [order, if_neg (by omega), here] at pages
      cases queue with
      | nil => contradiction
      | cons oldest younger =>
          rw [List.map_cons, List.map_cons] at pages
          refine ⟨?_, oldest, younger, rfl, (List.cons.inj pages).1⟩
          rw [all]
          exact inOrder.own_lt

theorem InOrder.run (inOrder : paging.InOrder size queue) (pages : List Nat) :
    (paging.after RoundRobin.strategy size pages).own =
        (paging.own + Fifo.evictions size queue pages) % size ∧
      (victims (paging.run RoundRobin.strategy size pages)).length =
        Fifo.evictions size queue pages := by
  induction pages generalizing paging queue with
  | nil => exact ⟨(Nat.mod_eq_of_lt inOrder.own_lt).symm, rfl⟩
  | cons page rest ih =>
      obtain ⟨next, evicted, own⟩ := @InOrder.access size queue paging page inOrder
      obtain ⟨ownAfter, number⟩ := ih next
      constructor
      · rw [Paging.after, ownAfter, own, Nat.mod_add_mod, Fifo.evictions, Nat.add_assoc]
      · rw [Paging.run, victims_cons, List.length_append, number, Fifo.evictions, Placement.victim,
          evicted]
        cases Fifo.evicts size queue page with
        | true => rfl
        | false => rfl

end Paging

end MemSim
