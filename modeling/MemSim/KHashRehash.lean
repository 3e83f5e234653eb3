import MemSim.KHashPut

/-!
# Rehashing in place

The old and the new buckets share the arrays of keys and values: a cell belongs to
an entry that still has its old bucket, or to one that has its new bucket, never to
both.  An entry on its way is in neither.
-/

set_option autoImplicit false

namespace MemSim.KHash

variable {κ β : Type}

/-! ## Entries in shared cells -/

def markedEntry (bound : Nat) (mark : Nat → Bool) (keys : List (Option κ)) (vals : List (Option β))
    (i : Nat) : Option (κ × Option β) :=
  if i < bound ∧ mark i = true then (cellAt keys i).map fun key => (key, cellAt vals i) else none

section MarkedEntry
variable {bound i : Nat} {mark : Nat → Bool} {keys : List (Option κ)} {vals : List (Option β)}
  {key : κ} {val : Option β}

theorem markedEntry_put (inside : i < bound) (inKeys : i < keys.length)
    (inVals : i < vals.length) :
    markedEntry bound (Function.update mark i true) (keys.set i (some key)) (vals.set i val) =
      Function.update (markedEntry bound mark keys vals) i (some (key, val)) := by
  funext j
  rw [markedEntry, cellAt_set inKeys, cellAt_set inVals, Function.update_apply,
    Function.update_apply]
  by_cases same : j = i
  · simp [same, inside]
  · simp [same, markedEntry]

theorem markedEntry_take (inKeys : i < keys.length) (inVals : i < vals.length) :
    markedEntry bound (Function.update mark i false) (keys.set i (some key)) (vals.set i val) =
      Function.update (markedEntry bound mark keys vals) i none := by
  funext j
  rw [markedEntry, cellAt_set inKeys, cellAt_set inVals, Function.update_apply,
    Function.update_apply]
  by_cases same : j = i
  · simp [same]
  · simp [same, markedEntry]

theorem markedEntry_congr {mark' : Nat → Bool} (same : ∀ i < bound, mark i = mark' i) :
    markedEntry bound mark keys vals = markedEntry bound mark' keys vals := by
  funext j
  by_cases inside : j < bound
  · rw [markedEntry, markedEntry, same j inside]
  · rw [markedEntry, markedEntry, if_neg (fun here => inside here.1),
      if_neg (fun here => inside here.1)]

theorem markedEntry_unmark :
    markedEntry bound (Function.update mark i false) keys vals =
      Function.update (markedEntry bound mark keys vals) i none := by
  funext j
  rw [markedEntry, Function.update_apply, Function.update_apply]
  by_cases same : j = i
  · simp [same]
  · simp [same, markedEntry]

theorem markedEntry_eq_some : markedEntry bound mark keys vals i = some (key, val) ↔
    i < bound ∧ mark i = true ∧ cellAt keys i = some key ∧ cellAt vals i = val := by
  unfold markedEntry
  split
  · rename_i here
    simp only [Option.map_eq_some_iff, Prod.mk.injEq, here, true_and]
    constructor
    · rintro ⟨_, there, rfl, rfl⟩
      exact ⟨there, rfl⟩
    · rintro ⟨there, rfl⟩
      exact ⟨key, there, rfl, rfl⟩
  · rename_i dead
    constructor
    · intro none'
      contradiction
    · rintro ⟨inside, isMarked, -⟩
      exact absurd ⟨inside, isMarked⟩ dead

end MarkedEntry

/-! ## The invariant -/

/-- Where an entry is while the table is rehashed. -/
inductive Place where
  | old (bucket : Nat)
  | new (bucket : Nat)
  | hand
  deriving DecidableEq

def placed (old new : Nat → Option (κ × Option β)) (hand : Option (κ × Option β)) :
    Place → Option (κ × Option β)
  | .old bucket => old bucket
  | .new bucket => new bucket
  | .hand => hand

section Placed
variable {old new : Nat → Option (κ × Option β)} {hand entry : Option (κ × Option β)}
  {bucket : Nat}

theorem placed_put : placed old (Function.update new bucket entry) none =
    Function.update (Function.update (placed old new hand) .hand none) (.new bucket) entry := by
  funext place
  cases place with
  | old index => simp [placed]
  | new index => simp [placed, Function.update_apply]
  | hand => simp [placed]

theorem placed_take : placed (Function.update old bucket none) new entry =
    Function.update (Function.update (placed old new none) (.old bucket) none) .hand entry := by
  funext place
  cases place with
  | old index => simp [placed, Function.update_apply]
  | new index => simp [placed]
  | hand => simp [placed]

/-- The entry in hand is put into a new bucket, and the entry of the old bucket is
taken in hand. -/
theorem placed_swap {key : κ} {val : Option β}
    (distinct : Distinct (placed old new (some (key, val)))) (free : new bucket = none) :
    Distinct (placed (Function.update old bucket none)
        (Function.update new bucket (some (key, val))) (old bucket)) ∧
      ∀ key' value', Stores (placed (Function.update old bucket none)
          (Function.update new bucket (some (key, val))) (old bucket)) key' value' ↔
        Stores (placed old new (some (key, val))) key' value' := by
  have inHand : placed old new (some (key, val)) .hand = some (key, val) := rfl
  have atNew : placed old new (some (key, val)) (.new bucket) = none := free
  have dropped : Distinct (placed old (Function.update new bucket (some (key, val))) none) := by
    rw [@placed_put _ _ old new (some (key, val))]
    exact distinct.move inHand
  have same (key' : κ) (value' : Option β) :
      Stores (placed old (Function.update new bucket (some (key, val))) none) key' value' ↔
        Stores (placed old new (some (key, val))) key' value' := by
    rw [@placed_put _ _ old new (some (key, val))]
    exact stores_move distinct inHand atNew
  cases here : old bucket with
  | none =>
      have untouched : Function.update old bucket none = old := by
        rw [← here, Function.update_eq_self]
      rw [untouched]
      exact ⟨dropped, same⟩
  | some kicked =>
      have atOld : placed old (Function.update new bucket (some (key, val))) none (.old bucket) =
          some (kicked.1, kicked.2) := here
      rw [placed_take]
      refine ⟨dropped.move atOld, fun key' value' => ?_⟩
      rw [← same]
      exact stores_move dropped atOld rfl

end Placed

def inHand (hand : Option (κ × Option β)) : Nat := if hand.isSome then 1 else 0

namespace Rehash

def newMark (t : Rehash κ β) (i : Nat) : Bool := !flagEmpty t.newFlags i

def oldEntry (nBuckets : Nat) (t : Rehash κ β) : Nat → Option (κ × Option β) :=
  markedEntry nBuckets (flagLive t.flags) t.keys t.vals

def newEntry (newN : Nat) (t : Rehash κ β) : Nat → Option (κ × Option β) :=
  markedEntry newN t.newMark t.keys t.vals

def newBuckets (newN : Nat) (t : Rehash κ β) : Buckets κ (Option β) :=
  ⟨fun i => decide (i < newN) && t.newMark i, t.newEntry newN⟩

end Rehash

/-- A table in the middle of being rehashed, with an entry in hand or none.  Of the
`total` entries, those in new buckets are where their keys are searched for. -/
structure Moving (hash : κ → Nat) (nBuckets newN total : Nat) (stored : κ → Option β → Prop)
    (t : Rehash κ β) (hand : Option (κ × Option β)) : Prop where
  rounded : ∃ bits, 2 ≤ bits ∧ bits ≤ 31 ∧ newN = 2 ^ bits
  flags : nBuckets ≤ 16 * t.flags.length
  newFlags : t.newFlags.length = acFsize newN
  keys : nBuckets ≤ t.keys.length ∧ newN ≤ t.keys.length
  vals : nBuckets ≤ t.vals.length ∧ newN ≤ t.vals.length
  written : ∀ i < nBuckets, flagLive t.flags i = true → (cellAt t.keys i).isSome = true
  newWritten : ∀ i < newN, t.newMark i = true → (cellAt t.keys i).isSome = true
  apart : ∀ i < nBuckets, i < newN → flagLive t.flags i = true → t.newMark i = false
  noDel : ∀ i < newN, flagDel t.newFlags i = false
  sound : (t.newBuckets newN).Sound newN (path newN hash)
  distinct : Distinct (placed (t.oldEntry nBuckets) (t.newEntry newN) hand)
  stores : ∀ key value,
    Stores (placed (t.oldEntry nBuckets) (t.newEntry newN) hand) key value ↔ stored key value
  count : marked nBuckets (flagLive t.flags) + marked newN t.newMark + inHand hand = total
  fits : total < newN

/-! ## The kick-out process -/

theorem ok_bind {α γ : Type} (value : α) (next : α → Except HashFault γ) :
    (Except.ok value >>= next) = next value := rfl

section Step
variable {hash : κ → Nat} {nBuckets newN total : Nat} {stored : κ → Option β → Prop}
  {t : Rehash κ β} {key : κ} {val : Option β} {newFlags : List (BitVec 32)}

theorem emptyFrom_reaches {bits start target : Nat} (isPow : newN = 2 ^ bits) (most : bits ≤ 31)
    (length : newN ≤ 16 * newFlags.length) (within : target < newN)
    (empty : flagEmpty newFlags (probe newN start target) = true)
    (before : ∀ earlier < target, flagEmpty newFlags (probe newN start earlier) = false)
    {fuel step : Nat} (le : step ≤ target) (enough : target < step + fuel) :
    emptyFrom newFlags (newN - 1) fuel step (probe newN start step) =
      .ok (probe newN start target) := by
  induction fuel generalizing step with
  | zero => omega
  | succ fuel ih =>
      have bound : probe newN start step < newN := probe_lt (by omega) step
      have small : newN ≤ 2 ^ 31 := by
        rw [isPow]
        exact Nat.pow_le_pow_right (by decide) most
      rw [emptyFrom, acIsempty_ok (by omega), ok_bind]
      rcases Nat.lt_or_eq_of_le le with early | rfl
      · have next : nextBucket (newN - 1) (probe newN start step) (step + 1) =
            probe newN start (step + 1) := by
          rw [isPow, nextBucket_eq (by omega), ← isPow, probe_succ]
        rw [before step early, if_neg Bool.false_ne_true, nextStep_eq (by omega)]
        simp only [next]
        exact ih early (by omega)
      · rw [empty, if_pos rfl]
        rfl

theorem Moving.path_lt {hand : Option (κ × Option β)}
    (moving : Moving hash nBuckets newN total stored t hand) {key : κ} (step : Nat) :
    path newN hash key step < newN := by
  obtain ⟨bits, -, -, isPow⟩ := moving.rounded
  exact probe_lt (by rw [isPow]; exact Nat.two_pow_pos bits) step

theorem Moving.emptyFrom_ok {hand : Option (κ × Option β)}
    (moving : Moving hash nBuckets newN total stored t hand)
    (room : marked newN t.newMark < newN) (key : κ) :
    ∃ step, emptyFrom t.newFlags (newN - 1) (newN - 1 + 1) 0 (hash key &&& newN - 1) =
        .ok (path newN hash key step) ∧
      t.newMark (path newN hash key step) = false ∧
      ∀ earlier < step, t.newMark (path newN hash key earlier) = true := by
  obtain ⟨bits, enough, most, isPow⟩ := moving.rounded
  have positive : 0 < newN := Nat.zero_lt_of_lt room
  have length : newN ≤ 16 * t.newFlags.length := by
    rw [moving.newFlags, isPow]
    exact length_le_fsize enough
  obtain ⟨bucket, bound, clear⟩ := exists_clear room
  obtain ⟨step, within, rfl⟩ := @exists_probe newN (hash key) bits isPow bucket bound
  rw [Rehash.newMark, Bool.not_eq_false'] at clear
  have found : ∃ step, flagEmpty t.newFlags (probe newN (hash key) step) = true := ⟨step, clear⟩
  have first : Nat.find found ≤ step := Nat.find_min' found clear
  have before : ∀ earlier < Nat.find found,
      flagEmpty t.newFlags (probe newN (hash key) earlier) = false := by
    intro earlier early
    exact Bool.eq_false_iff.mpr (Nat.find_min found early)
  have start : hash key &&& newN - 1 = probe newN (hash key) 0 := by
    rw [probe_zero, isPow, Nat.and_two_pow_sub_one_eq_mod]
  refine ⟨Nat.find found, ?_, ?_, fun earlier early => ?_⟩
  · rw [start]
    exact emptyFrom_reaches isPow most length (by omega) (Nat.find_spec found) before
      (Nat.zero_le _) (by omega)
  · rw [Rehash.newMark, path, Nat.find_spec found]
    rfl
  · rw [Rehash.newMark, path, before earlier early]
    rfl

theorem Moving.sound_put {i step : Nat}
    (moving : Moving hash nBuckets newN total stored t (some (key, val)))
    (reached : path newN hash key step = i)
    (before : ∀ earlier < step, t.newMark (path newN hash key earlier) = true) :
    ((t.newBuckets newN).put i key val).Sound newN (path newN hash) := by
  have lacks : Lacks (t.newEntry newN) key := by
    intro j value there
    have distinct := moving.distinct
    have clash : Place.new j = Place.hand := @distinct _ _ key _ _ there rfl
    contradiction
  rw [← reached]
  refine moving.sound.put (moving.path_lt step) (fun earlier early => ?_) lacks
  change (decide _ && _) = true
  rw [before earlier early, decide_eq_true (moving.path_lt earlier)]
  rfl

theorem Moving.marked_take {hand : Option (κ × Option β)}
    (moving : Moving hash nBuckets newN total stored t hand) (i : Nat) :
    marked nBuckets (Function.update (flagLive t.flags) i false) +
      inHand (t.oldEntry nBuckets i) = marked nBuckets (flagLive t.flags) := by
  by_cases here : i < nBuckets ∧ flagLive t.flags i = true
  · obtain ⟨written, inCell⟩ := Option.isSome_iff_exists.mp (moving.written i here.1 here.2)
    have some' : t.oldEntry nBuckets i = some (written, cellAt t.vals i) :=
      markedEntry_eq_some.mpr ⟨here.1, here.2, inCell, rfl⟩
    rw [some']
    exact marked_clear here.1 here.2
  · have none' : t.oldEntry nBuckets i = none := if_neg here
    rw [none']
    exact (marked_congr (update_unmarked here)).symm

/-- The entry in hand is put into the new bucket that was found, and the one it kicks
out is in hand next. -/
theorem Moving.place {flags : List (BitVec 32)} {i step : Nat}
    (moving : Moving hash nBuckets newN total stored t (some (key, val)))
    (reached : path newN hash key step = i) (free : t.newMark i = false)
    (before : ∀ earlier < step, t.newMark (path newN hash key earlier) = true)
    (length : flags.length = t.flags.length)
    (live : ∀ j < nBuckets, flagLive flags j = Function.update (flagLive t.flags) i false j)
    (changed : FlagChanged t.newFlags newFlags i false (flagDel t.newFlags i)) :
    Moving hash nBuckets newN total stored
      ⟨flags, newFlags, t.keys.set i (some key), t.vals.set i val⟩ (t.oldEntry nBuckets i) := by
  have bound : i < newN := by
    rw [← reached]
    exact moving.path_lt step
  have inKeys := Nat.lt_of_lt_of_le bound moving.keys.2
  have inVals := Nat.lt_of_lt_of_le bound moving.vals.2
  let after : Rehash κ β := ⟨flags, newFlags, t.keys.set i (some key), t.vals.set i val⟩
  have marks : after.newMark = Function.update t.newMark i true := by
    funext j
    rw [Rehash.newMark, changed.empty, Function.update_apply, Function.update_apply]
    split <;> rfl
  have oldEntries : after.oldEntry nBuckets = Function.update (t.oldEntry nBuckets) i none :=
    (markedEntry_congr live).trans (markedEntry_take inKeys inVals)
  have newEntries : after.newEntry newN =
      Function.update (t.newEntry newN) i (some (key, val)) := by
    rw [Rehash.newEntry, marks]
    exact markedEntry_put bound inKeys inVals
  have freeEntry : t.newEntry newN i = none := by
    rw [Rehash.newEntry, markedEntry, free, if_neg (by simp)]
  obtain ⟨distinct, same⟩ := placed_swap moving.distinct freeEntry
  have stillLive : ∀ j < nBuckets, flagLive flags j = true →
      j ≠ i ∧ flagLive t.flags j = true := by
    intro j inside isLive
    rw [live j inside] at isLive
    exact update_false_eq_true.mp isLive
  refine
    { rounded := moving.rounded
      flags := by rw [length]; exact moving.flags
      newFlags := changed.length.trans moving.newFlags
      keys := by rw [List.length_set]; exact moving.keys
      vals := by rw [List.length_set]; exact moving.vals
      written := ?_
      newWritten := ?_
      apart := ?_
      noDel := ?_
      sound := ?_
      distinct := by rw [oldEntries, newEntries]; exact distinct
      stores := ?_
      count := ?_
      fits := moving.fits }
  · intro j inside isLive
    obtain ⟨apart, wasLive⟩ := stillLive j inside isLive
    rw [cellAt_set inKeys, if_neg apart]
    exact moving.written j inside wasLive
  · intro j inside isMarked
    rw [marks, Function.update_apply] at isMarked
    rw [cellAt_set inKeys]
    split
    · rfl
    · rename_i apart
      rw [if_neg apart] at isMarked
      exact moving.newWritten j inside isMarked
  · intro j inside insideNew isLive
    obtain ⟨apart, wasLive⟩ := stillLive j inside isLive
    rw [marks, Function.update_of_ne apart]
    exact moving.apart j inside insideNew wasLive
  · intro j inside
    rw [changed.del, Function.update_eq_self]
    exact moving.noDel j inside
  · have same : after.newBuckets newN = (t.newBuckets newN).put i key val := by
      rw [Rehash.newBuckets, newEntries, marks]
      have useds : (fun j => decide (j < newN) && Function.update t.newMark i true j) =
          Function.update (fun j => decide (j < newN) && t.newMark j) i true := by
        funext j
        rw [Function.update_apply, Function.update_apply]
        by_cases here : j = i
        · simp [here, bound]
        · simp [here]
      rw [useds]
      rfl
    rw [same]
    exact moving.sound_put reached before
  · intro key' value'
    rw [oldEntries, newEntries, same, moving.stores]
  · have grown : marked newN after.newMark = marked newN t.newMark + 1 := by
      rw [marks, marked_set bound free]
    have shrunk := moving.marked_take i
    rw [← marked_congr live] at shrunk
    have count := moving.count
    change marked nBuckets (flagLive flags) + marked newN after.newMark + _ = total
    rw [grown]
    change _ + _ + 1 = total at count
    omega

/-- The kick-out process comes to an end, each time with one entry less in an old
bucket. -/
theorem Moving.kickOut_ok {fuel : Nat}
    (moving : Moving hash nBuckets newN total stored t (some (key, val)))
    (enough : marked nBuckets (flagLive t.flags) < fuel) :
    ∃ t', kickOut hash nBuckets (newN - 1) fuel t key val = .ok t' ∧
      Moving hash nBuckets newN total stored t' none ∧
      ∀ i < nBuckets, flagLive t'.flags i = true → flagLive t.flags i = true := by
  induction fuel generalizing t key val with
  | zero => exact absurd enough (Nat.not_lt_zero _)
  | succ fuel ih =>
      have room : marked newN t.newMark < newN := by
        have count := moving.count
        have fits := moving.fits
        change _ + _ + 1 = total at count
        omega
      obtain ⟨step, found, free, before⟩ := moving.emptyFrom_ok room key
      have bound : path newN hash key step < newN := moving.path_lt step
      generalize reached : path newN hash key step = i at found free bound
      have inNew : i < 16 * t.newFlags.length := by
        obtain ⟨bits, large, -, isPow⟩ := moving.rounded
        have fits := length_le_fsize large
        rw [← isPow, ← moving.newFlags] at fits
        omega
      have inKeys := Nat.lt_of_lt_of_le bound moving.keys.2
      have inVals := Nat.lt_of_lt_of_le bound moving.vals.2
      obtain ⟨newFlags, marking, changed⟩ := acSetIsemptyFalse_ok inNew
      have kicks : (if i < nBuckets then return !(← acIseither t.flags i) else return false :
          Except HashFault Bool) = .ok (decide (i < nBuckets) && flagLive t.flags i) := by
        by_cases inside : i < nBuckets
        · have inFlags : i < 16 * t.flags.length := Nat.lt_of_lt_of_le inside moving.flags
          rw [if_pos inside, acIseither_ok inFlags, ok_bind, Bool.not_not,
            decide_eq_true inside, Bool.true_and]
          rfl
        · rw [if_neg inside, decide_eq_false inside, Bool.false_and]
          rfl
      rw [kickOut, found, ok_bind, marking, ok_bind, kicks, ok_bind]
      by_cases kicked : (decide (i < nBuckets) && flagLive t.flags i) = true
      · obtain ⟨inside, live⟩ := Bool.and_eq_true_iff.mp kicked
        have inside := of_decide_eq_true inside
        have inFlags : i < 16 * t.flags.length := Nat.lt_of_lt_of_le inside moving.flags
        obtain ⟨key', there⟩ := Option.isSome_iff_exists.mp (moving.written i inside live)
        obtain ⟨flags, deleting, deleted⟩ := acSetIsdelTrue_ok inFlags
        have dead := deleted.live
        rw [Bool.not_true, Bool.and_false] at dead
        have next := moving.place reached free before deleted.length
          (fun j _ => congrFun dead j) changed
        have inHand : t.oldEntry nBuckets i = some (key', cellAt t.vals i) :=
          markedEntry_eq_some.mpr ⟨inside, live, there, rfl⟩
        rw [inHand] at next
        have fewer : marked nBuckets (flagLive flags) < fuel := by
          have one := marked_clear inside live
          rw [← dead] at one
          omega
        obtain ⟨t', run, moved, stillLive⟩ := ih next fewer
        refine ⟨t', ?_, moved, fun j inside isLive => ?_⟩
        · rw [if_pos kicked, readKey_ok there, ok_bind, readCell_ok inVals, ok_bind,
            writeCell_ok inKeys, ok_bind, writeCell_ok inVals, ok_bind, deleting, ok_bind]
          exact run
        · have wasLive := stillLive j inside isLive
          change flagLive flags j = true at wasLive
          rw [dead] at wasLive
          exact (update_false_eq_true.mp wasLive).2
      · have unmarked : ¬ (i < nBuckets ∧ flagLive t.flags i = true) := by
          refine fun here => kicked ?_
          rw [here.2, decide_eq_true here.1]
          rfl
        have next := moving.place reached free before rfl (update_unmarked unmarked) changed
        have handEmpty : t.oldEntry nBuckets i = none := if_neg unmarked
        rw [handEmpty] at next
        refine ⟨_, ?_, next, fun j _ isLive => isLive⟩
        rw [if_neg kicked, writeCell_ok inKeys, ok_bind, writeCell_ok inVals, ok_bind]
        rfl

/-! ## All buckets -/

theorem Moving.lift {flags : List (BitVec 32)} {j : Nat}
    (moving : Moving hash nBuckets newN total stored t none) (inside : j < nBuckets)
    (live : flagLive t.flags j = true) (here : cellAt t.keys j = some key)
    (changed : FlagChanged t.flags flags j (flagEmpty t.flags j) true) :
    Moving hash nBuckets newN total stored { t with flags := flags }
      (some (key, cellAt t.vals j)) := by
  have dead := changed.live
  rw [Bool.not_true, Bool.and_false] at dead
  let after : Rehash κ β := { t with flags := flags }
  have oldEntries : after.oldEntry nBuckets = Function.update (t.oldEntry nBuckets) j none := by
    rw [Rehash.oldEntry, dead]
    exact markedEntry_unmark
  have inOld : placed (t.oldEntry nBuckets) (t.newEntry newN) none (.old j) =
      some (key, cellAt t.vals j) := markedEntry_eq_some.mpr ⟨inside, live, here, rfl⟩
  have entries : placed (after.oldEntry nBuckets) (after.newEntry newN)
      (some (key, cellAt t.vals j)) = Function.update (Function.update
        (placed (t.oldEntry nBuckets) (t.newEntry newN) none) (.old j) none) .hand
          (some (key, cellAt t.vals j)) := by
    rw [oldEntries]
    exact placed_take
  have stillLive : ∀ i, flagLive flags i = true → flagLive t.flags i = true := by
    intro i isLive
    rw [dead] at isLive
    exact (update_false_eq_true.mp isLive).2
  refine
    { rounded := moving.rounded
      flags := by rw [changed.length]; exact moving.flags
      newFlags := moving.newFlags
      keys := moving.keys
      vals := moving.vals
      written := fun i inside isLive => moving.written i inside (stillLive i isLive)
      newWritten := moving.newWritten
      apart := fun i inside insideNew isLive =>
        moving.apart i inside insideNew (stillLive i isLive)
      noDel := moving.noDel
      sound := moving.sound
      distinct := by rw [entries]; exact moving.distinct.move inOld
      stores := ?_
      count := ?_
      fits := moving.fits }
  · intro key' value'
    rw [entries, stores_move moving.distinct inOld rfl, moving.stores]
  · have one := marked_clear inside live
    have count := moving.count
    change marked nBuckets (flagLive flags) + marked newN t.newMark + 1 = total
    change _ + _ + 0 = total at count
    rw [dead]
    omega

theorem Moving.rehashBucket_ok {j : Nat}
    (moving : Moving hash nBuckets newN total stored t none) (inside : j < nBuckets) :
    ∃ t', rehashBucket hash nBuckets (newN - 1) t j = .ok t' ∧
      Moving hash nBuckets newN total stored t' none ∧ flagLive t'.flags j = false ∧
      ∀ i < nBuckets, flagLive t'.flags i = true → flagLive t.flags i = true := by
  have inFlags : j < 16 * t.flags.length := Nat.lt_of_lt_of_le inside moving.flags
  rw [rehashBucket, acIseither_ok inFlags, ok_bind]
  cases live : flagLive t.flags j with
  | false => exact ⟨t, rfl, moving, live, fun _ _ isLive => isLive⟩
  | true =>
      obtain ⟨key, here⟩ := Option.isSome_iff_exists.mp (moving.written j inside live)
      obtain ⟨flags, deleting, deleted⟩ := acSetIsdelTrue_ok inFlags
      have dead := deleted.live
      rw [Bool.not_true, Bool.and_false] at dead
      have enough : marked nBuckets (flagLive flags) < nBuckets + 1 :=
        Nat.lt_succ_of_le marked_le
      obtain ⟨t', run, moved, stillLive⟩ := (moving.lift inside live here deleted).kickOut_ok enough
      have shrinks : ∀ i < nBuckets, flagLive t'.flags i = true →
          i ≠ j ∧ flagLive t.flags i = true := by
        intro i inside isLive
        have wasLive := stillLive i inside isLive
        change flagLive flags i = true at wasLive
        rw [dead] at wasLive
        exact update_false_eq_true.mp wasLive
      refine ⟨t', ?_, moved, ?_, fun i inside isLive => (shrinks i inside isLive).2⟩
      · rw [Bool.not_true, if_neg Bool.false_ne_true, readKey_ok here, ok_bind,
          readCell_ok (Nat.lt_of_lt_of_le inside moving.vals.1), ok_bind, deleting, ok_bind]
        exact run
      · by_contra isLive
        exact (shrinks j inside (Bool.eq_true_of_not_eq_false isLive)).1 rfl

theorem Moving.rehash_buckets (buckets : List Nat)
    (moving : Moving hash nBuckets newN total stored t none)
    (inside : ∀ j ∈ buckets, j < nBuckets) :
    ∃ t', buckets.foldlM (rehashBucket hash nBuckets (newN - 1)) t = .ok t' ∧
      Moving hash nBuckets newN total stored t' none ∧
      ∀ i < nBuckets, flagLive t'.flags i = true → i ∉ buckets ∧ flagLive t.flags i = true := by
  induction buckets generalizing t with
  | nil => exact ⟨t, rfl, moving, fun _ _ isLive => ⟨List.not_mem_nil, isLive⟩⟩
  | cons j rest ih =>
      obtain ⟨middle, run, moved, dead, stillLive⟩ := moving.rehashBucket_ok (inside j (.head _))
      obtain ⟨t', runRest, done, shrinks⟩ :=
        ih moved fun other member => inside other (.tail _ member)
      refine ⟨t', ?_, done, fun i bound isLive => ?_⟩
      · rw [List.foldlM_cons, run]
        exact runRest
      · obtain ⟨notRest, wasLive⟩ := shrinks i bound isLive
        refine ⟨?_, stillLive i bound wasLive⟩
        rw [List.mem_cons]
        rintro (rfl | member)
        · rw [dead] at wasLive
          contradiction
        · exact notRest member

theorem Moving.rehash_ok (moving : Moving hash nBuckets newN total stored t none) :
    ∃ t', rehash hash nBuckets (newN - 1) t = .ok t' ∧
      Moving hash nBuckets newN total stored t' none ∧
      ∀ i < nBuckets, flagLive t'.flags i = false := by
  obtain ⟨t', run, moved, shrinks⟩ := moving.rehash_buckets (List.range nBuckets)
    fun j member => List.mem_range.mp member
  refine ⟨t', run, moved, fun i inside => Bool.eq_false_iff.mpr fun isLive => ?_⟩
  exact (shrinks i inside isLive).1 (List.mem_range.mpr inside)

end Step

end MemSim.KHash