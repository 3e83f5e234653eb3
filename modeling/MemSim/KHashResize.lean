import MemSim.KHashRehash

/-!
# Resizing a hash table, and `kh_put` as a whole

`kh_resize` keeps all entries, whether its requests for memory are granted or not.
`kh_put` resizes a table that is too full before it searches, so that it always
finds a bucket, up to the largest table there can be.
-/

set_option autoImplicit false

namespace MemSim.KHash

variable {κ β : Type} {hash : κ → Nat} {memory : HashMemory} {h : KHash κ β}

/-! ## Sizes -/

theorem kroundup32_mod (x : Nat) : kroundup32 (x % 2 ^ 32) = kroundup32 x := by
  have same : BitVec.ofNat 32 (x % 2 ^ 32) = BitVec.ofNat 32 x :=
    BitVec.eq_of_toNat_eq (by rw [BitVec.toNat_ofNat, BitVec.toNat_ofNat, Nat.mod_mod])
  rw [kroundup32, same]
  rfl

theorem roundedBuckets_pow (requested : Nat) :
    ∃ bits, 2 ≤ bits ∧ bits ≤ 31 ∧ roundedBuckets requested = 2 ^ bits := by
  unfold roundedBuckets
  split
  · exact ⟨2, by decide, by decide, rfl⟩
  · rename_i large
    rw [← kroundup32_mod] at large ⊢
    have bound : requested % 2 ^ 32 < 2 ^ 32 := Nat.mod_lt _ (by decide)
    generalize requested % 2 ^ 32 = x at *
    by_cases positive : 0 < x
    · by_cases small : x ≤ 2 ^ 31
      · obtain ⟨bits, most, isPow, -, -⟩ := kroundup32_spec positive small
        refine ⟨bits, ?_, most, isPow⟩
        by_contra few
        have less : 2 ^ bits ≤ 2 ^ 1 := Nat.pow_le_pow_right (by decide) (by omega)
        omega
      · rw [kroundup32_eq_zero (by omega) bound] at large
        omega
    · have zero : x = 0 := by omega
      subst zero
      exact absurd (by decide) large

/-- The number of buckets is kept when one less is asked for, and doubled when one
more is asked for, if that fits. -/
theorem roundedBuckets_near {bits : Nat} (enough : 2 ≤ bits) :
    (bits ≤ 31 → roundedBuckets (2 ^ bits - 1) = 2 ^ bits) ∧
      (bits ≤ 30 → roundedBuckets (2 ^ bits + 1) = 2 ^ (bits + 1)) ∧
      (bits = 31 → roundedBuckets (2 ^ bits + 1) = 4) := by
  have four : 2 ^ 2 ≤ 2 ^ bits := Nat.pow_le_pow_right (by decide) enough
  have between {x n m : Nat} (lower : 2 ^ n < 2 * x) (le : x ≤ 2 ^ n) (above : 2 ^ m < 2 * x)
      (le' : x ≤ 2 ^ m) : n = m := by
    have first : n < m + 1 := (Nat.pow_lt_pow_iff_right (a := 2) (by decide)).mp (by
      rw [Nat.pow_succ]
      omega)
    have second : m < n + 1 := (Nat.pow_lt_pow_iff_right (a := 2) (by decide)).mp (by
      rw [Nat.pow_succ]
      omega)
    omega
  have rounds {x n : Nat} (small : x ≤ 2 ^ 31) (le : x ≤ 2 ^ n) (above : 2 ^ n < 2 * x)
      (large : 4 ≤ 2 ^ n) : roundedBuckets x = 2 ^ n := by
    obtain ⟨m, -, isPow, le', above'⟩ := kroundup32_spec (x := x) (by omega) small
    have same := between above le above' le'
    rw [roundedBuckets, isPow, ← same, if_neg (by omega)]
  refine ⟨fun most => ?_, fun most => ?_, fun last => ?_⟩
  · have fits : 2 ^ bits ≤ 2 ^ 31 := Nat.pow_le_pow_right (by decide) most
    exact rounds (by omega) (by omega) (by omega) (by omega)
  · have fits : 2 ^ bits ≤ 2 ^ 30 := Nat.pow_le_pow_right (by decide) most
    have double : 2 ^ (bits + 1) = 2 * 2 ^ bits := Nat.pow_succ'
    exact rounds (by omega) (by omega) (by omega) (by omega)
  · subst last
    rw [roundedBuckets, kroundup32_eq_zero (by decide) (by decide)]
    rfl

/-! ## Rehashing a table -/

section Placed
variable {old new : Nat → Option (κ × Option β)}

theorem stores_placed_old (none' : ∀ i, new i = none) {key : κ} {value : Option β} :
    Stores (placed old new none) key value ↔ Stores old key value := by
  constructor
  · rintro ⟨place, here⟩
    cases place with
    | old bucket => exact ⟨bucket, here⟩
    | new bucket =>
        change new bucket = _ at here
        rw [none'] at here
        contradiction
    | hand => contradiction
  · rintro ⟨bucket, here⟩
    exact ⟨.old bucket, here⟩

theorem stores_placed_new (none' : ∀ i, old i = none) {key : κ} {value : Option β} :
    Stores (placed old new none) key value ↔ Stores new key value := by
  constructor
  · rintro ⟨place, here⟩
    cases place with
    | old bucket =>
        change old bucket = _ at here
        rw [none'] at here
        contradiction
    | new bucket => exact ⟨bucket, here⟩
    | hand => contradiction
  · rintro ⟨bucket, here⟩
    exact ⟨.new bucket, here⟩

theorem distinct_placed_old (none' : ∀ i, new i = none) (distinct : Distinct old) :
    Distinct (placed old new none) := by
  intro place other key value value' here there
  cases place with
  | old bucket =>
      cases other with
      | old bucket' => rw [distinct here there]
      | new bucket' =>
          change new bucket' = _ at there
          rw [none'] at there
          contradiction
      | hand => contradiction
  | new bucket =>
      change new bucket = _ at here
      rw [none'] at here
      contradiction
  | hand => contradiction

end Placed

/-- The table holds the same entries as before. -/
structure SameContents (hash : κ → Nat) (h h' : KHash κ β) : Prop where
  valid : h'.Valid hash
  size : h'.size = h.size
  stores : ∀ key value, Stores h'.entry key value ↔ Stores h.entry key value

theorem Valid.sameContents (valid : h.Valid hash) : SameContents hash h h :=
  ⟨valid, rfl, fun _ _ => Iff.rfl⟩

theorem Valid.sameContents_cells (valid : h.Valid hash) {keys : List (Option κ)}
    {vals : List (Option β)} (inKeys : h.nBuckets ≤ keys.length) (inVals : h.nBuckets ≤ vals.length)
    (sameKeys : ∀ i < h.nBuckets, cellAt keys i = cellAt h.keys i)
    (sameVals : ∀ i < h.nBuckets, cellAt vals i = cellAt h.vals i) :
    SameContents hash h { h with keys := keys, vals := vals } := by
  have entries : ({ h with keys := keys, vals := vals } : KHash κ β).entry = h.entry := by
    funext j
    unfold entry
    change (if j < h.nBuckets ∧ flagLive h.flags j = true then _ else none) = _
    split
    · rename_i here
      rw [sameKeys j here.1, sameVals j here.1]
    · rfl
  refine ⟨⟨?_, valid.upper, valid.sizeEq, valid.occupiedEq, ?_, valid.load⟩, rfl, ?_⟩
  · exact
      { rounded := valid.shaped.rounded
        flags := valid.shaped.flags
        keys := inKeys
        vals := inVals
        written := fun i inside live => by
          rw [sameKeys i inside]
          exact valid.shaped.written i inside live }
  · rw [buckets, entries]
    exact valid.sound
  · rw [entries]
    exact fun _ _ => Iff.rfl

theorem Valid.moving (valid : h.Valid hash) {newN : Nat}
    (rounded : ∃ bits, 2 ≤ bits ∧ bits ≤ 31 ∧ newN = 2 ^ bits) (fits : h.size < newN)
    {keys : List (Option κ)} {vals : List (Option β)}
    (inKeys : h.nBuckets ≤ keys.length ∧ newN ≤ keys.length)
    (inVals : h.nBuckets ≤ vals.length ∧ newN ≤ vals.length)
    (sameKeys : ∀ i < h.nBuckets, cellAt keys i = cellAt h.keys i)
    (sameVals : ∀ i < h.nBuckets, cellAt vals i = cellAt h.vals i) :
    Moving hash h.nBuckets newN h.size (Stores h.entry)
      ⟨h.flags, List.replicate (acFsize newN) emptyFlags, keys, vals⟩ none := by
  obtain ⟨bits, enough, most, isPow⟩ := rounded
  let t : Rehash κ β := ⟨h.flags, List.replicate (acFsize newN) emptyFlags, keys, vals⟩
  have fresh : ∀ i < newN, t.newMark i = false ∧ flagDel t.newFlags i = false := by
    intro i inside
    have covered := length_le_fsize enough
    rw [← isPow] at covered
    obtain ⟨empty, del⟩ := @flagEmpty_memset i (acFsize newN) [] (by omega)
    rw [List.append_nil] at empty del
    exact ⟨by rw [Rehash.newMark, empty]; rfl, del⟩
  have oldEntries : t.oldEntry h.nBuckets = h.entry := by
    funext j
    rw [Rehash.oldEntry, markedEntry, entry]
    split
    · rename_i here
      rw [sameKeys j here.1, sameVals j here.1]
    · rfl
  have newEntries : t.newEntry newN = fun _ => none := by
    funext j
    refine if_neg fun here => ?_
    rw [(fresh j here.1).1] at here
    exact Bool.false_ne_true here.2
  have none' : ∀ i, t.newEntry newN i = none := fun i => congrFun newEntries i
  refine
    { rounded := ⟨bits, enough, most, isPow⟩
      flags := ?_
      newFlags := List.length_replicate
      keys := inKeys
      vals := inVals
      written := fun i inside live => by
        change (cellAt keys i).isSome = true
        rw [sameKeys i inside]
        exact valid.shaped.written i inside live
      newWritten := fun i inside isMarked => by
        rw [(fresh i inside).1] at isMarked
        contradiction
      apart := fun i _ inside _ => (fresh i inside).1
      noDel := fun i inside => (fresh i inside).2
      sound := ?_
      distinct := by rw [oldEntries]; exact distinct_placed_old none' valid.sound.distinct
      stores := fun key value => by rw [oldEntries, stores_placed_old none']
      count := ?_
      fits := fits }
  · rcases Nat.eq_zero_or_pos h.nBuckets with zero | positive
    · rw [zero]
      exact Nat.zero_le _
    · have last := @Shaped.flags_bound _ _ h (h.nBuckets - 1) valid.shaped (by omega)
      change h.nBuckets ≤ 16 * h.flags.length
      omega
  · have same : t.newBuckets newN = ⟨fun _ => false, fun _ => none⟩ := by
      rw [Rehash.newBuckets, newEntries]
      congr 1
      funext j
      by_cases inside : j < newN
      · rw [(fresh j inside).1, Bool.and_false]
      · rw [decide_eq_false inside, Bool.false_and]
    rw [same]
    exact Buckets.sound_empty
  · change marked h.nBuckets (flagLive h.flags) + marked newN t.newMark + 0 = h.size
    rw [marked_eq_zero fun i inside => (fresh i inside).1, ← valid.sizeEq]
    rfl

theorem Moving.table {t : Rehash κ β} {nBuckets newN total : Nat} {stored : κ → Option β → Prop}
    (moving : Moving hash nBuckets newN total stored t none)
    (done : ∀ i < nBuckets, flagLive t.flags i = false) (low : total ≤ hashUpper newN)
    {keys : List (Option κ)} {vals : List (Option β)}
    (inKeys : newN ≤ keys.length) (inVals : newN ≤ vals.length)
    (sameKeys : ∀ i < newN, cellAt keys i = cellAt t.keys i)
    (sameVals : ∀ i < newN, cellAt vals i = cellAt t.vals i) :
    let h' : KHash κ β := ⟨newN, total, total, hashUpper newN, t.newFlags, keys, vals⟩
    h'.Valid hash ∧ ∀ key value, Stores h'.entry key value ↔ stored key value := by
  intro h'
  have live : ∀ i < newN, flagLive t.newFlags i = t.newMark i := by
    intro i inside
    rw [flagLive, moving.noDel i inside, Bool.not_false, Bool.and_true]
    rfl
  have entries : h'.entry = t.newEntry newN := by
    funext j
    rw [Rehash.newEntry, markedEntry]
    change (if j < newN ∧ flagLive t.newFlags j = true then
      (cellAt keys j).map fun key => (key, cellAt vals j) else none) = _
    by_cases inside : j < newN
    · rw [live j inside, sameKeys j inside, sameVals j inside]
    · rw [if_neg (fun here => inside here.1), if_neg (fun here => inside here.1)]
  have nothing : ∀ i, t.oldEntry nBuckets i = none := by
    intro i
    refine if_neg fun here => ?_
    rw [done i here.1] at here
    exact Bool.false_ne_true here.2
  have count : marked newN t.newMark = total := by
    have count := moving.count
    rw [marked_eq_zero done] at count
    change 0 + _ + 0 = total at count
    omega
  refine ⟨⟨?_, rfl, ?_, count.symm, ?_, fun _ => low⟩, fun key value => ?_⟩
  · exact
      { rounded := .inr moving.rounded
        flags := .inr moving.newFlags
        keys := inKeys
        vals := inVals
        written := fun i inside isLive => by
          change (cellAt keys i).isSome = true
          rw [sameKeys i inside]
          exact moving.newWritten i inside ((live i inside).symm.trans isLive) }
  · change total = marked newN (flagLive t.newFlags)
    rw [marked_congr live, count]
  · have same : h'.buckets = t.newBuckets newN := by
      rw [buckets, entries]
      rfl
    rw [same]
    exact moving.sound
  · rw [entries, ← moving.stores, stores_placed_new nothing]

section Cells
variable {α : Type} {cells : List (Option α)} {n newN : Nat}

theorem cells_expanded (kept : n ≤ cells.length) :
    let grown := if decide (n < newN) then krealloc cells newN else cells
    (n ≤ grown.length ∧ newN ≤ grown.length ∨ newN ≤ n ∧ n ≤ grown.length) ∧
      ∀ i < n, cellAt grown i = cellAt cells i := by
  by_cases expand : n < newN
  · simp only [expand, decide_true, if_true, length_krealloc]
    exact ⟨.inl ⟨Nat.le_of_lt expand, Nat.le_refl _⟩, fun i inside => cellAt_krealloc (by omega)⟩
  · simp only [expand, decide_false, Bool.false_eq_true, if_false]
    exact ⟨.inr ⟨Nat.le_of_not_lt expand, kept⟩, fun _ _ => trivial⟩

theorem cells_shrunk {granted : Bool} (kept : newN ≤ cells.length)
    (safe : n ≤ newN ∨ granted = true) :
    let fitted := if decide (n > newN) then if granted then krealloc cells newN else [] else cells
    newN ≤ fitted.length ∧ ∀ i < newN, cellAt fitted i = cellAt cells i := by
  by_cases shrink : n > newN
  · have isGranted : granted = true := safe.resolve_left (by omega)
    simp only [shrink, isGranted, decide_true, if_true, length_krealloc]
    exact ⟨Nat.le_refl _, fun i inside => cellAt_krealloc inside⟩
  · simp only [shrink, decide_false, Bool.false_eq_true, if_false]
    exact ⟨kept, fun _ _ => trivial⟩

end Cells

theorem Valid.resizeTo_ok (valid : h.Valid hash) {newN : Nat}
    (rounded : ∃ bits, 2 ≤ bits ∧ bits ≤ 31 ∧ newN = 2 ^ bits) (room : h.size < hashUpper newN)
    (granted : h.nBuckets ≤ newN ∨ memory.keys = true ∧ memory.vals = true) :
    ∃ h', resizeTo hash memory h newN = .ok h' ∧ SameContents hash h h' ∧
      h'.nBuckets = newN ∧ h'.nOccupied = h.size := by
  have fits : h.size < newN := by
    obtain ⟨bits, enough, -, isPow⟩ := rounded
    have less := hashUpper_lt enough
    rw [← isPow] at less
    omega
  obtain ⟨inKeys, sameKeys⟩ := @cells_expanded _ h.keys h.nBuckets newN valid.shaped.keys
  obtain ⟨inVals, sameVals⟩ := @cells_expanded _ h.vals h.nBuckets newN valid.shaped.vals
  obtain ⟨t, run, moved, done⟩ := (valid.moving rounded fits (by omega) (by omega) sameKeys
    sameVals).rehash_ok
  obtain ⟨keysLeft, keysKept⟩ := @cells_shrunk _ t.keys h.nBuckets newN memory.keys moved.keys.2
    (granted.imp_right And.left)
  obtain ⟨valsLeft, valsKept⟩ := @cells_shrunk _ t.vals h.nBuckets newN memory.vals moved.vals.2
    (granted.imp_right And.right)
  obtain ⟨valid', stores⟩ :=
    moved.table done (Nat.le_of_lt room) keysLeft valsLeft keysKept valsKept
  refine ⟨_, ?_, ⟨valid', rfl, stores⟩, rfl, rfl⟩
  rw [resizeTo]
  simp only [run]
  rfl

/-! ## `kh_resize` -/

/-- How `kh_resize` ends: a request for memory was refused, the table would be too
small, or it was rehashed. -/
inductive Resized (memory : HashMemory) (newN : Nat) (h : KHash κ β) : KHash κ β → Int → Prop where
  | refused {h' : KHash κ β} : h.size < hashUpper newN →
      memory.flags = false ∨ h.nBuckets < newN ∧ (memory.keys = false ∨ memory.vals = false) →
      h'.nBuckets = h.nBuckets → h'.nOccupied = h.nOccupied → Resized memory newN h h' (-1)
  | tooSmall : hashUpper newN ≤ h.size → Resized memory newN h h 0
  | rehashed {h' : KHash κ β} : h.size < hashUpper newN → h'.nBuckets = newN →
      h'.nOccupied = h.size → Resized memory newN h h' 0

/-- `kh_resize` keeps the entries, unless the memory of a table that gets smaller is
refused. -/
theorem Valid.resize_ok (valid : h.Valid hash) {requested : Nat}
    (granted : h.size < hashUpper (roundedBuckets requested) →
      h.nBuckets ≤ roundedBuckets requested ∨ memory.keys = true ∧ memory.vals = true) :
    ∃ h' ret, resize hash memory h requested = .ok (h', ret) ∧ SameContents hash h h' ∧
      Resized memory (roundedBuckets requested) h h' ret := by
  have rounded := roundedBuckets_pow requested
  unfold resize
  generalize roundedBuckets requested = newN at *
  by_cases small : hashUpper newN ≤ h.size
  · exact ⟨h, 0, if_pos small, valid.sameContents, .tooSmall small⟩
  have room : h.size < hashUpper newN := Nat.lt_of_not_le small
  simp only [ge_iff_le, small, if_false]
  cases noFlags : memory.flags with
  | false => exact ⟨h, -1, rfl, valid.sameContents, .refused room (.inl noFlags) rfl rfl⟩
  | true =>
      simp only [Bool.not_true, Bool.false_eq_true, if_false]
      by_cases noKeys : (decide (h.nBuckets < newN) && !memory.keys) = true
      · obtain ⟨expand, refused⟩ := Bool.and_eq_true_iff.mp noKeys
        rw [Bool.not_eq_true'] at refused
        refine ⟨h, -1, ?_, valid.sameContents,
          .refused room (.inr ⟨of_decide_eq_true expand, .inl refused⟩) rfl rfl⟩
        rw [if_pos noKeys]
        rfl
      rw [if_neg noKeys]
      by_cases noVals : (decide (h.nBuckets < newN) && !memory.vals) = true
      · obtain ⟨expand, refused⟩ := Bool.and_eq_true_iff.mp noVals
        rw [Bool.not_eq_true'] at refused
        have expand := of_decide_eq_true expand
        refine ⟨{ h with keys := krealloc h.keys newN }, -1, ?_,
          valid.sameContents_cells (by rw [length_krealloc]; omega) valid.shaped.vals
            (fun i inside => cellAt_krealloc (by omega)) (fun _ _ => rfl),
          .refused room (.inr ⟨expand, .inr refused⟩) rfl rfl⟩
        rw [if_pos noVals]
        rfl
      · obtain ⟨h', run, same, buckets, occupied⟩ := valid.resizeTo_ok rounded room (granted room)
        refine ⟨h', 0, ?_, same, .rehashed room buckets occupied⟩
        rw [if_neg noVals, run]
        rfl

/-! ## `kh_put` -/

/-- What `kh_put` finds after its first part, unless memory was refused. -/
structure Room (h : KHash κ β) : Prop where
  spare : h.size < 2 ^ 31 → h.size < h.nBuckets
  below : h.nBuckets < 2 ^ 31 → h.nOccupied < h.upperBound

theorem Valid.size_le (valid : h.Valid hash) : h.size ≤ h.nOccupied := by
  rw [valid.sizeEq, valid.occupiedEq]
  refine marked_le_marked fun i _ live => ?_
  rw [flagLive, Bool.and_eq_true] at live
  exact live.1

theorem Valid.occupied_le (valid : h.Valid hash) : h.nOccupied ≤ h.nBuckets := by
  rw [valid.occupiedEq]
  exact marked_le

theorem Valid.room (valid : h.Valid hash)
    (below : h.nBuckets < 2 ^ 31 → h.nOccupied < h.upperBound) : Room h := by
  refine ⟨fun few => ?_, below⟩
  have sizeLe := valid.size_le
  have small := valid.shaped.small
  by_cases largest : h.nBuckets < 2 ^ 31
  · have less := below largest
    rw [valid.upper] at less
    rcases valid.shaped.rounded with zero | ⟨bits, enough, -, isPow⟩
    · rw [zero] at less
      exact absurd less (Nat.not_lt_zero _)
    · have upper := hashUpper_lt enough
      rw [← isPow] at upper
      omega
  · omega

/-- The first part of `kh_put`: no entry is lost, and there is room if all requests
for memory are granted. -/
theorem Valid.makeRoom_ok (valid : h.Valid hash) :
    ∃ h' ret, makeRoom hash memory h = .ok (h', ret) ∧ SameContents hash h h' ∧
      (ret = -1 ∧ (memory.flags = false ∨ memory.keys = false ∨ memory.vals = false) ∨
        ret = 0 ∧ Room h') := by
  have sizeLe := valid.size_le
  have occupiedLe := valid.occupied_le
  have small := valid.shaped.small
  unfold makeRoom
  split
  swap
  · rename_i below
    exact ⟨h, 0, rfl, valid.sameContents, .inr ⟨rfl, valid.room fun _ => by omega⟩⟩
  have finish {requested : Nat} (grows : h.nBuckets ≤ roundedBuckets requested ∧
        h.size < hashUpper (roundedBuckets requested) ∨
      hashUpper (roundedBuckets requested) ≤ h.size ∧ h.nBuckets = 2 ^ 31) :
      ∃ h' ret, resize hash memory h requested = .ok (h', ret) ∧ SameContents hash h h' ∧
        (ret = -1 ∧ (memory.flags = false ∨ memory.keys = false ∨ memory.vals = false) ∨
          ret = 0 ∧ Room h') := by
    obtain ⟨h', ret, run, same, ends⟩ := @Valid.resize_ok _ _ hash memory h valid requested
      fun fits => .inl (by omega)
    refine ⟨h', ret, run, same, ?_⟩
    cases ends with
    | refused _ refusal _ _ => exact .inl ⟨rfl, refusal.imp_right And.right⟩
    | tooSmall full => exact .inr ⟨rfl, valid.room fun less => by omega⟩
    | rehashed fits buckets occupied =>
        refine .inr ⟨rfl, same.valid.room fun _ => ?_⟩
        rw [occupied, same.valid.upper, buckets]
        exact fits
  rcases valid.shaped.rounded with zero | ⟨bits, enough, most, isPow⟩
  · rw [if_neg (by omega)]
    refine finish (.inl ⟨by omega, ?_⟩)
    rw [zero] at occupiedLe ⊢
    have none' : h.size = 0 := by omega
    rw [none']
    decide
  · have four : 2 ^ 2 ≤ 2 ^ bits := Nat.pow_le_pow_right (by decide) enough
    obtain ⟨kept, doubled, last⟩ := roundedBuckets_near enough
    rw [← isPow] at four kept doubled last
    split
    · rename_i sparse
      apply finish
      rw [kept most]
      by_cases full : h.size < 2 ^ 31
      · refine .inl ⟨Nat.le_refl _, ?_⟩
        have twice : h.size <<< 1 % 2 ^ 32 = 2 * h.size := by
          rw [Nat.shiftLeft_eq, Nat.mod_eq_of_lt (by omega)]
          omega
        rw [twice] at sparse
        unfold hashUpper
        omega
      · refine .inr ⟨?_, by omega⟩
        unfold hashUpper
        omega
    · apply finish
      rcases Nat.lt_or_eq_of_le most with fewer | rfl
      · rw [doubled (by omega), Nat.pow_succ', ← isPow]
        refine .inl ⟨by omega, ?_⟩
        unfold hashUpper
        omega
      · rw [last rfl]
        rename_i dense
        refine .inr ⟨?_, isPow⟩
        have large : 2 ^ 30 ≤ h.size := by
          by_contra few
          refine dense ?_
          rw [Nat.shiftLeft_eq, Nat.mod_eq_of_lt (by omega)]
          omega
        exact Nat.le_trans (by decide) large

/-- What `kh_put` did: nothing because memory was refused, nothing because the key is
there, or the key was put into a bucket whose value is not yet known. -/
inductive PutResult (hash : κ → Nat) (memory : HashMemory) (h : KHash κ β) (key : κ) :
    Put κ β → Prop where
  | refused {h' : KHash κ β} : SameContents hash h h' →
      memory.flags = false ∨ memory.keys = false ∨ memory.vals = false →
      PutResult hash memory h key ⟨h', -1, h'.nBuckets⟩
  | present {h' : KHash κ β} {x : Nat} {value : Option β} : SameContents hash h h' →
      h'.entry x = some (key, value) → PutResult hash memory h key ⟨h', 0, x⟩
  | added {h' : KHash κ β} {x : Nat} {ret : Int} {value : Option β} : h'.Valid hash →
      h'.size = h.size + 1 → ret = 1 ∨ ret = 2 → Lacks h.entry key →
      h'.entry x = some (key, value) →
      (∀ key' value', Stores h'.entry key' value' ↔
        key' = key ∧ value' = value ∨ Stores h.entry key' value') →
      PutResult hash memory h key ⟨h', ret, x⟩

theorem SameContents.lacks {h' : KHash κ β} (same : SameContents hash h h') {key : κ}
    (lacks : Lacks h'.entry key) : Lacks h.entry key := by
  intro place value here
  obtain ⟨place', there⟩ := (same.stores key value).mpr ⟨place, here⟩
  exact lacks place' value there

/-- `kh_put` on a table that could still take a key. -/
theorem Valid.put_ok [DecidableEq κ] (valid : h.Valid hash) (few : h.size < 2 ^ 31) (key : κ) :
    ∃ done, put hash memory h key = .ok done ∧ PutResult hash memory h key done := by
  obtain ⟨h', resized, run, same, ends⟩ := @Valid.makeRoom_ok _ _ hash memory h valid
  rw [put]
  simp only [run, ok_bind]
  rcases ends with ⟨rfl, refusal⟩ | ⟨rfl, room⟩
  · exact ⟨_, rfl, .refused same refusal⟩
  · have spare : h'.size < h'.nBuckets := room.spare (by rw [same.size]; exact few)
    obtain ⟨x, found, chosen⟩ := same.valid.putBucket_ok key spare
    obtain ⟨after, ret, wrote, done⟩ := same.valid.putKey_ok chosen room.below
    refine ⟨⟨after, ret, x⟩, ?_, ?_⟩
    · rw [if_neg (by decide), found, ok_bind, wrote]
      rfl
    · by_cases kept : ret = 0
      · obtain ⟨rfl, here⟩ := done.kept kept
        obtain ⟨value, there⟩ := holds_iff.mp here
        subst kept
        exact .present same there
      · obtain ⟨lacks, put⟩ := done.added kept
        have free : h'.entry x = none := by
          have notHeld : h'.holds key x = false :=
            not_holds_iff.mpr fun value here => lacks x value here
          exact (same.valid.shaped.entry_eq_none chosen.bound).mpr (chosen.free notHeld).2.1
        have written : after.entry x = some (key, cellAt h'.vals x) := by
          rw [put.entry, Function.update_self]
        refine .added put.valid (by rw [put.size, same.size]) ?_ (same.lacks lacks) written ?_
        · rcases done.ret with zero | ⟨one, -⟩ | ⟨two, -⟩
          · exact absurd zero kept
          · exact .inl one
          · exact .inr two
        · intro key' value'
          rw [put.entry, stores_put free, same.stores]

end MemSim.KHash
