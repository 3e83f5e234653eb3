import MemSim.KHashCells

/-!
# Searching a hash table

`kh_get` and the search of `kh_put` follow the probe sequence of the key.  When no
bucket is empty the sequence goes through all buckets and comes back to the first
one, where both loops stop.
-/

set_option autoImplicit false

namespace MemSim.KHash

variable {κ β : Type}

/-! ## Tables between calls -/

/-- The entry in a bucket.  Its value may not have been written yet. -/
def entry (h : KHash κ β) (i : Nat) : Option (κ × Option β) :=
  if i < h.nBuckets ∧ flagLive h.flags i = true then
    (cellAt h.keys i).map fun key => (key, cellAt h.vals i)
  else none

def used (h : KHash κ β) (i : Nat) : Bool := decide (i < h.nBuckets) && !flagEmpty h.flags i

def buckets (h : KHash κ β) : Buckets κ (Option β) := ⟨h.used, h.entry⟩

def path (nBuckets : Nat) (hash : κ → Nat) (key : κ) (step : Nat) : Nat :=
  probe nBuckets (hash key) step

/-- The arrays are long enough, and the keys of all entries were written. -/
structure Shaped (h : KHash κ β) : Prop where
  rounded : h.nBuckets = 0 ∨ ∃ bits, 2 ≤ bits ∧ bits ≤ 31 ∧ h.nBuckets = 2 ^ bits
  flags : h.nBuckets = 0 ∧ h.flags = [] ∨ h.flags.length = acFsize h.nBuckets
  keys : h.nBuckets ≤ h.keys.length
  vals : h.nBuckets ≤ h.vals.length
  written : ∀ i < h.nBuckets, flagLive h.flags i = true → (cellAt h.keys i).isSome = true

/-- What every operation expects of a table, and keeps.  A table of 2^31 buckets
cannot grow, and may be filled beyond its bound. -/
structure Valid (hash : κ → Nat) (h : KHash κ β) : Prop where
  shaped : h.Shaped
  upper : h.upperBound = hashUpper h.nBuckets
  sizeEq : h.size = marked h.nBuckets (flagLive h.flags)
  occupiedEq : h.nOccupied = marked h.nBuckets fun i => !flagEmpty h.flags i
  sound : h.buckets.Sound h.nBuckets (path h.nBuckets hash)
  load : h.nBuckets < 2 ^ 31 → h.nOccupied ≤ h.upperBound

variable {hash : κ → Nat} {h : KHash κ β} {key : κ} {i : Nat}

theorem init_valid : (init : KHash κ β).Valid hash where
  shaped :=
    { rounded := .inl rfl
      flags := .inl ⟨rfl, rfl⟩
      keys := Nat.zero_le _
      vals := Nat.zero_le _
      written := fun _ bound => absurd bound (Nat.not_lt_zero _) }
  upper := by simp [init, hashUpper]
  sizeEq := rfl
  occupiedEq := rfl
  sound := Buckets.sound_empty
  load := fun _ => Nat.le_refl _

theorem Shaped.small (shaped : h.Shaped) : h.nBuckets ≤ 2 ^ 31 := by
  rcases shaped.rounded with zero | ⟨bits, -, most, isPow⟩
  · omega
  · rw [isPow]
    exact Nat.pow_le_pow_right (by decide) most

theorem Shaped.flags_bound (shaped : h.Shaped) (bound : i < h.nBuckets) :
    i < 16 * h.flags.length := by
  rcases shaped.flags with ⟨zero, -⟩ | length
  · omega
  · rcases shaped.rounded with zero | ⟨bits, enough, -, isPow⟩
    · omega
    · have fits := length_le_fsize enough
      rw [← isPow, ← length] at fits
      omega

theorem entry_eq_some {key : κ} {value : Option β} : h.entry i = some (key, value) ↔
    i < h.nBuckets ∧ flagLive h.flags i = true ∧ cellAt h.keys i = some key ∧
      cellAt h.vals i = value := by
  unfold entry
  split
  · rename_i live
    simp only [Option.map_eq_some_iff, Prod.mk.injEq, live, true_and]
    constructor
    · rintro ⟨_, here, rfl, rfl⟩
      exact ⟨here, rfl⟩
    · rintro ⟨here, rfl⟩
      exact ⟨key, here, rfl, rfl⟩
  · rename_i dead
    constructor
    · intro none'
      contradiction
    · rintro ⟨bound, live, -⟩
      exact absurd ⟨bound, live⟩ dead

theorem Shaped.entry_eq_none (shaped : h.Shaped) (bound : i < h.nBuckets) :
    h.entry i = none ↔ flagLive h.flags i = false := by
  constructor
  · intro none'
    cases live : flagLive h.flags i with
    | false => rfl
    | true =>
        obtain ⟨key, here⟩ := Option.isSome_iff_exists.mp (shaped.written i bound live)
        have some' := entry_eq_some.mpr ⟨bound, live, here, rfl⟩
        rw [none'] at some'
        contradiction
  · intro dead
    unfold entry
    rw [if_neg]
    rintro ⟨-, live⟩
    rw [dead] at live
    contradiction

theorem used_eq (bound : i < h.nBuckets) : h.used i = !flagEmpty h.flags i := by
  rw [used, decide_eq_true bound, Bool.true_and]

def holds [DecidableEq κ] (h : KHash κ β) (key : κ) (i : Nat) : Bool :=
  decide ((h.entry i).map Prod.fst = some key)

section Search
variable [DecidableEq κ]

theorem holds_iff : h.holds key i = true ↔ ∃ value, h.entry i = some (key, value) := by
  rw [holds, decide_eq_true_iff, Option.map_eq_some_iff]
  constructor
  · rintro ⟨⟨_, value⟩, here, rfl⟩
    exact ⟨value, here⟩
  · rintro ⟨value, here⟩
    exact ⟨(key, value), here, rfl⟩

theorem not_holds_iff : h.holds key i = false ↔ ∀ value, h.entry i ≠ some (key, value) := by
  rw [← Bool.not_eq_true, holds_iff, not_exists]

theorem Shaped.passes_ok (shaped : h.Shaped) (bound : i < h.nBuckets) :
    h.passes key i = .ok (h.used i && !h.holds key i) := by
  have inFlags := shaped.flags_bound bound
  rw [passes, acIsempty_ok inFlags, used_eq bound]
  cases empty : flagEmpty h.flags i with
  | true => rfl
  | false =>
      rw [acIsdel_ok inFlags]
      cases del : flagDel h.flags i with
      | true =>
          have none' : h.entry i = none := by
            rw [shaped.entry_eq_none bound, flagLive, del, Bool.not_true, Bool.and_false]
          rw [holds, none']
          rfl
      | false =>
          have live : flagLive h.flags i = true := by rw [flagLive, empty, del]; rfl
          obtain ⟨other, here⟩ := Option.isSome_iff_exists.mp (shaped.written i bound live)
          have some' := entry_eq_some.mpr ⟨bound, live, here, rfl⟩
          rw [readKey_ok here, holds, some']
          change Except.ok (decide (¬ other = key)) = _
          simp

/-- The state of both search loops: `step` buckets were passed. -/
structure Scan (hash : κ → Nat) (h : KHash κ β) (key : κ) (step i : Nat) : Prop where
  bucket : i = path h.nBuckets hash key step
  early : step + 1 < 2 * h.nBuckets
  passed : ∀ earlier < step, h.used (path h.nBuckets hash key earlier) = true ∧
    h.holds key (path h.nBuckets hash key earlier) = false

variable {step : Nat}

theorem Scan.bound (scan : Scan hash h key step i) : i < h.nBuckets := by
  rw [scan.bucket]
  exact probe_lt (by have := scan.early; omega) _

theorem Shaped.scan_start (shaped : h.Shaped) (some' : h.nBuckets ≠ 0) :
    Scan hash h key 0 (hash key &&& h.nBuckets - 1) := by
  rcases shaped.rounded with zero | ⟨bits, enough, -, isPow⟩
  · exact absurd zero some'
  · refine ⟨?_, ?_, fun earlier before => absurd before (Nat.not_lt_zero _)⟩
    · rw [path, probe_zero, isPow, Nat.and_two_pow_sub_one_eq_mod]
    · have large : 2 ^ 2 ≤ 2 ^ bits := Nat.pow_le_pow_right (by decide) enough
      omega

theorem Scan.lacks_of_unused (valid : h.Valid hash) (scan : Scan hash h key step i)
    (unused : h.used i = false) : Lacks h.entry key := by
  rw [scan.bucket] at unused
  refine valid.sound.lacks_of_unused (fun earlier before value here => ?_) unused
  exact not_holds_iff.mp (scan.passed earlier before).2 value here

theorem Scan.passed_next (scan : Scan hash h key step i) (used : h.used i = true)
    (other : h.holds key i = false) : ∀ earlier < step + 1,
      h.used (path h.nBuckets hash key earlier) = true ∧
        h.holds key (path h.nBuckets hash key earlier) = false := by
  intro earlier before
  rcases Nat.lt_or_eq_of_le (Nat.le_of_lt_succ before) with before | rfl
  · exact scan.passed earlier before
  · rw [← scan.bucket]
    exact ⟨used, other⟩

/-- After one more bucket was passed, the search goes on, or all buckets were passed. -/
theorem Scan.next (shaped : h.Shaped) (scan : Scan hash h key step i) (used : h.used i = true)
    (other : h.holds key i = false) :
    if nextBucket (h.nBuckets - 1) i (nextStep step) = path h.nBuckets hash key 0 then
      ∀ bucket < h.nBuckets, ∃ earlier < step + 1, path h.nBuckets hash key earlier = bucket
    else
      Scan hash h key (nextStep step) (nextBucket (h.nBuckets - 1) i (nextStep step)) := by
  have early := scan.early
  rcases shaped.rounded with zero | ⟨bits, -, most, isPow⟩
  · omega
  have small := shaped.small
  have stepped : nextStep step = step + 1 := nextStep_eq (by omega)
  have bucket : nextBucket (h.nBuckets - 1) i (step + 1) =
      path h.nBuckets hash key (step + 1) := by
    rw [isPow, nextBucket_eq (by omega), ← isPow, path, probe_succ, scan.bucket]
    rfl
  rw [stepped, bucket]
  split
  · rename_i returned
    have late : h.nBuckets ≤ step + 1 := by
      by_contra within
      have apart := @probe_ne h.nBuckets (hash key) bits isPow 0 (step + 1) (Nat.succ_pos step)
        (by omega)
      rw [Nat.zero_add] at apart
      exact apart returned.symm
    intro bucket bound
    obtain ⟨earlier, before, visits⟩ := @exists_probe h.nBuckets (hash key) bits isPow bucket bound
    exact ⟨earlier, by omega, visits⟩
  · rename_i moved
    refine ⟨rfl, ?_, scan.passed_next used other⟩
    by_contra done
    have last : step + 1 = 2 * h.nBuckets - 1 := by omega
    rw [last] at moved
    exact moved (probe_returns isPow (by omega))

theorem Scan.lacks_of_covered (scan : Scan hash h key step i) (used : h.used i = true)
    (other : h.holds key i = false)
    (covers : ∀ bucket < h.nBuckets, ∃ earlier < step + 1,
      path h.nBuckets hash key earlier = bucket) : Lacks h.entry key := by
  intro bucket value here
  obtain ⟨earlier, before, rfl⟩ := covers bucket (entry_eq_some.mp here).1
  exact not_holds_iff.mp (scan.passed_next used other earlier before).2 value here

/-! ## `kh_get` -/

/-- What a search finds: the bucket of the key, or the end. -/
structure Found (h : KHash κ β) (key : κ) (x : Nat) : Prop where
  le : x ≤ h.nBuckets
  present : x < h.nBuckets → h.holds key x = true
  absent : x = h.nBuckets → Lacks h.entry key

theorem found_end (lacks : Lacks h.entry key) : h.Found key h.nBuckets :=
  ⟨Nat.le_refl _, fun less => absurd less (Nat.lt_irrefl _), fun _ => lacks⟩

theorem Valid.getFrom_ok (valid : h.Valid hash) {fuel : Nat} (scan : Scan hash h key step i)
    (enough : 2 * h.nBuckets ≤ step + fuel) :
    ∃ x, h.getFrom key (h.nBuckets - 1) (path h.nBuckets hash key 0) fuel step i = .ok x ∧
      h.Found key x := by
  induction fuel generalizing step i with
  | zero =>
      have early := scan.early
      omega
  | succ fuel ih =>
      have bound := scan.bound
      rw [getFrom, valid.shaped.passes_ok bound]
      cases used : h.used i with
      | false =>
          have dead : flagLive h.flags i = false := by
            rw [used_eq bound, Bool.not_eq_false'] at used
            rw [flagLive, used]
            rfl
          refine ⟨h.nBuckets, ?_, found_end (scan.lacks_of_unused valid used)⟩
          change (do return if ← acIseither h.flags i then h.nBuckets else i) = _
          rw [acIseither_ok (valid.shaped.flags_bound bound), dead]
          rfl
      | true =>
          cases here : h.holds key i with
          | true =>
              obtain ⟨value, there⟩ := holds_iff.mp here
              have live := (entry_eq_some.mp there).2.1
              refine ⟨i, ?_, Nat.le_of_lt bound, fun _ => here, fun same => absurd same (by omega)⟩
              change (do return if ← acIseither h.flags i then h.nBuckets else i) = _
              rw [acIseither_ok (valid.shaped.flags_bound bound), live]
              rfl
          | false =>
              have next := scan.next valid.shaped used here
              change ∃ x, (if nextBucket (h.nBuckets - 1) i (nextStep step) = _ then
                pure h.nBuckets else _ : Except HashFault Nat) = .ok x ∧ _
              split at next
              · rename_i returned
                exact ⟨h.nBuckets, if_pos returned,
                  found_end (scan.lacks_of_covered used here next)⟩
              · rename_i moved
                rw [if_neg moved]
                apply ih next
                have small := valid.shaped.small
                have early := scan.early
                rw [nextStep_eq (by omega)]
                omega

/-- `kh_get` finds the bucket of the key, or tells that there is none. -/
theorem Valid.get_ok (valid : h.Valid hash) (key : κ) :
    ∃ x, h.get key hash = .ok x ∧ h.Found key x := by
  unfold get
  split
  · rename_i zero
    refine ⟨0, rfl, ?_⟩
    rw [← zero]
    apply found_end
    intro bucket value here
    have inside := (entry_eq_some.mp here).1
    omega
  · rename_i some'
    have scan : Scan hash h key 0 (hash key &&& h.nBuckets - 1) := valid.shaped.scan_start some'
    have start : hash key &&& h.nBuckets - 1 = path h.nBuckets hash key 0 := scan.bucket
    simp only [start] at scan ⊢
    exact valid.getFrom_ok scan (by omega)

end Search

end MemSim.KHash
