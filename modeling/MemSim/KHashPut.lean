import MemSim.KHashSearch

/-!
# Writing into a hash table

The bucket `kh_put` chooses, and what it, `kh_del`, `kh_clear` and an assignment to
`kh_value` do to the entries.  Here the table has room; rehashing comes later.
-/

set_option autoImplicit false

namespace MemSim.KHash

variable {κ β : Type} {hash : κ → Nat} {h : KHash κ β} {key : κ} {i x : Nat}

/-! ## The bucket for a key -/

def Free (hash : κ → Nat) (h : KHash κ β) (key : κ) (x : Nat) : Prop :=
  flagLive h.flags x = false ∧ ∃ step, path h.nBuckets hash key step = x ∧
    ∀ earlier < step, h.used (path h.nBuckets hash key earlier) = true

section Choice
variable [DecidableEq κ]

/-- The bucket of the key, or a free one if there is none. -/
structure Chosen (hash : κ → Nat) (h : KHash κ β) (key : κ) (x : Nat) : Prop where
  bound : x < h.nBuckets
  free : h.holds key x = false → Lacks h.entry key ∧ Free hash h key x

/-- `site` is the last deleted bucket that was passed, if any. -/
structure SiteSeen (hash : κ → Nat) (h : KHash κ β) (key : κ) (step site : Nat) : Prop where
  free : site ≠ h.nBuckets → site < h.nBuckets ∧ Free hash h key site
  full : site = h.nBuckets → ∀ earlier < step,
    flagLive h.flags (path h.nBuckets hash key earlier) = true

variable {step site : Nat}

theorem SiteSeen.next (seen : SiteSeen hash h key step site) (scan : Scan hash h key step i)
    (used : h.used i = true) :
    SiteSeen hash h key (step + 1) (if flagDel h.flags i then i else site) := by
  have bound := scan.bound
  have notEmpty : flagEmpty h.flags i = false := by
    rwa [used_eq bound, Bool.not_eq_true'] at used
  cases del : flagDel h.flags i with
  | true =>
      refine ⟨fun _ => ⟨bound, ?_, step, scan.bucket.symm, fun earlier before => ?_⟩, ?_⟩
      · rw [if_pos rfl, flagLive, del, Bool.not_true, Bool.and_false]
      · exact (scan.passed earlier before).1
      · intro same
        rw [if_pos rfl] at same
        omega
  | false =>
      rw [if_neg Bool.false_ne_true]
      refine ⟨seen.free, fun same earlier before => ?_⟩
      rcases Nat.lt_or_eq_of_le (Nat.le_of_lt_succ before) with before | rfl
      · exact seen.full same earlier before
      · rw [← scan.bucket, flagLive, notEmpty, del]
        rfl

/-- How the search of `kh_put` ends: at a bucket that is empty or holds the key, or
back at the first one. -/
inductive PutEnds (hash : κ → Nat) (h : KHash κ β) (key : κ) : PutSearch → Prop where
  | stopped {step site i : Nat} : Scan hash h key step i → SiteSeen hash h key step site →
      (h.used i = true → h.holds key i = true) → PutEnds hash h key ⟨h.nBuckets, site, i⟩
  | returned {site : Nat} (i : Nat) : Lacks h.entry key →
      (site ≠ h.nBuckets → site < h.nBuckets ∧ Free hash h key site) →
      (site = h.nBuckets → ∀ bucket < h.nBuckets, flagLive h.flags bucket = true) →
      PutEnds hash h key ⟨site, site, i⟩

theorem Valid.putFrom_ok (valid : h.Valid hash) {fuel : Nat} (scan : Scan hash h key step i)
    (seen : SiteSeen hash h key step site) (enough : 2 * h.nBuckets ≤ step + fuel) :
    ∃ found, h.putFrom key (h.nBuckets - 1) (path h.nBuckets hash key 0) fuel site step i =
      .ok found ∧ PutEnds hash h key found := by
  induction fuel generalizing step i site with
  | zero =>
      have early := scan.early
      omega
  | succ fuel ih =>
      have bound := scan.bound
      rw [putFrom, valid.shaped.passes_ok bound]
      cases used : h.used i with
      | false =>
          refine ⟨_, rfl, .stopped scan seen fun isUsed => ?_⟩
          rw [used] at isUsed
          contradiction
      | true =>
          cases here : h.holds key i with
          | true => exact ⟨_, rfl, .stopped scan seen fun _ => here⟩
          | false =>
              have next := scan.next valid.shaped used here
              have seen' := seen.next scan used
              have small := valid.shaped.small
              have early := scan.early
              have stepped : nextStep step = step + 1 := nextStep_eq (by omega)
              simp only [Bool.not_false, Bool.and_true]
              rw [acIsdel_ok (valid.shaped.flags_bound bound)]
              change ∃ found, (if nextBucket (h.nBuckets - 1) i (nextStep step) = _ then
                pure _ else _ : Except HashFault PutSearch) = .ok found ∧ _
              split at next
              · rename_i returned
                refine ⟨_, if_pos returned, .returned _ (scan.lacks_of_covered used here next)
                  seen'.free fun same bucket inside => ?_⟩
                obtain ⟨earlier, before, rfl⟩ := next bucket inside
                exact seen'.full same earlier before
              · rename_i moved
                rw [if_neg moved]
                rw [stepped] at next ⊢
                exact ih next seen' (by omega)

/-- The search of `kh_put` chooses a bucket, unless every bucket holds an entry. -/
theorem Valid.putBucket_ok (valid : h.Valid hash) (key : κ) (room : h.size < h.nBuckets) :
    ∃ x, h.putBucket key hash = .ok x ∧ Chosen hash h key x := by
  have some' : h.nBuckets ≠ 0 := by omega
  have scan := @Shaped.scan_start _ _ hash h key _ valid.shaped some'
  have start : hash key &&& h.nBuckets - 1 = path h.nBuckets hash key 0 := scan.bucket
  have bound := scan.bound
  unfold putBucket
  simp only [start] at scan bound ⊢
  rw [acIsempty_ok (valid.shaped.flags_bound bound)]
  cases empty : flagEmpty h.flags (path h.nBuckets hash key 0) with
  | true =>
      refine ⟨_, rfl, bound, fun _ => ⟨?_, ?_⟩⟩
      · apply scan.lacks_of_unused valid
        rw [used_eq bound, empty]
        rfl
      · exact ⟨by rw [flagLive, empty]; rfl, 0, rfl,
          fun earlier before => absurd before (Nat.not_lt_zero _)⟩
  | false =>
      have seen : SiteSeen hash h key 0 h.nBuckets :=
        ⟨fun same => absurd rfl same, fun _ earlier before => absurd before (Nat.not_lt_zero _)⟩
      obtain ⟨found, run, ends⟩ := @Valid.putFrom_ok _ _ hash h key _ _ 0 h.nBuckets valid
        (2 * h.nBuckets) scan seen (by omega)
      change ∃ x, (do
        let found ← h.putFrom key (h.nBuckets - 1) (path h.nBuckets hash key 0) (2 * h.nBuckets)
          h.nBuckets 0 (path h.nBuckets hash key 0)
        if found.x = h.nBuckets then
          if (← acIsempty h.flags found.i) && decide (found.site ≠ h.nBuckets) then
            return found.site
          else return found.i
        else return found.x : Except HashFault Nat) = .ok x ∧ _
      rw [run]
      cases ends with
      | @stopped step site i scan seen stops =>
          have bound := scan.bound
          change ∃ x, (if h.nBuckets = h.nBuckets then (do
            if (← acIsempty h.flags i) && decide (site ≠ h.nBuckets) then return site
            else return i) else _ : Except HashFault Nat) = .ok x ∧ _
          rw [if_pos rfl, acIsempty_ok (valid.shaped.flags_bound bound)]
          cases empty : flagEmpty h.flags i with
          | true =>
              have unused : h.used i = false := by rw [used_eq bound, empty]; rfl
              have lacks := scan.lacks_of_unused valid unused
              by_cases none' : site = h.nBuckets
              · refine ⟨i, by simp [none'], bound, fun _ => ⟨lacks, ?_, step, scan.bucket.symm,
                  fun earlier before => (scan.passed earlier before).1⟩⟩
                rw [flagLive, empty]
                rfl
              · obtain ⟨inside, free⟩ := seen.free none'
                exact ⟨site, by simp [none']; rfl, inside, fun _ => ⟨lacks, free⟩⟩
          | false =>
              have isUsed : h.used i = true := by rw [used_eq bound, empty]; rfl
              refine ⟨i, rfl, bound, fun other => ?_⟩
              rw [stops isUsed] at other
              contradiction
      | @returned site i lacks free full =>
          by_cases none' : site = h.nBuckets
          · have all : marked h.nBuckets (flagLive h.flags) = h.nBuckets := by
              by_contra fewer
              obtain ⟨bucket, inside, dead⟩ := exists_clear
                (Nat.lt_of_le_of_ne marked_le fewer)
              rw [full none' bucket inside] at dead
              contradiction
            rw [valid.sizeEq] at room
            omega
          · obtain ⟨inside, isFree⟩ := free none'
            exact ⟨site, if_neg none', inside, fun _ => ⟨lacks, isFree⟩⟩

end Choice

/-! ## Changing one bucket -/

/-- The table with a key in a free bucket, and the value the bucket had. -/
structure KeyPut (hash : κ → Nat) (h h' : KHash κ β) (key : κ) (x : Nat) : Prop where
  valid : h'.Valid hash
  nBuckets : h'.nBuckets = h.nBuckets
  size : h'.size = h.size + 1
  entry : h'.entry = Function.update h.entry x (some (key, cellAt h.vals x))
  vals : h'.vals = h.vals

theorem Valid.keyPut (valid : h.Valid hash) (bound : x < h.nBuckets)
    (free : Free hash h key x) (lacks : Lacks h.entry key) {flags : List (BitVec 32)}
    (changed : FlagChanged h.flags flags x false false) {occupied : Nat}
    (occupiedEq : occupied = marked h.nBuckets fun i => !flagEmpty flags i)
    (room : h.nBuckets < 2 ^ 31 → occupied ≤ h.upperBound) :
    KeyPut hash h
      { h with
        keys := h.keys.set x (some key)
        flags := flags
        size := h.size + 1
        nOccupied := occupied } key x := by
  obtain ⟨dead, step, reached, before⟩ := free
  have inKeys : x < h.keys.length := Nat.lt_of_lt_of_le bound valid.shaped.keys
  have live := changed.live
  let after : KHash κ β :=
    { h with
      keys := h.keys.set x (some key), flags := flags, size := h.size + 1, nOccupied := occupied }
  have entries : after.entry = Function.update h.entry x (some (key, cellAt h.vals x)) := by
    funext j
    unfold entry
    rw [Function.update_apply]
    change (if j < h.nBuckets ∧ flagLive flags j = true then
      (cellAt (h.keys.set x (some key)) j).map fun key => (key, cellAt h.vals j) else none) = _
    rw [live, cellAt_set inKeys, Function.update_apply]
    by_cases same : j = x
    · simp [same, bound]
    · simp [same]
  have useds : after.used = Function.update h.used x true := by
    funext j
    unfold used
    rw [Function.update_apply]
    change (decide (j < h.nBuckets) && !flagEmpty flags j) = _
    rw [changed.empty, Function.update_apply]
    by_cases same : j = x
    · simp [same, bound]
    · simp [same]
  refine ⟨⟨?_, valid.upper, ?_, occupiedEq, ?_, room⟩, rfl, rfl, entries, rfl⟩
  · refine
      { rounded := valid.shaped.rounded
        flags := ?_
        keys := (valid.shaped.keys).trans_eq (List.length_set ..).symm
        vals := valid.shaped.vals
        written := ?_ }
    · rcases valid.shaped.flags with ⟨zero, -⟩ | length
      · omega
      · exact .inr (changed.length.trans length)
    · intro j inside isLive
      change flagLive flags j = true at isLive
      change (cellAt (h.keys.set x (some key)) j).isSome = true
      rw [live, Function.update_apply] at isLive
      rw [cellAt_set inKeys]
      split
      · rfl
      · rename_i apart
        rw [if_neg apart] at isLive
        exact valid.shaped.written j inside isLive
  · change h.size + 1 = marked h.nBuckets (flagLive flags)
    rw [live, valid.sizeEq]
    exact (marked_set bound dead).symm
  · have put := @Buckets.Sound.put _ _ h.nBuckets (path h.nBuckets hash) h.buckets step key
      (cellAt h.vals x) valid.sound (by rwa [reached]) before lacks
    rw [reached] at put
    have same : after.buckets = h.buckets.put x key (cellAt h.vals x) := by
      rw [buckets, useds, entries]
      rfl
    change after.buckets.Sound h.nBuckets _
    rw [same]
    exact put

section PutKey
variable [DecidableEq κ]

/-- `kh_put` leaves the key in the bucket, and tells what it found there. -/
structure PutDone (hash : κ → Nat) (h h' : KHash κ β) (key : κ) (x : Nat) (ret : Int) : Prop where
  kept : ret = 0 → h' = h ∧ h.holds key x = true
  added : ret ≠ 0 → Lacks h.entry key ∧ KeyPut hash h h' key x
  ret : ret = 0 ∨ ret = 1 ∧ flagEmpty h.flags x = true ∨ ret = 2 ∧ flagEmpty h.flags x = false

theorem Valid.putKey_ok (valid : h.Valid hash) (chosen : Chosen hash h key x)
    (room : h.nBuckets < 2 ^ 31 → h.nOccupied < h.upperBound) :
    ∃ h' ret, h.putKey key x = .ok (h', ret) ∧ PutDone hash h h' key x ret := by
  have bound := chosen.bound
  have inFlags := valid.shaped.flags_bound bound
  have inKeys : x < h.keys.length := Nat.lt_of_lt_of_le bound valid.shaped.keys
  obtain ⟨flags, set, changed⟩ := acSetIsbothFalse_ok inFlags
  have notLive (dead : flagLive h.flags x = false) : h.holds key x = false := by
    rw [holds, (valid.shaped.entry_eq_none bound).mpr dead]
    rfl
  have marks : (fun i => !flagEmpty flags i) =
      Function.update (fun i => !flagEmpty h.flags i) x true := by
    funext j
    rw [changed.empty, Function.update_apply, Function.update_apply]
    split <;> rfl
  rw [putKey, acIsempty_ok inFlags]
  cases empty : flagEmpty h.flags x with
  | true =>
      obtain ⟨lacks, free⟩ := chosen.free (notLive (by rw [flagLive, empty]; rfl))
      have occupiedEq : h.nOccupied + 1 = marked h.nBuckets fun i => !flagEmpty flags i := by
        rw [marks, marked_set bound (by rw [empty]; rfl), valid.occupiedEq]
      refine ⟨_, 1, ?_, fun zero => absurd zero (by decide), fun _ =>
        ⟨lacks, valid.keyPut bound free lacks changed occupiedEq room⟩, .inr (.inl ⟨rfl, empty⟩)⟩
      rw [writeCell_ok inKeys, set]
      rfl
  | false =>
      rw [acIsdel_ok inFlags]
      cases del : flagDel h.flags x with
      | true =>
          have dead : flagLive h.flags x = false := by
            rw [flagLive, del, Bool.not_true, Bool.and_false]
          obtain ⟨lacks, free⟩ := chosen.free (notLive dead)
          have occupiedEq : h.nOccupied = marked h.nBuckets fun i => !flagEmpty flags i := by
            have already : (!flagEmpty h.flags x) = true := by rw [empty]; rfl
            rw [marks, ← already, Function.update_eq_self, valid.occupiedEq]
          refine ⟨_, 2, ?_, fun zero => absurd zero (by decide), fun _ =>
            ⟨lacks, valid.keyPut bound free lacks changed occupiedEq valid.load⟩,
            .inr (.inr ⟨rfl, empty⟩)⟩
          rw [writeCell_ok inKeys, set]
          rfl
      | false =>
          have here : h.holds key x = true := by
            cases here : h.holds key x with
            | true => rfl
            | false =>
                have dead := (chosen.free here).2.1
                rw [flagLive, empty, del] at dead
                contradiction
          exact ⟨h, 0, rfl, fun _ => ⟨rfl, here⟩, fun some' => absurd rfl some', .inl rfl⟩

end PutKey

/-! ## `kh_value` -/

theorem Valid.value_ok (valid : h.Valid hash) (bound : x < h.nBuckets) :
    h.value x = .ok (cellAt h.vals x) :=
  readCell_ok (Nat.lt_of_lt_of_le bound valid.shaped.vals)

theorem Valid.setValue_ok (valid : h.Valid hash) {old : Option β}
    (here : h.entry x = some (key, old)) (value : β) :
    ∃ h', h.setValue x value = .ok h' ∧ h'.Valid hash ∧ h'.nBuckets = h.nBuckets ∧
      h'.size = h.size ∧ h'.entry = Function.update h.entry x (some (key, some value)) := by
  obtain ⟨bound, live, inKey, -⟩ := entry_eq_some.mp here
  have inVals : x < h.vals.length := Nat.lt_of_lt_of_le bound valid.shaped.vals
  let after : KHash κ β := { h with vals := h.vals.set x (some value) }
  have entries : after.entry = Function.update h.entry x (some (key, some value)) := by
    funext j
    unfold entry
    rw [Function.update_apply]
    change (if j < h.nBuckets ∧ flagLive h.flags j = true then
      (cellAt h.keys j).map fun key => (key, cellAt (h.vals.set x (some value)) j) else none) = _
    rw [cellAt_set inVals]
    by_cases same : j = x
    · simp [same, bound, live, inKey]
    · simp [same]
  have replaced := @Buckets.Sound.replace _ _ h.nBuckets (path h.nBuckets hash) h.buckets x key
    (some value) valid.sound old here
  refine ⟨after, ?_, ⟨?_, valid.upper, valid.sizeEq, valid.occupiedEq, ?_, valid.load⟩, rfl, rfl,
    entries⟩
  · rw [setValue, writeCell_ok inVals]
    rfl
  · exact
      { rounded := valid.shaped.rounded
        flags := valid.shaped.flags
        keys := valid.shaped.keys
        vals := (valid.shaped.vals).trans_eq (List.length_set ..).symm
        written := valid.shaped.written }
  · have same : after.buckets = { h.buckets with
        entry := Function.update h.buckets.entry x (some (key, some value)) } := by
      rw [buckets, entries]
      rfl
    change after.buckets.Sound h.nBuckets _
    rw [same]
    exact replaced

/-! ## `kh_del` and `kh_clear` -/

end MemSim.KHash
