import MemSim.BitUtil

/-!
# First-fit allocation, and how much a bitmap holds

Between calls the bits past the end of a bitmap are set.  From such a bitmap
`CSC369_BitmapAlloc` hands out the smallest clear bit, so that a new bitmap is
used up in order.  A bit count close to 2^64 gets no word, and then no bit.
-/

set_option autoImplicit false

namespace MemSim

open Exec

/-! ## One call -/

/-- A bitmap of a size that has words for all its bits, with the bits past the end
set. -/
structure Bitmap.Padded (bitmap : Bitmap) : Prop where
  nbits_le : bitmap.nbits ≤ 2 ^ 64 - 64
  length_eq : bitmap.words.length = nwordsForNbits bitmap.nbits
  padding : ∀ index, bitmap.nbits ≤ index → index < 64 * bitmap.words.length →
    bitmap.bit index = true

/-- What a call may answer, and leave. -/
structure Bitmap.FirstFit (bitmap : Bitmap) (answer : Option Nat) (after : Bitmap) : Prop where
  full_iff : answer = none ↔ ∀ index < bitmap.nbits, bitmap.bit index = true
  unchanged : answer = none → after = bitmap
  below : ∀ index, answer = some index → index < bitmap.nbits
  clear : ∀ index, answer = some index → bitmap.bit index = false
  smallest : ∀ index, answer = some index → ∀ earlier < index, bitmap.bit earlier = true
  only : ∀ index, answer = some index →
    ∀ other, after.bit other = (decide (other = index) || bitmap.bit other)
  nbits : after.nbits = bitmap.nbits
  padded : after.Padded

section Call
variable {bitmap : Bitmap}

theorem Bitmap.padded_iff : bitmap.Padded ↔ bitmap.nbits ≤ 2 ^ 64 - 64 ∧ bitmap.Shaped := by
  constructor
  · intro padded
    refine ⟨padded.nbits_le, padded.length_eq, ?_⟩
    rw [bitmapCapacity_fits padded.nbits_le]
    exact padded.padding
  · intro both
    obtain ⟨fits, shaped⟩ := both
    have padding := shaped.padding
    rw [bitmapCapacity_fits fits] at padding
    exact ⟨fits, shaped.length_eq, padding⟩

theorem Bitmap.Padded.firstClear_eq_none (padded : bitmap.Padded) :
    bitmap.firstClear = none ↔ ∀ index < bitmap.nbits, bitmap.bit index = true := by
  have capacity := (padded_iff.mp padded).2.capacity_le
  rw [bitmapCapacity_fits padded.nbits_le] at capacity
  rw [Bitmap.firstClear_eq_none]
  constructor
  · intro all index below
    exact all index (Nat.lt_of_lt_of_le below capacity)
  · intro all index inside
    rcases Nat.lt_or_ge index bitmap.nbits with below | past
    · exact all index below
    · exact padded.padding index past inside

theorem bitmapAlloc_firstFit (padded : bitmap.Padded) : ∃ answer after,
    bitmapAlloc.run bitmap = .ok answer after ∧ bitmap.FirstFit answer after := by
  obtain ⟨fits, shaped⟩ := Bitmap.padded_iff.mp padded
  rcases bitmapAlloc_spec shaped with ⟨index, below, first, run⟩ | ⟨none', run⟩
  · rw [bitmapCapacity_fits fits] at below
    obtain ⟨inside, clear, before⟩ := Bitmap.firstClear_eq_some.mp first
    refine ⟨some index, bitmap.setBit index, run, ?_⟩
    refine
      { full_iff := ?_
        unchanged := fun same => by contradiction
        below := ?_
        clear := ?_
        smallest := ?_
        only := ?_
        nbits := Bitmap.nbits_setBit index
        padded := Bitmap.padded_iff.mpr ⟨fits, shaped.setBit inside⟩ }
    · constructor
      · intro same
        contradiction
      · intro all
        rw [all index below] at clear
        contradiction
    · intro other same
      cases same
      exact below
    · intro other same
      cases same
      exact clear
    · intro other same
      cases same
      exact before
    · intro other same
      cases same
      exact Bitmap.bit_setBit inside
  · refine ⟨none, bitmap, run, ?_⟩
    refine
      { full_iff := ?_
        unchanged := fun _ => rfl
        below := fun index same => by contradiction
        clear := fun index same => by contradiction
        smallest := fun index same => by contradiction
        only := fun index same => by contradiction
        nbits := rfl
        padded := padded }
    exact ⟨fun _ => padded.firstClear_eq_none.mp none', fun _ => rfl⟩

end Call

/-! ## Creation -/

section Creation
variable (env : Env)

theorem bitmapCreate_padded {bitCount : Nat} (fits : bitCount ≤ 2 ^ 64 - 64)
    (struct : env.calloc 1 16 = true) (words : env.calloc (nwordsForNbits bitCount) 8 = true) :
    ∃ bitmap, bitmapCreate env bitCount = .ok (some bitmap) ∧ bitmap.nbits = bitCount ∧
      bitmap.Padded ∧ ∀ index < bitCount, bitmap.bit index = false := by
  obtain ⟨bitmap, create, nbits, shaped, clear⟩ :=
    bitmapCreate_spec env (by omega : bitCount < 2 ^ 64) struct words
  rw [bitmapCapacity_fits fits] at clear
  exact ⟨bitmap, create, nbits, Bitmap.padded_iff.mpr ⟨nbits ▸ fits, shaped⟩, clear⟩

/-- `CSC369_BitmapAlloc` is first-fit on every bitmap of the shape, which
`CSC369_BitmapCreate` establishes and every call keeps. -/
theorem bitmapAlloc_exact_first_fit :
    (∀ bitmap : Bitmap, bitmap.Padded → ∃ answer after,
      bitmapAlloc.run bitmap = .ok answer after ∧ bitmap.FirstFit answer after) ∧
    ∀ bitCount ≤ 2 ^ 64 - 64, env.calloc 1 16 = true →
      env.calloc (nwordsForNbits bitCount) 8 = true → ∃ bitmap,
        bitmapCreate env bitCount = .ok (some bitmap) ∧ bitmap.nbits = bitCount ∧
          bitmap.Padded ∧ ∀ index < bitCount, bitmap.bit index = false :=
  ⟨fun _ padded => bitmapAlloc_firstFit padded,
    fun _ fits struct words => bitmapCreate_padded env fits struct words⟩

theorem bitmapAlloc_exact_first_fit_three : ∃ bitmap answer after,
    bitmapCreate (Env.ideal 1) 3 = .ok (some bitmap) ∧ bitmap.Padded ∧
      bitmapAlloc.run bitmap = .ok answer after ∧ bitmap.FirstFit answer after := by
  obtain ⟨calls, creates⟩ := bitmapAlloc_exact_first_fit (Env.ideal 1)
  obtain ⟨bitmap, create, -, padded, -⟩ := creates 3 (by decide) (by decide) (by decide)
  obtain ⟨answer, after, run, firstFit⟩ := calls bitmap padded
  exact ⟨bitmap, answer, after, create, padded, run, firstFit⟩

end Creation

/-! ## As many calls as there are bits -/

def bitmapAllocs (calls : Nat) : Exec Bitmap (List (Option Nat)) :=
  runAll (fun _ : Unit => bitmapAlloc) (List.replicate calls ())

section Calls
variable {bitmap : Bitmap}

/-- The bits before `used` are set, and those from there to the end are clear. -/
structure Bitmap.UsedUpTo (bitmap : Bitmap) (used : Nat) : Prop where
  padded : bitmap.Padded
  set : ∀ index < used, bitmap.bit index = true
  clear : ∀ index, used ≤ index → index < bitmap.nbits → bitmap.bit index = false

theorem bitmapAlloc_next {used : Nat} (usedUpTo : bitmap.UsedUpTo used)
    (room : used < bitmap.nbits) : ∃ after, bitmapAlloc.run bitmap = .ok (some used) after ∧
      after.UsedUpTo (used + 1) ∧ after.nbits = bitmap.nbits := by
  obtain ⟨answer, after, run, firstFit⟩ := bitmapAlloc_firstFit usedUpTo.padded
  have clearHere := usedUpTo.clear used (Nat.le_refl _) room
  cases answer with
  | none =>
      rw [firstFit.full_iff.mp rfl used room] at clearHere
      contradiction
  | some index =>
      have same : index = used := by
        rcases Nat.lt_trichotomy index used with before | same | later
        · have clear := firstFit.clear index rfl
          rw [usedUpTo.set index before] at clear
          contradiction
        · exact same
        · rw [firstFit.smallest index rfl used later] at clearHere
          contradiction
      rw [same] at run firstFit
      refine ⟨after, run, ⟨firstFit.padded, ?_, ?_⟩, firstFit.nbits⟩
      · intro other before
        rw [firstFit.only used rfl]
        rcases Nat.eq_or_lt_of_le (Nat.le_of_lt_succ before) with rfl | earlier
        · rw [decide_eq_true rfl, Bool.true_or]
        · rw [usedUpTo.set other earlier, Bool.or_true]
      · intro other later below
        have apart : other ≠ used := by omega
        rw [firstFit.nbits] at below
        rw [firstFit.only used rfl, decide_eq_false apart, Bool.false_or]
        exact usedUpTo.clear other (by omega) below

theorem bitmapAllocs_in_order {used calls : Nat} (usedUpTo : bitmap.UsedUpTo used)
    (room : used + calls ≤ bitmap.nbits) : ∃ after,
      (bitmapAllocs calls).run bitmap = .ok ((List.range' used calls).map some) after ∧
        after.UsedUpTo (used + calls) ∧ after.nbits = bitmap.nbits := by
  induction calls generalizing bitmap used with
  | zero => exact ⟨bitmap, rfl, usedUpTo, rfl⟩
  | succ calls ih =>
      obtain ⟨middle, run, usedMiddle, nbits⟩ := bitmapAlloc_next usedUpTo (by omega)
      obtain ⟨after, rest, usedAfter, nbits'⟩ := ih usedMiddle (by omega)
      refine ⟨after, ?_, ?_, nbits'.trans nbits⟩
      · rw [bitmapAllocs, List.replicate_succ,
          run_runAll_cons_of_ok (fun _ : Unit => bitmapAlloc) run]
        rw [bitmapAllocs] at rest
        rw [rest, List.range'_succ, List.map_cons]
      · rw [← Nat.add_assoc, Nat.add_right_comm]
        exact usedAfter

theorem bitmapAlloc_used_up (usedUpTo : bitmap.UsedUpTo bitmap.nbits) :
    bitmapAlloc.run bitmap = .ok none bitmap := by
  obtain ⟨answer, after, run, firstFit⟩ := bitmapAlloc_firstFit usedUpTo.padded
  have full := firstFit.full_iff.mpr usedUpTo.set
  rw [run, full, firstFit.unchanged full]

end Calls

/-! ## What `CSC369_BitmapCreate` promises -/

section Promise
variable (env : Env) (bitCount : Nat)

/-- The bitmap has room for its bits, and exactly so many calls succeed. -/
structure Bitmap.Holds (bitmap : Bitmap) : Prop where
  room : bitCount ≤ 64 * bitmap.words.length
  calls : ∃ answers after, (bitmapAllocs bitCount).run bitmap = .ok answers after ∧
    (∀ answer ∈ answers, answer.isSome) ∧ bitmapAlloc.run after = .ok none after

/-- `NULL`, or a bitmap that holds what it was created for. -/
def KeepsCapacity : Prop :=
  bitmapCreate env bitCount = .ok none ∨
    ∃ bitmap, bitmapCreate env bitCount = .ok (some bitmap) ∧ bitmap.Holds bitCount

variable {bitCount}

theorem bitmapCreate_refused
    (refused : env.calloc 1 16 = false ∨ env.calloc (nwordsForNbits bitCount) 8 = false) :
    bitmapCreate env bitCount = .ok none := by
  have notBoth : (!(env.calloc 1 16 && env.calloc (nwordsForNbits bitCount) 8)) = true := by
    rcases refused with struct | words
    · rw [struct]
      rfl
    · rw [words, Bool.and_false]
      rfl
  simp only [bitmapCreate, notBoth, if_true]
  rfl

theorem keepsCapacity_of_fits (fits : bitCount ≤ 2 ^ 64 - 64) : KeepsCapacity env bitCount := by
  cases struct : env.calloc 1 16 with
  | false => exact .inl (bitmapCreate_refused env (.inl struct))
  | true =>
      cases words : env.calloc (nwordsForNbits bitCount) 8 with
      | false => exact .inl (bitmapCreate_refused env (.inr words))
      | true =>
          obtain ⟨bitmap, create, nbits, padded, clear⟩ :=
            bitmapCreate_padded env fits struct words
          have unused : bitmap.UsedUpTo 0 :=
            ⟨padded, fun _ none' => absurd none' (Nat.not_lt_zero _),
              fun index _ below => clear index (nbits ▸ below)⟩
          obtain ⟨after, run, usedUp, nbits'⟩ :=
            bitmapAllocs_in_order unused (by omega : 0 + bitCount ≤ bitmap.nbits)
          have capacity := (Bitmap.padded_iff.mp padded).2.capacity_le
          rw [bitmapCapacity_fits padded.nbits_le, nbits] at capacity
          rw [Nat.zero_add, ← nbits, ← nbits'] at usedUp
          refine .inr ⟨bitmap, create, capacity, _, after, run, ?_, bitmapAlloc_used_up usedUp⟩
          intro answer member
          obtain ⟨index, -, rfl⟩ := List.mem_map.mp member
          rfl

theorem not_keepsCapacity (large : 2 ^ 64 - 64 < bitCount) (bound : bitCount < 2 ^ 64)
    (struct : env.calloc 1 16 = true) (words : env.calloc 0 8 = true) :
    ¬ KeepsCapacity env bitCount := by
  intro keeps
  have noWords := nwordsForNbits_wraps large bound
  obtain ⟨bitmap, create, nbits, shaped, -⟩ :=
    bitmapCreate_spec env bound struct (by rwa [noWords])
  rcases keeps with none' | ⟨bitmap', create', holds⟩
  · cases create.symm.trans none'
  · cases create.symm.trans create'
    have room := holds.room
    rw [shaped.length_eq, nbits, noWords] at room
    omega

/-- The promise is kept for every size up to `2 ^ 64 - 64`; a larger one gets a
bitmap without words, unless memory is refused. -/
theorem bitmapCreate_keeps_capacity_iff (bound : bitCount < 2 ^ 64) :
    KeepsCapacity env bitCount ↔
      bitCount ≤ 2 ^ 64 - 64 ∨ env.calloc 1 16 = false ∨ env.calloc 0 8 = false := by
  rcases Nat.lt_or_ge (2 ^ 64 - 64) bitCount with large | fits
  · constructor
    · intro keeps
      right
      by_contra granted
      rw [not_or, Bool.not_eq_false, Bool.not_eq_false] at granted
      exact not_keepsCapacity env large bound granted.1 granted.2 keeps
    · intro condition
      have noWords := nwordsForNbits_wraps large bound
      rcases condition with small | refused
      · omega
      · exact .inl (bitmapCreate_refused env (by rwa [noWords]))
  · exact ⟨fun _ => .inl fits, fun _ => keepsCapacity_of_fits env fits⟩

theorem bitmapCreate_keeps_capacity_iff_five :
    5 < 2 ^ 64 ∧ (KeepsCapacity (Env.ideal 1) 5 ↔ 5 ≤ 2 ^ 64 - 64 ∨
      (Env.ideal 1).calloc 1 16 = false ∨ (Env.ideal 1).calloc 0 8 = false) :=
  ⟨by decide, bitmapCreate_keeps_capacity_iff (Env.ideal 1) (by decide)⟩

/-- The largest size that the command line can give. -/
theorem bitmapCreate_breaks_promise : ¬ KeepsCapacity (Env.ideal 1) (2 ^ 64 - 1) :=
  not_keepsCapacity (Env.ideal 1) (by decide) (by decide) rfl rfl

end Promise

end MemSim
