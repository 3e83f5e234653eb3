import MemSim.Def

/-!
# The bitmap of the swap space

`csc369_bitutil.c`: an array of 64-bit words, one bit for each slot of the swap
file, with the bits past the end marked in use when the bitmap is created.
Allocation is first-fit.  `nwords_for_nbits` computes in `size_t`, so that a bit
count close to 2^64 is given no word at all.
-/

set_option autoImplicit false

namespace MemSim

open Exec

structure Bitmap where
  nbits : Nat
  words : List (BitVec 64)
  deriving DecidableEq

def bitsPerWord : Nat := 64

def wordAllBits : BitVec 64 := BitVec.allOnes 64

/-- The sum is a `size_t`. -/
def nwordsForNbits (nbits : Nat) : Nat := (nbits + bitsPerWord - 1) % 2 ^ 64 / bitsPerWord

/-- `(size_t)1 << offset` -/
def bitMask (offset : Nat) : BitVec 64 := BitVec.twoPow 64 offset

/-- The loop that marks the bits from `overbits` on. -/
def markLeftover (word : BitVec 64) (overbits : Nat) : BitVec 64 :=
  (List.range' overbits (bitsPerWord - overbits)).foldl (fun word j => word ||| bitMask j) word

variable (env : Env)

/-- `CSC369_BitmapCreate`. -/
def bitmapCreate (bitCount : Nat) : Except Fault (Option Bitmap) := do
  let wordCount := nwordsForNbits bitCount
  if !(env.calloc 1 16 && env.calloc wordCount 8) then return none
  let words := List.replicate wordCount 0#64
  -- mark any leftover bits at the end in use
  if wordCount > bitCount / bitsPerWord then
    let idx := wordCount - 1
    let overbits := bitCount - idx * bitsPerWord
    if bitCount / bitsPerWord ≠ wordCount - 1 ∨ ¬ (0 < overbits ∧ overbits < bitsPerWord) then
      throw (.failed .overbits)
    return some ⟨bitCount, words.modify idx fun word => markLeftover word overbits⟩
  return some ⟨bitCount, words⟩

/-- The inner loop of `CSC369_BitmapAlloc`: the first clear bit among `count` bits
from `offset` on. -/
def clearBitFrom (word : BitVec 64) : (offset count : Nat) → Option Nat
  | _, 0 => none
  | offset, count + 1 =>
      if word &&& bitMask offset = 0#64 then some offset
      else clearBitFrom word (offset + 1) count

/-- The outer loop, over `count` words from `idx` on. -/
def bitmapAllocFrom : (idx count : Nat) → Exec Bitmap (Option Nat)
  | _, 0 => pure none
  | idx, count + 1 => do
      let bitmap ← get
      match bitmap.words[idx]? with
      | none => stop .outOfBounds
      | some word =>
          if word ≠ wordAllBits then
            match clearBitFrom word 0 bitsPerWord with
            | none => stop (.failed .wordNotFull)
            | some offset => do
                set { bitmap with words := bitmap.words.set idx (word ||| bitMask offset) }
                require (idx * bitsPerWord + offset < bitmap.nbits) (.failed .bitIndex)
                pure (some (idx * bitsPerWord + offset))
          else bitmapAllocFrom (idx + 1) count

/-- `CSC369_BitmapAlloc`: the index it stores on success, or `none` when it
returns -1. -/
def bitmapAlloc : Exec Bitmap (Option Nat) := do
  let bitmap ← get
  bitmapAllocFrom 0 (nwordsForNbits bitmap.nbits)

/-! ## Bits -/

/-- Bit number `index` of the word array. -/
def Bitmap.bit (bitmap : Bitmap) (index : Nat) : Bool :=
  (bitmap.words.getD (index / 64) 0#64).getLsbD (index % 64)

def Bitmap.setBit (bitmap : Bitmap) (index : Nat) : Bitmap :=
  { bitmap with
    words := bitmap.words.modify (index / 64) fun word => word ||| bitMask (index % 64) }

/-- Number of slots that can ever be handed out by a bitmap created for `nbits`. -/
def bitmapCapacity (nbits : Nat) : Nat := if nbits ≤ 2 ^ 64 - 64 then nbits else 0

/-- The shape `CSC369_BitmapCreate` gives a bitmap and allocation preserves. -/
structure Bitmap.Shaped (bitmap : Bitmap) : Prop where
  length_eq : bitmap.words.length = nwordsForNbits bitmap.nbits
  padding : ∀ index, bitmapCapacity bitmap.nbits ≤ index → index < 64 * bitmap.words.length →
    bitmap.bit index = true

theorem nwordsForNbits_fits {nbits : Nat} (fits : nbits ≤ 2 ^ 64 - 64) :
    nwordsForNbits nbits = (nbits + 63) / 64 := by
  have small : nbits + 63 < 2 ^ 64 := by omega
  simp only [nwordsForNbits, bitsPerWord]
  rw [show nbits + 64 - 1 = nbits + 63 from rfl, Nat.mod_eq_of_lt small]

theorem nwordsForNbits_wraps {nbits : Nat} (large : 2 ^ 64 - 64 < nbits) (bound : nbits < 2 ^ 64) :
    nwordsForNbits nbits = 0 := by
  simp only [nwordsForNbits, bitsPerWord]
  omega

theorem getLsbD_bitMask {offset : Nat} (bound : offset < 64) (index : Nat) :
    (bitMask offset).getLsbD index = decide (index = offset) := by
  simp only [bitMask, BitVec.getLsbD_twoPow, bound, decide_true, Bool.true_and]
  exact decide_eq_decide.mpr eq_comm

theorem clear_iff {word : BitVec 64} {offset : Nat} (bound : offset < 64) :
    word &&& bitMask offset = 0#64 ↔ word.getLsbD offset = false := by
  constructor
  · intro clear
    have here := congrArg (fun w => BitVec.getLsbD w offset) clear
    simpa [BitVec.getLsbD_and, getLsbD_bitMask bound] using here
  · intro clear
    refine BitVec.eq_of_getLsbD_eq fun index _ => ?_
    rw [BitVec.getLsbD_and, getLsbD_bitMask bound]
    by_cases same : index = offset
    · simp [same, clear]
    · simp [same]

theorem clearBitFrom_eq_some {word : BitVec 64} {offset count found : Nat}
    (bound : offset + count ≤ 64) (search : clearBitFrom word offset count = some found) :
    offset ≤ found ∧ found < offset + count ∧ word.getLsbD found = false ∧
      ∀ index, offset ≤ index → index < found → word.getLsbD index = true := by
  induction count generalizing offset with
  | zero => simp [clearBitFrom] at search
  | succ count ih =>
      rw [clearBitFrom] at search
      split at search
      · rename_i clear
        cases Option.some.inj search
        exact ⟨Nat.le_refl _, by omega, (clear_iff (by omega)).mp clear, by omega⟩
      · rename_i taken
        obtain ⟨lower, upper, clear, before⟩ := ih (by omega) search
        refine ⟨by omega, by omega, clear, ?_⟩
        intro index atLeast below
        rcases Nat.eq_or_lt_of_le atLeast with rfl | later
        · simpa using fun clear => taken ((clear_iff (by omega)).mpr clear)
        · exact before index later below

theorem clearBitFrom_eq_none {word : BitVec 64} {offset count : Nat}
    (bound : offset + count ≤ 64) (search : clearBitFrom word offset count = none) :
    ∀ index, offset ≤ index → index < offset + count → word.getLsbD index = true := by
  induction count generalizing offset with
  | zero => omega
  | succ count ih =>
      rw [clearBitFrom] at search
      split at search
      · contradiction
      · rename_i taken
        intro index atLeast below
        rcases Nat.eq_or_lt_of_le atLeast with rfl | later
        · simpa using fun clear => taken ((clear_iff (by omega)).mpr clear)
        · exact ih (by omega) search index later (by omega)

theorem eq_wordAllBits_iff {word : BitVec 64} :
    word = wordAllBits ↔ ∀ index < 64, word.getLsbD index = true := by
  constructor
  · rintro rfl index bound
    rw [wordAllBits, BitVec.getLsbD_allOnes, decide_eq_true bound]
  · intro all
    refine BitVec.eq_of_getLsbD_eq fun index bound => ?_
    rw [all index bound, wordAllBits, BitVec.getLsbD_allOnes, decide_eq_true bound]

/-! ## Allocation is first-fit -/

section Alloc
variable {bitmap : Bitmap}

theorem Bitmap.bit_word {idx : Nat} {word : BitVec 64} (here : bitmap.words[idx]? = some word)
    {offset : Nat} (bound : offset < 64) : bitmap.bit (idx * 64 + offset) = word.getLsbD offset := by
  have quotient : (idx * 64 + offset) / 64 = idx := by omega
  have rest : (idx * 64 + offset) % 64 = offset := by omega
  simp [Bitmap.bit, quotient, rest, List.getD_eq_getElem?_getD, here]

theorem Bitmap.setBit_word {idx : Nat} {word : BitVec 64} (here : bitmap.words[idx]? = some word)
    {offset : Nat} (bound : offset < 64) :
    { bitmap with words := bitmap.words.set idx (word ||| bitMask offset) } =
      bitmap.setBit (idx * 64 + offset) := by
  have quotient : (idx * 64 + offset) / 64 = idx := by omega
  have rest : (idx * 64 + offset) % 64 = offset := by omega
  obtain ⟨inside, rfl⟩ := List.getElem?_eq_some_iff.mp here
  simp [Bitmap.setBit, quotient, rest, List.modify_eq_set_getElem?, here]

@[simp] theorem Bitmap.nbits_setBit (index : Nat) : (bitmap.setBit index).nbits = bitmap.nbits :=
  rfl

@[simp] theorem Bitmap.length_setBit (index : Nat) :
    (bitmap.setBit index).words.length = bitmap.words.length := by
  simp [Bitmap.setBit]

theorem Bitmap.bit_setBit {index : Nat} (inside : index < 64 * bitmap.words.length) (other : Nat) :
    (bitmap.setBit index).bit other = (decide (other = index) || bitmap.bit other) := by
  have word : index / 64 < bitmap.words.length := by omega
  have offset : index % 64 < 64 := Nat.mod_lt _ (by decide)
  simp only [Bitmap.bit, Bitmap.setBit, List.getD_eq_getElem?_getD, List.getElem?_modify]
  by_cases sameWord : index / 64 = other / 64
  · have here : bitmap.words[other / 64]? = some (bitmap.words.get ⟨index / 64, word⟩) := by
      rw [← sameWord]
      simp
    have apart : other % 64 = index % 64 ↔ other = index := by omega
    simp [sameWord, here, BitVec.getLsbD_or, getLsbD_bitMask offset, apart, Bool.or_comm]
  · have apart : other ≠ index := fun same => sameWord (by rw [same])
    simp [sameWord, apart]

theorem Bitmap.Shaped.setBit (shaped : bitmap.Shaped) {index : Nat}
    (inside : index < 64 * bitmap.words.length) : (bitmap.setBit index).Shaped where
  length_eq := by simp [shaped.length_eq]
  padding := by
    intro other above below
    rw [Bitmap.bit_setBit inside, shaped.padding other above (by simpa using below), Bool.or_true]

theorem Bitmap.Shaped.capacity_le (shaped : bitmap.Shaped) :
    bitmapCapacity bitmap.nbits ≤ 64 * bitmap.words.length := by
  rw [shaped.length_eq]
  unfold bitmapCapacity
  split
  · rename_i fits
    rw [nwordsForNbits_fits fits]
    omega
  · exact Nat.zero_le _

theorem bitmapCapacity_fits {nbits : Nat} (fits : nbits ≤ 2 ^ 64 - 64) :
    bitmapCapacity nbits = nbits := if_pos fits

theorem bitmapCapacity_le (nbits : Nat) : bitmapCapacity nbits ≤ nbits := by
  unfold bitmapCapacity
  split
  · exact Nat.le_refl nbits
  · exact Nat.zero_le _

theorem bitmapAllocFrom_spec (shaped : bitmap.Shaped) {idx count : Nat}
    (whole : idx + count = bitmap.words.length)
    (before : ∀ index < 64 * idx, bitmap.bit index = true) :
    (∃ index < bitmapCapacity bitmap.nbits, bitmap.bit index = false ∧
      (∀ earlier < index, bitmap.bit earlier = true) ∧
      (bitmapAllocFrom idx count).run bitmap = .ok (some index) (bitmap.setBit index)) ∨
    ((∀ index < 64 * bitmap.words.length, bitmap.bit index = true) ∧
      (bitmapAllocFrom idx count).run bitmap = .ok none bitmap) := by
  induction count generalizing idx with
  | zero =>
      right
      refine ⟨fun index bound => before index (by omega), ?_⟩
      rfl
  | succ count ih =>
      have inside : idx < bitmap.words.length := by omega
      obtain ⟨word, here⟩ : ∃ word, bitmap.words[idx]? = some word :=
        ⟨_, List.getElem?_eq_getElem inside⟩
      by_cases full : word = wordAllBits
      · have skip : (bitmapAllocFrom idx (count + 1)).run bitmap =
            (bitmapAllocFrom (idx + 1) count).run bitmap := by
          simp [bitmapAllocFrom, here, full]
        have before' : ∀ index < 64 * (idx + 1), bitmap.bit index = true := by
          intro index bound
          rcases Nat.lt_or_ge index (64 * idx) with earlier | later
          · exact before index earlier
          · have offset : index - 64 * idx < 64 := by omega
            have split : index = idx * 64 + (index - 64 * idx) := by omega
            rw [split, Bitmap.bit_word here offset]
            exact eq_wordAllBits_iff.mp full _ offset
        rw [skip]
        exact ih (by omega) before'
      · left
        cases search : clearBitFrom word 0 bitsPerWord with
        | none =>
            have all := clearBitFrom_eq_none (by simp [bitsPerWord]) search
            exact absurd (eq_wordAllBits_iff.mpr fun index bound =>
              all index (Nat.zero_le _) (by simpa [bitsPerWord] using bound)) full
        | some offset =>
            obtain ⟨-, bound, clear, firstClear⟩ :=
              clearBitFrom_eq_some (by simp [bitsPerWord]) search
            have bound : offset < 64 := by simpa [bitsPerWord] using bound
            have clearHere : bitmap.bit (idx * 64 + offset) = false := by
              rw [Bitmap.bit_word here bound, clear]
            have below : idx * 64 + offset < bitmapCapacity bitmap.nbits := by
              by_contra above
              have set := shaped.padding _ (Nat.le_of_not_lt above) (by omega)
              rw [clearHere] at set
              contradiction
            have index : idx * 64 + offset < bitmap.nbits :=
              Nat.lt_of_lt_of_le below (bitmapCapacity_le bitmap.nbits)
            refine ⟨idx * 64 + offset, below, clearHere, ?_, ?_⟩
            · intro earlier earlierBound
              rcases Nat.lt_or_ge earlier (64 * idx) with before' | later
              · exact before earlier before'
              · have split : earlier = idx * 64 + (earlier - 64 * idx) := by omega
                rw [split, Bitmap.bit_word here (by omega)]
                exact firstClear _ (Nat.zero_le _) (by omega)
            · rw [← Bitmap.setBit_word here bound]
              have index64 : idx * 64 + offset < bitmap.nbits := index
              have search64 : clearBitFrom word 0 64 = some offset := search
              simp [bitmapAllocFrom, here, full, search64, bitsPerWord, index64]

def Bitmap.firstClear (bitmap : Bitmap) : Option Nat :=
  (List.range (64 * bitmap.words.length)).find? fun index => !bitmap.bit index

theorem Bitmap.firstClear_eq_some {index : Nat} :
    bitmap.firstClear = some index ↔ index < 64 * bitmap.words.length ∧
      bitmap.bit index = false ∧ ∀ earlier < index, bitmap.bit earlier = true := by
  simp only [Bitmap.firstClear, List.find?_range_eq_some, List.mem_range, Bool.not_eq_true',
    Bool.not_not]
  exact ⟨fun ⟨clear, inside, before⟩ => ⟨inside, clear, before⟩,
    fun ⟨inside, clear, before⟩ => ⟨clear, inside, before⟩⟩

theorem Bitmap.firstClear_eq_none :
    bitmap.firstClear = none ↔ ∀ index < 64 * bitmap.words.length, bitmap.bit index = true := by
  simp [Bitmap.firstClear]

/-- Allocation returns the smallest clear bit and sets it, or returns -1 when
there is none. -/
theorem bitmapAlloc_spec (shaped : bitmap.Shaped) :
    (∃ index < bitmapCapacity bitmap.nbits, bitmap.firstClear = some index ∧
      bitmapAlloc.run bitmap = .ok (some index) (bitmap.setBit index)) ∨
    (bitmap.firstClear = none ∧ bitmapAlloc.run bitmap = .ok none bitmap) := by
  have run : bitmapAlloc.run bitmap =
      (bitmapAllocFrom 0 bitmap.words.length).run bitmap := by
    simp [bitmapAlloc, shaped.length_eq]
  rw [run]
  have search := @bitmapAllocFrom_spec bitmap shaped 0 bitmap.words.length (by simp) (by simp)
  rcases search with ⟨index, below, clear, before, result⟩ | ⟨full, result⟩
  · have inside := Nat.lt_of_lt_of_le below shaped.capacity_le
    exact .inl ⟨index, below, Bitmap.firstClear_eq_some.mpr ⟨inside, clear, before⟩, result⟩
  · exact .inr ⟨Bitmap.firstClear_eq_none.mpr full, result⟩

end Alloc

/-! ## Creation -/

theorem getLsbD_markLeftover (word : BitVec 64) (overbits index : Nat) :
    (markLeftover word overbits).getLsbD index =
      (word.getLsbD index || (decide (overbits ≤ index) && decide (index < 64))) := by
  have fold : ∀ (count first : Nat) (word : BitVec 64), first + count ≤ 64 →
      ((List.range' first count).foldl (fun word j => word ||| bitMask j) word).getLsbD index =
        (word.getLsbD index || (decide (first ≤ index) && decide (index < first + count))) := by
    intro count
    induction count with
    | zero =>
        intro first word _
        have empty : ¬ (first ≤ index ∧ index < first + 0) := by omega
        simp only [List.range'_zero, List.foldl_nil, ← Bool.decide_and, empty, decide_false,
          Bool.or_false]
    | succ count ih =>
        intro first word bound
        rw [List.range'_succ, List.foldl_cons, ih (first + 1) _ (by omega), BitVec.getLsbD_or,
          getLsbD_bitMask (by omega), Bool.or_assoc]
        congr 1
        by_cases here : index = first
        · simp [here]
        · have lower : first ≤ index ↔ first + 1 ≤ index := by omega
          have upper : index < first + 1 + count ↔ index < first + (count + 1) := by omega
          simp [here, lower, upper]
  rcases Nat.lt_or_ge overbits 64 with small | large
  · rw [markLeftover, fold _ _ _ (by simp only [bitsPerWord]; omega)]
    have whole : overbits + (bitsPerWord - overbits) = 64 := by
      simp only [bitsPerWord]
      omega
    rw [whole]
  · have none' : bitsPerWord - overbits = 0 := Nat.sub_eq_zero_of_le large
    by_cases high : overbits ≤ index
    · simp [markLeftover, none', high, Nat.not_lt.mpr (Nat.le_trans large high)]
    · simp [markLeftover, none', high]

theorem bit_replicate (nbits count index : Nat) :
    (⟨nbits, List.replicate count 0#64⟩ : Bitmap).bit index = false := by
  simp only [Bitmap.bit, List.getD_eq_getElem?_getD, List.getElem?_replicate]
  split <;> simp

theorem bit_leftover (nbits : Nat) {count overbits : Nat} (some' : 0 < count) (bound : overbits < 64)
    (index : Nat) :
    (⟨nbits, (List.replicate count 0#64).modify (count - 1)
        fun word => markLeftover word overbits⟩ : Bitmap).bit index =
      decide ((count - 1) * 64 + overbits ≤ index ∧ index < 64 * count) := by
  simp only [Bitmap.bit, List.getD_eq_getElem?_getD, List.getElem?_modify, List.getElem?_replicate]
  by_cases last : count - 1 = index / 64
  · have inside : index / 64 < count := by omega
    have above : overbits ≤ index % 64 ↔ (count - 1) * 64 + overbits ≤ index := by omega
    have below : index < 64 * count := by omega
    have offset : index % 64 < 64 := Nat.mod_lt _ (by decide)
    simp only [if_pos last, if_pos inside, Option.map_eq_map, Option.map_some, Option.getD_some,
      getLsbD_markLeftover]
    simp [above, below, offset]
  · have outside : ¬ ((count - 1) * 64 + overbits ≤ index ∧ index < 64 * count) := by omega
    rw [decide_eq_false outside]
    by_cases inside : index / 64 < count <;> simp [last, inside]

theorem bitmapCreate_spec {bitCount : Nat} (bound : bitCount < 2 ^ 64)
    (struct : env.calloc 1 16 = true) (words : env.calloc (nwordsForNbits bitCount) 8 = true) :
    ∃ bitmap, bitmapCreate env bitCount = .ok (some bitmap) ∧ bitmap.nbits = bitCount ∧
      bitmap.Shaped ∧ ∀ index < bitmapCapacity bitCount, bitmap.bit index = false := by
  have granted : (!(env.calloc 1 16 && env.calloc (nwordsForNbits bitCount) 8)) = false := by
    simp [struct, words]
  have noCapacity : 2 ^ 64 - 64 < bitCount → bitmapCapacity bitCount = 0 := fun large =>
    if_neg (Nat.not_le_of_lt large)
  by_cases leftover : nwordsForNbits bitCount > bitCount / bitsPerWord
  · have fits : bitCount ≤ 2 ^ 64 - 64 := by
      by_contra large
      rw [nwordsForNbits_wraps (Nat.lt_of_not_le large) bound] at leftover
      exact Nat.not_lt_zero _ leftover
    have wordCount := nwordsForNbits_fits fits
    have capacity : bitmapCapacity bitCount = bitCount := if_pos fits
    simp only [bitsPerWord] at leftover
    have lastWord : bitCount / 64 = nwordsForNbits bitCount - 1 := by omega
    have overbits : 0 < bitCount - (nwordsForNbits bitCount - 1) * 64 ∧
        bitCount - (nwordsForNbits bitCount - 1) * 64 < 64 := by omega
    have bits := bit_leftover bitCount (Nat.zero_lt_of_lt leftover) overbits.2
    have noFailure : ¬ (bitCount / 64 ≠ nwordsForNbits bitCount - 1 ∨
        ¬ (0 < bitCount - (nwordsForNbits bitCount - 1) * 64 ∧
          bitCount - (nwordsForNbits bitCount - 1) * 64 < 64)) := by
      simp only [lastWord, overbits, ne_eq, not_true, and_self, or_self, not_false_eq_true]
    refine ⟨⟨bitCount, (List.replicate (nwordsForNbits bitCount) 0#64).modify
      (nwordsForNbits bitCount - 1) fun word =>
        markLeftover word (bitCount - (nwordsForNbits bitCount - 1) * 64)⟩,
      ?_, rfl, ⟨by simp, ?_⟩, ?_⟩
    · simp only [bitmapCreate, granted, bitsPerWord, leftover, noFailure, if_true, if_false]
      rfl
    · intro index above below
      simp only [List.length_modify, List.length_replicate] at below
      simp only [capacity] at above
      rw [bits, decide_eq_true_iff]
      omega
    · intro index below
      rw [capacity] at below
      rw [bits, decide_eq_false_iff_not]
      omega
  · refine ⟨⟨bitCount, List.replicate (nwordsForNbits bitCount) 0#64⟩, ?_, rfl, ⟨by simp, ?_⟩,
      fun index _ => bit_replicate _ _ _⟩
    · simp [bitmapCreate, granted, leftover]
      rfl
    · intro index above below
      exfalso
      simp only [List.length_replicate] at above below
      rcases Nat.lt_or_ge (2 ^ 64 - 64) bitCount with large | fits
      · rw [nwordsForNbits_wraps large bound] at below
        omega
      · simp only [bitmapCapacity, fits, if_true, nwordsForNbits_fits fits, bitsPerWord] at *
        omega

end MemSim
