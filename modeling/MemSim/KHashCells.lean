import Mathlib.Data.Nat.Size
import MemSim.KHash

/-!
# Flags and cells of a hash table

The two bits of a bucket in the words of flags, and the sizes that `khash.h`
computes.
-/

set_option autoImplicit false

namespace MemSim

/-! ## Flags -/

/-- Bit number `index` of the words of flags. -/
def flagBit (flag : List (BitVec 32)) (index : Nat) : Bool :=
  (flag.getD (index / 32) 0#32).getLsbD (index % 32)

def flagEmpty (flag : List (BitVec 32)) (i : Nat) : Bool := flagBit flag (2 * i + 1)

def flagDel (flag : List (BitVec 32)) (i : Nat) : Bool := flagBit flag (2 * i)

def flagLive (flag : List (BitVec 32)) (i : Nat) : Bool := !flagEmpty flag i && !flagDel flag i

section Flags
variable {flag : List (BitVec 32)} {i : Nat}

theorem flagEmpty_word :
    flagEmpty flag i = (flag.getD (i / 16) 0#32).getLsbD (2 * (i % 16) + 1) := by
  rw [flagEmpty, flagBit, show (2 * i + 1) / 32 = i / 16 from by omega,
    show (2 * i + 1) % 32 = 2 * (i % 16) + 1 from by omega]

theorem flagDel_word : flagDel flag i = (flag.getD (i / 16) 0#32).getLsbD (2 * (i % 16)) := by
  rw [flagDel, flagBit, show 2 * i / 32 = i / 16 from by omega,
    show 2 * i % 32 = 2 * (i % 16) from by omega]

theorem shift_four : i >>> 4 = i / 16 := Nat.shiftRight_eq_div_pow i 4

theorem mask_shift : (i &&& 0xf) <<< 1 = 2 * (i % 16) := by
  have masked : i &&& 0xf = i % 16 := Nat.and_two_pow_sub_one_eq_mod i 4
  rw [masked, Nat.shiftLeft_eq]
  omega

theorem flagBits_ok (bound : i < 16 * flag.length) :
    flagBits flag i = .ok (flag.getD (i / 16) 0#32 >>> (2 * (i % 16))) := by
  have inside : i / 16 < flag.length := by omega
  rw [flagBits, shift_four, mask_shift, List.getElem?_eq_getElem inside,
    List.getD_eq_getElem?_getD, List.getElem?_eq_getElem inside]
  rfl

theorem and_one (word : BitVec 32) : (word &&& 1#32 != 0#32) = word.getLsbD 0 := by
  rw [show 1#32 = BitVec.twoPow 32 0 from rfl, BitVec.and_twoPow]
  cases word.getLsbD 0 <;> rfl

theorem and_two (word : BitVec 32) : (word &&& 2#32 != 0#32) = word.getLsbD 1 := by
  rw [show 2#32 = BitVec.twoPow 32 1 from rfl, BitVec.and_twoPow]
  cases word.getLsbD 1 <;> rfl

theorem and_three (word : BitVec 32) :
    (word &&& 3#32 != 0#32) = (word.getLsbD 1 || word.getLsbD 0) := by
  have split : word &&& 3#32 = (word &&& 2#32) ||| (word &&& 1#32) := by
    rw [← BitVec.and_or_distrib_left]
    rfl
  rw [split, show 2#32 = BitVec.twoPow 32 1 from rfl, show 1#32 = BitVec.twoPow 32 0 from rfl,
    BitVec.and_twoPow, BitVec.and_twoPow]
  cases word.getLsbD 1 <;> cases word.getLsbD 0 <;> rfl

theorem acIsempty_ok (bound : i < 16 * flag.length) :
    acIsempty flag i = .ok (flagEmpty flag i) := by
  rw [acIsempty, flagBits_ok bound, flagEmpty_word]
  change Except.ok _ = _
  rw [and_two, BitVec.getLsbD_ushiftRight]

theorem acIsdel_ok (bound : i < 16 * flag.length) : acIsdel flag i = .ok (flagDel flag i) := by
  rw [acIsdel, flagBits_ok bound, flagDel_word]
  change Except.ok _ = _
  rw [and_one, BitVec.getLsbD_ushiftRight, Nat.add_zero]

theorem acIseither_ok (bound : i < 16 * flag.length) :
    acIseither flag i = .ok (!flagLive flag i) := by
  rw [acIseither, flagBits_ok bound, flagLive, flagEmpty_word, flagDel_word]
  change Except.ok _ = _
  rw [and_three, BitVec.getLsbD_ushiftRight, BitVec.getLsbD_ushiftRight, Nat.add_zero]
  cases (flag.getD (i / 16) 0#32).getLsbD (2 * (i % 16) + 1) <;>
    cases (flag.getD (i / 16) 0#32).getLsbD (2 * (i % 16)) <;> rfl

/-! ### Changing the bits of a bucket -/

/-- The two bits of bucket `i` after a change, the others being the same. -/
structure FlagChanged (flag flag' : List (BitVec 32)) (i : Nat) (empty del : Bool) : Prop where
  length : flag'.length = flag.length
  empty : flagEmpty flag' = Function.update (flagEmpty flag) i empty
  del : flagDel flag' = Function.update (flagDel flag) i del

theorem FlagChanged.live {flag' : List (BitVec 32)} {empty del : Bool}
    (changed : FlagChanged flag flag' i empty del) :
    flagLive flag' = Function.update (flagLive flag) i (!empty && !del) := by
  funext j
  simp only [flagLive, changed.empty, changed.del, Function.update_apply]
  split <;> rfl

theorem getD_set {word : BitVec 32} (inside : i < flag.length) (j : Nat) :
    (flag.set i word).getD j 0#32 = if j = i then word else flag.getD j 0#32 := by
  rw [List.getD_eq_getElem?_getD, List.getElem?_set]
  by_cases same : i = j
  · subst same
    simp [inside]
  · simp [same, Ne.symm same]

theorem changeFlag_ok (bound : i < 16 * flag.length) {change : BitVec 32 → BitVec 32}
    {empty del : Bool} (word : BitVec 32) (here : flag.getD (i / 16) 0#32 = word)
    (atEmpty : (change word).getLsbD (2 * (i % 16) + 1) = empty)
    (atDel : (change word).getLsbD (2 * (i % 16)) = del)
    (others : ∀ index < 32, index ≠ 2 * (i % 16) + 1 → index ≠ 2 * (i % 16) →
      (change word).getLsbD index = word.getLsbD index) :
    ∃ flag', changeFlag flag i change = .ok flag' ∧ FlagChanged flag flag' i empty del := by
  have inside : i / 16 < flag.length := by omega
  have found : flag[i / 16]? = some word := by
    rw [← here, List.getD_eq_getElem?_getD, List.getElem?_eq_getElem inside]
    rfl
  refine ⟨flag.set (i / 16) (change word), ?_, List.length_set .., ?_, ?_⟩
  · rw [changeFlag, shift_four, found]
    rfl
  · funext j
    rw [flagEmpty_word, getD_set inside, Function.update_apply]
    by_cases same : j = i
    · rw [if_pos same, same, if_pos rfl, atEmpty]
    · rw [if_neg same, flagEmpty_word]
      split
      · rename_i sameWord
        rw [others _ (by omega) (by omega) (by omega), sameWord, here]
      · rfl
  · funext j
    rw [flagDel_word, getD_set inside, Function.update_apply]
    by_cases same : j = i
    · rw [if_pos same, same, if_pos rfl, atDel]
    · rw [if_neg same, flagDel_word]
      split
      · rename_i sameWord
        rw [others _ (by omega) (by omega) (by omega), sameWord, here]
      · rfl

theorem getLsbD_shifted (bits : BitVec 32) (shift index : Nat) (bound : index < 32) :
    (bits <<< shift).getLsbD index = (decide (shift ≤ index) && bits.getLsbD (index - shift)) := by
  rw [BitVec.getLsbD_shiftLeft]
  by_cases before : index < shift
  · simp [before, Nat.not_le.mpr before]
  · simp [before, bound, Nat.le_of_not_lt before]

theorem getLsbD_one (index : Nat) : (1#32).getLsbD index = decide (index = 0) := by
  rw [show 1#32 = BitVec.twoPow 32 0 from rfl, BitVec.getLsbD_twoPow]
  by_cases same : 0 = index
  · simp [← same]
  · simp [same, Ne.symm same]

theorem getLsbD_two (index : Nat) : (2#32).getLsbD index = decide (index = 1) := by
  rw [show 2#32 = BitVec.twoPow 32 1 from rfl, BitVec.getLsbD_twoPow]
  by_cases same : 1 = index
  · simp [← same]
  · simp [same, Ne.symm same]

theorem getLsbD_three (index : Nat) :
    (3#32).getLsbD index = (decide (index = 0) || decide (index = 1)) := by
  rw [show 3#32 = 1#32 ||| 2#32 from rfl, BitVec.getLsbD_or, getLsbD_one, getLsbD_two]

theorem acSetIsemptyFalse_ok (bound : i < 16 * flag.length) :
    ∃ flag', acSetIsemptyFalse flag i = .ok flag' ∧
      FlagChanged flag flag' i false (flagDel flag i) := by
  unfold acSetIsemptyFalse
  rw [mask_shift, flagDel_word]
  refine changeFlag_ok bound _ rfl ?_ ?_ fun index small apart apart' => ?_
  · rw [BitVec.getLsbD_and, BitVec.getLsbD_not, getLsbD_shifted _ _ _ (by omega), getLsbD_two]
    simp
  · rw [BitVec.getLsbD_and, BitVec.getLsbD_not, getLsbD_shifted _ _ _ (by omega), getLsbD_two]
    simp
    omega
  · rw [BitVec.getLsbD_and, BitVec.getLsbD_not, getLsbD_shifted _ _ _ small, getLsbD_two]
    simp
    omega

theorem acSetIsbothFalse_ok (bound : i < 16 * flag.length) :
    ∃ flag', acSetIsbothFalse flag i = .ok flag' ∧ FlagChanged flag flag' i false false := by
  unfold acSetIsbothFalse
  rw [mask_shift]
  refine changeFlag_ok bound _ rfl ?_ ?_ fun index small apart apart' => ?_
  · rw [BitVec.getLsbD_and, BitVec.getLsbD_not, getLsbD_shifted _ _ _ (by omega), getLsbD_three]
    simp
  · rw [BitVec.getLsbD_and, BitVec.getLsbD_not, getLsbD_shifted _ _ _ (by omega), getLsbD_three]
    simp
  · rw [BitVec.getLsbD_and, BitVec.getLsbD_not, getLsbD_shifted _ _ _ small, getLsbD_three]
    simp
    omega

theorem acSetIsdelTrue_ok (bound : i < 16 * flag.length) :
    ∃ flag', acSetIsdelTrue flag i = .ok flag' ∧
      FlagChanged flag flag' i (flagEmpty flag i) true := by
  unfold acSetIsdelTrue
  rw [mask_shift, flagEmpty_word]
  refine changeFlag_ok bound _ rfl ?_ ?_ fun index small apart apart' => ?_
  · rw [BitVec.getLsbD_or, getLsbD_shifted _ _ _ (by omega), getLsbD_one]
    simp
  · rw [BitVec.getLsbD_or, getLsbD_shifted _ _ _ (by omega), getLsbD_one]
    simp
  · rw [BitVec.getLsbD_or, getLsbD_shifted _ _ _ small, getLsbD_one]
    simp
    omega

theorem getLsbD_emptyFlags (index : Nat) :
    emptyFlags.getLsbD index = decide (index % 2 = 1 ∧ index < 32) := by
  by_cases small : index < 32
  · have all : ∀ index < 32, emptyFlags.getLsbD index = decide (index % 2 = 1 ∧ index < 32) := by
      decide
    exact all index small
  · rw [BitVec.getLsbD_of_ge _ _ (Nat.le_of_not_lt small)]
    simp [small]

/-- After `memset` all buckets are empty. -/
theorem flagEmpty_memset {count : Nat} (rest : List (BitVec 32)) (bound : i < 16 * count) :
    flagEmpty (List.replicate count emptyFlags ++ rest) i = true ∧
      flagDel (List.replicate count emptyFlags ++ rest) i = false := by
  have word : (List.replicate count emptyFlags ++ rest).getD (i / 16) 0#32 = emptyFlags := by
    rw [List.getD_eq_getElem?_getD, List.getElem?_append_left (by simp; omega),
      List.getElem?_replicate_of_lt (by omega)]
    rfl
  rw [flagEmpty_word, flagDel_word, word, getLsbD_emptyFlags, getLsbD_emptyFlags]
  constructor
  · exact decide_eq_true (by omega)
  · exact decide_eq_false (by omega)

theorem length_le_fsize {bits : Nat} (enough : 2 ≤ bits) : 2 ^ bits ≤ 16 * acFsize (2 ^ bits) := by
  unfold acFsize
  split
  · omega
  · rename_i large
    have four : 4 ≤ bits := by
      by_contra few
      have small : 2 ^ bits ≤ 2 ^ 3 := Nat.pow_le_pow_right (by decide) (by omega)
      omega
    have dvd : 2 ^ 4 ∣ 2 ^ bits := Nat.pow_dvd_pow 2 four
    rw [shift_four]
    exact (Nat.mul_div_cancel' dvd).ge

end Flags

/-! ## Cells -/

section Cells
variable {α : Type} {cells : List (Option α)} {i count : Nat} {cell : Option α}

/-- The contents of a cell, if it is in the array and was written. -/
def cellAt (cells : List (Option α)) (i : Nat) : Option α := cells[i]?.join

theorem readCell_ok (bound : i < cells.length) : readCell cells i = .ok (cellAt cells i) := by
  rw [readCell, cellAt, List.getElem?_eq_getElem bound]
  rfl

theorem readKey_ok {key : α} (here : cellAt cells i = some key) : readKey cells i = .ok key := by
  have inside : cells[i]? = some (some key) := Option.join_eq_some_iff.mp here
  rw [readKey, readCell, inside]
  rfl

theorem cellAt_set (bound : i < cells.length) (j : Nat) :
    cellAt (cells.set i cell) j = if j = i then cell else cellAt cells j := by
  rw [cellAt, List.getElem?_set]
  by_cases same : i = j
  · subst same
    simp [bound]
  · simp [same, Ne.symm same, cellAt]

theorem writeCell_ok (bound : i < cells.length) :
    writeCell cells i cell = .ok (cells.set i cell) := by
  rw [writeCell, if_pos bound]
  rfl

theorem length_krealloc : (krealloc cells count).length = count := by
  rw [krealloc, List.length_append, List.length_take, List.length_replicate]
  omega

theorem cellAt_krealloc (bound : i < count) : cellAt (krealloc cells count) i = cellAt cells i := by
  rw [cellAt, cellAt, krealloc]
  by_cases old : i < cells.length
  · rw [List.getElem?_append_left (by simp; omega), List.getElem?_take_of_lt bound]
  · rw [List.getElem?_append_right (by simp; omega), List.getElem?_replicate,
      List.getElem?_eq_none (Nat.le_of_not_lt old)]
    split <;> rfl

end Cells

/-! ## Sizes -/

theorem nextBucket_eq {bits step i : Nat} (fits : bits ≤ 32) :
    nextBucket (2 ^ bits - 1) i step = (i + step) % 2 ^ bits := by
  rw [nextBucket, Nat.and_two_pow_sub_one_eq_mod,
    Nat.mod_mod_of_dvd _ (Nat.pow_dvd_pow 2 fits)]

theorem nextStep_eq {step : Nat} (small : step + 1 < 2 ^ 32) : nextStep step = step + 1 :=
  Nat.mod_eq_of_lt small

/-- Bit `i` of the word is set if one of `count` bits from `i` on was. -/
def Smears (word smeared : BitVec 32) (count : Nat) : Prop :=
  ∀ i, smeared.getLsbD i = true ↔ ∃ ahead < count, word.getLsbD (i + ahead) = true

theorem smears_one (word : BitVec 32) : Smears word word 1 := by
  intro i
  constructor
  · exact fun isSet => ⟨0, Nat.one_pos, isSet⟩
  · rintro ⟨ahead, small, isSet⟩
    rwa [Nat.lt_one_iff.mp small] at isSet

theorem Smears.double {word smeared : BitVec 32} {count : Nat}
    (smears : Smears word smeared count) :
    Smears word (smeared ||| smeared >>> count) (2 * count) := by
  intro i
  rw [BitVec.getLsbD_or, BitVec.getLsbD_ushiftRight, Bool.or_eq_true, smears, smears]
  constructor
  · rintro (⟨ahead, small, isSet⟩ | ⟨ahead, small, isSet⟩)
    · exact ⟨ahead, by omega, isSet⟩
    · exact ⟨count + ahead, by omega, by rwa [← Nat.add_assoc, Nat.add_comm i count]⟩
  · rintro ⟨ahead, small, isSet⟩
    rcases Nat.lt_or_ge ahead count with near | far
    · exact .inl ⟨ahead, near, isSet⟩
    · refine .inr ⟨ahead - count, by omega, ?_⟩
      rwa [show count + i + (ahead - count) = i + ahead from by omega]

theorem Smears.all {word smeared : BitVec 32} (smears : Smears word smeared 32) {bits : Nat}
    (lower : bits = 0 ∨ 2 ^ (bits - 1) ≤ word.toNat) (upper : word.toNat < 2 ^ bits) :
    smeared.toNat = 2 ^ bits - 1 := by
  apply Nat.eq_of_testBit_eq
  intro i
  rw [Nat.testBit_two_pow_sub_one, Bool.eq_iff_iff, decide_eq_true_iff]
  change smeared.getLsbD i = true ↔ _
  rw [smears]
  constructor
  · rintro ⟨ahead, -, isSet⟩
    have atLeast : 2 ^ (i + ahead) ≤ word.toNat := Nat.ge_two_pow_of_testBit isSet
    have below := (Nat.pow_lt_pow_iff_right (by decide)).mp (Nat.lt_of_le_of_lt atLeast upper)
    omega
  · intro below
    have atLeast : 2 ^ i ≤ word.toNat := by
      refine Nat.le_trans (Nat.pow_le_pow_right (by decide) ?_) (lower.resolve_left (by omega))
      omega
    obtain ⟨top, above, isSet⟩ := Nat.exists_ge_and_testBit_of_ge_two_pow atLeast
    have inWord : top < 32 := by
      have topLe := Nat.ge_two_pow_of_testBit isSet
      exact (Nat.pow_lt_pow_iff_right (by decide)).mp (Nat.lt_of_le_of_lt topLe word.isLt)
    refine ⟨top - i, by omega, ?_⟩
    rw [Nat.add_sub_cancel' above]
    exact isSet

theorem kroundup32_of_bits {x bits : Nat}
    (lower : bits = 0 ∨ 2 ^ (bits - 1) ≤ (BitVec.ofNat 32 x - 1#32).toNat)
    (upper : (BitVec.ofNat 32 x - 1#32).toNat < 2 ^ bits) :
    kroundup32 x = 2 ^ bits % 2 ^ 32 := by
  obtain ⟨smeared, same, smears⟩ : ∃ smeared, kroundup32 x = (smeared + 1#32).toNat ∧
      Smears (BitVec.ofNat 32 x - 1#32) smeared 32 :=
    ⟨_, rfl, (smears_one _).double.double.double.double.double⟩
  have positive := Nat.two_pow_pos bits
  rw [same, BitVec.toNat_add, smears.all lower upper]
  change (2 ^ bits - 1 + 1) % 2 ^ 32 = _
  rw [Nat.sub_add_cancel positive]

theorem kroundup32_spec {x : Nat} (positive : 0 < x) (small : x ≤ 2 ^ 31) :
    ∃ bits ≤ 31, kroundup32 x = 2 ^ bits ∧ x ≤ 2 ^ bits ∧ 2 ^ bits < 2 * x := by
  have less : (BitVec.ofNat 32 x - 1#32).toNat = x - 1 := by
    rw [BitVec.toNat_sub, BitVec.toNat_ofNat]
    change (2 ^ 32 - 1 + x % 2 ^ 32) % 2 ^ 32 = x - 1
    omega
  have upper : x - 1 < 2 ^ (x - 1).size := Nat.lt_size_self _
  have lower : (x - 1).size = 0 ∨ 2 ^ ((x - 1).size - 1) ≤ x - 1 := by
    rcases Nat.eq_zero_or_pos (x - 1).size with zero | some'
    · exact .inl zero
    · exact .inr (Nat.lt_size.mp (by omega))
  have few : (x - 1).size ≤ 31 := Nat.size_le.mpr (by omega)
  refine ⟨(x - 1).size, few, ?_, by omega, ?_⟩
  · rw [@kroundup32_of_bits x (x - 1).size (by rw [less]; exact lower) (by rw [less]; exact upper)]
    exact Nat.mod_eq_of_lt (Nat.pow_lt_pow_right Nat.one_lt_two (by omega))
  · rcases lower with zero | atLeast
    · rw [zero]
      omega
    · rcases Nat.eq_zero_or_pos (x - 1).size with zero | some'
      · rw [zero]
        omega
      · have double : 2 ^ (x - 1).size = 2 * 2 ^ ((x - 1).size - 1) := by
          rw [← Nat.pow_succ', Nat.succ_eq_add_one, Nat.sub_add_cancel some']
        omega

theorem kroundup32_eq_zero {x : Nat} (large : 2 ^ 31 < x) (bound : x < 2 ^ 32) :
    kroundup32 x = 0 := by
  have less : (BitVec.ofNat 32 x - 1#32).toNat = x - 1 := by
    rw [BitVec.toNat_sub, BitVec.toNat_ofNat]
    change (2 ^ 32 - 1 + x % 2 ^ 32) % 2 ^ 32 = x - 1
    omega
  exact @kroundup32_of_bits x 32 (.inr (by rw [less]; omega)) (by rw [less]; omega)

theorem hashUpper_lt {bits : Nat} (enough : 2 ≤ bits) : hashUpper (2 ^ bits) < 2 ^ bits := by
  have large := Nat.pow_le_pow_right (n := 2) (by decide) enough
  unfold hashUpper
  omega

end MemSim
