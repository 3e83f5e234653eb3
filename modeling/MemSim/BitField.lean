import MemSim.Def

/-!
# Bit fields

The first half of `csc369_bitutil.c`: reading and writing some bits of a 64-bit
word.  A shift by the width of the type or more is undefined in C; the model has
no value for it.  On the bits of words, writing a field and reading it obey the
lens laws.
-/

set_option autoImplicit false

namespace MemSim

/-! ## The functions of the source -/

/-- `word << places` -/
def shiftLeft (word : BitVec 64) (places : Nat) : Option (BitVec 64) :=
  if places < 64 then some (word <<< places) else none

/-- `word >> places` -/
def shiftRight (word : BitVec 64) (places : Nat) : Option (BitVec 64) :=
  if places < 64 then some (word >>> places) else none

/-- `CSC369_CREATE_MASK`. -/
def createMask (bitCount bitStart : Nat) : Option (BitVec 64) := do
  let high ← shiftLeft 0xffffffffffffffff#64 bitCount
  shiftLeft (~~~high) bitStart

/-- `CSC369_BitfieldGetBits`. -/
def bitfieldGetBits (bitfield : BitVec 64) (count lsb : Nat) : Option (BitVec 64) := do
  let mask ← createMask count lsb
  let maskedBits := bitfield &&& mask
  shiftRight maskedBits lsb

/-- `CSC369_BitfieldSetBits`. -/
def bitfieldSetBits (bitfield : BitVec 64) (count lsb : Nat) (value : BitVec 64) :
    Option (BitVec 64) := do
  let mask ← createMask count lsb
  let shifted ← shiftLeft value lsb
  let value := shifted &&& mask
  -- zero-out the part of the bit field we care about
  let bitfield := bitfield &&& ~~~mask
  pure (bitfield ||| value)

/-! ## Fields of a sequence of bits -/

section Bits
variable (count lsb : Nat)

def readBits (bits : Nat → Bool) (index : Nat) : Bool :=
  decide (index < count) && bits (lsb + index)

def writeBits (bits value : Nat → Bool) (index : Nat) : Bool :=
  if lsb ≤ index ∧ index < lsb + count then value (index - lsb) else bits index

variable {count lsb}

theorem writeBits_inside (bits value : Nat → Bool) {index : Nat} (lower : lsb ≤ index)
    (upper : index < lsb + count) : writeBits count lsb bits value index = value (index - lsb) :=
  if_pos ⟨lower, upper⟩

theorem writeBits_outside (bits value : Nat → Bool) {index : Nat}
    (outside : index < lsb ∨ lsb + count ≤ index) :
    writeBits count lsb bits value index = bits index :=
  if_neg (by omega)

theorem readBits_writeBits (bits value : Nat → Bool) :
    readBits count lsb (writeBits count lsb bits value) = readBits count 0 value := by
  funext index
  by_cases inside : index < count
  · have here : lsb + index - lsb = index := Nat.add_sub_cancel_left lsb index
    rw [readBits, readBits, writeBits_inside bits value (Nat.le_add_right lsb index) (by omega),
      here, Nat.zero_add]
  · rw [readBits, readBits, decide_eq_false inside, Bool.false_and, Bool.false_and]

theorem writeBits_readBits (bits : Nat → Bool) :
    writeBits count lsb bits (readBits count lsb bits) = bits := by
  funext index
  by_cases inside : lsb ≤ index ∧ index < lsb + count
  · have offset : index - lsb < count := by omega
    have back : lsb + (index - lsb) = index := Nat.add_sub_cancel' inside.1
    rw [writeBits_inside _ _ inside.1 inside.2, readBits, decide_eq_true offset, Bool.true_and,
      back]
  · exact writeBits_outside _ _ (by omega)

theorem writeBits_writeBits (bits first second : Nat → Bool) :
    writeBits count lsb (writeBits count lsb bits first) second =
      writeBits count lsb bits second := by
  funext index
  by_cases inside : lsb ≤ index ∧ index < lsb + count
  · rw [writeBits_inside _ _ inside.1 inside.2, writeBits_inside _ _ inside.1 inside.2]
  · have outside : index < lsb ∨ lsb + count ≤ index := by omega
    rw [writeBits_outside _ _ outside, writeBits_outside _ _ outside, writeBits_outside _ _ outside]

variable {count' lsb' : Nat} (apart : lsb + count ≤ lsb' ∨ lsb' + count' ≤ lsb)
include apart

theorem readBits_writeBits_apart (bits value : Nat → Bool) :
    readBits count lsb (writeBits count' lsb' bits value) = readBits count lsb bits := by
  funext index
  by_cases inside : index < count
  · rw [readBits, readBits, writeBits_outside bits value (by omega)]
  · rw [readBits, readBits, decide_eq_false inside, Bool.false_and, Bool.false_and]

theorem writeBits_comm (bits first second : Nat → Bool) :
    writeBits count' lsb' (writeBits count lsb bits first) second =
      writeBits count lsb (writeBits count' lsb' bits second) first := by
  funext index
  by_cases inside : lsb ≤ index ∧ index < lsb + count
  · have outside : index < lsb' ∨ lsb' + count' ≤ index := by omega
    rw [writeBits_outside _ _ outside, writeBits_inside _ _ inside.1 inside.2,
      writeBits_inside _ _ inside.1 inside.2]
  · have outside : index < lsb ∨ lsb + count ≤ index := by omega
    rw [writeBits_outside _ first outside]
    by_cases inside' : lsb' ≤ index ∧ index < lsb' + count'
    · rw [writeBits_inside _ _ inside'.1 inside'.2, writeBits_inside _ _ inside'.1 inside'.2]
    · have outside' : index < lsb' ∨ lsb' + count' ≤ index := by omega
      rw [writeBits_outside _ _ outside', writeBits_outside _ _ outside',
        writeBits_outside _ _ outside]

end Bits

/-! ## Fields of a word -/

/-- A field that fits the word. -/
structure Field where
  count : Nat
  lsb : Nat
  lsb_lt : lsb < 64
  positive : 1 ≤ count
  fits : count ≤ 64 - lsb

namespace Field
variable (field : Field)

def get (bitfield : BitVec 64) : Option (BitVec 64) :=
  bitfieldGetBits bitfield field.count field.lsb

def set (bitfield value : BitVec 64) : Option (BitVec 64) :=
  bitfieldSetBits bitfield field.count field.lsb value

def Apart (other : Field) : Prop :=
  field.lsb + field.count ≤ other.lsb ∨ other.lsb + other.count ≤ field.lsb

/-- What reading and writing the field promise, for a word and two values. -/
structure Laws (bitfield value value' : BitVec 64) : Prop where
  get_defined : (field.get bitfield).isSome
  set_defined : (field.set bitfield value).isSome
  get_set : (field.set bitfield value >>= field.get) =
    some (BitVec.ofNat 64 (value.toNat % 2 ^ field.count))
  set_get : (field.get bitfield >>= field.set bitfield) = some bitfield
  set_set : (field.set bitfield value >>= fun changed => field.set changed value') =
    field.set bitfield value'
  get_apart : ∀ other, field.Apart other →
    (other.set bitfield value' >>= field.get) = field.get bitfield
  set_apart : ∀ other, field.Apart other →
    (field.set bitfield value >>= fun changed => other.set changed value') =
      (other.set bitfield value' >>= fun changed => field.set changed value)

variable {field}

theorem Apart.count_lt {other : Field} (apart : field.Apart other) : other.count < 64 := by
  have positive := field.positive
  have lsb_lt := field.lsb_lt
  have fits := field.fits
  have positive' := other.positive
  have fits' := other.fits
  rcases apart with after | before
  · omega
  · omega

end Field

/-! ## The functions on the bits -/

section Model
variable {count lsb : Nat}

theorem createMask_spec (small : count < 64) (lsb_lt : lsb < 64) :
    ∃ mask, createMask count lsb = some mask ∧
      ∀ index < 64, mask.getLsbD index = decide (lsb ≤ index ∧ index < lsb + count) := by
  refine ⟨~~~(0xffffffffffffffff#64 <<< count) <<< lsb, ?_, ?_⟩
  · simp only [createMask, shiftLeft, small, lsb_lt, if_true, Option.bind_eq_bind,
      Option.bind_some]
  · intro index bound
    have ones : (0xffffffffffffffff#64) = BitVec.allOnes 64 := rfl
    rw [ones, BitVec.getLsbD_shiftLeft, BitVec.getLsbD_not, BitVec.getLsbD_shiftLeft,
      BitVec.getLsbD_allOnes]
    by_cases inside : lsb ≤ index
    · have below : index - lsb < 64 := by omega
      have offset : index - lsb < count ↔ index < lsb + count := by omega
      by_cases upper : index < lsb + count
      · simp [bound, inside, below, upper, offset.mpr upper]
      · have later : index - lsb - count < 64 := by omega
        have notBelow : ¬ index - lsb < count := by omega
        simp [bound, inside, below, upper, notBelow, later]
    · simp [bound, inside]

theorem bitfieldGetBits_spec (small : count < 64) (fits : lsb + count ≤ 64) (lsb_lt : lsb < 64)
    (bitfield : BitVec 64) : ∃ found, bitfieldGetBits bitfield count lsb = some found ∧
      found.getLsbD = readBits count lsb bitfield.getLsbD := by
  obtain ⟨mask, create, covers⟩ := createMask_spec small lsb_lt
  refine ⟨(bitfield &&& mask) >>> lsb, ?_, ?_⟩
  · simp only [bitfieldGetBits, create, shiftRight, lsb_lt, if_true, Option.bind_eq_bind,
      Option.bind_some]
  · funext index
    rw [BitVec.getLsbD_ushiftRight, BitVec.getLsbD_and, readBits]
    by_cases inside : index < count
    · have covered : lsb ≤ lsb + index ∧ lsb + index < lsb + count := by omega
      rw [covers _ (by omega), decide_eq_true covered, decide_eq_true inside, Bool.and_true,
        Bool.true_and]
    · rw [decide_eq_false inside, Bool.false_and]
      by_cases bound : lsb + index < 64
      · have outside : ¬ (lsb ≤ lsb + index ∧ lsb + index < lsb + count) := by omega
        rw [covers _ bound, decide_eq_false outside, Bool.and_false]
      · rw [BitVec.getLsbD_of_ge _ _ (Nat.le_of_not_lt bound), Bool.false_and]

theorem bitfieldSetBits_spec (small : count < 64) (fits : lsb + count ≤ 64) (lsb_lt : lsb < 64)
    (bitfield value : BitVec 64) :
    ∃ changed, bitfieldSetBits bitfield count lsb value = some changed ∧
      changed.getLsbD = writeBits count lsb bitfield.getLsbD value.getLsbD := by
  obtain ⟨mask, create, covers⟩ := createMask_spec small lsb_lt
  refine ⟨bitfield &&& ~~~mask ||| value <<< lsb &&& mask, ?_, ?_⟩
  · simp only [bitfieldSetBits, create, shiftLeft, lsb_lt, if_true, Option.bind_eq_bind,
      Option.bind_some]
    rfl
  · funext index
    rw [BitVec.getLsbD_or, BitVec.getLsbD_and, BitVec.getLsbD_and, BitVec.getLsbD_not,
      BitVec.getLsbD_shiftLeft]
    by_cases bound : index < 64
    · rw [covers index bound]
      by_cases inside : lsb ≤ index ∧ index < lsb + count
      · have notBefore : ¬ index < lsb := Nat.not_lt.mpr inside.1
        rw [writeBits_inside _ _ inside.1 inside.2]
        simp [inside, bound, notBefore]
      · rw [writeBits_outside _ _ (by omega), decide_eq_false inside]
        simp [bound]
    · have high : 64 ≤ index := Nat.le_of_not_lt bound
      rw [writeBits_outside _ _ (by omega)]
      simp [bound, BitVec.getLsbD_of_ge _ _ high]

end Model

/-! ## The laws -/

section Laws
variable {field : Field}

theorem eq_of_bits {word word' : BitVec 64} (same : word.getLsbD = word'.getLsbD) : word = word' :=
  BitVec.eq_of_getLsbD_eq fun index _ => congrFun same index

theorem getLsbD_mod (value : BitVec 64) {count : Nat} (small : count < 64) :
    (BitVec.ofNat 64 (value.toNat % 2 ^ count)).getLsbD = readBits count 0 value.getLsbD := by
  funext index
  rw [BitVec.getLsbD_ofNat, Nat.testBit_mod_two_pow, BitVec.testBit_toNat, readBits, Nat.zero_add]
  by_cases inside : index < count
  · rw [decide_eq_true (Nat.lt_trans inside small), Bool.true_and]
  · rw [decide_eq_false inside, Bool.false_and, Bool.and_false]

namespace Field

theorem inside (field : Field) : field.lsb + field.count ≤ 64 := by
  have lsb_lt := field.lsb_lt
  have fits := field.fits
  omega

theorem get_spec (small : field.count < 64) (bitfield : BitVec 64) :
    ∃ found, field.get bitfield = some found ∧
      found.getLsbD = readBits field.count field.lsb bitfield.getLsbD :=
  bitfieldGetBits_spec small field.inside field.lsb_lt bitfield

theorem set_spec (small : field.count < 64) (bitfield value : BitVec 64) :
    ∃ changed, field.set bitfield value = some changed ∧
      changed.getLsbD = writeBits field.count field.lsb bitfield.getLsbD value.getLsbD :=
  bitfieldSetBits_spec small field.inside field.lsb_lt bitfield value

theorem laws_of_lt (small : field.count < 64) (bitfield value value' : BitVec 64) :
    field.Laws bitfield value value' := by
  obtain ⟨found, get, foundBits⟩ := field.get_spec small bitfield
  obtain ⟨changed, set, changedBits⟩ := field.set_spec small bitfield value
  obtain ⟨changed', set', changedBits'⟩ := field.set_spec small bitfield value'
  constructor
  · rw [get, Option.isSome_some]
  · rw [set, Option.isSome_some]
  · obtain ⟨back, getBack, backBits⟩ := field.get_spec small changed
    rw [set, Option.bind_eq_bind, Option.bind_some, getBack]
    refine congrArg some (eq_of_bits ?_)
    rw [backBits, changedBits, readBits_writeBits, getLsbD_mod value small]
  · obtain ⟨same, setBack, sameBits⟩ := field.set_spec small bitfield found
    rw [get, Option.bind_eq_bind, Option.bind_some, setBack]
    refine congrArg some (eq_of_bits ?_)
    rw [sameBits, foundBits, writeBits_readBits]
  · obtain ⟨again, setAgain, againBits⟩ := field.set_spec small changed value'
    rw [set, set', Option.bind_eq_bind, Option.bind_some, setAgain]
    refine congrArg some (eq_of_bits ?_)
    rw [againBits, changedBits, changedBits', writeBits_writeBits]
  · intro other apart
    obtain ⟨elsewhere, setOther, otherBits⟩ := other.set_spec apart.count_lt bitfield value'
    obtain ⟨back, getBack, backBits⟩ := field.get_spec small elsewhere
    rw [setOther, get, Option.bind_eq_bind, Option.bind_some, getBack]
    refine congrArg some (eq_of_bits ?_)
    rw [backBits, foundBits, otherBits, readBits_writeBits_apart apart]
  · intro other apart
    obtain ⟨elsewhere, setOther, otherBits⟩ := other.set_spec apart.count_lt bitfield value'
    obtain ⟨both, setBoth, bothBits⟩ := other.set_spec apart.count_lt changed value'
    obtain ⟨both', setBoth', bothBits'⟩ := field.set_spec small elsewhere value
    rw [set, setOther, Option.bind_eq_bind, Option.bind_some, Option.bind_some, setBoth, setBoth']
    refine congrArg some (eq_of_bits ?_)
    rw [bothBits, bothBits', changedBits, otherBits, writeBits_comm apart]

end Field

theorem createMask_whole (lsb : Nat) : createMask 64 lsb = none := rfl

/-- The laws hold for exactly the fields that are not the whole word. -/
theorem bitfield_laws_iff (field : Field) (bitfield value value' : BitVec 64) :
    field.Laws bitfield value value' ↔ field.count < 64 := by
  constructor
  · intro laws
    apply Nat.lt_of_not_le
    intro large
    have fits := field.fits
    have whole : field.count = 64 := by omega
    have undefined : field.get bitfield = none := by
      rw [Field.get, bitfieldGetBits, whole, createMask_whole]
      rfl
    have defined := laws.get_defined
    rw [undefined] at defined
    exact Bool.false_ne_true defined
  · intro small
    exact Field.laws_of_lt small bitfield value value'

theorem bitfield_laws_fail_whole_word :
    ¬ (⟨64, 0, by decide, by decide, by decide⟩ : Field).Laws 0#64 1#64 0#64 := by
  intro laws
  have undefined : bitfieldGetBits 0#64 64 0 = none := by decide
  have defined : (bitfieldGetBits 0#64 64 0).isSome = true := laws.get_defined
  rw [undefined] at defined
  exact Bool.false_ne_true defined

end Laws

/-! ## Single bits -/

/-- `1L << bit`, of a signed constant. -/
def singleMask (bit : Nat) : Option (BitVec 64) :=
  if bit < 63 then some (1#64 <<< bit) else none

/-- `CSC369_BitfieldGetBit`. -/
def bitfieldGetBit (bitfield : BitVec 64) (bit : Nat) : Option Bool := do
  let mask ← singleMask bit
  pure (bitfield &&& mask != 0)

/-- `CSC369_BitfieldSetBit`. -/
def bitfieldSetBit (bitfield : BitVec 64) (bit : Nat) (value : Bool) : Option (BitVec 64) := do
  let mask ← singleMask bit
  if value then pure (bitfield ||| mask) else pure (bitfield &&& ~~~mask)

theorem createMask_one {bit : Nat} (bound : bit < 64) : createMask 1 bit = some (1#64 <<< bit) := by
  have one : ~~~(0xffffffffffffffff#64 <<< 1) = 1#64 := by decide
  have fits : 1 < 64 := by decide
  simp only [createMask, shiftLeft, bound, fits, if_true, Option.bind_eq_bind, Option.bind_some,
    one]

/-- Nothing but the bit is left of the word, so that shifting it down loses nothing. -/
theorem ushiftRight_eq_zero_iff (bitfield : BitVec 64) (bit : Nat) :
    (bitfield &&& 1#64 <<< bit) >>> bit = 0#64 ↔ bitfield &&& 1#64 <<< bit = 0#64 := by
  constructor
  · intro shifted
    refine BitVec.eq_of_getLsbD_eq fun index inside => ?_
    by_cases here : bit ≤ index
    · have low := congrArg (fun word => word.getLsbD (index - bit)) shifted
      simp only [BitVec.getLsbD_ushiftRight, Nat.add_sub_cancel' here] at low
      rw [low, BitVec.getLsbD_zero, BitVec.getLsbD_zero]
    · have before : index < bit := Nat.lt_of_not_le here
      rw [BitVec.getLsbD_and, BitVec.getLsbD_shiftLeft, decide_eq_true before, Bool.not_true,
        Bool.and_false, Bool.false_and, Bool.and_false, BitVec.getLsbD_zero]
  · intro nothing
    rw [nothing, BitVec.zero_ushiftRight]

theorem clear_or_mask (bitfield mask : BitVec 64) :
    bitfield &&& ~~~mask ||| mask = bitfield ||| mask := by
  refine BitVec.eq_of_getLsbD_eq fun index inside => ?_
  rw [BitVec.getLsbD_or, BitVec.getLsbD_and, BitVec.getLsbD_not, BitVec.getLsbD_or]
  cases mask.getLsbD index <;> simp [inside]

/-- One bit is a field of width one, but for bit 63, where the signed constant has no
room for the shift. -/
theorem single_bit_agrees_iff (bitfield : BitVec 64) (bit : Nat) :
    (bitfieldGetBit bitfield bit = (bitfieldGetBits bitfield 1 bit).map (· != 0) ∧
      ∀ value : Bool, bitfieldSetBit bitfield bit value =
        bitfieldSetBits bitfield 1 bit (if value then 1 else 0)) ↔ bit ≠ 63 := by
  constructor
  · rintro ⟨get, -⟩ rfl
    rw [bitfieldGetBits, createMask_one (by decide)] at get
    exact Option.some_ne_none _ get.symm
  · intro notSign
    by_cases bound : bit < 64
    · have small : bit < 63 := by omega
      constructor
      · have same := ushiftRight_eq_zero_iff bitfield bit
        simp only [bitfieldGetBit, singleMask, small, bitfieldGetBits, createMask_one bound,
          shiftRight, bound, if_true, Option.bind_eq_bind, Option.bind_some, Option.map_some,
          Option.pure_def, Option.some.injEq]
        rw [Bool.eq_iff_iff, bne_iff_ne, bne_iff_ne]
        exact not_congr same.symm
      · intro value
        simp only [bitfieldSetBit, singleMask, small, bitfieldSetBits, createMask_one bound,
          shiftLeft, bound, if_true, Option.bind_eq_bind, Option.bind_some, Option.pure_def]
        cases value with
        | true => exact congrArg some (by simp [clear_or_mask])
        | false => exact congrArg some (by simp)
    · have large : ¬ bit < 63 := by omega
      have none' : createMask 1 bit = none := by
        rw [createMask, shiftLeft, if_pos (by decide), Option.bind_eq_bind, Option.bind_some,
          shiftLeft, if_neg bound]
      constructor
      · simp only [bitfieldGetBit, singleMask, large, bitfieldGetBits, none', if_false,
          Option.bind_eq_bind, Option.bind_none, Option.map_none]
      · intro value
        simp only [bitfieldSetBit, singleMask, large, bitfieldSetBits, none', if_false,
          Option.bind_eq_bind, Option.bind_none]

end MemSim
