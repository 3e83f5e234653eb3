import Mathlib.Algebra.GroupWithZero.Nat
import MemSim.OpenAddressing
import MemSim.Probing

/-!
# The hash table

`khash.h`, for maps: open addressing with a probe sequence of growing steps in a
table whose size is a power of two.  Two bits for each bucket tell whether it is
empty or deleted.  A table that is too full is rehashed in place: entries are moved
to their new buckets one by one, and an entry that is in the way is kicked out and
moved next.  Numbers of type `khint_t` have 32 bits.
-/

set_option autoImplicit false

namespace MemSim

/-- Reading outside an array, reading a key that was never written, and a loop
that does not end within the bound of its definition. -/
inductive HashFault where
  | outOfBounds
  | indeterminate
  | outOfFuel
  deriving DecidableEq, Repr

/-- `kh_##name##_t`.  A cell of an array that was never written is `none`, and a
`NULL` array has no cells. -/
structure KHash (κ β : Type) where
  nBuckets : Nat
  size : Nat
  nOccupied : Nat
  upperBound : Nat
  flags : List (BitVec 32)
  keys : List (Option κ)
  vals : List (Option β)
  deriving DecidableEq, Repr

/-- Whether the requests for the new flags, keys and values are granted. -/
structure HashMemory where
  flags : Bool
  keys : Bool
  vals : Bool
  deriving DecidableEq, Repr

/-! ## Flags -/

/-- `flag[i >> 4] >> ((i & 0xfU) << 1)` -/
def flagBits (flag : List (BitVec 32)) (i : Nat) : Except HashFault (BitVec 32) :=
  match flag[i >>> 4]? with
  | none => throw .outOfBounds
  | some word => pure (word >>> ((i &&& 0xf) <<< 1))

/-- `__ac_isempty` -/
def acIsempty (flag : List (BitVec 32)) (i : Nat) : Except HashFault Bool := do
  return (← flagBits flag i) &&& 2#32 != 0#32

/-- `__ac_isdel` -/
def acIsdel (flag : List (BitVec 32)) (i : Nat) : Except HashFault Bool := do
  return (← flagBits flag i) &&& 1#32 != 0#32

/-- `__ac_iseither` -/
def acIseither (flag : List (BitVec 32)) (i : Nat) : Except HashFault Bool := do
  return (← flagBits flag i) &&& 3#32 != 0#32

def changeFlag (flag : List (BitVec 32)) (i : Nat) (change : BitVec 32 → BitVec 32) :
    Except HashFault (List (BitVec 32)) :=
  match flag[i >>> 4]? with
  | none => throw .outOfBounds
  | some word => pure (flag.set (i >>> 4) (change word))

/-- `__ac_set_isempty_false` -/
def acSetIsemptyFalse (flag : List (BitVec 32)) (i : Nat) : Except HashFault (List (BitVec 32)) :=
  changeFlag flag i fun word => word &&& ~~~(2#32 <<< ((i &&& 0xf) <<< 1))

/-- `__ac_set_isboth_false` -/
def acSetIsbothFalse (flag : List (BitVec 32)) (i : Nat) : Except HashFault (List (BitVec 32)) :=
  changeFlag flag i fun word => word &&& ~~~(3#32 <<< ((i &&& 0xf) <<< 1))

/-- `__ac_set_isdel_true` -/
def acSetIsdelTrue (flag : List (BitVec 32)) (i : Nat) : Except HashFault (List (BitVec 32)) :=
  changeFlag flag i fun word => word ||| 1#32 <<< ((i &&& 0xf) <<< 1)

/-- `__ac_fsize` -/
def acFsize (m : Nat) : Nat := if m < 16 then 1 else m >>> 4

/-- A word of flags as `memset` with 0xaa leaves it. -/
def emptyFlags : BitVec 32 := 0xaaaaaaaa#32

/-! ## Cells -/

section Cells
variable {α : Type}

def readCell (cells : List (Option α)) (i : Nat) : Except HashFault (Option α) :=
  match cells[i]? with
  | none => throw .outOfBounds
  | some cell => pure cell

def readKey (keys : List (Option α)) (i : Nat) : Except HashFault α := do
  match ← readCell keys i with
  | none => throw .indeterminate
  | some key => pure key

def writeCell (cells : List (Option α)) (i : Nat) (cell : Option α) :
    Except HashFault (List (Option α)) :=
  if i < cells.length then pure (cells.set i cell) else throw .outOfBounds

/-- `krealloc`, when it is granted: the cells kept, and new ones behind them. -/
def krealloc (cells : List (Option α)) (count : Nat) : List (Option α) :=
  cells.take count ++ List.replicate (count - cells.length) none

end Cells

/-! ## Sizes -/

/-- `kroundup32`: the next power of two, or 0 if that does not fit. -/
def kroundup32 (x : Nat) : Nat :=
  let x := BitVec.ofNat 32 x - 1#32
  let x := x ||| x >>> 1
  let x := x ||| x >>> 2
  let x := x ||| x >>> 4
  let x := x ||| x >>> 8
  let x := x ||| x >>> 16
  (x + 1#32).toNat

/-- `(khint_t)(n_buckets * __ac_HASH_UPPER + 0.5)`.  For a power of two the product
with 0.77 is not closer than 2/100 to a number where the sum would round to
another integer, so that the computation in `double` comes out the same. -/
def hashUpper (nBuckets : Nat) : Nat := (nBuckets * 77 + 50) / 100

/-- `(i + step) & mask` -/
def nextBucket (mask i step : Nat) : Nat := (i + step) % 2 ^ 32 &&& mask

/-- `++step` -/
def nextStep (step : Nat) : Nat := (step + 1) % 2 ^ 32

namespace KHash
variable {κ β : Type}

/-- `kh_init` -/
def init : KHash κ β := ⟨0, 0, 0, 0, [], [], []⟩

/-- `kh_clear` -/
def clear (h : KHash κ β) : Except HashFault (KHash κ β) :=
  if h.flags = [] then pure h
  else if h.flags.length < acFsize h.nBuckets then throw .outOfBounds
  else
    pure { h with
      flags := List.replicate (acFsize h.nBuckets) emptyFlags ++
        h.flags.drop (acFsize h.nBuckets)
      size := 0
      nOccupied := 0 }

/-- `kh_del` -/
def del (h : KHash κ β) (x : Nat) : Except HashFault (KHash κ β) := do
  if x = h.nBuckets then return h
  if ← acIseither h.flags x then return h
  return { h with flags := ← acSetIsdelTrue h.flags x, size := h.size - 1 }

/-- `kh_value` -/
def value (h : KHash κ β) (x : Nat) : Except HashFault (Option β) := readCell h.vals x

/-- `kh_value`, as the left side of an assignment -/
def setValue (h : KHash κ β) (x : Nat) (value : β) : Except HashFault (KHash κ β) := do
  return { h with vals := ← writeCell h.vals x (some value) }

section Search
variable [DecidableEq κ] (h : KHash κ β) (key : κ)

/-- The condition of the search loops: a bucket that is not empty, and deleted or
with another key. -/
def passes (i : Nat) : Except HashFault Bool := do
  if ← acIsempty h.flags i then return false
  if ← acIsdel h.flags i then return true
  return decide (¬ (← readKey h.keys i) = key)

/-- The loop of `kh_get`. -/
def getFrom (mask last : Nat) : (fuel step i : Nat) → Except HashFault Nat
  | 0, _, _ => throw .outOfFuel
  | fuel + 1, step, i => do
      if ← h.passes key i then
        let step := nextStep step
        let i := nextBucket mask i step
        if i = last then return h.nBuckets
        getFrom mask last fuel step i
      else
        return if ← acIseither h.flags i then h.nBuckets else i

/-- `kh_get`.  The loop ends after fewer than `2 * n_buckets` steps. -/
def get (hash : κ → Nat) : Except HashFault Nat :=
  if h.nBuckets = 0 then pure 0
  else
    let mask := h.nBuckets - 1
    let i := hash key &&& mask
    h.getFrom key mask i (2 * h.nBuckets) 0 i

/-- What the loop of `kh_put` leaves in its variables. -/
structure PutSearch where
  x : Nat
  site : Nat
  i : Nat
  deriving DecidableEq, Repr

/-- The loop of `kh_put`. -/
def putFrom (mask last : Nat) : (fuel site step i : Nat) → Except HashFault PutSearch
  | 0, _, _, _ => throw .outOfFuel
  | fuel + 1, site, step, i => do
      if ← h.passes key i then
        let site := if ← acIsdel h.flags i then i else site
        let step := nextStep step
        let i := nextBucket mask i step
        if i = last then return ⟨site, site, i⟩
        putFrom mask last fuel site step i
      else
        return ⟨h.nBuckets, site, i⟩

/-- The bucket that `kh_put` chooses. -/
def putBucket (hash : κ → Nat) : Except HashFault Nat := do
  let mask := h.nBuckets - 1
  let i := hash key &&& mask
  if ← acIsempty h.flags i then return i
  let found ← h.putFrom key mask i (2 * h.nBuckets) h.nBuckets 0 i
  if found.x = h.nBuckets then
    if (← acIsempty h.flags found.i) && decide (found.site ≠ h.nBuckets) then return found.site
    else return found.i
  else return found.x

/-- The second half of `kh_put`: the key is written into the bucket, unless it is
there.  The result tells, in `*ret`, what the bucket was. -/
def putKey (x : Nat) : Except HashFault (KHash κ β × Int) := do
  if ← acIsempty h.flags x then
    return ({ h with
      keys := ← writeCell h.keys x (some key)
      flags := ← acSetIsbothFalse h.flags x
      size := h.size + 1
      nOccupied := h.nOccupied + 1 }, 1)
  if ← acIsdel h.flags x then
    return ({ h with
      keys := ← writeCell h.keys x (some key)
      flags := ← acSetIsbothFalse h.flags x
      size := h.size + 1 }, 2)
  return (h, 0)

end Search

/-! ## Rehashing -/

/-- The arrays while a table is rehashed. -/
structure Rehash (κ β : Type) where
  flags : List (BitVec 32)
  newFlags : List (BitVec 32)
  keys : List (Option κ)
  vals : List (Option β)

/-- The search for an empty bucket among the new ones. -/
def emptyFrom (newFlags : List (BitVec 32)) (mask : Nat) : (fuel step i : Nat) →
    Except HashFault Nat
  | 0, _, _ => throw .outOfFuel
  | fuel + 1, step, i => do
      if ← acIsempty newFlags i then return i
      let step := nextStep step
      emptyFrom newFlags mask fuel step (nextBucket mask i step)

section Rehashing
variable (hash : κ → Nat) (nBuckets newMask : Nat)

/-- The kick-out process, with an entry that has no bucket. -/
def kickOut : (fuel : Nat) → Rehash κ β → κ → Option β → Except HashFault (Rehash κ β)
  | 0, _, _, _ => throw .outOfFuel
  | fuel + 1, t, key, val => do
      let i ← emptyFrom t.newFlags newMask (newMask + 1) 0 (hash key &&& newMask)
      let newFlags ← acSetIsemptyFalse t.newFlags i
      if ← (if i < nBuckets then return !(← acIseither t.flags i) else return false) then
        -- kick out the existing element, and mark it as deleted in the old hash table
        let key' ← readKey t.keys i
        let val' ← readCell t.vals i
        let keys ← writeCell t.keys i (some key)
        let vals ← writeCell t.vals i val
        let flags ← acSetIsdelTrue t.flags i
        kickOut fuel ⟨flags, newFlags, keys, vals⟩ key' val'
      else
        let keys ← writeCell t.keys i (some key)
        let vals ← writeCell t.vals i val
        return ⟨t.flags, newFlags, keys, vals⟩

/-- One turn of the rehashing loop. -/
def rehashBucket (t : Rehash κ β) (j : Nat) : Except HashFault (Rehash κ β) := do
  if ← acIseither t.flags j then return t
  let key ← readKey t.keys j
  let val ← readCell t.vals j
  let flags ← acSetIsdelTrue t.flags j
  kickOut hash nBuckets newMask (nBuckets + 1) { t with flags := flags } key val

def rehash (t : Rehash κ β) : Except HashFault (Rehash κ β) :=
  (List.range nBuckets).foldlM (rehashBucket hash nBuckets newMask) t

end Rehashing

variable (hash : κ → Nat) (memory : HashMemory) (h : KHash κ β)

/-- The number of buckets that `kh_resize` makes of the one asked for. -/
def roundedBuckets (newNBuckets : Nat) : Nat :=
  if kroundup32 newNBuckets < 4 then 4 else kroundup32 newNBuckets

/-- The part of `kh_resize` behind the requests for more memory.  A request for
less memory that is refused leaves a `NULL` array. -/
def resizeTo (newNBuckets : Nat) : Except HashFault (KHash κ β) := do
  let expand := decide (h.nBuckets < newNBuckets)
  let keys := if expand then krealloc h.keys newNBuckets else h.keys
  let vals := if expand then krealloc h.vals newNBuckets else h.vals
  let newFlags := List.replicate (acFsize newNBuckets) emptyFlags
  let t ← rehash hash h.nBuckets (newNBuckets - 1) ⟨h.flags, newFlags, keys, vals⟩
  let shrink := decide (h.nBuckets > newNBuckets)
  return {
    nBuckets := newNBuckets
    size := h.size
    nOccupied := h.size
    upperBound := hashUpper newNBuckets
    flags := t.newFlags
    keys := if shrink then if memory.keys then krealloc t.keys newNBuckets else [] else t.keys
    vals := if shrink then if memory.vals then krealloc t.vals newNBuckets else [] else t.vals }

/-- `kh_resize` -/
def resize (requested : Nat) : Except HashFault (KHash κ β × Int) := do
  let newNBuckets := roundedBuckets requested
  -- requested size is too small
  if h.size ≥ hashUpper newNBuckets then return (h, 0)
  if !memory.flags then return (h, -1)
  let expand := decide (h.nBuckets < newNBuckets)
  if expand && !memory.keys then return (h, -1)
  if expand && !memory.vals then return ({ h with keys := krealloc h.keys newNBuckets }, -1)
  return (← resizeTo hash memory h newNBuckets, 0)

/-- The first part of `kh_put`: the table is rehashed if it is too full. -/
def makeRoom : Except HashFault (KHash κ β × Int) :=
  if h.nOccupied ≥ h.upperBound then
    if h.nBuckets > h.size <<< 1 % 2 ^ 32 then resize hash memory h (h.nBuckets - 1)
    else resize hash memory h (h.nBuckets + 1)
  else pure (h, 0)

/-- What `kh_put` returns, with the table and the value of `*ret`. -/
structure Put (κ β : Type) where
  table : KHash κ β
  ret : Int
  x : Nat

/-- `kh_put` -/
def put [DecidableEq κ] (key : κ) : Except HashFault (Put κ β) := do
  let (h, resized) ← makeRoom hash memory h
  if resized < 0 then return ⟨h, -1, h.nBuckets⟩
  let x ← h.putBucket key hash
  let (h, ret) ← h.putKey key x
  return ⟨h, ret, x⟩

end KHash

end MemSim
