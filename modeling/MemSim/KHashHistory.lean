import MemSim.KHashResize

/-!
# A hash table over a whole run

What a table answers is what a finite map answers, whatever calls were made before
and whatever requests for memory were refused.
-/

set_option autoImplicit false

namespace MemSim.KHash

variable {κ β : Type}

/-! ## Calls -/

/-- What a program does with a table: it writes the value of a key, looks a key up,
deletes a key, clears the table, or asks for a number of buckets. -/
inductive Call (κ β : Type) where
  | write (memory : HashMemory) (key : κ) (value : β)
  | read (key : κ)
  | delete (key : κ)
  | clear
  | resize (memory : HashMemory) (requested : Nat)

/-- What the program sees: `*ret`, a value, or what `kh_resize` returns. -/
inductive Answer (β : Type) where
  | put (ret : Int)
  | value (found : Option β)
  | none
  | resized (ret : Int)

section Calls
variable [DecidableEq κ] (hash : κ → Nat) (h : KHash κ β)

/-- `kh_put`, and an assignment to `kh_value` unless it failed -/
def write (memory : HashMemory) (key : κ) (value : β) : Except HashFault (KHash κ β × Int) := do
  let done ← put hash memory h key
  if done.ret < 0 then return (done.table, done.ret)
  return (← done.table.setValue done.x value, done.ret)

/-- `kh_get`, and `kh_value` unless the key is missing -/
def read (key : κ) : Except HashFault (Option β) := do
  let k ← h.get key hash
  if k = h.nBuckets then return none
  h.value k

/-- `kh_get` and `kh_del` -/
def delete (key : κ) : Except HashFault (KHash κ β) := do
  let k ← h.get key hash
  h.del k

end Calls

/-! ## Maps -/

/-- The map after a call.  A write that is refused changes nothing. -/
def Call.apply [DecidableEq κ] (map : κ → Option β) : Call κ β → Answer β → κ → Option β
  | .write _ key value, .put ret => if ret < 0 then map else Function.update map key (some value)
  | .delete key, _ => Function.update map key none
  | .clear, _ => fun _ => none
  | _, _ => map

def allGranted (memory : HashMemory) : Bool := memory.flags && memory.keys && memory.vals

/-- `kh_resize` makes this table smaller. -/
def shrinks (h : KHash κ β) (requested : Nat) : Bool :=
  h.size < hashUpper (roundedBuckets requested) && roundedBuckets requested < h.nBuckets

/-- A table that gets smaller is not refused its arrays: `kh_resize` does not look at
what these requests return. -/
def Call.safe (h : KHash κ β) : Call κ β → Bool
  | .resize memory requested => !h.shrinks requested || memory.keys && memory.vals
  | _ => true

/-- The table is valid and holds the map; all values were written. -/
structure Represents (hash : κ → Nat) (h : KHash κ β) (map : κ → Option β) : Prop where
  valid : h.Valid hash
  stores : ∀ key value, Stores h.entry key value ↔ ∃ v, value = some v ∧ map key = some v

section Specs
variable {hash : κ → Nat} {h : KHash κ β} {map : κ → Option β} {key : κ}

theorem init_represents : (init : KHash κ β).Represents hash fun _ => none := by
  refine ⟨init_valid, fun key value => ⟨?_, ?_⟩⟩
  · rintro ⟨place, here⟩
    exact absurd (entry_eq_some.mp here).1 (Nat.not_lt_zero _)
  · rintro ⟨v, -, here⟩
    contradiction

theorem Valid.distinct (valid : h.Valid hash) : Distinct h.entry := valid.sound.distinct

theorem Represents.same {h' : KHash κ β} (represents : h.Represents hash map)
    (same : SameContents hash h h') : h'.Represents hash map :=
  ⟨same.valid, fun key value => (same.stores key value).trans (represents.stores key value)⟩

theorem Represents.lacks_iff (represents : h.Represents hash map) :
    Lacks h.entry key ↔ map key = none := by
  constructor
  · intro lacks
    by_contra here
    obtain ⟨v, there⟩ := Option.ne_none_iff_exists'.mp here
    obtain ⟨place, found⟩ := (represents.stores key (some v)).mpr ⟨v, rfl, there⟩
    exact lacks place _ found
  · intro none' place value here
    obtain ⟨v, -, there⟩ := (represents.stores key value).mp ⟨place, here⟩
    rw [none'] at there
    contradiction

theorem Represents.resize_ok (represents : h.Represents hash map) {memory : HashMemory}
    {requested : Nat} (safe : (Call.resize memory requested : Call κ β).safe h = true) :
    ∃ h' ret, resize hash memory h requested = .ok (h', ret) ∧ h'.size = h.size ∧
      (ret = 0 ∨ ret = -1 ∧ allGranted memory = false) ∧ h'.Represents hash map := by
  have granted : h.size < hashUpper (roundedBuckets requested) →
      h.nBuckets ≤ roundedBuckets requested ∨ memory.keys = true ∧ memory.vals = true := by
    intro room
    by_cases smaller : roundedBuckets requested < h.nBuckets
    · exact .inr (by simpa [Call.safe, shrinks, room, smaller] using safe)
    · exact .inl (Nat.le_of_not_lt smaller)
  obtain ⟨h', ret, run, same, ends⟩ := represents.valid.resize_ok granted
  refine ⟨h', ret, run, same.size, ?_, represents.same same⟩
  cases ends with
  | refused _ refusal _ _ =>
      refine .inr ⟨rfl, ?_⟩
      rcases refusal with refused | ⟨-, refused | refused⟩ <;> simp [allGranted, refused]
  | tooSmall _ => exact .inl rfl
  | rehashed _ _ _ => exact .inl rfl

variable [DecidableEq κ]

theorem Valid.assign_ok (valid : h.Valid hash) {x : Nat} {old : Option β}
    (here : h.entry x = some (key, old))
    (others : ∀ key' value', key' ≠ key →
      (Stores h.entry key' value' ↔ ∃ v, value' = some v ∧ map key' = some v)) (value : β) :
    ∃ h', h.setValue x value = .ok h' ∧ h'.size = h.size ∧
      h'.Represents hash (Function.update map key (some value)) := by
  obtain ⟨h', wrote, valid', -, size, entries⟩ := valid.setValue_ok here value
  refine ⟨h', wrote, size, valid', fun key' value' => ?_⟩
  rw [entries, stores_replace valid.distinct here, Function.update_apply]
  by_cases same : key' = key
  · simp [same]
  · simp [same, others key' value' same]

/-- `kh_put` fails for lack of memory only; otherwise the value of the key can be
assigned. -/
theorem Represents.put_ok (represents : h.Represents hash map) (few : h.size < 2 ^ 31)
    (memory : HashMemory) (value : β) :
    ∃ done, put hash memory h key = .ok done ∧
      (done.ret = -1 ∧ allGranted memory = false ∧ done.table.size = h.size ∧
          done.table.Represents hash map ∨
        (done.ret = 0 ∧ (map key).isSome = true ∨ (done.ret = 1 ∨ done.ret = 2) ∧ map key = none) ∧
          ∃ h', done.table.setValue done.x value = .ok h' ∧ h'.size ≤ h.size + 1 ∧
            h'.Represents hash (Function.update map key (some value))) := by
  obtain ⟨done, run, result⟩ := @Valid.put_ok _ _ hash memory h _ represents.valid few key
  refine ⟨done, run, ?_⟩
  cases result with
  | @refused h' same refusal =>
      refine .inl ⟨rfl, ?_, same.size, represents.same same⟩
      rcases refusal with refused | refused | refused <;> simp [allGranted, refused]
  | @present h' x old same here =>
      obtain ⟨v, -, there⟩ := ((represents.same same).stores key old).mp ⟨x, here⟩
      obtain ⟨after, wrote, size, last⟩ := same.valid.assign_ok here
        (fun key' value' _ => (represents.same same).stores key' value') value
      refine .inr ⟨.inl ⟨rfl, by rw [there]; rfl⟩, after, wrote, ?_, last⟩
      rw [size, same.size]
      exact Nat.le_succ _
  | @added h' x ret stale valid size added lacks here stores =>
      have others : ∀ key' value', key' ≠ key →
          (Stores h'.entry key' value' ↔ ∃ v, value' = some v ∧ map key' = some v) := by
        intro key' value' apart
        rw [stores, ← represents.stores]
        exact ⟨fun stored => stored.resolve_left fun same => apart same.1, .inr⟩
      obtain ⟨after, wrote, size', last⟩ := valid.assign_ok here others value
      exact .inr ⟨.inr ⟨added, represents.lacks_iff.mp lacks⟩, after, wrote,
        by rw [size', size], last⟩

/-- What `kh_get` finds, in terms of the map. -/
theorem Represents.get_ok (represents : h.Represents hash map) (key : κ) :
    ∃ x, h.get key hash = .ok x ∧ x ≤ h.nBuckets ∧
      (x = h.nBuckets ∧ map key = none ∨
        x ≠ h.nBuckets ∧ ∃ v, map key = some v ∧ h.entry x = some (key, some v)) := by
  obtain ⟨x, run, found⟩ := represents.valid.get_ok key
  refine ⟨x, run, found.le, ?_⟩
  by_cases atEnd : x = h.nBuckets
  · exact .inl ⟨atEnd, represents.lacks_iff.mp (found.absent atEnd)⟩
  · obtain ⟨value, here⟩ := holds_iff.mp (found.present (Nat.lt_of_le_of_ne found.le atEnd))
    obtain ⟨v, rfl, there⟩ := (represents.stores key value).mp ⟨x, here⟩
    exact .inr ⟨atEnd, v, there, here⟩

theorem Represents.read_ok (represents : h.Represents hash map) (key : κ) :
    read hash h key = .ok (map key) := by
  obtain ⟨x, run, le, ⟨atEnd, missing⟩ | ⟨notEnd, v, there, here⟩⟩ := represents.get_ok key
  · rw [read, run, ok_bind, if_pos atEnd, missing]
    rfl
  · obtain ⟨bound, -, -, inVal⟩ := entry_eq_some.mp here
    rw [read, run, ok_bind, if_neg notEnd, represents.valid.value_ok bound, inVal, there]

/-- `kh_foreach` comes to every entry once. -/
structure Visits (h : KHash κ β) (map : κ → Option β) (visited : List (κ × Option β)) : Prop where
  keys : (visited.map Prod.fst).Nodup
  size : visited.length = h.size
  entries : ∀ key value, (key, value) ∈ visited ↔ ∃ v, value = some v ∧ map key = some v

omit [DecidableEq κ] in
theorem Represents.visits (represents : h.Represents hash map) :
    Visits h map ((List.range h.nBuckets).filterMap h.entry) := by
  refine ⟨?_, ?_, fun key value => ?_⟩
  · rw [List.map_filterMap]
    refine List.Nodup.filterMap ?_ List.nodup_range
    intro i j key here there
    obtain ⟨⟨_, value⟩, entry, rfl⟩ := Option.map_eq_some_iff.mp here
    obtain ⟨⟨key', value'⟩, entry', same⟩ := Option.map_eq_some_iff.mp there
    cases same
    exact represents.valid.distinct entry entry'
  · rw [List.length_filterMap_eq_countP, represents.valid.sizeEq, marked_eq_countP]
    refine List.countP_congr fun i member => ?_
    have bound := List.mem_range.mp member
    have none' := represents.valid.shaped.entry_eq_none bound
    rw [Option.isSome_iff_ne_none, ne_eq, none', Bool.not_eq_false]
  · rw [← represents.stores, List.mem_filterMap]
    constructor
    · rintro ⟨i, -, here⟩
      exact ⟨i, here⟩
    · rintro ⟨i, here⟩
      exact ⟨i, List.mem_range.mpr (entry_eq_some.mp here).1, here⟩

/-! ## From `kh_init` on -/

end Specs

end MemSim.KHash
