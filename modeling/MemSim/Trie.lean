import Mathlib.Data.List.Induction
import Mathlib.Logic.Function.Basic

/-!
# Tries made of pointers

A table maps an index to a node, a node may lead to a table of the next level,
and a path of indices is walked from a root table.  When every node sits in one
slot, every table below one node, and no root below any node, a path is
determined by the node or table it reaches.  Filling one empty slot, or hanging
one empty table below a node, then changes the walk of one path at most.
Tables, indices and nodes are of arbitrary types.
-/

set_option autoImplicit false

namespace MemSim

variable {T I N : Type}

structure Trie (T I N : Type) where
  slot : T → I → Option N
  child : N → Option T

namespace Trie

/-- The table a path of indices leads to. -/
def tableAt (trie : Trie T I N) : T → List I → Option T
  | table, [] => some table
  | table, index :: path =>
      match trie.slot table index with
      | none => none
      | some node =>
          match trie.child node with
          | none => none
          | some next => trie.tableAt next path

/-- The node in slot `index` of the table the path leads to. -/
def nodeAt (trie : Trie T I N) (root : T) (path : List I) (index : I) : Option N :=
  (trie.tableAt root path).bind fun table => trie.slot table index

theorem nodeAt_eq_some {trie : Trie T I N} {root : T} {path : List I} {index : I} {node : N} :
    trie.nodeAt root path index = some node ↔
      ∃ table, trie.tableAt root path = some table ∧ trie.slot table index = some node :=
  Option.bind_eq_some_iff

theorem tableAt_cons_eq_some {trie : Trie T I N} {table : T} {index : I} {path : List I}
    {last : T} :
    trie.tableAt table (index :: path) = some last ↔
      ∃ node next, trie.slot table index = some node ∧ trie.child node = some next ∧
        trie.tableAt next path = some last := by
  simp only [tableAt]
  cases trie.slot table index with
  | none => simp
  | some node =>
      cases below : trie.child node with
      | none => simp [below]
      | some next => simp [below]

theorem tableAt_append (trie : Trie T I N) (root : T) (path rest : List I) :
    trie.tableAt root (path ++ rest) =
      (trie.tableAt root path).bind fun table => trie.tableAt table rest := by
  induction path generalizing root with
  | nil => rfl
  | cons index path ih =>
      simp only [List.cons_append, tableAt]
      cases trie.slot root index with
      | none => rfl
      | some node =>
          cases below : trie.child node with
          | none => simp [below]
          | some next => simpa [below] using ih next

theorem tableAt_concat_eq_some {trie : Trie T I N} {root : T} {path : List I} {index : I}
    {last : T} :
    trie.tableAt root (path ++ [index]) = some last ↔
      ∃ table node, trie.tableAt root path = some table ∧
        trie.slot table index = some node ∧ trie.child node = some last := by
  rw [tableAt_append, Option.bind_eq_some_iff]
  constructor
  · rintro ⟨table, reached, step⟩
    obtain ⟨node, next, inSlot, below, stop⟩ := tableAt_cons_eq_some.mp step
    cases Option.some.inj stop
    exact ⟨table, node, reached, inSlot, below⟩
  · rintro ⟨table, node, reached, inSlot, below⟩
    exact ⟨table, reached, tableAt_cons_eq_some.mpr ⟨node, last, inSlot, below, rfl⟩⟩

theorem tableAt_shared {trie other : Trie T I N} {shared : T → Prop}
    (slots : ∀ {table index node}, shared table → trie.slot table index = some node →
      other.slot table index = some node)
    (children : ∀ {table index node next}, shared table → trie.slot table index = some node →
      trie.child node = some next → other.child node = some next ∧ shared next)
    {root : T} (rootShared : shared root) {path : List I} {last : T}
    (reached : trie.tableAt root path = some last) :
    other.tableAt root path = some last ∧ shared last := by
  induction path generalizing root with
  | nil =>
      cases Option.some.inj reached
      exact ⟨rfl, rootShared⟩
  | cons index path ih =>
      obtain ⟨node, next, inSlot, below, reached⟩ := tableAt_cons_eq_some.mp reached
      obtain ⟨below', nextShared⟩ := children rootShared inSlot below
      obtain ⟨reached', lastShared⟩ := ih nextShared reached
      exact ⟨tableAt_cons_eq_some.mpr ⟨node, next, slots rootShared inSlot, below', reached'⟩,
        lastShared⟩

/-! ## One parent each -/

/-- Every node is in one slot, every table below one node, and roots are below
none. -/
structure OneParent (trie : Trie T I N) (root : T → Prop) : Prop where
  slot_inj : ∀ {table table' index index' node}, trie.slot table index = some node →
    trie.slot table' index' = some node → table = table' ∧ index = index'
  child_inj : ∀ {node node' table}, trie.child node = some table →
    trie.child node' = some table → node = node'
  child_not_root : ∀ {node table}, trie.child node = some table → ¬ root table

section OneParent
variable {trie : Trie T I N} {isRoot : T → Prop} (parents : trie.OneParent isRoot)
include parents

theorem OneParent.tableAt_inj {root root' : T} (rootHere : isRoot root)
    (rootThere : isRoot root') {path path' : List I} {table : T}
    (reached : trie.tableAt root path = some table)
    (reached' : trie.tableAt root' path' = some table) : root = root' ∧ path = path' := by
  -- backwards along the first path: the parent of the table reached is unique
  induction path using List.reverseRecOn generalizing path' table with
  | nil =>
      cases Option.some.inj reached
      rcases List.eq_nil_or_concat path' with rfl | ⟨front, index, rfl⟩
      · exact ⟨(Option.some.inj reached').symm, rfl⟩
      · rw [List.concat_eq_append] at reached'
        obtain ⟨_, node, -, -, below⟩ := tableAt_concat_eq_some.mp reached'
        exact absurd rootHere (parents.child_not_root below)
  | append_singleton path index ih =>
      obtain ⟨before, node, reachedBefore, inSlot, below⟩ := tableAt_concat_eq_some.mp reached
      rcases List.eq_nil_or_concat path' with rfl | ⟨front, index', rfl⟩
      · cases Option.some.inj reached'
        exact absurd rootThere (parents.child_not_root below)
      · rw [List.concat_eq_append] at reached' ⊢
        obtain ⟨before', node', reachedBefore', inSlot', below'⟩ :=
          tableAt_concat_eq_some.mp reached'
        cases parents.child_inj below below'
        obtain ⟨rfl, rfl⟩ := parents.slot_inj inSlot inSlot'
        obtain ⟨rfl, rfl⟩ := ih reachedBefore reachedBefore'
        exact ⟨rfl, rfl⟩

theorem OneParent.nodeAt_inj {root root' : T} (rootHere : isRoot root)
    (rootThere : isRoot root') {path path' : List I} {index index' : I} {node : N}
    (found : trie.nodeAt root path index = some node)
    (found' : trie.nodeAt root' path' index' = some node) :
    root = root' ∧ path = path' ∧ index = index' := by
  obtain ⟨table, reached, inSlot⟩ := nodeAt_eq_some.mp found
  obtain ⟨table', reached', inSlot'⟩ := nodeAt_eq_some.mp found'
  obtain ⟨rfl, rfl⟩ := parents.slot_inj inSlot inSlot'
  obtain ⟨rfl, rfl⟩ := parents.tableAt_inj rootHere rootThere reached reached'
  exact ⟨rfl, rfl, rfl⟩

end OneParent

/-! ## Filling an empty slot -/

section FillSlot
variable [DecidableEq T] [DecidableEq I]

def fillSlot (trie : Trie T I N) (table : T) (index : I) (node : N) : Trie T I N where
  slot := fun t i => if t = table ∧ i = index then some node else trie.slot t i
  child := trie.child

variable {trie : Trie T I N} {table : T} {index : I} {node : N}

theorem fillSlot_slot_self :
    (trie.fillSlot table index node).slot table index = some node := by
  simp [fillSlot]

theorem fillSlot_slot_of_ne {t : T} {i : I} (other : ¬ (t = table ∧ i = index)) :
    (trie.fillSlot table index node).slot t i = trie.slot t i := by
  simp [fillSlot, other]

theorem tableAt_fillSlot (empty : trie.slot table index = none)
    (childless : trie.child node = none) (root : T) (path : List I) :
    (trie.fillSlot table index node).tableAt root path = trie.tableAt root path := by
  induction path generalizing root with
  | nil => rfl
  | cons i path ih =>
      simp only [tableAt]
      by_cases here : root = table ∧ i = index
      · obtain ⟨rfl, rfl⟩ := here
        rw [fillSlot_slot_self, empty]
        simp [fillSlot, childless]
      · rw [fillSlot_slot_of_ne here]
        cases trie.slot root i with
        | none => rfl
        | some n =>
            cases below : trie.child n with
            | none => simp [fillSlot, below]
            | some next => simpa [fillSlot, below] using ih next

theorem nodeAt_fillSlot (empty : trie.slot table index = none)
    (childless : trie.child node = none) (root : T) (path : List I) (i : I) :
    (trie.fillSlot table index node).nodeAt root path i =
      if trie.tableAt root path = some table ∧ i = index then some node
      else trie.nodeAt root path i := by
  rw [nodeAt, tableAt_fillSlot empty childless]
  cases reached : trie.tableAt root path with
  | none => simp [nodeAt, reached]
  | some t => simp [nodeAt, reached, fillSlot]

theorem OneParent.fillSlot {isRoot : T → Prop} (parents : trie.OneParent isRoot)
    (fresh : ∀ t i, trie.slot t i ≠ some node) :
    (trie.fillSlot table index node).OneParent isRoot where
  slot_inj := by
    intro t t' i i' n inSlot inSlot'
    by_cases here : t = table ∧ i = index
    · by_cases there : t' = table ∧ i' = index
      · exact ⟨here.1.trans there.1.symm, here.2.trans there.2.symm⟩
      · obtain ⟨rfl, rfl⟩ := here
        rw [fillSlot_slot_self] at inSlot
        rw [fillSlot_slot_of_ne there] at inSlot'
        cases Option.some.inj inSlot
        exact absurd inSlot' (fresh t' i')
    · rw [fillSlot_slot_of_ne here] at inSlot
      by_cases there : t' = table ∧ i' = index
      · obtain ⟨rfl, rfl⟩ := there
        rw [fillSlot_slot_self] at inSlot'
        cases Option.some.inj inSlot'
        exact absurd inSlot (fresh t i)
      · rw [fillSlot_slot_of_ne there] at inSlot'
        exact parents.slot_inj inSlot inSlot'
  child_inj := parents.child_inj
  child_not_root := parents.child_not_root

end FillSlot

/-! ## Hanging an empty table below a node -/

section HangTable
variable [DecidableEq N]

def hangTable (trie : Trie T I N) (node : N) (table : T) : Trie T I N where
  slot := trie.slot
  child := Function.update trie.child node (some table)

variable {trie : Trie T I N} {node : N} {table : T}

theorem hangTable_child_of_ne {n : N} (other : n ≠ node) :
    (trie.hangTable node table).child n = trie.child n :=
  Function.update_of_ne other _ _

theorem tableAt_hangTable (childless : trie.child node = none)
    (empty : ∀ index, trie.slot table index = none) (root : T) (path : List I) :
    (trie.hangTable node table).tableAt root path = trie.tableAt root path ∨
      (trie.tableAt root path = none ∧
        (trie.hangTable node table).tableAt root path = some table) ∨
      (trie.tableAt root path = none ∧
        (trie.hangTable node table).tableAt root path = none) := by
  induction path generalizing root with
  | nil => exact Or.inl rfl
  | cons i path ih =>
      simp only [tableAt]
      have sameSlot : (trie.hangTable node table).slot root i = trie.slot root i := rfl
      rw [sameSlot]
      cases trie.slot root i with
      | none => exact Or.inl rfl
      | some n =>
          by_cases here : n = node
          · subst here
            have newChild : (trie.hangTable n table).child n = some table := by
              simp [hangTable]
            simp only [newChild, childless]
            cases path with
            | nil => simp [tableAt]
            | cons j path =>
                have noSlot : (trie.hangTable n table).slot table j = none := empty j
                simp [tableAt, noSlot]
          · simp only [hangTable_child_of_ne here]
            cases trie.child n with
            | none => exact Or.inl rfl
            | some next => exact ih next

theorem nodeAt_hangTable (childless : trie.child node = none)
    (empty : ∀ index, trie.slot table index = none) (root : T) (path : List I) (i : I) :
    (trie.hangTable node table).nodeAt root path i = trie.nodeAt root path i := by
  have sameSlot : ∀ t, (trie.hangTable node table).slot t i = trie.slot t i := fun _ => rfl
  rcases tableAt_hangTable childless empty root path with same | ⟨before, after⟩ | ⟨before, after⟩
  · simp only [nodeAt, same, sameSlot]
  · simp [nodeAt, before, after, sameSlot, empty i]
  · simp [nodeAt, before, after]

theorem tableAt_hangTable_of_some (childless : trie.child node = none)
    (empty : ∀ index, trie.slot table index = none) {root t : T} {path : List I}
    (reached : trie.tableAt root path = some t) :
    (trie.hangTable node table).tableAt root path = some t := by
  rcases tableAt_hangTable childless empty root path with same | ⟨before, -⟩ | ⟨before, -⟩
  · rw [same, reached]
  · rw [reached] at before
    contradiction
  · rw [reached] at before
    contradiction

theorem tableAt_hangTable_new (childless : trie.child node = none)
    (empty : ∀ index, trie.slot table index = none) {root : T} {path : List I} {index : I}
    (found : trie.nodeAt root path index = some node) :
    (trie.hangTable node table).tableAt root (path ++ [index]) = some table := by
  obtain ⟨before, reached, inSlot⟩ := nodeAt_eq_some.mp found
  refine tableAt_concat_eq_some.mpr ⟨before, node,
    tableAt_hangTable_of_some childless empty reached, inSlot, ?_⟩
  simp [hangTable]

theorem OneParent.hangTable {isRoot : T → Prop} (parents : trie.OneParent isRoot)
    (fresh : ∀ n, trie.child n ≠ some table) (notRoot : ¬ isRoot table) :
    (trie.hangTable node table).OneParent isRoot where
  slot_inj := parents.slot_inj
  child_inj := by
    intro n n' t below below'
    by_cases here : n = node
    · by_cases there : n' = node
      · exact here.trans there.symm
      · rw [hangTable_child_of_ne there] at below'
        subst here
        have new : (trie.hangTable n table).child n = some table := by simp [Trie.hangTable]
        cases Option.some.inj (new.symm.trans below)
        exact absurd below' (fresh n')
    · rw [hangTable_child_of_ne here] at below
      by_cases there : n' = node
      · subst there
        have new : (trie.hangTable n' table).child n' = some table := by simp [Trie.hangTable]
        cases Option.some.inj (new.symm.trans below')
        exact absurd below (fresh n)
      · rw [hangTable_child_of_ne there] at below'
        exact parents.child_inj below below'
  child_not_root := by
    intro n t below
    by_cases here : n = node
    · subst here
      have new : (trie.hangTable n table).child n = some table := by simp [Trie.hangTable]
      cases Option.some.inj (new.symm.trans below)
      exact notRoot
    · rw [hangTable_child_of_ne here] at below
      exact parents.child_not_root below

end HangTable

end Trie

end MemSim
