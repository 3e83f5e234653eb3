import Mathlib.Data.Finset.Basic
import MemSim.Main

/-!
# What a simulation acquires and releases

The creation of a simulation makes thirteen requests, for memory or for a file, and
each may be refused.  Here the functions are followed for what they acquire and release
only.  A creation that fails gives back what it has acquired, but for the blocks of the
manager, and closes standard input when the bitmap of the swap is refused.
-/

set_option autoImplicit false

namespace MemSim.Lifecycle

open Exec

/-! ## The model -/

inductive Resource where
  | simulation
  | trace
  | traceFile
  | physmem
  | swap
  | bitmap
  | words
  | swapFile
  | coremap
  | frames
  | mm
  | pageTable
  | ptes
  deriving DecidableEq, Repr

/-- What has been acquired and not released, and whether descriptor 0 is open. -/
structure Held where
  live : Finset Resource
  stdin : Bool
  deriving DecidableEq

def release (resource : Resource) : Exec Held Unit := do
  let held ← get
  require (resource ∈ held.live) .badFree
  set { held with live := held.live.erase resource }

/-- Go on with what a request gave, or clean up and return a null pointer. -/
def orDestroy {α β : Type} (destroy : Exec Held Unit) (request : Exec Held (Option α))
    (next : α → Exec Held (Option β)) : Exec Held (Option β) := do
  match ← request with
  | none => do
      destroy
      pure none
  | some value => next value

def whenPresent {α : Type} (pointer : Option α) (destroy : α → Exec Held Unit) :
    Exec Held Unit :=
  pointer.elim (pure ()) destroy

structure TraceStruct where
  file : Bool

structure BitmapStruct where
  words : Bool

/-- A file descriptor: 0 as `calloc` leaves it, -1, or that of the swap file. -/
inductive Descriptor where
  | zero
  | invalid
  | opened
  deriving DecidableEq, Repr

structure SwapStruct where
  swapmap : Option BitmapStruct
  fd : Descriptor

structure CoremapStruct where
  frames : Bool

/-- The struct of a simulation, as `calloc` leaves it where nothing is given. -/
structure SimulationStruct where
  trace : Option TraceStruct := none
  physmem : Bool := false
  coremap : Option CoremapStruct := none
  swap : Option SwapStruct := none
  mm : Bool := false

/-- `CSC369_TraceDestroy`. -/
def traceDestroy (trace : TraceStruct) : Exec Held Unit := do
  onlyIf trace.file (release .traceFile)
  release .trace

/-- `CSC369_BitmapDestroy`. -/
def bitmapDestroy (bitmap : BitmapStruct) : Exec Held Unit := do
  onlyIf bitmap.words (release .words)
  release .bitmap

/-- `close`.  Closing -1 fails, which is not looked at. -/
def close : Descriptor → Exec Held Unit
  | .zero => modify fun held => { held with stdin := false }
  | .invalid => pure ()
  | .opened => release .swapFile

/-- `CSC369_SwapDestroy`. -/
def swapDestroy (swap : SwapStruct) (freeMemory : Bool) : Exec Held Unit := do
  close swap.fd
  onlyIf freeMemory do
    whenPresent swap.swapmap bitmapDestroy
    release .swap

/-- `CSC369_CoremapDestroy`. -/
def coremapDestroy (coremap : CoremapStruct) : Exec Held Unit := do
  onlyIf coremap.frames (release .frames)
  release .coremap

/-- `CSC369_MMDestroy`, with a page table that has no entries. -/
def mmDestroy : Exec Held Unit := do
  release .ptes
  release .pageTable
  release .mm

/-- `CSC369_SimulationDestroy`.  The cleanup of the policy releases nothing. -/
def simulationDestroy (simulation : SimulationStruct) : Exec Held Unit := do
  whenPresent simulation.trace traceDestroy
  onlyIf simulation.physmem (release .physmem)
  whenPresent simulation.coremap coremapDestroy
  whenPresent simulation.swap fun swap => swapDestroy swap true
  onlyIf simulation.mm mmDestroy
  release .simulation

/-- `CSC369_SimulationDestroySwap`. -/
def simulationDestroySwap (simulation : SimulationStruct) : Exec Held Unit :=
  whenPresent simulation.swap fun swap => swapDestroy swap false

variable (grants : Resource → Bool)

def acquire (resource : Resource) : Exec Held (Option Unit) := do
  if grants resource then
    modify fun held => { held with live := insert resource held.live }
    pure (some ())
  else pure none

/-- `CSC369_TraceCreate`. -/
def traceCreate : Exec Held (Option TraceStruct) :=
  whenSome (acquire grants .trace) fun _ =>
    orDestroy (traceDestroy ⟨false⟩) (acquire grants .traceFile) fun _ => pure (some ⟨true⟩)

/-- `CSC369_BitmapCreate`. -/
def bitmapCreate : Exec Held (Option BitmapStruct) :=
  whenSome (acquire grants .bitmap) fun _ =>
    orDestroy (bitmapDestroy ⟨false⟩) (acquire grants .words) fun _ => pure (some ⟨true⟩)

/-- `CSC369_SwapCreate`. -/
def swapCreate : Exec Held (Option SwapStruct) :=
  whenSome (acquire grants .swap) fun _ =>
    orDestroy (swapDestroy ⟨none, .zero⟩ true) (bitmapCreate grants) fun swapmap =>
      orDestroy (swapDestroy ⟨some swapmap, .invalid⟩ true) (acquire grants .swapFile) fun _ =>
        pure (some ⟨some swapmap, .opened⟩)

/-- `CSC369_CoremapCreate`. -/
def coremapCreate : Exec Held (Option CoremapStruct) :=
  whenSome (acquire grants .coremap) fun _ =>
    orDestroy (coremapDestroy ⟨false⟩) (acquire grants .frames) fun _ => pure (some ⟨true⟩)

/-- `CSC369_PageTableCreate`. -/
def pageTableCreate : Exec Held (Option Unit) :=
  whenSome (acquire grants .pageTable) fun _ =>
    whenSome (acquire grants .ptes) fun _ => pure (some ())

/-- `CSC369_MMCreate`. -/
def mmCreate : Exec Held (Option Unit) :=
  whenSome (acquire grants .mm) fun _ =>
    whenSome (pageTableCreate grants) fun _ => pure (some ())

/-- `CSC369_SimulationCreate`. -/
def simulationCreate : Exec Held (Option SimulationStruct) :=
  whenSome (acquire grants .simulation) fun _ =>
    let zeroed : SimulationStruct := {}
    orDestroy (simulationDestroy zeroed) (traceCreate grants) fun trace =>
      let traced := { zeroed with trace := some trace }
      orDestroy (simulationDestroy traced) (acquire grants .physmem) fun _ =>
        let physical := { traced with physmem := true }
        orDestroy (simulationDestroy physical) (swapCreate grants) fun swap =>
          let swapped := { physical with swap := some swap }
          orDestroy (simulationDestroy swapped) (coremapCreate grants) fun coremap =>
            let mapped := { swapped with coremap := some coremap }
            orDestroy (simulationDestroy mapped) (mmCreate grants) fun _ =>
              pure (some { mapped with mm := true })

/-! ## Requests -/

def Held.gain (held : Held) (resources : Finset Resource) : Held :=
  { held with live := held.live ∪ resources }

def Held.lose (held : Held) (resources : Finset Resource) : Held :=
  { held with live := held.live \ resources }

/-- The part releases just these, which are some of `all`, when they are held. -/
structure Destroys (part : Exec Held Unit) (resources all : Finset Resource) : Prop where
  runs : ∀ held, resources ⊆ held.live → part.run held = .ok () (held.lose resources)
  within : resources ⊆ all

section Parts
variable {grants} {held : Held} {resource first second : Resource}
  {part rest : Exec Held Unit} {resources others all all' : Finset Resource}

theorem Held.lose_empty : held.lose ∅ = held := by
  rw [lose, Finset.sdiff_empty]

theorem Held.lose_lose : (held.lose resources).lose others = held.lose (resources ∪ others) := by
  simp only [lose, sdiff_sdiff_left, Finset.sup_eq_union]

theorem Held.gain_gain : (held.gain resources).gain others = held.gain (resources ∪ others) := by
  simp only [gain, Finset.union_assoc]

theorem Held.gain_lose (apart : ∀ resource ∈ resources, resource ∉ held.live) :
    (held.gain resources).lose resources = held := by
  have disjoint : Disjoint held.live resources :=
    Finset.disjoint_left.mpr fun resource here there => apart resource there here
  rw [gain, lose, Finset.union_sdiff_cancel_right disjoint]

theorem destroys_release (resource : Resource) :
    Destroys (release resource) {resource} {resource} where
  runs := by
    intro held here
    have member : resource ∈ held.live := here (Finset.mem_singleton_self resource)
    have run : (release resource).run held =
        .ok () { held with live := held.live.erase resource } := by
      simp only [release, EStateM.run_bind, EStateM.run_get, decide_eq_true member,
        run_require_true]
      rfl
    rw [run, Held.lose, Finset.sdiff_singleton_eq_erase]
  within := Finset.Subset.refl _

theorem destroys_nothing : Destroys (pure ()) ∅ all where
  runs := by
    intro held _
    rw [Held.lose_empty]
    rfl
  within := Finset.empty_subset _

theorem Destroys.andThen (destroys : Destroys part resources all)
    (later : Destroys rest others all') (apart : Disjoint all all') :
    Destroys (do part; rest) (resources ∪ others) (all ∪ all') where
  runs := by
    intro held here
    have before := destroys.runs held (Finset.union_subset_left here)
    have different : Disjoint resources others := Finset.disjoint_of_subset_left destroys.within
      (Finset.disjoint_of_subset_right later.within apart)
    have stays : others ⊆ (held.lose resources).live :=
      Finset.subset_sdiff.mpr ⟨Finset.union_subset_right here, different.symm⟩
    rw [run_bind_of_ok before, later.runs _ stays, Held.lose_lose]
  within := Finset.union_subset_union destroys.within later.within

theorem Destroys.onlyIf (destroys : Destroys part resources all) (condition : Bool) :
    Destroys (onlyIf condition part) (if condition then resources else ∅) all := by
  cases condition with
  | true => exact destroys
  | false => exact destroys_nothing

theorem destroys_whenPresent {α : Type} {pointer : Option α} {destroy : α → Exec Held Unit}
    {resources : α → Finset Resource} (destroys : ∀ value, pointer = some value →
      Destroys (destroy value) (resources value) all) :
    Destroys (whenPresent pointer destroy) (pointer.elim ∅ resources) all := by
  cases pointer with
  | none => exact destroys_nothing
  | some value => exact destroys value rfl

theorem run_acquire_granted (granted : grants resource = true) :
    (acquire grants resource).run held = .ok (some ()) (held.gain {resource}) := by
  have same : held.gain {resource} = { held with live := insert resource held.live } := by
    rw [Held.gain, Finset.union_comm, Finset.insert_eq]
  rw [acquire, if_pos granted, same]
  rfl

theorem run_acquire_refused (refused : grants resource = false) :
    (acquire grants resource).run held = .ok none held := by
  rw [acquire, if_neg (by rw [refused]; exact Bool.false_ne_true)]
  rfl

section OrDestroy
variable {α β : Type} {destroy : Exec Held Unit} {request : Exec Held (Option α)}
  {next : α → Exec Held (Option β)} {middle after : Held} {value : α}

theorem run_orDestroy_of_some (run : request.run held = .ok (some value) middle) :
    (orDestroy destroy request next).run held = (next value).run middle := by
  rw [orDestroy, run_bind_of_ok run]

theorem run_orDestroy_of_none (run : request.run held = .ok none middle)
    (destroyed : destroy.run middle = .ok () after) :
    (orDestroy destroy request next).run held = .ok none after := by
  rw [orDestroy, run_bind_of_ok run]
  exact run_bind_of_ok destroyed

end OrDestroy

theorem run_pair {α : Type} {destroy : Exec Held Unit} {value : α}
    (destroys : Destroys destroy {first} all) :
    (grants first = true ∧ grants second = true →
      (whenSome (acquire grants first) fun _ =>
        orDestroy destroy (acquire grants second) fun _ => pure (some value)).run held =
          .ok (some value) (held.gain {first, second})) ∧
    (¬ (grants first = true ∧ grants second = true) → first ∉ held.live →
      (whenSome (acquire grants first) fun _ =>
        orDestroy destroy (acquire grants second) fun _ => pure (some value)).run held =
          .ok none held) := by
  constructor
  · intro both
    rw [run_whenSome_of_some (run_acquire_granted both.1),
      run_orDestroy_of_some (run_acquire_granted both.2), Held.gain_gain]
    rfl
  · intro refused apart
    cases granted : grants first with
    | false => exact run_whenSome_of_none (run_acquire_refused granted)
    | true =>
        have refused' : grants second = false := by simpa [granted] using refused
        rw [run_whenSome_of_some (run_acquire_granted granted)]
        refine run_orDestroy_of_none (run_acquire_refused refused') ?_
        rw [destroys.runs _ (Finset.subset_union_right), Held.gain_lose (by simpa using apart)]

end Parts

/-! ## What the structs hold -/

def TraceStruct.resources (trace : TraceStruct) : Finset Resource :=
  (if trace.file then {.traceFile} else ∅) ∪ {.trace}

def BitmapStruct.resources (bitmap : BitmapStruct) : Finset Resource :=
  (if bitmap.words then {.words} else ∅) ∪ {.bitmap}

def CoremapStruct.resources (coremap : CoremapStruct) : Finset Resource :=
  (if coremap.frames then {.frames} else ∅) ∪ {.coremap}

def SwapStruct.resources (swap : SwapStruct) : Finset Resource :=
  (if swap.fd = .opened then {.swapFile} else ∅) ∪
    (swap.swapmap.elim ∅ BitmapStruct.resources ∪ {.swap})

def SimulationStruct.resources (simulation : SimulationStruct) : Finset Resource :=
  simulation.trace.elim ∅ TraceStruct.resources ∪
    ((if simulation.physmem then {.physmem} else ∅) ∪
      (simulation.coremap.elim ∅ CoremapStruct.resources ∪
        (simulation.swap.elim ∅ SwapStruct.resources ∪
          ((if simulation.mm then {.ptes} ∪ ({.pageTable} ∪ {.mm}) else ∅) ∪ {.simulation}))))

theorem destroys_trace (trace : TraceStruct) :
    Destroys (traceDestroy trace) trace.resources ({.traceFile} ∪ {.trace}) :=
  ((destroys_release _).onlyIf _).andThen (destroys_release _) (by decide)

theorem destroys_bitmap (bitmap : BitmapStruct) :
    Destroys (bitmapDestroy bitmap) bitmap.resources ({.words} ∪ {.bitmap}) :=
  ((destroys_release _).onlyIf _).andThen (destroys_release _) (by decide)

theorem destroys_coremap (coremap : CoremapStruct) :
    Destroys (coremapDestroy coremap) coremap.resources ({.frames} ∪ {.coremap}) :=
  ((destroys_release _).onlyIf _).andThen (destroys_release _) (by decide)

theorem destroys_close {fd : Descriptor} (notZero : fd ≠ .zero) :
    Destroys (close fd) (if fd = .opened then {.swapFile} else ∅) {.swapFile} := by
  cases fd with
  | zero => contradiction
  | invalid => exact destroys_nothing
  | opened => exact destroys_release _

theorem destroys_swap {swap : SwapStruct} (notZero : swap.fd ≠ .zero) :
    Destroys (swapDestroy swap true) swap.resources
      ({.swapFile} ∪ ({.words} ∪ {.bitmap} ∪ {.swap})) := by
  have bitmap := @destroys_whenPresent ({.words} ∪ {.bitmap}) _ swap.swapmap _ _
    fun value _ => destroys_bitmap value
  exact (destroys_close notZero).andThen (bitmap.andThen (destroys_release _) (by decide))
    (by decide)

theorem destroys_mm :
    Destroys mmDestroy ({.ptes} ∪ ({.pageTable} ∪ {.mm})) ({.ptes} ∪ ({.pageTable} ∪ {.mm})) :=
  (destroys_release _).andThen ((destroys_release _).andThen (destroys_release _) (by decide))
    (by decide)

theorem destroys_simulation {simulation : SimulationStruct}
    (notZero : ∀ swap, simulation.swap = some swap → swap.fd ≠ .zero) :
    ∃ all, Destroys (simulationDestroy simulation) simulation.resources all := by
  have trace := @destroys_whenPresent ({.traceFile} ∪ {.trace}) _ simulation.trace _ _
    fun value _ => destroys_trace value
  have physmem := (destroys_release .physmem).onlyIf simulation.physmem
  have coremap := @destroys_whenPresent ({.frames} ∪ {.coremap}) _ simulation.coremap _ _
    fun value _ => destroys_coremap value
  have swap := @destroys_whenPresent ({.swapFile} ∪ ({.words} ∪ {.bitmap} ∪ {.swap})) _
    simulation.swap _ _ fun value present => destroys_swap (notZero value present)
  have manager := destroys_mm.onlyIf simulation.mm
  have last := manager.andThen (destroys_release .simulation) (by decide)
  have fromCoremap := coremap.andThen (swap.andThen last (by decide)) (by decide)
  exact ⟨_, trace.andThen (physmem.andThen fromCoremap (by decide)) (by decide)⟩

/-! ## Creation -/

def requests : List Resource :=
  [.simulation, .trace, .traceFile, .physmem, .swap, .bitmap, .words, .swapFile, .coremap,
    .frames, .mm, .pageTable, .ptes]

def firstRefused : Option Resource := requests.find? fun resource => !grants resource

/-- What is still held after a creation that failed at this request. -/
def leaked : Resource → Finset Resource
  | .pageTable => {.mm}
  | .ptes => {.mm, .pageTable}
  | _ => ∅

/-- Whether standard input is closed when this request is refused. -/
def closesStdin : Resource → Bool
  | .bitmap => true
  | .words => true
  | _ => false

/-- What a request that is refused leaves behind. -/
def Held.spoil (held : Held) (resource : Resource) : Held :=
  ⟨held.live ∪ leaked resource, held.stdin && !closesStdin resource⟩

theorem Held.spoil_eq {held : Held} {resource : Resource} (nothing : leaked resource = ∅)
    (open' : closesStdin resource = false) : held.spoil resource = held := by
  rw [spoil, nothing, open', Finset.union_empty, Bool.not_false, Bool.and_true]

/-- The part makes these requests, in order, until one is refused. -/
structure Creates {α : Type} (part : Exec Held (Option α)) (wanted : List Resource) (value : α) :
    Prop where
  granted : (wanted.find? fun resource => !grants resource) = none → ∀ held,
    part.run held = .ok (some value) (held.gain wanted.toFinset)
  refused : ∀ resource, (wanted.find? fun resource => !grants resource) = some resource →
    ∀ held, (∀ other ∈ wanted, other ∉ held.live) →
      part.run held = .ok none (held.spoil resource)

/-- The rest of a creation, from the state on. -/
structure Continues (part : Exec Held (Option SimulationStruct)) (start : Held)
    (wanted : List Resource) (value : SimulationStruct) : Prop where
  granted : (wanted.find? fun resource => !grants resource) = none →
    part.run start = .ok (some value) (start.gain wanted.toFinset)
  refused : ∀ resource, (wanted.find? fun resource => !grants resource) = some resource →
    part.run start = .ok none ⟨leaked resource, start.stdin && !closesStdin resource⟩

section Creation
variable {grants} {resource first second : Resource} {wanted rest : List Resource} {held : Held}

theorem granted_of_find? (found : (wanted.find? fun resource => !grants resource) = none)
    (member : resource ∈ wanted) : grants resource = true := by
  have granted := List.find?_eq_none.mp found resource member
  simpa using granted

theorem refused_of_find? (found : (wanted.find? fun resource => !grants resource) = some resource) :
    grants resource = false := by
  have refused := List.find?_some found
  simpa using refused

theorem creates_acquire (nothing : leaked resource = ∅) (open' : closesStdin resource = false) :
    Creates grants (acquire grants resource) [resource] () where
  granted := fun found held => run_acquire_granted (granted_of_find? found (by simp))
  refused := by
    intro other found held _
    have same : resource = other := by
      have member := List.mem_of_find?_eq_some found
      exact (List.mem_singleton.mp member).symm
    subst same
    rw [run_acquire_refused (refused_of_find? found), Held.spoil_eq nothing open']

theorem creates_pair {α : Type} {destroy : Exec Held Unit} {value : α} {all : Finset Resource}
    (destroys : Destroys destroy {first} all)
    (clean : ∀ resource ∈ [first, second],
      leaked resource = ∅ ∧ closesStdin resource = false) :
    Creates grants (whenSome (acquire grants first) fun _ =>
      orDestroy destroy (acquire grants second) fun _ => pure (some value))
      [first, second] value where
  granted := by
    intro found held
    have both := @run_pair grants held first second all α destroy value destroys
    rw [both.1 ⟨granted_of_find? found (by simp), granted_of_find? found (by simp)⟩,
      List.toFinset_cons, List.toFinset_cons, List.toFinset_nil, insert_empty_eq]
  refused := by
    intro resource found held apart
    have both := @run_pair grants held first second all α destroy value destroys
    obtain ⟨nothing, open'⟩ := clean resource (List.mem_of_find?_eq_some found)
    rw [Held.spoil_eq nothing open']
    refine both.2 (fun granted => ?_) (apart first (by simp))
    have refused := refused_of_find? found
    rcases List.mem_cons.mp (List.mem_of_find?_eq_some found) with rfl | other
    · rw [granted.1] at refused
      contradiction
    · rw [List.mem_singleton.mp other, granted.2] at refused
      contradiction

theorem creates_trace : Creates grants (traceCreate grants) [.trace, .traceFile] ⟨true⟩ :=
  creates_pair (destroys_trace ⟨false⟩) (by decide)

theorem creates_coremap : Creates grants (coremapCreate grants) [.coremap, .frames] ⟨true⟩ :=
  creates_pair (destroys_coremap ⟨false⟩) (by decide)

/-- The swap struct is released with descriptor 0 closed while the file is not open. -/
theorem run_swapDestroy_zero (apart : .swap ∉ held.live) :
    (swapDestroy ⟨none, .zero⟩ true).run (held.gain {.swap}) =
      .ok () { held with stdin := false } := by
  let closed : Held := { held with stdin := false }
  have closing : (close .zero).run (held.gain {.swap}) = .ok () (closed.gain {.swap}) := rfl
  have released := (destroys_release .swap).runs (closed.gain {.swap}) Finset.subset_union_right
  rw [Held.gain_lose (by simpa [closed] using apart)] at released
  rw [swapDestroy, run_bind_of_ok closing]
  exact released

theorem run_bitmapCreate : (grants .bitmap = true ∧ grants .words = true →
      (bitmapCreate grants).run held = .ok (some ⟨true⟩) (held.gain {.bitmap, .words})) ∧
    (¬ (grants .bitmap = true ∧ grants .words = true) → .bitmap ∉ held.live →
      (bitmapCreate grants).run held = .ok none held) :=
  run_pair (destroys_bitmap ⟨false⟩)

theorem refused_bitmap (swap : grants .swap = true)
    (notBoth : ¬ (grants .bitmap = true ∧ grants .words = true))
    (found : ([Resource.swap, .bitmap, .words, .swapFile].find? fun resource =>
      !grants resource) = some resource) : resource = .bitmap ∨ resource = .words := by
  cases bitmap : grants .bitmap with
  | false =>
      simp only [List.find?_cons, swap, bitmap, Bool.not_true, Bool.not_false] at found
      exact .inl (Option.some.inj found).symm
  | true =>
      have words : grants .words = false := by simpa [bitmap] using notBoth
      simp only [List.find?_cons, swap, bitmap, words, Bool.not_true, Bool.not_false] at found
      exact .inr (Option.some.inj found).symm

theorem creates_swap : Creates grants (swapCreate grants) [.swap, .bitmap, .words, .swapFile]
    ⟨some ⟨true⟩, .opened⟩ where
  granted := by
    intro found held
    have granted : ∀ {resource}, resource ∈ [Resource.swap, .bitmap, .words, .swapFile] →
        grants resource = true := fun member => granted_of_find? found member
    have both := And.intro (granted (by decide : Resource.bitmap ∈ _))
      (granted (by decide : Resource.words ∈ _))
    rw [swapCreate, run_whenSome_of_some (run_acquire_granted (granted (by decide))),
      run_orDestroy_of_some (run_bitmapCreate.1 both),
      run_orDestroy_of_some (run_acquire_granted (granted (by decide))), Held.gain_gain,
      Held.gain_gain]
    rfl
  refused := by
    intro resource found held apart
    cases swap : grants .swap with
    | false =>
        simp only [List.find?_cons, swap, Bool.not_false, Option.some.injEq] at found
        subst found
        rw [swapCreate, run_whenSome_of_none (run_acquire_refused swap), Held.spoil_eq rfl rfl]
    | true =>
        rw [swapCreate, run_whenSome_of_some (run_acquire_granted swap)]
        by_cases both : grants .bitmap = true ∧ grants .words = true
        · rw [run_orDestroy_of_some (run_bitmapCreate.1 both)]
          have file : grants .swapFile = false := by
            cases file : grants .swapFile with
            | false => rfl
            | true => simp [swap, both.1, both.2, file] at found
          simp only [List.find?_cons, swap, both.1, both.2, file, Bool.not_true, Bool.not_false,
            Option.some.injEq] at found
          subst found
          refine run_orDestroy_of_none (run_acquire_refused file) ?_
          have destroyed := (@destroys_swap ⟨some ⟨true⟩, .invalid⟩ (by decide)).runs
            ((held.gain {.swap}).gain {.bitmap, .words})
          have same : SwapStruct.resources ⟨some ⟨true⟩, .invalid⟩ =
              {.swap} ∪ {.bitmap, .words} := by decide
          rw [same, Held.gain_gain] at destroyed
          rw [Held.gain_gain, destroyed Finset.subset_union_right, Held.spoil_eq rfl rfl,
            Held.gain_lose]
          intro other member
          exact apart other (by revert other; decide)
        · have closes : leaked resource = ∅ ∧ closesStdin resource = true := by
            rcases refused_bitmap swap both found with rfl | rfl
            · exact ⟨rfl, rfl⟩
            · exact ⟨rfl, rfl⟩
          have noBitmap : Resource.bitmap ∉ (held.gain {.swap}).live := by
            have absent := apart .bitmap (by decide)
            simpa [Held.gain] using absent
          refine (run_orDestroy_of_none (run_bitmapCreate.2 both noBitmap)
            (run_swapDestroy_zero (apart .swap (by decide)))).trans ?_
          rw [Held.spoil, closes.1, closes.2, Finset.union_empty, Bool.not_true, Bool.and_false]

theorem creates_mm : Creates grants (mmCreate grants) [.mm, .pageTable, .ptes] () where
  granted := by
    intro found held
    have granted : ∀ {resource}, resource ∈ [Resource.mm, .pageTable, .ptes] →
        grants resource = true := fun member => granted_of_find? found member
    have table : (pageTableCreate grants).run (held.gain {.mm}) =
        .ok (some ()) (((held.gain {.mm}).gain {.pageTable}).gain {.ptes}) := by
      rw [pageTableCreate, run_whenSome_of_some (run_acquire_granted (granted (by decide))),
        run_whenSome_of_some (run_acquire_granted (granted (by decide)))]
      rfl
    rw [mmCreate, run_whenSome_of_some (run_acquire_granted (granted (by decide))),
      run_whenSome_of_some table, Held.gain_gain, Held.gain_gain]
    rfl
  refused := by
    intro resource found held _
    cases mm : grants .mm with
    | false =>
        simp only [List.find?_cons, mm, Bool.not_false, Option.some.injEq] at found
        subst found
        rw [mmCreate, run_whenSome_of_none (run_acquire_refused mm), Held.spoil_eq rfl rfl]
    | true =>
        rw [mmCreate, run_whenSome_of_some (run_acquire_granted mm)]
        cases table : grants .pageTable with
        | false =>
            simp only [List.find?_cons, mm, table, Bool.not_true, Bool.not_false,
              Option.some.injEq] at found
            subst found
            have failed : (pageTableCreate grants).run (held.gain {.mm}) =
                .ok none (held.gain {.mm}) := run_whenSome_of_none (run_acquire_refused table)
            rw [run_whenSome_of_none failed, Held.spoil]
            simp [Held.gain, leaked, closesStdin]
        | true =>
            have ptes : grants .ptes = false := by
              cases ptes : grants .ptes with
              | false => rfl
              | true => simp [mm, table, ptes] at found
            simp only [List.find?_cons, mm, table, ptes, Bool.not_true, Bool.not_false,
              Option.some.injEq] at found
            subst found
            have failed : (pageTableCreate grants).run (held.gain {.mm}) =
                .ok none ((held.gain {.mm}).gain {.pageTable}) := by
              rw [pageTableCreate, run_whenSome_of_some (run_acquire_granted table)]
              exact run_whenSome_of_none (run_acquire_refused ptes)
            rw [run_whenSome_of_none failed, Held.spoil, Held.gain_gain]
            simp [Held.gain, leaked, closesStdin]

theorem continues_pure {start : Held} {simulation : SimulationStruct} :
    Continues grants (pure (some simulation)) start [] simulation where
  granted := by
    intro _
    rw [List.toFinset_nil, Held.gain, Finset.union_empty]
    rfl
  refused := by
    intro resource found
    contradiction

theorem Creates.andThen {α : Type} {part : Exec Held (Option α)} {value : α}
    {next : α → Exec Held (Option SimulationStruct)} {simulation final : SimulationStruct}
    {live : Finset Resource} {stdin : Bool} (creates : Creates grants part wanted value)
    (notZero : ∀ swap, simulation.swap = some swap → swap.fd ≠ .zero)
    (holds : live = simulation.resources) (apart : ∀ other ∈ wanted, other ∉ live)
    (leaks : ∀ resource ∈ wanted, Disjoint (leaked resource) live)
    (later : Continues grants (next value) ⟨live ∪ wanted.toFinset, stdin⟩ rest final) :
    Continues grants (orDestroy (simulationDestroy simulation) part next) ⟨live, stdin⟩
      (wanted ++ rest) final where
  granted := by
    intro found
    rw [List.find?_append, Option.or_eq_none_iff] at found
    rw [run_orDestroy_of_some (creates.granted found.1 _)]
    refine (later.granted found.2).trans ?_
    rw [List.toFinset_append, ← Held.gain_gain]
    rfl
  refused := by
    intro resource found
    rw [List.find?_append] at found
    cases first : wanted.find? fun resource => !grants resource with
    | none =>
        rw [first, Option.none_or] at found
        rw [run_orDestroy_of_some (creates.granted first _)]
        exact later.refused resource found
    | some other =>
        rw [first, Option.some_or] at found
        cases found
        obtain ⟨all, destroys⟩ := destroys_simulation notZero
        have member := List.mem_of_find?_eq_some first
        refine (run_orDestroy_of_none (creates.refused resource first _ apart)
          (destroys.runs _ ?_)).trans ?_
        · rw [← holds]
          exact Finset.subset_union_left
        · rw [← holds, Held.lose, Held.spoil, Finset.union_sdiff_cancel_left (leaks _ member).symm]

theorem continues_first {next : Unit → Exec Held (Option SimulationStruct)}
    {final : SimulationStruct} {stdin : Bool} (nothing : leaked resource = ∅)
    (open' : closesStdin resource = false)
    (later : Continues grants (next ()) ⟨∅ ∪ {resource}, stdin⟩ rest final) :
    Continues grants (whenSome (acquire grants resource) next) ⟨∅, stdin⟩ (resource :: rest)
      final where
  granted := by
    intro found
    have granted := granted_of_find? found List.mem_cons_self
    rw [run_whenSome_of_some (run_acquire_granted granted)]
    rw [List.find?_cons_of_neg (by simp [granted])] at found
    refine (later.granted found).trans ?_
    rw [List.toFinset_cons, Finset.insert_eq, ← Held.gain_gain]
    rfl
  refused := by
    intro other found
    cases granted : grants resource with
    | false =>
        rw [List.find?_cons_of_pos (by simp [granted])] at found
        cases found
        rw [run_whenSome_of_none (run_acquire_refused granted), nothing, open', Bool.not_false,
          Bool.and_true]
    | true =>
        rw [List.find?_cons_of_neg (by simp [granted])] at found
        rw [run_whenSome_of_some (run_acquire_granted granted)]
        exact later.refused other found

theorem continues_simulationCreate (stdin : Bool) : Continues grants (simulationCreate grants)
    ⟨∅, stdin⟩ requests ⟨some ⟨true⟩, true, some ⟨true⟩, some ⟨some ⟨true⟩, .opened⟩, true⟩ := by
  have opened : ∀ swap, some (⟨some ⟨true⟩, .opened⟩ : SwapStruct) = some swap →
      swap.fd ≠ .zero := by
    rintro swap ⟨⟩
    decide
  have noSwap : ∀ swap : SwapStruct, none = some swap → swap.fd ≠ .zero := fun _ none' => by
    contradiction
  change Continues grants _ _ (.simulation :: ([.trace, .traceFile] ++ ([.physmem] ++
    ([.swap, .bitmap, .words, .swapFile] ++ ([.coremap, .frames] ++
      ([.mm, .pageTable, .ptes] ++ [])))))) _
  refine continues_first rfl rfl ?_
  refine creates_trace.andThen noSwap (by decide) (by decide) (by decide) ?_
  refine (creates_acquire rfl rfl).andThen noSwap (by decide) (by decide) (by decide) ?_
  refine creates_swap.andThen noSwap (by decide) (by decide) (by decide) ?_
  refine creates_coremap.andThen opened (by decide) (by decide) (by decide) ?_
  refine creates_mm.andThen opened (by decide) (by decide) (by decide) ?_
  exact continues_pure

end Creation

/-- A simulation that is created holds all it has requested, and gives it back when it
is destroyed; what a signal handler destroys of it is the swap file.  If a request is
refused, all that was acquired before is given back, but for the blocks of the manager;
standard input is closed if it was a request for the bitmap. -/
theorem creation_gives_back (stdin : Bool) :
    (firstRefused grants = none → ∃ simulation,
      (simulationCreate grants).run ⟨∅, stdin⟩ =
        .ok (some simulation) ⟨requests.toFinset, stdin⟩ ∧
      (simulationDestroy simulation).run ⟨requests.toFinset, stdin⟩ = .ok () ⟨∅, stdin⟩ ∧
      (simulationDestroySwap simulation).run ⟨requests.toFinset, stdin⟩ =
        .ok () ⟨requests.toFinset.erase .swapFile, stdin⟩) ∧
    ∀ resource, firstRefused grants = some resource →
      (simulationCreate grants).run ⟨∅, stdin⟩ =
        .ok none ⟨leaked resource, stdin && !closesStdin resource⟩ := by
  have continues := @continues_simulationCreate grants stdin
  refine ⟨fun none' => ⟨_, continues.granted none', ?_, ?_⟩, continues.refused⟩
  · obtain ⟨all, destroys⟩ := @destroys_simulation
      ⟨some ⟨true⟩, true, some ⟨true⟩, some ⟨some ⟨true⟩, .opened⟩, true⟩ (by
        rintro swap ⟨⟩
        decide)
    have same : requests.toFinset = SimulationStruct.resources
        ⟨some ⟨true⟩, true, some ⟨true⟩, some ⟨some ⟨true⟩, .opened⟩, true⟩ := by decide
    rw [same, destroys.runs _ (Finset.Subset.refl _), Held.lose]
    simp only [sdiff_self, Finset.bot_eq_empty]
  · -- the memory stays with the process, which is about to end
    have requested : {.swapFile} ⊆ requests.toFinset := by decide
    have closing := (@destroys_close .opened (by decide)).runs ⟨requests.toFinset, stdin⟩ requested
    refine (run_bind_of_ok closing).trans ?_
    rw [Held.lose, if_pos rfl, Finset.sdiff_singleton_eq_erase]
    rfl

/-- The words of the bitmap are refused. -/
theorem creation_gives_back_words :
    firstRefused (fun resource => resource != .words) = some .words ∧
    (simulationCreate fun resource => resource != .words).run ⟨∅, true⟩ =
      .ok none ⟨∅, false⟩ :=
  ⟨by decide, (creation_gives_back (fun resource => resource != .words) true).2 .words
    (by decide)⟩

/-! ## The simulation that is created -/

/-- The answers to the requests of a creation in a fresh process. -/
def requested (env : Env) (file : Option (List Char)) (swapsize : Nat) : Resource → Bool
  | .simulation => env.calloc 1 48
  | .trace => env.calloc 1 272
  | .traceFile => file.isSome
  | .physmem => env.calloc env.memsize simulatedFrameSize
  | .swap => env.calloc 1 48
  | .bitmap => env.calloc 1 16
  | .words => env.calloc (nwordsForNbits swapsize) 8
  | .swapFile => true
  | .coremap => env.calloc 1 24
  | .frames => env.calloc env.memsize 32
  | .mm => (mallocAnswer env Tracker.init sizeofMM).isSome
  | .pageTable => (mallocAnswer env (Tracker.init.grant env [sizeofMM]) sizeofPageTable).isSome
  | .ptes =>
      (mallocAnswer env (Tracker.init.grant env [sizeofMM, sizeofPageTable]) sizeofPtes).isSome

theorem mem_requests (resource : Resource) : resource ∈ requests := by
  cases resource <;> decide

theorem firstRefused_eq_none_iff : firstRefused grants = none ↔
    ∀ resource, grants resource = true := by
  constructor
  · exact fun none' resource => granted_of_find? none' (mem_requests resource)
  · intro granted
    refine List.find?_eq_none.mpr fun resource _ => ?_
    rw [granted resource]
    decide

section Created
variable {env : Env} {policy : Policy} {random : Nat → Nat} {file : Option (List Char)}
  {swapsize : Nat}

theorem mmCreate_outcome :
    ((requested env file swapsize .mm = true ∧ requested env file swapsize .pageTable = true ∧
      requested env file swapsize .ptes = true) ∧ ∃ mm root after,
        (MemSim.mmCreate env).run Heap.empty = .ok (some (mm, root)) after) ∨
    ((∃ resource, requested env file swapsize resource = false) ∧
      ∃ after, (MemSim.mmCreate env).run Heap.empty = .ok none after) := by
  by_cases all : requested env file swapsize .mm = true ∧
      requested env file swapsize .pageTable = true ∧ requested env file swapsize .ptes = true
  · refine .inl ⟨all, mmCreate_granted ?_⟩
    exact ⟨all.1, all.2.1, all.2.2, trivial⟩
  · right
    have request := run_onTracker_csc369Malloc env Heap.empty sizeofMM
    cases mm : mallocAnswer env Heap.empty.tracker sizeofMM with
    | none =>
        rw [mm] at request
        refine ⟨⟨.mm, ?_⟩, _, run_whenSome_of_none request⟩
        exact Option.isSome_eq_false_iff.mpr (Option.isNone_iff_eq_none.mpr mm)
    | some block =>
        rw [mm] at request
        let recorded := Heap.empty.setTracker (Heap.empty.tracker.record sizeofMM (some block))
        have same : Tracker.init.grant env [sizeofMM] = recorded.tracker := by
          have answer : mallocAnswer env Tracker.init sizeofMM = some block := mm
          simp only [Tracker.grant, List.foldl_cons, List.foldl_nil, answer]
          rfl
        cases table : mallocAnswer env recorded.tracker sizeofPageTable with
        | none =>
            refine ⟨⟨.pageTable, ?_⟩,
              recorded.setTracker (recorded.tracker.record sizeofPageTable none), ?_⟩
            · simp only [requested, same, table, Option.isSome_none]
            · rw [MemSim.mmCreate, run_whenSome_of_some request]
              exact run_whenSome_of_none (run_pageTableCreate_of_none env table)
        | some block' =>
            have same' : Tracker.init.grant env [sizeofMM, sizeofPageTable] =
                recorded.tracker.record sizeofPageTable (some block') := by
              rw [← table, ← same]
              rfl
            cases ptes : mallocAnswer env (recorded.tracker.record sizeofPageTable (some block'))
                sizeofPtes with
            | none =>
                refine ⟨⟨.ptes, ?_⟩, recorded.setTracker
                  ((recorded.tracker.record sizeofPageTable (some block')).record sizeofPtes none),
                  ?_⟩
                · simp only [requested, same', ptes, Option.isSome_none]
                · rw [MemSim.mmCreate, run_whenSome_of_some request]
                  exact run_whenSome_of_none (run_pageTableCreate_of_some_none env table ptes)
            | some block'' =>
                refine absurd ⟨?_, ?_, ?_⟩ all
                · exact Option.isSome_iff_exists.mpr ⟨block, mm⟩
                · simp only [requested, same, table, Option.isSome_some]
                · simp only [requested, same', ptes, Option.isSome_some]

theorem swapCreate_outcome (swapFits : swapsize < 2 ^ 64) :
    ((requested env file swapsize .swap = true ∧ requested env file swapsize .bitmap = true ∧
      requested env file swapsize .words = true) ∧
        ∃ swapmap, MemSim.swapCreate env swapsize = .ok (some swapmap)) ∨
    ((∃ resource, requested env file swapsize resource = false) ∧
      MemSim.swapCreate env swapsize = .ok none) := by
  unfold MemSim.swapCreate
  cases swap : env.calloc 1 48 with
  | false => exact .inr ⟨⟨.swap, swap⟩, rfl⟩
  | true =>
      cases bitmap : env.calloc 1 16 with
      | false =>
          refine .inr ⟨⟨.bitmap, bitmap⟩, ?_⟩
          simp only [MemSim.bitmapCreate, bitmap, Bool.false_and, Bool.not_false, if_true]
          rfl
      | true =>
          cases words : env.calloc (nwordsForNbits swapsize) 8 with
          | false =>
              refine .inr ⟨⟨.words, words⟩, ?_⟩
              simp only [MemSim.bitmapCreate, words, Bool.and_false, Bool.not_false, if_true]
              rfl
          | true =>
              obtain ⟨swapmap, create, -⟩ := bitmapCreate_spec env swapFits bitmap words
              exact .inl ⟨⟨swap, bitmap, words⟩, swapmap, create⟩

theorem simulationCreate_outcome (member : policy ∈ policies random)
    (swapFits : swapsize < 2 ^ 64) (simulation : env.calloc 1 48 = true)
    (trace : env.calloc 1 272 = true) (isFile : file.isSome = true) :
    ((∀ resource, requested env file swapsize resource = true) ∧ ∃ world,
      MemSim.simulationCreate env policy (Process.fresh policy) swapsize = .ok (some world)) ∨
    ((∃ resource, requested env file swapsize resource = false) ∧
      MemSim.simulationCreate env policy (Process.fresh policy) swapsize = .ok none) := by
  unfold MemSim.simulationCreate
  cases physmem : env.calloc env.memsize simulatedFrameSize with
  | false =>
      refine .inr ⟨⟨.physmem, physmem⟩, ?_⟩
      simp only [Bool.and_false, Bool.not_false, if_true]
      rfl
  | true =>
      simp only [simulation, Bool.and_self, Bool.not_true, Bool.false_eq_true, if_false]
      rcases @swapCreate_outcome env file swapsize swapFits with
        ⟨⟨swap, bitmap, words⟩, swapmap, created⟩ | ⟨refused, created⟩
      · simp only [created, bind, Except.bind]
        cases coremap : env.calloc 1 24 with
        | false =>
            refine .inr ⟨⟨.coremap, coremap⟩, ?_⟩
            simp only [Bool.false_and, Bool.not_false, if_true]
            rfl
        | true =>
            cases frames : env.calloc env.memsize 32 with
            | false =>
                refine .inr ⟨⟨.frames, frames⟩, ?_⟩
                simp only [Bool.and_false, Bool.not_false, if_true]
                rfl
            | true =>
                simp only [Bool.and_self, Bool.not_true, Bool.false_eq_true, if_false]
                have heap : (Process.fresh policy).heap = Heap.empty := rfl
                rw [heap]
                rcases @mmCreate_outcome env file swapsize with
                  ⟨⟨mm, table, ptes⟩, block, root, after, manager⟩ | ⟨refused, after, manager⟩
                · simp only [manager]
                  obtain ⟨state, init⟩ := @policies_init policy random member
                    ⟨after, fun _ => ⟨true, none⟩, coremapLinks env (Process.fresh policy).heads,
                      (Process.fresh policy).own⟩ ⟨rfl, rfl⟩
                  simp only [init]
                  refine .inl ⟨?_, _, rfl⟩
                  intro resource
                  cases resource with
                  | simulation => exact simulation
                  | trace => exact trace
                  | traceFile => exact isFile
                  | physmem => exact physmem
                  | swap => exact swap
                  | bitmap => exact bitmap
                  | words => exact words
                  | swapFile => rfl
                  | coremap => exact coremap
                  | frames => exact frames
                  | mm => exact mm
                  | pageTable => exact table
                  | ptes => exact ptes
                · simp only [manager]
                  exact .inr ⟨refused, rfl⟩
      · simp only [created, bind, Except.bind]
        exact .inr ⟨refused, rfl⟩

/-- A simulation is created when all its requests are granted, and a null pointer is
returned otherwise. -/
theorem createTracedSimulation_outcome (member : policy ∈ policies random)
    (swapFits : swapsize < 2 ^ 64) :
    (firstRefused (requested env file swapsize) = none → ∃ simulation,
      createTracedSimulation env policy (Process.fresh policy) file swapsize =
        .ok (some simulation)) ∧
    ∀ resource, firstRefused (requested env file swapsize) = some resource →
      createTracedSimulation env policy (Process.fresh policy) file swapsize = .ok none := by
  have outcome : ((∀ resource, requested env file swapsize resource = true) ∧ ∃ simulation,
      createTracedSimulation env policy (Process.fresh policy) file swapsize =
        .ok (some simulation)) ∨
      ((∃ resource, requested env file swapsize resource = false) ∧
        createTracedSimulation env policy (Process.fresh policy) file swapsize = .ok none) := by
    unfold createTracedSimulation
    cases simulation : env.calloc 1 48 with
    | false =>
        refine .inr ⟨⟨.simulation, simulation⟩, ?_⟩
        simp only [Bool.false_and, Bool.not_false, if_true]
        rfl
    | true =>
        cases trace : env.calloc 1 272 with
        | false =>
            refine .inr ⟨⟨.trace, trace⟩, ?_⟩
            simp only [Bool.and_false, Bool.not_false, if_true]
            rfl
        | true =>
            simp only [Bool.and_self, Bool.not_true, Bool.false_eq_true, if_false]
            cases file with
            | none => exact .inr ⟨⟨.traceFile, rfl⟩, rfl⟩
            | some text =>
                rcases @simulationCreate_outcome env policy random (some text) swapsize member
                  swapFits simulation trace rfl with ⟨granted, world, created⟩ | ⟨refused, created⟩
                · simp only [created, bind, Except.bind]
                  exact .inl ⟨granted, _, rfl⟩
                · simp only [created, bind, Except.bind]
                  exact .inr ⟨refused, rfl⟩
  rcases outcome with ⟨granted, created⟩ | ⟨⟨resource, refused⟩, created⟩
  · refine ⟨fun _ => created, fun resource found => ?_⟩
    exact absurd (granted resource) (by rw [refused_of_find? found]; exact Bool.false_ne_true)
  · refine ⟨fun none' => ?_, fun _ _ => created⟩
    rw [(firstRefused_eq_none_iff _).mp none' resource] at refused
    contradiction

end Created

end MemSim.Lifecycle
