import MemSim.Coremap

/-!
# The replacement policies

`csc369_policy_rr.c`, `csc369_policy_rand.c`, `csc369_policy_clock.c` and
`csc369_policy_s2q.c`.  Each is shown to change nothing but list links,
reference bits and its own variables.
-/

set_option autoImplicit false

namespace MemSim

open Exec

section Parts
variable {σ α : Type}

def PolicyState.setHeap (state : PolicyState σ) (heap : Heap) : PolicyState σ :=
  { state with heap := heap }

def PolicyState.setLinks (state : PolicyState σ) (links : Entries EntryAddr) : PolicyState σ :=
  { state with links := links }

def PolicyState.setOwn (state : PolicyState σ) (own : σ) : PolicyState σ :=
  { state with own := own }

def onPtes (part : Exec Heap α) : Exec (PolicyState σ) α :=
  onPart PolicyState.heap PolicyState.setHeap part

def onLinks (part : Exec (Entries EntryAddr) α) : Exec (PolicyState σ) α :=
  onPart PolicyState.links PolicyState.setLinks part

def setOwn (own : σ) : Exec (PolicyState σ) Unit := modify fun state => state.setOwn own

/-- `frame->pte` -/
def framePte (frame : Nat) : Exec (PolicyState σ) (Option Addr) := do
  let state ← get
  pure (state.frames frame).pte

/-- `container_of(entry, CSC369_Frame, framelist_entry)`, for a pointer that is
dereferenced next. -/
def containerFrame : Option EntryAddr → Exec (PolicyState σ) Nat
  | none => stop .nullPointer
  | some (.frame index) => do
      let state ← get
      require (state.links.mapped (.frame index)) .wildPointer
      pure index
  | some _ => stop .wildPointer

/-- `&frame->framelist_entry` -/
def frameEntry (frame : Nat) : Option EntryAddr := some (.frame frame)

end Parts

/-! ## Round robin -/

def rrOnRef (_frame : Nat) : Exec (PolicyState Nat) Unit := pure ()

/-- `CSC369_PolicyRREvict`; the static `i` is the policy's state. -/
def rrEvict (memsize : Nat) : Exec (PolicyState Nat) Nat := do
  let state ← get
  let victim := state.own
  setOwn ((state.own + 1) % memsize)
  pure victim

/-! ## Random -/

def randOnRef (_frame : Nat) : Exec (PolicyState Nat) Unit := pure ()

/-- `CSC369_PolicyRandEvict`.  `random` is the sequence of values the library
function returns; the state counts its calls. -/
def randEvict (random : Nat → Nat) (memsize : Nat) : Exec (PolicyState Nat) Nat := do
  let state ← get
  setOwn (state.own + 1)
  pure (random state.own % memsize)

/-! ## Clock -/

/-- The static variables `list` and `hand`.  The head of the list is the first
field of `list_head`, so a head and the entry in its place have one address. -/
structure ClockStatics where
  list : Option EntryAddr
  hand : Option EntryAddr
  deriving DecidableEq, Repr

def setList (list : Option EntryAddr) : Exec (PolicyState ClockStatics) Unit :=
  modify fun state => state.setOwn { state.own with list := list }

def setHand (hand : Option EntryAddr) : Exec (PolicyState ClockStatics) Unit :=
  modify fun state => state.setOwn { state.own with hand := hand }

def clockCleanup : Exec (PolicyState ClockStatics) Unit := do
  let state ← get
  onLinks (listDestroy state.own.list)

/-- `CSC369_PolicyClockOnRef`. -/
def clockOnRef (frame : Nat) : Exec (PolicyState ClockStatics) Unit := do
  let pte ← framePte frame
  onPtes (pteSetReferenced pte true)
  let currEntry := frameEntry frame
  let state ← get
  if state.own.list.isNone then
    onLinks (listEntryInit currEntry)
    setList currEntry
    onLinks (listInit currEntry)
    setHand currEntry
  else
    let linked ← onLinks (listEntryIsLinked currEntry)
    onlyIf (!linked) do
      onLinks (listEntryInit currEntry)
      onLinks (listAddTail state.own.list currEntry)
      setHand currEntry

/-- `hand = hand->next` -/
def advanceHand : Exec (PolicyState ClockStatics) Unit := do
  let state ← get
  let next ← onLinks (readNext state.own.hand)
  setHand next

/-- The branch of `CSC369_PolicyClockEvict` that evicts the frame at the hand. -/
def clockTake (currFrame : Nat) : Exec (PolicyState ClockStatics) Nat := do
  let state ← get
  let hand := state.own.hand
  let next ← onLinks (readNext hand)
  setList next
  onLinks (listDel hand)
  onLinks (listEntryInit hand)
  -- evicting head & only element
  onlyIf (hand = next) (setList none)
  let pte ← framePte currFrame
  onPtes (pteGetFrameNumber pte)

/-- The loop of `CSC369_PolicyClockEvict`; `fuel` bounds its iterations. -/
def clockSweep : (fuel : Nat) → Exec (PolicyState ClockStatics) Nat
  | 0 => stop .outOfFuel
  | fuel + 1 => do
      let state ← get
      let currFrame ← containerFrame state.own.hand
      let pte ← framePte currFrame
      let referenced ← onPtes (pteIsReferenced pte)
      if !referenced then clockTake currFrame
      else do
        onPtes (pteSetReferenced pte false)
        advanceHand
        clockSweep fuel

/-- `CSC369_PolicyClockEvict`. -/
def clockEvict (memsize : Nat) : Exec (PolicyState ClockStatics) Nat := do
  advanceHand
  clockSweep (memsize + 1)

/-! ## Simplified 2Q -/

def headA1 : Option EntryAddr := some .a1

def headAm : Option EntryAddr := some .am

def s2qInit : Exec (PolicyState Unit) Unit := do
  onLinks (listInit headA1)
  onLinks (listInit headAm)

def s2qCleanup : Exec (PolicyState Unit) Unit := do
  onLinks (listDestroy headA1)
  onLinks (listDestroy headAm)

/-- `CSC369_PolicyS2QOnRef`. -/
def s2qOnRef (frame : Nat) : Exec (PolicyState Unit) Unit := do
  let state ← get
  require (!(state.frames frame).free) (.failed .frameInUse)
  let currEntry := frameEntry frame
  let linked ← onLinks (listEntryIsLinked currEntry)
  if !linked then
    onLinks (listAddTail headA1 currEntry)
  else
    let pte ← framePte frame
    let referenced ← onPtes (pteIsReferenced pte)
    onlyIf (!referenced) (onPtes (pteSetReferenced pte true))
    onLinks (listDel currEntry)
    onLinks (listAddHead headAm currEntry)

/-- The entry to evict, given the size of A1. -/
def s2qVictim (size memsize : Nat) : Exec (Entries EntryAddr) (Option EntryAddr) :=
  if size > memsize / 10 then listFirstEntry headA1 else listLastEntry headAm

/-- `CSC369_PolicyS2QEvict`. -/
def s2qEvict (memsize : Nat) : Exec (PolicyState Unit) Nat := do
  let visited ← onLinks (listForEach headA1 (memsize + 1))
  let evictEntry ← onLinks (s2qVictim visited.length memsize)
  onLinks (listDel evictEntry)
  onLinks (listEntryInit evictEntry)
  let evictFrame ← containerFrame evictEntry
  let pte ← framePte evictFrame
  onPtes (pteSetReferenced pte false)
  onPtes (pteGetFrameNumber pte)

/-! ## What policies leave alone -/

section Harmless
variable {σ α β : Type}

theorem Heap.OnlyReference.refl (heap : Heap) : heap.OnlyReference heap :=
  ⟨rfl, rfl, rfl, fun _ => rfl⟩

theorem Heap.OnlyReference.trans {first second third : Heap} (left : first.OnlyReference second)
    (right : second.OnlyReference third) : first.OnlyReference third where
  table := right.table.trans left.table
  ptes := right.ptes.trans left.ptes
  tracker := right.tracker.trans left.tracker
  pte := fun addr => (right.pte addr).trans (left.pte addr)

theorem PolicyState.OnlyReference.refl (state : PolicyState σ) : state.OnlyReference state :=
  ⟨rfl, Heap.OnlyReference.refl state.heap⟩

theorem PolicyState.OnlyReference.trans (first second third : PolicyState σ)
    (left : first.OnlyReference second) (right : second.OnlyReference third) :
    first.OnlyReference third where
  frames := right.frames.trans left.frames
  heap := left.heap.trans right.heap

theorem Heap.OnlyReference.setPte {heap : Heap} {addr : Addr} {entry : PTE}
    (here : heap.pte addr = some entry) (reference : Bool) :
    heap.OnlyReference (heap.setPte addr { entry with reference := reference }) where
  table := rfl
  ptes := rfl
  tracker := rfl
  pte := by
    intro other
    by_cases same : other = addr
    · subst same
      simp [Heap.setPte, here, PTE.eraseReference]
    · simp [Heap.setPte, Function.update_of_ne same]

abbrev Harmless (part : Exec (PolicyState σ) α) : Prop := Keeps PolicyState.OnlyReference part

theorem harmless_bind {first : Exec (PolicyState σ) α} {next : α → Exec (PolicyState σ) β}
    (firstHarmless : Harmless first) (nextHarmless : ∀ value, Harmless (next value)) :
    Harmless (first >>= next) :=
  keeps_bind PolicyState.OnlyReference.trans firstHarmless nextHarmless

theorem harmless_pure (value : α) : Harmless (pure value : Exec (PolicyState σ) α) :=
  keeps_pure PolicyState.OnlyReference.refl value

theorem harmless_get : Harmless (get : Exec (PolicyState σ) (PolicyState σ)) :=
  keeps_get PolicyState.OnlyReference.refl

theorem harmless_stop (fault : Fault) : Harmless (stop fault : Exec (PolicyState σ) α) :=
  keeps_stop PolicyState.OnlyReference.refl fault

theorem harmless_require (condition : Bool) (fault : Fault) :
    Harmless (require condition fault : Exec (PolicyState σ) Unit) :=
  keeps_require PolicyState.OnlyReference.refl condition fault

theorem harmless_onLinks (part : Exec (Entries EntryAddr) α) :
    Harmless (onLinks part : Exec (PolicyState σ) α) := by
  have anything : Keeps (fun _ _ => True) part := fun _ => trivial
  exact keeps_onPart anything fun state _ _ => ⟨rfl, Heap.OnlyReference.refl state.heap⟩

theorem harmless_setOwn (change : σ → σ) :
    Harmless (modify fun state : PolicyState σ => state.setOwn (change state.own)) :=
  keeps_modify fun state => ⟨rfl, Heap.OnlyReference.refl state.heap⟩

theorem harmless_onlyIf (condition : Bool) {part : Exec (PolicyState σ) Unit}
    (partHarmless : Harmless part) : Harmless (onlyIf condition part) :=
  keeps_onlyIf PolicyState.OnlyReference.refl condition partHarmless

theorem harmless_onPtes {part : Exec Heap α} (partKeeps : Keeps Heap.OnlyReference part) :
    Harmless (onPtes part : Exec (PolicyState σ) α) :=
  keeps_onPart partKeeps fun _ _ kept => ⟨rfl, kept⟩

theorem pteGet_keeps (field : PTE → α) (pte : Option Addr) :
    Keeps Heap.OnlyReference (pteGet field pte) := by
  intro heap
  cases pte with
  | none => exact Heap.OnlyReference.refl heap
  | some addr =>
      cases here : heap.pte addr with
      | none =>
          simp only [pteGet, readPte, EStateM.run_bind, Option.isSome_some, run_require_true,
            EStateM.run_get, here, run_stop, finalState_error]
          exact Heap.OnlyReference.refl heap
      | some entry =>
          simp only [pteGet, readPte, EStateM.run_bind, Option.isSome_some, run_require_true,
            EStateM.run_get, here, EStateM.run_pure, finalState_ok]
          exact Heap.OnlyReference.refl heap

theorem pteSetReferenced_keeps (pte : Option Addr) (value : Bool) :
    Keeps Heap.OnlyReference (pteSetReferenced pte value) := by
  intro heap
  cases pte with
  | none => exact Heap.OnlyReference.refl heap
  | some addr =>
      cases here : heap.pte addr with
      | none =>
          simp only [pteSetReferenced, pteSet, writePte, readPte, EStateM.run_bind,
            Option.isSome_some, run_require_true, EStateM.run_get, here, run_stop,
            finalState_error]
          exact Heap.OnlyReference.refl heap
      | some entry =>
          simp only [pteSetReferenced, pteSet, writePte, readPte, EStateM.run_bind,
            Option.isSome_some, run_require_true, EStateM.run_get, here, EStateM.run_pure,
            EStateM.run_modify, finalState_ok]
          exact Heap.OnlyReference.setPte here value

theorem harmless_pteGet (field : PTE → α) (pte : Option Addr) :
    Harmless (onPtes (pteGet field pte) : Exec (PolicyState σ) α) :=
  harmless_onPtes (pteGet_keeps field pte)

theorem harmless_setReferenced (pte : Option Addr) (value : Bool) :
    Harmless (onPtes (pteSetReferenced pte value) : Exec (PolicyState σ) Unit) :=
  harmless_onPtes (pteSetReferenced_keeps pte value)

theorem harmless_framePte (frame : Nat) :
    Harmless (framePte frame : Exec (PolicyState σ) (Option Addr)) :=
  harmless_bind harmless_get fun _ => harmless_pure _

theorem harmless_containerFrame (entry : Option EntryAddr) :
    Harmless (containerFrame entry : Exec (PolicyState σ) Nat) := by
  unfold containerFrame
  split
  · exact harmless_stop _
  · exact harmless_bind harmless_get fun _ =>
      harmless_bind (harmless_require _ _) fun _ => harmless_pure _
  · exact harmless_stop _

end Harmless

theorem rrEvict_harmless (memsize : Nat) : Harmless (rrEvict memsize) :=
  harmless_bind harmless_get fun state =>
    harmless_bind (harmless_setOwn fun _ => (state.own + 1) % memsize) fun _ => harmless_pure _

theorem randEvict_harmless (random : Nat → Nat) (memsize : Nat) :
    Harmless (randEvict random memsize) :=
  harmless_bind harmless_get fun state =>
    harmless_bind (harmless_setOwn fun _ => state.own + 1) fun _ => harmless_pure _

theorem harmless_setList (list : Option EntryAddr) : Harmless (setList list) :=
  harmless_setOwn fun own : ClockStatics => { own with list := list }

theorem harmless_setHand (hand : Option EntryAddr) : Harmless (setHand hand) :=
  harmless_setOwn fun own : ClockStatics => { own with hand := hand }

theorem clockCleanup_harmless : Harmless clockCleanup :=
  harmless_bind harmless_get fun _ => harmless_onLinks _

theorem clockOnRef_harmless (frame : Nat) : Harmless (clockOnRef frame) := by
  refine harmless_bind (harmless_framePte frame) fun pte =>
    harmless_bind (harmless_setReferenced pte true) fun _ =>
      harmless_bind harmless_get fun state => keeps_ite ?_ ?_
  · exact harmless_bind (harmless_onLinks _) fun _ =>
      harmless_bind (harmless_setList _) fun _ =>
        harmless_bind (harmless_onLinks _) fun _ => harmless_setHand _
  · refine harmless_bind (harmless_onLinks _) fun linked => harmless_onlyIf _ ?_
    exact harmless_bind (harmless_onLinks _) fun _ =>
      harmless_bind (harmless_onLinks _) fun _ => harmless_setHand _

theorem advanceHand_harmless : Harmless advanceHand :=
  harmless_bind harmless_get fun _ =>
    harmless_bind (harmless_onLinks _) fun next => harmless_setHand next

theorem clockTake_harmless (currFrame : Nat) : Harmless (clockTake currFrame) := by
  refine harmless_bind harmless_get fun state => harmless_bind (harmless_onLinks _) fun next =>
    harmless_bind (harmless_setList next) fun _ => harmless_bind (harmless_onLinks _) fun _ =>
      harmless_bind (harmless_onLinks _) fun _ =>
        harmless_bind (harmless_onlyIf _ (harmless_setList none)) fun _ => ?_
  exact harmless_bind (harmless_framePte currFrame) fun pte => harmless_pteGet _ pte

theorem clockSweep_harmless (fuel : Nat) : Harmless (clockSweep fuel) := by
  induction fuel with
  | zero => exact harmless_stop _
  | succ fuel ih =>
      refine harmless_bind harmless_get fun state =>
        harmless_bind (harmless_containerFrame _) fun currFrame =>
          harmless_bind (harmless_framePte currFrame) fun pte =>
            harmless_bind (harmless_pteGet _ pte) fun referenced =>
              keeps_ite (clockTake_harmless currFrame) ?_
      exact harmless_bind (harmless_setReferenced pte false) fun _ =>
        harmless_bind advanceHand_harmless fun _ => ih

theorem clockEvict_harmless (memsize : Nat) : Harmless (clockEvict memsize) :=
  harmless_bind advanceHand_harmless fun _ => clockSweep_harmless (memsize + 1)

theorem s2qInit_harmless : Harmless s2qInit :=
  harmless_bind (harmless_onLinks _) fun _ => harmless_onLinks _

theorem s2qCleanup_harmless : Harmless s2qCleanup :=
  harmless_bind (harmless_onLinks _) fun _ => harmless_onLinks _

theorem s2qOnRef_harmless (frame : Nat) : Harmless (s2qOnRef frame) := by
  refine harmless_bind harmless_get fun state => harmless_bind (harmless_require _ _) fun _ =>
    harmless_bind (harmless_onLinks _) fun linked => keeps_ite (harmless_onLinks _) ?_
  refine harmless_bind (harmless_framePte frame) fun pte =>
    harmless_bind (harmless_pteGet _ pte) fun referenced =>
      harmless_bind (harmless_onlyIf _ (harmless_setReferenced pte true)) fun _ => ?_
  exact harmless_bind (harmless_onLinks _) fun _ => harmless_onLinks _

theorem s2qEvict_harmless (memsize : Nat) : Harmless (s2qEvict memsize) :=
  harmless_bind (harmless_onLinks _) fun _ => harmless_bind (harmless_onLinks _) fun _ =>
    harmless_bind (harmless_onLinks _) fun _ => harmless_bind (harmless_onLinks _) fun _ =>
      harmless_bind (harmless_containerFrame _) fun frame =>
        harmless_bind (harmless_framePte frame) fun pte =>
          harmless_bind (harmless_setReferenced pte false) fun _ => harmless_pteGet _ pte

/-! ## The table of policies -/

def policyRR : Policy where
  name := "RR"
  State := Nat
  fresh := 0
  init := pure ()
  cleanup := pure ()
  onRef := fun _ frame => rrOnRef frame
  evict := rrEvict
  init_keeps := harmless_pure ()
  cleanup_keeps := harmless_pure ()
  onRef_keeps := fun _ _ => harmless_pure ()
  evict_keeps := rrEvict_harmless

def policyRand (random : Nat → Nat) : Policy where
  name := "Rand"
  State := Nat
  fresh := 0
  init := pure ()
  cleanup := pure ()
  onRef := fun _ frame => randOnRef frame
  evict := randEvict random
  init_keeps := harmless_pure ()
  cleanup_keeps := harmless_pure ()
  onRef_keeps := fun _ _ => harmless_pure ()
  evict_keeps := randEvict_harmless random

def policyClock : Policy where
  name := "Clock"
  State := ClockStatics
  fresh := ⟨none, none⟩
  init := pure ()
  cleanup := clockCleanup
  onRef := fun _ frame => clockOnRef frame
  evict := clockEvict
  init_keeps := harmless_pure ()
  cleanup_keeps := clockCleanup_harmless
  onRef_keeps := fun _ => clockOnRef_harmless
  evict_keeps := clockEvict_harmless

def policyS2Q : Policy where
  name := "S2Q"
  State := Unit
  fresh := ()
  init := s2qInit
  cleanup := s2qCleanup
  onRef := fun _ frame => s2qOnRef frame
  evict := s2qEvict
  init_keeps := s2qInit_harmless
  cleanup_keeps := s2qCleanup_harmless
  onRef_keeps := fun _ => s2qOnRef_harmless
  evict_keeps := s2qEvict_harmless

/-- `CSC369_POLICIES`. -/
def policies (random : Nat → Nat) : List Policy :=
  [policyRand random, policyRR, policyClock, policyS2Q]

/-- `GetReplacementAlgorithm`. -/
def getReplacementAlgorithm (random : Nat → Nat) (name : String) : Option Policy :=
  (policies random).find? fun policy => policy.name = name

end MemSim
