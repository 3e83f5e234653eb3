import MemSim.PageTable

/-!
# The allocation log only grows

Every operation on page tables appends to the log of requests.  A refused
request is therefore still in the log when the run it belongs to ends.
-/

set_option autoImplicit false

namespace MemSim

open Exec

variable {α β : Type}

def Heap.LogGrows (before after : Heap) : Prop := before.tracker.log <+: after.tracker.log

theorem Heap.LogGrows.refl (heap : Heap) : heap.LogGrows heap := List.prefix_refl _

theorem Heap.LogGrows.trans (first second third : Heap) (left : first.LogGrows second)
    (right : second.LogGrows third) : first.LogGrows third :=
  List.IsPrefix.trans left right

theorem Heap.LogGrows.succeed {before after : Heap} (grows : before.LogGrows after)
    (succeed : AllocationsSucceed after.tracker.log) :
    AllocationsSucceed before.tracker.log :=
  fun event member => succeed event (grows.subset member)

abbrev Logs (part : Exec Heap α) : Prop := Keeps Heap.LogGrows part

theorem logs_bind {first : Exec Heap α} {next : α → Exec Heap β} (firstLogs : Logs first)
    (nextLogs : ∀ value, Logs (next value)) : Logs (first >>= next) :=
  keeps_bind Heap.LogGrows.trans firstLogs nextLogs

theorem logs_pure (value : α) : Logs (pure value) := keeps_pure Heap.LogGrows.refl value

theorem logs_get : Logs (get : Exec Heap Heap) := keeps_get Heap.LogGrows.refl

theorem logs_stop (fault : Fault) : Logs (stop fault : Exec Heap α) :=
  keeps_stop Heap.LogGrows.refl fault

theorem logs_require (condition : Bool) (fault : Fault) : Logs (require condition fault) :=
  keeps_require Heap.LogGrows.refl condition fault

theorem logs_modify {change : Heap → Heap} (same : ∀ heap, (change heap).tracker = heap.tracker) :
    Logs (modify change) :=
  keeps_modify fun heap => by
    have sameLog : (change heap).tracker.log = heap.tracker.log := by rw [same]
    exact ⟨[], by rw [sameLog, List.append_nil]⟩

theorem logs_whenSome {request : Exec Heap (Option α)} {next : α → Exec Heap (Option β)}
    (requestLogs : Logs request) (nextLogs : ∀ value, Logs (next value)) :
    Logs (whenSome request next) := by
  refine logs_bind requestLogs fun answer => ?_
  cases answer with
  | none => exact logs_pure none
  | some value => exact nextLogs value

theorem logs_readPte (pte : Option Addr) : Logs (readPte pte) := by
  cases pte with
  | none => exact logs_stop _
  | some addr =>
      refine logs_bind logs_get fun heap => ?_
      split
      · exact logs_stop _
      · exact logs_pure _

theorem logs_writePte (pte : Option Addr) (change : PTE → PTE) : Logs (writePte pte change) := by
  refine logs_bind (logs_readPte pte) fun entry => ?_
  cases pte with
  | none => exact logs_pure ()
  | some addr => exact logs_modify fun _ => rfl

theorem logs_readArray (ptes index : Nat) : Logs (readArray ptes index) := by
  refine logs_bind logs_get fun heap => ?_
  split
  · exact logs_stop _
  · exact logs_bind (logs_require _ _) fun _ => logs_pure _

theorem logs_readTable (pageTable : Option Addr) : Logs (readTable pageTable) := by
  cases pageTable with
  | none => exact logs_stop _
  | some addr =>
      refine logs_bind logs_get fun heap => ?_
      split
      · exact logs_stop _
      · exact logs_pure _

theorem logs_readEntry (pageTable : Option Addr) (index : Nat) : Logs (readEntry pageTable index) :=
  logs_bind (logs_readTable pageTable) fun ptes =>
    logs_bind (logs_readArray ptes index) fun _ => logs_pure _

theorem logs_writeEntry (pageTable : Option Addr) (index : Nat) (pte : Option Addr) :
    Logs (writeEntry pageTable index pte) :=
  logs_bind (logs_readTable pageTable) fun ptes =>
    logs_bind (logs_readArray ptes index) fun _ => logs_modify fun _ => rfl

theorem logs_readChild (pte : Option Addr) : Logs (readChild pte) :=
  logs_bind (logs_readPte pte) fun _ => logs_pure _

theorem logs_pteGet (field : PTE → α) (pte : Option Addr) : Logs (pteGet field pte) :=
  logs_bind (logs_require _ _) fun _ => logs_bind (logs_readPte pte) fun _ => logs_pure _

theorem logs_pteSet (change : PTE → PTE) (pte : Option Addr) : Logs (pteSet change pte) :=
  logs_bind (logs_require _ _) fun _ => logs_writePte pte change

variable (env : Env)

theorem logs_malloc (size : Nat) : Logs (onTracker (csc369Malloc env size)) := by
  intro heap
  rw [onTracker, run_onPart_of_ok (run_csc369Malloc env heap.tracker size)]
  simp only [finalState_ok, Heap.LogGrows, Heap.setTracker, Tracker.log_record]
  exact List.prefix_append _ _

theorem logs_pteCreate : Logs (pteCreate env) :=
  logs_whenSome (logs_malloc env _) fun _ =>
    logs_bind (logs_modify fun _ => rfl) fun _ => logs_pure _

theorem logs_pageTableCreate : Logs (pageTableCreate env) :=
  logs_whenSome (logs_malloc env _) fun _ => logs_whenSome (logs_malloc env _) fun _ =>
    logs_bind (logs_modify fun _ => rfl) fun _ =>
      logs_bind (logs_modify fun _ => rfl) fun _ => logs_pure _

theorem logs_ensurePte (pageTable : Option Addr) (index : Nat) :
    Logs (ensurePte env pageTable index) := by
  refine logs_bind (logs_readEntry pageTable index) fun entry => keeps_ite ?_ ?_
  · exact logs_bind (logs_pteCreate env) fun pte =>
      logs_bind (logs_writeEntry pageTable index pte) fun _ => logs_readEntry pageTable index
  · exact logs_readEntry pageTable index

theorem logs_ensureTable (pte : Option Addr) : Logs (ensureTable env pte) := by
  refine logs_bind (logs_readChild pte) fun child => keeps_ite ?_ ?_
  · exact logs_bind (logs_pageTableCreate env) fun pageTable =>
      logs_bind (logs_writePte pte _) fun _ => logs_readChild pte
  · exact logs_readChild pte

theorem logs_pageTableAllocate (pageTable : Option Addr) (virtualAddress : Nat) :
    Logs (pageTableAllocate env pageTable virtualAddress) :=
  logs_bind (logs_require _ _) fun _ => logs_bind (logs_ensurePte env _ _) fun _ =>
    logs_bind (logs_ensureTable env _) fun _ => logs_bind (logs_ensurePte env _ _) fun _ =>
      logs_bind (logs_ensureTable env _) fun _ => logs_ensurePte env _ _

theorem logs_pageTableSearch (pageTable : Option Addr) (virtualAddress : Nat) :
    Logs (pageTableSearch pageTable virtualAddress) := by
  refine logs_bind (logs_require _ _) fun _ => logs_bind (logs_readEntry _ _) fun _ => ?_
  refine keeps_ite (logs_pure _) (logs_bind (logs_readChild _) fun _ => ?_)
  refine keeps_ite (logs_pure _) (logs_bind (logs_readEntry _ _) fun _ => ?_)
  refine keeps_ite (logs_pure _) (logs_bind (logs_readChild _) fun _ => ?_)
  refine keeps_ite (logs_pure _) (logs_bind (logs_readEntry _ _) fun _ => ?_)
  exact keeps_ite (logs_pure _) (logs_readEntry _ _)

/-! ## Destroying -/

def Tracker.LogGrows (before after : Tracker) : Prop := before.log <+: after.log

theorem Tracker.LogGrows.refl (tracker : Tracker) : tracker.LogGrows tracker :=
  List.prefix_refl _

theorem Tracker.LogGrows.trans (first second third : Tracker) (left : first.LogGrows second)
    (right : second.LogGrows third) : first.LogGrows third :=
  List.IsPrefix.trans left right

theorem logGrows_csc369Free (ptr : Option Addr) : Keeps Tracker.LogGrows (csc369Free ptr) := by
  have check : ∀ (condition : Bool) (fault : Fault),
      Keeps Tracker.LogGrows (require condition fault : Exec Tracker Unit) :=
    keeps_require Tracker.LogGrows.refl
  have write : ∀ {change : Tracker → Tracker}, (∀ tracker, (change tracker).log = tracker.log) →
      Keeps Tracker.LogGrows (modify change : Exec Tracker Unit) := by
    intro change same
    refine keeps_modify fun tracker => ?_
    exact ⟨[], by rw [same tracker, List.append_nil]⟩
  refine keeps_bind Tracker.LogGrows.trans (keeps_modify fun _ => List.prefix_append _ _) ?_
  intro _
  cases ptr with
  | none => exact keeps_pure Tracker.LogGrows.refl ()
  | some p =>
      refine keeps_bind Tracker.LogGrows.trans (keeps_get Tracker.LogGrows.refl) fun tracker => ?_
      split
      · exact keeps_stop Tracker.LogGrows.refl _
      · refine keeps_bind Tracker.LogGrows.trans (check _ _) fun _ => ?_
        refine keeps_bind Tracker.LogGrows.trans (check _ _) fun _ => ?_
        refine keeps_bind Tracker.LogGrows.trans (check _ _) fun _ => ?_
        refine keeps_bind Tracker.LogGrows.trans (check _ _) fun _ => ?_
        refine keeps_bind Tracker.LogGrows.trans (write fun _ => rfl) fun _ => ?_
        exact keeps_bind Tracker.LogGrows.trans (check _ _) fun _ => write fun _ => rfl

theorem logs_heapFree (ptr : Option Addr) : Logs (heapFree ptr) := by
  refine logs_bind (keeps_onPart (logGrows_csc369Free ptr) fun _ _ grows => grows) fun _ => ?_
  cases ptr with
  | none => exact logs_pure ()
  | some addr => exact logs_modify fun _ => rfl

theorem logs_pageTableDestroy (depth : Nat) (pageTable : Option Addr) :
    Logs (pageTableDestroy depth pageTable) := by
  induction depth generalizing pageTable with
  | zero => exact logs_stop _
  | succ depth ih =>
      refine logs_bind (logs_require _ _) fun _ => logs_bind ?_ fun _ => ?_
      · refine keeps_forRange Heap.LogGrows.refl Heap.LogGrows.trans (fun index => ?_) 0 ptesCount
        refine logs_bind (logs_readEntry _ _) fun pte => keeps_ite ?_ (logs_pure ())
        refine logs_bind (logs_readChild _) fun child => ?_
        exact keeps_ite (logs_bind (ih child) fun _ => logs_heapFree _) (logs_heapFree _)
      · exact logs_bind (logs_readTable _) fun _ =>
          logs_bind (logs_heapFree _) fun _ => logs_heapFree _

end MemSim
