import MemSim.FirstEviction
import MemSim.MissBounds

/-!
# Runs that fit into memory

As long as there is a frame for each page of the trace, no policy is asked for a victim,
the swap file is not touched, and each page is missed once.
-/

set_option autoImplicit false

namespace MemSim

open Exec

/-! ## The step -/

/-- The pages seen so far are in memory, and no other page has an entry. -/
structure World.Fitting {σ : Type} (env : Env) (root : Addr) (seen : Finset Nat)
    (world : World σ) : Prop where
  coherent : world.Coherent env root none
  inMemory : ∀ page ∈ seen, (world.pageStore root).InMemory page
  entries : ∀ page entry, (world.pageStore root).entry page = some entry →
    page ∈ seen ∧ entry.valid = true

/-- The swap was not touched, and no policy asked for a victim. -/
structure World.Unswapped {σ : Type} (before after : World σ) : Prop where
  swapmap : after.storage.swapmap = before.storage.swapmap
  file : after.storage.file = before.storage.file
  calls : after.storage.calls = before.storage.calls
  clean : after.stats.evictCleanCount = before.stats.evictCleanCount
  dirty : after.stats.evictDirtyCount = before.stats.evictDirtyCount
  asked : ∀ victim, .evicted victim ∈ after.log → .evicted victim ∈ before.log

section Unswapped
variable {σ : Type} {world middle after : World σ}

theorem World.Unswapped.refl (world : World σ) : world.Unswapped world :=
  ⟨rfl, rfl, rfl, rfl, rfl, fun _ => id⟩

theorem World.Unswapped.trans (first : world.Unswapped middle) (second : middle.Unswapped after) :
    world.Unswapped after where
  swapmap := second.swapmap.trans first.swapmap
  file := second.file.trans first.file
  calls := second.calls.trans first.calls
  clean := second.clean.trans first.clean
  dirty := second.dirty.trans first.dirty
  asked := fun victim member => first.asked victim (second.asked victim member)

theorem World.Unswapped.referenced (unswapped : world.Unswapped after) (state : PolicyState σ)
    (frame : Nat) (returned : Bool) :
    world.Unswapped ((after.setPolicyState state).record (.referenced frame returned)) where
  swapmap := unswapped.swapmap
  file := unswapped.file
  calls := unswapped.calls
  clean := unswapped.clean
  dirty := unswapped.dirty
  asked := by
    intro victim member
    rcases List.mem_append.mp member with before | last
    · exact unswapped.asked victim before
    · cases List.mem_singleton.mp last

end Unswapped

section Step
variable {env : Env} {policy : Policy} {root : Addr} {seen : Finset Nat} {access : MemAccess}
  {world after : World policy.State}

theorem World.Fitting.not_full (fitting : world.Fitting env root seen)
    (fits : (insert access.page seen).card ≤ env.memsize)
    (absent : ¬ (world.pageStore root).InMemory access.page) :
    findFreeFrom world.frames 0 env.memsize ≠ none := by
  intro full
  have known : world.heap.Known root (insert access.page seen) := by
    intro page pte leaf
    obtain ⟨entry, here⟩ := fitting.coherent.sound.leafAt_pte leaf
    exact Finset.mem_insert_of_mem (fitting.entries page _ (pageStore_entry leaf here)).1
  have missing : world.Absent root access.page := by
    intro pte entry leaf here
    cases valid : entry.valid with
    | false => rfl
    | true => exact absurd ⟨_, pageStore_entry leaf here, valid⟩ absent
  have more := fitting.coherent.full_lt known missing (Finset.mem_insert_self _ _) full
  omega

theorem World.Fitting.fresh (fitting : world.Fitting env root seen) {entry : PTE}
    (missing : (world.pageStore root).Missing access.page entry) :
    access.page ∉ seen ∧ entry = PTE.initial := by
  rcases missing with ⟨here, invalid⟩ | ⟨absent, initial⟩
  · rw [(fitting.entries _ _ here).2] at invalid
    contradiction
  · refine ⟨fun inSeen => ?_, initial⟩
    obtain ⟨entry', here, -⟩ := fitting.inMemory _ inSeen
    rw [absent] at here
    contradiction

theorem World.Fitting.set {entry : PTE} (fitting : world.Fitting env root seen)
    (coherent : after.Coherent env root none) (valid : entry.valid = true)
    (entries : (after.pageStore root).entry =
      ((world.pageStore root).set access.page entry).entry) :
    after.Fitting env root (insert access.page seen) where
  coherent := coherent
  inMemory := by
    intro page member
    by_cases same : page = access.page
    · refine ⟨entry, ?_, valid⟩
      rw [entries, same, PageStore.set_same]
    · obtain ⟨old, here, valid'⟩ :=
        fitting.inMemory page ((Finset.mem_insert.mp member).resolve_left same)
      refine ⟨old, ?_, valid'⟩
      rw [entries, PageStore.set_other same]
      exact here
  entries := by
    intro page found here
    rw [entries] at here
    rcases PageStore.set_eq_some.mp here with ⟨rfl, rfl⟩ | ⟨-, there⟩
    · exact ⟨Finset.mem_insert_self _ _, valid⟩
    · obtain ⟨inSeen, valid'⟩ := fitting.entries page found there
      exact ⟨Finset.mem_insert_of_mem inSeen, valid'⟩

theorem World.Fitting.step (fitting : world.Fitting env root seen)
    (fits : (insert access.page seen).card ≤ env.memsize)
    (accounted : Accounted env root access world after) (coherent : after.Coherent env root none) :
    after.Fitting env root (insert access.page seen) := by
  cases accounted with
  | hit here valid entries =>
      exact fitting.set coherent ((PTE.accessed_valid _ _).trans valid) entries
  | fill missing found entries => exact fitting.set coherent rfl entries
  | replace missing full => exact absurd full (fitting.not_full fits missing.not_inMemory)

theorem World.Fitting.obtains_free {heap : Heap} {pte frame : Addr} {old : PTE}
    (fitting : world.Fitting env root seen) (fits : (insert access.page seen).card ≤ env.memsize)
    (allocated : world.heap.Allocated heap (· = root) root access.page pte)
    (here : heap.pte pte = some old) (invalid : old.valid = false) :
    findFreeFrom (world.setHeap heap).countMiss.frames 0 env.memsize ≠ none ∧
      old.onSwap = false ∧
      ∀ after, Obtains env policy (world.setHeap heap).countMiss frame after →
        after = (world.setHeap heap).countMiss := by
  obtain ⟨missing, -⟩ := pageStore_miss fitting.coherent allocated here invalid
  have notFull := fitting.not_full fits missing.not_inMemory
  have initial := (fitting.fresh missing).2
  refine ⟨notFull, congrArg PTE.onSwap initial, ?_⟩
  intro after obtains
  cases obtains with
  | free found => rfl
  | evicted full => exact absurd full notFull

theorem World.Fitting.unswapped (fitting : world.Fitting env root seen)
    (fits : (insert access.page seen).card ≤ env.memsize) :
    world.Unswapped (finalState ((translate env policy access).run world)) := by
  have outcome := @translate_outcome env policy root access world fitting.coherent
  generalize (translate env policy access).run world = result at outcome
  have translated : ∀ frame after, Translates env policy root access world frame after →
      world.Unswapped after := by
    intro frame after translates
    cases translates with
    | hit leaf here valid => exact ⟨rfl, rfl, rfl, rfl, rfl, fun _ => id⟩
    | miss allocated here invalid obtains there same fills =>
        obtain ⟨-, notOnSwap, free⟩ := fitting.obtains_free fits allocated here invalid
        cases free _ obtains
        have onSwap := (congrArg PTE.onSwap same).trans notOnSwap
        cases fills with
        | cleared => exact ⟨rfl, rfl, rfl, rfl, rfl, fun _ => id⟩
        | pagedIn inSwap =>
            cases inSwap.symm.trans onSwap
  cases outcome with
  | stops stops =>
      cases stops with
      | outside wide => exact .refl world
      | refused fault log refused => exact ⟨rfl, rfl, rfl, rfl, rfl, fun _ => id⟩
      | evictFails allocated here invalid fails =>
          obtain ⟨notFull, -⟩ := @World.Fitting.obtains_free _ policy _ _ _ _ _ _ 0 _ fitting fits
            allocated here invalid
          cases fails with
          | stopped full evict => exact absurd full notFull
          | outside full evict wide => exact absurd full notFull
      | lost allocated here invalid obtains there same onSwap isLost =>
          obtain ⟨-, notOnSwap, free⟩ := fitting.obtains_free fits allocated here invalid
          cases free _ obtains
          exact ⟨rfl, rfl, rfl, rfl, rfl, fun _ => id⟩
  | refFails translates onRef =>
      exact (translated _ _ translates).referenced _ _ _
  | done translates onRef =>
      exact (translated _ _ translates).referenced _ _ _

end Step

/-! ## Runs -/

section Runs
variable {β : Type} {env : Env} {policy : Policy} {root : Addr} {swapSize : Nat}
  {step : MemAccess → Exec (World policy.State) β} (executes : Executes env policy step)
  {trace : List MemAccess} {seen : Finset Nat} {world : World policy.State}
include executes

theorem Executes.unswapped {access : MemAccess} (fitting : world.Fitting env root seen)
    (fits : (insert access.page seen).card ≤ env.memsize) :
    world.Unswapped (finalState ((step access).run world)) := by
  have translated : world.Unswapped (finalState ((translate env policy access).run world)) :=
    fitting.unswapped fits
  rcases executes access world with
    ⟨fault, after, run, run'⟩ | ⟨frame, middle, run, run' | ⟨value, physmem, run'⟩⟩
  · rw [run] at translated
    rw [run']
    exact translated
  · rw [run] at translated
    rw [run']
    exact translated
  · rw [run] at translated
    rw [run']
    exact ⟨translated.swapmap, translated.file, translated.calls, translated.clean,
      translated.dirty, translated.asked⟩

theorem Executes.run_unswapped (fitting : world.Fitting env root seen)
    (fits : (seen ∪ tracePages trace).card ≤ env.memsize) :
    world.Unswapped (finalState ((runAll step trace).run world)) := by
  let pages := seen ∪ tracePages trace
  have inPages : ∀ {part : Finset Nat} {access : MemAccess}, part ⊆ pages → access ∈ trace →
      insert access.page part ⊆ pages := by
    intro part access subset member
    apply Finset.insert_subset _ subset
    exact Finset.mem_union_right _ (List.mem_toFinset.mpr (List.mem_map_of_mem member))
  apply @runAll_keeps _ _ _ _ step
    (fun middle => ∃ part ⊆ pages, middle.Fitting env root part)
    (fun after => world.Unswapped after) (· ∈ trace) _ _ trace (fun _ => id) world
    ⟨seen, Finset.subset_union_left, fitting⟩ (.refl world)
  · intro access middle value next member holds _ run
    obtain ⟨part, subset, here⟩ := holds
    have subset' := inPages subset member
    exact ⟨_, subset', here.step ((Finset.card_le_card subset').trans fits)
      (executes.accounted here.coherent run) (executes.coherent here.coherent run)⟩
  · intro access middle member holds before
    obtain ⟨part, subset, here⟩ := holds
    exact before.trans (executes.unswapped here
      ((Finset.card_le_card (inPages subset member)).trans fits))

theorem Executes.run_fitting (trace : List MemAccess) {seen : Finset Nat}
    {world after : World policy.State} {accesses : Nat} (fitting : world.Fitting env root seen)
    (fits : (seen ∪ tracePages trace).card ≤ env.memsize) (tally : Tally env world accesses)
    (short : accesses + trace.length < 2 ^ 32) {values : List β}
    (run : (runAll step trace).run world = .ok values after) :
    after.Fitting env root (seen ∪ tracePages trace) ∧ Tally env after (accesses + trace.length) ∧
      after.stats.missCount + seen.card =
        world.stats.missCount + (seen ∪ tracePages trace).card := by
  induction trace generalizing seen world accesses values with
  | nil =>
      obtain ⟨-, rfl⟩ := EStateM.Result.ok.inj run
      rw [tracePages, List.map_nil, List.toFinset_nil, Finset.union_empty]
      exact ⟨fitting, tally, rfl⟩
  | cons access rest ih =>
      rw [List.length_cons] at short ⊢
      obtain ⟨value, middle, others, stepRun, restRun, -⟩ := (runAll_cons_ok_iff step).mp run
      have accounted := executes.accounted fitting.coherent stepRun
      have pages : seen ∪ tracePages (access :: rest) =
          insert access.page seen ∪ tracePages rest := by
        rw [tracePages, List.map_cons, List.toFinset_cons, Finset.union_insert,
          Finset.insert_union, tracePages]
      rw [pages] at fits ⊢
      have fits' := (Finset.card_le_card Finset.subset_union_left).trans fits
      obtain ⟨later, tallied, misses⟩ := ih
        (fitting.step fits' accounted (executes.coherent fitting.coherent stepRun)) fits
        (accounted.tallied tally (by omega)) (by omega) restRun
      refine ⟨later, by rwa [Nat.add_right_comm] at tallied, ?_⟩
      have missed := accounted.missed
      by_cases inMemory : (world.pageStore root).InMemory access.page
      · have known : access.page ∈ seen := by
          obtain ⟨entry, here, -⟩ := inMemory
          exact (fitting.entries _ entry here).1
        rw [Finset.insert_eq_self.mpr known] at misses ⊢
        rw [missed.hit inMemory] at misses
        exact misses
      · have notSeen : access.page ∉ seen := fun member =>
          inMemory (fitting.inMemory _ member)
        rw [missed.counted inMemory tally (by omega),
          Finset.card_insert_of_notMem notSeen] at misses
        omega

/-- A run with a frame for each page, under any policy. -/
theorem fitting_run_stays_in_memory {world : World policy.State}
    (launched : Launched env policy swapSize world)
    (fits : (tracePages trace).card ≤ env.memsize) :
    world.Unswapped (finalState ((runAll step trace).run world)) ∧
    ∀ values after, (runAll step trace).run world = .ok values after → trace.length < 2 ^ 32 →
      after.stats.missCount = (tracePages trace).card ∧
      after.stats.hitCount + (tracePages trace).card = trace.length := by
  obtain ⟨root, started⟩ := launched.started
  have fitting : world.Fitting env root ∅ := by
    refine ⟨started.coherent, fun page member => absurd member (Finset.notMem_empty page), ?_⟩
    intro page entry here
    rw [started.entry_none page] at here
    contradiction
  rw [← Finset.empty_union (tracePages trace)] at fits
  refine ⟨executes.run_unswapped fitting fits, ?_⟩
  intro values after run short
  obtain ⟨-, tally, misses⟩ :=
    executes.run_fitting trace fitting fits (started.tally rfl) (by omega) run
  have stats : world.stats = MMStats.zero := started.stats
  rw [Finset.empty_union, Finset.card_empty, stats] at misses
  have sum := tally.sum
  have none' : MMStats.zero.missCount = 0 := rfl
  omega

end Runs

theorem fitting_run_stays_in_memory_threePages : ∃ world values after,
    (runAll (executeMemInstruction (Env.ideal 3) policyS2Q) threePages).run world =
      .ok values after ∧ world.Unswapped after ∧ after.stats.missCount = 3 := by
  have member : policyS2Q ∈ policies fun _ => 0 := by simp [policies]
  have grants : grantsRun (Env.ideal 3) policyS2Q 3
      (executeMemInstruction (Env.ideal 3) policyS2Q) threePages = true := by decide +kernel
  obtain ⟨world, values, after, launched, run⟩ :=
    threePages_returns member (by decide) (by decide) grants
  obtain ⟨unswapped, counts⟩ := fitting_run_stays_in_memory
    (executes_executeMemInstruction _ _) launched (by decide : (tracePages threePages).card ≤ 3)
  rw [run] at unswapped
  exact ⟨world, values, after, run, unswapped, (counts values after run (by decide)).1⟩

end MemSim
