import MemSim.Competitive
import MemSim.ConservativeStrategies
import MemSim.MemoryBudget
import MemSim.Statistics

/-!
# How often a policy misses

In a stretch of accesses to no more pages than there are frames, RR and Clock miss at
most once for each page.  Every policy misses the pages of a stretch that do not fit
into memory.  So RR and Clock are compared with any other policy on the same trace,
also one that knows the trace beforehand.
-/

set_option autoImplicit false

namespace MemSim

open Exec

/-! ## One access -/

/-- The miss counter goes up when the page is not in memory, and no other page comes
in. -/
structure Missed {σ : Type} (root : Addr) (page : Nat) (before after : World σ) : Prop where
  hit : (before.pageStore root).InMemory page → after.stats.missCount = before.stats.missCount
  miss : ¬ (before.pageStore root).InMemory page →
    after.stats.missCount = increment32 before.stats.missCount
  present : (after.pageStore root).InMemory page
  entered : ∀ other, (after.pageStore root).InMemory other →
    other = page ∨ (before.pageStore root).InMemory other

section Access
variable {env : Env} {policy : Policy} {root : Addr} {access : MemAccess}
  {world after : World policy.State} {accesses : Nat}

theorem Accounted.tallied (accounted : Accounted env root access world after)
    (tally : Tally env world accesses) (short : accesses + 1 < 2 ^ 32) :
    Tally env after (accesses + 1) := by
  cases accounted with
  | hit _ _ _ stats frames => exact tally.hit short stats frames
  | fill _ found _ stats frames used => exact tally.fill short found stats frames used
  | replace _ full _ _ _ _ stats frames used => exact tally.replace short full stats frames used

theorem Accounted.missed (accounted : Accounted env root access world after) :
    Missed root access.page world after := by
  cases accounted with
  | @hit entry here valid entries stats frames =>
      refine ⟨fun _ => by rw [stats]; rfl, fun absent => absurd ⟨entry, here, valid⟩ absent,
        ⟨entry.accessed access.type.isWrite, by rw [entries]; exact PageStore.set_same, valid⟩, ?_⟩
      intro other inMemory
      obtain ⟨found, present, valid'⟩ := inMemory
      rw [entries] at present
      rcases PageStore.set_eq_some.mp present with ⟨same, -⟩ | ⟨-, there⟩
      · exact .inl same
      · exact .inr ⟨found, there, valid'⟩
  | fill missing found entries stats frames used =>
      refine ⟨fun here => absurd here missing.not_inMemory, fun _ => by rw [stats]; rfl,
        ⟨_, by rw [entries]; exact PageStore.set_same, rfl⟩, ?_⟩
      intro other inMemory
      obtain ⟨found, present, valid'⟩ := inMemory
      rw [entries] at present
      rcases PageStore.set_eq_some.mp present with ⟨same, -⟩ | ⟨-, there⟩
      · exact .inl same
      · exact .inr ⟨found, there, valid'⟩
  | @replace entry old victim frame result owner missing full here valid apart entries stats frames
      used =>
      refine ⟨fun inMemory => absurd inMemory missing.not_inMemory, fun _ => ?_,
        ⟨_, by rw [entries]; exact PageStore.set_same, rfl⟩, ?_⟩
      · rw [stats]
        cases old.dirty <;> rfl
      · intro other inMemory
        obtain ⟨found, present, valid'⟩ := inMemory
        rw [entries] at present
        rcases PageStore.set_eq_some.mp present with ⟨same, -⟩ | ⟨-, there⟩
        · exact .inl same
        · rcases PageStore.set_eq_some.mp there with ⟨-, rfl⟩ | ⟨-, there'⟩
          · contradiction
          · exact .inr ⟨found, there', valid'⟩

theorem Missed.counted (missed : Missed root access.page world after)
    (absent : ¬ (world.pageStore root).InMemory access.page) (tally : Tally env world accesses)
    (short : accesses + 1 < 2 ^ 32) : after.stats.missCount = world.stats.missCount + 1 :=
  (missed.miss absent).trans (tally.increments short).2.2.1

end Access

/-! ## Pages in memory -/

section Occupancy
variable {σ : Type} {env : Env} {root : Addr} {world : World σ}

theorem World.Coherent.occupancy (coherent : world.Coherent env root none) :
    ∃ known : Finset Nat, known.card ≤ env.memsize ∧
      ∀ page, (world.pageStore root).InMemory page → page ∈ known := by
  have framed := coherent.framed
  have owners : ∀ frame, ∃ owner, ∀ page entry, (world.pageStore root).entry page = some entry →
      entry.valid = true → entry.frameNumber = frame → page = owner := by
    intro frame
    by_cases used : ∃ page entry, (world.pageStore root).entry page = some entry ∧
        entry.valid = true ∧ entry.frameNumber = frame
    · obtain ⟨owner, entry, here, valid, number⟩ := used
      refine ⟨owner, fun page entry' here' valid' number' => ?_⟩
      exact framed.apart page owner entry' entry here' here valid' valid
        (number'.trans number.symm)
    · exact ⟨0, fun page entry here valid number => absurd ⟨page, entry, here, valid, number⟩ used⟩
  obtain ⟨owner, owns⟩ := Classical.axiomOfChoice owners
  refine ⟨(Finset.range env.memsize).image owner,
    Finset.card_image_le.trans_eq (Finset.card_range _), ?_⟩
  intro page inMemory
  obtain ⟨entry, here, valid⟩ := inMemory
  refine Finset.mem_image.mpr ⟨entry.frameNumber, ?_, (owns _ page entry here valid rfl).symm⟩
  exact Finset.mem_range.mpr (framed.bound page entry here valid)

end Occupancy

section Simulated
variable {μ : Type} {env : Env} {policy : Policy} {strategy : Strategy μ} {root : Addr}
  {settled : Nat → μ → PolicyState policy.State → Prop} {paging : Paging μ}
  {world : World policy.State}

theorem Paging.Simulates.setStorage (simulates : paging.Simulates env policy root settled world)
    (storage : Storage) : paging.Simulates env policy root settled (world.setStorage storage) :=
  ⟨simulates.residents.congr rfl fun _ _ leaf => leaf, simulates.settled⟩

theorem Paging.Simulates.find_isNone (simulates : paging.Simulates env policy root settled world)
    (coherent : world.Coherent env root none) (page : Nat) :
    (paging.find page).isNone = true ↔ ¬ (world.pageStore root).InMemory page := by
  rw [Option.isNone_iff_eq_none]
  constructor
  · intro missing inMemory
    obtain ⟨entry, here, valid⟩ := inMemory
    obtain ⟨pte, old, leaf, there, rfl⟩ := pageStore_entry_eq_some.mp here
    obtain ⟨inUse, holds, unique⟩ := simulates.residents.of_valid coherent leaf there valid
    rw [Paging.find_eq_some inUse holds unique] at missing
    contradiction
  · intro absent
    apply Paging.find_eq_none
    apply simulates.residents.of_absent coherent
    intro pte entry leaf here
    cases valid : entry.valid with
    | false => rfl
    | true => exact absurd ⟨_, pageStore_entry leaf here, valid⟩ absent

end Simulated

/-! ## Runs -/

section Runs
variable {β : Type} {env : Env} {policy : Policy} {root : Addr}
  {step : MemAccess → Exec (World policy.State) β} (executes : Executes env policy step)
include executes

section Follows
variable {μ : Type} {strategy : Strategy μ}
  {settled : Nat → μ → PolicyState policy.State → Prop}
  {awaiting : Nat → μ → Nat → PolicyState policy.State → Prop}
  (implements : Implements env policy strategy settled awaiting)
include implements

theorem Executes.follows {paging : Paging μ} {access : MemAccess}
    {world after : World policy.State} (simulates : paging.Simulates env policy root settled world)
    (coherent : world.Coherent env root none) {value : β}
    (run : (step access).run world = .ok value after) :
    Paging.Simulates env policy root settled
      (paging.access strategy env.memsize access.page).2 after := by
  rcases executes access world with
    ⟨fault, last, translated, run'⟩ | ⟨frame, middle, translated, run' | ⟨value', physmem, run'⟩⟩
  · cases run.symm.trans run'
  · cases run.symm.trans run'
  · cases run.symm.trans run'
    obtain ⟨-, follows⟩ := implements.translate_follows simulates coherent access
    exact (follows frame middle translated).2.2.setStorage _

theorem Executes.run_follows (trace : List MemAccess) {paging : Paging μ}
    {world after : World policy.State} (simulates : paging.Simulates env policy root settled world)
    (coherent : world.Coherent env root none) {values : List β}
    (run : (runAll step trace).run world = .ok values after) :
    Paging.Simulates env policy root settled
        (paging.after strategy env.memsize (trace.map MemAccess.page)) after ∧
      after.Coherent env root none := by
  induction trace generalizing paging world values with
  | nil =>
      obtain ⟨-, rfl⟩ := EStateM.Result.ok.inj run
      exact ⟨simulates, coherent⟩
  | cons access rest ih =>
      obtain ⟨value, middle, others, stepRun, restRun, -⟩ := (runAll_cons_ok_iff step).mp run
      exact ih (executes.follows implements simulates coherent stepRun)
        (executes.coherent coherent stepRun) restRun

theorem Executes.run_misses (trace : List MemAccess) {paging : Paging μ}
    {world after : World policy.State}
    (simulates : paging.Simulates env policy root settled world)
    (coherent : world.Coherent env root none) {values : List β}
    (run : (runAll step trace).run world = .ok values after) :
    after.stats.missCount ≤ world.stats.missCount +
      paging.misses strategy env.memsize (trace.map MemAccess.page) := by
  induction trace generalizing paging world values with
  | nil =>
      obtain ⟨-, rfl⟩ := EStateM.Result.ok.inj run
      exact Nat.le_refl _
  | cons access rest ih =>
      obtain ⟨value, middle, others, stepRun, restRun, -⟩ := (runAll_cons_ok_iff step).mp run
      obtain ⟨hit, miss, -, -⟩ := (executes.accounted coherent stepRun).missed
      have one : middle.stats.missCount ≤
          world.stats.missCount + (paging.find access.page).isNone.toNat := by
        cases missing : (paging.find access.page).isNone with
        | true =>
            rw [miss ((simulates.find_isNone coherent _).mp missing)]
            exact increment32_le _
        | false =>
            apply Nat.le_of_eq
            apply hit
            by_contra absent
            rw [(simulates.find_isNone coherent _).mpr absent] at missing
            contradiction
      have misses := ih (executes.follows implements simulates coherent stepRun)
        (executes.coherent coherent stepRun) restRun
      rw [List.map_cons, Paging.misses]
      omega

end Follows

theorem Executes.run_tallied (trace : List MemAccess) {world after : World policy.State}
    {accesses : Nat} (coherent : world.Coherent env root none) (tally : Tally env world accesses)
    (short : accesses + trace.length < 2 ^ 32) {values : List β}
    (run : (runAll step trace).run world = .ok values after) :
    after.Coherent env root none ∧ Tally env after (accesses + trace.length) := by
  induction trace generalizing world accesses values with
  | nil =>
      obtain ⟨-, rfl⟩ := EStateM.Result.ok.inj run
      exact ⟨coherent, tally⟩
  | cons access rest ih =>
      rw [List.length_cons] at short ⊢
      obtain ⟨value, middle, others, stepRun, restRun, -⟩ := (runAll_cons_ok_iff step).mp run
      have tally' := (executes.accounted coherent stepRun).tallied tally (by omega)
      have both := ih (executes.coherent coherent stepRun) tally' (by omega) restRun
      rwa [Nat.add_right_comm] at both

theorem Executes.run_entered (trace : List MemAccess) {world after : World policy.State}
    {accesses : Nat} {known : Finset Nat} (coherent : world.Coherent env root none)
    (tally : Tally env world accesses) (short : accesses + trace.length < 2 ^ 32)
    (inKnown : ∀ page, (world.pageStore root).InMemory page → page ∈ known) {values : List β}
    (run : (runAll step trace).run world = .ok values after) :
    (known ∪ tracePages trace).card + world.stats.missCount ≤
      known.card + after.stats.missCount := by
  induction trace generalizing world accesses known values with
  | nil =>
      obtain ⟨-, rfl⟩ := EStateM.Result.ok.inj run
      rw [tracePages, List.map_nil, List.toFinset_nil, Finset.union_empty]
  | cons access rest ih =>
      rw [List.length_cons] at short
      obtain ⟨value, middle, others, stepRun, restRun, -⟩ := (runAll_cons_ok_iff step).mp run
      have accounted := executes.accounted coherent stepRun
      obtain ⟨hit, miss, -, entered⟩ := accounted.missed
      have inLater : ∀ page, (middle.pageStore root).InMemory page →
          page ∈ insert access.page known := by
        intro page inMemory
        rcases entered page inMemory with rfl | before
        · exact Finset.mem_insert_self _ _
        · exact Finset.mem_insert_of_mem (inKnown page before)
      have later := ih (executes.coherent coherent stepRun) (accounted.tallied tally (by omega))
        (by omega) inLater restRun
      have same : known ∪ tracePages (access :: rest) =
          insert access.page known ∪ tracePages rest := by
        rw [tracePages, List.map_cons, List.toFinset_cons, Finset.union_insert,
          Finset.insert_union, tracePages]
      rw [same]
      by_cases inMemory : (world.pageStore root).InMemory access.page
      · rw [Finset.insert_eq_self.mpr (inKnown _ inMemory), hit inMemory] at later
        rw [Finset.insert_eq_self.mpr (inKnown _ inMemory)]
        exact later
      · have one := Finset.card_insert_le access.page known
        have more := accounted.missed.counted inMemory tally (by omega)
        omega

theorem Executes.run_beyond {access : MemAccess} {rest : List MemAccess}
    {world middle after : World policy.State} {accesses : Nat}
    (coherent : world.Coherent env root none) (tally : Tally env world accesses)
    (short : accesses + (access :: rest).length < 2 ^ 32) {value : β} {values : List β}
    (stepRun : (step access).run world = .ok value middle)
    (restRun : (runAll step rest).run middle = .ok values after) :
    (tracePages (access :: rest)).card + middle.stats.missCount ≤
      env.memsize + after.stats.missCount := by
  rw [List.length_cons] at short
  have accounted := executes.accounted coherent stepRun
  have coherent' := executes.coherent coherent stepRun
  obtain ⟨known, few, inKnown⟩ := coherent'.occupancy
  have entered := executes.run_entered rest coherent' (accounted.tallied tally (by omega))
    (by omega) inKnown restRun
  have subset : tracePages (access :: rest) ⊆ known ∪ tracePages rest := by
    rw [tracePages, List.map_cons, List.toFinset_cons]
    apply Finset.insert_subset
    · exact Finset.mem_union_left _ (inKnown _ accounted.missed.present)
    · exact Finset.subset_union_right
  have atMost := Finset.card_le_card subset
  omega

end Runs

/-! ## Between two accesses of a run -/

def missesAfter {σ β : Type} (step : MemAccess → Exec (World σ) β) (trace : List MemAccess)
    (world : World σ) (count : Nat) : Nat :=
  (finalState ((runAll step (trace.take count)).run world)).stats.missCount

/-- A part of a run, with the counters at both ends. -/
structure Between {β : Type} {policy : Policy} (env : Env) (root : Addr)
    (step : MemAccess → Exec (World policy.State) β) (trace : List MemAccess)
    (world : World policy.State) (first last : Nat) (before after : World policy.State) :
    Prop where
  front : ∃ values, (runAll step (trace.take first)).run world = .ok values before
  run : ∃ values, (runAll step ((trace.take last).drop first)).run before = .ok values after
  coherent : before.Coherent env root none
  tally : Tally env before first
  missesBefore : missesAfter step trace world first = before.stats.missCount
  missesAfter : missesAfter step trace world last = after.stats.missCount

theorem tracePages_window (trace : List MemAccess) (first last : Nat) :
    tracePages ((trace.take last).drop first) =
      Requests.window (trace.map MemAccess.page) first last := by
  rw [Requests.window, tracePages, List.map_drop, List.map_take]

section Parts
variable {β : Type} {env : Env} {policy : Policy} {root : Addr}
  {step : MemAccess → Exec (World policy.State) β} (executes : Executes env policy step)
  {trace : List MemAccess} {world final : World policy.State}
  (coherent : world.Coherent env root none) (tally : Tally env world 0)
  (short : trace.length < 2 ^ 32) {values : List β}
  (run : (runAll step trace).run world = .ok values final)
include executes coherent tally short run

theorem Executes.between {first last : Nat} (order : first ≤ last)
    (within : last ≤ trace.length) :
    ∃ before after, Between env root step trace world first last before after := by
  have whole : trace = trace.take last ++ trace.drop last := (List.take_append_drop ..).symm
  have part : trace.take last = trace.take first ++ (trace.take last).drop first := by
    have split := (List.take_append_drop first (trace.take last)).symm
    rwa [List.take_take, Nat.min_eq_left order] at split
  rw [whole] at run
  obtain ⟨upTo, after, -, lastRun, -, -⟩ := runAll_append_ok _ run
  have lastRun' := lastRun
  rw [part] at lastRun'
  obtain ⟨upTo', before, between, firstRun, partRun, -⟩ := runAll_append_ok _ lastRun'
  have length : (trace.take first).length = first := List.length_take_of_le (by omega)
  obtain ⟨coherent', tally'⟩ :=
    executes.run_tallied (trace.take first) coherent tally (by omega) firstRun
  rw [length, Nat.zero_add] at tally'
  exact ⟨before, after, ⟨upTo', firstRun⟩, ⟨between, partRun⟩, coherent', tally',
    by rw [MemSim.missesAfter, firstRun]; rfl, by rw [MemSim.missesAfter, lastRun]; rfl⟩

theorem Executes.demanding (noPage : ∀ page, ¬ (world.pageStore root).InMemory page) :
    Requests.Demanding env.memsize (trace.map MemAccess.page)
      (missesAfter step trace world) where
  monotone := by
    intro earlier later order within
    rw [List.length_map] at within
    obtain ⟨before, after, between⟩ := executes.between coherent tally short run order within
    obtain ⟨values, partRun⟩ := between.run
    obtain ⟨known, -, inKnown⟩ := between.coherent.occupancy
    have entered := executes.run_entered _ between.coherent between.tally
      (by simp; omega) inKnown partRun
    have more := Finset.card_le_card
      (@Finset.subset_union_left _ _ known (tracePages ((trace.take later).drop earlier)))
    rw [between.missesBefore, between.missesAfter]
    omega
  begins := by
    intro someAccess
    have positive := List.length_pos_iff.mpr someAccess
    rw [List.length_map] at positive
    obtain ⟨before, after, between⟩ :=
      executes.between coherent tally short run (Nat.zero_le 1) positive
    obtain ⟨values, partRun⟩ := between.run
    obtain ⟨none', start⟩ := between.front
    rw [List.take_zero] at start
    obtain ⟨-, rfl⟩ := EStateM.Result.ok.inj start
    have nothing : ∀ page, (world.pageStore root).InMemory page → page ∈ (∅ : Finset Nat) :=
      fun page here => absurd here (noPage page)
    have small : 0 + ((trace.take 1).drop 0).length < 2 ^ 32 := by
      rw [List.drop_zero, List.length_take_of_le positive]
      decide
    have entered := executes.run_entered _ coherent tally small nothing partRun
    rw [Finset.empty_union, tracePages_window, Finset.card_empty,
      Requests.card_window_succ (by simpa using positive)] at entered
    rw [between.missesAfter]
    omega
  beyond := by
    intro first last order within
    rw [List.length_map] at within
    obtain ⟨before, after, between⟩ :=
      executes.between coherent tally short run (Nat.le_of_lt order) within
    obtain ⟨values, partRun⟩ := between.run
    have inTrace : first < trace.length := by omega
    have split : (trace.take last).drop first =
        trace.get ⟨first, inTrace⟩ :: (trace.take last).drop (first + 1) := by
      rw [List.drop_eq_getElem_cons (by simp; omega), List.getElem_take, List.get_eq_getElem]
    rw [split] at partRun
    obtain ⟨value, middle, others, stepRun, restRun, -⟩ := (runAll_cons_ok_iff step).mp partRun
    have beyond := executes.run_beyond between.coherent between.tally
      (by simp; omega) stepRun restRun
    obtain ⟨front, frontRun⟩ := between.front
    have one : (runAll step [trace.get ⟨first, inTrace⟩]).run before = .ok [value] middle := by
      rw [run_runAll_cons_of_ok step stepRun, run_runAll_nil]
    have missed : missesAfter step trace world (first + 1) = middle.stats.missCount := by
      rw [missesAfter, List.take_succ_eq_append_getElem inTrace,
        finalState_runAll_append_of_ok _ frontRun]
      exact congrArg (fun result => (finalState result).stats.missCount) one
    rw [← split, tracePages_window] at beyond
    rw [between.missesAfter, missed]
    exact beyond

end Parts

/-! ## Conservative policies -/

/-- In a fresh process the policy implements a conservative strategy. -/
def Policy.Conservative (env : Env) (policy : Policy) : Prop :=
  ∃ (μ : Type) (strategy : Strategy μ) (settled : Nat → μ → PolicyState policy.State → Prop)
    (awaiting : Nat → μ → Nat → PolicyState policy.State → Prop)
    (keeps : Nat → μ → Finset Nat → Finset Nat → Prop),
    Implements env policy strategy settled awaiting ∧ Conserves strategy env.memsize keeps ∧
      ∀ swapSize root (world : World policy.State),
        world.Started env policy (Process.fresh policy) swapSize root →
          Paging.Simulates env policy root settled (Paging.start strategy) world

theorem rr_conservative {env : Env} (positive : 0 < env.memsize) :
    policyRR.Conservative env :=
  ⟨_, _, _, _, _, rr_implements env, RoundRobin.conserves positive,
    fun _ _ _ started => rr_starts started positive⟩

theorem clock_conservative {env : Env} (positive : 0 < env.memsize) :
    policyClock.Conservative env :=
  ⟨_, _, _, _, _, clock_implements env positive, SecondChance.conserves positive,
    fun _ _ _ started => clock_starts started rfl⟩

/-- A simulation that was just created in a fresh process. -/
structure Launched (env : Env) (policy : Policy) (swapSize : Nat) (world : World policy.State) :
    Prop where
  created : simulationCreate env policy (Process.fresh policy) swapSize = .ok (some world)
  positive : 0 < env.memsize
  swapFits : swapSize < 2 ^ 64

section Launched
variable {β : Type} {env : Env} {policy : Policy} {swapSize : Nat}
  {step : MemAccess → Exec (World policy.State) β} {world : World policy.State}

theorem Launched.started (launched : Launched env policy swapSize world) :
    ∃ root, world.Started env policy (Process.fresh policy) swapSize root :=
  simulationCreate_started (fresh_cleared policy) launched.swapFits launched.created

theorem World.Started.noPage {process : Process policy.State} {root : Addr}
    (started : world.Started env policy process swapSize root) (page : Nat) :
    ¬ (world.pageStore root).InMemory page := by
  intro inMemory
  obtain ⟨entry, here, -⟩ := inMemory
  rw [started.entry_none page] at here
  contradiction

section Stretch
variable {front window : List MemAccess} {values values' : List β}
  {before after : World policy.State}

theorem Policy.Conservative.stretch (conservative : policy.Conservative env)
    (executes : Executes env policy step) (launched : Launched env policy swapSize world)
    (few : (tracePages window).card ≤ env.memsize)
    (frontRun : (runAll step front).run world = .ok values before)
    (windowRun : (runAll step window).run before = .ok values' after) :
    after.stats.missCount ≤ before.stats.missCount + (tracePages window).card := by
  obtain ⟨root, started⟩ := launched.started
  obtain ⟨μ, strategy, settled, awaiting, keeps, implements, conserves, starts⟩ := conservative
  obtain ⟨simulates, coherent⟩ := executes.run_follows implements front (starts _ _ _ started)
    started.coherent frontRun
  have misses := executes.run_misses implements window simulates coherent windowRun
  have atMost := Paging.misses_stretch conserves launched.positive
    (front.map MemAccess.page) (window.map MemAccess.page) few
  exact misses.trans (Nat.add_le_add_left atMost _)

end Stretch

section Whole
variable {trace : List MemAccess} {values : List β} {final : World policy.State}
  (executes : Executes env policy step) (launched : Launched env policy swapSize world)
  (short : trace.length < 2 ^ 32) (run : (runAll step trace).run world = .ok values final)
include executes launched short run

theorem Policy.Conservative.requests (conservative : policy.Conservative env) :
    Requests.Conservative env.memsize (trace.map MemAccess.page)
      (missesAfter step trace world) := by
  intro first last order within few
  rw [List.length_map] at within
  obtain ⟨root, started⟩ := launched.started
  obtain ⟨before, after, between⟩ :=
    executes.between started.coherent (started.tally rfl) short run order within
  obtain ⟨values, frontRun⟩ := between.front
  obtain ⟨values', partRun⟩ := between.run
  rw [← tracePages_window] at few ⊢
  rw [between.missesBefore, between.missesAfter]
  exact conservative.stretch executes launched few frontRun partRun

theorem Launched.demanding : Requests.Demanding env.memsize (trace.map MemAccess.page)
    (missesAfter step trace world) := by
  obtain ⟨root, started⟩ := launched.started
  exact executes.demanding started.coherent (started.tally rfl) short run started.noPage

end Whole

end Launched

theorem exists_returned {policy : Policy} {memsize swapSize : Nat} {random : Nat → Nat}
    {trace : List MemAccess} (member : policy ∈ policies random) (positive : 0 < memsize)
    (small : memsize ≤ 2 ^ 28) (swapFits : swapSize ≤ 2 ^ 64 - 64)
    (addresses : ∀ access ∈ trace, access.virtualAddress < 2 ^ 48)
    (offsets : ∀ access ∈ trace, access.virtualAddress % pageSize ≤ 15)
    (room : (tracePages trace).card ≤ swapSize)
    (enough : footprint (tracePages trace) ≤ kmallocMax)
    (grants : grantsRun (Env.ideal memsize) policy swapSize
      (executeMemInstruction (Env.ideal memsize) policy) trace = true) :
    ∃ world values final, Launched (Env.ideal memsize) policy swapSize world ∧
      (runAll (executeMemInstruction (Env.ideal memsize) policy) trace).run world =
        .ok values final := by
  obtain ⟨world, fresh⟩ :=
    exists_freshRun grants positive (by omega) (fun _ => rfl) addresses room
  have ample : AmpleRun (Env.ideal memsize) policy swapSize trace world :=
    ⟨fresh.created, positive, small, swapFits, fresh.io, Env.ideal_generous memsize,
      fresh.addresses, offsets, fresh.room⟩
  obtain ⟨values, final, run⟩ := ample.returns (executes_executeMemInstruction _ _) member
    finishes_executeMemInstruction enough
  exact ⟨world, values, final, ⟨fresh.created, positive, fresh.swapFits⟩, run⟩

theorem threePages_returns {policy : Policy} {memsize : Nat} {random : Nat → Nat}
    (member : policy ∈ policies random) (positive : 0 < memsize) (small : memsize ≤ 2 ^ 28)
    (grants : grantsRun (Env.ideal memsize) policy 3
      (executeMemInstruction (Env.ideal memsize) policy) threePages = true) :
    ∃ world values final, Launched (Env.ideal memsize) policy 3 world ∧
      (runAll (executeMemInstruction (Env.ideal memsize) policy) threePages).run world =
        .ok values final :=
  exists_returned member positive small (by decide) (by decide) (by decide) (by decide) (by decide)
    grants

/-! ## RR and Clock -/

section RRClock
variable {β : Type} {env : Env} {policy : Policy} {swapSize : Nat}
  {step : MemAccess → Exec (World policy.State) β} {world : World policy.State}

/-- RR and Clock miss each page of a stretch with few pages at most once. -/
theorem misses_of_stretch {front window : List MemAccess} {values values' : List β}
    {before after : World policy.State} (policyIs : policy = policyRR ∨ policy = policyClock)
    (executes : Executes env policy step) (launched : Launched env policy swapSize world)
    (few : (tracePages window).card ≤ env.memsize)
    (frontRun : (runAll step front).run world = .ok values before)
    (windowRun : (runAll step window).run before = .ok values' after) :
    after.stats.missCount ≤ before.stats.missCount + (tracePages window).card := by
  have conservative : policy.Conservative env := by
    rcases policyIs with rfl | rfl
    · exact rr_conservative launched.positive
    · exact clock_conservative launched.positive
  exact conservative.stretch executes launched few frontRun windowRun

theorem misses_of_stretch_threePages : ∃ world values values' before after,
    Launched (Env.ideal 2) policyClock 3 world ∧
    (runAll (executeMemInstruction (Env.ideal 2) policyClock) (threePages.take 3)).run world =
      .ok values before ∧
    (runAll (executeMemInstruction (Env.ideal 2) policyClock) (threePages.drop 3)).run before =
      .ok values' after ∧
    after.stats.missCount ≤ before.stats.missCount + 2 := by
  have member : policyClock ∈ policies fun _ => 0 := by simp [policies]
  have grants : grantsRun (Env.ideal 2) policyClock 3
      (executeMemInstruction (Env.ideal 2) policyClock) threePages = true := by decide +kernel
  obtain ⟨world, values, after, launched, run⟩ :=
    threePages_returns member (by decide) (by decide) grants
  have split : threePages = threePages.take 3 ++ threePages.drop 3 := by decide
  rw [split] at run
  obtain ⟨first, before, second, frontRun, windowRun, -⟩ := runAll_append_ok _ run
  exact ⟨world, first, second, before, after, launched, frontRun, windowRun,
    misses_of_stretch (.inr rfl) (executes_executeMemInstruction _ _) launched (by decide) frontRun
      windowRun⟩

/-- RR and Clock against any policy with as many frames or fewer. -/
theorem misses_competitive {β' : Type} {env' : Env} {other : Policy} {swapSize' : Nat}
    {step' : MemAccess → Exec (World other.State) β'} {trace : List MemAccess}
    {world' final' : World other.State} {final : World policy.State} {values : List β}
    {values' : List β'} (policyIs : policy = policyRR ∨ policy = policyClock)
    (executes : Executes env policy step) (executes' : Executes env' other step')
    (launched : Launched env policy swapSize world)
    (launched' : Launched env' other swapSize' world') (fewer : env'.memsize ≤ env.memsize)
    (short : trace.length < 2 ^ 32) (run : (runAll step trace).run world = .ok values final)
    (run' : (runAll step' trace).run world' = .ok values' final') :
    (env.memsize - env'.memsize + 1) * final.stats.missCount ≤
      env.memsize * (final'.stats.missCount + (env.memsize - env'.memsize)) := by
  have conservative : policy.Conservative env := by
    rcases policyIs with rfl | rfl
    · exact rr_conservative launched.positive
    · exact clock_conservative launched.positive
  have bound := (conservative.requests executes launched short run).competitive
    (launched'.demanding executes' short run') launched.positive fewer
  have none' : missesAfter step trace world 0 = 0 := by
    obtain ⟨root, started⟩ := launched.started
    have stats : world.stats = MMStats.zero := started.stats
    rw [missesAfter, List.take_zero]
    exact congrArg MMStats.missCount stats
  have all : missesAfter step trace world (trace.map MemAccess.page).length =
      final.stats.missCount := by
    rw [missesAfter, List.length_map, List.take_length, run]
    rfl
  have all' : missesAfter step' trace world' (trace.map MemAccess.page).length =
      final'.stats.missCount := by
    rw [missesAfter, List.length_map, List.take_length, run']
    rfl
  rw [none', all, all', Nat.mul_zero, Nat.zero_add] at bound
  exact bound

/-- Clock with two frames against S2Q with one. -/
theorem misses_competitive_threePages : ∃ world world' values values' final final',
    (runAll (executeMemInstruction (Env.ideal 2) policyClock) threePages).run world =
      .ok values final ∧
    (runAll (executeMemInstruction (Env.ideal 1) policyS2Q) threePages).run world' =
      .ok values' final' ∧
    (2 - 1 + 1) * final.stats.missCount ≤ 2 * (final'.stats.missCount + (2 - 1)) := by
  have member : policyClock ∈ policies fun _ => 0 := by simp [policies]
  have member' : policyS2Q ∈ policies fun _ => 0 := by simp [policies]
  have grants : grantsRun (Env.ideal 2) policyClock 3
      (executeMemInstruction (Env.ideal 2) policyClock) threePages = true := by decide +kernel
  have grants' : grantsRun (Env.ideal 1) policyS2Q 3
      (executeMemInstruction (Env.ideal 1) policyS2Q) threePages = true := by decide +kernel
  obtain ⟨world, values, final, launched, run⟩ :=
    threePages_returns member (by decide) (by decide) grants
  obtain ⟨world', values', final', launched', run'⟩ :=
    threePages_returns member' (by decide) (by decide) grants'
  exact ⟨world, world', values, values', final, final', run, run',
    misses_competitive (.inr rfl) (executes_executeMemInstruction _ _)
      (executes_executeMemInstruction _ _) launched launched' (by decide) (by decide) run run'⟩

end RRClock

end MemSim
