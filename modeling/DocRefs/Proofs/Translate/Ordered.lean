import DocRefs.Proofs.Translate.Progress
import Mathlib.Data.List.Nodup

/-!
# Side by side as one after another

Main result: `Crew.delivers_in_order`. Every schedule of the threads ends with the call returned,
and what the call has delivered by then does not depend on the schedule, unless an item could not
be translated.
-/
namespace DocRefs.Crew

open scoped List

variable {ι ω ε σ : Type} {crew : Crew ι ω ε σ} {s t : State ι ω ε σ}

/-- The items with their numbers. -/
def numbered (items : List ι) : List (Job ι) := items.zipIdx.map fun p => (p.2, p.1)

theorem mem_numbered_iff {items : List ι} {job : Job ι} :
    job ∈ numbered items ↔ items[job.1]? = some job.2 := by
  constructor
  · intro member
    obtain ⟨p, there, rfl⟩ := List.mem_map.mp member
    exact List.mem_zipIdx_iff_getElem?.mp there
  · intro here
    exact List.mem_map.mpr ⟨(job.2, job.1), List.mem_zipIdx_iff_getElem?.mpr here, rfl⟩

theorem map_fst_numbered (items : List ι) :
    (numbered items).map (·.1) = List.range items.length := by
  simp [numbered, Function.comp_def, List.range_eq_range']

/-- Jobs whose numbers are those of the items, and which carry the right items, are all of them. -/
theorem perm_numbered {items : List ι} {jobs : List (Job ι)}
    (numbers : jobs.map (·.1) ~ List.range items.length)
    (right : ∀ job ∈ jobs, items[job.1]? = some job.2) : jobs ~ numbered items := by
  have distinct : jobs.Nodup := .of_map _ (numbers.nodup_iff.mpr List.nodup_range)
  have others : (numbered items).Nodup := by
    refine .of_map (·.1) ?_
    rw [map_fst_numbered]
    exact List.nodup_range
  rw [List.perm_ext_iff_of_nodup distinct others]
  intro job
  rw [mem_numbered_iff]
  -- Some job has the number, and the number determines the item.
  refine ⟨right job, fun here => ?_⟩
  obtain ⟨bound, _⟩ := List.getElem?_eq_some_iff.mp here
  obtain ⟨other, member, same⟩ :=
    List.mem_map.mp (numbers.mem_iff.mpr (List.mem_range.mpr bound))
  have found := right other member
  rw [same, here] at found
  obtain rfl : other = job := Prod.ext same (Option.some.inj found).symm
  exact member

/-! ### What is left when the call has returned -/

structure Settled (crew : Crew ι ω ε σ) (items : List ι) (sunk : σ) (s : State ι ω ε σ) :
    Prop where
  good : ∀ item ∈ items, ∃ yielded, crew.translate item = .ok yielded
  result : s.collector.result = translateEach crew.translate crew.sink items sunk
  fine : s.collector.failure = none
  translated : s.translated ~ numbered items

/-- Without a failure everybody has left, so every number has arrived. -/
theorem Whole.settled {sunk : σ} {read items : List ι} {arrived : List Nat}
    (whole : Whole crew sunk read arrived s) (sound : Sound crew s)
    (split : read ++ s.input = items) (returned : s.phase = .returned) :
    Settled crew items sunk s := by
  have fine : s.collector.failure = none := whole.follows.fine
  have past : s.phase.isOver = true := by simp [returned, Phase.isOver]
  obtain ⟨deserted, reports⟩ := sound.ended fine past
  obtain ⟨feeder, jobs⟩ := sound.left_of_deserted fine (Phase.left_of_isOver past) deserted
  obtain rfl : read = items := by simpa [(sound.drained fine feeder).1] using split
  have noJobs : s.workers.flatMap Worker.jobs = [] := by
    rw [List.flatMap_eq_nil_iff]
    intro worker member
    rw [deserted worker member]
    rfl
  have noReports : s.workers.flatMap Worker.reports = [] := by
    rw [List.flatMap_eq_nil_iff]
    intro worker member
    rw [deserted worker member]
    rfl
  have untranslated : s.untranslated = [] := by
    simp [State.untranslated, feeder, jobs, noJobs, Feeder.jobs]
  have uncollected : s.uncollected = [] := by
    simp [State.uncollected, reports, noReports, returned, Phase.reports]
  have numbers : arrived ~ List.range read.length := by
    simpa [untranslated, uncollected] using whole.numbers
  have all : ∀ number < read.length, number ∈ arrived :=
    fun number bound => numbers.mem_iff.mpr (List.mem_range.mpr bound)
  constructor
  case good =>
    intro item member
    obtain ⟨number, here⟩ := List.mem_iff_getElem?.mp member
    obtain ⟨bound, _⟩ := List.getElem?_eq_some_iff.mp here
    obtain ⟨other, yielded, there, outcome⟩ := whole.follows.good number (all number bound)
    rw [here] at there
    cases there
    exact ⟨yielded, outcome⟩
  case result =>
    rw [whole.follows.delivers_all whole.waits all, Collector.result, fine]
  case fine => exact fine
  case translated =>
    apply perm_numbered _ whole.right
    have translated := whole.translated
    rw [uncollected] at translated
    exact translated.trans numbers

theorem sound_of_runs {items : List ι} {sunk : σ}
    (runs : crew.Runs (crew.start items false sunk) s) :
    Sound crew s ∧ Accounts crew sunk items s ∧ s.isOpen = false := by
  induction runs with
  | refl => exact ⟨.start _ _ _ _, .start _ _ _ _, rfl⟩
  | tail _ step ih =>
    obtain ⟨sound, accounts, closed⟩ := ih
    exact ⟨sound.step step, accounts.step sound step, step.isOpen_eq.trans closed⟩

/-- However the threads are scheduled, they come to an end, and then the call has returned. Where
every item can be translated, what it has delivered and the failure it has met are those of going
through the items one after another. Otherwise it has met a failure, of an item that cannot be
translated or of the sink, after delivering a beginning of the items without any that cannot be
translated. Where it has met none, every item was translated once.

The sink is arbitrary, so its state can be a record of the values it was called with, and its error
can say with which value it failed. -/
theorem delivers_in_order (crew : Crew ι ω ε σ) (items : List ι) (sunk : σ)
    {s : State ι ω ε σ} (runs : crew.Runs (crew.start items false sunk) s) :
    Acc (fun after before => crew.Step before after) s ∧
    ((∀ t, ¬ crew.Step s t) → s.phase = .returned) ∧
    (s.phase = .returned →
      ((∀ item ∈ items, ∃ yielded, crew.translate item = .ok yielded) →
        s.collector.result = translateEach crew.translate crew.sink items sunk) ∧
      ((∃ item ∈ items, ∃ e, crew.translate item = .error e) →
        ∃ e front, s.collector.failure = some e ∧ front <+: items ∧
          (∀ item ∈ front, ∃ yielded, crew.translate item = .ok yielded) ∧
          translateEach crew.translate crew.sink front sunk = (s.collector.sunk, none) ∧
          ((∃ item ∈ items, crew.translate item = .error e) ∨
            ∃ item value, front ++ [item] <+: items ∧
              crew.translate item = .ok (.value value) ∧
              crew.sink value s.collector.sunk = .error e)) ∧
      (s.collector.failure = none → s.translated ~ numbered items)) := by
  obtain ⟨sound, accounts, closed⟩ := sound_of_runs runs
  refine ⟨(step_wellFounded crew).apply s, ?_, ?_⟩
  · intro stuck
    by_contra unfinished
    obtain ⟨t, step⟩ | starved := enabled sound unfinished
    · exact stuck t step
    · exact absurd starved.isOpen (by simp [closed])
  intro returned
  obtain ⟨read, split, ⟨arrived, whole⟩ | stopped⟩ := accounts
  · have settled := whole.settled sound split returned
    refine ⟨fun _ => settled.result, ?_, fun _ => settled.translated⟩
    rintro ⟨item, member, e, failed⟩
    obtain ⟨yielded, outcome⟩ := settled.good item member
    rw [failed] at outcome
    cases outcome
  · -- The collector stopped on the way, which may be before every item was read.
    have stopped := split ▸ stopped.append s.input
    refine ⟨stopped.result_eq, fun _ => ?_, ?_⟩
    · obtain ⟨e, front, failure, start, delivered, cause⟩ := stopped
      exact ⟨e, front, failure, start, translated_of_translateEach delivered, delivered, cause⟩
    · intro fine
      obtain ⟨e, _, failure, _⟩ := stopped
      rw [fine] at failure
      cases failure

-- Two workers, of which the second is done first; and a call with an item that is refused.
theorem delivers_in_order_picky :
    (∃ s, (picky 2).Runs ((picky 2).start [4, 7] false []) s ∧ s.phase = .returned ∧
      s.translated = [(1, 7), (0, 4)] ∧
      s.collector.result = translateEach (picky 2).translate (picky 2).sink [4, 7] [] ∧
      s.collector.result = ([4, 7], none) ∧ s.translated ~ numbered [4, 7]) ∧
    ∃ s, (picky 2).Runs ((picky 2).start [4, 0, 7] false []) s ∧ s.phase = .returned ∧
      ∃ e front, s.collector.failure = some e ∧ front <+: [4, 0, 7] ∧
        translateEach (picky 2).translate (picky 2).sink front [] = (s.collector.sunk, none) := by
  constructor
  · have runs : (picky 2).Runs ((picky 2).start [4, 7] false [])
        { input := []
          isOpen := false
          feeder := .gone
          jobs := []
          workers := [.gone, .gone]
          reports := []
          phase := .returned
          collector := { next := 2, sunk := [4, 7] }
          translated := [(1, 7), (0, 4)] } :=
      .head (.hire rfl) <|
      .head (.hire rfl) <|
      .head (.keepNoJobs rfl) <|
      .head (.sendNoReports rfl) <|
      .head (.read rfl rfl) <|
      .head (.feed rfl (by decide) (.inr (by simp [State.Deserted]))) <|
      .head (.read rfl rfl) <|
      .head (.feed rfl (by decide) (.inr (by simp [State.Deserted]))) <|
      .head (@Step.take _ _ _ _ _ _ [] [.idle] _ _ rfl rfl) <|
      .head (@Step.take _ _ _ _ _ _ [.busy (0, 4)] [] _ _ rfl rfl) <|
      .head (@Step.translate _ _ _ _ _ _ [.busy (0, 4)] [] _ rfl) <|
      .head (@Step.give _ _ _ _ _ _ [.busy (0, 4)] [] _ rfl (by decide) rfl) <|
      .head (@Step.translate _ _ _ _ _ _ [] [.idle] _ rfl) <|
      .head (@Step.give _ _ _ _ _ _ [] [.idle] _ rfl (by decide) rfl) <|
      .head (.receive rfl rfl) <|
      .head (.collect rfl rfl) <|
      .head (.receive rfl rfl) <|
      .head (.collect rfl rfl) <|
      .head (.exhaust rfl rfl rfl) <|
      .head (@Step.noJobs _ _ _ _ _ _ [] [.idle] rfl rfl rfl) <|
      .head (@Step.noJobs _ _ _ _ _ _ [.gone] [] rfl rfl rfl) <|
      .head (.finish rfl rfl (by simp [State.Deserted])) <|
      .head (.cancel rfl) <|
      .head (.dropReports rfl) <|
      .head (.join rfl rfl (by simp [State.Deserted])) .refl
    obtain ⟨same, _, translated⟩ := (delivers_in_order _ _ _ runs).2.2 rfl
    have good : ∀ item ∈ [4, 7], ∃ yielded, (picky 2).translate item = .ok yielded := by
      simp [picky]
    exact ⟨_, runs, rfl, rfl, same good, rfl, translated rfl⟩
  · obtain ⟨s, runs, returned, _⟩ :=
      exists_returned (Sound.start (picky 2) [4, 0, 7] false []) (.inr rfl)
    obtain ⟨_, stops, _⟩ := (delivers_in_order _ _ _ runs).2.2 returned
    obtain ⟨e, front, failure, start, _, delivered, _⟩ := stops ⟨0, by simp, "zero", rfl⟩
    exact ⟨s, runs, returned, e, front, failure, start, delivered⟩

end DocRefs.Crew
