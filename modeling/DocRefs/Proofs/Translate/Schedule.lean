import DocRefs.Translate.Crew
import Mathlib.Tactic.ByContra

/-!
# The order in which threads leave

Main result: `Crew.Sound.step`. Without a failure the threads that translate one input leave in
order, first the feeder, then the workers, then the caller, and each leaves nothing behind for those
that follow. After a failure they may leave in any order, but only once the caller has stopped
collecting.
-/
namespace DocRefs.Crew

variable {ι ω ε σ : Type} {crew : Crew ι ω ε σ} {s t : State ι ω ε σ}

theorem size_pos (crew : Crew ι ω ε σ) : 0 < crew.size := by
  unfold size
  omega

namespace Phase

/-- The workers still to be started. -/
def left : Phase ω ε → Nat
  | starting left => left
  | _ => 0

variable {phase : Phase ω ε}

theorem isOver_of_isDone (done : phase.isDone = true) : phase.isOver = true := by
  cases phase <;> simp_all [isDone, isOver]

theorem isOver_of_not_receives (deaf : phase.receives = false) : phase.isOver = true := by
  cases phase <;> simp_all [receives, isOver]

theorem left_of_isOver (past : phase.isOver = true) : phase.left = 0 := by
  cases phase <;> simp_all [left, isOver]

theorem left_of_not_keepsJobs (without : phase.keepsJobs ≠ true) : phase.left = 0 := by
  cases phase <;> simp_all [left, keepsJobs]

end Phase

/-! ### What every state has in common -/

/-- `left` and `drained` say that nobody leaves before those whose work it does, `ended` that the
caller comes last. -/
structure Sound (crew : Crew ι ω ε σ) (s : State ι ω ε σ) : Prop where
  staffed : s.workers.length + s.phase.left = crew.size
  fromChannel : s.isOpen = true → crew.fromChannel = true
  failed : s.collector.failure ≠ none → s.phase.isOver = true
  ended : s.collector.failure = none → s.phase.isOver = true → s.Deserted ∧ s.reports = []
  left : s.collector.failure = none → .gone ∈ s.workers → s.feeder = .gone ∧ s.jobs = []
  drained : s.collector.failure = none → s.feeder = .gone → s.input = [] ∧ s.isOpen = false
  joined : s.phase = .returned → s.feeder = .gone ∧ s.Deserted

namespace Sound

theorem start (crew : Crew ι ω ε σ) (items : List ι) (isOpen : Bool) (sunk : σ) :
    Sound crew (crew.start items isOpen sunk) := by
  constructor <;> simp [Crew.start, Phase.left, Phase.isOver]

theorem fine_of_not_over (sound : Sound crew s) (going : s.phase.isOver = false) :
    s.collector.failure = none := by
  by_cases fine : s.collector.failure = none
  · exact fine
  · simp [sound.failed fine] at going

theorem not_over_of_worker (sound : Sound crew s) (fine : s.collector.failure = none)
    {front back : List (Worker ι ω ε)} {worker : Worker ι ω ε}
    (held : s.workers = front ++ worker :: back) (there : worker ≠ .gone) :
    s.phase.isOver = false := by
  cases past : s.phase.isOver with
  | false => rfl
  | true => exact absurd ((sound.ended fine past).1 worker (by simp [held])) there

theorem not_returned_of_worker (sound : Sound crew s) {front back : List (Worker ι ω ε)}
    {worker : Worker ι ω ε} (held : s.workers = front ++ worker :: back)
    (there : worker ≠ .gone) : s.phase ≠ .returned := by
  intro returned
  exact there ((sound.joined returned).2 worker (by simp [held]))

-- At least one worker is always started, so where none is left one of them has left.
theorem left_of_deserted (sound : Sound crew s) (fine : s.collector.failure = none)
    (started : s.phase.left = 0) (deserted : s.Deserted) : s.feeder = .gone ∧ s.jobs = [] := by
  have staffed := sound.staffed
  have some_worker : 0 < s.workers.length := by
    have := crew.size_pos
    omega
  obtain ⟨worker, member⟩ := List.length_pos_iff_exists_mem.mp some_worker
  apply sound.left fine
  rwa [← deserted worker member]

theorem feeder_gone_of_over (sound : Sound crew s) (fine : s.collector.failure = none)
    (past : s.phase.isOver = true) : s.feeder = .gone :=
  (sound.left_of_deserted fine (Phase.left_of_isOver past) (sound.ended fine past).1).1

theorem takesJobs_of_feeder (sound : Sound crew s) (fine : s.collector.failure = none)
    (there : s.feeder ≠ .gone) : s.TakesJobs := by
  by_contra nobody
  obtain ⟨without, deserted⟩ := not_or.mp nobody
  apply there
  exact (sound.left_of_deserted fine (Phase.left_of_not_keepsJobs without)
    (Classical.not_not.mp deserted)).1

/-- A step of the feeder. -/
theorem feeder (sound : Sound crew s) (there : s.feeder ≠ .gone) (feeder : Feeder ι)
    (input : List ι) (jobs : List (Job ι))
    (drains : s.collector.failure = none → feeder = .gone → input = [] ∧ s.isOpen = false) :
    Sound crew { s with feeder, input, jobs } where
  staffed := sound.staffed
  fromChannel := sound.fromChannel
  failed := sound.failed
  ended := sound.ended
  left := fun fine member => absurd (sound.left fine member).1 there
  drained := drains
  joined := fun returned => absurd (sound.joined returned).1 there

/-- A step of a worker. It leaves where no job is to come any more, or after a failure. -/
theorem worker (sound : Sound crew s) {front back : List (Worker ι ω ε)} {before : Worker ι ω ε}
    (held : s.workers = front ++ before :: back) (there : before ≠ .gone) (after : Worker ι ω ε)
    (jobs : List (Job ι)) (reports : List (Report ω ε)) (translated : List (Job ι))
    (fewer : s.jobs = [] → jobs = [])
    (leaves : s.collector.failure = none → after = .gone → s.feeder = .gone ∧ s.jobs = []) :
    Sound crew { s with workers := front ++ after :: back, jobs, reports, translated } := by
  constructor
  case staffed =>
    have staffed := sound.staffed
    simpa [held] using staffed
  case fromChannel => exact sound.fromChannel
  case failed => exact sound.failed
  case ended =>
    intro fine past
    have going := sound.not_over_of_worker fine held there
    exact absurd past (by simp [going])
  case left =>
    intro fine gone
    have left : s.feeder = .gone ∧ s.jobs = [] := by
      simp only [List.mem_append, List.mem_cons] at gone
      obtain there | here | there := gone
      · exact sound.left fine (by simp [held, there])
      · exact leaves fine here.symm
      · exact sound.left fine (by simp [held, there])
    exact ⟨left.1, fewer left.2⟩
  case drained => exact sound.drained
  case joined =>
    intro returned
    exact absurd returned (sound.not_returned_of_worker held there)

/-- A worker leaves after the last report was collected. -/
theorem worker_over (sound : Sound crew s) {front back : List (Worker ι ω ε)}
    {before : Worker ι ω ε} (held : s.workers = front ++ before :: back) (there : before ≠ .gone)
    (past : s.phase.isOver = true) : Sound crew { s with workers := front ++ .gone :: back } := by
  apply sound.worker held there
  · exact id
  · intro fine _
    have going := sound.not_over_of_worker fine held there
    exact absurd past (by simp [going])

/-- A step of the caller. -/
theorem caller (sound : Sound crew s) (phase : Phase ω ε) (reports : List (Report ω ε))
    (collector : Collector ω ε σ) (staffed : phase.left = s.phase.left)
    (earlier : collector.failure = none → s.collector.failure = none)
    (failed : collector.failure ≠ none → phase.isOver = true)
    (ended : collector.failure = none → phase.isOver = true → s.Deserted ∧ reports = [])
    (joined : phase = .returned → s.feeder = .gone ∧ s.Deserted) :
    Sound crew { s with phase, reports, collector } where
  staffed := by
    have before := sound.staffed
    simp only
    omega
  fromChannel := sound.fromChannel
  failed := failed
  ended := ended
  left := fun fine => sound.left (earlier fine)
  drained := fun fine => sound.drained (earlier fine)
  joined := joined

/-- The caller goes on: there was no failure, and there is none. -/
theorem caller_on (sound : Sound crew s) (phase : Phase ω ε) (reports : List (Report ω ε))
    (staffed : phase.left = s.phase.left) (going : s.phase.isOver = false)
    (goes : phase.isOver = false) : Sound crew { s with phase, reports } := by
  apply sound.caller phase reports s.collector staffed
  · exact id
  · intro failed
    exact absurd (sound.fine_of_not_over going) failed
  · intro _ past
    simp [goes] at past
  · intro returned
    simp [returned, Phase.isOver] at goes

/-- The caller leaves one thing after the other. -/
theorem caller_over (sound : Sound crew s) (phase : Phase ω ε) (reports : List (Report ω ε))
    (started : s.phase.left = 0) (past : phase.isOver = true)
    (ended : s.collector.failure = none → s.Deserted ∧ reports = [])
    (joined : phase = .returned → s.feeder = .gone ∧ s.Deserted) :
    Sound crew { s with phase, reports } := by
  apply sound.caller phase reports s.collector
  · rw [started, Phase.left_of_isOver past]
  · exact id
  · exact fun _ => past
  · exact fun fine _ => ended fine
  · exact joined

theorem step (sound : Sound crew s) (step : crew.Step s t) : Sound crew t := by
  cases step with
  | hire starting =>
    have staffed := sound.staffed
    have going : s.phase.isOver = false := by simp [starting, Phase.isOver]
    refine ⟨?_, sound.fromChannel, ?_, ?_, ?_, sound.drained, ?_⟩
    · simp only [starting, Phase.left, List.length_cons] at staffed ⊢
      omega
    · intro failed
      exact absurd (sound.fine_of_not_over going) failed
    · intro _ past
      simp [Phase.isOver] at past
    · intro fine gone
      simp only [List.mem_cons, reduceCtorEq, false_or] at gone
      exact sound.left fine gone
    · intro returned
      cases returned
  | keepNoJobs starting =>
    exact sound.caller_on _ _ (by simp [starting, Phase.left]) (by simp [starting, Phase.isOver])
      rfl
  | sendNoReports started =>
    exact sound.caller_on _ _ (by simp [started, Phase.left]) (by simp [started, Phase.isOver]) rfl
  | receive waiting reports =>
    exact sound.caller_on _ _ (by simp [waiting, Phase.left]) (by simp [waiting, Phase.isOver]) rfl
  | collect holding collected =>
    -- The caller stops exactly where the collector has met a failure.
    have fine : s.collector.failure = none :=
      sound.fine_of_not_over (by simp [holding, Phase.isOver])
    apply sound.caller
    · rw [holding]
      split <;> rfl
    · exact fun _ => fine
    · intro failed
      simp [Option.isSome_iff_ne_none.mpr failed, Phase.isOver]
    · intro still past
      simp [still, Phase.isOver] at past
    · intro returned
      split at returned <;> cases returned
  | finish waiting reports deserted =>
    apply sound.caller_over
    · simp [waiting, Phase.left]
    · rfl
    · exact fun _ => ⟨deserted, reports⟩
    · simp
  | cancel ended =>
    have past : s.phase.isOver = true := by simp [ended, Phase.isOver]
    apply sound.caller_over
    · exact Phase.left_of_isOver past
    · rfl
    · exact fun fine => sound.ended fine past
    · simp
  | dropReports cancelled =>
    have past : s.phase.isOver = true := by simp [cancelled, Phase.isOver]
    apply sound.caller_over
    · exact Phase.left_of_isOver past
    · rfl
    · exact fun fine => ⟨(sound.ended fine past).1, rfl⟩
    · simp
  | join joining feeder deserted =>
    have past : s.phase.isOver = true := by simp [joining, Phase.isOver]
    apply sound.caller_over
    · exact Phase.left_of_isOver past
    · rfl
    · exact fun fine => sound.ended fine past
    · exact fun _ => ⟨feeder, deserted⟩
  | read reading input =>
    apply sound.feeder (by simp [reading])
    simp
  | exhaust reading input closed =>
    apply sound.feeder (by simp [reading])
    intro _ _
    exact ⟨input, closed⟩
  | feed offering room takers =>
    apply sound.feeder (by simp [offering])
    simp
  | feedNobody offering nobody =>
    apply sound.feeder (by simp [offering])
    intro fine _
    exact absurd (sound.takesJobs_of_feeder fine (by simp [offering])) nobody
  | stopOffering offering done =>
    apply sound.feeder (by simp [offering])
    intro fine _
    have gone := sound.feeder_gone_of_over fine (Phase.isOver_of_isDone done)
    simp [offering] at gone
  | stopReading reading _ done =>
    apply sound.feeder (by simp [reading])
    intro fine _
    have gone := sound.feeder_gone_of_over fine (Phase.isOver_of_isDone done)
    simp [reading] at gone
  | take idle jobs =>
    apply sound.worker idle (by simp)
    · simp [jobs]
    · simp
  | noJobs idle jobs feeder =>
    apply sound.worker idle (by simp)
    · exact id
    · intro _ _
      exact ⟨feeder, jobs⟩
  | translate busy =>
    apply sound.worker busy (by simp)
    · exact id
    · simp
  | give offering room receives =>
    apply sound.worker offering (by simp)
    · exact id
    · simp
  -- In what is left a worker leaves before its work is done, which it does only after a failure.
  | giveNobody offering deaf =>
    exact sound.worker_over offering (by simp) (Phase.isOver_of_not_receives deaf)
  | stopIdling idle done =>
    exact sound.worker_over idle (by simp) (Phase.isOver_of_isDone done)
  | stopGiving offering done =>
    exact sound.worker_over offering (by simp) (Phase.isOver_of_isDone done)

theorem sends (sound : Sound crew s) (sends : Sends s t) : Sound crew t := by
  cases sends with
  | push item sending =>
    refine ⟨sound.staffed, sound.fromChannel, sound.failed, sound.ended, sound.left, ?_,
      sound.joined⟩
    intro fine gone
    have closed := (sound.drained fine gone).2
    simp [sending] at closed
  | close sending =>
    refine ⟨sound.staffed, ?_, sound.failed, sound.ended, sound.left, ?_, sound.joined⟩
    · simp
    · intro fine gone
      exact ⟨(sound.drained fine gone).1, rfl⟩

/-- After a failure the collector stays as it is. -/
theorem collector_eq (sound : Sound crew s) (failed : s.collector.failure ≠ none)
    (step : crew.Step s t) : t.collector = s.collector := by
  have past := sound.failed failed
  cases step with
  | collect holding _ => simp [holding, Phase.isOver] at past
  | _ => rfl

end Sound
end DocRefs.Crew
