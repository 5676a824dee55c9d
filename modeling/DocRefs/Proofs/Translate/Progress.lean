import DocRefs.Proofs.Translate.Accounts
import Mathlib.Algebra.Ring.Nat

/-!
# No schedule gets stuck

## Main results

* `Crew.Step.effort_lt`: every step of the call's own threads leaves less to do, so none of their
  schedules goes on forever.
* `Crew.never_stuck`: until the call has returned some thread can go on, unless all of them wait for
  an item that somebody else may still send. After a failure nobody waits for that.
-/
namespace DocRefs.Crew

variable {ι ω ε σ : Type} {crew : Crew ι ω ε σ} {s t : State ι ω ε σ}

/-! ### What is left to do -/

def Feeder.effort : Feeder ι → Nat
  | .reading _ => 1
  | .offering _ => 7
  | .gone => 0

def Worker.effort : Worker ι ω ε → Nat
  | .idle => 1
  | .busy _ => 5
  | .offering _ => 4
  | .gone => 0

def Phase.effort : Phase ω ε → Nat
  | .starting left => 2 * left + 10
  | .started => 9
  | .waiting => 7
  | .holding _ => 8
  | .ended => 6
  | .cancelled => 3
  | .joining => 2
  | .returned => 0

/-- An upper bound of the steps that the call's own threads can still take. The weights pay for what
an item costs on its way: to be read, fed, taken, translated, given, received and collected. -/
def State.effort (s : State ι ω ε σ) : Nat :=
  7 * s.input.length + s.feeder.effort + 5 * s.jobs.length + (s.workers.map Worker.effort).sum +
    2 * s.reports.length + s.phase.effort

theorem sum_effort (front back : List (Worker ι ω ε)) (worker : Worker ι ω ε) :
    ((front ++ worker :: back).map Worker.effort).sum =
      worker.effort + ((front ++ back).map Worker.effort).sum := by
  simp only [List.map_append, List.map_cons, List.sum_append, List.sum_cons]
  omega

theorem Step.effort_lt (step : crew.Step s t) : t.effort < s.effort := by
  cases step with
  | hire starting =>
    simp only [State.effort, starting, Phase.effort, List.map_cons, List.sum_cons, Worker.effort]
    omega
  | keepNoJobs starting =>
    simp only [State.effort, starting, Phase.effort]
    omega
  | sendNoReports started =>
    simp only [State.effort, started, Phase.effort]
    omega
  | receive waiting reports =>
    simp only [State.effort, waiting, reports, Phase.effort, List.length_cons]
    omega
  | collect holding collected =>
    simp only [State.effort, holding]
    split <;> simp only [Phase.effort] <;> omega
  | finish waiting reports deserted =>
    simp only [State.effort, waiting, Phase.effort]
    omega
  | cancel ended =>
    simp only [State.effort, ended, Phase.effort]
    omega
  | dropReports cancelled =>
    simp only [State.effort, cancelled, Phase.effort, List.length_nil]
    omega
  | join joining feeder deserted =>
    simp only [State.effort, joining, Phase.effort]
    omega
  | read reading input =>
    simp only [State.effort, reading, input, Feeder.effort, List.length_cons]
    omega
  | exhaust reading input closed =>
    simp only [State.effort, reading, Feeder.effort]
    omega
  | feed offering room takers =>
    simp only [State.effort, offering, Feeder.effort, List.length_append, List.length_singleton]
    omega
  | feedNobody offering nobody =>
    simp only [State.effort, offering, Feeder.effort]
    omega
  | stopOffering offering done =>
    simp only [State.effort, offering, Feeder.effort]
    omega
  | stopReading reading fromChannel done =>
    simp only [State.effort, reading, Feeder.effort]
    omega
  | take idle jobs =>
    simp only [State.effort, idle, jobs, sum_effort, Worker.effort, List.length_cons]
    omega
  | noJobs idle jobs feeder =>
    simp only [State.effort, idle, sum_effort, Worker.effort]
    omega
  | translate busy =>
    simp only [State.effort, busy, sum_effort, Worker.effort]
    omega
  | give offering room receives =>
    simp only [State.effort, offering, sum_effort, Worker.effort, List.length_append,
      List.length_singleton]
    omega
  | giveNobody offering deaf =>
    simp only [State.effort, offering, sum_effort, Worker.effort]
    omega
  | stopIdling idle done =>
    simp only [State.effort, idle, sum_effort, Worker.effort]
    omega
  | stopGiving offering done =>
    simp only [State.effort, offering, sum_effort, Worker.effort]
    omega

/-- No schedule of the call's own threads goes on forever. -/
theorem step_wellFounded (crew : Crew ι ω ε σ) :
    WellFounded fun after before => crew.Step before after :=
  Subrelation.wf Step.effort_lt (measure State.effort).wf

theorem Step.isOpen_eq (step : crew.Step s t) : t.isOpen = s.isOpen := by
  cases step <;> rfl

/-! ### Who can go on -/

/-- Every thread waits for an item that others may still send. -/
structure State.Starved (s : State ι ω ε σ) : Prop where
  waiting : s.phase = .waiting
  reports : s.reports = []
  quiet : ∀ worker ∈ s.workers, worker = .idle ∨ worker = .gone
  reading : ∃ next, s.feeder = .reading next
  input : s.input = []
  isOpen : s.isOpen = true

theorem exists_worker (crowded : ¬ s.Deserted) :
    ∃ worker, worker ≠ .gone ∧ ∃ front back, s.workers = front ++ worker :: back := by
  simp only [State.Deserted, not_forall] at crowded
  obtain ⟨worker, member, there⟩ := crowded
  exact ⟨worker, there, List.append_of_mem member⟩

theorem enabled_of_waiting (waiting : s.phase = .waiting) :
    (∃ t, crew.Step s t) ∨ s.Starved := by
  cases reports : s.reports with
  | cons report rest => exact .inl ⟨_, .receive waiting reports⟩
  | nil =>
    -- The queue of reports has room, so a worker with something in hand can go on.
    by_cases deserted : s.Deserted
    · exact .inl ⟨_, .finish waiting reports deserted⟩
    by_cases quiet : ∀ worker ∈ s.workers, worker = .idle ∨ worker = .gone
    · -- Only a worker that is idle can be there, and whether it can go on depends on the feeder.
      obtain ⟨worker, there, front, back, held⟩ := exists_worker deserted
      obtain rfl : worker = .idle := (quiet worker (by simp [held])).resolve_right there
      cases jobs : s.jobs with
      | cons job rest => exact .inl ⟨_, .take held jobs⟩
      | nil =>
        cases feeder : s.feeder with
        | gone => exact .inl ⟨_, .noJobs held jobs feeder⟩
        | offering job =>
          have room : s.jobs.length < crew.size := by
            rw [jobs]
            exact crew.size_pos
          exact .inl ⟨_, .feed feeder room (.inr deserted)⟩
        | reading next =>
          cases input : s.input with
          | cons item rest => exact .inl ⟨_, .read feeder input⟩
          | nil =>
            cases closed : s.isOpen with
            | false => exact .inl ⟨_, .exhaust feeder input closed⟩
            | true => exact .inr ⟨waiting, reports, quiet, ⟨next, feeder⟩, input, closed⟩
    · simp only [not_forall, not_or] at quiet
      obtain ⟨worker, member, awake, there⟩ := quiet
      obtain ⟨front, back, held⟩ := List.append_of_mem member
      cases worker with
      | idle => exact absurd rfl awake
      | gone => exact absurd rfl there
      | busy job => exact .inl ⟨_, .translate held⟩
      | offering report =>
        have room : s.reports.length < crew.size := by
          rw [reports]
          exact crew.size_pos
        exact .inl ⟨_, .give held room (by simp [waiting, Phase.receives])⟩

-- Whatever the queues hold, everybody who waits is woken by the channel that was let go.
theorem enabled_of_joining (sound : Sound crew s) (joining : s.phase = .joining) :
    ∃ t, crew.Step s t := by
  have done : s.phase.isDone = true := by simp [joining, Phase.isDone]
  cases feeder : s.feeder with
  | offering job => exact ⟨_, .stopOffering feeder done⟩
  | reading next =>
    cases input : s.input with
    | cons item rest => exact ⟨_, .read feeder input⟩
    | nil =>
      cases closed : s.isOpen with
      | false => exact ⟨_, .exhaust feeder input closed⟩
      | true => exact ⟨_, .stopReading feeder (sound.fromChannel closed) done⟩
  | gone =>
    by_cases deserted : s.Deserted
    · exact ⟨_, .join joining feeder deserted⟩
    obtain ⟨worker, there, front, back, held⟩ := exists_worker deserted
    cases worker with
    | idle => exact ⟨_, .stopIdling held done⟩
    | busy job => exact ⟨_, .translate held⟩
    | offering report => exact ⟨_, .stopGiving held done⟩
    | gone => exact absurd rfl there

theorem enabled (sound : Sound crew s) (unfinished : s.phase ≠ .returned) :
    (∃ t, crew.Step s t) ∨ s.Starved := by
  cases phase : s.phase with
  | starting left =>
    cases left with
    | zero => exact .inl ⟨_, .keepNoJobs phase⟩
    | succ left => exact .inl ⟨_, .hire phase⟩
  | started => exact .inl ⟨_, .sendNoReports phase⟩
  | waiting => exact enabled_of_waiting phase
  | holding report => exact .inl ⟨_, .collect phase rfl⟩
  | ended => exact .inl ⟨_, .cancel phase⟩
  | cancelled => exact .inl ⟨_, .dropReports phase⟩
  | joining => exact .inl (enabled_of_joining sound phase)
  | returned => exact absurd phase unfinished

/-- Where nobody can go on, every report was collected. -/
theorem good_of_starved {sunk : σ} {items : List ι} (sound : Sound crew s)
    (accounts : Accounts crew sunk items s) (starved : s.Starved) :
    s.collector.failure = none ∧
      ∀ job ∈ s.translated, ∃ yielded, crew.translate job.2 = .ok yielded := by
  have fine : s.collector.failure = none :=
    sound.fine_of_not_over (by simp [starved.waiting, Phase.isOver])
  refine ⟨fine, ?_⟩
  obtain ⟨read, _, ⟨arrived, whole⟩ | ⟨e, _, failure, _⟩⟩ := accounts
  case inr =>
    rw [fine] at failure
    cases failure
  -- What was translated is on its way or has arrived, and nothing is on its way.
  have none_left : s.uncollected = [] := by
    have idle : s.workers.flatMap Worker.reports = [] := by
      rw [List.flatMap_eq_nil_iff]
      intro worker member
      obtain rfl | rfl := starved.quiet worker member <;> rfl
    simp [State.uncollected, idle, starved.reports, starved.waiting, Phase.reports]
  intro job member
  have there : job.1 ∈ arrived := by
    have collected := whole.translated
    rw [none_left] at collected
    exact collected.mem_iff.mp (List.mem_map_of_mem member)
  obtain ⟨item, yielded, here, outcome⟩ := whole.follows.good job.1 there
  rw [whole.right job member] at here
  cases here
  exact ⟨yielded, outcome⟩

/-- The call can return once there is a failure, or nothing more can be sent. -/
theorem exists_returned (sound : Sound crew s)
    (bound : s.collector.failure ≠ none ∨ s.isOpen = false) :
    ∃ last, crew.Runs s last ∧ last.phase = .returned ∧ last.feeder = .gone ∧ last.Deserted := by
  -- Every step keeps the bound, and under it nobody waits for items forever.
  induction s using (step_wellFounded crew).induction with
  | _ s ih =>
    by_cases returned : s.phase = .returned
    · exact ⟨s, .refl, returned, sound.joined returned⟩
    obtain ⟨t, step⟩ | starved := enabled sound returned
    · have bound : t.collector.failure ≠ none ∨ t.isOpen = false := by
        obtain failed | closed := bound
        · rw [sound.collector_eq failed step]
          exact .inl failed
        · rw [step.isOpen_eq]
          exact .inr closed
      obtain ⟨last, runs, ends⟩ := ih t step (sound.step step) bound
      exact ⟨last, .head step runs, ends⟩
    · have fine : s.collector.failure = none :=
        sound.fine_of_not_over (by simp [starved.waiting, Phase.isOver])
      simp [fine, starved.isOpen] at bound

/-! ### Reachable states -/

theorem sound_of_reaches {items : List ι} {isOpen : Bool} {sunk : σ}
    (reaches : crew.Reaches (crew.start items isOpen sunk) s) :
    Sound crew s ∧ ∃ more, Accounts crew sunk (items ++ more) s := by
  induction reaches with
  | refl => exact ⟨.start _ _ _ _, [], by simpa using Accounts.start crew items isOpen sunk⟩
  | tail _ last ih =>
    obtain ⟨sound, more, accounts⟩ := ih
    obtain step | sends := last
    · exact ⟨sound.step step, more, accounts.step sound step⟩
    · obtain ⟨others, accounts⟩ := accounts.sends sends
      exact ⟨sound.sends sends, more ++ others, by rwa [← List.append_assoc]⟩

/-- In every state that a call can get into some thread can go on until the call has returned,
unless nothing went wrong and the feeder waits for an item from a channel that is empty and still
open. Once the collector has met a failure, all threads can leave and the call can return, whatever
the queues hold and whether or not the channel is ever closed. -/
theorem never_stuck (crew : Crew ι ω ε σ) (items : List ι) (isOpen : Bool) (sunk : σ)
    {s : State ι ω ε σ} (reaches : crew.Reaches (crew.start items isOpen sunk) s) :
    (s.phase ≠ .returned →
      (∃ t, crew.Step s t) ∨
        s.collector.failure = none ∧
          (∀ job ∈ s.translated, ∃ yielded, crew.translate job.2 = .ok yielded) ∧
          (∃ next, s.feeder = .reading next) ∧ s.isOpen = true ∧ s.input = []) ∧
    (s.collector.failure ≠ none →
      ∃ last, crew.Runs s last ∧ last.phase = .returned ∧ last.feeder = .gone ∧
        last.Deserted) := by
  obtain ⟨sound, more, accounts⟩ := sound_of_reaches reaches
  constructor
  · intro unfinished
    obtain step | starved := enabled sound unfinished
    · exact .inl step
    · obtain ⟨fine, good⟩ := good_of_starved sound accounts starved
      exact .inr ⟨fine, good, starved.reading, starved.isOpen, starved.input⟩
  · intro failed
    exact exists_returned sound (.inl failed)

/-- Refuses zero and keeps the other numbers as they come. -/
def picky (workers : Nat) : Crew Nat Nat String (List Nat) where
  translate n := if n = 0 then .error "zero" else .ok (.value n)
  sink n kept := .ok (kept ++ [n])
  workers
  fromChannel := true

-- One worker. The failure is collected while the feeder and the worker have filled both queues.
theorem never_stuck_full : ∃ s, (picky 1).Reaches ((picky 1).start [0, 1, 2, 3] true []) s ∧
    s.jobs.length = (picky 1).size ∧ s.reports.length = (picky 1).size ∧
    s.feeder = .offering (3, 3) ∧ s.isOpen = true ∧ s.phase ≠ .returned ∧
    s.collector.failure = some "zero" ∧ (∃ t, (picky 1).Step s t) ∧
    ∃ last, (picky 1).Runs s last ∧ last.phase = .returned ∧ last.feeder = .gone ∧
      last.Deserted := by
  have reaches : (picky 1).Reaches ((picky 1).start [0, 1, 2, 3] true [])
      { input := []
        isOpen := true
        feeder := .offering (3, 3)
        jobs := [(2, 2)]
        workers := [.idle]
        reports := [(1, .ok (.value 1))]
        phase := .ended
        collector := { sunk := [], failure := some "zero" }
        translated := [(0, 0), (1, 1)] } :=
    .head (.inl (.hire rfl)) <| .head (.inl (.keepNoJobs rfl)) <|
    .head (.inl (.sendNoReports rfl)) <|
    .head (.inl (.read rfl rfl)) <|
    .head (.inl (.feed rfl (by decide) (.inr (by simp [State.Deserted])))) <|
    .head (.inl (@Step.take _ _ _ _ _ _ [] [] _ _ rfl rfl)) <|
    .head (.inl (@Step.translate _ _ _ _ _ _ [] [] _ rfl)) <|
    .head (.inl (@Step.give _ _ _ _ _ _ [] [] _ rfl (by decide) rfl)) <|
    .head (.inl (.read rfl rfl)) <|
    .head (.inl (.feed rfl (by decide) (.inr (by simp [State.Deserted])))) <|
    .head (.inl (@Step.take _ _ _ _ _ _ [] [] _ _ rfl rfl)) <|
    .head (.inl (@Step.translate _ _ _ _ _ _ [] [] _ rfl)) <|
    .head (.inl (.receive rfl rfl)) <|
    .head (.inl (@Step.give _ _ _ _ _ _ [] [] _ rfl (by decide) rfl)) <|
    .head (.inl (.read rfl rfl)) <|
    .head (.inl (.feed rfl (by decide) (.inr (by simp [State.Deserted])))) <|
    .head (.inl (.read rfl rfl)) <|
    .head (.inl (.collect rfl rfl)) .refl
  have failed : (some "zero" : Option String) ≠ none := by simp
  obtain ⟨goes, ends⟩ := never_stuck (picky 1) [0, 1, 2, 3] true [] reaches
  refine ⟨_, reaches, rfl, rfl, rfl, rfl, by simp, rfl, ?_, ends failed⟩
  exact (goes (by simp)).resolve_right fun starved => failed starved.1

end DocRefs.Crew
