import DocRefs.Proofs.Translate.Delivery
import DocRefs.Proofs.Translate.Schedule
import Mathlib.Data.List.Perm.Basic

/-!
# No number gets lost

Main result: `Crew.Accounts.step`. Until there is a failure every number that the feeder has given
is on its way to the collector or has arrived there, once, and the collector is in step with the
items that were read. After a failure what it has delivered is a beginning of them.
-/
namespace DocRefs.Crew

open scoped List

variable {ι ω ε σ : Type} {crew : Crew ι ω ε σ} {s t : State ι ω ε σ}

/-! ### Where the numbers are -/

def Feeder.jobs : Feeder ι → List (Job ι)
  | .offering job => [job]
  | _ => []

/-- The number of the item that the feeder gets next. -/
def Feeder.due : Feeder ι → Option Nat
  | .reading next => some next
  | .offering job => some (job.1 + 1)
  | .gone => none

def Worker.jobs : Worker ι ω ε → List (Job ι)
  | .busy job => [job]
  | _ => []

def Worker.reports : Worker ι ω ε → List (Report ω ε)
  | .offering report => [report]
  | _ => []

def Phase.reports : Phase ω ε → List (Report ω ε)
  | .holding report => [report]
  | _ => []

namespace State

/-- The jobs that are on their way to be translated. -/
def untranslated (s : State ι ω ε σ) : List (Job ι) :=
  s.feeder.jobs ++ s.jobs ++ s.workers.flatMap Worker.jobs

/-- The reports that are on their way to the collector. -/
def uncollected (s : State ι ω ε σ) : List (Report ω ε) :=
  s.workers.flatMap Worker.reports ++ s.reports ++ s.phase.reports

end State

namespace State

theorem flatMap_perm {α : Type} {front back : List (Worker ι ω ε)} {worker : Worker ι ω ε}
    (held : s.workers = front ++ worker :: back) (f : Worker ι ω ε → List α) :
    s.workers.flatMap f ~ f worker ++ (front ++ back).flatMap f := by
  rw [held]
  exact List.perm_middle.flatMap_right f

theorem untranslated_perm (s : State ι ω ε σ) {front back : List (Worker ι ω ε)}
    {worker : Worker ι ω ε} (held : s.workers = front ++ worker :: back) :
    s.untranslated ~ worker.jobs ++ s.jobs ++
      (s.feeder.jobs ++ (front ++ back).flatMap Worker.jobs) := by
  calc s.untranslated
    _ ~ s.feeder.jobs ++ s.jobs ++ (worker.jobs ++ (front ++ back).flatMap Worker.jobs) :=
      (flatMap_perm held Worker.jobs).append_left _
    _ ~ worker.jobs ++ (s.feeder.jobs ++ s.jobs ++ (front ++ back).flatMap Worker.jobs) :=
      List.perm_append_comm_assoc _ _ _
    _ ~ worker.jobs ++ s.jobs ++ (s.feeder.jobs ++ (front ++ back).flatMap Worker.jobs) := by
      simp only [List.append_assoc]
      exact (List.perm_append_comm_assoc _ _ _).append_left _

theorem uncollected_perm (s : State ι ω ε σ) {front back : List (Worker ι ω ε)}
    {worker : Worker ι ω ε} (held : s.workers = front ++ worker :: back) :
    s.uncollected ~ worker.reports ++ s.reports ++
      (s.phase.reports ++ (front ++ back).flatMap Worker.reports) := by
  calc s.uncollected
    _ ~ worker.reports ++ (front ++ back).flatMap Worker.reports ++
        (s.reports ++ s.phase.reports) := by
      rw [uncollected, List.append_assoc]
      exact (flatMap_perm held Worker.reports).append_right _
    _ ~ worker.reports ++ (s.reports ++ s.phase.reports ++
        (front ++ back).flatMap Worker.reports) := by
      rw [List.append_assoc]
      exact List.perm_append_comm.append_left _
    _ = worker.reports ++ s.reports ++
        (s.phase.reports ++ (front ++ back).flatMap Worker.reports) := by
      simp only [List.append_assoc]

end State

/-- Every item that was read is on its way, or has arrived at the collector, and the collector is in
step with these items. -/
structure Whole (crew : Crew ι ω ε σ) (sunk : σ) (read : List ι) (arrived : List Nat)
    (s : State ι ω ε σ) : Prop where
  follows : s.collector.Follows crew.translate crew.sink read sunk arrived
  waits : s.collector.next ∉ arrived
  due : ∀ next, s.feeder.due = some next → next = read.length
  jobs : ∀ job ∈ s.untranslated, read[job.1]? = some job.2
  reports : ∀ report ∈ s.uncollected, ∃ item,
    read[report.1]? = some item ∧ crew.translate item = report.2
  numbers : s.untranslated.map (·.1) ++ (s.uncollected.map (·.1) ++ arrived) ~
    List.range read.length
  right : ∀ job ∈ s.translated, read[job.1]? = some job.2
  translated : s.translated.map (·.1) ~ s.uncollected.map (·.1) ++ arrived

/-- Jobs and reports only change hands. -/
structure Moves (s t : State ι ω ε σ) : Prop where
  collector : t.collector = s.collector
  translated : t.translated = s.translated
  due : ∀ next, t.feeder.due = some next → s.feeder.due = some next
  untranslated : t.untranslated ~ s.untranslated
  uncollected : t.uncollected ~ s.uncollected

namespace Moves

theorem caller {phase : Phase ω ε} {reports : List (Report ω ε)}
    (same : reports ++ phase.reports ~ s.reports ++ s.phase.reports) :
    Moves s { s with phase, reports } where
  collector := rfl
  translated := rfl
  due := fun _ => id
  untranslated := .refl _
  uncollected := by
    simp only [State.uncollected, List.append_assoc]
    exact same.append_left _

theorem feeder {feeder : Feeder ι} {jobs : List (Job ι)}
    (due : ∀ next, feeder.due = some next → s.feeder.due = some next)
    (same : feeder.jobs ++ jobs ~ s.feeder.jobs ++ s.jobs) : Moves s { s with feeder, jobs } where
  collector := rfl
  translated := rfl
  due := due
  untranslated := same.append_right _
  uncollected := .refl _

theorem worker {front back : List (Worker ι ω ε)} {before after : Worker ι ω ε}
    (held : s.workers = front ++ before :: back) {jobs : List (Job ι)}
    {reports : List (Report ω ε)} (sameJobs : after.jobs ++ jobs ~ before.jobs ++ s.jobs)
    (sameReports : after.reports ++ reports ~ before.reports ++ s.reports) :
    Moves s { s with workers := front ++ after :: back, jobs, reports } where
  collector := rfl
  translated := rfl
  due := fun _ => id
  untranslated := by
    refine .trans (State.untranslated_perm _ rfl) (.trans ?_ (s.untranslated_perm held).symm)
    exact sameJobs.append_right _
  uncollected := by
    refine .trans (State.uncollected_perm _ rfl) (.trans ?_ (s.uncollected_perm held).symm)
    exact sameReports.append_right _

end Moves

namespace Whole

variable {sunk : σ} {read : List ι} {arrived : List Nat}

theorem start (crew : Crew ι ω ε σ) (items : List ι) (isOpen : Bool) (sunk : σ) :
    Whole crew sunk [] [] (crew.start items isOpen sunk) where
  follows := Collector.follows_start
  waits := by simp
  due := by simp [Crew.start, Feeder.due]
  jobs := by simp [Crew.start, State.untranslated, Feeder.jobs]
  reports := by simp [Crew.start, State.uncollected, Phase.reports]
  numbers := by simp [Crew.start, State.untranslated, State.uncollected, Feeder.jobs, Phase.reports]
  right := by simp [Crew.start]
  translated := by simp [Crew.start, State.uncollected, Phase.reports]

theorem moves (whole : Whole crew sunk read arrived s) (moves : Moves s t) :
    Whole crew sunk read arrived t where
  follows := by rw [moves.collector]; exact whole.follows
  waits := by rw [moves.collector]; exact whole.waits
  due := fun next due => whole.due next (moves.due next due)
  jobs := fun job member => whole.jobs job (moves.untranslated.mem_iff.mp member)
  reports := fun report member => whole.reports report (moves.uncollected.mem_iff.mp member)
  numbers := by
    have untranslated := moves.untranslated.map (·.1)
    have uncollected := moves.uncollected.map (·.1)
    exact (untranslated.append (uncollected.append_right arrived)).trans whole.numbers
  right := by rw [moves.translated]; exact whole.right
  translated := by
    rw [moves.translated]
    have uncollected := (moves.uncollected.map (·.1)).symm
    exact whole.translated.trans (uncollected.append_right arrived)

/-- The feeder gets an item and numbers it. -/
theorem reads (whole : Whole crew sunk read arrived s) {next : Nat} {item : ι}
    (reading : s.feeder = .reading next) (rest : List ι) :
    Whole crew sunk (read ++ [item]) arrived
      { s with feeder := .offering (next, item), input := rest } := by
  have number : next = read.length := whole.due next (by simp [reading, Feeder.due])
  subst number
  have later : ∀ {k : Nat} {other : ι}, read[k]? = some other →
      (read ++ [item])[k]? = some other := by
    intro k other here
    obtain ⟨bound, _⟩ := List.getElem?_eq_some_iff.mp here
    rw [List.getElem?_append_left bound, here]
  constructor
  case follows => exact whole.follows.append [item]
  case waits => exact whole.waits
  case due => simp [Feeder.due]
  case jobs =>
    intro job member
    simp only [State.untranslated, Feeder.jobs, List.cons_append, List.nil_append,
      List.mem_cons] at member
    obtain rfl | member := member
    · simp
    · apply later
      apply whole.jobs
      simpa [State.untranslated, reading, Feeder.jobs] using member
  case reports =>
    intro report member
    obtain ⟨other, here, outcome⟩ := whole.reports report member
    exact ⟨other, later here, outcome⟩
  case numbers =>
    have numbers := whole.numbers
    -- The new number is the greatest, and its job is with the feeder.
    simp only [State.untranslated, reading, Feeder.jobs] at numbers ⊢
    rw [List.length_append, List.length_singleton, List.range_succ]
    exact (numbers.cons read.length).trans (List.perm_append_singleton _ _).symm
  case right =>
    intro job member
    exact later (whole.right job member)
  case translated => exact whole.translated

/-- A worker translates a job's item. -/
theorem translates (whole : Whole crew sunk read arrived s) {front back : List (Worker ι ω ε)}
    {job : Job ι} (busy : s.workers = front ++ .busy job :: back)
    (after : t = { s with
      workers := front ++ .offering (crew.report job) :: back
      translated := s.translated ++ [job] }) : Whole crew sunk read arrived t := by
  have workers : t.workers = front ++ .offering (crew.report job) :: back := by rw [after]
  -- The job leaves what is untranslated, and its report joins what is uncollected.
  have before : s.untranslated ~ job :: t.untranslated := by
    refine .trans (s.untranslated_perm busy) (.trans ?_ ((t.untranslated_perm workers).symm.cons _))
    subst after
    exact .refl _
  have reported : t.uncollected ~ crew.report job :: s.uncollected := by
    refine .trans (t.uncollected_perm workers) (.trans ?_ ((s.uncollected_perm busy).symm.cons _))
    subst after
    exact .refl _
  have here : read[job.1]? = some job.2 :=
    whole.jobs job (before.mem_iff.mpr (by simp))
  have collector : t.collector = s.collector := by rw [after]
  constructor
  case follows => exact collector ▸ whole.follows
  case waits => exact collector ▸ whole.waits
  case due => subst after; exact whole.due
  case jobs =>
    intro other there
    exact whole.jobs other (before.mem_iff.mpr (List.mem_cons_of_mem _ there))
  case reports =>
    intro report there
    obtain rfl | there := List.mem_cons.mp (reported.mem_iff.mp there)
    · exact ⟨job.2, here, rfl⟩
    · exact whole.reports report there
  case numbers =>
    refine .trans ?_ whole.numbers
    calc t.untranslated.map (·.1) ++ (t.uncollected.map (·.1) ++ arrived)
      _ ~ t.untranslated.map (·.1) ++ (job.1 :: (s.uncollected.map (·.1) ++ arrived)) :=
        ((reported.map (·.1)).append_right arrived).append_left _
      _ ~ job.1 :: (t.untranslated.map (·.1) ++ (s.uncollected.map (·.1) ++ arrived)) :=
        List.perm_middle
      _ ~ s.untranslated.map (·.1) ++ (s.uncollected.map (·.1) ++ arrived) :=
        (before.map (·.1)).symm.append_right _
  case right =>
    subst after
    intro other there
    obtain there | there := List.mem_append.mp there
    · exact whole.right other there
    · rw [List.mem_singleton.mp there]
      exact here
  case translated =>
    have log : t.translated = s.translated ++ [job] := by rw [after]
    calc t.translated.map (·.1)
      _ = s.translated.map (·.1) ++ [job.1] := by simp [log]
      _ ~ job.1 :: s.translated.map (·.1) := List.perm_append_singleton _ _
      _ ~ job.1 :: (s.uncollected.map (·.1) ++ arrived) := whole.translated.cons _
      _ ~ t.uncollected.map (·.1) ++ arrived :=
        ((reported.map Prod.fst).append_right arrived).symm

/-- The caller collects a report, which may be the end of it. -/
theorem collects (whole : Whole crew sunk read arrived s) {report : Report ω ε}
    (holding : s.phase = .holding report) {phase : Phase ω ε} (without : phase.reports = []) :
    Whole crew sunk read (report.1 :: arrived)
        { s with collector := s.collector.receive crew.sink report.1 report.2, phase } ∨
      (s.collector.receive crew.sink report.1 report.2).Stopped crew.translate crew.sink read
        sunk := by
  have before : s.uncollected ~ report :: State.uncollected { s with phase } := by
    simp only [State.uncollected, holding, without, List.append_nil]
    exact List.perm_append_singleton _ _
  obtain ⟨item, here, outcome⟩ := whole.reports report (before.mem_iff.mpr (by simp))
  -- No number is twice on its way, so this one has not arrived before.
  have fresh : report.1 ∉ arrived := by
    have distinct := whole.numbers.nodup_iff.mpr List.nodup_range
    obtain ⟨_, _, apart⟩ := List.nodup_append.mp (List.nodup_append.mp distinct).2.1
    intro there
    exact apart report.1 (List.mem_map_of_mem (before.mem_iff.mpr (by simp))) report.1 there rfl
  rw [← outcome]
  obtain ⟨follows, waits⟩ | stopped := whole.follows.receive here fresh
  case inr => exact .inr stopped
  refine .inl ⟨follows, waits, whole.due, whole.jobs, ?_, ?_, whole.right, ?_⟩
  · intro other there
    exact whole.reports other (before.mem_iff.mpr (List.mem_cons_of_mem _ there))
  · refine .trans (List.Perm.append_left _ ?_) whole.numbers
    exact List.perm_middle.trans ((before.map Prod.fst).append_right arrived).symm
  · refine .trans whole.translated ?_
    exact ((before.map Prod.fst).append_right arrived).trans List.perm_middle.symm

end Whole

/-- The items that were read are a beginning of those that came, and the collector is in step with
them or has stopped on the way. -/
def Accounts (crew : Crew ι ω ε σ) (sunk : σ) (items : List ι) (s : State ι ω ε σ) : Prop :=
  ∃ read, read ++ s.input = items ∧
    ((∃ arrived, Whole crew sunk read arrived s) ∨
      s.collector.Stopped crew.translate crew.sink read sunk)

namespace Accounts

variable {sunk : σ} {items : List ι}

theorem start (crew : Crew ι ω ε σ) (items : List ι) (isOpen : Bool) (sunk : σ) :
    Accounts crew sunk items (crew.start items isOpen sunk) :=
  ⟨[], rfl, .inl ⟨[], .start crew items isOpen sunk⟩⟩

theorem step (accounts : Accounts crew sunk items s) (sound : Sound crew s)
    (step : crew.Step s t) : Accounts crew sunk items t := by
  obtain ⟨read, split, ⟨arrived, whole⟩ | stopped⟩ := accounts
  case inr =>
    -- Nothing is collected any more; the feeder may still read.
    have failed : s.collector.failure ≠ none := by
      obtain ⟨e, _, failure, _⟩ := stopped
      simp [failure]
    rw [← sound.collector_eq failed step] at stopped
    cases step with
    | @read next item rest reading input =>
      refine ⟨read ++ [item], ?_, .inr (stopped.append [item])⟩
      simp [← split, input]
    | _ => exact ⟨read, split, .inr stopped⟩
  have fine : s.collector.failure = none := whole.follows.fine
  have moved : t.input = s.input → Moves s t → Accounts crew sunk items t :=
    fun same moves => ⟨read, same ▸ split, .inl ⟨arrived, whole.moves moves⟩⟩
  cases step with
  | read reading input =>
    refine ⟨read ++ [_], ?_, .inl ⟨arrived, whole.reads reading _⟩⟩
    simp [← split, input]
  | translate busy => exact ⟨read, split, .inl ⟨arrived, whole.translates busy rfl⟩⟩
  | @collect report collector holding collected =>
    subst collected
    refine ⟨read, split, ?_⟩
    apply (whole.collects holding ?_).imp (fun whole => ⟨_, whole⟩) id
    split <;> rfl
  -- What is left are moves, or would be steps of a thread that left before.
  | hire starting =>
    refine moved rfl ⟨rfl, rfl, fun _ => id, .refl _, ?_⟩
    simp [State.uncollected, starting, Worker.reports, Phase.reports]
  | keepNoJobs starting => exact moved rfl (.caller (by simp [starting, Phase.reports]))
  | sendNoReports started => exact moved rfl (.caller (by simp [started, Phase.reports]))
  | receive waiting reports =>
    apply moved rfl (.caller _)
    simp [waiting, reports, Phase.reports]
  | finish waiting reports deserted =>
    exact moved rfl (.caller (by simp [waiting, Phase.reports]))
  | cancel ended => exact moved rfl (.caller (by simp [ended, Phase.reports]))
  | dropReports cancelled =>
    have past : s.phase.isOver = true := by simp [cancelled, Phase.isOver]
    exact moved rfl (.caller (by simp [cancelled, (sound.ended fine past).2, Phase.reports]))
  | join joining feeder deserted => exact moved rfl (.caller (by simp [joining, Phase.reports]))
  | exhaust reading input closed =>
    exact moved rfl (.feeder (by simp [Feeder.due]) (by simp [reading, Feeder.jobs]))
  | feed offering room takers =>
    apply moved rfl (.feeder _ _)
    · simp [offering, Feeder.due]
    · simp [offering, Feeder.jobs]
  | feedNobody offering nobody =>
    exact absurd (sound.takesJobs_of_feeder fine (by simp [offering])) nobody
  | stopOffering offering done =>
    have gone := sound.feeder_gone_of_over fine (Phase.isOver_of_isDone done)
    simp [offering] at gone
  | stopReading reading _ done =>
    exact moved rfl (.feeder (by simp [Feeder.due]) (by simp [reading, Feeder.jobs]))
  | take idle jobs =>
    exact moved rfl (.worker idle (by simp [jobs, Worker.jobs]) (by simp [Worker.reports]))
  | noJobs idle jobs feeder =>
    exact moved rfl (.worker idle (by simp [Worker.jobs]) (by simp [Worker.reports]))
  | give offering room receives =>
    apply moved rfl (.worker offering (by simp [Worker.jobs]) _)
    simp [Worker.reports]
  | giveNobody offering deaf =>
    have going := sound.not_over_of_worker fine offering (by simp)
    simp [Phase.isOver_of_not_receives deaf] at going
  | stopIdling idle done =>
    exact moved rfl (.worker idle (by simp [Worker.jobs]) (by simp [Worker.reports]))
  | stopGiving offering done =>
    have going := sound.not_over_of_worker fine offering (by simp)
    simp [Phase.isOver_of_isDone done] at going

theorem sends (accounts : Accounts crew sunk items s) (sends : Sends s t) :
    ∃ more, Accounts crew sunk (items ++ more) t := by
  obtain ⟨read, split, tally⟩ := accounts
  cases sends with
  | push item _ =>
    refine ⟨[item], read, by simp [← split], ?_⟩
    obtain ⟨arrived, whole⟩ | stopped := tally
    · exact .inl ⟨arrived, whole.moves ⟨rfl, rfl, fun _ => id, .refl _, .refl _⟩⟩
    · exact .inr stopped
  | close _ =>
    refine ⟨[], read, by simp [← split], ?_⟩
    obtain ⟨arrived, whole⟩ | stopped := tally
    · exact .inl ⟨arrived, whole.moves ⟨rfl, rfl, fun _ => id, .refl _, .refl _⟩⟩
    · exact .inr stopped

end Accounts

end DocRefs.Crew
