import DocRefs.Translate
import Mathlib.Logic.Relation

/-!
# Workers side by side

The threads of one call that translates items, as a relation from each state to the next ones.

A feeder numbers the items and puts them into a queue. Workers take them from there, translate them
and put what comes of them into a second queue, from which the caller takes it for the collector.
Both queues hold as many entries as there are workers. Nobody is told that the work is over: a
queue is closed as soon as everybody at its other end has let go of it, and for a failure there is
one more channel, which nothing is ever sent on and which the caller lets go of first.

A step is one action of one thread on one channel, one translation, or the collecting of one report
with the deliveries that this allows. Where a thread waits on two channels at once, either may be
served when both are ready.
-/
namespace DocRefs

/-- Threads that translate one input. An item is an element of a list with its index, an entry of a
map, or what came through a channel. -/
structure Crew (ι ω ε σ : Type) where
  translate : ι → Except ε (Yield ω)
  sink : Sink ω ε σ
  /-- The workers asked for. -/
  workers : Nat
  /-- Whether the items come through a channel that others send on. -/
  fromChannel : Bool

namespace Crew

variable {ι ω ε σ : Type}

/-- An item and its number. -/
abbrev Job (ι : Type) := Nat × ι

/-- What came of the item with that number. -/
abbrev Report (ω ε : Type) := Nat × Except ε (Yield ω)

/-- The workers that are started, and the entries that either queue holds at most. -/
def size (crew : Crew ι ω ε σ) : Nat := max 1 crew.workers

/-- The job's item translated. -/
def report (crew : Crew ι ω ε σ) (job : Job ι) : Report ω ε := (job.1, crew.translate job.2)

/-- The thread that numbers the items. -/
inductive Feeder (ι : Type) where
  /-- About to get the item with that number. -/
  | reading (next : Nat)
  | offering (job : Job ι)
  /-- Returned, with its end of every channel let go. -/
  | gone

inductive Worker (ι ω ε : Type) where
  | idle
  | busy (job : Job ι)
  | offering (report : Report ω ε)
  /-- Returned, with its end of every channel let go. -/
  | gone

/-- How far the calling thread is. -/
inductive Phase (ω ε : Type) where
  /-- So many workers are still to be started. -/
  | starting (left : Nat)
  /-- The workers run; the caller has let go of its end of the queue of jobs. -/
  | started
  /-- Waiting for a report, with no end left from which to send one. -/
  | waiting
  | holding (report : Report ω ε)
  /-- No report will be collected any more. -/
  | ended
  /-- The channel for cancelling is let go. -/
  | cancelled
  /-- The queue of reports is let go as well; what is left is to wait for the threads. -/
  | joining
  | returned

namespace Phase

/-- The caller could itself still take jobs. -/
def keepsJobs : Phase ω ε → Bool
  | starting _ => true
  | _ => false

/-- The caller has its end of the queue of reports. -/
def receives : Phase ω ε → Bool
  | joining | returned => false
  | _ => true

/-- Whoever waits on the channel for cancelling is woken. -/
def isDone : Phase ω ε → Bool
  | cancelled | joining | returned => true
  | _ => false

def isOver : Phase ω ε → Bool
  | ended | cancelled | joining | returned => true
  | _ => false

end Phase

/-- The threads and the channels between them. -/
structure State (ι ω ε σ : Type) where
  /-- The items not yet read. -/
  input : List ι
  /-- Others may still send items. -/
  isOpen : Bool
  feeder : Feeder ι
  jobs : List (Job ι)
  workers : List (Worker ι ω ε)
  reports : List (Report ω ε)
  phase : Phase ω ε
  collector : Collector ω ε σ
  /-- The jobs that were translated. -/
  translated : List (Job ι)

namespace State

/-- No worker is left. -/
def Deserted (s : State ι ω ε σ) : Prop := ∀ worker ∈ s.workers, worker = .gone

/-- Somebody has a receiving end of the queue of jobs. -/
def TakesJobs (s : State ι ω ε σ) : Prop := s.phase.keepsJobs = true ∨ ¬ s.Deserted

end State

/-- The feeder is there, no worker yet. -/
def start (crew : Crew ι ω ε σ) (items : List ι) (isOpen : Bool) (sunk : σ) : State ι ω ε σ :=
  { input := items
    isOpen := isOpen && crew.fromChannel
    feeder := .reading 0
    jobs := []
    workers := []
    reports := []
    phase := .starting crew.size
    collector := { sunk }
    translated := [] }

/-- What one of the call's own threads can do next. -/
inductive Step (crew : Crew ι ω ε σ) : State ι ω ε σ → State ι ω ε σ → Prop where
  /-- The caller starts another worker. -/
  | hire {s left} (starting : s.phase = .starting (left + 1)) :
      Step crew s { s with phase := .starting left, workers := .idle :: s.workers }
  | keepNoJobs {s} (starting : s.phase = .starting 0) : Step crew s { s with phase := .started }
  | sendNoReports {s} (started : s.phase = .started) : Step crew s { s with phase := .waiting }
  | receive {s report rest} (waiting : s.phase = .waiting) (reports : s.reports = report :: rest) :
      Step crew s { s with phase := .holding report, reports := rest }
  | collect {s report collector} (holding : s.phase = .holding report)
      (collected : s.collector.receive crew.sink report.1 report.2 = collector) :
      Step crew s { s with
        collector, phase := if collector.failure.isSome then .ended else .waiting }
  /-- Nobody is left who could send a report. -/
  | finish {s} (waiting : s.phase = .waiting) (reports : s.reports = [])
      (deserted : s.Deserted) : Step crew s { s with phase := .ended }
  | cancel {s} (ended : s.phase = .ended) : Step crew s { s with phase := .cancelled }
  | dropReports {s} (cancelled : s.phase = .cancelled) :
      Step crew s { s with phase := .joining, reports := [] }
  | join {s} (joining : s.phase = .joining) (feeder : s.feeder = .gone)
      (deserted : s.Deserted) : Step crew s { s with phase := .returned }
  | read {s next item rest} (reading : s.feeder = .reading next) (input : s.input = item :: rest) :
      Step crew s { s with feeder := .offering (next, item), input := rest }
  | exhaust {s next} (reading : s.feeder = .reading next) (input : s.input = [])
      (closed : s.isOpen = false) : Step crew s { s with feeder := .gone }
  | feed {s job} (offering : s.feeder = .offering job) (room : s.jobs.length < crew.size)
      (takers : s.TakesJobs) :
      Step crew s { s with feeder := .reading (job.1 + 1), jobs := s.jobs ++ [job] }
  | feedNobody {s job} (offering : s.feeder = .offering job) (takers : ¬ s.TakesJobs) :
      Step crew s { s with feeder := .gone }
  | stopOffering {s job} (offering : s.feeder = .offering job) (done : s.phase.isDone = true) :
      Step crew s { s with feeder := .gone }
  /-- Only a channel can be left while waiting for an item. -/
  | stopReading {s next} (reading : s.feeder = .reading next)
      (fromChannel : crew.fromChannel = true) (done : s.phase.isDone = true) :
      Step crew s { s with feeder := .gone }
  | take {s front back job rest} (idle : s.workers = front ++ .idle :: back)
      (jobs : s.jobs = job :: rest) :
      Step crew s { s with workers := front ++ .busy job :: back, jobs := rest }
  /-- Nobody is left who could send a job. -/
  | noJobs {s front back} (idle : s.workers = front ++ .idle :: back) (jobs : s.jobs = [])
      (feeder : s.feeder = .gone) : Step crew s { s with workers := front ++ .gone :: back }
  | translate {s front back job} (busy : s.workers = front ++ .busy job :: back) :
      Step crew s { s with
        workers := front ++ .offering (crew.report job) :: back
        translated := s.translated ++ [job] }
  | give {s front back report} (offering : s.workers = front ++ .offering report :: back)
      (room : s.reports.length < crew.size) (receives : s.phase.receives = true) :
      Step crew s { s with workers := front ++ .idle :: back, reports := s.reports ++ [report] }
  | giveNobody {s front back report} (offering : s.workers = front ++ .offering report :: back)
      (receives : s.phase.receives = false) :
      Step crew s { s with workers := front ++ .gone :: back }
  | stopIdling {s front back} (idle : s.workers = front ++ .idle :: back)
      (done : s.phase.isDone = true) : Step crew s { s with workers := front ++ .gone :: back }
  | stopGiving {s front back report} (offering : s.workers = front ++ .offering report :: back)
      (done : s.phase.isDone = true) : Step crew s { s with workers := front ++ .gone :: back }

/-- What others can do with the channel that the items come through. -/
inductive Sends : State ι ω ε σ → State ι ω ε σ → Prop where
  | push {s} (item : ι) (sending : s.isOpen = true) :
      Sends s { s with input := s.input ++ [item] }
  | close {s} (sending : s.isOpen = true) : Sends s { s with isOpen := false }

/-- The call's own threads get from one state to the other. -/
def Runs (crew : Crew ι ω ε σ) : State ι ω ε σ → State ι ω ε σ → Prop :=
  Relation.ReflTransGen crew.Step

/-- The call's own threads and those that send get from one state to the other. -/
def Reaches (crew : Crew ι ω ε σ) : State ι ω ε σ → State ι ω ε σ → Prop :=
  Relation.ReflTransGen fun before after => crew.Step before after ∨ Sends before after

end Crew

end DocRefs
