import ClusterPlan.Pass.Agenda
import ClusterPlan.Pass.Queue

/-!
One pass: what stands is loaded, then the tasks of the agenda are done one after the other on one
timeline and one quota ledger. The report lists what changed.
-/

namespace ClusterPlan

namespace PassState

def noticeUnknownQueues (f : Frame) (s : PassState) : PassState :=
  (f.waiting.filter fun j => !f.config.queues.contains j.queue).foldl
    (fun s j => s.notify (.unknownQueue j.id j.queue)) s

/-- The state before the first task. -/
def start (f : Frame) (matcher : Matcher) : PassState :=
  noticeUnknownQueues f ((initial f matcher).load f)

def perform (f : Frame) (s : PassState) : Task → PassState
  | .review job => reviewReservation f s job
  | .reserve job => placeReservation f s job
  | .openQueue => { s with blocker := none }
  | .consider job => consider f s job
  | .showBestEffort => s.occupyBestEffort

def finished (f : Frame) (matcher : Matcher) : PassState :=
  f.agenda.foldl (perform f) (start f matcher)

/-- The resources of the placements that satisfy `p` and are not over before now. -/
def resourcesOf (f : Frame) (s : PassState) (p : Placement → Bool) : OrdinalSet :=
  OrdinalSet.unionAll
    ((s.placements.filter fun e => f.now ≤ e.2.heldUntil && p e.2).map
      fun e => e.2.assignment.resources)

def energyNeeds (f : Frame) (s : PassState) (e : EnergySaving) : EnergyNeeds where
  now := f.now
  lead := f.lead
  busy := resourcesOf f s fun p => p.assignment.start ≤ e.sleepWindowEnd f.now f.lead
  wanted :=
    s.wanted ∪ (resourcesOf f s (fun p => p.assignment.start ≤ f.wakeReady) ∩ f.wakeable)

/-- The rows of the commitments that are not persisted already. -/
def newRows (s : PassState) (f : Frame) : List GanttRow :=
  (s.commitments.map (Commitment.row f.catalog)).filter fun row =>
    !(f.row? row.job).any fun old => old.samePlacement row

def report (f : Frame) (s : PassState) : Report where
  now := f.now
  decisions := s.decisions
  commitments := s.commitments
  newRows := s.newRows f
  dropped := (f.rows.filter fun r => !s.placements.has r.job).map GanttRow.job
  kills := ascending s.victims
  energy := f.config.energy.map fun e => f.catalog.energyDecision e (energyNeeds f s e)
  claimCount := s.ledger.claims.length

end PassState

/-- A pass over a frame, with what the matcher knows from earlier passes. -/
structure PassResult where
  report : Report
  matcher : Matcher
  notices : List Notice

def Frame.run (f : Frame) (matcher : Matcher) : PassResult :=
  let s := PassState.finished f matcher
  ⟨s.report f, s.matcher, s.notices⟩

end ClusterPlan
