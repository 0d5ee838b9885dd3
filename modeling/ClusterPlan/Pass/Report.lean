import ClusterPlan.Energy
import ClusterPlan.Pass.Commitment
import ClusterPlan.Pass.Note

/-!
What a pass decides. Decisions, commitments and new rows stand in the order in which they were made.
-/

namespace ClusterPlan

inductive Outcome where
  /-- The job starts now. -/
  | toLaunch
  /-- The job holds a place in the future. -/
  | scheduled
  /-- The job has no place yet. -/
  | stillWaiting
  | error
  deriving DecidableEq, Repr

namespace Outcome

def text : Outcome → String
  | toLaunch => "toLaunch"
  | scheduled => "Scheduled"
  | stillWaiting => "StillWaiting"
  | error => "Error"

def isPlaced : Outcome → Bool
  | toLaunch | scheduled => true
  | stillWaiting | error => false

end Outcome

structure Decision where
  job : Int
  outcome : Outcome
  state : JobState
  reservation : Reservation
  note : Note
  /-- Whether the job gets another state or reservation flag than it had. -/
  changed : Bool
  assignment : Option Assignment
  deriving DecidableEq

structure Report where
  now : Int
  decisions : List Decision
  commitments : List Commitment
  /-- Rows of commitments that differ from what was persisted before the pass. -/
  newRows : List GanttRow
  /-- Jobs whose persisted row no longer stands. -/
  dropped : List Int
  /-- Running best-effort jobs in the way of a job that starts now. -/
  kills : List Int
  energy : Option EnergyDecision
  claimCount : Nat
  deriving DecidableEq

namespace Report

def count (r : Report) (o : Outcome) : Nat := r.decisions.countP fun d => d.outcome == o

def decision? (r : Report) (job : Int) : Option Decision := r.decisions.find? fun d => d.job == job

def row? (r : Report) (job : Int) : Option GanttRow := r.newRows.find? fun e => e.job == job

def changes (r : Report) : List Decision := r.decisions.filter Decision.changed

def powerOrder? (r : Report) : Option EnergyDecision := r.energy.filter fun d => !d.isEmpty

end Report
end ClusterPlan
