import ClusterPlan.Catalog.Basic
import ClusterPlan.Gantt.Row
import ClusterPlan.Job

/-!
Placements. A placement is an assignment and the last second at which it holds its resources; a
commitment is a placement that a pass made for a job.
-/

namespace ClusterPlan

structure Placement where
  heldUntil : Int
  assignment : Assignment
  deriving DecidableEq

structure Commitment where
  job : Job
  placement : Placement
  deriving DecidableEq

namespace Commitment

/-- The row that keeps the commitment for later passes. -/
def row (catalog : Catalog) (c : Commitment) : GanttRow :=
  let a := c.placement.assignment
  .ofPlacement c.job.id a.alternative a.start a.walltime (catalog.toIds a.resources)

end Commitment
end ClusterPlan
