import ClusterPlan.Dictionary
import ClusterPlan.Time

/-!
Rows of the Gantt chart as they are kept between passes. Resources are ids, because ordinals do not
outlive their catalog.
-/

namespace ClusterPlan

structure GanttRow where
  job : Int
  alternative : Int
  start : Int
  walltime : Int
  resources : List Int
  deriving DecidableEq, Repr

namespace GanttRow

/-- A row with its resources in ascending order, each once. -/
def ofPlacement (job alternative start walltime : Int) (resources : List Int) : GanttRow :=
  ⟨job, alternative, start, walltime, ascending resources⟩

def last (r : GanttRow) : Int := Time.windowEnd r.start r.walltime

def sorted (r : GanttRow) : GanttRow :=
  { r with resources := r.resources.mergeSort (· ≤ ·) }

/-- Whether two rows say the same, in whatever order they list the resources. -/
def samePlacement (r s : GanttRow) : Bool := r.sorted == s.sorted

end GanttRow
end ClusterPlan
