import ClusterPlan.Job

/-!
The order in which the waiting jobs of a queue are considered. Jobs that an order does not tell
apart keep the order in which they came.
-/

namespace ClusterPlan

/-- Whether the first job may come before the second. -/
abbrev JobOrder := Job → Job → Bool

namespace JobOrder

/-- By submission, in the same second by id. -/
def oldestFirst : JobOrder := fun a b =>
  a.submitted < b.submitted || (a.submitted == b.submitted && a.id ≤ b.id)

def newestFirst : JobOrder := fun a b => b.submitted ≤ a.submitted

def sort (order : JobOrder) (jobs : List Job) : List Job := jobs.mergeSort order

end JobOrder
end ClusterPlan
