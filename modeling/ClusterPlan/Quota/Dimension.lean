/-!
What a quota bounds: resources held at once, jobs running at once, and resource time.
-/

namespace ClusterPlan

inductive Dimension where
  | units
  | jobs
  | unitTime
  deriving DecidableEq, Repr

namespace Dimension

def all : List Dimension := [units, jobs, unitTime]

def text : Dimension → String
  | units => "concurrent resource units"
  | jobs => "concurrent running jobs"
  | unitTime => "resource time"

theorem mem_all (d : Dimension) : d ∈ all := by cases d <;> simp [all]

end Dimension
end ClusterPlan
