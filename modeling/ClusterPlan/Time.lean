import ClusterPlan.Number

/-!
Instants and durations are whole seconds. Sums with an instant stop at the bounds of 64-bit time,
and no timeline reaches past the last instant of 31 bits.
-/

namespace ClusterPlan.Time

def earliest : Int := Number.leastInt

def latest : Int := Number.greatestInt

/-- The end of the longest timeline. -/
def lastInstant : Int := 2147483647

/-- `t + d` within the bounds of 64-bit time. -/
def later (t d : Int) : Int := max earliest (min latest (t + d))

/-- The last second of a window that starts at `start` and lasts `walltime`. -/
def windowEnd (start walltime : Int) : Int := later start (walltime - 1)

end ClusterPlan.Time
