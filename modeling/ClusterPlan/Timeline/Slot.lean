import ClusterPlan.OrdinalSet.Basic

/-!
A stretch of time, both ends included, over which the same resources are free.
-/

namespace ClusterPlan

structure Slot where
  first : Int
  last : Int
  free : OrdinalSet
  deriving DecidableEq

namespace Slot

def contains (s : Slot) (t : Int) : Bool := s.first ≤ t && t ≤ s.last

/-- The slot before `t` and the slot from `t` on, if `t` is inside and not the first second. -/
def splitAt? (s : Slot) (t : Int) : Option (Slot × Slot) :=
  if t ≤ s.first ∨ s.last < t then none
  else some ({ s with last := t - 1 }, { s with first := t })

def occupy (s : Slot) (resources : OrdinalSet) : Slot := { s with free := s.free \ resources }

end Slot
end ClusterPlan
