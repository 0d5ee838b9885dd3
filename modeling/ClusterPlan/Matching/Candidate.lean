import ClusterPlan.Catalog.Basic

/-!
Choosing resources. A candidate is an alternative matched against a catalog: each level knows its
groups. The choice goes from the top level down and takes groups in the order of their least
members, so it finds the smallest answer there is.
-/

namespace ClusterPlan

structure GroupedLevel where
  property : String
  count : Nat
  groups : List OrdinalSet
  deriving DecidableEq

/-- A part of an alternative with the resources that its filter admits. -/
structure CandidatePart where
  admissible : OrdinalSet
  levels : List GroupedLevel
  deriving DecidableEq

structure Candidate where
  id : Int
  walltime : Int
  parts : List CandidatePart
  deriving DecidableEq

/-- The union of the first `n` sets, if there are as many. -/
def unionOfFirst? (n : Nat) (sets : List OrdinalSet) : Option OrdinalSet :=
  if sets.length < n then none else some (OrdinalSet.unionAll (sets.take n))

namespace GroupedLevel

def members (l : GroupedLevel) : OrdinalSet := OrdinalSet.unionAll l.groups

/-- Takes groups that are entirely available. -/
def pickWhole? (l : GroupedLevel) (available : OrdinalSet) : Option OrdinalSet :=
  unionOfFirst? l.count (l.groups.filter fun g => g.subset available)

/-- Takes groups at the bottom of a hierarchy. Where every group is one resource, the least
available members are the answer. -/
def pickBottom? (l : GroupedLevel) (available : OrdinalSet) : Option OrdinalSet :=
  if l.property = Resource.idProperty then (available ∩ l.members).smallest? l.count
  else l.pickWhole? available

end GroupedLevel

/-- Chooses from `available` for a hierarchy of levels. Above the bottom a group counts if its
available part satisfies the levels below. -/
def pickLevels? : List GroupedLevel → OrdinalSet → Option OrdinalSet
  | [], _ => none
  | level :: lower, available =>
      if level.count = 0 then some ∅
      else if lower.isEmpty then level.pickBottom? available
      else
        unionOfFirst? level.count
          (level.groups.filterMap fun g =>
            let usable := g ∩ available
            if usable.isEmpty then none else pickLevels? lower usable)

namespace CandidatePart

def pick? (p : CandidatePart) (available : OrdinalSet) : Option OrdinalSet :=
  pickLevels? p.levels (available ∩ p.admissible)

end CandidatePart

/-- Chooses for each part in order from what the parts before it leave, one set for each part. -/
def pickEach? : List CandidatePart → OrdinalSet → Option (List OrdinalSet)
  | [], _ => some []
  | p :: rest, available => do
      let chosen ← p.pick? available
      let others ← pickEach? rest (available \ chosen)
      return chosen :: others

namespace Candidate

def pick? (c : Candidate) (available : OrdinalSet) : Option OrdinalSet :=
  (pickEach? c.parts available).map OrdinalSet.unionAll

end Candidate
end ClusterPlan
