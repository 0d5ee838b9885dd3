import ClusterPlan.Catalog.Basic
import ClusterPlan.Config

/-!
Power decisions of a pass. A node sleeps or wakes as a whole: it sleeps only if each of its alive
resources may, and if one of its absent resources is needed then all of them wake.
-/

namespace ClusterPlan

structure EnergyDecision where
  sleep : List Int
  wakeup : List Int
  sleepNodes : List String
  wakeupNodes : List String
  deriving DecidableEq, Repr

namespace EnergyDecision

def isEmpty (d : EnergyDecision) : Bool := d.sleep.isEmpty && d.wakeup.isEmpty

end EnergyDecision

/-- What a pass tells about the use of resources. -/
structure EnergyNeeds where
  now : Int
  lead : Int
  /-- Resources claimed before the end of the sleep window. -/
  busy : OrdinalSet
  /-- Absent resources that something planned for soon needs. -/
  wanted : OrdinalSet

namespace EnergySaving

/-- The end of the window in which a resource has to stay unclaimed to be put to sleep. -/
def sleepWindowEnd (e : EnergySaving) (now lead : Int) : Int :=
  Time.later (Time.later now e.sleep) lead

/-- Whether an unclaimed resource has been idle for long enough and stays available. -/
def mayRest (e : EnergySaving) (now : Int) (r : Resource) : Bool :=
  (r.availableUpto.all fun upto => now < upto) &&
    (r.lastJobEnd.all fun last => e.idle ≤ now - last)

end EnergySaving

namespace Catalog

/-- The names of the nodes that members of the set are part of, ascending. -/
def nodeNames (c : Catalog) (s : OrdinalSet) : List String :=
  Text.ascending (s.toList.filterMap c.nodeOf?)

/-- The set, and everything in the given state on a node with one of its members. -/
def wholeNodes (c : Catalog) (s : OrdinalSet) (state : ResourceState) : OrdinalSet :=
  let nodes := s.toList.filterMap c.nodeOf?
  s ∪ c.ordinalsWhere fun r => r.state == state && (r.node.any fun n => nodes.contains n)

/-- Alive resources that nothing claims before the end of the sleep window and that may rest. -/
def restable (c : Catalog) (e : EnergySaving) (needs : EnergyNeeds) : OrdinalSet :=
  c.ordinalsWhere (fun r => r.state == .alive && e.mayRest needs.now r) \ needs.busy

/-- Restable resources outside of nodes, and all alive resources of the nodes that carry no alive
resource which has to stay awake. -/
def sleepers (c : Catalog) (e : EnergySaving) (needs : EnergyNeeds) : OrdinalSet :=
  let rest := c.restable e needs
  let busyNodes := (c.inState .alive \ rest).toList.filterMap c.nodeOf?
  rest \ c.ordinalsWhere fun r => r.node.any fun n => busyNodes.contains n

def energyDecision (c : Catalog) (e : EnergySaving) (needs : EnergyNeeds) : EnergyDecision :=
  let sleep := c.sleepers e needs
  let wakeup := c.wholeNodes (needs.wanted ∩ c.inState .absent) .absent
  ⟨c.toIds sleep, c.toIds wakeup, c.nodeNames sleep, c.nodeNames wakeup⟩

end Catalog
end ClusterPlan
