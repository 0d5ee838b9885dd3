import ClusterPlan.Catalog.Basic

/-!
Which resources a filter admits, and a memory of the answers. The memory belongs to one catalog
snapshot and forgets everything when it is bound to another. Only answers are remembered, faults
are found anew each time.
-/

namespace ClusterPlan

/-- The resources that the filter admits. A filter that names the type ranges over all types, any
other over the default type. -/
def Catalog.admitted (c : Catalog) (expression : String) : Except Error OrdinalSet :=
  match Filter.parse expression with
  | .error fault => .error (.request (.filter fault))
  | .ok f =>
      match f.properties.find? fun p => !c.hasProperty p with
      | some p => .error (.request (.unknownFilterProperty expression p))
      | none =>
          .ok (c.matching f ∩
            if f.properties.contains Resource.typeProperty then c.schedulable else c.defaults)

structure FilterMemo where
  snapshot : Option Nat
  known : Dictionary String OrdinalSet
  hits : Nat
  misses : Nat

namespace FilterMemo

def empty : FilterMemo := ⟨none, [], 0, 0⟩

def bind (m : FilterMemo) (c : Catalog) : FilterMemo :=
  if m.snapshot = some c.snapshot then m else { m with snapshot := some c.snapshot, known := [] }

/-- Whether binding to the catalog drops what was derived from an older one. -/
def isStale (m : FilterMemo) (c : Catalog) : Bool :=
  m.snapshot.isSome && m.snapshot != some c.snapshot

def admitted (m : FilterMemo) (c : Catalog) (expression : String) :
    FilterMemo × Except Error OrdinalSet :=
  let m := m.bind c
  match m.known.get? expression with
  | some set => ({ m with hits := m.hits + 1 }, .ok set)
  | none =>
      let m := { m with misses := m.misses + 1 }
      match c.admitted expression with
      | .ok set => ({ m with known := m.known.put expression set }, .ok set)
      | .error e => (m, .error e)

end FilterMemo
end ClusterPlan
