import ClusterPlan.Catalog.Resource
import ClusterPlan.OrdinalSet.Basic

/-!
A catalog numbers the resources of one moment from zero on. Ordinals only mean something inside
their catalog; ids mean the same in all of them. `groups` splits a set by the value of a property.
-/

namespace ClusterPlan

/-- The order of two values of a property by which resources are sorted; no value comes last. -/
def orderForSorting : Option String → Option String → Ordering
  | some a, some b =>
      match Decimal.readFloat? a, Decimal.readFloat? b with
      | some x, some y => orderFloats x y
      | _, _ => orderTexts a b
  | some _, none => .lt
  | none, some _ => .gt
  | none, none => .eq

/-- The order of two resources by the given properties and then by id. -/
def orderResources : List String → Resource → Resource → Ordering
  | [], a, b => compare a.id b.id
  | p :: rest, a, b =>
      match orderForSorting (a.property p) (b.property p) with
      | .eq => orderResources rest a b
      | o => o

structure Catalog where
  /-- Tells one snapshot from another; what was derived from one does not hold for the other. -/
  snapshot : Nat
  resources : List Resource
  distinct : (resources.map Resource.id).Nodup

def firstRepeated? (seen : List Int) : List Int → Option Int
  | [] => none
  | id :: rest => if id ∈ seen then some id else firstRepeated? (id :: seen) rest

namespace Catalog

def empty : Catalog := ⟨0, [], by simp⟩

instance : Inhabited Catalog := ⟨empty⟩

def build (snapshot : Nat) (order : List String) (resources : List Resource) :
    Except Error Catalog :=
  let sorted := resources.mergeSort fun a b => orderResources order a b != .gt
  if h : (sorted.map Resource.id).Nodup then .ok ⟨snapshot, sorted, h⟩
  else
    .error (.model (.duplicateResource ((firstRepeated? [] (sorted.map Resource.id)).getD 0)))

def size (c : Catalog) : Nat := c.resources.length

def resource? (c : Catalog) (o : Nat) : Option Resource := c.resources[o]?

def idOf? (c : Catalog) (o : Nat) : Option Int := (c.resource? o).map Resource.id

def ordinalOf? (c : Catalog) (id : Int) : Option Nat := c.resources.findIdx? fun r => r.id == id

def nodeOf? (c : Catalog) (o : Nat) : Option String := (c.resource? o).bind Resource.node

/-- The ordinals of the resources that satisfy `p`, ascending. -/
def ordinals (c : Catalog) (p : Resource → Bool) : List Nat :=
  (c.resources.zipIdx.filter fun e => p e.1).map (·.2)

def ordinalsWhere (c : Catalog) (p : Resource → Bool) : OrdinalSet := .ofIds (c.ordinals p)

/-- All resources that are not dead. -/
def schedulable (c : Catalog) : OrdinalSet := c.ordinalsWhere Resource.isSchedulable

/-- The schedulable resources of the default type: the domain of requests that name no type. -/
def defaults (c : Catalog) : OrdinalSet :=
  c.ordinalsWhere fun r => r.isSchedulable && r.hasDefaultType

def inState (c : Catalog) (s : ResourceState) : OrdinalSet := c.ordinalsWhere fun r => r.state == s

/-- The ids of a set, in the order of the catalog. -/
def toIds (c : Catalog) (s : OrdinalSet) : List Int := s.toList.filterMap c.idOf?

/-- The known ones of the ids. -/
def knownIds (c : Catalog) (ids : List Int) : OrdinalSet := .ofIds (ids.filterMap c.ordinalOf?)

/-- The set of the ids, or the first of them that is not in the catalog. -/
def ofIds (c : Catalog) (ids : List Int) : Except Error OrdinalSet :=
  match ids.find? fun id => (c.ordinalOf? id).isNone with
  | some id => .error (.unknownResource id)
  | none => .ok (c.knownIds ids)

/-- Whether filters and levels may name the property. -/
def hasProperty (c : Catalog) (name : String) : Bool :=
  name == Resource.idProperty || name == Resource.typeProperty ||
    c.resources.any fun r => r.isSchedulable && r.properties.has name

def matching (c : Catalog) (f : Filter) : OrdinalSet :=
  c.ordinalsWhere fun r => r.isSchedulable && f.holds r.property

/-- The value by which a resource is grouped. Dead resources are grouped by type only, where all
resources have a value. -/
def groupValue (property : String) (r : Resource) : Option String :=
  if property = Resource.typeProperty then r.property property
  else if r.isSchedulable then r.properties.get? property
  else none

/-- The ordinals of `within` that have a group value, ascending, each with its value. -/
def groupEntries (c : Catalog) (property : String) (within : OrdinalSet) : List (Nat × String) :=
  (c.resources.zipIdx.filter fun e => decide (e.2 ∈ within)).filterMap fun e =>
    (groupValue property e.1).map fun v => (e.2, v)

/-- Splits `within` by the value of the property, groups in the order of their least members. Each
ordinal is a group of its own under `resource_id`. -/
def groups (c : Catalog) (property : String) (within : OrdinalSet) : List OrdinalSet :=
  if property = Resource.idProperty then within.toList.map OrdinalSet.single
  else
    let entries := c.groupEntries property within
    (entries.map (·.2)).eraseDups.map fun v =>
      .ofIds ((entries.filter fun e => e.2 == v).map (·.1))

end Catalog
end ClusterPlan
