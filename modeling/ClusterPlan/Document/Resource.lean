import ClusterPlan.Catalog.Resource
import ClusterPlan.Json.Printer
import ClusterPlan.Json.Record

/-!
Documents that describe resources. Property values may be texts, numbers or truth values.
-/

namespace ClusterPlan.Document

structure ResourceEntry where
  id : Int
  state : String
  availableUpto : Option Int
  lastJobEnd : Option Int
  properties : List (String × Json)

namespace ResourceEntry

def fields : List String := ["id", "state", "availableUpto", "lastJobEnd", "properties"]

/-- Reads an entry. `room` is how deep the values of properties may nest. -/
def read (room : Nat) (j : Json) : Option ResourceEntry := do
  let r ← j.record? fields
  return {
    id := ← r.required "id" Json.int?
    state := ← r.withDefault "state" "Alive" Json.text?
    availableUpto := ← r.optional "availableUpto" Json.int?
    lastJobEnd := ← r.optional "lastJobEnd" Json.int?
    properties := ← r.withDefault "properties" [] (Json.map? (Json.any? room)) }

def propertyText (id : Int) (name : String) : Json → Except Error String
  | .text s => .ok s
  | .int n => .ok (toString n)
  | .real x => .ok (Decimal.write x)
  | .bool b => .ok (if b then "true" else "false")
  | j => .error (.model (.unsupportedProperty name id j.render))

def toResource (e : ResourceEntry) : Except Error Resource := do
  let state ← ResourceState.read e.state
  let properties ← e.properties.mapM fun (name, value) => do
    return (name, ← propertyText e.id name value)
  return ⟨e.id, state, e.availableUpto, e.lastJobEnd, Dictionary.putAll [] properties⟩

end ResourceEntry
end ClusterPlan.Document
