import ClusterPlan.Dictionary
import ClusterPlan.Error

/-!
A resource of the cluster: its state, until when it is available, and its properties. Every resource
answers to `resource_id` with its own id and to `type` with `default` unless it has a type.
-/

namespace ClusterPlan

inductive ResourceState where
  | alive
  | absent
  | suspected
  | dead
  deriving DecidableEq, Repr

namespace ResourceState

def text : ResourceState → String
  | alive => "Alive"
  | absent => "Absent"
  | suspected => "Suspected"
  | dead => "Dead"

def all : List ResourceState := [alive, absent, suspected, dead]

/-- The state of that name, in any case. -/
def read (name : String) : Except Error ResourceState :=
  let name := Text.lower name
  match all.find? fun s => Text.lower s.text == name with
  | some s => .ok s
  | none => .error (.model (.unknownResourceState name))

end ResourceState

structure Resource where
  id : Int
  state : ResourceState
  /-- The last second at which the resource may be used. -/
  availableUpto : Option Int
  /-- The end of the last job that ran on the resource. -/
  lastJobEnd : Option Int
  properties : Dictionary String String

namespace Resource

def idProperty : String := "resource_id"
def typeProperty : String := "type"
def nodeProperty : String := "network_address"
def defaultType : String := "default"

/-- The value that filters see. -/
def property (r : Resource) (name : String) : Option String :=
  if name = idProperty then some (toString r.id)
  else
    match r.properties.get? name with
    | some value => some value
    | none => if name = typeProperty then some defaultType else none

def node (r : Resource) : Option String := r.properties.get? nodeProperty

def hasDefaultType (r : Resource) : Bool :=
  (r.properties.get? typeProperty).getD defaultType == defaultType

def isSchedulable (r : Resource) : Bool := r.state != .dead

end Resource
end ClusterPlan
