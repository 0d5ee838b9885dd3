import ClusterPlan.Error
import ClusterPlan.OrdinalSet.Basic
import ClusterPlan.Text.Quoted

/-!
Jobs, their states and their reservations, and the resources assigned to them.
-/

namespace ClusterPlan

inductive NameKind where
  | queue
  | user
  | project
  deriving DecidableEq, Repr

/-- A name that is only ever compared with names of its kind. -/
structure Name (kind : NameKind) where
  text : String
  deriving DecidableEq, Repr

namespace Name

def describe {kind : NameKind} (n : Name kind) : String :=
  (match kind with
    | .queue => "QueueName"
    | .user => "UserName"
    | .project => "ProjectName") ++ "(" ++ Text.quoted n.text ++ ")"

end Name

inductive JobState where
  | waiting
  | hold
  | toLaunch
  | launching
  | running
  | finishing
  | terminated
  | error
  deriving DecidableEq, Repr

namespace JobState

def text : JobState → String
  | waiting => "Waiting"
  | hold => "Hold"
  | toLaunch => "toLaunch"
  | launching => "Launching"
  | running => "Running"
  | finishing => "Finishing"
  | terminated => "Terminated"
  | error => "Error"

def all : List JobState :=
  [waiting, hold, toLaunch, launching, running, finishing, terminated, error]

/-- Jobs in these states hold the resources of their Gantt row. -/
def isActive : JobState → Bool
  | toLaunch | launching | running | finishing => true
  | waiting | hold | terminated | error => false

/-- The state of that name, in any case. -/
def read (name : String) : Except Error JobState :=
  let name := Text.lower name
  match all.find? fun s => Text.lower s.text == name with
  | some s => .ok s
  | none => .error (.model (.unknownJobState name))

end JobState

inductive Reservation where
  | none
  | toSchedule
  | scheduled
  deriving DecidableEq, Repr

namespace Reservation

def text : Reservation → String
  | none => "None"
  | toSchedule => "toSchedule"
  | scheduled => "Scheduled"

def all : List Reservation := [none, toSchedule, scheduled]

/-- The flag of that name, in any case; the empty name means none. -/
def read (name : String) : Except Error Reservation :=
  let name := Text.lower name
  match all.find? fun f => Text.lower f.text == name with
  | some f => .ok f
  | .none => if name = "" then .ok none else .error (.model (.unknownReservation name))

end Reservation

/-- An alternative at a start time, on ordinals of one catalog. -/
structure Assignment where
  alternative : Int
  start : Int
  walltime : Int
  resources : OrdinalSet
  deriving DecidableEq

namespace Assignment

def last (a : Assignment) : Int := Time.windowEnd a.start a.walltime

end Assignment

structure Job where
  id : Int
  state : JobState
  queue : Name .queue
  user : Name .user
  project : Name .project
  /-- Distinct types in ascending order. -/
  types : List String
  /-- A filter that holds for every part of every alternative. -/
  filter : Option String
  submitted : Int
  reservation : Reservation
  requestedStart : Option Int
  alternatives : List Alternative
  message : String
  deriving DecidableEq, Repr

namespace Job

def bestEffort : String := "besteffort"

def isReservation (j : Job) : Bool := j.reservation != .none

def isWithoutQuotas (j : Job) : Bool := j.types.contains "no_quotas"

/-- Best-effort jobs run on what the others leave and are killed when a regular job needs it. -/
def isBestEffort (j : Job) : Bool := j.types.contains bestEffort || j.queue.text == bestEffort

def alternative? (j : Job) (id : Int) : Option Alternative := j.alternatives.find? fun a => a.id == id

end Job
end ClusterPlan
