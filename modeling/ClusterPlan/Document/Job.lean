import ClusterPlan.Gantt.Row
import ClusterPlan.Job
import ClusterPlan.Json.Record
import ClusterPlan.Request.Parser

/-!
Documents that describe jobs and Gantt rows.
-/

namespace ClusterPlan.Document

structure AlternativeEntry where
  id : Int
  walltime : Int
  request : String

namespace AlternativeEntry

def fields : List String := ["id", "walltime", "request"]

def read (j : Json) : Option AlternativeEntry := do
  let r ← j.record? fields
  return ⟨← r.required "id" Json.int?, ← r.required "walltime" Json.int?,
    ← r.required "request" Json.text?⟩

def toAlternative (aliases : Dictionary String String) (e : AlternativeEntry) :
    Except Error Alternative :=
  match Request.parse aliases e.request with
  | .ok parts => .ok ⟨e.id, e.walltime, parts⟩
  | .error fault => .error (.request fault)

end AlternativeEntry

structure JobEntry where
  id : Int
  state : Option String
  queue : Option String
  user : Option String
  project : Option String
  types : List String
  properties : Option String
  submissionTime : Int
  reservationStart : Option Int
  reservation : Option String
  alternatives : List AlternativeEntry

namespace JobEntry

def fields : List String :=
  ["id", "state", "queue", "user", "project", "types", "properties", "submissionTime",
    "reservationStart", "reservation", "moldables"]

def read (j : Json) : Option JobEntry := do
  let r ← j.record? fields
  return {
    id := ← r.required "id" Json.int?
    state := ← r.optional "state" Json.text?
    queue := ← r.optional "queue" Json.text?
    user := ← r.optional "user" Json.text?
    project := ← r.optional "project" Json.text?
    types := ← r.withDefault "types" [] (Json.list? Json.text?)
    properties := ← r.optional "properties" Json.text?
    submissionTime := ← r.withDefault "submissionTime" 0 Json.int?
    reservationStart := ← r.optional "reservationStart" Json.int?
    reservation := ← r.optional "reservation" Json.text?
    alternatives := ← r.required "moldables" (Json.list? AlternativeEntry.read) }

/-- A start makes the job a reservation that is yet to be placed; a flag of its own wins. -/
def flag (e : JobEntry) : Except Error Reservation :=
  match e.reservation with
  | some text => Reservation.read text
  | none => .ok (if e.reservationStart.isSome then .toSchedule else .none)

def toJob (aliases : Dictionary String String) (e : JobEntry) : Except Error Job := do
  let alternatives ← e.alternatives.mapM (AlternativeEntry.toAlternative aliases)
  let state ← match e.state with | some text => JobState.read text | none => .ok .waiting
  let reservation ← e.flag
  return {
    id := e.id
    state := state
    queue := ⟨e.queue.getD "default"⟩
    user := ⟨e.user.getD "nobody"⟩
    project := ⟨e.project.getD "default"⟩
    types := Text.ascending e.types
    filter := e.properties
    submitted := e.submissionTime
    reservation := reservation
    requestedStart := e.reservationStart
    alternatives := alternatives
    message := "" }

end JobEntry

def ganttFields : List String := ["jobId", "moldableId", "startTime", "walltime", "resources"]

/-- A Gantt row with its resources as listed. -/
def readListedRow (j : Json) : Option GanttRow := do
  let r ← j.record? ganttFields
  return ⟨← r.required "jobId" Json.int?, ← r.required "moldableId" Json.int?,
    ← r.required "startTime" Json.int?, ← r.required "walltime" Json.int?,
    ← r.required "resources" (Json.list? Json.int?)⟩

/-- A Gantt row with its resources in ascending order, each once. -/
def readRow (j : Json) : Option GanttRow :=
  (readListedRow j).map fun r =>
    .ofPlacement r.job r.alternative r.start r.walltime r.resources

end ClusterPlan.Document
