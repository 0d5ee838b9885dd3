import ClusterPlan.Catalog.Basic
import ClusterPlan.Gantt.Row
import ClusterPlan.Job
import ClusterPlan.Request.Rows

/-!
Tables kept between passes: resources, jobs, the flat rows of their requests, and the Gantt chart. The
catalog is built when it is asked for and kept until a resource changes. While the store rejects
writes, only what a pass wants to write is refused.
-/

namespace ClusterPlan

structure Store where
  resources : List Resource
  resourceOrder : List String
  /-- The catalog of the present resources, once it was asked for. -/
  catalog : Option Catalog
  nextSnapshot : Nat
  /-- Jobs in ascending order, without their alternatives. -/
  jobs : List Job
  requestRows : RowTable
  /-- Gantt rows in ascending order of their jobs. -/
  gantt : List GanttRow
  /-- Best-effort jobs that are to be killed, ascending. -/
  killRequests : List Int
  rejectsWrites : Bool

namespace Store

def ofResources (resources : List Resource) (order : List String) : Store where
  resources := resources
  resourceOrder := order
  catalog := none
  nextSnapshot := 1
  jobs := []
  requestRows := []
  gantt := []
  killRequests := []
  rejectsWrites := false

def storedJob? (s : Store) (id : Int) : Option Job := Table.find? Job.id s.jobs id

/-- Stores a job, its alternatives as flat rows. -/
def submit (s : Store) (job : Job) : Except Error Store :=
  if (s.storedJob? job.id).isSome then .error (.model (.alreadySubmitted job.id))
  else
    .ok
      { s with
        jobs := Table.put Job.id { job with alternatives := [] } s.jobs
        requestRows := s.requestRows ++ RowTable.ofAlternatives job.id job.alternatives }

/-- Removes a job and all that is known about it. Tells whether it was there. -/
def withdraw (s : Store) (id : Int) : Store × Bool :=
  ({ s with
      jobs := Table.erase Job.id id s.jobs
      requestRows := s.requestRows.filter fun r => r.job ≠ id
      gantt := Table.erase GanttRow.job id s.gantt
      killRequests := s.killRequests.filter (· ≠ id) },
    (s.storedJob? id).isSome)

def addResource (s : Store) (r : Resource) : Store :=
  { s with resources := s.resources ++ [r], catalog := none }

def changeFirst (p : Resource → Bool) (change : Resource → Resource) :
    List Resource → List Resource
  | [] => []
  | r :: rest => if p r then change r :: rest else r :: changeFirst p change rest

def updateResource (s : Store) (id : Int) (change : Resource → Resource) : Except Error Store :=
  if s.resources.any fun r => r.id == id then
    .ok
      { s with
        resources := changeFirst (fun r => r.id == id) change s.resources
        catalog := none }
  else .error (.unknownResource id)

def setResourceState (s : Store) (id : Int) (state : ResourceState) : Except Error Store :=
  s.updateResource id fun r => { r with state := state }

def changeJob (s : Store) (id : Int) (change : Job → Job) : Except Error Store :=
  if (s.storedJob? id).isSome then
    .ok { s with jobs := s.jobs.map fun j => if j.id = id then change j else j }
  else .error (.outage (.jobNotStored id))

/-- Moves a job to another state, as a launcher does between passes. -/
def setJobState (s : Store) (id : Int) (state : JobState) : Except Error Store :=
  s.changeJob id fun j => { j with state := state }

/-- Jobs with their alternatives put together again. -/
def assemble (s : Store) (jobs : List Job) : Except Error (List Job) :=
  let wanted := s.requestRows.filter fun r => jobs.any fun j => j.id == r.job
  match RowTable.pushAll [] wanted with
  | .error fault => .error (.model fault)
  | .ok rows =>
      let alternatives := rows.assemble
      .ok (jobs.map fun j =>
        { j with alternatives := (alternatives.lookup j.id).getD [] })

def job? (s : Store) (id : Int) : Except Error (Option Job) :=
  match s.storedJob? id with
  | none => .ok none
  | some j => (s.assemble [j]).map List.head?

def waitingJobs (s : Store) (queue : Name .queue) : Except Error (List Job) :=
  s.assemble (s.jobs.filter fun j => j.state == .waiting && j.queue == queue)

def activeJobs (s : Store) : Except Error (List Job) :=
  s.assemble (s.jobs.filter fun j => j.state.isActive)

/-- The catalog of the present resources. It is built at most once between two changes. -/
def fetchCatalog (s : Store) : Except Error (Store × Catalog) :=
  match s.catalog with
  | some c => .ok (s, c)
  | none => do
      let c ← Catalog.build s.nextSnapshot s.resourceOrder s.resources
      return ({ s with catalog := some c, nextSnapshot := s.nextSnapshot + 1 }, c)

def ganttRow? (s : Store) (job : Int) : Option GanttRow := Table.find? GanttRow.job s.gantt job

/-- Does a write, unless the store rejects it. -/
def write (s : Store) (kind : StoreWrite) (change : Store → Except Error Store) :
    Except Error Store :=
  if s.rejectsWrites then .error (.outage (.writeRefused kind)) else change s

def commitRows (s : Store) (rows : List GanttRow) : Except Error Store :=
  s.write .commit fun s =>
    .ok { s with gantt := rows.foldl (fun acc r => Table.put GanttRow.job r acc) s.gantt }

def dropRows (s : Store) (jobs : List Int) : Except Error Store :=
  s.write .drop fun s => .ok { s with gantt := s.gantt.filter fun r => !jobs.contains r.job }

def updateJobState (s : Store) (id : Int) (state : JobState) (message : String) :
    Except Error Store :=
  s.write .stateUpdate fun s => s.changeJob id fun j => { j with state := state, message := message }

def updateReservation (s : Store) (id : Int) (flag : Reservation) : Except Error Store :=
  s.write .reservationUpdate fun s => s.changeJob id fun j => { j with reservation := flag }

def requestKills (s : Store) (jobs : List Int) : Except Error Store :=
  s.write .killRequest fun s => .ok { s with killRequests := ascending (s.killRequests ++ jobs) }

end Store
end ClusterPlan
