import ClusterPlan.Document.Config
import ClusterPlan.Document.Job
import ClusterPlan.Document.Resource
import ClusterPlan.Store

/-!
Documents that describe a whole platform: resources, jobs, the Gantt chart and the time at which all
this held.
-/

namespace ClusterPlan.Document

structure PlatformEntry where
  resources : List ResourceEntry
  jobs : List JobEntry
  gantt : List GanttRow
  now : Option Int

namespace PlatformEntry

/-- Reads a platform. Values of resource properties may nest `room` deep. -/
def read (room : Nat) (j : Json) : Option PlatformEntry := do
  let r ← j.record? ["resources", "jobs", "gantt", "now"]
  return {
    resources := ← r.required "resources" (Json.list? (ResourceEntry.read room))
    jobs := ← r.withDefault "jobs" [] (Json.list? JobEntry.read)
    gantt := ← r.withDefault "gantt" [] (Json.list? readRow)
    now := ← r.optional "now" Json.int? }

def submitAll (aliases : Dictionary String String) (store : Store) :
    List JobEntry → Except Error Store
  | [] => .ok store
  | e :: rest => do
      let job ← e.toJob aliases
      submitAll aliases (← store.submit job) rest

def toStore (p : PlatformEntry) (config : Config) : Except Error Store := do
  let resources ← p.resources.mapM ResourceEntry.toResource
  let store ← submitAll config.aliases (.ofResources resources config.resourceOrder) p.jobs
  store.commitRows p.gantt

end PlatformEntry
end ClusterPlan.Document
