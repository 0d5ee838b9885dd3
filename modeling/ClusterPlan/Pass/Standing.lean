import ClusterPlan.Pass.State

/-!
What stands before a pass decides anything: times at which resources cannot be used, and the rows of
active jobs and of granted reservations. All other rows are predictions, which are made anew.
-/

namespace ClusterPlan

namespace Frame

/-- The windows in which the resource cannot be used. An availability that ends before an absent
resource can be up is out of date. -/
def closedWindows (f : Frame) (r : Resource) : List (Int × Int) :=
  let after (upto : Int) := (Time.later upto 1, Time.lastInstant)
  match r.state with
  | .dead => []
  | .alive => r.availableUpto.toList.map after
  | .suspected => [(f.now, Time.lastInstant)]
  | .absent =>
      if f.config.energy.isSome then
        (if f.now < f.wakeReady then [(f.now, f.wakeReady - 1)] else []) ++
          (r.availableUpto.filter fun upto => f.wakeReady < upto).toList.map after
      else [(f.now, Time.lastInstant)]

def closures (f : Frame) : List (Int × Int × Nat) :=
  f.catalog.resources.zipIdx.flatMap fun e =>
    (f.closedWindows e.1).map fun w => (w.1, w.2, e.2)

def activeJob? (f : Frame) (id : Int) : Option Job :=
  f.active.reverse.find? fun j => j.state.isActive && j.id == id

/-- The waiting job of that id with a granted reservation. -/
def reservedJob? (f : Frame) (id : Int) : Option Job :=
  f.waiting.reverse.find? fun j => j.reservation == .scheduled && j.id == id

/-- The job for which the row stands, and until when it holds its resources. Active jobs that
overrun keep theirs up to now. -/
def standing? (f : Frame) (row : GanttRow) : Option (Job × Int) :=
  let held := f.heldUntil row.start row.walltime
  match f.activeJob? row.job with
  | some job => some (job, max held f.now)
  | none => (f.reservedJob? row.job).map fun job => (job, held)

end Frame

namespace PassState

def close (s : PassState) (w : Int × Int × Nat) : PassState :=
  { s with timeline := s.timeline.occupy w.1 w.2.1 (.single w.2.2) }

/-- The resources of a row. Ids that the catalog does not know are passed over. -/
def rowResources (s : PassState) (f : Frame) (row : GanttRow) : PassState × OrdinalSet :=
  match f.catalog.ofIds row.resources with
  | .ok set => (s, set)
  | .error e => (s.notify (.unknownRowResources row.job e), f.catalog.knownIds row.resources)

def claimStanding (s : PassState) (job : Job) (units : Nat) (first last : Int) : PassState :=
  if job.isWithoutQuotas then s
  else
    let (ledger, number) := s.ledger.record ⟨s.ledger.claimant job, units, first, last⟩
    { s with ledger := ledger, claims := s.claims.put job.id number }

/-- Puts one row on the timeline. Rows of active best-effort jobs are kept aside. -/
def loadRow (f : Frame) (s : PassState) (row : GanttRow) : PassState :=
  match f.standing? row with
  | none => s
  | some (job, last) =>
      let (s, resources) := s.rowResources f row
      let assignment : Assignment := ⟨row.alternative, row.start, row.walltime, resources⟩
      let s := { s with placements := s.placements.put job.id ⟨last, assignment⟩ }
      if job.isBestEffort && job.state.isActive then
        { s with bestEffort := s.bestEffort ++ [(job.id, resources)] }
      else
        let s := { s with timeline := s.timeline.occupy row.start last resources }
        let s := s.claimStanding job resources.card row.start last
        if job.reservation == .scheduled && !job.state.isActive then
          { s with reservations := s.reservations.put job.id assignment }
        else s

def load (s : PassState) (f : Frame) : PassState :=
  f.rows.foldl (loadRow f) (f.closures.foldl close s)

def occupyBestEffort (s : PassState) : PassState :=
  { s with
    timeline :=
      s.bestEffort.foldl
        (fun tl e =>
          match s.placements.get? e.1 with
          | some p => tl.occupy p.assignment.start p.heldUntil e.2
          | none => tl)
        s.timeline }

end PassState
end ClusterPlan
