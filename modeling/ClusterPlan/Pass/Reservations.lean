import ClusterPlan.Pass.Placement

/-!
Advance reservations. One with a row is launched when its time has come; one without a row is placed
at exactly the start it asks for, or refused.
-/

namespace ClusterPlan.PassState

def refuse (s : PassState) (job : Job) (note : Note) : PassState :=
  s.decide job .error .error job.reservation note

/-- Tries the alternatives at the requested start. The last obstacle is the one reported. -/
def placeReserved (f : Frame) (job : Job) (start : Int) :
    List (Except Error Candidate) → Obstacle → PassState → PassState
  | [], obstacle, s => s.refuse job (.reservationRefused obstacle)
  | .error e :: rest, _, s => placeReserved f job start rest (.fault e) s
  | .ok c :: rest, _, s =>
      match s.attempt f job c start with
      | .found resources =>
          match s.commit f job c start resources with
          | .ok s => s.decide job .scheduled .waiting .scheduled (.reservationPlaced start c.id)
          | .error d => placeReserved f job start rest (.fault (.quota d)) s
      | .noRoom => placeReserved f job start rest (.notEnoughAt start c.id) s
      | .overQuota d => placeReserved f job start rest (.fault (.quota d)) s

def placeReservation (f : Frame) (s : PassState) (job : Job) : PassState :=
  match job.requestedStart with
  | none => s.refuse job (.faulty (.request (.noRequestedStart job.id)))
  | some start =>
      if start < f.now then s.refuse job (.faulty (.startPassed job.id start f.now))
      else
        let (matcher, results) := s.matcher.forJob f.catalog job
        placeReserved f job start results .unresolved { s with matcher := matcher }

/-- Launches a reservation whose time has come, as soon as its resources are alive and no best-effort
job is on them. -/
def startReservation (f : Frame) (s : PassState) (job : Job) (a : Assignment) : PassState :=
  let alive := f.catalog.inState .alive
  if a.resources.subset alive then
    let (s, blockers) := s.evict a.resources
    if blockers.isEmpty then
      s.decide job .toLaunch .toLaunch .scheduled (.reservationStarts a.start f.now)
    else s.decide job .stillWaiting .waiting .scheduled (.reservationAwaitsKills blockers)
  else
    let note := Note.reservationAwaitsResources (f.catalog.toIds (a.resources \ alive))
    (s.notify (.reservationDelayed job.id note)).decide job .stillWaiting .waiting .scheduled note

/-- Looks after one granted reservation. Nothing is decided before its start. -/
def reviewReservation (f : Frame) (s : PassState) (job : Job) : PassState :=
  match s.reservations.get? job.id with
  | none => placeReservation f (s.notify (.reservationWithoutRow job.id)) job
  | some a =>
      if f.now < a.start then s
      else if a.last < f.now then
        (s.abandon job.id).decide job .error .error .scheduled (.reservationExpired a.start a.last)
      else startReservation f s job a

end ClusterPlan.PassState
