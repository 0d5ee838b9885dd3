import ClusterPlan.Pass.State

/-!
What a pass does, in order. Granted reservations come first, then new ones, then the regular jobs of
each queue, and best-effort jobs take what is left around those that already run. The agenda is fixed
before anything is decided.
-/

namespace ClusterPlan

inductive Task where
  /-- Look after a granted reservation. -/
  | review (job : Job)
  /-- Place a new reservation. -/
  | reserve (job : Job)
  /-- Start with a queue, where no job is held up yet. -/
  | openQueue
  /-- Place a job that is no reservation. -/
  | consider (job : Job)
  /-- Put the active best-effort jobs on the timeline. -/
  | showBestEffort
  deriving DecidableEq, Repr

namespace Frame

def reviews (f : Frame) (queue : Name .queue) : List Task :=
  ((f.queueJobs queue).filter fun j => j.reservation == .scheduled).map Task.review

/-- New reservations are always placed by submission. -/
def reserves (f : Frame) (queue : Name .queue) : List Task :=
  (JobOrder.oldestFirst.sort
    ((f.queueJobs queue).filter fun j => j.reservation == .toSchedule)).map Task.reserve

/-- The normal jobs of a queue, either its regular ones or its best-effort ones. -/
def considers (f : Frame) (bestEffort : Bool) (queue : Name .queue) : List Task :=
  .openQueue ::
    ((f.queueJobs queue).filter fun j =>
      !j.isReservation && j.isBestEffort == bestEffort).map Task.consider

def agenda (f : Frame) : List Task :=
  let queues := f.config.queues
  queues.flatMap f.reviews ++ queues.flatMap f.reserves ++ queues.flatMap (f.considers false) ++
    .showBestEffort :: queues.flatMap (f.considers true)

end Frame
end ClusterPlan
