import ClusterPlan.Pass.Reservations

/-!
The normal jobs of a queue. Under the strict policy the first job that cannot start holds up those
behind it; a job that can never run does not.
-/

namespace ClusterPlan.PassState

/-- The last fault of a job none of whose alternatives matches: a malformed request before a lack
of resources. -/
def unmatchedFault? (results : List (Except Error Candidate)) : Option Error :=
  results.foldl
    (fun last r =>
      match last, r with
      | last, .ok _ => last
      | some (.unsatisfiable _), .error e | none, .error e => some e
      | some fault, .error (.unsatisfiable _) => some fault
      | some _, .error e => some e)
    none

def decideUnmatched (s : PassState) (job : Job) (results : List (Except Error Candidate)) :
    PassState :=
  match unmatchedFault? results with
  | some (.unsatisfiable shortage) => s.keepWaiting job (.faulty (.unsatisfiable shortage))
  | some e => s.decide job .error .error .none (.faulty e)
  | none => s.decide job .error .error .none (.faulty (.request (.noAlternatives job.id)))

def matched (job : Job) (results : List (Except Error Candidate)) :
    List (Alternative × Candidate) :=
  (job.alternatives.zip results).filterMap fun
    | (a, .ok c) => some (a, c)
    | (_, .error _) => none

/-- The resources with which the job could start as soon as absent ones are up. -/
def wakeTrial? (s : PassState) (f : Frame) (job : Job)
    (candidates : List (Alternative × Candidate)) : Option OrdinalSet :=
  candidates.findSome? fun e =>
    match s.attempt f job e.2 f.wakeReady with
    | .found resources => some resources
    | .noRoom | .overQuota _ => none

/-- Wishes for the absent resources without which a blocked job cannot start soon. -/
def wishWakeup (f : Frame) (job : Job) (candidates : List (Alternative × Candidate))
    (s : PassState) : PassState :=
  match s.wakeTrial? f job candidates with
  | some resources => { s with wanted := s.wanted ∪ (resources ∩ f.wakeable) }
  | none => s

/-- Places a job as the policy says. Tells whether it is placed. -/
def place (f : Frame) (job : Job) (candidates : List (Alternative × Candidate)) (s : PassState) :
    PassState × Bool :=
  match f.config.policy with
  | .fifo => placeNow f job candidates .notEnough s
  | .backfill => placeEarliest f job candidates s

/-- Considers a job, unless another one holds it up. Under the strict policy a job that matches the
catalog and is not placed holds up those behind it. -/
def consider (f : Frame) (s : PassState) (job : Job) : PassState :=
  match s.blocker with
  | some blocker => s.keepWaiting job (.behind blocker)
  | none =>
      let (matcher, results) := s.matcher.forJob f.catalog job
      let s := { s with matcher := matcher }
      let candidates := matched job results
      if candidates.isEmpty then s.decideUnmatched job results
      else
        let (s, placed) := place f job candidates s
        if placed || f.config.policy == .backfill then s
        else
          { wishWakeup f job candidates s with blocker := some job.id }

end ClusterPlan.PassState
