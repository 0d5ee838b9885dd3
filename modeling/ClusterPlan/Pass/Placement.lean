import ClusterPlan.Pass.Standing

/-!
Placing one job. An attempt asks for one alternative at one start; a commit puts what was found on the
timeline and into the ledger. `placeNow` tries the alternatives at the present second, `placeEarliest`
takes the alternative that ends first.
-/

namespace ClusterPlan

/-- What came of looking for resources at one start. -/
inductive Attempt where
  | found (resources : OrdinalSet)
  | noRoom
  | overQuota (dimension : Dimension)
  deriving DecidableEq

/-- What came of looking at several starts. -/
inductive Fit where
  | found (start : Int) (resources : OrdinalSet)
  | noRoom
  | overQuota (dimension : Dimension)
  deriving DecidableEq

namespace PassState

/-- Looks for resources that are free while they would be held and that the quotas allow. -/
def attempt (s : PassState) (f : Frame) (job : Job) (c : Candidate) (start : Int) : Attempt :=
  if s.timeline.horizon < Time.windowEnd start c.walltime then .noRoom
  else
    let last := f.heldOnTimeline start c.walltime
    match c.pick? (s.timeline.freeOver start last) with
    | none => .noRoom
    | some chosen =>
        if job.isWithoutQuotas then .found chosen
        else
          match s.ledger.refusal? ⟨s.ledger.claimant job, chosen.card, start, last⟩ with
          | some d => .overQuota d
          | none => .found chosen

def claim (s : PassState) (job : Job) (units : Nat) (first last : Int) :
    Except Dimension PassState :=
  if job.isWithoutQuotas then .ok s
  else
    match s.ledger.reserve ⟨s.ledger.claimant job, units, first, last⟩ with
    | .error d => .error d
    | .ok (ledger, number) =>
        .ok { s with ledger := ledger, claims := s.claims.put job.id number }

def commit (s : PassState) (f : Frame) (job : Job) (c : Candidate) (start : Int)
    (resources : OrdinalSet) : Except Dimension PassState :=
  let last := f.heldOnTimeline start c.walltime
  match s.claim job resources.card start last with
  | .error d => .error d
  | .ok s =>
      let placement : Placement := ⟨last, ⟨c.id, start, c.walltime, resources⟩⟩
      .ok
        { s with
          timeline := s.timeline.occupy start last resources
          placements := s.placements.put job.id placement
          commitments := s.commitments ++ [⟨job, placement⟩] }

/-- Decides about a job placed at the present second. A regular job on the resources of best-effort
jobs has to wait until they are killed. -/
def launch (s : PassState) (job : Job) (c : Candidate) (resources : OrdinalSet) : PassState :=
  let (s, blockers) := if job.isBestEffort then (s, []) else s.evict resources
  if blockers.isEmpty then s.decide job .toLaunch .toLaunch .none (.launched c.id)
  else s.decide job .scheduled .waiting .none (.launchedAfterKills c.id blockers)

def remember (s : PassState) (shape : Shape) (room : FirstRoom) : PassState :=
  { s with fits := s.fits.put shape room }

def remembered? (s : PassState) (f : Frame) (shape : Shape) : Option FirstRoom :=
  if f.remembersFits then s.fits.get? shape else none

def hasNoRoomNow (s : PassState) (f : Frame) (shape : Shape) : Bool :=
  match s.remembered? f shape with
  | some (.at t) => f.now < t
  | some .nowhere => true
  | none => false

/-- Tries the alternatives in order at the present second. Tells whether the job is placed. -/
def placeNow (f : Frame) (job : Job) :
    List (Alternative × Candidate) → Obstacle → PassState → PassState × Bool
  | [], obstacle, s => (s.keepWaiting job (.cannotStart obstacle), false)
  | (a, c) :: rest, obstacle, s =>
      let shape := a.shape job.filter
      if s.hasNoRoomNow f shape then placeNow f job rest obstacle s
      else
        match s.attempt f job c f.now with
        | .found resources =>
            match s.commit f job c f.now resources with
            | .ok s => (s.launch job c resources, true)
            | .error d => placeNow f job rest (.fault (.quota d)) s
        | .noRoom => placeNow f job rest obstacle (s.remember shape (.at (f.now + 1)))
        | .overQuota d => placeNow f job rest (.fault (.quota d)) s

/-- Tries starts in order. Beside the fit, tells the first start with resources enough, which the
quotas may still have refused. -/
def searchStarts (attemptAt : Int → Attempt) : List Int → Fit × FirstRoom
  | [] => (.noRoom, .nowhere)
  | t :: rest =>
      match attemptAt t with
      | .noRoom => searchStarts attemptAt rest
      | .found resources => (.found t resources, .at t)
      | .overQuota d =>
          match (searchStarts attemptAt rest).1 with
          | .noRoom => (.overQuota d, .at t)
          | fit => (fit, .at t)

/-- The starts at which the candidate would end by the horizon. -/
def starts (s : PassState) (f : Frame) (shape : Shape) (c : Candidate) : List Int :=
  (match s.remembered? f shape with
    | some (.at t) => s.timeline.startsFrom (max t f.now)
    | some .nowhere => []
    | none => s.timeline.startsFrom f.now).takeWhile
    fun t => Time.windowEnd t c.walltime ≤ s.timeline.horizon

def earliestFit (s : PassState) (f : Frame) (job : Job) (a : Alternative) (c : Candidate) :
    PassState × Fit :=
  let shape := a.shape job.filter
  let (fit, room) := searchStarts (s.attempt f job c) (s.starts f shape c)
  (s.remember shape room, fit)

structure Proposal where
  candidate : Candidate
  start : Int
  resources : OrdinalSet

namespace Proposal

def last (p : Proposal) : Int := Time.windowEnd p.start p.candidate.walltime

/-- Takes the place of an earlier proposal only if it ends sooner. -/
def better (new : Proposal) : Option Proposal → Proposal
  | some old => if new.last < old.last then new else old
  | none => new

end Proposal

/-- The best proposal over all alternatives, and the last quota that stood in the way. -/
def bestProposal (f : Frame) (job : Job) :
    List (Alternative × Candidate) → Option Proposal → Option Dimension → PassState →
      PassState × Option Proposal × Option Dimension
  | [], best, hit, s => (s, best, hit)
  | (a, c) :: rest, best, hit, s =>
      match s.earliestFit f job a c with
      | (s, .found start resources) =>
          bestProposal f job rest (some (Proposal.better ⟨c, start, resources⟩ best)) hit s
      | (s, .overQuota d) => bestProposal f job rest best (some d) s
      | (s, .noRoom) => bestProposal f job rest best hit s

/-- Places the job where one of its alternatives ends first, of equal ends the first declared.
Tells whether the job is placed. -/
def placeEarliest (f : Frame) (job : Job) (candidates : List (Alternative × Candidate))
    (s : PassState) : PassState × Bool :=
  match bestProposal f job candidates none none s with
  | (s, none, some d) => (s.keepWaiting job (.notScheduled (.fault (.quota d))), false)
  | (s, none, none) => (s.keepWaiting job (.notScheduled .noRoom), false)
  | (s, some p, _) =>
      match s.commit f job p.candidate p.start p.resources with
      | .error d => (s.keepWaiting job (.faulty (.quota d)), false)
      | .ok s =>
          if p.start = f.now then (s.launch job p.candidate p.resources, true)
          else
            (s.decide job .scheduled .waiting .none (.expected p.start p.candidate.id), true)

end PassState
end ClusterPlan
