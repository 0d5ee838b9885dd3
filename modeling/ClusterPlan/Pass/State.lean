import ClusterPlan.JobOrder
import ClusterPlan.Matching.Matcher
import ClusterPlan.Notice
import ClusterPlan.Pass.Report
import ClusterPlan.Quota.Ledger
import ClusterPlan.Timeline.Basic

/-!
A pass works on a frame that stays fixed and a state that it changes. The frame holds the situation at
the start of the pass; the state holds the timeline, the quota ledger and what was decided so far.
-/

namespace ClusterPlan

structure Situation where
  now : Int
  catalog : Catalog
  /-- Rows as persisted before the pass. -/
  gantt : List GanttRow
  /-- Jobs that hold their resources. -/
  active : List Job
  waiting : List Job
  wakeLead : Int

structure Frame extends Situation where
  config : Config
  order : JobOrder
  /-- Whether a search profits from earlier ones for the same shape. -/
  remembersFits : Bool

namespace Frame

def lead (f : Frame) : Int := max f.wakeLead 0

def security (f : Frame) : Int := max f.config.securityTime 0

def horizon (f : Frame) : Int := min f.config.maxTime Time.lastInstant

/-- When absent resources can be up. -/
def wakeReady (f : Frame) : Int := Time.later f.now f.lead

/-- The last second at which the resources of a placement are held, security time included. -/
def heldUntil (f : Frame) (start walltime : Int) : Int :=
  Time.later (Time.windowEnd start walltime) f.security

/-- The same, cut off at the horizon. -/
def heldOnTimeline (f : Frame) (start walltime : Int) : Int :=
  min (f.heldUntil start walltime) f.horizon

/-- One persisted row for each job, in the order of the jobs. -/
def rows (f : Frame) : List GanttRow := Table.ofList GanttRow.job f.gantt

def row? (f : Frame) (job : Int) : Option GanttRow := Table.find? GanttRow.job f.rows job

def wakeable (f : Frame) : OrdinalSet :=
  if f.config.energy.isSome then f.catalog.inState .absent else ∅

/-- The waiting jobs of a queue in the order in which they are considered. -/
def queueJobs (f : Frame) (queue : Name .queue) : List Job :=
  f.order.sort (f.waiting.filter fun j => j.queue == queue && j.state == .waiting)

end Frame

/-- Where a search for a shape may begin: at a known start, or nowhere. -/
inductive FirstRoom where
  | at (start : Int)
  | nowhere
  deriving DecidableEq, Repr

structure PassState where
  matcher : Matcher
  timeline : Timeline
  ledger : Ledger
  /-- What searches of this pass found about shapes. -/
  fits : Dictionary Shape FirstRoom
  placements : Dictionary Int Placement
  /-- Reservations that hold a persisted row. -/
  reservations : Dictionary Int Assignment
  /-- The ledger numbers of the placed jobs. -/
  claims : Dictionary Int Nat
  /-- Active best-effort jobs with their resources; regular jobs do not see them. -/
  bestEffort : List (Int × OrdinalSet)
  victims : List Int
  /-- Absent resources that a blocked job could use. -/
  wanted : OrdinalSet
  /-- The job that holds up those behind it in its queue. -/
  blocker : Option Int
  commitments : List Commitment
  decisions : List Decision
  notices : List Notice

namespace PassState

def initial (f : Frame) (matcher : Matcher) : PassState where
  matcher := matcher.bind f.catalog
  timeline := .initial f.now f.horizon f.catalog.schedulable
  ledger :=
    if f.config.rules.isEmpty then .unlimited
    else .ofRules f.config.rules f.catalog.schedulable.card
  fits := []
  placements := []
  reservations := []
  claims := []
  bestEffort := []
  victims := []
  wanted := ∅
  blocker := none
  commitments := []
  decisions := []
  notices := []

def notify (s : PassState) (n : Notice) : PassState := { s with notices := s.notices ++ [n] }

/-- Decides about a job. Placed jobs show their assignment. -/
def decide (s : PassState) (job : Job) (outcome : Outcome) (state : JobState)
    (reservation : Reservation) (note : Note) : PassState :=
  { s with
    decisions :=
      s.decisions ++
        [{  job := job.id
            outcome := outcome
            state := state
            reservation := reservation
            note := note
            changed := state != job.state || reservation != job.reservation
            assignment :=
              if outcome.isPlaced then (s.placements.get? job.id).map Placement.assignment
              else none }] }

def keepWaiting (s : PassState) (job : Job) (note : Note) : PassState :=
  s.decide job .stillWaiting .waiting .none note

/-- Takes back all that a placement holds. -/
def abandon (s : PassState) (job : Int) : PassState :=
  { s with
    ledger := match s.claims.get? job with | some n => s.ledger.release n | none => s.ledger
    claims := s.claims.erase job
    placements := s.placements.erase job
    reservations := s.reservations.erase job }

/-- Marks the active best-effort jobs that hold some of the resources, and tells which they are. -/
def evict (s : PassState) (resources : OrdinalSet) : PassState × List Int :=
  let blockers := (s.bestEffort.filter fun e => !(e.2 ∩ resources).isEmpty).map (·.1)
  ({ s with victims := s.victims ++ blockers }, blockers)

end PassState
end ClusterPlan
