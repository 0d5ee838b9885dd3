import ClusterPlan.Job
import ClusterPlan.Quota.Rule

/-!
The claims on quotas during one pass. A claim holds resources over a window; a check asks whether one
more claim keeps every enforced rule, at each second of the window for resources and running jobs,
and in sum for resource time. For each dimension the most specific of the rules that bound it and
match the claimant are enforced.
-/

namespace ClusterPlan

structure Claim where
  claimant : Claimant
  units : Nat
  first : Int
  last : Int
  deriving DecidableEq, Repr

namespace Claim

def meets (c : Claim) (first last : Int) : Bool := c.first ≤ last && first ≤ c.last

def heldAt (c : Claim) (t : Int) : Bool := c.first ≤ t && t ≤ c.last

def unitSeconds (c : Claim) : Nat := c.units * (c.last - c.first + 1).toNat

/-- How much the claim takes of a dimension that is counted at an instant. -/
def weight (d : Dimension) (c : Claim) : Nat :=
  match d with
  | .jobs => 1
  | .units | .unitTime => c.units

end Claim

structure CappedRule where
  key : RuleKey
  caps : Caps
  deriving DecidableEq, Repr

/-- Claims by the number under which they were recorded. -/
structure Ledger where
  rules : List CappedRule
  claims : List (Nat × Claim)
  next : Nat
  deriving DecidableEq, Repr

namespace Ledger

/-- No claims yet; `all` is the number of schedulable resources. -/
def ofRules (rules : List Rule) (all : Nat) : Ledger :=
  ⟨rules.map fun r => ⟨r.key, r.limits.resolve all⟩, [], 0⟩

/-- A ledger without rules accepts everything. -/
def unlimited : Ledger := ⟨[], [], 0⟩

/-- The values of a job that rules look at. Its type is the first of its types that some rule
names, `*` if none does. -/
def claimant (l : Ledger) (job : Job) : Claimant where
  queue := job.queue.text
  project := job.project.text
  jobType :=
    (job.types.find? fun t => l.rules.any fun r => r.key.jobType == .exactly t).getD "*"
  user := job.user.text

def matching (l : Ledger) (c : Claimant) (d : Dimension) : List CappedRule :=
  l.rules.filter fun r => (r.caps.get d).isSome && r.key.accepts c

/-- The most specific of the matching rules. -/
def enforced (l : Ledger) (c : Claimant) (d : Dimension) : List CappedRule :=
  let candidates := l.matching c d
  candidates.filter fun r => candidates.all fun s => s.key.specificity ≤ r.key.specificity

/-- The claims that count with the claimant under a key and meet the window. -/
def counted (l : Ledger) (k : RuleKey) (c : Claimant) (first last : Int) : List Claim :=
  (l.claims.map (·.2)).filter fun claim => k.countsWith c claim.claimant && claim.meets first last

def weightAt (d : Dimension) (claims : List Claim) (t : Int) : Nat :=
  Number.total ((claims.filter fun c => c.heldAt t).map (Claim.weight d))

/-- The largest weight at any second of the window. It is reached at the first second or where a
claim starts. -/
def peak (d : Dimension) (claims : List Claim) (first last : Int) : Nat :=
  let starts := (claims.map Claim.first).filter fun t => first < t && t ≤ last
  ((first :: starts).map (weightAt d claims)).foldl max 0

/-- What a rule counts in a dimension when the claim is added. -/
def usage (l : Ledger) (k : RuleKey) (d : Dimension) (new : Claim) : Nat :=
  let claims := l.counted k new.claimant new.first new.last
  match d with
  | .units | .jobs => peak d claims new.first new.last + new.weight d
  | .unitTime => Number.total (claims.map Claim.unitSeconds) + new.unitSeconds

def allows (l : Ledger) (d : Dimension) (new : Claim) (r : CappedRule) : Bool :=
  match r.caps.get d with
  | some cap => l.usage r.key d new ≤ cap
  | none => true

/-- The first dimension in which the claim would break an enforced rule. -/
def refusal? (l : Ledger) (new : Claim) : Option Dimension :=
  Dimension.all.find? fun d => !(l.enforced new.claimant d).all (l.allows d new)

/-- Adds a claim that is already decided. -/
def record (l : Ledger) (new : Claim) : Ledger × Nat :=
  ({ l with claims := l.claims ++ [(l.next, new)], next := l.next + 1 }, l.next)

/-- Adds a claim if every enforced rule allows it. -/
def reserve (l : Ledger) (new : Claim) : Except Dimension (Ledger × Nat) :=
  match l.refusal? new with
  | some d => .error d
  | none => .ok (l.record new)

def holds (l : Ledger) (number : Nat) : Bool := l.claims.any fun e => e.1 == number

/-- Takes a claim back; a number that is not held changes nothing. -/
def release (l : Ledger) (number : Nat) : Ledger :=
  { l with claims := l.claims.filter fun e => e.1 != number }

end Ledger
end ClusterPlan
