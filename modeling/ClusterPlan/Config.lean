import ClusterPlan.Catalog.Resource
import ClusterPlan.Job
import ClusterPlan.Quota.Rule

/-!
The configuration of a scheduler.
-/

namespace ClusterPlan

inductive Policy where
  /-- Jobs start now or not at all, and the first that cannot start holds up those behind it. -/
  | fifo
  /-- Jobs get the earliest start there is, and later jobs may fill earlier holes. -/
  | backfill
  deriving DecidableEq, Repr

namespace Policy

def text : Policy → String
  | fifo => "fifo"
  | backfill => "backfill"

/-- The policy of that name, in any case. -/
def read (name : String) : Except Error Policy :=
  let name := Text.lower name
  if name = fifo.text then .ok fifo
  else if name = backfill.text then .ok backfill
  else .error (.config (.unknownPolicy name))

end Policy

/-- Durations of energy saving, in seconds. -/
structure EnergySaving where
  /-- How long a resource has to be idle before it may sleep. -/
  idle : Int
  /-- How long going to sleep takes. -/
  sleep : Int
  /-- How long waking up takes where nobody knows better. -/
  wakeup : Int
  deriving DecidableEq, Repr

structure Config where
  /-- Queues, the most important first. -/
  queues : List (Name .queue)
  policy : Policy
  /-- The last second at which anything may be planned. -/
  maxTime : Int
  /-- How long resources stay held after the walltime of a job. -/
  securityTime : Int
  rules : List Rule
  energy : Option EnergySaving
  resourceOrder : List String
  /-- Other names for the levels of requests. -/
  aliases : Dictionary String String

namespace Config

def defaultAliases : Dictionary String String :=
  [("nodes", Resource.nodeProperty), ("host", Resource.nodeProperty), ("core", Resource.idProperty)]

def default : Config where
  queues := [⟨"default"⟩]
  policy := .fifo
  maxTime := Time.lastInstant
  securityTime := 60
  rules := []
  energy := none
  resourceOrder := []
  aliases := defaultAliases

end Config
end ClusterPlan
