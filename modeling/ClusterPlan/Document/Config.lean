import ClusterPlan.Config
import ClusterPlan.Json.Record

/-!
Documents that configure the scheduler, and those that hold quota rules.
-/

namespace ClusterPlan.Document

abbrev RuleMap := List (String × List Json)

/-- Reads a map of rules whose limits may nest `room` deep. -/
def readRules (room : Nat) : Json → Option RuleMap := Json.map? (Json.list? (Json.any? room))

structure QuotasEntry where
  enabled : Bool
  rules : RuleMap
  rulesFile : Option String

namespace QuotasEntry

def read (room : Nat) (j : Json) : Option QuotasEntry := do
  let r ← j.record? ["enabled", "rules", "rulesFile"]
  return ⟨← r.required "enabled" Json.bool?, ← r.withDefault "rules" [] (readRules room),
    ← r.optional "rulesFile" Json.text?⟩

end QuotasEntry

def readEnergy (j : Json) : Option EnergySaving := do
  let r ← j.record? ["idleTime", "sleepTime", "wakeupTime"]
  return ⟨← r.required "idleTime" Json.int?, ← r.required "sleepTime" Json.int?,
    ← r.withDefault "wakeupTime" 0 Json.int?⟩

structure ConfigEntry where
  queues : List String
  policy : Option String
  maxTime : Option Int
  securityTime : Option Int
  quotas : Option QuotasEntry
  energySaving : Option EnergySaving
  resourceOrder : List String
  hierarchyAliases : List (String × String)

namespace ConfigEntry

def fields : List String :=
  ["queues", "policy", "maxTime", "securityTime", "quotas", "energySaving", "resourceOrder",
    "hierarchyAliases"]

/-- Reads a configuration. Limits of quota rules may nest `room` deep. -/
def read (room : Nat) (j : Json) : Option ConfigEntry := do
  let r ← j.record? fields
  return {
    queues := ← r.withDefault "queues" [] (Json.list? Json.text?)
    policy := ← r.optional "policy" Json.text?
    maxTime := ← r.optional "maxTime" Json.int?
    securityTime := ← r.optional "securityTime" Json.int?
    quotas := ← r.optional "quotas" (QuotasEntry.read room)
    energySaving := ← r.optional "energySaving" readEnergy
    resourceOrder := ← r.withDefault "resourceOrder" [] (Json.list? Json.text?)
    hierarchyAliases := ← r.withDefault "hierarchyAliases" [] (Json.map? Json.text?) }

def horizon (e : ConfigEntry) : Except Error Int :=
  match e.maxTime with
  | none => .ok Time.lastInstant
  | some t =>
      if t ≤ 0 ∨ Time.lastInstant < t then .error (.config (.maxTime t)) else .ok t

def security (e : ConfigEntry) : Except Error Int :=
  match e.securityTime with
  | none => .ok Config.default.securityTime
  | some t =>
      if t < 0 ∨ Time.lastInstant < t then .error (.config (.securityTime t)) else .ok t

/-- The rules in force. A file of rules has to be read beforehand. -/
def rules (e : ConfigEntry) : Except Error (List Rule) :=
  match e.quotas with
  | none => .ok []
  | some q =>
      if !q.enabled then .ok []
      else
        match q.rulesFile with
        | some file => .error (.config (.rulesFileNotLoaded file))
        | none => Rule.ofMap q.rules

def energy (e : ConfigEntry) : Except Error (Option EnergySaving) :=
  match e.energySaving with
  | none => .ok none
  | some s =>
      if s.idle < 0 ∨ s.sleep < 0 ∨ s.wakeup < 0 then .error (.config .negativeEnergyTime)
      else .ok (some s)

def toConfig (e : ConfigEntry) : Except Error Config := do
  let policy ← match e.policy with | some text => Policy.read text | none => .ok .fifo
  let maxTime ← e.horizon
  let securityTime ← e.security
  let rules ← e.rules
  let energy ← e.energy
  return {
    queues := if e.queues.isEmpty then Config.default.queues else e.queues.map Name.mk
    policy := policy
    maxTime := maxTime
    securityTime := securityTime
    rules := rules
    energy := energy
    resourceOrder := e.resourceOrder
    aliases := Dictionary.putAll Config.defaultAliases e.hierarchyAliases }

end ConfigEntry

def readQuotas (j : Json) : Option RuleMap := do
  let r ← j.record? ["quotas"]
  r.withDefault "quotas" [] (readRules 124)

end ClusterPlan.Document
