import ClusterPlan.Pass.Basic
import ClusterPlan.Store

/-!
Passes over a store. Everything is fetched before the pass decides and written after it. A failed
fetch fails the pass; failed writes and deliveries become notices and never undo a decision.
-/

namespace ClusterPlan

/-- What is told about a job whose state or reservation changed. -/
structure JobEvent where
  job : Int
  state : JobState
  message : String
  deriving DecidableEq, Repr

inductive Notifier where
  | recording
  | silent
  | unreachable
  deriving DecidableEq, Repr

inductive PowerControl where
  | missing
  | recording (lead : Option Int)
  | broken (reason : String)
  deriving DecidableEq, Repr

namespace PowerControl

/-- The seconds that waking a node takes, where the power control knows them. -/
def lead? : PowerControl → Option Int
  | recording lead => lead
  | missing | broken _ => none

end PowerControl

structure Controller where
  config : Config
  order : JobOrder
  notifier : Notifier
  power : PowerControl
  matcher : Matcher

/-- A pass over a store and all that it caused. -/
structure CycleResult where
  report : Report
  store : Store
  matcher : Matcher
  events : List JobEvent
  applied : List EnergyDecision
  notices : List Notice

/-- A store after writes, with the notices about those that failed. -/
abbrev WriteLog := Store × List Notice

namespace WriteLog

/-- Tries a write; if it fails, the store stays and the failure is noted. -/
def attempt (w : WriteLog) (write : Store → Except Error Store) (note : Error → Notice) :
    WriteLog :=
  match write w.1 with
  | .ok store => (store, w.2)
  | .error e => (w.1, w.2 ++ [note e])

def storeDecision (w : WriteLog) (d : Decision) : WriteLog :=
  let w :=
    w.attempt (fun s => s.updateJobState d.job d.state d.note.text) (.stateNotStored d.state d.job)
  if d.reservation == .none then w
  else
    w.attempt (fun s => s.updateReservation d.job d.reservation)
      (.reservationNotStored d.reservation d.job)

/-- Writes a report: drops, new rows, kill requests, then the changed jobs. -/
def storeReport (w : WriteLog) (r : Report) : WriteLog :=
  let w :=
    if r.dropped.isEmpty then w
    else w.attempt (fun s => s.dropRows r.dropped) (.dropFailed r.dropped.length r.now)
  let w :=
    if r.newRows.isEmpty then w
    else w.attempt (fun s => s.commitRows r.newRows) (.commitFailed r.newRows.length r.now)
  let w :=
    if r.kills.isEmpty then w else w.attempt (fun s => s.requestKills r.kills) (.killFailed r.kills)
  r.changes.foldl storeDecision w

end WriteLog

namespace Controller

/-- The power control's own lead, else the configured one, else none. -/
def wakeLead (c : Controller) : Int :=
  match c.power.lead? with
  | some lead => lead
  | none => (c.config.energy.map EnergySaving.wakeup).getD 0

/-- The situation that a pass starts from, and the store with its catalog. -/
def fetch (c : Controller) (store : Store) (now : Int) : Except Error (Store × Situation) := do
  let (store, catalog) ← store.fetchCatalog
  let active ← store.activeJobs
  let waiting ← c.config.queues.mapM store.waitingJobs
  return (store,
    { now := now
      catalog := catalog
      gantt := store.gantt
      active := active
      waiting := waiting.flatten
      wakeLead := c.wakeLead })

def deliver (c : Controller) (r : Report) : List JobEvent × List Notice :=
  match c.notifier with
  | .recording => (r.changes.map fun d => ⟨d.job, d.state, d.note.text⟩, [])
  | .silent => ([], [])
  | .unreachable =>
      ([], r.changes.map fun d => .notDelivered d.job (.outage (.notDelivered d.job)))

def applyPower (c : Controller) (r : Report) : List EnergyDecision × List Notice :=
  match r.powerOrder?, c.power with
  | none, _ => ([], [])
  | some d, .recording _ => ([d], [])
  | some _, .broken reason => ([], [.powerFailed r.now (.outage (.other reason))])
  | some _, .missing => ([], [.powerUnattended r.now])

def run (c : Controller) (store : Store) (now : Int) : Except Error CycleResult := do
  let (store, situation) ← c.fetch store now
  let frame : Frame :=
    { situation with config := c.config, order := c.order, remembersFits := true }
  let result := frame.run c.matcher
  let (store, writeNotices) := WriteLog.storeReport (store, []) result.report
  let (events, deliveryNotices) := c.deliver result.report
  let (applied, powerNotices) := c.applyPower result.report
  return {
    report := result.report
    store := store
    matcher := result.matcher
    events := events
    applied := applied
    notices := result.notices ++ writeNotices ++ deliveryNotices ++ powerNotices }

end Controller
end ClusterPlan
