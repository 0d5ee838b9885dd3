import ClusterPlan.Job
import ClusterPlan.Pass.Note

/-!
Remarks for the operator: what a pass had to put up with, and what went wrong around it.
-/

namespace ClusterPlan

inductive Severity where
  | warning
  | failure
  deriving DecidableEq, Repr

namespace Severity

def text : Severity → String
  | warning => "WARN"
  | failure => "ERROR"

end Severity

inductive Notice where
  | unknownQueue (job : Int) (queue : Name .queue)
  | unknownRowResources (job : Int) (cause : Error)
  | reservationWithoutRow (job : Int)
  | reservationDelayed (job : Int) (note : Note)
  | dropFailed (count : Nat) (now : Int) (cause : Error)
  | commitFailed (count : Nat) (now : Int) (cause : Error)
  | killFailed (jobs : List Int) (cause : Error)
  | stateNotStored (state : JobState) (job : Int) (cause : Error)
  | reservationNotStored (flag : Reservation) (job : Int) (cause : Error)
  | notDelivered (job : Int) (cause : Error)
  | powerFailed (now : Int) (cause : Error)
  | powerUnattended (now : Int)
  deriving DecidableEq, Repr

namespace Notice

def severity : Notice → Severity
  | unknownQueue .. | unknownRowResources .. | reservationWithoutRow .. => .warning
  | reservationDelayed .. | notDelivered .. | powerUnattended .. => .warning
  | dropFailed .. | commitFailed .. | killFailed .. | stateNotStored .. => .failure
  | reservationNotStored .. | powerFailed .. => .failure

def text : Notice → String
  | unknownQueue job queue =>
      let name := queue.text
      s!"Job {job} is in queue '{name}', which is not configured. It is ignored."
  | unknownRowResources job cause =>
      let reason := cause.message
      s!"Gantt entry of job {job} refers to resources outside the catalog ({reason}). Unknown ids are ignored."
  | reservationWithoutRow job =>
      s!"Reservation of job {job} has no Gantt entry. Placing it again."
  | reservationDelayed job note => s!"Job {job}: " ++ note.text
  | dropFailed count now cause =>
      s!"Failed to drop {count} Gantt entr(ies) after the pass at {now}: " ++ cause.message
  | commitFailed count now cause =>
      s!"Failed to commit {count} Gantt entr(ies) after the pass at {now}: " ++ cause.message
  | killFailed jobs cause =>
      let names := Text.join ", " (jobs.map fun j => s!"JobId({j})")
      s!"Failed to request the kill of best-effort job(s) [{names}]: " ++ cause.message
  | stateNotStored state job cause =>
      let name := state.text
      s!"Failed to store state {name} of job {job}: " ++ cause.message
  | reservationNotStored flag job cause =>
      let name := flag.text
      s!"Failed to store reservation flag {name} of job {job}: " ++ cause.message
  | notDelivered job cause => s!"Notification for job {job} was not delivered: " ++ cause.message
  | powerFailed now cause =>
      s!"Energy executor failed to apply the decision of the pass at {now}: " ++ cause.message
  | powerUnattended now =>
      s!"Energy decision of the pass at {now} is dropped: no energy executor is attached."

def line (n : Notice) : String := n.severity.text ++ " " ++ n.text

end Notice
end ClusterPlan
