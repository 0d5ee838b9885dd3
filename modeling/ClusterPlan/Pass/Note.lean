import ClusterPlan.Error

/-!
What a decision says about its reason, and the wording of it.
-/

namespace ClusterPlan

inductive Obstacle where
  | unresolved
  | fault (e : Error)
  | notEnoughAt (start alternative : Int)
  | notEnough
  | noRoom
  deriving DecidableEq, Repr

namespace Obstacle

def text : Obstacle → String
  | unresolved => "no alternative could be resolved"
  | fault e => e.message
  | notEnoughAt start alternative =>
      s!"not enough resources free at {start} for alternative {alternative}"
  | notEnough => "not enough free resources"
  | noRoom => "no room before the end of the scheduling horizon"

end Obstacle

inductive Note where
  | launched (alternative : Int)
  | launchedAfterKills (alternative : Int) (victims : List Int)
  | expected (start alternative : Int)
  | behind (job : Int)
  | cannotStart (obstacle : Obstacle)
  | notScheduled (obstacle : Obstacle)
  | reservationStarts (start now : Int)
  | reservationAwaitsKills (victims : List Int)
  | reservationAwaitsResources (missing : List Int)
  | reservationExpired (first last : Int)
  | reservationPlaced (start alternative : Int)
  | reservationRefused (obstacle : Obstacle)
  | faulty (e : Error)
  deriving DecidableEq, Repr

namespace Note

def idList (ids : List Int) : String := Text.join ", " (ids.map toString)

def text : Note → String
  | launched alternative => s!"Launched with alternative {alternative}."
  | launchedAfterKills alternative victims =>
      let names := idList victims
      s!"Starts with alternative {alternative} once best-effort job(s) {names} are killed."
  | expected start alternative => s!"Expected to start at {start} with alternative {alternative}."
  | behind job => s!"Waiting behind job {job}."
  | cannotStart obstacle =>
      let reason := obstacle.text
      s!"Cannot start now: {reason}."
  | notScheduled obstacle =>
      let reason := obstacle.text
      s!"Not scheduled: {reason}."
  | reservationStarts start now => s!"Reservation starts (scheduled at {start}, now {now})."
  | reservationAwaitsKills victims =>
      let names := idList victims
      s!"Reservation start delayed: best-effort job(s) {names} are being killed."
  | reservationAwaitsResources missing =>
      let names := idList missing
      s!"Reservation start delayed: resources [{names}] are not Alive."
  | reservationExpired first last => s!"Reservation window [{first}, {last}] has passed."
  | reservationPlaced start alternative =>
      s!"Reservation scheduled at {start} with alternative {alternative}."
  | reservationRefused obstacle =>
      let reason := obstacle.text
      s!"Reservation cannot be honored: {reason}."
  | faulty e => e.message

end Note
end ClusterPlan
