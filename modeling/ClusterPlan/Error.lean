import ClusterPlan.Filter.Parser
import ClusterPlan.Quota.Dimension
import ClusterPlan.Request.Basic
import ClusterPlan.Time

/-!
Everything that can go wrong, by cause, and the one wording of each cause.
-/

namespace ClusterPlan

/-- Why a request is not one. -/
inductive RequestFault where
  | filter (fault : Filter.Fault)
  | unknownFilterProperty (expression property : String)
  | emptyPart (request : String)
  | missingBrace (request : String)
  | unbalanced (request : String)
  | levelForm (level request : String)
  | levelCount (level request : String)
  | levelUnusable (level request : String)
  | noLevels (request : String)
  | walltimeNotPositive (alternative walltime : Int)
  | noParts (alternative : Int)
  | partWithoutLevel (part : Part)
  | unknownLevelProperty (part : Part) (property : String)
  | zeroCount (part : Part) (property : String)
  | noAlternatives (job : Int)
  | noRequestedStart (job : Int)
  deriving DecidableEq, Repr

/-- Why a well-formed request can never be met. -/
inductive Shortage where
  | tooLong (alternative walltime : Int)
  | nothingMatches (part : Part)
  | tooFewGroups (part : Part) (level : Level) (found : Nat)
  | clusterTooSmall (alternative : Int)
  deriving DecidableEq, Repr

/-- Why data of a platform do not fit together. -/
inductive ModelFault where
  | duplicateResource (id : Int)
  | unknownResourceState (text : String)
  | unknownJobState (text : String)
  | unknownReservation (text : String)
  | unsupportedProperty (property : String) (resource : Int) (value : String)
  | alreadySubmitted (job : Int)
  | twoAlternatives (position : Nat) (job first second : Int)
  | twoWalltimes (alternative job first second : Int)
  | twoFilters (part : Nat) (alternative job : Int)
  | repeatedLevel (level part : Nat) (alternative job : Int)
  deriving DecidableEq, Repr

inductive ConfigFault where
  | unknownPolicy (text : String)
  | maxTime (given : Int)
  | securityTime (given : Int)
  | rulesFileNotLoaded (file : String)
  | negativeEnergyTime
  | keyForm (key : String)
  | limitCount (key : String)
  | limitForm (value : String)
  | limitFactor (text : String)
  | limitText (text : String)
  deriving DecidableEq, Repr

/-- What the store refuses to do while it takes no writes. -/
inductive StoreWrite where
  | commit
  | drop
  | stateUpdate
  | reservationUpdate
  | killRequest
  deriving DecidableEq, Repr

inductive Outage where
  | writeRefused (write : StoreWrite)
  | jobNotStored (job : Int)
  | notDelivered (job : Int)
  | other (reason : String)
  deriving DecidableEq, Repr

inductive Error where
  | unreadableFile
  | malformedDocument
  | model (fault : ModelFault)
  | config (fault : ConfigFault)
  | request (fault : RequestFault)
  | unsatisfiable (shortage : Shortage)
  | quota (dimension : Dimension)
  | startPassed (job requestedStart now : Int)
  | unknownResource (id : Int)
  | outage (cause : Outage)
  deriving DecidableEq, Repr

namespace RequestFault

def message : RequestFault → String
  | filter fault => fault.message
  | unknownFilterProperty expression property =>
      s!"Filter '{expression}' refers to unknown property '{property}'."
  | emptyPart request => s!"Empty part in resource request '{request}'."
  | missingBrace request => s!"Missing '\x7d' in resource request '{request}'."
  | unbalanced request => s!"Unbalanced braces or quotes in resource request '{request}'."
  | levelForm level request =>
      s!"Level '{level}' of resource request '{request}' is not of the form name=count."
  | levelCount level request =>
      s!"Level '{level}' of resource request '{request}' has an invalid count."
  | levelUnusable level request =>
      s!"Level '{level}' of resource request '{request}' must name a property and a positive count."
  | noLevels request => s!"Resource request '{request}' has a part without hierarchy levels."
  | walltimeNotPositive alternative walltime =>
      s!"Alternative {alternative} has a non-positive walltime ({walltime})."
  | noParts alternative => s!"Alternative {alternative} requests no resources."
  | partWithoutLevel part =>
      let shown := part.text
      s!"Request '{shown}' has no hierarchy level."
  | unknownLevelProperty part property =>
      let shown := part.text
      s!"Request '{shown}' groups by unknown property '{property}'."
  | zeroCount part property =>
      let shown := part.text
      s!"Request '{shown}' asks for zero '{property}'."
  | noAlternatives job => s!"Job {job} has no resource request."
  | noRequestedStart job => s!"Reservation of job {job} has no requested start."

end RequestFault

namespace Shortage

def message : Shortage → String
  | tooLong alternative walltime =>
      let horizon := Time.lastInstant
      s!"Alternative {alternative} lasts {walltime}s, past the end of the scheduling horizon ({horizon})."
  | nothingMatches part =>
      let shown := part.text
      s!"No resource matches request '{shown}'."
  | tooFewGroups part level found =>
      let shown := part.text
      let count := level.count
      let property := level.property
      s!"Request '{shown}' needs {count} '{property}' but only {found} match."
  | clusterTooSmall alternative =>
      s!"Alternative {alternative} cannot be satisfied by the resources of the cluster."

end Shortage

namespace ModelFault

def message : ModelFault → String
  | duplicateResource id => s!"Resource id {id} appears more than once in the catalog."
  | unknownResourceState text => s!"Unknown resource state '{text}'."
  | unknownJobState text => s!"Unknown job state '{text}'."
  | unknownReservation text => s!"Unknown reservation flag '{text}'."
  | unsupportedProperty property resource value =>
      s!"Property '{property}' of resource {resource} has unsupported value {value}."
  | alreadySubmitted job => s!"Job {job} is already submitted."
  | twoAlternatives position job first second =>
      s!"Position {position} of job {job} holds two alternatives ({first} and {second})."
  | twoWalltimes alternative job first second =>
      s!"Alternative {alternative} of job {job} is described with two walltimes ({first} and {second})."
  | twoFilters part alternative job =>
      s!"Request part {part} of alternative {alternative} of job {job} has conflicting filters."
  | repeatedLevel level part alternative job =>
      s!"Level {level} of request part {part} of alternative {alternative} of job {job} appears twice."

end ModelFault

namespace ConfigFault

def message : ConfigFault → String
  | unknownPolicy text => s!"Unknown scheduling policy '{text}'."
  | maxTime given =>
      let last := Time.lastInstant
      s!"maxTime must lie in (0, {last}], got {given}."
  | securityTime given =>
      let last := Time.lastInstant
      s!"securityTime must lie in [0, {last}], got {given}."
  | rulesFileNotLoaded file => s!"Quota rules file '{file}' has not been loaded."
  | negativeEnergyTime => "Energy saving durations must not be negative."
  | keyForm key => s!"Quota key '{key}' must have four comma-separated components."
  | limitCount key => s!"Quota rule '{key}' must have exactly three limits."
  | limitForm value => s!"Quota limit '{value}' must be a number or a string."
  | limitFactor text => s!"Quota limit '{text}' has an invalid factor."
  | limitText text => s!"Quota limit '{text}' is not understood."

end ConfigFault

namespace StoreWrite

def text : StoreWrite → String
  | commit => "Gantt commit"
  | drop => "Gantt drop"
  | stateUpdate => "job state update"
  | reservationUpdate => "reservation update"
  | killRequest => "frag request"

end StoreWrite

namespace Outage

def message : Outage → String
  | writeRefused write =>
      let operation := write.text
      s!"Store rejected {operation}: storage unavailable."
  | jobNotStored job => s!"Job {job} is not stored."
  | notDelivered job => s!"Could not deliver event of job {job}: transport unavailable."
  | other reason => reason

end Outage

namespace Error

def message : Error → String
  | unreadableFile => "File not found or could not be read"
  | malformedDocument => "Failed to parse JSON input"
  | model fault => "Failed to build internal domain model: " ++ fault.message
  | config fault => "Invalid configuration: " ++ fault.message
  | request fault => "Invalid resource request: " ++ fault.message
  | unsatisfiable shortage => "Resource request cannot be satisfied: " ++ shortage.message
  | quota dimension => "Quota exceeded: " ++ dimension.text
  | startPassed job requestedStart now =>
      s!"Reservation of job {job} requested start {requestedStart} but it is already {now}"
  | unknownResource id => s!"Unknown resource: {id}"
  | outage cause => "Collaborator failure: " ++ cause.message

end Error
end ClusterPlan
