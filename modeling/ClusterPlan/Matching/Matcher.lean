import ClusterPlan.Job
import ClusterPlan.Matching.Candidate
import ClusterPlan.Matching.FilterMemo

/-!
Matching alternatives against a catalog. The matcher remembers the candidate of each shape until it
is bound to another snapshot.
-/

namespace ClusterPlan

/-- Filters that admit exactly the default type. -/
def isTrivialFilter (expression : String) : Bool :=
  let compact := Text.lower (Text.dropBlanks expression)
  compact == "" || compact == "type='default'" || compact == "type=\"default\""

/-- Both filters as one, if they restrict anything. -/
def combineFilters (jobFilter partFilter : Option String) : Option String :=
  let parts := (jobFilter.toList ++ partFilter.toList).map Text.trim
  match parts.filter (!isTrivialFilter ·) with
  | [] => none
  | [one] => some one
  | many => some (Text.join " AND " (many.map fun e => "(" ++ e ++ ")"))

def Catalog.groupLevel (c : Catalog) (part : Part) (admissible : OrdinalSet) (l : Level) :
    Except Error GroupedLevel :=
  if !c.hasProperty l.property then .error (.request (.unknownLevelProperty part l.property))
  else if l.count = 0 then .error (.request (.zeroCount part l.property))
  else
    let groups := c.groups l.property admissible
    if groups.length < l.count then .error (.unsatisfiable (.tooFewGroups part l groups.length))
    else .ok ⟨l.property, l.count, groups⟩

def Catalog.groupPart (c : Catalog) (part : Part) (admissible : OrdinalSet) :
    Except Error CandidatePart :=
  if admissible.isEmpty then .error (.unsatisfiable (.nothingMatches part))
  else do return ⟨admissible, ← part.levels.mapM (c.groupLevel part admissible)⟩

/-- What is wrong with an alternative whatever the catalog. -/
def Alternative.fault? (a : Alternative) : Option Error :=
  if a.walltime ≤ 0 then some (.request (.walltimeNotPositive a.id a.walltime))
  else if Time.lastInstant < a.walltime then some (.unsatisfiable (.tooLong a.id a.walltime))
  else if a.parts = [] then some (.request (.noParts a.id))
  else none

/-- The candidate, if it can be chosen from the whole cluster. -/
def Catalog.checkCandidate (c : Catalog) (a : Alternative) (parts : List CandidatePart) :
    Except Error Candidate :=
  let candidate : Candidate := ⟨a.id, a.walltime, parts⟩
  if (candidate.pick? c.schedulable).isNone then
    .error (.unsatisfiable (.clusterTooSmall a.id))
  else .ok candidate

namespace FilterMemo

/-- One part of an alternative, its filter looked up in the memory. -/
def matchPart (m : FilterMemo) (c : Catalog) (jobFilter : Option String) (part : Part) :
    FilterMemo × Except Error CandidatePart :=
  if part.levels = [] then (m, .error (.request (.partWithoutLevel part)))
  else
    match combineFilters jobFilter part.filter with
    | none => (m, c.groupPart part c.defaults)
    | some expression =>
        match m.admitted c expression with
        | (m, .ok admissible) => (m, c.groupPart part admissible)
        | (m, .error e) => (m, .error e)

def matchParts (m : FilterMemo) (c : Catalog) (jobFilter : Option String) :
    List Part → FilterMemo × Except Error (List CandidatePart)
  | [] => (m, .ok [])
  | part :: rest =>
      match m.matchPart c jobFilter part with
      | (m, .error e) => (m, .error e)
      | (m, .ok first) =>
          match matchParts m c jobFilter rest with
          | (m, .error e) => (m, .error e)
          | (m, .ok others) => (m, .ok (first :: others))

end FilterMemo

structure Matcher where
  filters : FilterMemo
  known : Dictionary Shape Candidate

namespace Matcher

def empty : Matcher := ⟨.empty, []⟩

/-- Forgets everything derived from another snapshot. -/
def bind (m : Matcher) (c : Catalog) : Matcher where
  filters := m.filters.bind c
  known := if m.filters.isStale c then [] else m.known

def candidate (m : Matcher) (c : Catalog) (jobFilter : Option String) (a : Alternative) :
    Matcher × Except Error Candidate :=
  let m := m.bind c
  let shape := a.shape jobFilter
  match m.known.get? shape with
  | some found => (m, .ok { found with id := a.id })
  | none =>
      match a.fault? with
      | some e => (m, .error e)
      | none =>
          match m.filters.matchParts c jobFilter a.parts with
          | (filters, .error e) => ({ m with filters }, .error e)
          | (filters, .ok parts) =>
              match c.checkCandidate a parts with
              | .error e => ({ m with filters }, .error e)
              | .ok found => (⟨filters, m.known.put shape found⟩, .ok found)

/-- Matches alternatives in order; a fault in one does not keep the others from being matched. -/
def candidates (m : Matcher) (c : Catalog) (jobFilter : Option String) :
    List Alternative → Matcher × List (Except Error Candidate)
  | [] => (m, [])
  | a :: rest =>
      let (m, first) := m.candidate c jobFilter a
      let (m, others) := candidates m c jobFilter rest
      (m, first :: others)

def forJob (m : Matcher) (c : Catalog) (job : Job) : Matcher × List (Except Error Candidate) :=
  m.candidates c job.filter job.alternatives

/-- The first fault of a job that is more than a lack of resources. -/
def firstFault? : List (Except Error Candidate) → Option Error
  | [] => none
  | .error (.unsatisfiable _) :: rest | .ok _ :: rest => firstFault? rest
  | .error e :: _ => some e

/-- Whether a job may be submitted: it has an alternative, and all of them are well formed. -/
def validate (m : Matcher) (c : Catalog) (job : Job) : Matcher × Except Error Unit :=
  if job.alternatives = [] then (m, .error (.request (.noAlternatives job.id)))
  else
    let (m, results) := m.forJob c job
    match firstFault? results with
    | some e => (m, .error e)
    | none => (m, .ok ())

end Matcher
end ClusterPlan
