import ClusterPlan.Decimal.Reader
import ClusterPlan.Error
import ClusterPlan.Json.Printer
import ClusterPlan.Text.Blank

/-!
Limits as they are configured. A negative number does not bound; `ALL` stands for the number of
schedulable resources and may have a factor.
-/

namespace ClusterPlan

inductive Limit where
  | unbounded
  | fixed (x : Binary64)
  | ofAll (factor : Binary64)
  deriving DecidableEq, Repr

namespace Limit

def ofNumber (x : Binary64) : Limit := if x.isNegative then unbounded else fixed x

/-- A limit written as text. Blanks and case do not matter. -/
def parse (text : String) : Except Error Limit :=
  let compact := Text.dropBlanks text
  let number : Except Error Limit :=
    match Decimal.readFloat? compact with
    | some x => .ok (ofNumber x)
    | none => .error (.config (.limitText text))
  if Text.sameIgnoringCase compact "all" then .ok (ofAll (.ofRatio 1 1))
  else
    match Text.cut? '*' compact with
    | some (factor, all) =>
        if Text.sameIgnoringCase all "all" then
          match Decimal.readFloat? factor with
          | some x => .ok (ofAll x)
          | none => .error (.config (.limitFactor text))
        else number
    | none => number

/-- A limit as it stands in a document; null does not bound. -/
def ofJson : Json → Except Error Limit
  | .int n => .ok (ofNumber (.ofInt n))
  | .real x => .ok (ofNumber x)
  | .text s => parse s
  | .null => .ok unbounded
  | j => .error (.config (.limitForm j.render))

/-- The number that bounds, when there are `all` schedulable resources. -/
def resolve (all : Nat) : Limit → Option Binary64
  | unbounded => none
  | fixed x => some x
  | ofAll factor => some (factor * .ofRatio all 1)

end Limit

/-- The three limits of a rule. Resource time is given in hours. -/
structure Limits where
  units : Limit
  jobs : Limit
  hours : Limit
  deriving DecidableEq, Repr

/-- The three bounds of a rule in whole numbers. Resource time is in seconds of one resource. -/
structure Caps where
  units : Option Nat
  jobs : Option Nat
  unitSeconds : Option Nat
  deriving DecidableEq, Repr

namespace Caps

def get (c : Caps) : Dimension → Option Nat
  | .units => c.units
  | .jobs => c.jobs
  | .unitTime => c.unitSeconds

end Caps

namespace Limits

def resolve (l : Limits) (all : Nat) : Caps where
  units := (l.units.resolve all).map Binary64.wholeBelow
  jobs := (l.jobs.resolve all).map Binary64.wholeBelow
  unitSeconds := (l.hours.resolve all).map fun h => (h * .ofRatio 3600 1).wholeBelow

end Limits
end ClusterPlan
