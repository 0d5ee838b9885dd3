import ClusterPlan.Text.Basic
import ClusterPlan.Text.Blank

/-!
What a job asks for. An alternative is a walltime and one or more parts; a part is a filter and a
hierarchy of levels, topmost first, each asking for a number of groups that share one property.
-/

namespace ClusterPlan

structure Level where
  property : String
  count : Nat
  deriving DecidableEq, Repr

structure Part where
  filter : Option String
  levels : List Level
  deriving DecidableEq, Repr

structure Alternative where
  id : Int
  walltime : Int
  parts : List Part
  deriving DecidableEq, Repr

/-- What two alternatives share when they need the same resources for the same time. -/
structure Shape where
  walltime : Int
  jobFilter : Option String
  parts : List Part
  deriving DecidableEq, Repr

namespace Level

def text (l : Level) : String := l.property ++ "=" ++ toString l.count

end Level

namespace Part

/-- The filter in braces, then the levels, all separated by slashes. -/
def text (p : Part) : String :=
  (match p.filter with
    | some f => "\x7b" ++ f ++ "\x7d" ++ (if p.levels = [] then "" else "/")
    | none => "") ++
    Text.join "/" (p.levels.map Level.text)

end Part

namespace Alternative

/-- The shape for a job with the given filter. Blanks around that filter do not matter, and a blank
filter is none. -/
def shape (a : Alternative) (jobFilter : Option String) : Shape where
  walltime := a.walltime
  jobFilter := (jobFilter.map Text.trim).filter (· ≠ "")
  parts := a.parts

end Alternative
end ClusterPlan
