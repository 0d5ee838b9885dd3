import ClusterPlan.Decimal.Reader
import ClusterPlan.Text.Basic
import ClusterPlan.Text.Blank

/-!
Filters on the properties of a resource. Two values compare as numbers if both are numbers, else
as text by code point. A comparison with a property that the resource lacks is never true.
-/

namespace ClusterPlan

inductive Comparison where
  | equal
  | notEqual
  | less
  | lessEqual
  | greater
  | greaterEqual
  deriving DecidableEq, Repr

namespace Comparison

def symbol : Comparison → String
  | equal => "="
  | notEqual => "!="
  | less => "<"
  | lessEqual => "<="
  | greater => ">"
  | greaterEqual => ">="

def accepts : Comparison → Ordering → Bool
  | equal, o => o == .eq
  | notEqual, o => o != .eq
  | less, o => o == .lt
  | lessEqual, o => o != .gt
  | greater, o => o == .gt
  | greaterEqual, o => o != .lt

end Comparison

/-- The order of two numbers; one that is no number equals every number. -/
def orderFloats (x y : Binary64) : Ordering :=
  if x.less y then .lt else if y.less x then .gt else .eq

def orderTexts (s t : String) : Ordering := if s < t then .lt else if t < s then .gt else .eq

/-- The order of two property values. Blanks around a number do not matter. -/
def orderValues (actual expected : String) : Ordering :=
  match Decimal.readFloat? (Text.trim actual), Decimal.readFloat? (Text.trim expected) with
  | some x, some y => orderFloats x y
  | _, _ => orderTexts actual expected

inductive Filter where
  | compare (property : String) (comparison : Comparison) (value : String)
  | among (property : String) (values : List String) (negated : Bool)
  | not (inner : Filter)
  | and (left right : Filter)
  | or (left right : Filter)
  deriving DecidableEq, Repr

namespace Filter

/-- Whether the filter is true of a resource with the given property values. -/
def holds (value : String → Option String) : Filter → Bool
  | compare property c expected =>
      match value property with
      | some actual => c.accepts (orderValues actual expected)
      | none => false
  | among property values negated =>
      match value property with
      | some actual => (values.any fun v => orderValues actual v == .eq) != negated
      | none => false
  | not inner => !inner.holds value
  | and left right => left.holds value && right.holds value
  | or left right => left.holds value || right.holds value

/-- The properties that the filter names, in the order of the text. -/
def mentions : Filter → List String
  | compare property _ _ | among property _ _ => [property]
  | not inner => inner.mentions
  | and left right | or left right => left.mentions ++ right.mentions

/-- The properties that the filter names, each once and in ascending order. -/
def properties (f : Filter) : List String := Text.ascending f.mentions

end Filter
end ClusterPlan
