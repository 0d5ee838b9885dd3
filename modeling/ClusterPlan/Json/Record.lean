import ClusterPlan.Json.Basic
import ClusterPlan.Number

/-!
Reading typed data out of JSON values. A record is written as an object, whose unknown fields do
not matter and whose known ones occur once, or as an array of its fields in their order.
-/

namespace ClusterPlan.Json

def text? : Json → Option String
  | .text s => some s
  | _ => none

def bool? : Json → Option Bool
  | .bool b => some b
  | _ => none

def intWithin? (lo hi : Int) : Json → Option Int
  | .int n => if lo ≤ n ∧ n ≤ hi then some n else none
  | _ => none

def int? : Json → Option Int := intWithin? Number.leastInt Number.greatestInt

def count? (j : Json) : Option Nat := (intWithin? 0 Number.greatestCount j).map Int.toNat

def list? (read : Json → Option α) : Json → Option (List α)
  | .array items => items.mapM read
  | _ => none

/-- An object as a map: names ascending, of equal names the last, each value read. Every value
has to be readable. -/
def map? (read : Json → Option α) : Json → Option (List (String × α))
  | .object fields => do
      let entries ← fields.mapM fun f => do return (f.1, f.2, ← read f.2)
      (settleFields (entries.map fun e => (e.1, e.2.1))).mapM fun f => do return (f.1, ← read f.2)
  | _ => none

/-- Any value that nests at most `room` deep. -/
def any? (room : Nat) (j : Json) : Option Json := if j.depth ≤ room then j.settled? else none

/-- The known fields that a record gives, each at most once. -/
abbrev Record := List (String × Json)

def record? (names : List String) : Json → Option Record
  | .object fields =>
      let known := fields.filter fun f => names.contains f.1
      if (known.map (·.1)).eraseDups.length = known.length then some known else none
  | .array items => if items.length ≤ names.length then some (names.zip items) else none
  | _ => none

namespace Record

def required (r : Record) (name : String) (read : Json → Option α) : Option α :=
  (r.lookup name).bind read

def withDefault (r : Record) (name : String) (fallback : α) (read : Json → Option α) : Option α :=
  match r.lookup name with
  | none => some fallback
  | some j => read j

/-- A field that may be left out or null. -/
def optional (r : Record) (name : String) (read : Json → Option α) : Option (Option α) :=
  match r.lookup name with
  | none | some .null => some none
  | some j => (read j).map some

end Record
end ClusterPlan.Json
