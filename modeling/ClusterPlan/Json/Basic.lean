import ClusterPlan.Decimal.Binary64

/-!
JSON values. A literal can be well formed and still denote nothing: a number past every finite
value, or a text with half a surrogate pair. Such a literal is kept as `unreadable`, and only
whoever asks for its value fails.
-/

namespace ClusterPlan

inductive Json where
  | null
  | bool (b : Bool)
  | int (n : Int)
  | real (x : Binary64)
  | text (s : String)
  | unreadable
  | array (items : List Json)
  | object (fields : List (String × Json))

namespace Json

instance : Inhabited Json := ⟨null⟩

/-- Adds a field, or replaces the value of the field of that name. -/
def putField (name : String) (value : Json) : List (String × Json) → List (String × Json)
  | [] => [(name, value)]
  | f :: rest =>
      if name < f.1 then (name, value) :: f :: rest
      else if name = f.1 then (name, value) :: rest
      else f :: putField name value rest

/-- Fields in ascending order of their names, of equal names the last. -/
def settleFields (fields : List (String × Json)) : List (String × Json) :=
  fields.foldl (fun acc f => putField f.1 f.2 acc) []

mutual

/-- The value with the fields of every object settled, if all of it is readable. -/
def settled? : Json → Option Json
  | .unreadable => none
  | .array items => (settledList? items).map .array
  | .object fields => (settledFields? fields).map fun fs => .object (settleFields fs)
  | j => some j

def settledList? : List Json → Option (List Json)
  | [] => some []
  | j :: rest => do
      let first ← settled? j
      let others ← settledList? rest
      return first :: others

def settledFields? : List (String × Json) → Option (List (String × Json))
  | [] => some []
  | (name, j) :: rest => do
      let first ← settled? j
      let others ← settledFields? rest
      return (name, first) :: others

end

mutual

/-- How many arrays and objects stand inside one another. -/
def depth : Json → Nat
  | .array items => depthList items + 1
  | .object fields => depthFields fields + 1
  | _ => 0

def depthList : List Json → Nat
  | [] => 0
  | j :: rest => max (depth j) (depthList rest)

def depthFields : List (String × Json) → Nat
  | [] => 0
  | (_, j) :: rest => max (depth j) (depthFields rest)

end

end Json
end ClusterPlan
