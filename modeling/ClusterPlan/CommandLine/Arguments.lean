import ClusterPlan.Decimal.Reader
import ClusterPlan.Text.Basic

/-!
The arguments of the command line: options with one value each, as two words or joined by `=`. A value
that starts with a hyphen has to be joined.
-/

namespace ClusterPlan.CommandLine

structure Arguments where
  platform : String
  config : Option String
  now : Option Int
  passes : Nat
  interval : Int
  ganttCsv : Option String
  deriving DecidableEq, Repr

def optionNames : List String :=
  ["--platform", "--config", "--now", "--passes", "--interval", "--gantt-csv"]

/-- Whether a word may stand alone as the value of an option. -/
def isValue (word : String) : Bool := word == "-" || !word.startsWith "-"

/-- The options given, if the words are options with values and nothing else. -/
def options? : List String → Option (List (String × String))
  | [] | ["--"] => some []
  | word :: rest =>
      match Text.cut? '=' word with
      | some (name, value) =>
          if optionNames.contains name then (options? rest).map ((name, value) :: ·) else none
      | none =>
          match rest with
          | value :: rest =>
              if optionNames.contains word && isValue value then
                (options? rest).map ((word, value) :: ·)
              else none
          | [] => none

def value? (given : List (String × String)) (name : String) (fallback : α)
    (read : String → Option α) : Option α :=
  match given.lookup name with
  | none => some fallback
  | some text => read text

/-- A number of passes, up to the largest count. -/
def readPasses? (text : String) : Option Nat :=
  match Decimal.readInt? text with
  | some n => if 0 ≤ n ∧ n ≤ Number.greatestCount then some n.toNat else none
  | none => none

/-- The arguments, if every option is given at most once with a proper value. -/
def Arguments.read? (words : List String) : Option Arguments := do
  let given ← options? words
  if (given.map (·.1)).eraseDups.length ≠ given.length then none
  return {
    platform := ← given.lookup "--platform"
    config := given.lookup "--config"
    now := ← value? given "--now" none fun s => (Decimal.readInt? s).map some
    passes := ← value? given "--passes" 1 readPasses?
    interval := ← value? given "--interval" 60 Decimal.readInt?
    ganttCsv := given.lookup "--gantt-csv" }

end ClusterPlan.CommandLine
