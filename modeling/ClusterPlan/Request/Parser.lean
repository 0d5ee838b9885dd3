import ClusterPlan.Decimal.Reader
import ClusterPlan.Dictionary
import ClusterPlan.Error

/-!
The text form of a request: parts joined by `+`, each an optional filter in braces and levels of the
form `property=count`, all separated by slashes. Aliases replace the names of levels.
-/

namespace ClusterPlan.Request

def isQuote (c : Char) : Bool := c == '\'' || c == '"'

def consFirst (c : Char) : List (List Char) → List (List Char)
  | [] => [[c]]
  | part :: parts => (c :: part) :: parts

/-- The parts between the `+` signs that stand outside of braces and quotes. Fails if a quote or
a brace is left open, or more braces close than open. -/
def splitParts? (quote : Option Char) (depth : Int) : List Char → Option (List (List Char))
  | [] => if depth = 0 ∧ quote = none then some [[]] else none
  | c :: rest =>
      match quote with
      | some q => (splitParts? (if c = q then none else some q) depth rest).map (consFirst c)
      | none =>
          if isQuote c then (splitParts? (some c) depth rest).map (consFirst c)
          else if c = '{' then (splitParts? none (depth + 1) rest).map (consFirst c)
          else if c = '}' then (splitParts? none (depth - 1) rest).map (consFirst c)
          else if c = '+' ∧ depth = 0 then (splitParts? none depth rest).map ([] :: ·)
          else (splitParts? none depth rest).map (consFirst c)

/-- Reads one level. `request` is the whole text, for the wording of faults. -/
def parseLevel (aliases : Dictionary String String) (request : String) (level : List Char) :
    Except RequestFault Level :=
  let shown := String.ofList level
  match Text.cutChars? '=' level with
  | none => .error (.levelForm shown request)
  | some (name, count) =>
      let name := String.ofList (Text.trimChars name)
      match Decimal.readNat? Number.greatestCount (String.ofList (Text.trimChars count)) with
      | none => .error (.levelCount shown request)
      | some n =>
          if name = "" ∨ n = 0 then .error (.levelUnusable shown request)
          else .ok ⟨(aliases.get? name).getD name, n⟩

/-- The filter in front of the levels, if there is one, and the text of the levels. -/
def splitFilter (request : String) (part : List Char) :
    Except RequestFault (Option String × List Char) :=
  match part with
  | '{' :: rest =>
      match Text.cutChars? '}' rest with
      | none => .error (.missingBrace request)
      | some (filter, levels) =>
          let filter := String.ofList (Text.trimChars filter)
          let levels := Text.trimChars levels
          let levels := match levels with | '/' :: rest => rest | _ => levels
          .ok (if filter = "" then none else some filter, levels)
  | _ => .ok (none, part)

def parsePart (aliases : Dictionary String String) (request : String) (part : List Char) :
    Except RequestFault Part := do
  let part := Text.trimChars part
  if part = [] then throw (.emptyPart request)
  let (filter, levels) ← splitFilter request part
  let names := ((Text.splitChars '/' levels).map Text.trimChars).filter (· ≠ [])
  let levels ← names.mapM (parseLevel aliases request)
  if levels = [] then throw (.noLevels request)
  return ⟨filter, levels⟩

def parse (aliases : Dictionary String String) (request : String) :
    Except RequestFault (List Part) :=
  match splitParts? none 0 request.toList with
  | none => .error (.unbalanced request)
  | some parts => parts.mapM (parsePart aliases request)

end ClusterPlan.Request
