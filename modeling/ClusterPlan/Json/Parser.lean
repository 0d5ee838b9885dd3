import ClusterPlan.Json.Number

/-!
Reading JSON text. One value may stand in the text, with white space around it. Objects keep all
their fields in the order of the text, repeated ones too.
-/

namespace ClusterPlan.Json

def isSpace (c : Char) : Bool := c = ' ' || c = '\n' || c = '\t' || c = '\r'

def skipSpace (cs : List Char) : List Char := cs.dropWhile isSpace

def hexDigit? (c : Char) : Option Nat :=
  if '0' ≤ c ∧ c ≤ '9' then some (c.toNat - '0'.toNat)
  else if 'a' ≤ c ∧ c ≤ 'f' then some (c.toNat - 'a'.toNat + 10)
  else if 'A' ≤ c ∧ c ≤ 'F' then some (c.toNat - 'A'.toNat + 10)
  else none

def hexUnit? (a b c d : Char) : Option Nat := do
  let a ← hexDigit? a
  let b ← hexDigit? b
  let c ← hexDigit? c
  let d ← hexDigit? d
  return ((a * 16 + b) * 16 + c) * 16 + d

def escape? (c : Char) : Option Nat :=
  if c = '"' ∨ c = '\\' ∨ c = '/' then some c.toNat
  else if c = 'b' then some 8
  else if c = 'f' then some 12
  else if c = 'n' then some 10
  else if c = 'r' then some 13
  else if c = 't' then some 9
  else none

/-- The code units of a text after its opening quote, and what follows the closing one. -/
def textUnits : List Char → Option (List Nat × List Char)
  | [] => none
  | '"' :: rest => some ([], rest)
  | '\\' :: 'u' :: a :: b :: c :: d :: rest => do
      let unit ← hexUnit? a b c d
      let (units, rest) ← textUnits rest
      return (unit :: units, rest)
  | '\\' :: e :: rest => do
      let unit ← escape? e
      let (units, rest) ← textUnits rest
      return (unit :: units, rest)
  | c :: rest =>
      if c.toNat < 0x20 then none
      else do
        let (units, rest) ← textUnits rest
        return (c.toNat :: units, rest)

/-- Joins surrogate pairs; fails on half a pair. -/
def joinUnits : List Nat → Option (List Char)
  | [] => some []
  | u :: rest =>
      if 0xD800 ≤ u ∧ u ≤ 0xDBFF then
        match rest with
        | v :: rest =>
            if 0xDC00 ≤ v ∧ v ≤ 0xDFFF then
              (joinUnits rest).map
                (Char.ofNat (0x10000 + (u - 0xD800) * 0x400 + (v - 0xDC00)) :: ·)
            else none
        | [] => none
      else if 0xDC00 ≤ u ∧ u ≤ 0xDFFF then none
      else (joinUnits rest).map (Char.ofNat u :: ·)

def number? (cs : List Char) : Option (Json × List Char) := do
  let (negative, cs) :=
    match cs with
    | '-' :: rest => (true, rest)
    | _ => (false, cs)
  let (whole, cs) := Decimal.digits cs
  if whole = [] ∨ (whole.head? = some 0 ∧ 1 < whole.length) then none
  let (fraction, hasFraction, cs) :=
    match cs with
    | '.' :: rest => ((Decimal.digits rest).1, true, (Decimal.digits rest).2)
    | _ => ([], false, cs)
  if hasFraction ∧ fraction = [] then none
  match cs with
  | [] => return (Numeral.value ⟨negative, whole, fraction, hasFraction, none⟩, [])
  | c :: rest =>
      if c = 'e' ∨ c = 'E' then
        let (down, rest) := Decimal.sign rest
        let (ds, rest) := Decimal.digits rest
        if ds = [] then none
        return (Numeral.value ⟨negative, whole, fraction, hasFraction, some (down, ds)⟩, rest)
      else return (Numeral.value ⟨negative, whole, fraction, hasFraction, none⟩, cs)

/-- An object one of whose names is unreadable is unreadable itself. -/
def ofNamed (fields : List (Option String × Json)) : Json :=
  if fields.all fun f => f.1.isSome then
    .object (fields.filterMap fun f => f.1.map fun name => (name, f.2))
  else .unreadable

mutual

def value? : Nat → List Char → Option (Json × List Char)
  | 0, _ => none
  | fuel + 1, cs =>
      match skipSpace cs with
      | 'n' :: 'u' :: 'l' :: 'l' :: rest => some (.null, rest)
      | 't' :: 'r' :: 'u' :: 'e' :: rest => some (.bool true, rest)
      | 'f' :: 'a' :: 'l' :: 's' :: 'e' :: rest => some (.bool false, rest)
      | '"' :: rest => do
          let (units, rest) ← textUnits rest
          match joinUnits units with
          | some s => return (.text (String.ofList s), rest)
          | none => return (.unreadable, rest)
      | '[' :: rest =>
          match skipSpace rest with
          | ']' :: rest => some (.array [], rest)
          | rest => (items? fuel rest).map fun (items, rest) => (.array items, rest)
      | '{' :: rest =>
          match skipSpace rest with
          | '}' :: rest => some (.object [], rest)
          | rest => (fields? fuel rest).map fun (fields, rest) => (ofNamed fields, rest)
      | rest => number? rest

/-- The items of an array up to its closing bracket. -/
def items? : Nat → List Char → Option (List Json × List Char)
  | 0, _ => none
  | fuel + 1, cs => do
      let (item, rest) ← value? fuel cs
      match skipSpace rest with
      | ',' :: rest =>
          let (items, rest) ← items? fuel rest
          return (item :: items, rest)
      | ']' :: rest => return ([item], rest)
      | _ => none

/-- The fields of an object up to its closing brace. -/
def fields? : Nat → List Char → Option (List (Option String × Json) × List Char)
  | 0, _ => none
  | fuel + 1, cs =>
      match skipSpace cs with
      | '"' :: rest => do
          let (units, rest) ← textUnits rest
          let name := (joinUnits units).map String.ofList
          match skipSpace rest with
          | ':' :: rest =>
              let (field, rest) ← value? fuel rest
              match skipSpace rest with
              | ',' :: rest =>
                  let (fields, rest) ← fields? fuel rest
                  return ((name, field) :: fields, rest)
              | '}' :: rest => return ([(name, field)], rest)
              | _ => none
          | _ => none
      | _ => none

end

/-- The value that the whole text denotes. Two steps for each character are always enough. -/
def parse? (s : String) : Option Json :=
  let cs := s.toList
  match value? (2 * cs.length + 2) cs with
  | some (j, rest) => if skipSpace rest = [] then some j else none
  | none => none

end ClusterPlan.Json
