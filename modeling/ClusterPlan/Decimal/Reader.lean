import ClusterPlan.Decimal.Binary64

/-!
Numbers in text. `readFloat?` accepts a sign, decimal digits with at most one point among them and
an optional exponent, or a name of infinity or of no number, in any case. `readNat?` and `readInt?`
accept whole numbers up to a bound.
-/

namespace ClusterPlan.Decimal

def digit? (c : Char) : Option Nat :=
  if '0' ≤ c ∧ c ≤ '9' then some (c.toNat - '0'.toNat) else none

/-- The digits at the start of the text, and what follows them. -/
def digits : List Char → List Nat × List Char
  | [] => ([], [])
  | c :: rest =>
      match digit? c with
      | some d => (d :: (digits rest).1, (digits rest).2)
      | none => ([], c :: rest)

def ofDigits (ds : List Nat) : Nat := ds.foldl (fun n d => 10 * n + d) 0

/-- A leading `-` or `+`, and what follows it. -/
def sign : List Char → Bool × List Char
  | '-' :: rest => (true, rest)
  | '+' :: rest => (false, rest)
  | cs => (false, cs)

/-- The exponent that ends a number, zero if nothing is left. -/
def exponent? : List Char → Option Int
  | [] => some 0
  | c :: rest =>
      if c = 'e' ∨ c = 'E' then
        let (negative, body) := sign rest
        match digits body with
        | ([], _) => none
        | (ds, []) => some (if negative then -(ofDigits ds : Int) else ofDigits ds)
        | (_, _ :: _) => none
      else none

def magnitude? (cs : List Char) : Option Binary64 :=
  let name := cs.map Char.toLower
  if name = "inf".toList ∨ name = "infinity".toList then some .infinity
  else if name = "nan".toList then some .nan
  else
    let (whole, rest) := digits cs
    let (fraction, rest) :=
      match rest with
      | '.' :: more => digits more
      | _ => ([], rest)
    if whole = [] ∧ fraction = [] then none
    else
      (exponent? rest).map fun e =>
        .ofScientific (ofDigits (whole ++ fraction)) (e - fraction.length)

def readFloat? (s : String) : Option Binary64 :=
  let (negative, body) := sign s.toList
  (magnitude? body).map fun x => if negative then -x else x

/-- A whole number from 0 to `bound`; a leading `+` is allowed. -/
def readNat? (bound : Nat) (s : String) : Option Nat :=
  let body :=
    match s.toList with
    | '+' :: rest => rest
    | cs => cs
  match digits body with
  | (d :: ds, []) => if ofDigits (d :: ds) ≤ bound then some (ofDigits (d :: ds)) else none
  | _ => none

/-- A whole number of 64 bits with an optional sign. -/
def readInt? (s : String) : Option Int :=
  let (negative, body) := sign s.toList
  match digits body with
  | (d :: ds, []) =>
      let n : Int := if negative then -(ofDigits (d :: ds) : Int) else ofDigits (d :: ds)
      if Number.leastInt ≤ n ∧ n ≤ Number.greatestInt then some n else none
  | _ => none

end ClusterPlan.Decimal
