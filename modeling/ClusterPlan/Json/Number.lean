import ClusterPlan.Decimal.Reader
import ClusterPlan.Json.Basic
import ClusterPlan.Number

/-!
The value of a number as written in JSON. Whole numbers of 64 bits are exact. Any other number is
read as a float: digits that no longer fit a 64-bit word are dropped, and the word is scaled by one
power of ten, so the last bit can differ from that of the nearest float.
-/

namespace ClusterPlan.Json

structure Numeral where
  negative : Bool
  whole : List Nat
  fraction : List Nat
  hasFraction : Bool
  exponent : Option (Bool × List Nat)

/-- The number so far with as many more digits as fit a word, and how many did not. -/
def appendDigits (word : Nat) : List Nat → Nat × Nat
  | [] => (word, 0)
  | d :: rest =>
      if Number.greatestWord < 10 * word + d then (word, rest.length + 1)
      else appendDigits (10 * word + d) rest

/-- Divides by `10 ^ k` in steps of at most 308. -/
def scaleDown (x : Binary64) (k : Nat) : Binary64 :=
  if k ≤ 308 then x / .ofScientific 1 k
  else if x.isZero then x
  else scaleDown (x / .ofScientific 1 308) (k - 308)
termination_by k

/-- `word * 10 ^ e`, if that is finite. -/
def scaled? (word : Nat) (e : Int) : Option Binary64 :=
  let x := Binary64.ofRatio word 1
  if e < 0 then some (scaleDown x e.natAbs)
  else if 308 < e then (if word = 0 then some x else none)
  else
    let y := x * .ofScientific 1 e
    if y.isInfinite then none else some y

def Numeral.real? (n : Numeral) : Option Binary64 :=
  let (word, dropped) := appendDigits 0 n.whole
  let (word, lost) := appendDigits word n.fraction
  let shift : Int := dropped - (n.fraction.length - lost : Nat)
  let size :=
    match n.exponent with
    | none => scaled? word shift
    | some (down, ds) =>
        let e := Decimal.ofDigits ds
        if Number.greatestShort < e then
          if word = 0 ∨ down then some (.ofRatio 0 1) else none
        else scaled? word (if down then shift - e else shift + e)
  size.map fun x => if n.negative then -x else x

def Numeral.value (n : Numeral) : Json :=
  let size := Decimal.ofDigits n.whole
  if !n.hasFraction && n.exponent.isNone && !n.negative && size ≤ Number.greatestWord then .int size
  else if !n.hasFraction && n.exponent.isNone && n.negative && 0 < size &&
      Number.leastInt ≤ -(size : Int) then
    .int (-size)
  else
    match n.real? with
    | some x => .real x
    | none => .unreadable

end ClusterPlan.Json
