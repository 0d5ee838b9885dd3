import ClusterPlan.Decimal.Binary64

/-!
The shortest decimal that reads back as a given binary floating point number, and the nearest of
those. `Digits` holds it as a whole number and a power of ten; `write` lays it out.
-/

namespace ClusterPlan.Decimal

open Number (pow2 pow10)

/-- The value `significand * 10 ^ exponent`. -/
structure Digits where
  significand : Nat
  exponent : Int
  deriving DecidableEq, Repr

/-- A positive number `m * 2 ^ q` and the interval of numbers that round to it, all four times
as large so that they are whole multiples of `2 ^ q`. -/
structure Rounding where
  value : Nat
  lower : Nat
  upper : Nat
  closed : Bool
  scale : Int

/-- The number with these bits below its sign, if it is finite and not zero. -/
def rounding? (bits : Nat) : Option Rounding :=
  let fraction := bits % pow2 52
  let power := bits / pow2 52
  if 2047 ≤ power ∨ (power = 0 ∧ fraction = 0) then none
  else
    let m := if power = 0 then fraction else fraction + pow2 52
    let q : Int := (max power 1 : Nat) - 1075
    some
      { value := 4 * m
        lower := if fraction = 0 ∧ 1 < power then 4 * m - 1 else 4 * m - 2
        upper := 4 * m + 2
        closed := m % 2 = 0
        scale := q - 2 }

/-- `n * 2 ^ q` as a fraction in units of `10 ^ k`. -/
def inUnits (n : Nat) (q k : Int) : Nat × Nat :=
  (n * pow2 q.toNat * pow10 (-k).toNat, pow2 (-q).toNat * pow10 k.toNat)

/-- The power of ten just above the number. -/
def decimalPower (r : Rounding) : Int :=
  let guess : Int := ((r.value.log2 : Int) + r.scale) * 30103 / 100000
  let above (k : Int) : Bool := let (a, b) := inUnits r.value r.scale k; a < b
  if above guess then guess else if above (guess + 1) then guess + 1 else guess + 2

/-- Whether the multiple `d` of `10 ^ k` rounds to the number. -/
def Rounding.holds (r : Rounding) (d : Nat) (k : Int) : Bool :=
  let (lowNum, lowDen) := inUnits r.lower r.scale k
  let (highNum, highDen) := inUnits r.upper r.scale k
  if r.closed then lowNum ≤ d * lowDen && d * highDen ≤ highNum
  else lowNum < d * lowDen && d * highDen < highNum

/-- The best decimal on the grid of multiples of `10 ^ k`, if any of them rounds to the number. -/
def Rounding.onGrid? (r : Rounding) (k : Int) : Option Nat :=
  let (num, den) := inUnits r.value r.scale k
  let below := num / den
  let nearest :=
    if 2 * (num % den) < den then below
    else if den < 2 * (num % den) then below + 1
    else below + below % 2
  let other := if nearest = below then below + 1 else below
  if r.holds nearest k then some nearest
  else if r.holds other k then some other
  else none

/-- Tries ever finer grids, each with one digit more than the one before. -/
def Rounding.search (r : Rounding) (top : Int) : Nat → Nat → Digits
  | 0, n => ⟨(r.onGrid? (top - n)).getD 0, top - n⟩
  | fuel + 1, n =>
      match r.onGrid? (top - n) with
      | some d => ⟨d, top - n⟩
      | none => r.search top fuel (n + 1)

/-- Seventeen digits are always enough. -/
def Rounding.shortest (r : Rounding) : Digits := r.search (decimalPower r) 16 1

/-- Positional from 0.00001 up to sixteen digits before the point, else with an exponent. -/
def Digits.layout (d : Digits) : String :=
  let all := Nat.toDigits 10 d.significand
  let kept := (all.reverse.dropWhile (· = '0')).reverse
  let point : Int := all.length + d.exponent
  if 0 < point ∧ point ≤ 16 then
    let whole := kept.take point.toNat
    let fraction := kept.drop point.toNat
    String.ofList whole ++ String.ofList (List.replicate (point.toNat - whole.length) '0') ++ "." ++
      (if fraction = [] then "0" else String.ofList fraction)
  else if -5 < point ∧ point ≤ 0 then
    "0." ++ String.ofList (List.replicate point.natAbs '0') ++ String.ofList kept
  else
    let tail := kept.drop 1
    String.ofList (kept.take 1) ++ (if tail = [] then "" else "." ++ String.ofList tail) ++
      "e" ++ toString (point - 1)

def write (x : Binary64) : String :=
  (if x.negative then "-" else "") ++
    match rounding? x.bits with
    | none => "0.0"
    | some r => r.shortest.layout

end ClusterPlan.Decimal
