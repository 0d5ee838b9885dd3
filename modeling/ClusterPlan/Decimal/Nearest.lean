import ClusterPlan.Number

/-!
The binary floating point number nearest to a fraction, ties to the even neighbour.
-/

namespace ClusterPlan.Decimal

open Number (pow2)

/-- The whole number nearest to `num / den`, of two the even one. -/
def roundRatio (num den : Nat) : Nat :=
  let q := num / den
  let twice := 2 * (num % den)
  if twice < den then q
  else if den < twice then q + 1
  else q + q % 2

/-- The exponent at which `num / den` has 53 binary digits before the point, at least -1074. -/
def binaryExponent (num den : Nat) : Int :=
  let guess : Int := (num.log2 : Int) - den.log2 - 53
  let tooMany :=
    if guess < 0 then den * pow2 53 ≤ num * pow2 guess.natAbs
    else den * pow2 (53 + guess.natAbs) ≤ num
  max (if tooMany then guess + 1 else guess) (-1074)

/-- The binary64 nearest to `num / den`, as its bits; infinity past the largest finite number. -/
def bitsOfRatio (num den : Nat) : Nat :=
  if num = 0 then 0
  else
    let e := binaryExponent num den
    let m :=
      if e < 0 then roundRatio (num * pow2 e.natAbs) den else roundRatio num (den * pow2 e.natAbs)
    min ((e + 1074).toNat * pow2 52 + m) (2047 * pow2 52)

end ClusterPlan.Decimal
