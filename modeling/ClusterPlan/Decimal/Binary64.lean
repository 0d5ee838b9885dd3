import ClusterPlan.Decimal.Nearest

/-!
Binary floating point numbers of 64 bits as data: the sign, and the bits below it. These bits are in
the order of the numbers they stand for. A result is rounded once, from the exact one.
-/

namespace ClusterPlan

open Number (pow2 pow10)

structure Binary64 where
  negative : Bool
  bits : Nat
  deriving DecidableEq, Repr

namespace Binary64

/-- The bits of infinity; those of what is no number are above them. -/
def infinityBits : Nat := 2047 * pow2 52

def infinity : Binary64 := ⟨false, infinityBits⟩

def nan : Binary64 := ⟨false, infinityBits + pow2 51⟩

def isNaN (x : Binary64) : Bool := infinityBits < x.bits

def isInfinite (x : Binary64) : Bool := x.bits == infinityBits

def isZero (x : Binary64) : Bool := x.bits == 0

/-- A finite number as `m * 2 ^ e`, sign aside. -/
def parts (x : Binary64) : Nat × Int :=
  let fraction := x.bits % pow2 52
  let power := x.bits / pow2 52
  if power = 0 then (fraction, -1074) else (fraction + pow2 52, power - 1075)

/-- The number nearest to `num / den * 2 ^ e`. -/
def nearest (negative : Bool) (num den : Nat) (e : Int) : Binary64 :=
  ⟨negative, Decimal.bitsOfRatio (num * pow2 e.toNat) (den * pow2 (-e).toNat)⟩

instance : Neg Binary64 where
  neg x := ⟨!x.negative, x.bits⟩

instance : Mul Binary64 where
  mul x y :=
    let negative := x.negative != y.negative
    if x.isNaN || y.isNaN || x.isInfinite && y.isZero || x.isZero && y.isInfinite then nan
    else if x.isInfinite || y.isInfinite then ⟨negative, infinityBits⟩
    else nearest negative (x.parts.1 * y.parts.1) 1 (x.parts.2 + y.parts.2)

instance : Div Binary64 where
  div x y :=
    let negative := x.negative != y.negative
    if x.isNaN || y.isNaN || x.isInfinite && y.isInfinite || x.isZero && y.isZero then nan
    else if x.isInfinite || y.isZero then ⟨negative, infinityBits⟩
    else if y.isInfinite then ⟨negative, 0⟩
    else nearest negative x.parts.1 y.parts.1 (x.parts.2 - y.parts.2)

/-- Where the number stands among all numbers; both zeros stand at the same place. -/
def place (x : Binary64) : Int := if x.negative then -x.bits else x.bits

/-- What is no number is neither less nor greater than anything. -/
def less (x y : Binary64) : Bool := !x.isNaN && !y.isNaN && x.place < y.place

def isNegative (x : Binary64) : Bool := x.less ⟨false, 0⟩

def ofRatio (num den : Nat) : Binary64 := ⟨false, Decimal.bitsOfRatio num den⟩

def ofInt (n : Int) : Binary64 := if n < 0 then -ofRatio n.natAbs 1 else ofRatio n.natAbs 1

/-- The number nearest to `m * 10 ^ e`. Powers far outside the range of the format are not built. -/
def ofScientific (m : Nat) (e : Int) : Binary64 :=
  let top := (Nat.toDigits 10 m).length + e
  if m = 0 ∨ top < -330 then ofRatio 0 1
  else if 310 < top then infinity
  else if e < 0 then ofRatio m (pow10 e.natAbs)
  else ofRatio (m * pow10 e.natAbs) 1

/-- The largest whole number that is not above `x`, within the bounds of a 64-bit word. -/
def wholeBelow (x : Binary64) : Nat :=
  if x.isNaN || x.negative then 0
  else if x.isInfinite then Number.greatestWord
  else
    let (m, e) := x.parts
    min (m * pow2 e.toNat / pow2 (-e).toNat) Number.greatestWord

end Binary64
end ClusterPlan
