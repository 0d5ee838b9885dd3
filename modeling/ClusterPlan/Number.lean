/-!
Whole numbers: the bounds of those that documents may hold, powers and sums.
-/

namespace ClusterPlan.Number

/-- The least signed number of 64 bits. -/
def leastInt : Int := -9223372036854775808

/-- The greatest signed number of 64 bits. -/
def greatestInt : Int := 9223372036854775807

/-- The greatest unsigned number of 64 bits. -/
def greatestWord : Nat := 18446744073709551615

/-- The greatest unsigned number of 32 bits. -/
def greatestCount : Nat := 4294967295

/-- The greatest signed number of 32 bits. -/
def greatestShort : Nat := 2147483647

def pow2 (k : Nat) : Nat := Nat.pow 2 k

def pow10 (k : Nat) : Nat := Nat.pow 10 k

def total : List Nat → Nat
  | [] => 0
  | n :: rest => n + total rest

theorem total_append (l m : List Nat) : total (l ++ m) = total l + total m := by
  induction l with
  | nil => simp [total]
  | cons n rest ih => simp only [List.cons_append, total, ih]; omega

end ClusterPlan.Number
