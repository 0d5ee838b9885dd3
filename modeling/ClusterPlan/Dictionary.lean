/-!
Finite maps. A `Dictionary` holds its entries in no particular order and is read by key; a value put
under a key replaces the older one. The functions on tables keep rows in ascending order of a whole
number in the row, one row for each number.
-/

namespace ClusterPlan

abbrev Dictionary (κ : Type u) (α : Type v) := List (κ × α)

namespace Dictionary

variable {κ : Type u} {α : Type v} [DecidableEq κ]

def get? (d : Dictionary κ α) (k : κ) : Option α := (d.find? fun e => e.1 = k).map (·.2)

def erase (d : Dictionary κ α) (k : κ) : Dictionary κ α := d.filter fun e => e.1 ≠ k

def put (d : Dictionary κ α) (k : κ) (v : α) : Dictionary κ α := (k, v) :: d.erase k

def has (d : Dictionary κ α) (k : κ) : Bool := (d.get? k).isSome

/-- Puts all entries, of equal keys the last. -/
def putAll (d : Dictionary κ α) (entries : List (κ × α)) : Dictionary κ α :=
  entries.foldl (fun acc e => acc.put e.1 e.2) d

@[simp] theorem get?_nil (k : κ) : get? ([] : Dictionary κ α) k = none := rfl

theorem get?_erase (d : Dictionary κ α) (j k : κ) :
    (d.erase j).get? k = if j = k then none else d.get? k := by
  induction d with
  | nil => simp [erase, get?]
  | cons e rest ih =>
      simp only [erase, get?] at ih ⊢
      by_cases he : e.1 = j <;> by_cases hk : e.1 = k <;> grind [List.find?, List.filter]

theorem get?_put (d : Dictionary κ α) (j k : κ) (v : α) :
    (d.put j v).get? k = if j = k then some v else d.get? k := by
  have h := get?_erase d j k
  by_cases hjk : j = k
  · simp [put, get?, hjk]
  · simp only [hjk, if_false] at h ⊢
    rw [← h]
    simp [put, get?, hjk]

end Dictionary

namespace Table

variable {α : Type u} (key : α → Int)

def find? (rows : List α) (k : Int) : Option α := List.find? (fun r => key r = k) rows

/-- Puts a row at its place, in place of the row with the same key. -/
def put (row : α) : List α → List α
  | [] => [row]
  | r :: rest =>
      if key row < key r then row :: r :: rest
      else if key row = key r then row :: rest
      else r :: put row rest

def erase (k : Int) (rows : List α) : List α := rows.filter fun r => key r ≠ k

/-- The rows in ascending order, of equal keys the last. -/
def ofList (rows : List α) : List α := rows.foldl (fun acc r => put key r acc) []

end Table

/-- Distinct whole numbers in ascending order. -/
def ascending (ids : List Int) : List Int := Table.ofList id ids

end ClusterPlan
