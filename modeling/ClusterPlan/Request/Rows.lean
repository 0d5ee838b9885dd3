import ClusterPlan.Dictionary
import ClusterPlan.Error

/-!
Requests as flat rows, one for each level of each part of each alternative of each job. Rows arrive
in any order and are put together by position. A row that contradicts an earlier one is refused.
-/

namespace ClusterPlan

structure RequestRow where
  job : Int
  /-- The place of the alternative among those of its job. -/
  position : Nat
  alternative : Int
  walltime : Int
  part : Nat
  filter : Option String
  /-- The place of the level inside its part, topmost first. -/
  level : Nat
  property : String
  count : Nat
  deriving DecidableEq, Repr

namespace RequestRow

def samePosition (r s : RequestRow) : Bool := r.job == s.job && r.position == s.position

def samePart (r s : RequestRow) : Bool := r.samePosition s && r.part == s.part

def sameLevel (r s : RequestRow) : Bool := r.samePart s && r.level == s.level

end RequestRow

/-- Rows of which no two describe the same level. -/
abbrev RowTable := List RequestRow

namespace RowTable

/-- What an earlier row has to say against a new one. -/
def conflict? (rows : RowTable) (row : RequestRow) : Option ModelFault :=
  match rows.find? row.samePosition with
  | none => none
  | some other =>
      if other.alternative ≠ row.alternative then
        some (.twoAlternatives row.position row.job other.alternative row.alternative)
      else if other.walltime ≠ row.walltime then
        some (.twoWalltimes row.alternative row.job other.walltime row.walltime)
      else
        match rows.find? row.samePart with
        | none => none
        | some other =>
            if other.filter ≠ row.filter then
              some (.twoFilters row.part row.alternative row.job)
            else if rows.any row.sameLevel then
              some (.repeatedLevel row.level row.part row.alternative row.job)
            else none

/-- Adds a row. A repeated level is a fault, but the later row takes the place of the earlier. -/
def push (rows : RowTable) (row : RequestRow) : RowTable × Option ModelFault :=
  match rows.conflict? row with
  | none => (rows ++ [row], none)
  | some (.repeatedLevel l p a j) =>
      (rows.map fun r => if row.sameLevel r then row else r, some (.repeatedLevel l p a j))
  | some fault => (rows, some fault)

def pushAll (rows : RowTable) : List RequestRow → Except ModelFault RowTable
  | [] => .ok rows
  | row :: rest =>
      match rows.push row with
      | (rows, none) => pushAll rows rest
      | (_, some fault) => .error fault

/-- The values of a key in ascending order, each with the rows that have it. -/
def gather (key : RequestRow → Int) (rows : RowTable) : List (Int × RowTable) :=
  (ascending (rows.map key)).map fun k => (k, rows.filter fun r => key r = k)

def toPart (rows : RowTable) : Part where
  filter := rows.head?.bind (·.filter)
  levels := (gather (·.level) rows).flatMap fun (_, rs) => rs.map fun r => ⟨r.property, r.count⟩

def toAlternative (rows : RowTable) : Option Alternative :=
  rows.head?.map fun r => ⟨r.alternative, r.walltime, (gather (·.part) rows).map (toPart ·.2)⟩

/-- The alternatives of each job in declared order, jobs in ascending order. -/
def assemble (rows : RowTable) : List (Int × List Alternative) :=
  (gather (·.job) rows).map fun (job, rs) =>
    (job, (gather (·.position) rs).filterMap (toAlternative ·.2))

def ofAlternatives (job : Int) (alternatives : List Alternative) : RowTable :=
  alternatives.zipIdx.flatMap fun (a, position) =>
    a.parts.zipIdx.flatMap fun (p, part) =>
      p.levels.zipIdx.map fun (l, level) =>
        ⟨job, position, a.id, a.walltime, part, p.filter, level, l.property, l.count⟩

end RowTable
end ClusterPlan
