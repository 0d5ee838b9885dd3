import ClusterPlan.Proofs.Request.Reading

/-!
What a refused row leaves behind. It changes no heading, so later rows are accepted and refused as they
would have been without it. A row that repeats a level is refused as well, but it takes the place of the
row that was there: what the jobs ask for stays the same only if the two rows are equal.
-/

namespace ClusterPlan

namespace RequestRow

theorem eq_of_heading_eq {r s : RequestRow} (hheading : r.heading = s.heading)
    (hwanted : r.wanted = s.wanted) : r = s := by
  cases r
  cases s
  simp only [heading, wanted, RequestRow.mk.injEq, Level.mk.injEq] at hheading hwanted ⊢
  tauto

end RequestRow

namespace RowTable

variable {rows rows' : RowTable} {row r s : RequestRow} {fault : ModelFault}

section Contents

theorem sameLevel_replacedBy_self (row r : RequestRow) : (replacedBy row r).sameLevel r = true := by
  rw [sameLevel_replacedBy]
  exact RequestRow.sameLevel_iff.2 ⟨⟨⟨rfl, rfl⟩, rfl⟩, rfl⟩

theorem Consistent.eq_of_sameLevel (h : rows.Consistent) (hr : r ∈ rows) (hs : s ∈ rows)
    (hsame : r.sameLevel s = true) : r = s := by
  have hsymm : Std.Symm fun r s : RequestRow => r.sameLevel s = false :=
    ⟨fun r s hrs => (RequestRow.sameLevel_comm s r).trans hrs⟩
  by_contra hne
  rw [h.level.forall hr hs hne] at hsame
  cases hsame

/-- A row that is there already takes its own place. -/
theorem map_replacedBy_of_mem (h : rows.Consistent) (hrow : row ∈ rows) :
    rows.map (replacedBy row) = rows := by
  refine (List.map_congr_left fun r hr => ?_).trans (List.map_id _)
  rw [replacedBy, id_eq]
  split
  · rename_i hsame
    exact h.eq_of_sameLevel hrow hr hsame
  · rfl

/-- Nothing but the row itself can be replaced by a row without a change in what the jobs ask for. -/
theorem mem_of_assemble_eq (hagrees : ∀ r ∈ rows, row.Agrees r)
    (hlevel : ∃ r ∈ rows, row.sameLevel r = true)
    (heq : assemble (rows.map (replacedBy row)) = assemble rows) : row ∈ rows := by
  obtain ⟨r, hr, hsame⟩ := hlevel
  have hreplaced : replacedBy row r = row := if_pos hsame
  have hlevels : (inOrder rows).map (fun r => (replacedBy row r).wanted) =
      (inOrder rows).map RequestRow.wanted := by
    rw [← levelsOf_assemble, ← heq, levelsOf_assemble,
      inOrder_map (sameLevel_replacedBy_self row), List.map_map]
    rfl
  have hwanted := List.map_inj_left.1 hlevels r ((inOrder_perm rows).mem_iff.2 hr)
  have hheading := heading_replacedBy (hagrees r hr)
  rw [hreplaced] at hwanted hheading
  rwa [RequestRow.eq_of_heading_eq hheading hwanted]

theorem assemble_push_iff (h : rows.Consistent) (hfault : (rows.push row).2 = some fault) :
    assemble (rows.push row).1 = assemble rows ↔
      (∀ l p a j, fault ≠ .repeatedLevel l p a j) ∨ row ∈ rows := by
  rcases push_cases h row with ⟨hpush, _⟩ | ⟨hpush, hagrees, hlevel⟩ | ⟨other, hpush, hother⟩
  · rw [hpush] at hfault
    cases hfault
  · rw [hpush] at hfault ⊢
    cases hfault
    constructor
    · exact fun heq => Or.inr (mem_of_assemble_eq hagrees hlevel heq)
    · rintro (hother | hrow)
      · exact absurd rfl (hother _ _ _ _)
      · rw [map_replacedBy_of_mem h hrow]
  · rw [hpush] at hfault ⊢
    cases hfault
    exact iff_of_true rfl (Or.inl hother)

end Contents

section Answers

theorem map_heading_replacedBy (rows : RowTable) (row : RequestRow) :
    (rows.map (replacedBy row)).map RequestRow.heading =
      (rows.map RequestRow.heading).map fun r => if row.sameLevel r then row.heading else r := by
  rw [List.map_map, List.map_map]
  exact List.map_congr_left fun r _ => apply_ite RequestRow.heading _ _ _

theorem map_heading_push_congr (h : rows.map RequestRow.heading = rows'.map RequestRow.heading)
    (row : RequestRow) :
    (rows.push row).1.map RequestRow.heading = (rows'.push row).1.map RequestRow.heading := by
  rw [push, push, conflict?_congr h row]
  split
  · rw [List.map_append, List.map_append, h]
  · change (rows.map (replacedBy row)).map _ = (rows'.map (replacedBy row)).map _
    rw [map_heading_replacedBy, map_heading_replacedBy, h]
  · exact h

theorem map_heading_afterAll (h : rows.map RequestRow.heading = rows'.map RequestRow.heading)
    (later : List RequestRow) :
    (rows.afterAll later).map RequestRow.heading = (rows'.afterAll later).map RequestRow.heading := by
  induction later generalizing rows rows' with
  | nil => exact h
  | cons row rest ih => exact ih (map_heading_push_congr h row)

theorem push_congr (h : rows.map RequestRow.heading = rows'.map RequestRow.heading)
    (row : RequestRow) : (rows.push row).2 = (rows'.push row).2 := by
  rw [push, push, conflict?_congr h row]
  split <;> rfl

end Answers

/-- Whatever rows were pushed before, accepted or refused, a refused row has no part in the answers to
later rows. The jobs stay as they were unless the row repeats a level with something else to ask for. -/
theorem refusal_harmless_iff {history : List RequestRow}
    (h : (push (afterAll [] history) row).2 = some fault) :
    (assemble (push (afterAll [] history) row).1 = assemble (afterAll [] history) ↔
      (∀ l p a j, fault ≠ .repeatedLevel l p a j) ∨ row ∈ afterAll [] history) ∧
    ∀ (later : List RequestRow) (next : RequestRow),
      (push (afterAll (push (afterAll [] history) row).1 later) next).2 =
        (push (afterAll (afterAll [] history) later) next).2 := by
  have hconsistent := consistent_afterAll consistent_nil history
  refine ⟨assemble_push_iff hconsistent h, fun later next => ?_⟩
  exact push_congr (map_heading_afterAll (map_heading_push hconsistent h) later) next

/-- A row, and one at its place with another walltime. -/
def disputedRows : List RequestRow :=
  [⟨1, 0, 10, 60, 0, none, 0, "resource_id", 1⟩, ⟨1, 0, 10, 30, 0, none, 1, "resource_id", 1⟩]

def repeatedRow : RequestRow := ⟨1, 0, 10, 60, 0, none, 0, "resource_id", 2⟩

theorem refusal_harmless_iff_disputed :
    (push (afterAll [] disputedRows) repeatedRow).2 = some (.repeatedLevel 0 0 10 1) ∧
    (assemble (push (afterAll [] disputedRows) repeatedRow).1 = assemble (afterAll [] disputedRows) ↔
      (∀ l p a j, ModelFault.repeatedLevel 0 0 10 1 ≠ .repeatedLevel l p a j) ∨
        repeatedRow ∈ afterAll [] disputedRows) ∧
    ∀ (later : List RequestRow) (next : RequestRow),
      (push (afterAll (push (afterAll [] disputedRows) repeatedRow).1 later) next).2 =
        (push (afterAll (afterAll [] disputedRows) later) next).2 := by
  have hfault : (push (afterAll [] disputedRows) repeatedRow).2 =
      some (.repeatedLevel 0 0 10 1) := by decide
  exact ⟨hfault, refusal_harmless_iff hfault⟩

/-- The repeated row is refused, and yet the job asks for two resources afterwards. -/
theorem assemble_repeatedRow :
    (push (afterAll [] disputedRows) repeatedRow).2 = some (.repeatedLevel 0 0 10 1) ∧
    assemble (afterAll [] disputedRows) = [(1, [⟨10, 60, [⟨none, [⟨"resource_id", 1⟩]⟩]⟩])] ∧
    assemble (push (afterAll [] disputedRows) repeatedRow).1 =
      [(1, [⟨10, 60, [⟨none, [⟨"resource_id", 2⟩]⟩]⟩])] := by decide

end RowTable

end ClusterPlan
