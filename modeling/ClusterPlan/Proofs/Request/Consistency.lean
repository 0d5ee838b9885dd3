import ClusterPlan.Proofs.Request.Rows

/-!
Tables whose rows do not contradict one another, which is every table that rows are pushed into one by
one. Whether a further row is refused depends on the headings of the rows that are there, which say
where a row stands and what it says of its alternative and of its part, and a refused row leaves every
heading as it is.
-/

namespace ClusterPlan

namespace RequestRow

variable {r s t : RequestRow}

theorem samePosition_iff : r.samePosition s = true ↔ r.job = s.job ∧ r.position = s.position := by
  rw [samePosition, Bool.and_eq_true, beq_iff_eq, beq_iff_eq]

theorem samePart_iff :
    r.samePart s = true ↔ (r.job = s.job ∧ r.position = s.position) ∧ r.part = s.part := by
  rw [samePart, Bool.and_eq_true, samePosition_iff, beq_iff_eq]

theorem sameLevel_iff : r.sameLevel s = true ↔
    ((r.job = s.job ∧ r.position = s.position) ∧ r.part = s.part) ∧ r.level = s.level := by
  rw [sameLevel, Bool.and_eq_true, samePart_iff, beq_iff_eq]

theorem samePosition_of_samePart (h : r.samePart s = true) : r.samePosition s = true :=
  samePosition_iff.2 (samePart_iff.1 h).1

theorem samePart_of_sameLevel (h : r.sameLevel s = true) : r.samePart s = true :=
  samePart_iff.2 (sameLevel_iff.1 h).1

theorem samePosition_comm (r s : RequestRow) : r.samePosition s = s.samePosition r := by
  rw [samePosition, samePosition, Bool.beq_comm, Bool.beq_comm (a := r.position)]

theorem samePart_comm (r s : RequestRow) : r.samePart s = s.samePart r := by
  rw [samePart, samePart, samePosition_comm, Bool.beq_comm]

theorem sameLevel_comm (r s : RequestRow) : r.sameLevel s = s.sameLevel r := by
  rw [sameLevel, sameLevel, samePart_comm, Bool.beq_comm]

theorem samePosition_trans (hrs : r.samePosition s = true) (hst : s.samePosition t = true) :
    r.samePosition t = true := by
  rw [samePosition_iff] at *
  exact ⟨hrs.1.trans hst.1, hrs.2.trans hst.2⟩

theorem samePart_trans (hrs : r.samePart s = true) (hst : s.samePart t = true) :
    r.samePart t = true := by
  rw [samePart_iff] at *
  exact ⟨⟨hrs.1.1.trans hst.1.1, hrs.1.2.trans hst.1.2⟩, hrs.2.trans hst.2⟩

/-- Two rows say the same of their alternative and of their part, where they share it. -/
structure Agrees (r s : RequestRow) : Prop where
  position : r.samePosition s = true → s.alternative = r.alternative ∧ s.walltime = r.walltime
  part : r.samePart s = true → s.filter = r.filter

theorem Agrees.refl (r : RequestRow) : r.Agrees r := ⟨fun _ => ⟨rfl, rfl⟩, fun _ => rfl⟩

theorem Agrees.symm (h : r.Agrees s) : s.Agrees r where
  position := fun hsame => by
    rw [samePosition_comm] at hsame
    exact ⟨(h.position hsame).1.symm, (h.position hsame).2.symm⟩
  part := fun hsame => by
    rw [samePart_comm] at hsame
    exact (h.part hsame).symm

/-- The row without what its level asks for. -/
def heading (r : RequestRow) : RequestRow := { r with property := "", count := 0 }

end RequestRow

namespace RowTable

variable {rows rows' new out : RowTable} {row r s : RequestRow} {fault : ModelFault}

/-- Rows agree with one another, and no two of them describe the same level. -/
structure Consistent (rows : RowTable) : Prop where
  agree : ∀ r ∈ rows, ∀ s ∈ rows, r.Agrees s
  level : rows.Pairwise fun r s => r.sameLevel s = false

theorem consistent_nil : Consistent [] where
  agree := fun _ hr => absurd hr List.not_mem_nil
  level := List.Pairwise.nil

section Pushing

/-- The row, or a later one in its place if that describes the same level. -/
def replacedBy (row r : RequestRow) : RequestRow := if row.sameLevel r then row else r

theorem sameLevel_replacedBy : (replacedBy row r).sameLevel s = r.sameLevel s := by
  rw [replacedBy]
  split
  · rename_i hsame
    obtain ⟨⟨⟨hjob, hposition⟩, hpart⟩, hlevel⟩ := RequestRow.sameLevel_iff.1 hsame
    rw [Bool.eq_iff_iff, RequestRow.sameLevel_iff, RequestRow.sameLevel_iff, hjob, hposition, hpart,
      hlevel]
  · rfl

theorem heading_replacedBy (h : row.Agrees r) :
    (replacedBy row r).heading = r.heading := by
  rw [replacedBy]
  split
  · rename_i hsame
    have hpart := RequestRow.samePart_of_sameLevel hsame
    obtain ⟨⟨⟨hjob, hposition⟩, hplace⟩, hlevel⟩ := RequestRow.sameLevel_iff.1 hsame
    obtain ⟨halternative, hwalltime⟩ :=
      h.position (RequestRow.samePosition_of_samePart hpart)
    simp only [RequestRow.heading, hjob, hposition, hplace, hlevel, halternative, hwalltime,
      h.part hpart]
  · rfl

section Found

variable {other : RequestRow}

/-- One row at the position speaks for all of them, as they agree. -/
theorem position_of_found (h : rows.Consistent) (hother : rows.find? row.samePosition = some other)
    (halternative : other.alternative = row.alternative) (hwalltime : other.walltime = row.walltime)
    (hr : r ∈ rows) (hsame : row.samePosition r = true) :
    r.alternative = row.alternative ∧ r.walltime = row.walltime := by
  have hback := List.find?_some hother
  rw [RequestRow.samePosition_comm] at hback
  obtain ⟨ha, hw⟩ := (h.agree other (List.mem_of_find?_eq_some hother) r hr).position
    (RequestRow.samePosition_trans hback hsame)
  exact ⟨ha.trans halternative, hw.trans hwalltime⟩

theorem part_of_found (h : rows.Consistent) (hother : rows.find? row.samePart = some other)
    (hfilter : other.filter = row.filter) (hr : r ∈ rows) (hsame : row.samePart r = true) :
    r.filter = row.filter := by
  have hback := List.find?_some hother
  rw [RequestRow.samePart_comm] at hback
  exact ((h.agree other (List.mem_of_find?_eq_some hother) r hr).part
    (RequestRow.samePart_trans hback hsame)).trans hfilter

end Found

/-- What a consistent table says to a further row: it takes it, or it says that the level is there
already, or it has another reason to refuse it. -/
theorem conflict?_cases (h : rows.Consistent) (row : RequestRow) :
    (rows.conflict? row = none ∧ (∀ r ∈ rows, row.Agrees r) ∧
        ∀ r ∈ rows, row.sameLevel r = false) ∨
      (rows.conflict? row = some (.repeatedLevel row.level row.part row.alternative row.job) ∧
        (∀ r ∈ rows, row.Agrees r) ∧ ∃ r ∈ rows, row.sameLevel r = true) ∨
      ∃ fault, rows.conflict? row = some fault ∧ ∀ l p a j, fault ≠ .repeatedLevel l p a j := by
  rw [conflict?]
  cases hother : rows.find? row.samePosition with
  | none =>
      have hnone : ∀ r ∈ rows, ¬ row.samePosition r = true := List.find?_eq_none.1 hother
      refine Or.inl ⟨rfl, fun r hr => ⟨fun hsame => absurd hsame (hnone r hr), fun hsame =>
        absurd (RequestRow.samePosition_of_samePart hsame) (hnone r hr)⟩, fun r hr => ?_⟩
      exact Bool.eq_false_iff.2 fun hsame => hnone r hr
        (RequestRow.samePosition_of_samePart (RequestRow.samePart_of_sameLevel hsame))
  | some other =>
      by_cases halternative : other.alternative = row.alternative
      swap
      · exact Or.inr (Or.inr ⟨_, if_pos halternative, by simp⟩)
      by_cases hwalltime : other.walltime = row.walltime
      swap
      · exact Or.inr (Or.inr ⟨_, (if_neg (not_not.2 halternative)).trans (if_pos hwalltime),
          by simp⟩)
      have hposition := fun r (hr : r ∈ rows) => position_of_found h hother halternative hwalltime hr
      simp only [halternative, hwalltime, ne_eq, not_true_eq_false, if_false]
      cases hfellow : rows.find? row.samePart with
      | none =>
          have hnone : ∀ r ∈ rows, ¬ row.samePart r = true := List.find?_eq_none.1 hfellow
          exact Or.inl ⟨rfl, fun r hr => ⟨hposition r hr, fun hsame => absurd hsame (hnone r hr)⟩,
            fun r hr => Bool.eq_false_iff.2 fun hsame =>
              hnone r hr (RequestRow.samePart_of_sameLevel hsame)⟩
      | some fellow =>
          by_cases hfilter : fellow.filter = row.filter
          swap
          · exact Or.inr (Or.inr ⟨_, if_pos hfilter, by simp⟩)
          have hagrees : ∀ r ∈ rows, row.Agrees r := fun r hr =>
            ⟨hposition r hr, part_of_found h hfellow hfilter hr⟩
          simp only [hfilter, not_true_eq_false, if_false]
          cases hlevel : rows.any row.sameLevel with
          | true => exact Or.inr (Or.inl ⟨rfl, hagrees, List.any_eq_true.1 hlevel⟩)
          | false =>
              exact Or.inl ⟨rfl, hagrees, fun r hr =>
                Bool.eq_false_iff.2 (List.any_eq_false.1 hlevel r hr)⟩

theorem push_cases (h : rows.Consistent) (row : RequestRow) :
    (rows.push row = (rows ++ [row], none) ∧ (∀ r ∈ rows, row.Agrees r) ∧
        ∀ r ∈ rows, row.sameLevel r = false) ∨
      (rows.push row = (rows.map (replacedBy row),
          some (.repeatedLevel row.level row.part row.alternative row.job)) ∧
        (∀ r ∈ rows, row.Agrees r) ∧ ∃ r ∈ rows, row.sameLevel r = true) ∨
      ∃ fault, rows.push row = (rows, some fault) ∧ ∀ l p a j, fault ≠ .repeatedLevel l p a j := by
  rw [push]
  rcases conflict?_cases h row with ⟨hnone, hrest⟩ | ⟨hrepeated, hrest⟩ | ⟨fault, hfault, hother⟩
  · rw [hnone]
    exact Or.inl ⟨rfl, hrest⟩
  · rw [hrepeated]
    exact Or.inr (Or.inl ⟨rfl, hrest⟩)
  · rw [hfault]
    refine Or.inr (Or.inr ⟨fault, ?_, hother⟩)
    cases fault with
    | repeatedLevel l p a j => exact absurd rfl (hother l p a j)
    | _ => rfl

end Pushing

section Headings

theorem conflict?_map_heading (rows : RowTable) (row : RequestRow) :
    conflict? (rows.map RequestRow.heading) row = rows.conflict? row := by
  have hposition : row.samePosition ∘ RequestRow.heading = row.samePosition := rfl
  have hpart : row.samePart ∘ RequestRow.heading = row.samePart := rfl
  have hlevel : row.sameLevel ∘ RequestRow.heading = row.sameLevel := rfl
  simp only [conflict?, List.find?_map, List.any_map, hposition, hpart, hlevel]
  cases rows.find? row.samePosition <;> cases rows.find? row.samePart <;> rfl

/-- Tables with the same headings say the same to a further row. -/
theorem conflict?_congr (h : rows.map RequestRow.heading = rows'.map RequestRow.heading)
    (row : RequestRow) : rows.conflict? row = rows'.conflict? row := by
  rw [← conflict?_map_heading, h, conflict?_map_heading]

theorem agrees_heading : r.heading.Agrees s.heading ↔ r.Agrees s :=
  ⟨fun h => ⟨h.position, h.part⟩, fun h => ⟨h.position, h.part⟩⟩

theorem consistent_map_heading : Consistent (rows.map RequestRow.heading) ↔ rows.Consistent := by
  constructor
  · intro h
    refine ⟨fun r hr s hs => agrees_heading.1 ?_, List.pairwise_map.1 h.level⟩
    exact h.agree _ (List.mem_map_of_mem hr) _ (List.mem_map_of_mem hs)
  · intro h
    refine ⟨List.forall_mem_map.2 fun r hr => List.forall_mem_map.2 fun s hs => ?_,
      List.pairwise_map.2 h.level⟩
    exact agrees_heading.2 (h.agree r hr s hs)

/-- A refused row leaves the headings as they are. -/
theorem map_heading_push (h : rows.Consistent) (hfault : (rows.push row).2 = some fault) :
    (rows.push row).1.map RequestRow.heading = rows.map RequestRow.heading := by
  rcases push_cases h row with ⟨hpush, _⟩ | ⟨hpush, hagrees, _⟩ | ⟨_, hpush, _⟩
  · rw [hpush] at hfault
    cases hfault
  · rw [hpush, List.map_map]
    exact List.map_congr_left fun r hr => heading_replacedBy (hagrees r hr)
  · rw [hpush]

theorem consistent_concat (h : rows.Consistent) (hagrees : ∀ r ∈ rows, row.Agrees r)
    (hlevel : ∀ r ∈ rows, row.sameLevel r = false) : Consistent (rows ++ [row]) where
  agree := by
    intro r hr s hs
    rw [List.mem_append, List.mem_singleton] at hr hs
    rcases hr with hr | rfl <;> rcases hs with hs | rfl
    · exact h.agree r hr s hs
    · exact (hagrees r hr).symm
    · exact hagrees s hs
    · exact RequestRow.Agrees.refl _
  level := by
    refine List.pairwise_append.2 ⟨h.level, List.pairwise_singleton _ _, fun r hr s hs => ?_⟩
    rw [List.mem_singleton.1 hs, RequestRow.sameLevel_comm]
    exact hlevel r hr

theorem consistent_push (h : rows.Consistent) (row : RequestRow) : (rows.push row).1.Consistent := by
  cases hfault : (rows.push row).2 with
  | some fault =>
      rw [← consistent_map_heading, map_heading_push h hfault, consistent_map_heading]
      exact h
  | none =>
      rcases push_cases h row with ⟨hpush, hagrees, hlevel⟩ | ⟨hpush, _⟩ | ⟨_, hpush, _⟩
      · rw [hpush]
        exact consistent_concat h hagrees hlevel
      all_goals
        rw [hpush] at hfault
        cases hfault

end Headings

section Histories

/-- The table after rows were pushed one by one, each of them accepted or refused. -/
def afterAll (rows : RowTable) (new : List RequestRow) : RowTable :=
  new.foldl (fun rows row => (rows.push row).1) rows

theorem consistent_afterAll (h : rows.Consistent) (new : List RequestRow) :
    (rows.afterAll new).Consistent := by
  induction new generalizing rows with
  | nil => exact h
  | cons row rest ih => exact ih (consistent_push h row)

theorem eq_afterAll_of_pushAll (h : pushAll rows new = .ok out) : out = rows.afterAll new := by
  induction new generalizing rows with
  | nil =>
      cases h
      rfl
  | cons row rest ih =>
      rw [pushAll] at h
      split at h
      · rename_i rows' hpush
        rw [ih h, afterAll, afterAll, List.foldl_cons, hpush]
      · cases h

/-- An empty table holds all the rows after they were accepted. -/
theorem eq_of_pushAll (h : pushAll [] rows = .ok out) : out = rows := (pushAll_eq_ok_iff.1 h).1

theorem consistent_of_pushAll (h : pushAll [] rows = .ok out) : out.Consistent := by
  rw [eq_afterAll_of_pushAll h]
  exact consistent_afterAll consistent_nil rows

end Histories

end RowTable

end ClusterPlan
