import ClusterPlan.Proofs.Store.Assembling

/-!
Alternatives that are stored as flat rows. The rows that describe a job have nothing to say against one
another, and in whatever order they are read, the alternatives that they describe are put together again
as they were declared.
-/

namespace ClusterPlan

/-- The alternative has a part and each part has a level, so there are rows to describe all of it. -/
def Alternative.HasRows (a : Alternative) : Prop := a.parts ≠ [] ∧ ∀ p ∈ a.parts, p.levels ≠ []

instance (a : Alternative) : Decidable a.HasRows := inferInstanceAs (Decidable (_ ∧ _))

theorem ascending_eq_range {ids : List Int} {n : Nat}
    (h : ∀ k : Int, k ∈ ids ↔ ∃ i < n, (i : Int) = k) :
    ascending ids = (List.range n).map Int.ofNat := by
  have hascending : (ascending ids).Pairwise (· < ·) := Table.ascending_ofList ids
  refine hascending.eq_of_mem_iff ?_ fun k => ?_
  · exact List.pairwise_map.2 (List.pairwise_lt_range.imp Int.ofNat_lt.2)
  · simp only [mem_ascending, h, List.mem_map, List.mem_range, Int.ofNat_eq_natCast]

namespace RowTable

section Blocks

/-! Rows that stand block by block, one block for each member of a list. -/

variable {α β : Type} {xs : List α} {block : α × Nat → RowTable} {key : RequestRow → Nat}
  {rows : RowTable} {i : Nat}

/-- The key of a row is the place of the member that its block stands for. -/
def Numbers (key : RequestRow → Nat) (block : α × Nat → RowTable) : Prop :=
  ∀ e, ∀ row ∈ block e, key row = e.2

theorem mem_blocks {row : RequestRow} (hkey : Numbers key block) :
    row ∈ xs.zipIdx.flatMap block ↔ ∃ x, xs[key row]? = some x ∧ row ∈ block (x, key row) := by
  simp only [List.mem_flatMap, Prod.exists, List.mk_mem_zipIdx_iff_getElem?]
  constructor
  · rintro ⟨x, i, hx, hrow⟩
    obtain rfl : key row = i := hkey _ row hrow
    exact ⟨x, hx, hrow⟩
  · rintro ⟨x, hx, hrow⟩
    exact ⟨x, key row, hx, hrow⟩

/-- The rows with one key are those of one block. -/
theorem filter_blocks (hkey : Numbers key block) (hi : i < xs.length) :
    (xs.zipIdx.flatMap block).filter (fun row => key row = i) = block (xs[i], i) := by
  have hplaces : xs.zipIdx =
      (xs.take i).zipIdx ++ (xs[i], i) :: (xs.drop (i + 1)).zipIdx (i + 1) := by
    have hlength : (xs.take i).length = i := List.length_take_of_le hi.le
    conv_lhs => rw [← List.take_append_drop i xs, ← List.cons_getElem_drop_succ (h := hi)]
    rw [List.zipIdx_append, List.zipIdx_cons, hlength, Nat.zero_add]
  rw [hplaces, List.flatMap_append, List.flatMap_cons, ← List.append_assoc]
  refine filter_middle ?_ ?_ ?_
  · rintro row hrow
    obtain ⟨e, he, hrow⟩ := List.mem_flatMap.1 hrow
    have hlt := List.snd_lt_of_mem_zipIdx he
    rw [List.length_take] at hlt
    rw [hkey e row hrow]
    exact decide_eq_false (by omega)
  · intro row hrow
    exact decide_eq_true (hkey _ row hrow)
  · intro row hrow
    obtain ⟨e, he, hrow⟩ := List.mem_flatMap.1 hrow
    have hle := List.le_snd_of_mem_zipIdx he
    rw [hkey e row hrow]
    exact decide_eq_false (by omega)

theorem gather_blocks (hrows : rows.Perm (xs.zipIdx.flatMap block)) (hkey : Numbers key block)
    (hne : ∀ x ∈ xs, ∀ i, block (x, i) ≠ []) :
    gather (fun row => key row) rows =
      (List.range xs.length).map fun i : Nat =>
        ((i : Int), rows.filter fun row => key row = i) := by
  have hkeys : ascending (rows.map fun row => (key row : Int)) =
      (List.range xs.length).map Int.ofNat := by
    refine ascending_eq_range fun k => ?_
    simp only [List.mem_map, hrows.mem_iff, List.mem_flatMap]
    constructor
    · rintro ⟨row, ⟨e, he, hrow⟩, rfl⟩
      have hlt := List.snd_lt_of_mem_zipIdx he
      rw [← hkey e row hrow, Nat.add_zero] at hlt
      exact ⟨key row, hlt, rfl⟩
    · rintro ⟨i, hi, rfl⟩
      obtain ⟨row, hrow⟩ := List.exists_mem_of_ne_nil _ (hne xs[i] (List.getElem_mem hi) i)
      refine ⟨row, ⟨_, List.mk_mem_zipIdx_iff_getElem?.2 (List.getElem?_eq_getElem hi), hrow⟩, ?_⟩
      exact congrArg _ (hkey _ row hrow)
  rw [gather, hkeys, List.map_map]
  refine List.map_congr_left fun i _ => ?_
  simp only [Function.comp_apply, Int.ofNat_eq_natCast, Int.ofNat_inj]

/-- What is read from the rows of each key is read block by block. -/
theorem map_gather_blocks {read : Int × RowTable → β} {value : α → β}
    (hrows : rows.Perm (xs.zipIdx.flatMap block)) (hkey : Numbers key block)
    (hne : ∀ x ∈ xs, ∀ i, block (x, i) ≠ [])
    (hread : ∀ x ∈ xs, ∀ i : Nat, ∀ own : RowTable, own.Perm (block (x, i)) →
      read (i, own) = value x) :
    (gather (fun row => key row) rows).map read = xs.map value := by
  rw [gather_blocks hrows hkey hne]
  refine List.ext_getElem (by simp) fun i hi hi' => ?_
  rw [List.length_map] at hi'
  simp only [List.getElem_map, List.getElem_range]
  refine hread _ (List.getElem_mem hi') i _ ?_
  rw [← filter_blocks hkey hi']
  exact hrows.filter _

/-- Rows of one block differ, and rows of two blocks differ in their keys. -/
theorem pairwise_blocks {R : RequestRow → RequestRow → Prop} (hkey : Numbers key block)
    (hblock : ∀ e, (block e).Pairwise R) (hR : ∀ row row', key row ≠ key row' → R row row') :
    (xs.zipIdx.flatMap block).Pairwise R := by
  refine List.pairwise_flatMap.2 ⟨fun e _ => hblock e, ?_⟩
  have hplaces : xs.zipIdx.Pairwise fun e e' => e.2 ≠ e'.2 := by
    refine List.pairwise_map.1 (?_ : (xs.zipIdx.map Prod.snd).Pairwise (· ≠ ·))
    rw [List.zipIdx_map_snd]
    exact List.nodup_range'
  refine hplaces.imp fun hne row hrow row' hrow' => hR row row' ?_
  rwa [hkey _ row hrow, hkey _ row' hrow']

end Blocks

section Alternatives

variable {job : Int} {alternatives : List Alternative} {a : Alternative} {p : Part}
  {position part : Nat} {rows : RowTable} {row row' : RequestRow}

def levelRow (job : Int) (position : Nat) (a : Alternative) (part : Nat) (p : Part)
    (e : Level × Nat) : RequestRow :=
  ⟨job, position, a.id, a.walltime, part, p.filter, e.2, e.1.property, e.1.count⟩

def partRows (job : Int) (position : Nat) (a : Alternative) (e : Part × Nat) : RowTable :=
  e.1.levels.zipIdx.flatMap fun l => [levelRow job position a e.2 e.1 l]

def alternativeRows (job : Int) (e : Alternative × Nat) : RowTable :=
  e.1.parts.zipIdx.flatMap (partRows job e.2 e.1)

theorem ofAlternatives_eq (job : Int) (alternatives : List Alternative) :
    ofAlternatives job alternatives = alternatives.zipIdx.flatMap (alternativeRows job) := by
  simp only [ofAlternatives, List.map_eq_flatMap]
  rfl

theorem numbers_levelRow :
    Numbers RequestRow.level fun l => [levelRow job position a part p l] := by
  intro e row hrow
  rw [List.mem_singleton.1 hrow]
  rfl

theorem of_mem_partRows {e : Part × Nat} (h : row ∈ partRows job position a e) :
    ∃ l ∈ e.1.levels.zipIdx, row = levelRow job position a e.2 e.1 l := by
  obtain ⟨l, hl, hrow⟩ := List.mem_flatMap.1 h
  exact ⟨l, hl, List.mem_singleton.1 hrow⟩

theorem numbers_partRows : Numbers RequestRow.part (partRows job position a) := by
  intro e row hrow
  obtain ⟨l, _, rfl⟩ := of_mem_partRows hrow
  rfl

theorem of_mem_alternativeRows {e : Alternative × Nat} (h : row ∈ alternativeRows job e) :
    ∃ q ∈ e.1.parts.zipIdx, ∃ l ∈ q.1.levels.zipIdx, row = levelRow job e.2 e.1 q.2 q.1 l := by
  obtain ⟨q, hq, hrow⟩ := List.mem_flatMap.1 h
  exact ⟨q, hq, of_mem_partRows hrow⟩

theorem numbers_alternativeRows : Numbers RequestRow.position (alternativeRows job) := by
  intro e row hrow
  obtain ⟨q, _, l, _, rfl⟩ := of_mem_alternativeRows hrow
  rfl

theorem job_of_mem_ofAlternatives (h : row ∈ ofAlternatives job alternatives) : row.job = job := by
  rw [ofAlternatives_eq, mem_blocks numbers_alternativeRows] at h
  obtain ⟨a, _, hrow⟩ := h
  obtain ⟨q, _, l, _, hrow⟩ := of_mem_alternativeRows hrow
  rw [hrow]
  rfl

theorem filter_ofAlternatives (id : Int) :
    (ofAlternatives job alternatives).filter (fun r => r.job = id) =
      if job = id then ofAlternatives job alternatives else [] := by
  split
  · rename_i hid
    exact List.filter_eq_self.2 fun row hrow => by
      rw [job_of_mem_ofAlternatives hrow, hid, decide_eq_true rfl]
  · rename_i hid
    exact List.filter_eq_nil_iff.2 fun row hrow => by
      rw [job_of_mem_ofAlternatives hrow]
      simpa using hid

section Accepted

theorem conflict?_eq_none
    (hposition : ∀ r ∈ rows, row.samePosition r = true →
      r.alternative = row.alternative ∧ r.walltime = row.walltime)
    (hpart : ∀ r ∈ rows, row.samePart r = true → r.filter = row.filter)
    (hlevel : ∀ r ∈ rows, row.sameLevel r = false) : conflict? rows row = none := by
  simp only [conflict?]
  split
  · rfl
  · rename_i other hother
    obtain ⟨halternative, hwalltime⟩ :=
      hposition other (List.mem_of_find?_eq_some hother) (List.find?_some hother)
    rw [if_neg (not_not.2 halternative), if_neg (not_not.2 hwalltime)]
    split
    · rfl
    · rename_i other hother
      have hfilter := hpart other (List.mem_of_find?_eq_some hother) (List.find?_some hother)
      have hnone : ¬ rows.any row.sameLevel = true := by
        rw [List.any_eq_true]
        rintro ⟨r, hr, hsame⟩
        rw [hlevel r hr] at hsame
        cases hsame
      rw [if_neg (not_not.2 hfilter), if_neg hnone]

/-- Rows of one job say the same about their position and about their part. -/
theorem agree_of_mem (hrow : row ∈ ofAlternatives job alternatives)
    (hrow' : row' ∈ ofAlternatives job alternatives) (hposition : row.position = row'.position) :
    (row.alternative = row'.alternative ∧ row.walltime = row'.walltime) ∧
      (row.part = row'.part → row.filter = row'.filter) := by
  rw [ofAlternatives_eq, mem_blocks numbers_alternativeRows] at hrow hrow'
  obtain ⟨a, ha, hrow⟩ := hrow
  obtain ⟨a', ha', hrow'⟩ := hrow'
  rw [hposition, ha'] at ha
  cases ha
  rw [alternativeRows, mem_blocks numbers_partRows] at hrow hrow'
  obtain ⟨p, hp, hrow⟩ := hrow
  obtain ⟨p', hp', hrow'⟩ := hrow'
  obtain ⟨l, _, hlevel⟩ := of_mem_partRows hrow
  obtain ⟨l', _, hlevel'⟩ := of_mem_partRows hrow'
  constructor
  · rw [hlevel, hlevel']
    exact ⟨rfl, rfl⟩
  · intro hpart
    rw [hpart, hp'] at hp
    cases hp
    rw [hlevel, hlevel']
    rfl

/-- No level is described twice. -/
theorem pairwise_ofAlternatives (job : Int) (alternatives : List Alternative) :
    (ofAlternatives job alternatives).Pairwise fun row row' => row.sameLevel row' = false := by
  rw [ofAlternatives_eq]
  have hne : ∀ {row row' : RequestRow}, (row.position ≠ row'.position ∨ row.part ≠ row'.part ∨
      row.level ≠ row'.level) → row.sameLevel row' = false := by
    intro row row' h
    simp only [RequestRow.sameLevel, RequestRow.samePart, RequestRow.samePosition,
      Bool.and_eq_false_iff, beq_eq_false_iff_ne]
    tauto
  refine pairwise_blocks numbers_alternativeRows (fun e => ?_) fun _ _ h => hne (Or.inl h)
  refine pairwise_blocks numbers_partRows (fun q => ?_) fun _ _ h => hne (Or.inr (Or.inl h))
  refine pairwise_blocks numbers_levelRow (fun l => ?_) fun _ _ h => hne (Or.inr (Or.inr h))
  exact List.pairwise_singleton _ _

/-- The rows of a job are accepted in any order. -/
theorem pushAll_ofAlternatives (hrows : rows.Perm (ofAlternatives job alternatives)) :
    pushAll [] rows = .ok rows := by
  have hsymm : ∀ {row row' : RequestRow}, row.sameLevel row' = false →
      row'.sameLevel row = false := by
    intro row row' h
    simp only [RequestRow.sameLevel, RequestRow.samePart, RequestRow.samePosition] at h ⊢
    rw [← h]
    simp only [Bool.beq_comm]
  have hlevels := (hrows.pairwise_iff hsymm).2 (pairwise_ofAlternatives job alternatives)
  refine pushAll_eq_ok_iff.2 ⟨rfl, ?_⟩
  rintro front row back rfl
  rw [List.nil_append]
  have hmem : ∀ r ∈ front ++ row :: back, r ∈ ofAlternatives job alternatives := fun r hr =>
    hrows.mem_iff.1 hr
  have hrow := hmem row (List.mem_append_right _ List.mem_cons_self)
  have hfront : ∀ r ∈ front, r ∈ ofAlternatives job alternatives := fun r hr =>
    hmem r (List.mem_append_left _ hr)
  refine conflict?_eq_none ?_ ?_ ?_
  · intro r hr hsame
    simp only [RequestRow.samePosition, Bool.and_eq_true, beq_iff_eq] at hsame
    exact (agree_of_mem (hfront r hr) hrow hsame.2.symm).1
  · intro r hr hsame
    simp only [RequestRow.samePart, RequestRow.samePosition, Bool.and_eq_true, beq_iff_eq] at hsame
    exact (agree_of_mem (hfront r hr) hrow hsame.1.2.symm).2 hsame.2.symm
  · intro r hr
    exact hsymm ((List.pairwise_append.1 hlevels).2.2 r hr row List.mem_cons_self)

end Accepted

section Restored

theorem partRows_ne_nil (hlevels : p.levels ≠ []) : partRows job position a (p, part) ≠ [] := by
  intro hnil
  have hnone := List.flatMap_eq_nil_iff.1 hnil
  obtain ⟨l, hl⟩ := List.exists_mem_of_ne_nil _ (mt List.zipIdx_eq_nil_iff.1 hlevels)
  exact List.cons_ne_nil _ _ (hnone l hl)

theorem alternativeRows_ne_nil (ha : a.HasRows) : alternativeRows job (a, position) ≠ [] := by
  intro hnil
  have hnone := List.flatMap_eq_nil_iff.1 hnil
  obtain ⟨q, hq⟩ := List.exists_mem_of_ne_nil _ (mt List.zipIdx_eq_nil_iff.1 ha.1)
  exact partRows_ne_nil (ha.2 q.1 (List.fst_mem_of_mem_zipIdx hq)) (hnone q hq)

theorem exists_head?_of_perm {own : RowTable} (h : rows.Perm own) (hne : own ≠ []) :
    ∃ row ∈ own, rows.head? = some row := by
  cases rows with
  | nil => exact absurd h.nil_eq.symm hne
  | cons row rest => exact ⟨row, h.mem_iff.1 List.mem_cons_self, rfl⟩

theorem toPart_partRows (hlevels : p.levels ≠ [])
    (hrows : rows.Perm (partRows job position a (p, part))) : toPart rows = p := by
  obtain ⟨row, hrow, hhead⟩ := exists_head?_of_perm hrows (partRows_ne_nil hlevels)
  obtain ⟨l, _, rfl⟩ := of_mem_partRows hrow
  have hread : (gather (fun row => row.level) rows).map
      (fun e => e.2.map fun r => (⟨r.property, r.count⟩ : Level)) = p.levels.map fun l => [l] := by
    refine map_gather_blocks hrows numbers_levelRow (fun _ _ _ => List.cons_ne_nil _ _) ?_
    intro l _ i own hown
    rw [List.perm_singleton.1 hown]
    rfl
  rw [toPart, hhead, List.flatMap_def, hread, ← List.flatMap_def, List.flatMap_singleton']
  rfl

theorem toAlternative_alternativeRows (ha : a.HasRows)
    (hrows : rows.Perm (alternativeRows job (a, position))) : toAlternative rows = some a := by
  obtain ⟨row, hrow, hhead⟩ := exists_head?_of_perm hrows (alternativeRows_ne_nil ha)
  obtain ⟨q, _, l, _, rfl⟩ := of_mem_alternativeRows hrow
  have hread : (gather (fun row => row.part) rows).map (toPart ·.2) = a.parts.map id :=
    map_gather_blocks hrows numbers_partRows (fun p hp _ => partRows_ne_nil (ha.2 p hp))
      fun p hp _ _ hown => toPart_partRows (ha.2 p hp) hown
  rw [toAlternative, hhead, Option.map_some, hread, List.map_id]
  rfl

/-- In whatever order the rows of a job are read, they describe its alternatives as declared. -/
theorem alternatives_ofAlternatives (hrows : rows.Perm (ofAlternatives job alternatives))
    (hall : ∀ a ∈ alternatives, a.HasRows) : RowTable.alternatives rows = alternatives := by
  rw [ofAlternatives_eq] at hrows
  have hread : (gather (fun row => row.position) rows).map (toAlternative ·.2) =
      alternatives.map some :=
    map_gather_blocks hrows numbers_alternativeRows
      (fun a ha _ => alternativeRows_ne_nil (hall a ha))
      fun a ha _ _ hown => toAlternative_alternativeRows (hall a ha) hown
  calc RowTable.alternatives rows
      = ((gather (fun row => row.position) rows).map (toAlternative ·.2)).filterMap id := by
        rw [List.filterMap_map]
        rfl
    _ = alternatives := by rw [hread, List.filterMap_map, Function.id_comp, List.filterMap_some]

/-- An alternative without parts has no rows, so nothing is known of it afterwards. -/
example : RowTable.alternatives (ofAlternatives 7 [⟨12, 60, []⟩]) = [] := by decide

end Restored

end Alternatives

end RowTable

end ClusterPlan
