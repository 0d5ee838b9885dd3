import ClusterPlan.Proofs.Request.Reading

/-!
Whole families of jobs as flat rows. The rows of several jobs may stand in any order among one another:
they are accepted, and the jobs that have an alternative are put together again as they were declared.
The other way round, rows that leave no place out are the rows of the jobs that are put together from
them.
-/

namespace ClusterPlan

namespace RowTable

/-- The rows of several jobs. -/
def ofJobs (family : List (Int × List Alternative)) : RowTable :=
  family.flatMap fun e => ofAlternatives e.1 e.2

section Declared

variable {family : List (Int × List Alternative)} {rows : RowTable} {job : Int}
  {alternatives : List Alternative}

theorem ofAlternatives_ne_nil (hall : ∀ a ∈ alternatives, a.HasRows) (hne : alternatives ≠ []) :
    ofAlternatives job alternatives ≠ [] := by
  rw [ofAlternatives_eq]
  obtain ⟨e, he⟩ := List.exists_mem_of_ne_nil _ (mt List.zipIdx_eq_nil_iff.1 hne)
  exact fun hnil => alternativeRows_ne_nil (hall e.1 (List.fst_mem_of_mem_zipIdx he))
    (List.flatMap_eq_nil_iff.1 hnil e he)

theorem filter_ofJobs_of_not_mem (h : job ∉ family.map Prod.fst) :
    (ofJobs family).filter (fun r => r.job = job) = [] := by
  refine List.filter_eq_nil_iff.2 fun r hr hjob => ?_
  obtain ⟨e, he, hr⟩ := List.mem_flatMap.1 hr
  rw [job_of_mem_ofAlternatives hr, decide_eq_true_eq] at hjob
  exact h (List.mem_map.2 ⟨e, he, hjob⟩)

/-- In a family with distinct ids, the rows of one job are those of its own alternatives. -/
theorem filter_ofJobs (hids : (family.map Prod.fst).Nodup) (h : (job, alternatives) ∈ family) :
    (ofJobs family).filter (fun r => r.job = job) = ofAlternatives job alternatives := by
  induction family with
  | nil => exact absurd h List.not_mem_nil
  | cons e rest ih =>
      rw [List.map_cons, List.nodup_cons] at hids
      change (ofAlternatives e.1 e.2 ++ ofJobs rest).filter _ = _
      rw [List.filter_append, filter_ofAlternatives]
      rcases List.mem_cons.1 h with rfl | h
      · rw [if_pos rfl, filter_ofJobs_of_not_mem hids.1, List.append_nil]
      · have hne : e.1 ≠ job := fun heq =>
          hids.1 (heq ▸ List.mem_map_of_mem (f := Prod.fst) h)
        rw [if_neg hne, List.nil_append, ih hids.2 h]

/-- The rows of a family are accepted in any order. -/
theorem pushAll_ofJobs (hids : (family.map Prod.fst).Nodup) (hrows : rows.Perm (ofJobs family)) :
    pushAll [] rows = .ok rows := by
  have haccepted : ∃ out, pushAll [] rows = .ok out := by
    refine isOk_pushAll_iff.2 fun job => ?_
    have hown := hrows.filter fun r => r.job = job
    by_cases hjob : job ∈ family.map Prod.fst
    · obtain ⟨⟨_, alternatives⟩, he, rfl⟩ := List.mem_map.1 hjob
      rw [filter_ofJobs hids he] at hown
      exact ⟨_, pushAll_ofAlternatives hown⟩
    · rw [filter_ofJobs_of_not_mem hjob] at hown
      rw [hown.eq_nil]
      exact ⟨[], rfl⟩
  obtain ⟨out, hout⟩ := haccepted
  rw [hout, eq_of_pushAll hout]

theorem mem_assemble {e : Int × List Alternative} : e ∈ assemble rows ↔
    (rows.filter fun r => r.job = e.1) ≠ [] ∧
      e.2 = RowTable.alternatives (rows.filter fun r => r.job = e.1) := by
  rw [assemble_eq, List.mem_map]
  constructor
  · rintro ⟨g, hg, rfl⟩
    obtain ⟨hown, hne⟩ := mem_gather.1 hg
    rw [hown] at hne
    exact ⟨hne, congrArg RowTable.alternatives hown⟩
  · rintro ⟨hne, halternatives⟩
    exact ⟨(e.1, rows.filter fun r => r.job = e.1), mem_gather.2 ⟨rfl, hne⟩,
      Prod.ext rfl halternatives.symm⟩

/-- Jobs are put together in ascending order. -/
theorem pairwise_assemble (rows : RowTable) : (assemble rows).Pairwise fun e e' => e.1 < e'.1 := by
  rw [assemble_eq, gather, List.map_map, List.pairwise_map]
  exact Table.ascending_ofList (rows.map (·.job))

/-- Of a family, those jobs are put together that have an alternative. -/
theorem assemble_ofJobs (hids : (family.map Prod.fst).Nodup)
    (hall : ∀ e ∈ family, ∀ a ∈ e.2, a.HasRows) (hrows : rows.Perm (ofJobs family)) :
    (assemble rows).Perm (family.filter fun e => e.2 ≠ []) := by
  have hassembled : (assemble rows).Nodup :=
    (pairwise_assemble rows).imp fun hlt heq => hlt.ne (congrArg Prod.fst heq)
  have hdeclared : (family.filter fun e => e.2 ≠ []).Nodup := hids.of_map.filter _
  have hown : ∀ e ∈ family, (rows.filter fun r => r.job = e.1).Perm (ofAlternatives e.1 e.2) :=
    fun e he => filter_ofJobs hids he ▸ hrows.filter _
  refine (List.perm_ext_iff_of_nodup hassembled hdeclared).2 fun e => ?_
  rw [mem_assemble, List.mem_filter, decide_eq_true_eq]
  constructor
  · rintro ⟨hne, halternatives⟩
    obtain ⟨r, hr⟩ := List.exists_mem_of_ne_nil _ hne
    obtain ⟨hr, hjob⟩ := List.mem_filter.1 hr
    obtain ⟨⟨job, declared⟩, he, hr⟩ := List.mem_flatMap.1 (hrows.mem_iff.1 hr)
    obtain rfl : job = e.1 := (job_of_mem_ofAlternatives hr).symm.trans (of_decide_eq_true hjob)
    rw [alternatives_ofAlternatives (hown _ he) (hall _ he)] at halternatives
    subst halternatives
    refine ⟨he, fun hnil => ?_⟩
    rw [hnil] at hr
    exact List.not_mem_nil hr
  · rintro ⟨he, hne⟩
    refine ⟨fun hnil => ?_, (alternatives_ofAlternatives (hown e he) (hall e he)).symm⟩
    have hempty := hown e he
    rw [hnil] at hempty
    exact ofAlternatives_ne_nil (hall e he) hne hempty.nil_eq.symm

end Declared

section Dense

variable {rows own : RowTable} {key : RequestRow → Nat} {job : Int} {position part : Nat}

/-- Whatever place a row has, there are rows at all the places before it. -/
structure Dense (rows : RowTable) : Prop where
  positions : ∀ row ∈ rows, ∀ i < row.position, ∃ r ∈ rows, r.job = row.job ∧ r.position = i
  parts : ∀ row ∈ rows, ∀ i < row.part, ∃ r ∈ rows, row.samePosition r = true ∧ r.part = i
  levels : ∀ row ∈ rows, ∀ i < row.level, ∃ r ∈ rows, row.samePart r = true ∧ r.level = i

instance (rows : RowTable) : Decidable rows.Dense :=
  decidable_of_iff
    ((∀ row ∈ rows, ∀ i < row.position, ∃ r ∈ rows, r.job = row.job ∧ r.position = i) ∧
      (∀ row ∈ rows, ∀ i < row.part, ∃ r ∈ rows, row.samePosition r = true ∧ r.part = i) ∧
      ∀ row ∈ rows, ∀ i < row.level, ∃ r ∈ rows, row.samePart r = true ∧ r.level = i)
    ⟨fun h => ⟨h.1, h.2.1, h.2.2⟩, fun h => ⟨h.positions, h.parts, h.levels⟩⟩

/-- The values of the key are the numbers below some bound. -/
def Counted (key : RequestRow → Nat) (rows : RowTable) : Prop :=
  ∀ row ∈ rows, ∀ i < key row, ∃ r ∈ rows, key r = i

theorem exists_length_of_counted (h : Counted key rows) :
    ∃ n, ∀ i, (∃ r ∈ rows, key r = i) ↔ i < n := by
  obtain ⟨k, hk⟩ := Infinite.exists_notMem_finset (rows.map key).toFinset
  have hfree : ∃ k, ¬ ∃ r ∈ rows, key r = k := ⟨k, by simpa using hk⟩
  classical
  refine ⟨Nat.find hfree, fun i => ⟨?_, fun hi => not_not.1 (Nat.find_min hfree hi)⟩⟩
  rintro ⟨row, hrow, rfl⟩
  by_contra hle
  -- the least number that no row has would be below the key of this row
  rcases (not_lt.1 hle).lt_or_eq with hlt | heq
  · exact Nat.find_spec hfree (h row hrow _ hlt)
  · exact Nat.find_spec hfree ⟨row, hrow, heq.symm⟩

theorem gather_counted (h : Counted key rows) : ∃ n,
    gather (fun r => key r) rows = (List.range n).map fun i : Nat =>
      ((i : Int), rows.filter fun r => key r = i) := by
  obtain ⟨n, hn⟩ := exists_length_of_counted h
  refine ⟨n, ?_⟩
  have hkeys : ascending (rows.map fun r => (key r : Int)) = (List.range n).map Int.ofNat := by
    refine ascending_eq_range fun k => ?_
    simp only [List.mem_map, ← hn]
    constructor
    · rintro ⟨r, hr, rfl⟩
      exact ⟨key r, ⟨r, hr, rfl⟩, rfl⟩
    · rintro ⟨i, ⟨r, hr, rfl⟩, rfl⟩
      exact ⟨r, hr, rfl⟩
  rw [gather, hkeys, List.map_map]
  refine List.map_congr_left fun i _ => ?_
  simp only [Function.comp_apply, Int.ofNat_eq_natCast, Int.ofNat_inj]

theorem flatMap_zipIdx_of_singletons {α β : Type} {xs : List α} {read : α → List β}
    {block : β × Nat → RowTable} {order : α → RowTable} {n : Nat}
    (h : ∀ e ∈ xs.zipIdx n, ∃ b, read e.1 = [b] ∧ block (b, e.2) = order e.1) :
    ((xs.flatMap read).zipIdx n).flatMap block = xs.flatMap order := by
  induction xs generalizing n with
  | nil => rfl
  | cons x rest ih =>
      rw [List.zipIdx_cons, List.forall_mem_cons] at h
      obtain ⟨⟨b, hread, hblock⟩, hrest⟩ := h
      rw [List.flatMap_cons, hread, List.singleton_append, List.zipIdx_cons, List.flatMap_cons,
        hblock, ih hrest, List.flatMap_cons]

/-- Where a key leaves no number out, what is read from the rows of each key has its block at the place
of that key. -/
theorem blocks_of_counted {β : Type} (read : RowTable → List β)
    {block : β × Nat → RowTable} {order : RowTable → RowTable} (hkey : Counted key rows)
    (h : ∀ i : Nat, (rows.filter fun r => key r = i) ≠ [] →
      ∃ b, read (rows.filter fun r => key r = i) = [b] ∧
        block (b, i) = order (rows.filter fun r => key r = i)) :
    (((gather (fun r => key r) rows).flatMap (read ·.2)).zipIdx).flatMap block =
      readBy (fun r => key r) order rows := by
  refine flatMap_zipIdx_of_singletons fun e he => ?_
  obtain ⟨n, hn⟩ := gather_counted hkey
  have hne := (mem_gather.1 (List.fst_mem_of_mem_zipIdx he)).2
  rw [hn, List.mk_mem_zipIdx_iff_getElem?, List.getElem?_map, Option.map_eq_some_iff] at he
  obtain ⟨i, hi, heq⟩ := he
  obtain ⟨hlt, rfl⟩ := List.getElem?_eq_some_iff.1 hi
  rw [List.getElem_range] at heq
  rw [← heq] at hne ⊢
  exact h e.2 hne

theorem Consistent.filter (h : rows.Consistent) (p : RequestRow → Bool) :
    Consistent (rows.filter p) where
  agree := fun r hr s hs => h.agree r (List.mem_of_mem_filter hr) s (List.mem_of_mem_filter hs)
  level := h.level.filter p

theorem filter_eq_singleton {r : RequestRow} (h : rows.Pairwise fun r s => key r ≠ key s)
    (hr : r ∈ rows) : rows.filter (fun s => key s = key r) = [r] := by
  obtain ⟨front, back, rfl⟩ := List.append_of_mem hr
  obtain ⟨_, hback, hfront⟩ := List.pairwise_append.1 h
  rw [List.append_cons]
  refine filter_middle ?_ ?_ ?_
  · exact fun s hs => decide_eq_false (hfront s hs r List.mem_cons_self)
  · exact fun s hs => decide_eq_true (congrArg key (List.mem_singleton.1 hs))
  · exact fun s hs => decide_eq_false (List.rel_of_pairwise_cons hback hs).symm

theorem filter_toPart (h : own.Consistent) (hsame : ∀ r ∈ own, ∀ s ∈ own, r.samePart s = true) :
    ∀ r ∈ own, r.filter = (toPart own).filter := by
  intro r hr
  cases own with
  | nil => exact absurd hr List.not_mem_nil
  | cons first rest =>
      have hfirst : first ∈ first :: rest := List.mem_cons_self
      exact (h.agree first hfirst r hr).part (hsame first hfirst r hr)

/-- Rows of one part that leave no level out are those of the part that is put together from them. -/
theorem partRows_toPart {a : Alternative} (h : own.Consistent)
    (hplace : ∀ r ∈ own, (r.job = job ∧ r.position = position) ∧ r.part = part)
    (ha : ∀ r ∈ own, r.alternative = a.id ∧ r.walltime = a.walltime)
    (hlevels : Counted (·.level) own) :
    partRows job position a (toPart own, part) = partInOrder own := by
  have hsame : ∀ r ∈ own, ∀ s ∈ own, r.samePart s = true := by
    intro r hr s hs
    obtain ⟨⟨hjob, hposition⟩, hpart⟩ := hplace r hr
    obtain ⟨⟨hjob', hposition'⟩, hpart'⟩ := hplace s hs
    exact RequestRow.samePart_iff.2 ⟨⟨hjob.trans hjob'.symm, hposition.trans hposition'.symm⟩,
      hpart.trans hpart'.symm⟩
  have hdistinct : own.Pairwise fun r s => r.level ≠ s.level := by
    refine h.level.imp_of_mem fun {r s} hr hs hdiffer heq => ?_
    rw [RequestRow.sameLevel, hsame r hr s hs, Bool.true_and, beq_eq_false_iff_ne] at hdiffer
    exact hdiffer heq
  have hrow : ∀ r ∈ own, levelRow job position a part (toPart own) (r.wanted, r.level) = r := by
    intro r hr
    obtain ⟨⟨rfl, rfl⟩, rfl⟩ := hplace r hr
    rw [levelRow, ← (ha r hr).1, ← (ha r hr).2, ← filter_toPart h hsame r hr]
    rfl
  refine blocks_of_counted (fun own => own.map RequestRow.wanted) hlevels fun i hne => ?_
  obtain ⟨r, hfound⟩ := List.exists_mem_of_ne_nil _ hne
  obtain ⟨hr, hi⟩ := List.mem_filter.1 hfound
  obtain rfl : r.level = i := of_decide_eq_true hi
  rw [filter_eq_singleton hdistinct hr]
  exact ⟨r.wanted, rfl, congrArg (fun s => [s]) (hrow r hr)⟩

theorem alternativeRows_toAlternative {a : Alternative} (h : own.Consistent)
    (hplace : ∀ r ∈ own, r.job = job ∧ r.position = position) (ha : toAlternative own = some a)
    (hparts : Counted (·.part) own)
    (hlevels : ∀ i, Counted (·.level) (own.filter fun r => r.part = i)) :
    alternativeRows job (a, position) = alternativeInOrder own := by
  cases own with
  | nil => cases ha
  | cons first rest =>
      have hstated : ∀ r ∈ first :: rest, r.alternative = a.id ∧ r.walltime = a.walltime := by
        intro r hr
        obtain ⟨hjob, hposition⟩ := hplace first List.mem_cons_self
        obtain ⟨hjob', hposition'⟩ := hplace r hr
        cases ha
        exact (h.agree first List.mem_cons_self r hr).position (RequestRow.samePosition_iff.2
          ⟨hjob.trans hjob'.symm, hposition.trans hposition'.symm⟩)
      have hread : a.parts = (gather (fun r => r.part) (first :: rest)).flatMap fun e =>
          [toPart e.2] := by
        cases ha
        rw [List.map_eq_flatMap]
      rw [alternativeRows, hread]
      refine blocks_of_counted (fun own => [toPart own]) hparts fun i _ => ⟨_, rfl, ?_⟩
      refine partRows_toPart (h.filter _) (fun r hr => ?_) (fun r hr => ?_) (hlevels i)
      · obtain ⟨hr, hi⟩ := List.mem_filter.1 hr
        exact ⟨hplace r hr, of_decide_eq_true hi⟩
      · exact hstated r (List.mem_of_mem_filter hr)

theorem exists_toAlternative (hne : own ≠ []) : ∃ a, toAlternative own = some a := by
  cases own with
  | nil => exact absurd rfl hne
  | cons first rest => exact ⟨_, rfl⟩

theorem ofAlternatives_alternatives (h : own.Consistent) (hplace : ∀ r ∈ own, r.job = job)
    (hpositions : Counted (·.position) own)
    (hparts : ∀ i, Counted (·.part) (own.filter fun r => r.position = i))
    (hlevels : ∀ i j, Counted (·.level)
      ((own.filter fun r => r.position = i).filter fun r => r.part = j)) :
    ofAlternatives job (alternatives own) = jobInOrder own := by
  rw [ofAlternatives_eq, alternatives_eq]
  refine blocks_of_counted (fun own => (toAlternative own).toList) hpositions fun i hne => ?_
  obtain ⟨a, ha⟩ := exists_toAlternative hne
  refine ⟨a, by rw [ha]; rfl, ?_⟩
  refine alternativeRows_toAlternative (h.filter _) (fun r hr => ?_) ha (hparts i) (hlevels i)
  obtain ⟨hr, hi⟩ := List.mem_filter.1 hr
  exact ⟨hplace r hr, of_decide_eq_true hi⟩

/-- Rows that leave no place out are the rows of the jobs that are put together from them, in the order
in which they are read for that. -/
theorem ofJobs_assemble (h : rows.Consistent) (hdense : rows.Dense) :
    ofJobs (assemble rows) = inOrder rows := by
  rw [ofJobs, assemble_eq, List.flatMap_map]
  refine List.flatMap_congr fun e he => ?_
  obtain ⟨hown, _⟩ := mem_gather.1 he
  rw [hown]
  refine ofAlternatives_alternatives (h.filter _) (fun r hr => ?_) (fun r hr i hi => ?_)
    (fun p r hr i hi => ?_) fun p q r hr i hi => ?_
  · exact of_decide_eq_true (List.mem_filter.1 hr).2
  all_goals simp only [List.mem_filter, decide_eq_true_eq] at hr ⊢
  · obtain ⟨s, hs, hjob, hi⟩ := hdense.positions r hr.1 i hi
    exact ⟨s, ⟨hs, hjob.trans hr.2⟩, hi⟩
  · obtain ⟨s, hs, hsame, hi⟩ := hdense.parts r hr.1.1 i hi
    obtain ⟨hjob, hposition⟩ := RequestRow.samePosition_iff.1 hsame
    exact ⟨s, ⟨⟨hs, hjob.symm.trans hr.1.2⟩, hposition.symm.trans hr.2⟩, hi⟩
  · obtain ⟨s, hs, hsame, hi⟩ := hdense.levels r hr.1.1.1 i hi
    obtain ⟨⟨hjob, hposition⟩, hpart⟩ := RequestRow.samePart_iff.1 hsame
    exact ⟨s, ⟨⟨⟨hs, hjob.symm.trans hr.1.1.2⟩, hposition.symm.trans hr.1.2⟩,
      hpart.symm.trans hr.2⟩, hi⟩

end Dense

/-- Jobs are stored as rows and put together from them without a loss. Whatever order the rows of a
family come in, they are accepted and describe its jobs that have an alternative, in ascending order and
each as it was declared; and accepted rows that leave no place out are, up to their order, the rows of
the jobs that they describe. -/
theorem ofJobs_inverse :
    (∀ (family : List (Int × List Alternative)) (rows : RowTable), (family.map Prod.fst).Nodup →
      (∀ e ∈ family, ∀ a ∈ e.2, a.HasRows) → rows.Perm (ofJobs family) →
      ∃ table, pushAll [] rows = .ok table ∧
        (assemble table).Perm (family.filter fun e => e.2 ≠ []) ∧
        (assemble table).Pairwise fun e e' => e.1 < e'.1) ∧
    ∀ rows table : RowTable, pushAll [] rows = .ok table → rows.Dense →
      (ofJobs (assemble table)).Perm rows := by
  constructor
  · intro family rows hids hall hrows
    exact ⟨rows, pushAll_ofJobs hids hrows, assemble_ofJobs hids hall hrows, pairwise_assemble rows⟩
  · intro rows table htable hdense
    obtain rfl := eq_of_pushAll htable
    rw [ofJobs_assemble (consistent_of_pushAll htable) hdense]
    exact inOrder_perm table

/-- Job 2 has two alternatives, the first of them with two parts. Job 5 has none. -/
def scatteredFamily : List (Int × List Alternative) :=
  [(2, [⟨12, 60, [⟨none, [⟨"network_address", 2⟩, ⟨"resource_id", 4⟩]⟩,
      ⟨some "gpu = 'yes'", [⟨"resource_id", 1⟩]⟩]⟩, ⟨11, 30, [⟨none, [⟨"resource_id", 8⟩]⟩]⟩]),
    (5, []), (1, [⟨3, 60, [⟨none, [⟨"resource_id", 1⟩]⟩]⟩])]

def scatteredRows : RowTable :=
  [⟨2, 0, 12, 60, 0, none, 1, "resource_id", 4⟩, ⟨1, 0, 3, 60, 0, none, 0, "resource_id", 1⟩,
    ⟨2, 1, 11, 30, 0, none, 0, "resource_id", 8⟩, ⟨2, 0, 12, 60, 0, none, 0, "network_address", 2⟩,
    ⟨2, 0, 12, 60, 1, some "gpu = 'yes'", 0, "resource_id", 1⟩]

theorem ofJobs_inverse_scattered :
    (scatteredRows.Perm (ofJobs scatteredFamily) ∧ ∃ table, pushAll [] scatteredRows = .ok table ∧
      (assemble table).Perm (scatteredFamily.filter fun e => e.2 ≠ []) ∧
      (assemble table).Pairwise fun e e' => e.1 < e'.1) ∧
    pushAll [] scatteredRows = .ok scatteredRows ∧ scatteredRows.Dense ∧
      (ofJobs (assemble scatteredRows)).Perm scatteredRows := by
  have hrows : scatteredRows.Perm (ofJobs scatteredFamily) := by decide
  have haccepted : pushAll [] scatteredRows = .ok scatteredRows := by decide
  have hdense : scatteredRows.Dense := by decide
  exact ⟨⟨hrows, ofJobs_inverse.1 scatteredFamily scatteredRows (by decide) (by decide) hrows⟩,
    haccepted, hdense, ofJobs_inverse.2 scatteredRows scatteredRows haccepted hdense⟩

/-- A job without alternatives has no rows, so it is not among the jobs that are put together. -/
theorem assemble_scatteredFamily : (scatteredFamily.map Prod.fst).Nodup ∧
    (∀ e ∈ scatteredFamily, ∀ a ∈ e.2, a.HasRows) ∧
    pushAll [] (ofJobs scatteredFamily) = .ok (ofJobs scatteredFamily) ∧
    ¬ (assemble (ofJobs scatteredFamily)).Perm scatteredFamily := by decide

end RowTable

end ClusterPlan
