import ClusterPlan.Dictionary

/-!
Look-ups in tables and dictionaries. A table with its rows in strictly ascending order has at most one
row for each number, so a look-up finds exactly the row that is there.
-/

namespace ClusterPlan

namespace Table

variable {α : Type u} {key : α → Int} {rows : List α} {row r : α} {j k : Int}

/-- The rows are in strictly ascending order. -/
def Ascending (key : α → Int) (rows : List α) : Prop := rows.Pairwise fun r q => key r < key q

theorem mem_of_mem_put (h : r ∈ put key row rows) : r = row ∨ r ∈ rows := by
  induction rows with
  | nil => exact Or.inl (List.mem_singleton.1 h)
  | cons q rest ih =>
      simp only [put] at h
      split at h
      · exact List.mem_cons.1 h
      · split at h
        · rcases List.mem_cons.1 h with h | h
          · exact Or.inl h
          · exact Or.inr (List.mem_cons_of_mem _ h)
        · rcases List.mem_cons.1 h with h | h
          · exact Or.inr (h ▸ List.mem_cons_self)
          · exact (ih h).imp_right (List.mem_cons_of_mem _)

/-- In a table of whole numbers nothing is lost by a number put again. -/
theorem mem_put_id {ids : List Int} {j k : Int} : k ∈ put id j ids ↔ k = j ∨ k ∈ ids := by
  refine ⟨mem_of_mem_put, ?_⟩
  induction ids with
  | nil => simp [put]
  | cons i rest ih =>
      simp only [put, id]
      split
      · simp
      · split
        · rename_i heq
          rintro (rfl | hk)
          · exact List.mem_cons_self
          · rcases List.mem_cons.1 hk with rfl | hk
            · exact heq ▸ List.mem_cons_self
            · exact List.mem_cons_of_mem _ hk
        · rintro (rfl | hk)
          · exact List.mem_cons_of_mem _ (ih (Or.inl rfl))
          · rcases List.mem_cons.1 hk with rfl | hk
            · exact List.mem_cons_self
            · exact List.mem_cons_of_mem _ (ih (Or.inr hk))

theorem mem_foldl_put_id {ids new : List Int} {k : Int} :
    k ∈ new.foldl (fun acc j => put id j acc) ids ↔ k ∈ new ∨ k ∈ ids := by
  induction new generalizing ids with
  | nil => simp
  | cons j rest ih => rw [List.foldl_cons, ih, mem_put_id, List.mem_cons, or_left_comm, or_assoc]

theorem ascending_put (h : Ascending key rows) (row : α) : Ascending key (put key row rows) := by
  induction rows with
  | nil => exact List.pairwise_singleton _ _
  | cons q rest ih =>
      obtain ⟨hq, hrest⟩ := List.pairwise_cons.1 h
      simp only [put]
      split
      · refine List.pairwise_cons.2 ⟨fun p hp => ?_, h⟩
        rcases List.mem_cons.1 hp with rfl | hp
        · assumption
        · have := hq p hp
          omega
      · split
        · refine List.pairwise_cons.2 ⟨fun p hp => ?_, hrest⟩
          have := hq p hp
          omega
        · refine List.pairwise_cons.2 ⟨fun p hp => ?_, ih hrest⟩
          rcases mem_of_mem_put hp with rfl | hp
          · omega
          · exact hq p hp

theorem ascending_foldl_put (h : Ascending key rows) (new : List α) :
    Ascending key (new.foldl (fun acc r => put key r acc) rows) := by
  induction new generalizing rows with
  | nil => exact h
  | cons r rest ih => exact ih (ascending_put h r)

theorem ascending_ofList (rows : List α) : Ascending key (ofList key rows) :=
  ascending_foldl_put List.Pairwise.nil rows

/-- A row that comes after all others is put at the end. -/
theorem put_of_forall_lt (h : ∀ r ∈ rows, key r < key row) : put key row rows = rows ++ [row] := by
  induction rows with
  | nil => rfl
  | cons q rest ih =>
      obtain ⟨hq, hrest⟩ := List.forall_mem_cons.1 h
      rw [put, if_neg (by omega), if_neg (by omega), ih hrest, List.cons_append]

theorem foldl_put_of_ascending (front : List α) (h : Ascending key (front ++ rows)) :
    rows.foldl (fun acc r => put key r acc) front = front ++ rows := by
  induction rows generalizing front with
  | nil => rw [List.foldl_nil, List.append_nil]
  | cons r rest ih =>
      have hlast : ∀ q ∈ front, key q < key r := fun q hq =>
        (List.pairwise_append.1 h).2.2 q hq r List.mem_cons_self
      rw [List.append_cons] at h ⊢
      rw [List.foldl_cons, put_of_forall_lt hlast, ih _ h]

theorem ofList_of_ascending (h : Ascending key rows) : ofList key rows = rows :=
  foldl_put_of_ascending [] h

/-- A row that comes before all others is put at the front. -/
theorem put_of_forall_gt (h : ∀ r ∈ rows, key row < key r) : put key row rows = row :: rows := by
  cases rows with
  | nil => rfl
  | cons q rest => rw [put, if_pos (h q List.mem_cons_self)]

theorem filter_put (p : Int → Bool) (h : Ascending key rows) (row : α) :
    (put key row rows).filter (fun r => p (key r)) =
      if p (key row) then put key row (rows.filter fun r => p (key r))
      else rows.filter fun r => p (key r) := by
  induction rows with
  | nil =>
      rw [put, List.filter_cons]
      rfl
  | cons q rest ih =>
      obtain ⟨hq, hrest⟩ := List.pairwise_cons.1 h
      rw [put]
      by_cases hless : key row < key q
      · have hbefore : ∀ r ∈ (q :: rest).filter (fun r => p (key r)), key row < key r := by
          intro r hr
          rcases List.mem_cons.1 (List.mem_filter.1 hr).1 with rfl | hr
          · exact hless
          · exact Int.lt_trans hless (hq r hr)
        rw [if_pos hless, put_of_forall_gt hbefore, List.filter_cons]
      · by_cases hequal : key row = key q
        · rw [if_neg hless, if_pos hequal, List.filter_cons, List.filter_cons, ← hequal]
          cases p (key row) with
          | true => simp [put, hequal]
          | false => rfl
        · rw [if_neg hless, if_neg hequal, List.filter_cons, List.filter_cons, ih hrest]
          cases p (key q) <;> cases p (key row) <;> simp [put, hless, hequal]

/-- Rows can be left out before or after they are put in order. -/
theorem ofList_filter (p : Int → Bool) (rows : List α) :
    ofList key (rows.filter fun r => p (key r)) = (ofList key rows).filter fun r => p (key r) := by
  have hfold : ∀ acc, Ascending key acc →
      (rows.filter fun r => p (key r)).foldl (fun acc r => put key r acc)
          (acc.filter fun r => p (key r)) =
        (rows.foldl (fun acc r => put key r acc) acc).filter fun r => p (key r) := by
    induction rows with
    | nil => exact fun _ _ => rfl
    | cons row rest ih =>
        intro acc hacc
        rw [List.foldl_cons, ← ih _ (ascending_put hacc row), filter_put p hacc, List.filter_cons]
        cases p (key row) <;> rfl
  exact hfold [] List.Pairwise.nil

theorem ascending_map {g : α → α} (hg : ∀ r, key (g r) = key r) (h : Ascending key rows) :
    Ascending key (rows.map g) := by
  rw [Ascending, List.pairwise_map]
  simp only [hg]
  exact h

theorem eq_of_key_eq (h : Ascending key rows) (hrow : row ∈ rows) (hr : r ∈ rows)
    (hkey : key row = key r) : row = r := by
  induction rows with
  | nil => cases hrow
  | cons q rest ih =>
      obtain ⟨hq, hrest⟩ := List.pairwise_cons.1 h
      rcases List.mem_cons.1 hrow with rfl | hrow' <;> rcases List.mem_cons.1 hr with rfl | hr'
      · rfl
      · have := hq r hr'
        omega
      · have := hq row hrow'
        omega
      · exact ih hrest hrow' hr'

theorem find?_eq_some_iff (h : Ascending key rows) :
    find? key rows k = some r ↔ r ∈ rows ∧ key r = k := by
  constructor
  · intro hfind
    exact ⟨List.mem_of_find?_eq_some hfind, by simpa using List.find?_some hfind⟩
  · rintro ⟨hr, rfl⟩
    cases hfind : find? key rows (key r) with
    | none =>
        have := List.find?_eq_none.1 hfind r hr
        simp at this
    | some q =>
        have hq : key q = key r := by simpa using List.find?_some hfind
        rw [eq_of_key_eq h (List.mem_of_find?_eq_some hfind) hr hq]

theorem find?_put (h : Ascending key rows) (row : α) (k : Int) :
    find? key (put key row rows) k = if key row = k then some row else find? key rows k := by
  induction rows with
  | nil => simp [put, find?]
  | cons q rest ih =>
      obtain ⟨hq, hrest⟩ := List.pairwise_cons.1 h
      have hih := ih hrest
      simp only [find?] at hih ⊢
      simp only [put]
      split
      · simp only [List.find?_cons]
        by_cases hk : key row = k <;> simp [hk]
      · split
        · rename_i heq
          simp only [List.find?_cons, heq]
          by_cases hk : key q = k <;> simp [hk]
        · rw [List.find?_cons, hih, List.find?_cons]
          by_cases hk : key q = k
          · have hne : key row ≠ k := by omega
            simp [hk, hne]
          · simp [hk]

theorem mem_put_iff (h : Ascending key rows) :
    r ∈ put key row rows ↔ r = row ∨ r ∈ rows ∧ key row ≠ key r := by
  have hput := find?_eq_some_iff (ascending_put h row) (r := r) (k := key r)
  have hrows := find?_eq_some_iff h (r := r) (k := key r)
  rw [find?_put h] at hput
  simp only [and_true] at hput hrows
  rw [← hput, ← hrows]
  by_cases hkey : key row = key r
  · simp [hkey, eq_comm]
  · rw [if_neg hkey]
    constructor
    · exact fun hr => Or.inr ⟨hr, hkey⟩
    · rintro (rfl | ⟨hr, _⟩)
      · exact absurd rfl hkey
      · exact hr

/-- Rows with different keys are put in place of the rows that have their keys. -/
theorem mem_foldl_put_iff {new : List α} (h : Ascending key rows)
    (hnew : new.Pairwise fun a b => key a ≠ key b) :
    r ∈ new.foldl (fun acc row => put key row acc) rows ↔
      r ∈ new ∨ r ∈ rows ∧ ∀ row ∈ new, key row ≠ key r := by
  induction new generalizing rows with
  | nil => simp
  | cons q rest ih =>
      obtain ⟨hq, hrest⟩ := List.pairwise_cons.1 hnew
      rw [List.foldl_cons, ih (ascending_put h q) hrest, mem_put_iff h, List.mem_cons,
        List.forall_mem_cons]
      constructor
      · rintro (hr | ⟨rfl | ⟨hr, hkey⟩, hother⟩)
        · exact Or.inl (Or.inr hr)
        · exact Or.inl (Or.inl rfl)
        · exact Or.inr ⟨hr, hkey, hother⟩
      · rintro ((rfl | hr) | ⟨hr, hkey, hother⟩)
        · exact Or.inr ⟨Or.inl rfl, fun row hrow => (hq row hrow).symm⟩
        · exact Or.inl hr
        · exact Or.inr ⟨Or.inr ⟨hr, hkey⟩, hother⟩

theorem find?_foldl_put (h : Ascending key rows) (new : List α) (k : Int)
    (hnew : ∀ r ∈ new, key r ≠ k) :
    find? key (new.foldl (fun acc r => put key r acc) rows) k = find? key rows k := by
  induction new generalizing rows with
  | nil => rfl
  | cons r rest ih =>
      rw [List.foldl_cons, ih (ascending_put h r) fun q hq => hnew q (List.mem_cons_of_mem _ hq),
        find?_put h, if_neg (hnew r List.mem_cons_self)]

theorem find?_filter (p : α → Bool) (hp : ∀ r ∈ rows, key r = k → p r = true) :
    find? key (rows.filter p) k = find? key rows k := by
  induction rows with
  | nil => rfl
  | cons q rest ih =>
      have hih := ih fun r hr => hp r (List.mem_cons_of_mem _ hr)
      simp only [find?] at hih ⊢
      by_cases hq : key q = k
      · rw [List.filter_cons_of_pos (hp q List.mem_cons_self hq)]
        simp [hq]
      · rw [List.find?_cons, List.filter_cons]
        split <;> simp [hq, hih]

theorem find?_map {g : α → α} (hg : ∀ r, key (g r) = key r) (k : Int) :
    find? key (rows.map g) k = (find? key rows k).map g := by
  simp only [find?, List.find?_map, Function.comp_def, hg]

end Table

namespace Dictionary

variable {ι : Type u} {κ : Type v} {α : Type w} [DecidableEq κ]

theorem put_of_get?_none {d : Dictionary κ α} {k : κ} (h : d.get? k = none) (v : α) :
    d.put k v = (k, v) :: d := by
  rw [get?, Option.map_eq_none_iff, List.find?_eq_none] at h
  rw [put, erase, List.filter_eq_self.2]
  simpa using h

/-- Puts the values of the entries that have one. -/
def putSome (key : ι → κ) (value? : ι → Option α) (d : Dictionary κ α) (entries : List ι) :
    Dictionary κ α :=
  entries.foldl (fun d e => match value? e with | some v => d.put (key e) v | none => d) d

theorem putSome_cons (key : ι → κ) (value? : ι → Option α) (d : Dictionary κ α) (e : ι)
    (rest : List ι) :
    putSome key value? d (e :: rest) =
      putSome key value? (match value? e with | some v => d.put (key e) v | none => d) rest :=
  rfl

theorem get?_putSome {key : ι → κ} {value? : ι → Option α} {entries : List ι} {k : κ} {v : α}
    (h : entries.Pairwise fun e e' => key e ≠ key e') (d : Dictionary κ α) :
    (putSome key value? d entries).get? k = some v ↔
      (∃ e ∈ entries, key e = k ∧ value? e = some v) ∨
        d.get? k = some v ∧ ∀ e ∈ entries, key e = k → value? e = none := by
  induction entries generalizing d with
  | nil => simp [putSome]
  | cons e rest ih =>
      obtain ⟨he, hrest⟩ := List.pairwise_cons.1 h
      have hih := ih hrest (match value? e with | some v => d.put (key e) v | none => d)
      simp only [putSome, List.foldl_cons] at hih ⊢
      rw [hih]
      cases hvalue : value? e with
      | none => simp [hvalue]
      | some u =>
          simp only [get?_put, List.mem_cons, exists_eq_or_imp, forall_eq_or_imp, hvalue]
          by_cases hk : key e = k
          · have hother : ∀ e' ∈ rest, key e' ≠ k := fun e' he' => hk ▸ (he e' he').symm
            simp only [hk, if_true, Option.some.injEq]
            grind
          · simp [hk]

/-- Of entries with distinct keys the order does not matter. -/
theorem get?_putSome_of_perm {key : ι → κ} {value? : ι → Option α} {entries entries' : List ι}
    (h : entries.Perm entries') (hdistinct : entries'.Pairwise fun e e' => key e ≠ key e')
    (d : Dictionary κ α) (k : κ) :
    (putSome key value? d entries).get? k = (putSome key value? d entries').get? k := by
  refine Option.ext fun v => ?_
  rw [get?_putSome (h.symm.pairwise hdistinct fun hne => hne.symm), get?_putSome hdistinct]
  simp only [h.mem_iff]

end Dictionary

end ClusterPlan
