import ClusterPlan.Proofs.Pass.Carried

/-!
What the rows of a frame take from its timeline. In the second frame that is what it was in the first,
together with what the first pass launched or granted.
-/

namespace ClusterPlan

/-- Whether a standing row holds the resource at `t`. Rows of active best-effort jobs are aside. -/
def Frame.Stands (f : Frame) (aside : Bool) (o : Nat) (t : Int) : Prop :=
  ∃ row ∈ f.rows, ∃ job last, f.standing? row = some (job, last) ∧ Frame.keepsAside job = aside ∧
    row.start ≤ t ∧ t ≤ last ∧ o ∈ f.rowOrdinals row

/-- Only rows of active jobs are kept aside. -/
theorem Frame.Tidy.active_of_aside {f : Frame} {row : GanttRow} {job : Job} {last : Int}
    (h : f.Tidy) (hstanding : f.standing? row = some (job, last))
    (haside : Frame.keepsAside job = true) :
    f.activeJob? row.job = some job ∧ job.isBestEffort = true ∧
      last = max (f.heldUntil row.start row.walltime) f.now := by
  rw [Frame.keepsAside, Bool.and_eq_true] at haside
  rcases Frame.standing?_cases hstanding with ⟨hactive, hlast⟩ | ⟨_, hreserved, _⟩
  · exact ⟨hactive, haside.1, hlast⟩
  · rw [(h.waits job (Frame.mem_of_reservedJob? hreserved).1).1] at haside
    cases haside.2

namespace PassState

variable {f : Frame} {m : Matcher} {o : Nat} {t : Int}

theorem free_start : (start f m).timeline.Free o t ↔
    (f.now ≤ t ∧ t ≤ f.horizon ∧ o ∈ f.catalog.schedulable) ∧
      (∀ w ∈ f.closures, ¬ (w.1 ≤ t ∧ t ≤ w.2.1 ∧ o = w.2.2)) ∧ ¬ f.Stands false o t := by
  rw [(loaded_start f m).free]
  refine and_congr_right fun _ => and_congr_right fun _ => ?_
  constructor
  · rintro hfree ⟨row, hrow, job, last, hstanding, haside, hfirst, hlast, ho⟩
    refine hfree row hrow last ?_ ⟨hfirst, hlast, ho⟩
    rw [Frame.occupiedUntil?, hstanding, Option.bind_some, haside]
    rfl
  · rintro hnone row hrow last hoccupied ⟨hfirst, hlast, ho⟩
    obtain ⟨⟨job, last'⟩, hstanding, hoccupied⟩ := Option.bind_eq_some_iff.1 hoccupied
    cases haside : Frame.keepsAside job with
    | true => simp [haside] at hoccupied
    | false =>
        simp only [haside, Bool.false_eq_true, if_false, Option.some.injEq] at hoccupied
        exact hnone ⟨row, hrow, job, last', hstanding, haside, hfirst, hoccupied ▸ hlast, ho⟩

/-- The best-effort jobs see what the others leave and the active best-effort jobs do not hold. -/
theorem free_occupyBestEffort (h : f.Tidy) :
    (beforeBestEffort f m).occupyBestEffort.timeline.Free o t ↔
      (beforeBestEffort f m).timeline.Free o t ∧ ¬ f.Stands true o t := by
  have hother : ∀ row ∈ f.rows, ∀ job last, f.standing? row = some (job, last) →
      ∀ c ∈ (beforeBestEffort f m).commitments, c.job.id ≠ row.job := by
    intro row hrow job last hstanding c hc
    obtain ⟨new, hnew, _⟩ := commitments_eq f m
    exact id_ne_of_standing h.isParted (hnew ▸ List.mem_append_left new hc) hrow hstanding
  constructor
  · intro hfree
    refine ⟨?_, ?_⟩
    · rw [occupyBestEffort_timeline,
        free_foldl_occupyPlaced _ _ _ (wellFormed_beforeBestEffort f m)] at hfree
      exact hfree.1
    · rintro ⟨row, hrow, job, last, hstanding, haside, hfirst, hlast, ho⟩
      obtain ⟨hactive, hbest, rfl⟩ := h.active_of_aside hstanding haside
      exact not_free_of_bestEffort hrow hactive hbest (hother row hrow _ _ hstanding) ho hfirst hlast
        hfree
  · rintro ⟨hfree, hnone⟩
    rw [occupyBestEffort_timeline,
      free_foldl_occupyPlaced _ _ _ (wellFormed_beforeBestEffort f m)]
    refine ⟨hfree, fun e he p hp hholds => ?_⟩
    rw [beforeBestEffort, bestEffort_run, (loaded_start f m).bestEffort, List.mem_filterMap] at he
    obtain ⟨row, hrow, he⟩ := he
    obtain ⟨⟨job, last⟩, hstanding, he⟩ := Option.bind_eq_some_iff.1 he
    cases haside : Frame.keepsAside job with
    | false => simp [haside] at he
    | true =>
        simp only [haside, if_true, Option.some.injEq] at he
        subst he
        obtain ⟨hactive, _, rfl⟩ := h.active_of_aside hstanding haside
        rw [placements_of_active hrow hactive (hother row hrow _ _ hstanding)] at hp
        cases hp
        exact hnone ⟨row, hrow, job, _, hstanding, haside, hholds⟩

end PassState

namespace Frame.Resumes

open PassState

variable {f g : Frame} {m : Matcher} {aside : Bool} {o : Nat} {t : Int}

theorem stands_iff (h : f.Resumes (f.run m).report g) (hf : f.Repeatable) (ht : t ≤ f.horizon) :
    g.Stands aside o t ↔ f.Stands aside o t ∨
      ∃ c ∈ (finished f m).commitments, (f.run m).report.settles c = true ∧
        c.job.isBestEffort = aside ∧ c.placement.Holds o t := by
  constructor
  · rintro ⟨row, hrow, job, last, hstanding, haside, hfirst, hlast, ho⟩
    rw [h.rowOrdinals] at ho
    rcases h.stood_or_settled hf hrow hstanding with
      ⟨job₀, hmem, hbefore, hon⟩ | ⟨c, hc, hsame, hsettles, hsettled⟩
    · exact Or.inl ⟨row, hmem, job₀, last, hbefore, hon.aside ▸ haside, hfirst, hlast, ho⟩
    · obtain ⟨_, hstart, _, hordinals⟩ := kept_row hc hsame
      rw [hordinals] at ho
      refine Or.inr ⟨c, hc, hsettles, hsettled.aside ▸ haside, ho, hstart ▸ hfirst, ?_⟩
      rw [(committed_of_task hc).2.1, heldOnTimeline, ← hsettled.held o ho]
      exact le_min hlast ht
  · rintro (⟨row, hrow, job, last, hstanding, haside, hfirst, hlast, ho⟩ |
      ⟨c, hc, hsettles, hbest, ho, hfirst, hlast⟩)
    · obtain ⟨job', hagain, hon⟩ := h.standing?_of_standing hf hrow hstanding
      exact ⟨row, h.mem_rows_of_standing hf.tidy hf.current hrow hstanding, job', last, hagain,
        hon.aside.trans haside, hfirst, hlast, (h.rowOrdinals row).symm ▸ ho⟩
    · obtain ⟨row, hrow, hsame⟩ := h.exists_row_of_committed hf.tidy hc
      obtain ⟨_, hstart, _, hordinals⟩ := kept_row hc hsame
      obtain ⟨job', last, hagain, hsettled⟩ := h.standing?_of_settled hf hc hsame hsettles
      refine ⟨row, hrow, job', last, hagain, hsettled.aside.trans hbest, hstart.symm ▸ hfirst, ?_, ?_⟩
      · rw [(committed_of_task hc).2.1, heldOnTimeline, ← hsettled.held o ho] at hlast
        exact le_trans hlast (min_le_left _ _)
      · rw [h.rowOrdinals, hordinals]
        exact ho

end Frame.Resumes

end ClusterPlan
