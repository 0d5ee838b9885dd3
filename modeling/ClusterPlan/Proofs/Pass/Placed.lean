import ClusterPlan.Proofs.Pass.Turns

/-!
What is placed when a pass is over. What was placed when it began still is, unless a reservation was
given up; beside that only what the pass commits is placed. The rows follow: those of placements that
stand are left alone, every commitment has one, and all others go.
-/

namespace ClusterPlan

theorem Dictionary.has_put {κ α : Type} [DecidableEq κ] (d : Dictionary κ α) (j k : κ) (v : α) :
    (d.put j v).has k = true ↔ j = k ∨ d.has k = true := by
  rw [has, get?_put, has]
  split <;> simp [*]

/-- The rows that are there once a report is stored: the new ones, and of the old ones those that are
neither dropped nor replaced. -/
def Report.Leaves (r : Report) (rows : List GanttRow) (row : GanttRow) : Prop :=
  row ∈ r.newRows ∨ row ∈ rows ∧ row.job ∉ r.dropped ∧ ∀ new ∈ r.newRows, new.job ≠ row.job

namespace PassState

variable {f : Frame} {m : Matcher} {s s' : PassState} {job : Job} {task : Task} {a : Assignment}
  {c : Commitment} {row : GanttRow} {id : Int}

section Turn

/-- What other jobs do leaves the placement of a job alone. -/
theorem has_run_of_others (tasks : List Task)
    (htasks : ∀ task ∈ tasks, ∀ job, task.job? = some job → job.id ≠ id) (s : PassState) :
    (tasks.foldl (perform f) s).placements.has id = s.placements.has id := by
  induction tasks generalizing s with
  | nil => rfl
  | cons task rest ih =>
      obtain ⟨htask, hrest⟩ := List.forall_mem_cons.1 htasks
      rw [List.foldl_cons, ih hrest, Dictionary.has, Dictionary.has]
      rcases (perform_step f s task).placements_get? id with
        hsame | ⟨c, hc, hid⟩ | ⟨j, a, hexpires, hid⟩
      · rw [hsame]
      · exact absurd hid (htask c.job hc.job)
      · exact absurd hid (htask j (by rw [hexpires.isReview]; rfl))

/-- A granted reservation is given up, or it keeps its place and is not decided to be in error. -/
theorem Step.granted_cases (h : Step f s s' (.review job))
    (ha : s.reservations.get? job.id = some a) :
    Expires f s s' (.review job) job a ∨
      s'.placements = s.placements ∧ s'.commitments = s.commitments ∧
        ∃ decided, s'.decisions = s.decisions ++ decided ∧ ∀ d ∈ decided, d.outcome ≠ .error := by
  cases h with
  | ahead _ _ hs =>
      exact Or.inr ⟨hs.placements, hs.commitments, [], by rw [hs.decisions, List.append_nil],
        List.forall_mem_nil _⟩
  | expired hb _ hlast hs =>
      cases ha.symm.trans hb
      exact Or.inl (expires_of_abandoned ha hlast hs)
  | delayed _ _ _ _ hs | awaited _ _ _ _ _ hs | started _ _ _ _ _ hs =>
      exact Or.inr ⟨hs.placements, hs.commitments, _, hs.decisions,
        List.forall_mem_singleton.2 nofun⟩
  | refused htask | granted htask => exact absurd htask (not_reserves_of_reserved ha)

variable {front back : List Task}

theorem decisions_of_front (hagenda : f.agenda = front ++ back) {d : Decision}
    (hd : d ∈ (front.foldl (perform f) (start f m)).decisions) : d ∈ (finished f m).decisions := by
  obtain ⟨new, hnew, _⟩ := new_decision_of_run f back (front.foldl (perform f) (start f m))
  rw [finished, hagenda, List.foldl_append, hnew]
  exact List.mem_append_left new hd

theorem has_finished_of_no_turn (hnone : ∀ task ∈ f.agenda, ∀ job, task.job? = some job → job.id ≠ id) :
    (finished f m).placements.has id = (start f m).placements.has id ∧
      (∀ d ∈ (finished f m).decisions, d.job ≠ id) ∧
      ∀ c ∈ (finished f m).commitments, c.job.id ≠ id := by
  refine ⟨has_run_of_others f.agenda hnone _, fun d hd => ?_, fun c hc => ?_⟩
  · obtain ⟨new, hnew, hall⟩ := new_decision_of_run f f.agenda (start f m)
    rw [finished, hnew, (loaded_start f m).decisions, List.nil_append] at hd
    obtain ⟨task, htask, job, hjob, hid, _⟩ := hall d hd
    exact hid ▸ hnone task htask job hjob
  · obtain ⟨front, task, back, hagenda, hcommits⟩ := task_of_committed hc
    exact hnone task (hagenda ▸ List.mem_append_right _ List.mem_cons_self) c.job hcommits.job

theorem has_start : (start f m).placements.has id = true ↔
    ∃ row ∈ f.rows, row.job = id ∧ (f.standing? row).isSome = true := by
  rw [Dictionary.has, Option.isSome_iff_exists]
  simp only [(loaded_start f m).placements, Frame.standingPlacement?, Option.map_eq_some_iff,
    Option.isSome_iff_exists]
  constructor
  · rintro ⟨_, row, hrow, hid, e, he, _⟩
    exact ⟨row, hrow, hid, e, he⟩
  · rintro ⟨row, hrow, hid, e, he⟩
    exact ⟨_, row, hrow, hid, e, he, rfl⟩

end Turn

section Finished

variable (h : f.Parted)
include h

/-- The row of a waiting job that has reserved nothing does not stand. -/
theorem standing?_of_unreserved (hjob : job ∈ f.waiting) (hstate : job.state = .waiting)
    (hnone : (start f m).reservations.get? job.id = none) (hrow : row ∈ f.rows) (hid : row.job = job.id) :
    f.standing? row = none := by
  cases hstanding : f.standing? row with
  | none => rfl
  | some e =>
      obtain ⟨j, last⟩ := e
      exfalso
      rcases Frame.standing?_cases hstanding with ⟨hactive, _⟩ | ⟨_, hreserved, _⟩
      · obtain ⟨hmem, _, hj⟩ := Frame.mem_of_activeJob? hactive
        exact h.apart job hjob j hmem (hid.symm.trans hj.symm)
      · obtain ⟨hmem, hflag, hj⟩ := Frame.mem_of_reservedJob? hreserved
        obtain rfl := h.turns.eq_of_id_eq hmem hjob (hj.trans hid)
        rw [((loaded_start f m).reservations _ _).2
          ⟨row, hrow, hid, h.reservedAssignment?_eq hjob hstate hflag hid⟩] at hnone
        cases hnone

section Waiting

variable {front back : List Task} (hagenda : f.agenda = front ++ task :: back)
  (hjob : task.job? = some job)
include hagenda hjob

/-- A job has what its turn leaves it, and its turn finds what it had at first. -/
theorem has_of_turn (m : Matcher) :
    (front.foldl (perform f) (start f m)).placements.has job.id = (start f m).placements.has job.id ∧
      (finished f m).placements.has job.id =
        (perform f (front.foldl (perform f) (start f m)) task).placements.has job.id := by
  have hother := Frame.id_ne_of_agenda h.turns hagenda hjob
  refine ⟨has_run_of_others front (fun t ht => hother t (List.mem_append_left _ ht)) _, ?_⟩
  rw [finished, hagenda, List.foldl_append, List.foldl_cons]
  exact has_run_of_others back (fun t ht => hother t (List.mem_append_right _ ht)) _

theorem committed_of_turn {added : List Commitment}
    (hadded : (perform f (front.foldl (perform f) (start f m)) task).commitments =
      (front.foldl (perform f) (start f m)).commitments ++ added) :
    (∃ c ∈ (finished f m).commitments, c.job.id = job.id) ↔ added ≠ [] := by
  rw [← commitments_of_turn h.turns hagenda hjob hadded, ne_eq, List.filter_eq_nil_iff]
  simp

theorem has_finished_of_granted (ha : (start f m).reservations.get? job.id = some a) :
    ((finished f m).placements.has job.id = true ↔ (start f m).placements.has job.id = true ∧
      ∀ d ∈ (finished f m).decisions, d.job = job.id → d.outcome ≠ .error) ∧
    ∀ c ∈ (finished f m).commitments, c.job.id ≠ job.id := by
  have hmem : task ∈ f.agenda := hagenda ▸ List.mem_append_right _ List.mem_cons_self
  have hflag := scheduled_of_reserved h.turns (Frame.job_of_agenda hmem hjob).1
    (ha ▸ Option.some_ne_none _)
  obtain rfl := Frame.review_of_scheduled hmem hjob hflag
  obtain ⟨hbefore, hafter⟩ := has_of_turn h hagenda hjob m
  have hstep := perform_step f (front.foldl (perform f) (start f m)) (.review job)
  rcases hstep.granted_cases ((reservations_of_turn h.turns hagenda hjob).trans ha) with
    hexpires | ⟨hplacements, hcommitments, decided, hdecided, hfine⟩
  · have hnothing := committed_of_turn h hagenda hjob
      (hexpires.commitments.trans (List.append_nil _).symm)
    refine ⟨⟨fun hhas => ?_, fun hfine => ?_⟩, fun c hc hid => hnothing.1 ⟨c, hc, hid⟩ rfl⟩
    · rw [hafter, Dictionary.has, hexpires.placements, Dictionary.get?_erase, if_pos rfl] at hhas
      cases hhas
    · obtain ⟨d, hd, hid, herror⟩ := hexpires.decided
      rw [List.append_cons] at hagenda
      refine absurd herror (hfine.2 d (decisions_of_front hagenda ?_) hid)
      rwa [List.foldl_append]
  · have hnothing := committed_of_turn h hagenda hjob
      (hcommitments.trans (List.append_nil _).symm)
    refine ⟨?_, fun c hc hid => hnothing.1 ⟨c, hc, hid⟩ rfl⟩
    rw [hafter, hplacements, hbefore, iff_self_and]
    intro _ d hd hid
    refine hfine d ?_
    rw [← decisions_of_turn h.turns hagenda hjob hdecided, List.mem_filter, hid, beq_self_eq_true]
    exact ⟨hd, rfl⟩

theorem has_finished_of_unreserved (hnone : (start f m).reservations.get? job.id = none) :
    (start f m).placements.has job.id = false ∧ ((finished f m).placements.has job.id = true ↔
      ∃ c ∈ (finished f m).commitments, c.job.id = job.id) := by
  have hmem : task ∈ f.agenda := hagenda ▸ List.mem_append_right _ List.mem_cons_self
  obtain ⟨hwaits, hstate, _⟩ := Frame.job_of_agenda hmem hjob
  obtain ⟨hbefore, hafter⟩ := has_of_turn h hagenda hjob m
  have hstart : (start f m).placements.has job.id = false := by
    rw [← Bool.not_eq_true, has_start]
    rintro ⟨row, hrow, hid, hstanding⟩
    rw [standing?_of_unreserved h hwaits hstate hnone hrow hid] at hstanding
    cases hstanding
  have hunreserved := (reservations_of_turn h.turns hagenda hjob).trans hnone
  refine ⟨hstart, ?_⟩
  rw [hafter]
  rcases (perform_step f (front.foldl (perform f) (start f m)) task).cases_placements with
    ⟨c, hc⟩ | ⟨j, a, hexpires⟩ | hkeeps
  · have hcjob : c.job = job := Option.some.inj (hc.job.symm.trans hjob)
    rw [committed_of_turn h hagenda hjob hc.commitments, hc.placements, Dictionary.has_put, hcjob]
    simp
  · obtain rfl : j = job := by
      rw [hexpires.isReview] at hjob
      exact Option.some.inj hjob
    rw [hexpires.reserved] at hunreserved
    cases hunreserved
  · rw [committed_of_turn h hagenda hjob (hkeeps.commitments.trans (List.append_nil _).symm),
      hkeeps.placements, hbefore, hstart]
    simp

end Waiting

/-- Placed is what was placed when the pass began and is not decided to be in error, and what is
committed. -/
theorem has_finished_iff (m : Matcher) (id : Int) : (finished f m).placements.has id = true ↔
    ((start f m).placements.has id = true ∧
        ∀ d ∈ (finished f m).decisions, d.job = id → d.outcome ≠ .error) ∨
      ∃ c ∈ (finished f m).commitments, c.job.id = id := by
  by_cases hturn : ∃ task ∈ f.agenda, ∃ job, task.job? = some job ∧ job.id = id
  · obtain ⟨task, htask, job, hjob, rfl⟩ := hturn
    obtain ⟨front, back, hagenda⟩ := List.append_of_mem htask
    cases ha : (start f m).reservations.get? job.id with
    | some a =>
        obtain ⟨hhas, hnone⟩ := has_finished_of_granted h hagenda hjob ha
        rw [hhas, or_iff_left]
        rintro ⟨c, hc, hid⟩
        exact hnone c hc hid
    | none =>
        obtain ⟨hstart, hhas⟩ := has_finished_of_unreserved h hagenda hjob ha
        rw [hhas, hstart, or_iff_right]
        exact fun hkept => absurd hkept.1 nofun
  · push Not at hturn
    obtain ⟨hhas, hdecisions, hcommitments⟩ := has_finished_of_no_turn (m := m) hturn
    rw [hhas, or_iff_left]
    · exact (and_iff_left fun d hd hid => absurd hid (hdecisions d hd)).symm
    · rintro ⟨c, hc, hid⟩
      exact hcommitments c hc hid

/-- Nothing is committed for a job whose row stands. -/
theorem standing?_of_committed (hc : c ∈ (finished f m).commitments) (hrow : row ∈ f.rows)
    (hid : row.job = c.job.id) : f.standing? row = none := by
  obtain ⟨front, task, back, hagenda, hcommits⟩ := task_of_committed hc
  have htask : task ∈ f.agenda := hagenda ▸ List.mem_append_right _ List.mem_cons_self
  obtain ⟨hwaits, hstate, _⟩ := Frame.job_of_agenda htask hcommits.job
  cases ha : (start f m).reservations.get? c.job.id with
  | none => exact standing?_of_unreserved h hwaits hstate ha hrow hid
  | some a => exact absurd rfl ((has_finished_of_granted h hagenda hcommits.job ha).2 c hc)

theorem id_ne_of_standing {last : Int} (hc : c ∈ (finished f m).commitments) (hrow : row ∈ f.rows)
    (hstanding : f.standing? row = some (job, last)) : c.job.id ≠ row.job := by
  intro hid
  rw [standing?_of_committed h hc hrow hid.symm] at hstanding
  cases hstanding

end Finished

section Rows

theorem mem_newRows : row ∈ (f.run m).report.newRows ↔
    ∃ c ∈ (finished f m).commitments, c.row f.catalog = row ∧
      ∀ old ∈ f.rows, old.job = row.job → old.samePlacement row = false := by
  have hfind : (!(f.row? row.job).any fun old => old.samePlacement row) = true ↔
      ∀ old ∈ f.rows, old.job = row.job → old.samePlacement row = false := by
    rw [Bool.not_eq_true', ← Bool.not_eq_true, Option.any_eq_true]
    simp only [Frame.row?, Table.find?_eq_some_iff f.ascending_rows, not_exists, not_and,
      Bool.not_eq_true, and_imp]
  simp only [Frame.run, report, newRows, List.mem_filter, List.mem_map, hfind]
  constructor
  · rintro ⟨⟨c, hc, rfl⟩, hnone⟩
    exact ⟨c, hc, rfl, hnone⟩
  · rintro ⟨c, hc, rfl, hnone⟩
    exact ⟨⟨c, hc, rfl⟩, hnone⟩

theorem mem_dropped : id ∈ (f.run m).report.dropped ↔
    ∃ row ∈ f.rows, row.job = id ∧ (finished f m).placements.has id = false := by
  simp only [Frame.run, report, List.mem_map, List.mem_filter, Bool.not_eq_true', and_assoc]
  constructor
  · rintro ⟨row, hrow, hnone, rfl⟩
    exact ⟨row, hrow, rfl, hnone⟩
  · rintro ⟨row, hrow, rfl, hnone⟩
    exact ⟨row, hrow, hnone, rfl⟩

theorem newRows_distinct (h : f.HasTurns) (m : Matcher) :
    (f.run m).report.newRows.Pairwise fun a b => a.job ≠ b.job := by
  have hids := List.pairwise_map.1 (nodup_ids_commitments h m)
  refine (List.pairwise_map.2 ?_).sublist List.filter_sublist
  exact hids

/-- The row of what is placed is left, unless something was committed in its place. -/
theorem leaves_of_placed (hrow : row ∈ f.rows)
    (hhas : (finished f m).placements.has row.job = true)
    (hnone : ∀ c ∈ (finished f m).commitments, c.job.id ≠ row.job) :
    (f.run m).report.Leaves f.rows row := by
  refine Or.inr ⟨hrow, fun hdropped => ?_, fun new hnew hid => ?_⟩
  · obtain ⟨_, _, _, hlost⟩ := mem_dropped.1 hdropped
    rw [hlost] at hhas
    cases hhas
  · obtain ⟨c, hc, rfl, _⟩ := mem_newRows.1 hnew
    exact hnone c hc hid

variable (h : f.Parted)
include h

/-- Every commitment is kept by a row, an old one where it says the same. -/
theorem exists_leaves_of_committed (hc : c ∈ (finished f m).commitments) :
    ∃ row, (f.run m).report.Leaves f.rows row ∧ row.samePlacement (c.row f.catalog) = true := by
  by_cases hnew : c.row f.catalog ∈ (f.run m).report.newRows
  · exact ⟨_, Or.inl hnew, beq_self_eq_true _⟩
  · have hold : ∃ old ∈ f.rows, old.job = c.job.id ∧ old.samePlacement (c.row f.catalog) = true := by
      by_contra hnone
      push Not at hnone
      exact hnew (mem_newRows.2 ⟨c, hc, rfl, fun old hold hid =>
        Bool.not_eq_true _ ▸ hnone old hold hid⟩)
    obtain ⟨old, hmem, hid, hsame⟩ := hold
    refine ⟨old, Or.inr ⟨hmem, fun hdropped => ?_, fun new hnew' hjob => ?_⟩, hsame⟩
    · obtain ⟨_, _, _, hlost⟩ := mem_dropped.1 hdropped
      rw [(has_finished_iff h m old.job).2 (Or.inr ⟨c, hc, hid.symm⟩)] at hlost
      cases hlost
    · obtain ⟨d, hd, rfl, _⟩ := mem_newRows.1 hnew'
      have heq : d = c :=
        List.inj_on_of_nodup_map (nodup_ids_commitments h.turns m) hd hc (hjob.trans hid)
      exact hnew (heq ▸ hnew')

/-- A row that is left stood and was not given up, or it keeps a commitment. -/
theorem leaves_cases (hleaves : (f.run m).report.Leaves f.rows row) :
    (row ∈ f.rows ∧ (f.standing? row).isSome = true ∧
        ∀ d ∈ (finished f m).decisions, d.job = row.job → d.outcome ≠ .error) ∨
      ∃ c ∈ (finished f m).commitments, row.samePlacement (c.row f.catalog) = true := by
  rcases hleaves with hnew | ⟨hmem, hdropped, hother⟩
  · obtain ⟨c, hc, rfl, _⟩ := mem_newRows.1 hnew
    exact Or.inr ⟨c, hc, beq_self_eq_true _⟩
  · have hhas : (finished f m).placements.has row.job = true := by
      by_contra hlost
      exact hdropped (mem_dropped.2 ⟨row, hmem, rfl, Bool.not_eq_true _ ▸ hlost⟩)
    rcases (has_finished_iff h m row.job).1 hhas with ⟨hstart, hfine⟩ | ⟨c, hc, hid⟩
    · obtain ⟨r, hr, hid, hstanding⟩ := has_start.1 hstart
      rw [Table.eq_of_key_eq f.ascending_rows hr hmem hid] at hstanding
      exact Or.inl ⟨hmem, hstanding, hfine⟩
    · -- The commitment has no new row, so the old one says the same.
      refine Or.inr ⟨c, hc, ?_⟩
      by_contra hdiffers
      apply hother (c.row f.catalog) _ hid
      refine mem_newRows.2 ⟨c, hc, rfl, fun old hold hjob => ?_⟩
      rw [Table.eq_of_key_eq f.ascending_rows hold hmem (hjob.trans hid)]
      exact Bool.not_eq_true _ ▸ hdiffers

/-- A row that stands and is not given up is left. -/
theorem leaves_of_standing (hrow : row ∈ f.rows) (hstanding : (f.standing? row).isSome = true)
    (hfine : ∀ d ∈ (finished f m).decisions, d.job = row.job → d.outcome ≠ .error) :
    (f.run m).report.Leaves f.rows row := by
  refine leaves_of_placed hrow ?_ fun c hc hid => ?_
  · exact (has_finished_iff h m row.job).2
      (Or.inl ⟨has_start.2 ⟨row, hrow, rfl, hstanding⟩, hfine⟩)
  · rw [standing?_of_committed h hc hrow hid.symm] at hstanding
    cases hstanding

end Rows

end PassState

end ClusterPlan
