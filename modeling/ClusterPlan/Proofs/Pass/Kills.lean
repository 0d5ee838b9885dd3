import ClusterPlan.Proofs.Catalog.Ids
import ClusterPlan.Proofs.Pass.LaunchSafety
import ClusterPlan.Proofs.Pass.Turns

/-!
Which active best-effort jobs a pass kills, and for whom. They stand in the way of a job that is to have
their resources at once, and that job waits until they are gone.
-/

namespace ClusterPlan

namespace Frame

/-- The row stands for an active best-effort job. -/
def IsAside (f : Frame) (row : GanttRow) : Prop :=
  ∃ job last, f.standing? row = some (job, last) ∧ job.isBestEffort = true ∧ job.state.isActive = true

/-- A granted reservation whose time has come and whose resources are all alive. -/
structure ComesDue (f : Frame) (job : Job) (row : GanttRow) : Prop where
  isRow : row ∈ f.rows
  id : row.job = job.id
  reserved : f.reservedAssignment? row = some (f.rowAssignment row)
  reviewed : ∃ queue ∈ f.config.queues, job ∈ f.queueJobs queue
  flag : job.reservation = .scheduled
  begun : row.start ≤ f.now
  lasts : f.now ≤ row.last
  alive : (f.rowOrdinals row).subset (f.catalog.inState .alive) = true

/-- The resources that a job is to have at once. -/
inductive NeedsNow (f : Frame) (m : Matcher) : Job → OrdinalSet → Prop where
  | placed {c : Commitment} : c ∈ (f.run m).report.commitments → c.job.isReservation = false →
      c.placement.assignment.start = f.now → NeedsNow f m c.job c.placement.assignment.resources
  | due {job : Job} {row : GanttRow} : f.ComesDue job row → NeedsNow f m job (f.rowOrdinals row)

open PassState in
/-- At the turn of the job the active job of that id is marked to be killed. -/
def Kills (f : Frame) (m : Matcher) (job : Job) (id : Int) : Prop :=
  ∃ front task back marked, f.agenda = front ++ task :: back ∧ task.job? = some job ∧
    (perform f (front.foldl (perform f) (start f m)) task).victims =
      (front.foldl (perform f) (start f m)).victims ++ marked ∧ id ∈ marked

variable {f : Frame} {row : GanttRow}

theorem aside?_eq_some_iff {e : Int × OrdinalSet} :
    f.aside? row = some e ↔ f.IsAside row ∧ e = (row.job, f.rowOrdinals row) := by
  simp only [aside?, IsAside, Option.bind_eq_some_iff, Option.ite_none_right_eq_some,
    Option.some.injEq, keepsAside, Bool.and_eq_true, Prod.exists]
  constructor
  · rintro ⟨job, last, hstanding, hjob, rfl⟩
    exact ⟨⟨job, last, hstanding, hjob⟩, rfl⟩
  · rintro ⟨⟨job, last, hstanding, hjob⟩, rfl⟩
    exact ⟨job, last, hstanding, hjob, rfl⟩

end Frame

namespace PassState

variable {f : Frame} {m : Matcher} {s s' : PassState} {task : Task} {job : Job} {id : Int}
  {row : GanttRow} {resources : OrdinalSet} {a : Assignment}

theorem meets_iff {held : OrdinalSet} :
    (!(held ∩ resources).isEmpty) = true ↔ ¬ OrdinalSet.Disjoint resources held := by
  rw [Bool.not_eq_true', ← Bool.not_eq_true, not_iff_not, OrdinalSet.isEmpty_iff]
  simp only [OrdinalSet.mem_inter, not_and]
  exact ⟨fun h o ho hheld => h o hheld ho, fun h o hheld ho => h o ho hheld⟩

theorem mem_evict : id ∈ (s.evict resources).2 ↔
    ∃ e ∈ s.bestEffort, e.1 = id ∧ ¬ OrdinalSet.Disjoint resources e.2 := by
  simp only [evict, List.mem_map, List.mem_filter, meets_iff]
  constructor
  · rintro ⟨e, ⟨he, hmeets⟩, hid⟩
    exact ⟨e, he, hid, hmeets⟩
  · rintro ⟨e, he, hid, hmeets⟩
    exact ⟨e, ⟨he, hmeets⟩, hid⟩

theorem mem_evict_run (tasks : List Task) :
    id ∈ ((tasks.foldl (perform f) (start f m)).evict resources).2 ↔
      ∃ row ∈ f.rows, row.job = id ∧ f.IsAside row ∧
        ¬ OrdinalSet.Disjoint resources (f.rowOrdinals row) := by
  rw [mem_evict, bestEffort_run, (loaded_start f m).bestEffort]
  simp only [List.mem_filterMap, Frame.aside?_eq_some_iff]
  constructor
  · rintro ⟨e, ⟨row, hrow, haside, rfl⟩, hid, hmeets⟩
    exact ⟨row, hrow, hid, haside, hmeets⟩
  · rintro ⟨row, hrow, hid, haside, hmeets⟩
    exact ⟨_, ⟨row, hrow, haside, rfl⟩, hid, hmeets⟩

section Turns

/-- A task that clears the resources for its job. The job waits if anybody is on them. -/
structure Clears (s s' : PassState) (resources : OrdinalSet) : Prop where
  victims : s'.victims = s.victims ++ (s.evict resources).2
  waits : ¬ s.IsClear resources → ∃ d, s'.decisions = s.decisions ++ [d] ∧ d.outcome ≠ .toLaunch

/-- Which resources a task clears. -/
inductive Needs (f : Frame) (s s' : PassState) : Task → OrdinalSet → Prop where
  | due {job : Job} {a : Assignment} : s.reservations.get? job.id = some a → a.start ≤ f.now →
      f.now ≤ a.last → a.resources.subset (f.catalog.inState .alive) = true →
      Needs f s s' (.review job) a.resources
  | placed {c : Commitment} : c.job.isBestEffort = false → Commits f s s' (.consider c.job) c →
      c.placement.assignment.start = f.now →
      Needs f s s' (.consider c.job) c.placement.assignment.resources

theorem victims_launch (s : PassState) (job : Job) (c : Candidate) (resources : OrdinalSet) :
    (s.launch job c resources).victims =
      if job.isBestEffort then s.victims else s.victims ++ (s.evict resources).2 := by
  simp only [launch]
  cases job.isBestEffort <;> simp only [Bool.false_eq_true, if_false, if_true] <;> split <;> rfl

/-- A regular job that is placed now clears its resources. -/
theorem clears_launched {c : Candidate} (hregular : job.isBestEffort = false)
    (hs : Alike ((s.booked f job c f.now resources).launch job c resources) s') :
    Clears s s' resources := by
  have hbest := bestEffort_booked f s job c f.now resources
  obtain ⟨d, hd, hdecided⟩ :=
    decisions_launch (s.booked f job c f.now resources) job c resources
  constructor
  · rw [hs.victims, victims_launch, hregular, if_neg nofun, victims_booked, evict, evict, hbest]
  · intro hmeets
    refine ⟨d, by rw [hs.decisions, hd, decisions_booked], fun hlaunch => ?_⟩
    rcases hdecided.clear hlaunch with hplain | hclear
    · rw [hregular] at hplain
      cases hplain
    · rw [IsClear, hbest] at hclear
      exact hmeets hclear

/-- Only the turn of a due reservation and that of a regular job placed now mark anybody. -/
theorem Step.victims (h : Step f s s' task) :
    s'.victims = s.victims ∨ ∃ resources, Needs f s s' task resources ∧ Clears s s' resources := by
  cases h with
  | opened hs | shown hs | ahead _ _ hs | expired _ _ _ hs | delayed _ _ _ _ hs | started _ _ _ _ _ hs
  | refused _ hs | kept hs | rejected hs => exact Or.inl hs.victims
  | granted _ _ _ _ hs | planned _ _ hs =>
      exact Or.inl (hs.victims.trans (victims_booked ..))
  | awaited ha hdue hlast halive _ hs =>
      refine Or.inr ⟨_, .due ha hdue hlast halive, hs.victims, fun _ => ⟨_, hs.decisions, ?_⟩⟩
      nofun
  | @launched job c resources hfinds hs =>
      cases hbest : job.isBestEffort with
      | true =>
          left
          rw [hs.victims, victims_launch, hbest, if_pos rfl]
          exact victims_booked ..
      | false =>
          refine Or.inr ⟨_, ?_, clears_launched hbest hs⟩
          exact Needs.placed (c := commitmentOf f job c f.now resources) hbest
            (commits_of_launched hfinds hs) rfl

/-- A due reservation always clears its resources. -/
theorem Step.clears_of_due (h : Step f s s' (.review job))
    (ha : s.reservations.get? job.id = some a) (hdue : a.start ≤ f.now) (hlast : f.now ≤ a.last)
    (halive : a.resources.subset (f.catalog.inState .alive) = true) :
    s'.victims = s.victims ++ (s.evict a.resources).2 := by
  have hsame : ∀ {b}, s.reservations.get? job.id = some b → b = a := fun hb =>
    Option.some.inj (hb.symm.trans ha)
  cases h with
  | ahead hb hahead =>
      rw [hsame hb] at hahead
      omega
  | expired hb _ hpassed =>
      rw [hsame hb] at hpassed
      omega
  | delayed hb _ _ hdead =>
      rw [hsame hb, halive] at hdead
      cases hdead
  | awaited hb _ _ _ _ hs =>
      rw [hsame hb] at hs
      exact hs.victims
  | started hb _ _ _ hblockers hs =>
      rw [hsame hb] at hblockers
      rw [hblockers, List.append_nil]
      exact hs.victims
  | refused htask | granted htask => exact absurd htask (not_reserves_of_reserved ha)

/-- Somebody is marked only when a task clears the resources that it needs. -/
theorem Step.clears_of_marked {marked : List Int} (h : Step f s s' task)
    (hmarked : s'.victims = s.victims ++ marked) (hid : id ∈ marked) :
    ∃ resources, Needs f s s' task resources ∧ Clears s s' resources ∧
      id ∈ (s.evict resources).2 := by
  rcases h.victims with hsame | ⟨resources, hneeds, hclears⟩
  · rw [List.self_eq_append_right.1 (hsame.symm.trans hmarked)] at hid
    cases hid
  · rw [List.append_cancel_left (hmarked.symm.trans hclears.victims)] at hid
    exact ⟨resources, hneeds, hclears, hid⟩

theorem Step.victims_mono (h : Step f s s' task) : ∃ marked, s'.victims = s.victims ++ marked := by
  rcases h.victims with hsame | ⟨_, _, hclears⟩
  · exact ⟨[], hsame.trans (List.append_nil _).symm⟩
  · exact ⟨_, hclears.victims⟩

end Turns

section Runs

theorem victims_run (tasks : List Task) (s : PassState) :
    ∃ marked, (tasks.foldl (perform f) s).victims = s.victims ++ marked := by
  induction tasks generalizing s with
  | nil => exact ⟨[], (List.append_nil _).symm⟩
  | cons task rest ih =>
      obtain ⟨first, hfirst⟩ := (perform_step f s task).victims_mono
      obtain ⟨marked, hmarked⟩ := ih (perform f s task)
      exact ⟨first ++ marked, by rw [List.foldl_cons, hmarked, hfirst, List.append_assoc]⟩

/-- Whoever is marked in a run is marked at one of its tasks. -/
theorem victim_of_run (tasks : List Task) (s : PassState)
    (hid : id ∈ (tasks.foldl (perform f) s).victims) (hold : id ∉ s.victims) :
    ∃ front task back marked, tasks = front ++ task :: back ∧
      (perform f (front.foldl (perform f) s) task).victims =
        (front.foldl (perform f) s).victims ++ marked ∧ id ∈ marked := by
  induction tasks generalizing s with
  | nil => exact absurd hid hold
  | cons task rest ih =>
      obtain ⟨marked, hmarked⟩ := (perform_step f s task).victims_mono
      by_cases hnew : id ∈ marked
      · exact ⟨[], task, rest, marked, rfl, hmarked, hnew⟩
      · have hstill : id ∉ (perform f s task).victims := by
          rw [hmarked, List.mem_append]
          exact fun h => h.elim hold hnew
        obtain ⟨front, task', back, marked', hsplit, h⟩ := ih _ hid hstill
        exact ⟨task :: front, task', back, marked', by rw [hsplit]; rfl, h⟩

theorem mem_kills_iff : id ∈ (f.run m).report.kills ↔ ∃ job, f.Kills m job id := by
  simp only [Frame.run, report, mem_ascending]
  constructor
  · intro hid
    have hnone : id ∉ (start f m).victims := by
      rw [(loaded_start f m).victims]
      exact List.not_mem_nil
    obtain ⟨front, task, back, marked, hagenda, hmarked, hnew⟩ :=
      victim_of_run f.agenda (start f m) hid hnone
    obtain ⟨_, hneeds, _⟩ := (perform_step f _ task).clears_of_marked hmarked hnew
    cases hneeds with
    | @due job => exact ⟨job, front, _, back, marked, hagenda, rfl, hmarked, hnew⟩
    | @placed c => exact ⟨c.job, front, _, back, marked, hagenda, rfl, hmarked, hnew⟩
  · rintro ⟨job, front, task, back, marked, hagenda, _, hmarked, hnew⟩
    obtain ⟨later, hlater⟩ := victims_run (f := f) back
      (perform f (front.foldl (perform f) (start f m)) task)
    rw [finished, hagenda, List.foldl_append, List.foldl_cons, hlater, hmarked]
    exact List.mem_append_left _ (List.mem_append_right _ hnew)

theorem comesDue_of_review {front back : List Task} (hagenda : f.agenda = front ++ .review job :: back)
    (ha : (front.foldl (perform f) (start f m)).reservations.get? job.id = some a)
    (hdue : a.start ≤ f.now) (hlast : f.now ≤ a.last)
    (halive : a.resources.subset (f.catalog.inState .alive) = true) :
    ∃ row, f.ComesDue job row ∧ a.resources = f.rowOrdinals row := by
  obtain ⟨row, hrow, hid, rfl, hreserved, _⟩ := row_of_review hagenda ha
  obtain ⟨queue, hqueue, hreview, hflag⟩ := (Frame.reviews_before_review hagenda).2
  exact ⟨row, ⟨hrow, hid, hreserved, ⟨queue, hqueue, hreview⟩, hflag, hdue, hlast, halive⟩, rfl⟩

/-- Whoever is killed holds what the killing job needs now. A best-effort job kills only for a
reservation. -/
theorem inTheWay_of_kills (h : f.Kills m job id) :
    ∃ row ∈ f.rows, row.job = id ∧ f.IsAside row ∧ ∃ resources, f.NeedsNow m job resources ∧
      ¬ OrdinalSet.Disjoint resources (f.rowOrdinals row) ∧
      (job.isBestEffort = true →
        ∃ reserved, f.ComesDue job reserved ∧ resources = f.rowOrdinals reserved) := by
  obtain ⟨front, task, back, marked, hagenda, hjob, hmarked, hid⟩ := h
  obtain ⟨resources, hneeds, _, hid⟩ := (perform_step f _ task).clears_of_marked hmarked hid
  obtain ⟨row, hrow, hrowId, haside, hmeets⟩ := (mem_evict_run front).1 hid
  refine ⟨row, hrow, hrowId, haside, resources, ?_⟩
  cases hneeds with
  | @due job' a ha hdue hlast halive =>
      cases hjob
      obtain ⟨reserved, hcomes, hresources⟩ := comesDue_of_review hagenda ha hdue hlast halive
      rw [hresources] at hmeets ⊢
      exact ⟨.due hcomes, hmeets, fun _ => ⟨reserved, hcomes, rfl⟩⟩
  | @placed c hregular hcommits hstart =>
      cases hjob
      have hmem : .consider c.job ∈ f.agenda := by
        rw [hagenda]
        exact List.mem_append_right _ List.mem_cons_self
      refine ⟨.placed (mem_finished_of_commits hagenda hcommits) (Frame.job_of_consider hmem).2 hstart,
        hmeets, fun hbest => ?_⟩
      rw [hregular] at hbest
      cases hbest

/-- A job that kills is not launched. -/
theorem waits_of_kills (hturns : f.HasTurns) (h : f.Kills m job id) {d : Decision}
    (hd : d ∈ (f.run m).report.decisions) (hjob : d.job = job.id) : d.outcome ≠ .toLaunch := by
  obtain ⟨front, task, back, marked, hagenda, hisAbout, hmarked, hid⟩ := h
  obtain ⟨resources, _, hclears, hid⟩ := (perform_step f _ task).clears_of_marked hmarked hid
  have hblocked : ¬ (front.foldl (perform f) (start f m)).IsClear resources := by
    rw [← isClear_iff]
    exact List.ne_nil_of_mem hid
  obtain ⟨d', hd', hwaits⟩ := hclears.waits hblocked
  have hmem : d ∈ (finished f m).decisions.filter fun d => d.job == job.id :=
    List.mem_filter.2 ⟨hd, by rw [hjob, beq_self_eq_true]⟩
  rw [decisions_of_turn hturns hagenda hisAbout hd', List.mem_singleton] at hmem
  rw [hmem]
  exact hwaits

/-- A due reservation kills whoever is on its resources. -/
theorem kills_of_due {reserved : GanttRow} (hcomes : f.ComesDue job reserved) (hrow : row ∈ f.rows)
    (haside : f.IsAside row)
    (hmeets : ¬ OrdinalSet.Disjoint (f.rowOrdinals reserved) (f.rowOrdinals row)) :
    f.Kills m job row.job := by
  obtain ⟨queue, hqueue, hreview⟩ := hcomes.reviewed
  have hmem : .review job ∈ f.agenda := by
    rw [Frame.agenda_eq_reviews]
    refine List.mem_append_left _ (List.mem_flatMap.2 ⟨queue, hqueue, ?_⟩)
    exact Frame.mem_reviews.2 ⟨job, hreview, hcomes.flag, rfl⟩
  obtain ⟨front, back, hagenda⟩ := List.append_of_mem hmem
  have hstart : (start f m).reservations.get? job.id = some (f.rowAssignment reserved) :=
    ((loaded_start f m).reservations _ _).2 ⟨reserved, hcomes.isRow, hcomes.id, hcomes.reserved⟩
  have hget := reservations_kept_run front _ hstart hcomes.lasts
  exact ⟨front, _, back, _, hagenda, rfl,
    (perform_step f _ _).clears_of_due hget hcomes.begun hcomes.lasts hcomes.alive,
    (mem_evict_run front).2 ⟨row, hrow, rfl, haside, hmeets⟩⟩

end Runs

end PassState

/-- Kills are made for regular jobs, which are to start now and wait until the killed ones are gone. -/
structure Frame.KillsForRegular (f : Frame) (m : Matcher) : Prop where
  marked : ∀ id, id ∈ (f.run m).report.kills ↔ ∃ job, f.Kills m job id
  inTheWay : ∀ job id, f.Kills m job id → ∃ row ∈ f.rows, row.job = id ∧ f.IsAside row ∧
    ∃ resources, f.NeedsNow m job resources ∧
      ¬ OrdinalSet.Disjoint resources (f.rowOrdinals row)
  regular : ∀ job id, f.Kills m job id → job.isBestEffort = false
  /-- Another turn of the job could launch it elsewhere. -/
  waits : f.HasTurns → ∀ job id, f.Kills m job id → ∀ d ∈ (f.run m).report.decisions,
    d.job = job.id → d.outcome ≠ .toLaunch

open PassState in
/-- Best-effort jobs kill through their reservations alone. -/
theorem killsForRegular_iff (f : Frame) (m : Matcher) :
    f.KillsForRegular m ↔ ∀ job reserved, f.ComesDue job reserved → job.isBestEffort = true →
      ∀ row ∈ f.rows, f.IsAside row →
        OrdinalSet.Disjoint (f.rowOrdinals reserved) (f.rowOrdinals row) := by
  constructor
  · intro hkills job reserved hcomes hbest row hrow haside
    by_contra hmeets
    have hregular := hkills.regular job row.job (kills_of_due hcomes hrow haside hmeets)
    rw [hbest] at hregular
    cases hregular
  · intro hspares
    refine ⟨fun _ => mem_kills_iff, fun job id hkills => ?_, fun job id hkills => ?_,
      fun hturns job id hkills d hd hjob => waits_of_kills hturns hkills hd hjob⟩
    · obtain ⟨row, hrow, hid, haside, resources, hneeds, hmeets, _⟩ := inTheWay_of_kills hkills
      exact ⟨row, hrow, hid, haside, resources, hneeds, hmeets⟩
    · obtain ⟨row, hrow, _, haside, resources, _, hmeets, hdue⟩ := inTheWay_of_kills hkills
      by_contra hbest
      rw [Bool.not_eq_false] at hbest
      obtain ⟨reserved, hcomes, rfl⟩ := hdue hbest
      exact hmeets (hspares job reserved hcomes hbest row hrow haside)

section DueBestEffort

/-- A reservation for the second 90, made by a best-effort job. -/
def bestEffortReservation : Job :=
  { exampleJob 2 ["besteffort"] 1 with reservation := .scheduled, requestedStart := some 90 }

/-- One resource, on which a best-effort job runs and which another one has reserved. -/
def dueBestEffortFrame : Frame :=
  { overrunFrame with
    gantt := [⟨1, 10, 50, 100, [1]⟩, ⟨2, 20, 90, 50, [1]⟩]
    active := [{ exampleJob 1 ["besteffort"] 1 with state := .running }]
    waiting := [bestEffortReservation] }

theorem agenda_dueBestEffortFrame :
    dueBestEffortFrame.agenda =
      [.review bestEffortReservation, .openQueue, .showBestEffort, .openQueue] := by
  cbv

/-- The running job is killed for a reservation that is best-effort itself. -/
theorem not_killsForRegular_dueBestEffort :
    dueBestEffortFrame.HasTurns ∧ ¬ dueBestEffortFrame.KillsForRegular .empty := by
  refine ⟨⟨by decide, by decide⟩, fun h => ?_⟩
  have hkills : dueBestEffortFrame.Kills .empty bestEffortReservation 1 :=
    ⟨[], _, _, [1], agenda_dueBestEffortFrame, rfl, by decide +kernel, List.mem_singleton_self 1⟩
  exact absurd (h.regular _ _ hkills) (by decide)

end DueBestEffort

end ClusterPlan
