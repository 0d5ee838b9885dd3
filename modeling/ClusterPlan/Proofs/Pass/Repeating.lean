import ClusterPlan.Proofs.Pass.Rerun

/-!
What a second pass at the same second commits. Reservations commit nothing again, and the jobs that the
first pass left as they were get the placements that they got in it.
-/

namespace ClusterPlan

namespace Frame

variable {f : Frame} {task : Task} {job : Job}

/-- The tasks about reservations. -/
def reservationTasks (f : Frame) : List Task :=
  f.config.queues.flatMap f.reviews ++ f.config.queues.flatMap f.reserves

/-- The turns of the regular jobs, or those of the best-effort jobs. -/
def turns (f : Frame) (bestEffort : Bool) : List Task :=
  f.config.queues.flatMap (f.considers bestEffort)

theorem job_of_reservationTasks (h : task ∈ f.reservationTasks) :
    ∃ job, (task = .review job ∨ task = .reserve job) ∧ job ∈ f.waiting ∧
      job.isReservation = true := by
  rw [reservationTasks, List.mem_append, List.mem_flatMap, List.mem_flatMap] at h
  rcases h with ⟨queue, _, h⟩ | ⟨queue, _, h⟩
  · obtain ⟨job, hjob, hflag, rfl⟩ := mem_reviews.1 h
    exact ⟨job, Or.inl rfl, (mem_queueJobs.1 hjob).1, by rw [Job.isReservation, hflag]; rfl⟩
  · obtain ⟨job, hjob, hflag, rfl⟩ := mem_reserves.1 h
    exact ⟨job, Or.inr rfl, (mem_queueJobs.1 hjob).1, by rw [Job.isReservation, hflag]; rfl⟩

theorem job_of_turns {bestEffort : Bool} (h : task ∈ f.turns bestEffort) :
    task = .openQueue ∨ ∃ job, task = .consider job ∧ job ∈ f.waiting ∧ job.state = .waiting ∧
      job.isReservation = false ∧ job.isBestEffort = bestEffort := by
  obtain ⟨queue, _, h⟩ := List.mem_flatMap.1 h
  rcases mem_considers.1 h with rfl | ⟨job, hjob, hplain, hbest, rfl⟩
  · exact Or.inl rfl
  · obtain ⟨hwaiting, _, hstate⟩ := mem_queueJobs.1 hjob
    exact Or.inr ⟨job, rfl, hwaiting, hstate, hplain, hbest⟩

theorem Repeatable.isTurn {bestEffort : Bool} (h : f.Repeatable) (htask : task ∈ f.turns bestEffort) :
    PassState.Echo.IsTurn f task := by
  rcases job_of_turns htask with rfl | ⟨job, rfl, hjob, hstate, hplain, _⟩
  · exact Or.inl rfl
  · refine Or.inr ⟨job, rfl, hstate, ?_, h.unlimited job hjob hplain, fun e he => ?_⟩
    · simpa [Job.isReservation] using hplain
    · obtain ⟨ha, hc⟩ := PassState.mem_candidatesOf.1 he
      exact h.steady job hjob hplain e.1 ha e.2 hc

end Frame

namespace PassState

variable {f g : Frame} {m m' : Matcher} {s : PassState} {task : Task}

/-- The state when all reservations had their turns. -/
def afterReservations (f : Frame) (m : Matcher) : PassState :=
  f.reservationTasks.foldl (perform f) (start f m)

theorem beforeBestEffort_eq (f : Frame) (m : Matcher) :
    beforeBestEffort f m = (f.turns false).foldl (perform f) (afterReservations f m) := by
  rw [beforeBestEffort, afterReservations, ← List.foldl_append]
  rfl

theorem finished_eq_turns (f : Frame) (m : Matcher) :
    finished f m =
      (f.turns true).foldl (perform f) (beforeBestEffort f m).occupyBestEffort :=
  finished_eq f m

/-- The commitments of a pass in three parts: for reservations, for regular jobs, and for best-effort
jobs. -/
structure Phases (f : Frame) (m : Matcher) (granted regular bestEffort : List Commitment) :
    Prop where
  afterReservations : (afterReservations f m).commitments = granted
  beforeBestEffort : (beforeBestEffort f m).commitments = granted ++ regular
  finished : (finished f m).commitments = granted ++ regular ++ bestEffort
  granted : ∀ c ∈ granted, c.job.isReservation = true
  regular : ∀ c ∈ regular, c.job.isReservation = false ∧ c.job.isBestEffort = false
  bestEffort : ∀ c ∈ bestEffort, c.job.isReservation = false ∧ c.job.isBestEffort = true

theorem exists_phases (f : Frame) (m : Matcher) :
    ∃ granted regular bestEffort, Phases f m granted regular bestEffort := by
  have hloaded := loaded_start f m
  have hwell := hloaded.wellFormed
  have hwell₁ := (books_run f f.reservationTasks _ (books_start f m)).wellFormed
  have hwell₂ : (beforeBestEffort f m).occupyBestEffort.timeline.WellFormed :=
    wellFormed_foldl_occupyPlaced _ _ _ (wellFormed_beforeBestEffort f m)
  obtain ⟨granted, hgranted, hgrantedJobs⟩ :=
    new_commitment_of_run f f.reservationTasks (start f m) hwell
  obtain ⟨regular, hregular, hregularJobs⟩ :=
    new_commitment_of_run f (f.turns false) (afterReservations f m) hwell₁
  obtain ⟨best, hbest, hbestJobs⟩ := new_commitment_of_run f (f.turns true) _ hwell₂
  have hturn : ∀ {b : Bool} {c : Commitment}, (∃ task ∈ f.turns b, task.job? = some c.job) →
      c.job.isReservation = false ∧ c.job.isBestEffort = b := by
    rintro b c ⟨task, htask, hjob⟩
    rcases Frame.job_of_turns htask with rfl | ⟨job, rfl, _, _, hplain, hkind⟩
    · cases hjob
    · cases hjob
      exact ⟨hplain, hkind⟩
  rw [hloaded.commitments, List.nil_append] at hgranted
  rw [← beforeBestEffort_eq] at hregular
  rw [← finished_eq_turns] at hbest
  refine ⟨granted, regular, best, hgranted, ?_, ?_, fun c hc => ?_, fun c hc =>
    hturn (hregularJobs c hc).1, fun c hc => hturn (hbestJobs c hc).1⟩
  · rw [hregular, afterReservations, hgranted]
  · rw [hbest]
    change (beforeBestEffort f m).commitments ++ best = _
    rw [hregular, afterReservations, hgranted]
  · obtain ⟨⟨task, htask, hjob⟩, _⟩ := hgrantedJobs c hc
    obtain ⟨job, rfl | rfl, _, hflag⟩ := Frame.job_of_reservationTasks htask <;>
      · cases hjob
        exact hflag

/-- Reservations never hold up other jobs. -/
theorem blocker_reservations (tasks : List Task)
    (htasks : ∀ task ∈ tasks, ∃ job, task = .review job ∨ task = .reserve job)
    (hs : Informed f s) : (tasks.foldl (perform f) s).blocker = s.blocker := by
  induction tasks generalizing s with
  | nil => rfl
  | cons task rest ih =>
      obtain ⟨⟨job, htask⟩, hrest⟩ := List.forall_mem_cons.1 htasks
      rw [List.foldl_cons, ih hrest (hs.step task).1]
      rcases htask with rfl | rfl
      · exact (reviewReservation_asks hs.serves job).blocker
      · exact (placeReservation_asks hs.serves job).blocker

theorem blocker_afterReservations (hready : m.Ready f.catalog) :
    (afterReservations f m).blocker = none := by
  rw [afterReservations, blocker_reservations _ _ (informed_start hready), (memory_start f m).blocker]
  · rfl
  · intro task htask
    obtain ⟨job, hjob, _⟩ := Frame.job_of_reservationTasks htask
    exact ⟨job, hjob⟩

section Settled

variable {granted regular bestEffort : List Commitment} {p : Commitment → Prop}

theorem Phases.regular_of_granted (h : Phases f m granted regular bestEffort) (hf : f.Repeatable)
    {c : Commitment} (hc : c ∈ granted) : c.job.isBestEffort = false := by
  have hcommitted : c ∈ (PassState.finished f m).commitments := by
    rw [h.finished]
    exact List.mem_append_left _ (List.mem_append_left _ hc)
  exact hf.reserves c.job (committed_of_task hcommitted).1 (h.granted c hc)

/-- What holds beyond the pass, best-effort jobs apart: reservations, and regular jobs launched. -/
theorem Phases.settled_regular (h : Phases f m granted regular bestEffort) (hf : f.Repeatable) :
    (∃ c ∈ (PassState.finished f m).commitments, (f.run m).report.settles c = true ∧
      c.job.isBestEffort = false ∧ p c) ↔
    (∃ c ∈ granted, p c) ∨ ∃ c ∈ regular, (f.run m).report.alters c.job.id = true ∧ p c := by
  rw [h.finished]
  simp only [List.mem_append, or_and_right, exists_or]
  constructor
  · rintro ((⟨c, hc, _, _, hp⟩ | ⟨c, hc, hsettles, _, hp⟩) | ⟨c, hc, _, hkind, _⟩)
    · exact Or.inl ⟨c, hc, hp⟩
    · rw [Report.settles, (h.regular c hc).1, Bool.false_or] at hsettles
      exact Or.inr ⟨c, hc, hsettles, hp⟩
    · rw [(h.bestEffort c hc).2] at hkind
      cases hkind
  · rintro (⟨c, hc, hp⟩ | ⟨c, hc, halters, hp⟩)
    · refine Or.inl (Or.inl ⟨c, hc, ?_, h.regular_of_granted hf hc, hp⟩)
      rw [Report.settles, h.granted c hc, Bool.true_or]
    · refine Or.inl (Or.inr ⟨c, hc, ?_, (h.regular c hc).2, hp⟩)
      rw [Report.settles, halters, Bool.or_true]

/-- Of the best-effort jobs, those that were launched. -/
theorem Phases.settled_bestEffort (h : Phases f m granted regular bestEffort) (hf : f.Repeatable) :
    (∃ c ∈ (PassState.finished f m).commitments, (f.run m).report.settles c = true ∧
      c.job.isBestEffort = true ∧ p c) ↔
    ∃ c ∈ bestEffort, (f.run m).report.alters c.job.id = true ∧ p c := by
  rw [h.finished]
  simp only [List.mem_append, or_and_right, exists_or]
  constructor
  · rintro ((⟨c, hc, _, hkind, _⟩ | ⟨c, hc, _, hkind, _⟩) | ⟨c, hc, hsettles, _, hp⟩)
    · rw [h.regular_of_granted hf hc] at hkind
      cases hkind
    · rw [(h.regular c hc).2] at hkind
      cases hkind
    · rw [Report.settles, (h.bestEffort c hc).1, Bool.false_or] at hsettles
      exact ⟨c, hc, hsettles, hp⟩
  · rintro ⟨c, hc, halters, hp⟩
    refine Or.inr ⟨c, hc, ?_, (h.bestEffort c hc).2, hp⟩
    rw [Report.settles, halters, Bool.or_true]

/-- What is not settled is committed for the jobs whose turns come again. -/
theorem Phases.filter_not_settles (h : Phases f m granted regular bestEffort) :
    (PassState.finished f m).commitments.filter (fun c => !(f.run m).report.settles c) =
      (regular.filter fun c => !(f.run m).report.alters c.job.id) ++
        bestEffort.filter fun c => !(f.run m).report.alters c.job.id := by
  have hturns : ∀ {cs : List Commitment}, (∀ c ∈ cs, c.job.isReservation = false) →
      cs.filter (fun c => !(f.run m).report.settles c) =
        cs.filter fun c => !(f.run m).report.alters c.job.id := fun hcs =>
    List.filter_congr fun c hc => by rw [Report.settles, hcs c hc, Bool.false_or]
  have hgranted : granted.filter (fun c => !(f.run m).report.settles c) = [] := by
    rw [List.filter_eq_nil_iff]
    intro c hc
    simp [Report.settles, h.granted c hc]
  rw [h.finished, List.filter_append, List.filter_append, hgranted, List.nil_append,
    hturns fun c hc => (h.regular c hc).1, hturns fun c hc => (h.bestEffort c hc).1]

end Settled

end PassState

namespace Frame.Resumes

open PassState

variable {f g : Frame} {m m' : Matcher} {s : PassState} {c : Commitment}
  {granted regular bestEffort : List Commitment}

theorem informed {r : Report} (h : f.Resumes r g) (hs : Informed g s) : Informed f s := by
  rw [h.same] at hs
  exact ⟨⟨hs.times.wellFormed, hs.times.origin, hs.times.horizon⟩, hs.serves, hs.right⟩

theorem rules {r : Report} (h : f.Resumes r g) : g.ledger.rules = f.ledger.rules := by
  rw [h.same]
  rfl

section Turns

variable (h : f.Resumes (f.run m).report g) (hf : f.Repeatable) (horder : f.order.IsPreorder)
include h hf horder

theorem turns_eq (bestEffort : Bool) :
    g.turns bestEffort = (f.turns bestEffort).filter (Task.stays (f.run m).report.alters) := by
  have hqueues : g.config.queues = f.config.queues := by rw [h.same]; rfl
  rw [turns, turns, List.filter_flatMap, hqueues]
  exact List.flatMap_congr fun queue _ => h.considers_eq hf.tidy horder bestEffort queue

/-- The turns that come again commit again what they committed. -/
theorem echo_turns {u : PassState} {new : List Commitment} (bestEffort : Bool)
    (hecho : Echo f (f.run m).report.alters new s u)
    (hnew : ((f.turns bestEffort).foldl (PassState.perform f) s).commitments = s.commitments ++ new)
    (hdecided : ∀ d ∈ ((f.turns bestEffort).foldl (PassState.perform f) s).decisions,
      d ∈ (finished f m).decisions) :
    Echo f (f.run m).report.alters [] ((f.turns bestEffort).foldl (PassState.perform f) s)
        ((g.turns bestEffort).foldl (PassState.perform g) u) ∧
      ((g.turns bestEffort).foldl (PassState.perform g) u).commitments =
        u.commitments ++ new.filter fun c => !(f.run m).report.alters c.job.id := by
  obtain ⟨decided, hdecisions⟩ := decisions_of_run f (f.turns bestEffort) s
  rw [h.turns_eq hf horder, h.perform]
  refine hecho.run _ hf.clock (fun task => hf.isTurn) hnew hdecisions fun d hd => ?_
  refine alters_of_decision hf.tidy.hasTurns (hdecided d ?_)
  rw [hdecisions]
  exact List.mem_append_right _ hd

end Turns

section Echoes

variable (h : f.Resumes (f.run m).report g) (hf : f.Repeatable) (hready : m.Ready f.catalog)
include h hf hready

/-- Nothing is committed for reservations again. -/
theorem plain_of_committed (hc : c ∈ (finished g m').commitments) : c.job.isReservation = false := by
  by_contra hflag
  exact h.reserved_again hf (committed_of_task hc).1 (Bool.not_eq_false _ ▸ hflag)
    (fate_of_committed (h.tidy hf.tidy) (h.isCurrent hf hready) hc).1

theorem commitments_afterReservations : (afterReservations g m').commitments = [] := by
  obtain ⟨granted, regular, bestEffort, hphases⟩ := exists_phases g m'
  rw [hphases.afterReservations, List.eq_nil_iff_forall_not_mem]
  intro c hc
  have hcommitted : c ∈ (finished g m').commitments := by
    rw [hphases.finished]
    exact List.mem_append_left _ (List.mem_append_left _ hc)
  have hplain := h.plain_of_committed hf hready hcommitted
  rw [hphases.granted c hc] at hplain
  cases hplain

variable (hphases : Phases f m granted regular bestEffort)
include hphases

theorem free_afterReservations {o : Nat} {t : Int} :
    (afterReservations g m').timeline.Free o t ↔ (afterReservations f m).timeline.Free o t ∧
      ∀ c ∈ regular, (f.run m).report.alters c.job.id = true → ¬ c.placement.Holds o t := by
  have hnotShow : ∀ f : Frame, .showBestEffort ∉ f.reservationTasks := by
    intro f hmem
    obtain ⟨_, h | h, _⟩ := job_of_reservationTasks hmem <;> cases h
  have hfirst : (afterReservations f m).timeline.Free o t ↔
      (start f m).timeline.Free o t ∧ ∀ c ∈ granted, ¬ c.placement.Holds o t :=
    free_run f.reservationTasks (loaded_start f m).wellFormed (hnotShow f)
      (by rw [(loaded_start f m).commitments]; exact hphases.afterReservations)
  have hsecond : (afterReservations g m').timeline.Free o t ↔
      (start g m').timeline.Free o t ∧ ∀ c ∈ [], ¬ Placement.Holds (Commitment.placement c) o t :=
    free_run g.reservationTasks (loaded_start g m').wellFormed (hnotShow g)
      (by rw [(loaded_start g m').commitments]; exact h.commitments_afterReservations hf hready)
  rw [hfirst, hsecond, free_start, free_start, h.now, h.horizon, h.catalog, h.closures]
  by_cases ht : t ≤ f.horizon
  · rw [h.stands_iff hf ht, hphases.settled_regular hf]
    simp only [not_or, not_exists, not_and, List.not_mem_nil, false_imp_iff]
    tauto
  · simp [ht]

variable (hready' : m'.Ready f.catalog)
include hready'

theorem echo_regular : Echo f (f.run m).report.alters regular (afterReservations f m)
    (afterReservations g m') := by
  have hready'' : m'.Ready g.catalog := h.catalog ▸ hready'
  have hinformed := informed_run f.reservationTasks (informed_start hready)
  have hinformed' := informed_run g.reservationTasks (informed_start hready'')
  refine ⟨hinformed, h.informed hinformed', ?_, ?_, ?_, fun o t => ?_⟩
  · exact (rules_run f _ _).trans (opened_start f m).rules
  · exact ((rules_run g _ _).trans (opened_start g m').rules).trans h.rules
  · rw [blocker_afterReservations hready, blocker_afterReservations hready'']
  · exact h.free_afterReservations hf hready hphases

omit hready hready' in
theorem echo_bestEffort
    (hecho : Echo f (f.run m).report.alters [] (beforeBestEffort f m) (beforeBestEffort g m')) :
    Echo f (f.run m).report.alters bestEffort (beforeBestEffort f m).occupyBestEffort
      (beforeBestEffort g m').occupyBestEffort := by
  refine ⟨(hecho.informed.step .showBestEffort).1, (hecho.informed'.step .showBestEffort).1,
    hecho.rules, hecho.rules', hecho.blocker, fun o t => ?_⟩
  rw [free_occupyBestEffort (h.tidy hf.tidy), free_occupyBestEffort hf.tidy, hecho.free]
  by_cases ht : t ≤ f.horizon
  · rw [h.stands_iff hf ht, hphases.settled_bestEffort hf]
    simp only [not_or, not_exists, not_and, List.not_mem_nil, false_imp_iff]
    tauto
  · have htimes := hecho.informed.times
    have hlate : ¬ (beforeBestEffort f m).timeline.Free o t := fun hfree =>
      ht (htimes.horizon ▸ (Timeline.bounds_of_free htimes.wellFormed hfree).2)
    simp [hlate]

omit hphases in
/-- The second pass commits what the first one committed and did not settle. -/
theorem commitments_again (horder : f.order.IsPreorder) :
    (finished g m').commitments =
      (finished f m).commitments.filter fun c => !(f.run m).report.settles c := by
  obtain ⟨granted, regular, bestEffort, hphases⟩ := exists_phases f m
  obtain ⟨decided, hdecisions⟩ := decisions_of_run f (f.turns true)
    (beforeBestEffort f m).occupyBestEffort
  rw [← finished_eq_turns] at hdecisions
  have hregular := h.echo_turns hf horder false
    (h.echo_regular hf hready hphases hready')
    (by rw [← beforeBestEffort_eq, hphases.beforeBestEffort, hphases.afterReservations])
    (by
      rw [← beforeBestEffort_eq, hdecisions]
      exact fun d hd => List.mem_append_left _ hd)
  rw [← beforeBestEffort_eq, ← beforeBestEffort_eq, h.commitments_afterReservations hf hready,
    List.nil_append] at hregular
  have hbest := h.echo_turns hf horder true (h.echo_bestEffort hf hphases hregular.1)
    (by
      rw [← finished_eq_turns, hphases.finished, ← hphases.beforeBestEffort]
      rfl)
    (by
      rw [← finished_eq_turns]
      exact fun d hd => hd)
  rw [← finished_eq_turns, ← finished_eq_turns] at hbest
  rw [hbest.2, hphases.filter_not_settles, ← hregular.2]
  rfl

end Echoes

end Frame.Resumes

end ClusterPlan
