import ClusterPlan.Proofs.Pass.Knowledge
import ClusterPlan.Proofs.Pass.Turns

/-!
The check at submission and the pass judge a request alike. A job that the check accepts lacks at worst
resources, and a pass lets such a job wait, whatever else it has to place.
-/

namespace ClusterPlan

/-- The job has alternatives, and nothing is wrong with any of them but that resources may lack. -/
def Catalog.Accepts (c : Catalog) (job : Job) : Prop :=
  job.alternatives ≠ [] ∧
    ∀ a ∈ job.alternatives, ∀ e, c.candidate job.filter a = .error e → ∃ lack, e = .unsatisfiable lack

namespace Matcher

variable {m : Matcher} {c : Catalog} {job : Job}

theorem firstFault?_eq_none_iff {results : List (Except Error Candidate)} :
    firstFault? results = none ↔ ∀ e, .error e ∈ results → ∃ lack, e = .unsatisfiable lack := by
  induction results with
  | nil => simp [firstFault?]
  | cons r rest ih =>
      cases r with
      | ok found => simp [firstFault?, ih]
      | error e => cases e <;> simp [firstFault?, ih]

/-- The check at submission does not depend on what the matcher remembers. -/
theorem validate_eq_ok_iff (h : m.Ready c) : (m.validate c job).2 = .ok () ↔ c.Accepts job := by
  have hanswers : (m.forJob c job).2 = job.alternatives.map (c.candidate job.filter) :=
    (candidates_eq h job.filter job.alternatives).1
  by_cases hnone : job.alternatives = []
  · simp [validate, Catalog.Accepts, hnone]
  · have hfault : firstFault? (m.forJob c job).2 = none ↔ c.Accepts job := by
      simp only [firstFault?_eq_none_iff, hanswers, List.mem_map, Catalog.Accepts, ne_eq, hnone,
        not_false_eq_true, true_and]
      refine ⟨fun h a ha e he => h e ⟨a, ha, he⟩, ?_⟩
      rintro h e ⟨a, ha, he⟩
      exact h a ha e he
    rw [← hfault]
    simp only [validate, hnone, if_false]
    cases firstFault? (m.forJob c job).2 <;> simp

end Matcher

namespace PassState

variable {f : Frame} {m : Matcher} {s s' : PassState} {job : Job} {task : Task}

/-- One decision comes on top, which is about the job and no error. -/
def Spares (s s' : PassState) (job : Job) : Prop :=
  ∃ d, s'.decisions = s.decisions ++ [d] ∧ d.job = job.id ∧ d.outcome ≠ .error

section Turn

/-- If every answer is a lack of resources, so is the fault that counts. -/
theorem unmatchedFault?_of_lacking {results : List (Except Error Candidate)} (hsome : results ≠ [])
    (h : ∀ r ∈ results, ∃ lack, r = .error (.unsatisfiable lack)) :
    ∃ lack, unmatchedFault? results = some (.unsatisfiable lack) := by
  cases results with
  | nil => exact absurd rfl hsome
  | cons r rest =>
      obtain ⟨⟨lack, rfl⟩, hrest⟩ := List.forall_mem_cons.1 h
      simp only [unmatchedFault?, List.foldl_cons]
      clear hsome h
      -- A lack of resources that is found later takes the place of the one before.
      induction rest generalizing lack with
      | nil => exact ⟨lack, rfl⟩
      | cons r rest ih =>
          obtain ⟨⟨lack', hr⟩, hlacking⟩ := List.forall_mem_cons.1 hrest
          rw [hr]
          exact ih hlacking lack'

theorem Spares.of_same {s₀ : PassState} (h : Spares s₀ s' job) (hs : s₀.decisions = s.decisions) :
    Spares s s' job := by
  obtain ⟨d, hd, hspared⟩ := h
  exact ⟨d, by rw [hd, hs], hspared⟩

theorem spares_decide (s : PassState) (job : Job) (outcome : Outcome) (state : JobState)
    (reservation : Reservation) (note : Note) (houtcome : outcome ≠ .error) :
    Spares s (s.decide job outcome state reservation note) job :=
  ⟨_, rfl, rfl, houtcome⟩

theorem spares_launch (s : PassState) (job : Job) (c : Candidate) (resources : OrdinalSet) :
    Spares s (s.launch job c resources) job := by
  simp only [launch]
  cases job.isBestEffort with
  | true => exact spares_decide s job .toLaunch .toLaunch .none _ (by decide)
  | false =>
      simp only [Bool.false_eq_true, if_false]
      split
      · exact spares_decide (s.evict resources).1 job .toLaunch .toLaunch .none _ (by decide)
      · exact spares_decide (s.evict resources).1 job .scheduled .waiting .none _ (by decide)

theorem spares_keepWaiting (s : PassState) (job : Job) (note : Note) :
    Spares s (s.keepWaiting job note) job :=
  spares_decide s job .stillWaiting .waiting .none note (by decide)

theorem spares_decideUnmatched (s : PassState) (haccepts : f.catalog.Accepts job)
    (hnone : candidatesOf f.catalog job = []) :
    Spares s (s.decideUnmatched job (job.alternatives.map (f.catalog.candidate job.filter))) job := by
  obtain ⟨hsome, hlacks⟩ := haccepts
  obtain ⟨lack, hfault⟩ :
      ∃ lack, unmatchedFault? (job.alternatives.map (f.catalog.candidate job.filter)) =
        some (.unsatisfiable lack) := by
    refine unmatchedFault?_of_lacking (by simpa using hsome) fun r hr => ?_
    obtain ⟨a, ha, rfl⟩ := List.mem_map.1 hr
    cases hc : f.catalog.candidate job.filter a with
    | error e =>
        obtain ⟨lack, rfl⟩ := hlacks a ha e hc
        exact ⟨lack, rfl⟩
    | ok found =>
        have hmem : (a, found) ∈ candidatesOf f.catalog job := mem_candidatesOf.2 ⟨ha, hc⟩
        rw [hnone] at hmem
        cases hmem
  rw [decideUnmatched, hfault]
  exact spares_keepWaiting s job _

/-- A job with candidates is placed, or it waits. -/
theorem spares_place (candidates : List (Alternative × Candidate)) (s : PassState) :
    Spares s (place f job candidates s).1 job := by
  simp only [place]
  cases f.config.policy with
  | fifo =>
      rcases placeNow_cases f job candidates .notEnough s with
        ⟨fits, o, h⟩ | ⟨fits, e, _, resources, _, h⟩ <;> simp only [h]
      · exact (spares_keepWaiting { s with fits := fits } job _).of_same rfl
      · exact (spares_launch _ job e.2 resources).of_same (decisions_booked ..)
  | backfill =>
      rcases placeEarliest_cases f job candidates s with
        ⟨fits, note, h⟩ | ⟨fits, p, _, h⟩ <;> simp only [h]
      · exact (spares_keepWaiting { s with fits := fits } job _).of_same rfl
      · split
        · exact (spares_launch _ job p.candidate p.resources).of_same (decisions_booked ..)
        · exact (spares_decide _ job .scheduled .waiting .none _ (by decide)).of_same (decisions_booked ..)

theorem spares_consider (hserves : s.matcher.Serves f.catalog) (haccepts : f.catalog.Accepts job) :
    Spares s (consider f s job) job := by
  cases hblocker : s.blocker with
  | some blocker =>
      simp only [consider, hblocker]
      exact spares_keepWaiting s job _
  | none =>
      rw [consider_eq hserves hblocker]
      split
      · rename_i hnone
        exact spares_decideUnmatched (s.asked f job) haccepts (List.isEmpty_iff.1 hnone)
      · have hplace : Spares s (place f job (candidatesOf f.catalog job) (s.asked f job)).1 job :=
          spares_place _ (s.asked f job)
        simp only
        split
        · exact hplace
        · obtain ⟨d, hd, hspared⟩ := hplace
          exact ⟨d, (alike_wishWakeup f job _ _).decisions.trans hd, hspared⟩

end Turn

section Run

theorem not_error_run (haccepts : f.catalog.Accepts job) (tasks : List Task)
    (htasks : ∀ task ∈ tasks, ∀ j, task.job? = some j → j.id = job.id → task = .consider job)
    (hs : Informed f s) (hnone : ∀ d ∈ s.decisions, d.job = job.id → d.outcome ≠ .error) :
    ∀ d ∈ (tasks.foldl (perform f) s).decisions, d.job = job.id → d.outcome ≠ .error := by
  induction tasks generalizing s with
  | nil => exact hnone
  | cons task rest ih =>
      obtain ⟨hfirst, hrest⟩ := List.forall_mem_cons.1 htasks
      refine ih hrest (hs.step task).1 fun d hd hjob => ?_
      rcases (perform_step f s task).decisions with hsame | ⟨j, d', hdecides, _⟩
      · rw [hsame] at hd
        exact hnone d hd hjob
      · rw [hdecides.decisions, List.mem_append, List.mem_singleton] at hd
        rcases hd with hold | rfl
        · exact hnone d hold hjob
        · obtain rfl := hfirst j hdecides.isAbout (hdecides.id.symm.trans hjob)
          obtain ⟨d', hd', _, hspared⟩ := spares_consider hs.serves haccepts
          have hsame := List.append_cancel_left (hdecides.decisions.symm.trans hd')
          rw [List.singleton_inj.1 hsame]
          exact hspared

end Run

end PassState

open PassState in
/-- The job has a turn, none of its turns ends in an error, and if no other waiting job has its id, the
report tells of none. -/
structure Frame.Bears (f : Frame) (m : Matcher) (job : Job) : Prop where
  hasTurn : .consider job ∈ f.agenda
  spares : ∀ front back, f.agenda = front ++ .consider job :: back →
    Spares (front.foldl (perform f) (start f m))
      (perform f (front.foldl (perform f) (start f m)) (.consider job)) job
  decided : (∀ other ∈ f.waiting, other.id = job.id → other = job) →
    ∀ d ∈ (f.run m).report.decisions, d.job = job.id → d.outcome ≠ .error

open Matcher PassState in
theorem bears_of_validated {f : Frame} {job : Job} {before uses : List Use}
    (hbefore : SnapshotsApart (f.catalog :: before.map Use.catalog))
    (huses : SnapshotsApart (f.catalog :: uses.map Use.catalog))
    (hvalid : ((after before).validate f.catalog job).2 = .ok ())
    (hjob : job ∈ f.waiting) (hstate : job.state = .waiting) (hplain : job.isReservation = false)
    (hqueue : job.queue ∈ f.config.queues) : f.Bears (after uses) job := by
  have haccepts := (validate_eq_ok_iff (ready_after hbefore)).1 hvalid
  have hinformed := informed_start (ready_after huses)
  have hturn : ∀ task ∈ f.agenda, task.job? = some job → task = .consider job := by
    intro task htask hisAbout
    rcases (Frame.job_of_agenda htask hisAbout).2.2 with ⟨_, hflag⟩ | ⟨_, hflag⟩ | ⟨htask, _⟩
    · rw [Job.isReservation, hflag] at hplain
      cases hplain
    · rw [Job.isReservation, hflag] at hplain
      cases hplain
    · exact htask
  refine ⟨?_, fun front back _ => ?_, fun halone => ?_⟩
  · obtain ⟨task, htask, hisAbout⟩ := Frame.exists_task hjob hstate hqueue
    rw [← hturn task htask hisAbout]
    exact htask
  · exact spares_consider (informed_run front hinformed).serves haccepts
  · refine not_error_run haccepts f.agenda (fun task htask j hisAbout hid => ?_) hinformed ?_
    · obtain rfl := halone j (Frame.job_of_agenda htask hisAbout).1 hid
      exact hturn task htask hisAbout
    · rw [(loaded_start f (after uses)).decisions]
      exact fun d hd => absurd hd List.not_mem_nil

section PartlyLacking

/-- A job whose first alternative asks for more than there is. -/
def partlyLackingJob : Job :=
  { exampleJob 8 [] 1 with
    alternatives :=
      [⟨80, 10, [⟨none, [⟨"resource_id", 3⟩]⟩]⟩, ⟨81, 20, [⟨none, [⟨"resource_id", 2⟩]⟩]⟩] }

def partlyLackingFrame : Frame := { twoResourceFrame 9 with waiting := [partlyLackingJob] }

/-- The matcher that checked the job serves the pass as well. -/
theorem bears_of_validated_partlyLacking :
    ((Matcher.after []).validate partlyLackingFrame.catalog partlyLackingJob).2 = .ok () ∧
      partlyLackingFrame.Bears
        (Matcher.after [.validate partlyLackingFrame.catalog partlyLackingJob]) partlyLackingJob := by
  have hvalid : ((Matcher.after []).validate partlyLackingFrame.catalog partlyLackingJob).2 = .ok () :=
    rfl
  refine ⟨hvalid, bears_of_validated (Matcher.snapshotsApart_singleton _) ?_ hvalid
    List.mem_cons_self rfl rfl (by decide)⟩
  intro c hc d hd _
  simp only [List.map_cons, List.map_nil, Matcher.Use.catalog, List.mem_cons, List.not_mem_nil,
    or_false, or_self] at hc hd
  rw [hc, hd]

end PartlyLacking

end ClusterPlan
