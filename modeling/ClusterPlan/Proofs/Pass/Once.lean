import ClusterPlan.Document.Config
import ClusterPlan.Proofs.Pass.Accounts
import ClusterPlan.Proofs.Pass.Launching
import ClusterPlan.Proofs.Pass.Placed

/-!
One job, one decision. Jobs are told apart by their ids and each queue is listed once, so every job has
one turn: there it is decided about, placed and charged for, and nowhere else.
-/

namespace ClusterPlan

namespace Frame

/-- The jobs of a frame are told apart by their ids, and no queue is listed twice. -/
structure Distinct (f : Frame) : Prop where
  queues : f.config.queues.Nodup
  ids : ((f.active ++ f.waiting).map Job.id).Nodup

/-- Whether the job is a granted reservation whose row begins after the pass. -/
def isAhead (f : Frame) (job : Job) : Bool :=
  job.reservation == .scheduled && f.rows.any fun row => row.job == job.id && f.now < row.start

/-- The claim is what the row of the job or a commitment for it claims. -/
inductive ClaimedBy (f : Frame) (commitments : List Commitment) (id : Int) (claim : Claim) : Prop where
  | row {row : GanttRow} : row ∈ f.rows → row.job = id → f.rowClaim? row = some claim →
      ClaimedBy f commitments id claim
  | commitment {c : Commitment} : c ∈ commitments → c.job.id = id →
      f.commitmentClaim? c = some claim → ClaimedBy f commitments id claim

variable {f : Frame} {job : Job} {task : Task} {row : GanttRow}

theorem Distinct.parted (h : f.Distinct) :
    (f.active.map Job.id).Nodup ∧ (f.waiting.map Job.id).Nodup ∧
      ∀ id ∈ f.active.map Job.id, ∀ id' ∈ f.waiting.map Job.id, id ≠ id' := by
  rw [← List.nodup_append, ← List.map_append]
  exact h.ids

theorem Distinct.hasTurns (h : f.Distinct) : f.HasTurns := ⟨h.queues, h.parted.2.1⟩

theorem Distinct.apart (h : f.Distinct) (hjob : job ∈ f.waiting) :
    ∀ job' ∈ f.active, job.id ≠ job'.id := by
  intro job' hactive hid
  exact h.parted.2.2 _ (List.mem_map_of_mem hactive) _ (List.mem_map_of_mem hjob) hid.symm

theorem Distinct.isParted (h : f.Distinct) : f.Parted := ⟨h.hasTurns, fun _ => h.apart⟩

theorem isAhead_iff : f.isAhead job = true ↔
    job.reservation = .scheduled ∧ ∃ row ∈ f.rows, row.job = job.id ∧ f.now < row.start := by
  simp only [isAhead, Bool.and_eq_true, beq_iff_eq, List.any_eq_true, decide_eq_true_eq]

end Frame

namespace PassState

variable {f : Frame} {m : Matcher} {s s' : PassState} {job : Job} {task : Task} {a : Assignment}

section Turn

/-- A granted reservation that begins later is passed over. -/
theorem Step.decisions_of_ahead (h : Step f s s' (.review job))
    (ha : s.reservations.get? job.id = some a) (hahead : f.now < a.start) :
    s'.decisions = s.decisions := by
  have hsame : ∀ {b}, s.reservations.get? job.id = some b → b = a := fun hb =>
    Option.some.inj (hb.symm.trans ha)
  cases h with
  | ahead _ _ hs => exact hs.decisions
  | expired hb hdue | delayed hb hdue | awaited hb hdue | started hb hdue =>
      rw [hsame hb] at hdue
      exact absurd hahead (not_lt.2 hdue)
  | refused htask | granted htask => exact absurd htask (not_reserves_of_reserved ha)

/-- Any other job is decided about at its turn. -/
theorem Step.exists_decision (h : Step f s s' task) (hjob : task.job? = some job)
    (hdue : task = .review job → ∀ a, s.reservations.get? job.id = some a → a.start ≤ f.now) :
    ∃ d, s'.decisions = s.decisions ++ [d] := by
  cases h with
  | opened | shown => cases hjob
  | ahead ha hahead =>
      cases hjob
      exact absurd hahead (not_lt.2 (hdue rfl _ ha))
  | expired _ _ _ hs | delayed _ _ _ _ hs | awaited _ _ _ _ _ hs | started _ _ _ _ _ hs | refused _ hs
  | kept hs | rejected hs => exact ⟨_, hs.decisions⟩
  | granted _ _ _ _ hs | planned _ _ hs =>
      have hdecisions := hs.decisions
      simp only [decide, decisions_booked] at hdecisions
      exact ⟨_, hdecisions⟩
  | launched _ hs =>
      obtain ⟨d, hd, _⟩ := decisions_launch (s.booked ..) _ _ _
      exact ⟨d, by rw [hs.decisions, hd, decisions_booked]⟩

end Turn

section Decided

variable (h : f.Distinct)
include h

/-- A waiting job of a queue is decided about once, unless its reservation begins later. -/
theorem countP_decisions (m : Matcher) (hjob : job ∈ f.waiting) (hstate : job.state = .waiting)
    (hqueue : job.queue ∈ f.config.queues) :
    ((finished f m).decisions.countP fun d => d.job == job.id) =
      if f.isAhead job then 0 else 1 := by
  obtain ⟨task, htask, hisAbout⟩ := Frame.exists_task hjob hstate hqueue
  obtain ⟨front, back, hagenda⟩ := List.append_of_mem htask
  have hstep := perform_step f (front.foldl (perform f) (start f m)) task
  have hreservations := reservations_of_turn (m := m) h.hasTurns hagenda hisAbout
  rw [List.countP_eq_length_filter]
  cases hahead : f.isAhead job with
  | true =>
      obtain ⟨hflag, row, hrow, hid, hlater⟩ := Frame.isAhead_iff.1 hahead
      obtain rfl := Frame.review_of_scheduled htask hisAbout hflag
      have ha : (start f m).reservations.get? job.id = some (f.rowAssignment row) :=
        ((loaded_start f m).reservations _ _).2
          ⟨row, hrow, hid, h.isParted.reservedAssignment?_eq hjob hstate hflag hid⟩
      have hnothing := hstep.decisions_of_ahead (hreservations.trans ha) hlater
      rw [decisions_of_turn h.hasTurns hagenda hisAbout (hnothing.trans (List.append_nil _).symm)]
      rfl
  | false =>
      obtain ⟨d, hd⟩ := hstep.exists_decision hisAbout fun _ a ha => by
        rw [hreservations] at ha
        obtain ⟨row, hrow, hid, hreserved⟩ := ((loaded_start f m).reservations _ _).1 ha
        obtain ⟨rfl, _⟩ := Frame.standing?_of_reservedAssignment? hreserved
        have hflag := scheduled_of_reserved h.hasTurns hjob (ha ▸ Option.some_ne_none _)
        by_contra hlater
        rw [Frame.isAhead_iff.2 ⟨hflag, row, hrow, hid, not_le.1 hlater⟩] at hahead
        cases hahead
      rw [decisions_of_turn h.hasTurns hagenda hisAbout hd]
      rfl

end Decided

section Charged

variable {c : Commitment}

section Kept

variable {kept : List (GanttRow × Claim)} (hkept : kept.Sublist (f.rows.filterMap f.recorded?))
include hkept

theorem recorded?_of_kept {e : GanttRow × Claim} (he : e ∈ kept) :
    e.1 ∈ f.rows ∧ f.recorded? e.1 = some e := by
  obtain ⟨row, hrow, hrecorded⟩ := List.mem_filterMap.1 (hkept.subset he)
  rw [row_of_recorded? hrecorded]
  exact ⟨hrow, hrecorded⟩

theorem nodup_jobs_kept : (kept.map fun e => e.1.job).Nodup := by
  refine List.pairwise_map.2 ((f.rows_distinct.filterMap f.recorded? ?_).sublist hkept)
  intro row row' hne e he e' he'
  rw [row_of_recorded? he, row_of_recorded? he']
  exact hne

end Kept

/-- What is charged for a commitment, with the id of its job. -/
def chargeFor? (f : Frame) (c : Commitment) : Option (Int × Claim) :=
  (f.commitmentClaim? c).map (c.job.id, ·)

theorem chargeFor?_eq_some_iff {e : Int × Claim} :
    chargeFor? f c = some e ↔ f.commitmentClaim? c = some e.2 ∧ c.job.id = e.1 := by
  rw [chargeFor?, Option.map_eq_some_iff]
  constructor
  · rintro ⟨claim, hclaim, rfl⟩
    exact ⟨hclaim, rfl⟩
  · rintro ⟨hclaim, hid⟩
    exact ⟨e.2, hclaim, Prod.ext hid rfl⟩

theorem nodup_ids_charged (h : f.HasTurns) (m : Matcher) :
    (((finished f m).commitments.filterMap (chargeFor? f)).map (·.1)).Nodup := by
  have hids := List.pairwise_map.1 (nodup_ids_commitments h m)
  refine List.pairwise_map.2 (hids.filterMap _ fun c c' hne e he e' he' => ?_)
  rw [← (chargeFor?_eq_some_iff.1 he).2, ← (chargeFor?_eq_some_iff.1 he').2]
  exact hne

/-- Every claim of the ledger belongs to a job, and none has two. -/
theorem exists_owned (h : f.Distinct) (m : Matcher) :
    ∃ owned : List (Int × Claim),
      owned.map (·.2) = (finished f m).ledger.claims.map (·.2) ∧ (owned.map (·.1)).Nodup ∧
        ∀ e ∈ owned, f.ClaimedBy (finished f m).commitments e.1 e.2 := by
  obtain ⟨released, booked, hbalanced⟩ : ∃ released booked,
      Balanced f (start f m) (finished f m) released booked :=
    balanced_front m (List.append_nil f.agenda).symm
  obtain ⟨kept, hkept, hclaims⟩ := hbalanced.exists_kept
  refine ⟨kept.map (fun e => (e.1.job, e.2)) ++
    (finished f m).commitments.filterMap (chargeFor? f), ?_, ?_, ?_⟩
  · rw [hclaims, List.map_append, List.map_map, List.map_filterMap]
    simp only [chargeFor?, Option.map_map, Function.comp_def, Option.map_id']
  · rw [List.map_append, List.map_map, List.nodup_append]
    refine ⟨nodup_jobs_kept hkept, nodup_ids_charged h.hasTurns m, ?_⟩
    -- A job with a row that stands gets nothing committed.
    rintro id hid _ hid' rfl
    obtain ⟨e, he, heid⟩ := List.mem_map.1 hid
    obtain ⟨e', he', heid'⟩ := List.mem_map.1 hid'
    obtain ⟨hrow, hrecorded⟩ := recorded?_of_kept hkept he
    obtain ⟨c, hc, hcharge⟩ := List.mem_filterMap.1 he'
    have hjob : e.1.job = c.job.id :=
      heid.trans (heid'.symm.trans (chargeFor?_eq_some_iff.1 hcharge).2.symm)
    rw [Frame.recorded?_eq_none (standing?_of_committed h.isParted hc hrow hjob)] at hrecorded
    cases hrecorded
  · intro e he
    rcases List.mem_append.1 he with he | he
    · obtain ⟨entry, hentry, rfl⟩ := List.mem_map.1 he
      obtain ⟨hrow, hrecorded⟩ := recorded?_of_kept hkept hentry
      exact .row hrow rfl (rowClaim?_of_recorded? hrecorded)
    · obtain ⟨c, hc, hcharge⟩ := List.mem_filterMap.1 he
      obtain ⟨hclaim, hid⟩ := chargeFor?_eq_some_iff.1 hcharge
      exact .commitment hc hid hclaim

end Charged

end PassState

/-- Every waiting job of a queue is decided about once, unless its reservation begins later, and no
other job is; no job gets two new rows, and the ledger holds no two claims of one job. -/
structure Frame.EachOnce (f : Frame) (m : Matcher) : Prop where
  decided : ∀ job ∈ f.waiting, job.state = .waiting → job.queue ∈ f.config.queues →
    ((f.run m).report.decisions.countP fun d => d.job == job.id) = if f.isAhead job then 0 else 1
  others : ∀ d ∈ (f.run m).report.decisions,
    ∃ job ∈ f.waiting, job.state = .waiting ∧ job.queue ∈ f.config.queues ∧ d.job = job.id
  rows : ((f.run m).report.newRows.map GanttRow.job).Nodup
  claims : ∃ owned : List (Int × Claim),
    owned.map (·.2) = (PassState.finished f m).ledger.claims.map (·.2) ∧ (owned.map (·.1)).Nodup ∧
      ∀ e ∈ owned, f.ClaimedBy (f.run m).report.commitments e.1 e.2

open PassState in
theorem eachOnce_of_distinct {f : Frame} (h : f.Distinct) (m : Matcher) : f.EachOnce m where
  decided _ := countP_decisions h m
  others _ hd := by
    obtain ⟨job, hjob, hid, _, hstate, hqueue⟩ := job_of_decision hd
    exact ⟨job, hjob, hstate, hqueue, hid⟩
  rows := by
    have hids :
        (((finished f m).commitments.map (Commitment.row f.catalog)).map GanttRow.job).Nodup := by
      rw [List.map_map]
      exact nodup_ids_commitments h.hasTurns m
    exact hids.sublist (List.filter_sublist.map _)
  claims := exists_owned h m

section ListedTwice

/-- A granted reservation that begins later, a job that can start and one that no queue has. -/
def differentTurnsFrame : Frame :=
  { twoResourceFrame 9 with
    gantt := [⟨7, 70, 200, 10, [1]⟩, ⟨9, 10, 50, 1000, [2]⟩]
    waiting := [{ exampleReservation with reservation := .scheduled }, exampleJob 8 [] 1,
      { exampleJob 5 [] 1 with queue := ⟨"night"⟩ }] }

theorem eachOnce_of_distinct_differentTurns :
    differentTurnsFrame.Distinct ∧ differentTurnsFrame.EachOnce .empty := by
  have hdistinct : differentTurnsFrame.Distinct := ⟨by decide, by decide⟩
  exact ⟨hdistinct, eachOnce_of_distinct hdistinct .empty⟩

def queueTwice : Document.ConfigEntry where
  queues := ["default", "default"]
  policy := none
  maxTime := none
  securityTime := some 0
  quotas := none
  energySaving := none
  resourceOrder := []
  hierarchyAliases := []

/-- One job in a queue that is listed twice. -/
def queueTwiceFrame : Frame :=
  { twoResourceFrame 9 with
    gantt := []
    active := []
    waiting := [exampleJob 8 [] 1]
    config := { Config.default with securityTime := 0, queues := [⟨"default"⟩, ⟨"default"⟩] } }

theorem agenda_queueTwiceFrame :
    queueTwiceFrame.agenda =
      [.openQueue, .consider (exampleJob 8 [] 1), .openQueue, .consider (exampleJob 8 [] 1),
        .showBestEffort, .openQueue, .openQueue] := by
  cbv

/-- In a queue that is listed twice every job has two turns. -/
theorem decided_twice_queueTwice :
    ¬ ∀ (e : Document.ConfigEntry) (f : Frame) (m : Matcher), e.toConfig = .ok f.config →
      ((f.active ++ f.waiting).map Job.id).Nodup → f.EachOnce m := by
  intro h
  have honce := (h queueTwice queueTwiceFrame .empty (by rfl) (by decide)).decided
    (exampleJob 8 [] 1) (by decide) rfl (by decide)
  simp only [Frame.run, PassState.report, PassState.finished, agenda_queueTwiceFrame] at honce
  revert honce
  decide +kernel

end ListedTwice

end ClusterPlan
