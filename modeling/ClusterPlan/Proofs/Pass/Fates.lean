import ClusterPlan.Proofs.Pass.Turns

/-!
What a pass makes of the waiting jobs. A job that changes its state or its reservation is altered by one
decision alone; all others are as they were.
-/

namespace ClusterPlan

/-- The job with what was decided about it. A decision against a reservation leaves the flag alone. -/
def Decision.appliedTo (d : Decision) (job : Job) : Job :=
  { job with
    state := d.state
    message := d.note.text
    reservation := if d.reservation == .none then job.reservation else d.reservation }

namespace Report

variable {r : Report} {job : Job}

/-- The job as the report leaves it. -/
def altered (r : Report) (job : Job) : Job :=
  match r.changes.find? fun d => d.job == job.id with
  | some d => d.appliedTo job
  | none => job

/-- Whether the report gives a job another state or another reservation. -/
def alters (r : Report) (id : Int) : Bool := r.changes.any fun d => d.job == id

theorem find?_changes_of_alters (h : r.alters job.id = true) :
    ∃ d ∈ r.changes, d.job = job.id ∧ r.altered job = d.appliedTo job := by
  cases hfind : r.changes.find? fun d => d.job == job.id with
  | none =>
      obtain ⟨d, hd, hjob⟩ := List.any_eq_true.1 h
      exact absurd hjob (List.find?_eq_none.1 hfind d hd)
  | some d =>
      refine ⟨d, List.mem_of_find?_eq_some hfind, ?_, by rw [altered, hfind]⟩
      simpa using List.find?_some hfind

theorem altered_of_not_alters (h : r.alters job.id = false) : r.altered job = job := by
  have hnone : r.changes.find? (fun d => d.job == job.id) = none := by
    rw [List.find?_eq_none]
    intro d hd hjob
    have halters : r.alters job.id = true := List.any_eq_true.2 ⟨d, hd, hjob⟩
    rw [h] at halters
    cases halters
  rw [altered, hnone]

/-- A report changes nothing about a job but its state, its reservation and its message. -/
theorem altered_eq (r : Report) (job : Job) : r.altered job =
    { job with
      state := (r.altered job).state
      reservation := (r.altered job).reservation
      message := (r.altered job).message } := by
  simp only [altered]
  cases r.changes.find? fun d => d.job == job.id <;> rfl

@[simp] theorem id_altered (r : Report) (job : Job) : (r.altered job).id = job.id := by
  rw [altered_eq]

@[simp] theorem queue_altered (r : Report) (job : Job) : (r.altered job).queue = job.queue := by
  rw [altered_eq]

@[simp] theorem isBestEffort_altered (r : Report) (job : Job) :
    (r.altered job).isBestEffort = job.isBestEffort := by
  rw [altered_eq]
  rfl

@[simp] theorem isWithoutQuotas_altered (r : Report) (job : Job) :
    (r.altered job).isWithoutQuotas = job.isWithoutQuotas := by
  rw [altered_eq]
  rfl

end Report

namespace PassState

variable {f : Frame} {m : Matcher} {job : Job} {d : Decision}

theorem mem_changes : d ∈ (f.run m).report.changes ↔
    d ∈ (finished f m).decisions ∧ d.changed = true :=
  List.mem_filter

/-- No job without a reservation that a report alters waits on without one. -/
theorem not_plain_of_alters (h : f.Tidy) (hjob : job ∈ f.waiting)
    (halters : (f.run m).report.alters job.id = true) :
    ¬ (((f.run m).report.altered job).state = .waiting ∧
      ((f.run m).report.altered job).reservation = .none) := by
  obtain ⟨d, hd, hid, haltered⟩ := Report.find?_changes_of_alters halters
  obtain ⟨hdecided, hchanged⟩ := mem_changes.1 hd
  obtain ⟨job', hjob', hid', hchanged', _⟩ := job_of_decision hdecided
  obtain rfl := h.hasTurns.eq_of_id_eq hjob' hjob (hid'.symm.trans hid)
  rw [hchanged, (h.waits job' hjob).1] at hchanged'
  rw [haltered]
  rintro ⟨hstate, hflag⟩
  simp only [Decision.appliedTo] at hstate hflag
  split at hflag
  · rename_i hnone
    rw [beq_iff_eq] at hnone
    simp [hstate, hflag, hnone] at hchanged'
  · rename_i hsome
    exact hsome (by rw [hflag]; rfl)

section Fates

/-- What becomes of a waiting job, by what it has reserved: what is committed for it, and the job as the
report leaves it. -/
inductive Fate (f : Frame) (job : Job) (reserved : Option Assignment) :
    List Commitment → Job → Prop where
  | stands {job' : Job} : reserved ≠ none → job.reservation = .scheduled →
      (job' = job ∨ job'.state = .toLaunch) → Fate f job reserved [] job'
  | waits : reserved = none → job.reservation = .none → Fate f job reserved [] job
  | fails {job' : Job} : reserved = none → job'.state = .error → Fate f job reserved [] job'
  | plans {c : Commitment} : reserved = none → job.reservation = .none → c.job = job →
      (c.placement.assignment.start = f.now → job.isBestEffort = false) →
      Fate f job reserved [c] job
  | launches {c : Commitment} {job' : Job} : reserved = none → job.reservation = .none →
      c.job = job → c.placement.assignment.start = f.now → job'.state = .toLaunch →
      Fate f job reserved [c] job'
  | grants {c : Commitment} {job' : Job} : reserved = none → job.reservation ≠ .none → c.job = job →
      f.now ≤ c.placement.assignment.start → job'.state = .waiting → job'.reservation = .scheduled →
      Fate f job reserved [c] job'

theorem changes_about (f : Frame) (m : Matcher) (id : Int) :
    (f.run m).report.changes.filter (fun d => d.job == id) =
      ((finished f m).decisions.filter fun d => d.job == id).filter Decision.changed := by
  rw [Report.changes, List.filter_filter, List.filter_filter]
  exact List.filter_congr fun d _ => Bool.and_comm ..

/-- The only decision about a job is what alters it, if it says that it does. -/
theorem altered_of_decided (h : (finished f m).decisions.filter (fun d => d.job == job.id) = [d]) :
    (f.run m).report.altered job = if d.changed then d.appliedTo job else job := by
  have hchanges := changes_about f m job.id
  rw [Report.altered, ← List.head?_filter, hchanges, h]
  cases hchanged : d.changed <;> simp [hchanged]

/-- The single decision about a waiting job. -/
structure Decided (f : Frame) (m : Matcher) (job : Job) (d : Decision) : Prop where
  only : (finished f m).decisions.filter (fun d => d.job == job.id) = [d]
  state : job.state = .waiting
  changed : d.changed = (d.state != job.state || d.reservation != job.reservation)

namespace Decided

/-- A decision that changes nothing leaves the job as it is. -/
theorem altered_of_same (h : Decided f m job d) (hstate : d.state = .waiting)
    (hflag : d.reservation = job.reservation) : (f.run m).report.altered job = job := by
  have hchanged := h.changed
  rw [hstate, hflag, h.state, bne_self_eq_false, bne_self_eq_false, Bool.or_self] at hchanged
  rw [altered_of_decided h.only, hchanged, if_neg nofun]

theorem altered_cases (h : Decided f m job d) :
    (d.state = .waiting ∧ d.reservation = job.reservation ∧ (f.run m).report.altered job = job) ∨
      (f.run m).report.altered job = d.appliedTo job := by
  cases hchanged : d.changed with
  | true => exact Or.inr (by rw [altered_of_decided h.only, hchanged, if_pos rfl])
  | false =>
      have hsame := h.changed.symm.trans hchanged
      rw [h.state, Bool.or_eq_false_iff, bne_eq_false_iff_eq, bne_eq_false_iff_eq] at hsame
      exact Or.inl ⟨hsame.1, hsame.2, h.altered_of_same hsame.1 hsame.2⟩

theorem state_altered (h : Decided f m job d) : ((f.run m).report.altered job).state = d.state := by
  rcases h.altered_cases with ⟨hstate, _, hsame⟩ | haltered
  · rw [hsame, hstate, h.state]
  · rw [haltered]
    rfl

theorem reservation_altered (h : Decided f m job d) (hflag : d.reservation ≠ .none) :
    ((f.run m).report.altered job).reservation = d.reservation := by
  rcases h.altered_cases with ⟨_, hsame, haltered⟩ | haltered
  · rw [haltered, hsame]
  · rw [haltered, Decision.appliedTo]
    exact if_neg (by simpa using hflag)

end Decided

theorem alters_of_decision (h : f.HasTurns) (hd : d ∈ (finished f m).decisions) :
    (f.run m).report.alters d.job = d.changed := by
  rw [Bool.eq_iff_iff, Report.alters, List.any_eq_true]
  constructor
  · rintro ⟨d', hd', hid'⟩
    obtain ⟨hmem, hchanged⟩ := mem_changes.1 hd'
    rwa [List.inj_on_of_nodup_map (nodup_ids_decisions h m) hmem hd (by simpa using hid')] at hchanged
  · exact fun hchanged => ⟨d, mem_changes.2 ⟨hd, hchanged⟩, beq_self_eq_true _⟩

theorem nodup_ids_changes (h : f.HasTurns) (m : Matcher) :
    ((f.run m).report.changes.map Decision.job).Nodup :=
  (nodup_ids_decisions h m).sublist (List.filter_sublist.map _)

theorem decided_of_waiting (h : f.Tidy) (hjob : job ∈ f.waiting)
    (hd : (finished f m).decisions.filter (fun d => d.job == job.id) = [d]) :
    Decided f m job d := by
  have hmem : d ∈ (finished f m).decisions.filter fun d => d.job == job.id := by
    rw [hd]
    exact List.mem_singleton_self d
  obtain ⟨hmem, hid⟩ := List.mem_filter.1 hmem
  obtain ⟨job', hjob', hid', hchanged, _⟩ := job_of_decision hmem
  obtain rfl := h.hasTurns.eq_of_id_eq hjob' hjob (hid'.symm.trans (by simpa using hid))
  exact ⟨hd, (h.waits job' hjob).1, hchanged⟩

theorem fate (h : f.Tidy) (hcurrent : f.IsCurrent) (m : Matcher) (hjob : job ∈ f.waiting) :
    Fate f job ((start f m).reservations.get? job.id)
      ((finished f m).commitments.filter fun c => c.job.id == job.id)
      ((f.run m).report.altered job) := by
  have hverdict := verdict_of_waiting h hcurrent m hjob
  have hunreserved : job.reservation = .none → (start f m).reservations.get? job.id = none := by
    intro hflag
    by_contra hsome
    rw [scheduled_of_reserved h.hasTurns hjob hsome] at hflag
    cases hflag
  have honly := fun d => decided_of_waiting (m := m) (d := d) h hjob
  generalize (finished f m).commitments.filter (fun c => c.job.id == job.id) = committed at hverdict ⊢
  generalize hdecided : (finished f m).decisions.filter (fun d => d.job == job.id) = decided at hverdict
  cases hverdict with
  | stands hsome hflag hlength hall =>
      refine .stands hsome hflag ?_
      cases decided with
      | nil =>
          left
          rw [Report.altered, ← List.head?_filter, changes_about, hdecided]
          rfl
      | cons d rest =>
          obtain rfl : rest = [] := List.eq_nil_of_length_eq_zero (by simpa using hlength)
          have hd := honly d hdecided
          rcases hall d List.mem_cons_self with ⟨hstate, hscheduled⟩ | hlaunch
          · exact Or.inl (hd.altered_of_same hstate (hscheduled.trans hflag.symm))
          · exact Or.inr (hd.state_altered.trans hlaunch)
  | @waits d hflag hstate hnone =>
      rw [(honly d hdecided).altered_of_same hstate (hnone.trans hflag.symm)]
      exact .waits (hunreserved hflag) hflag
  | @fails d hnone hstate => exact .fails hnone ((honly d hdecided).state_altered.trans hstate)
  | @plans c d hflag hc hstate hnone hlater =>
      rw [(honly d hdecided).altered_of_same hstate (hnone.trans hflag.symm)]
      exact .plans (hunreserved hflag) hflag hc hlater
  | @launches c d hflag hc hstart hstate hnone =>
      exact .launches (hunreserved hflag) hflag hc hstart ((honly d hdecided).state_altered.trans hstate)
  | @grants c d hflag hnone hc hnow hstate hscheduled =>
      have hd := honly d hdecided
      refine .grants hnone hflag hc hnow (hd.state_altered.trans hstate) ?_
      rw [hd.reservation_altered (by rw [hscheduled]; nofun), hscheduled]

end Fates

end PassState

end ClusterPlan
