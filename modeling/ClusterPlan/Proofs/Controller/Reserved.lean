import ClusterPlan.Proofs.Controller.Site

/-!
Granted reservations over whole runs. Whatever happens to other jobs and to the resources, a stored
reservation keeps its flag and its row until a pass launches it or gives it up.
-/

namespace ClusterPlan

/-- Whether the move neither withdraws the job nor sets its state. -/
def Move.Spares (id : Int) : Move → Prop
  | .withdraw job | .setJobState job _ => job ≠ id
  | _ => True

namespace Site

/-- A stored job waits in a configured queue with a granted reservation, and holds the row. -/
structure Grants (site : Site) (job : Job) (row : GanttRow) : Prop where
  orderly : site.store.Orderly
  stored : site.store.storedJob? job.id = some job
  waits : job.state = .waiting
  flagged : job.reservation = .scheduled
  queued : job.queue ∈ site.controller.config.queues
  rowed : site.store.ganttRow? job.id = some row

variable {site : Site} {job : Job} {row : GanttRow} {move : Move} {p : PassRecord}

namespace Grants

theorem id_row (h : site.Grants job row) : row.job = job.id :=
  ((Table.find?_eq_some_iff h.orderly.gantt).1 h.rowed).2

/-- What a pass fetches from the site grants the row. -/
theorem frame {now : Int} {s' : Store} {situation : Situation} (h : site.Grants job row)
    (hfetched : site.controller.Fetched site.store now s' situation) :
    (site.controller.frame situation).Grants row := by
  obtain ⟨hjobs, hgantt⟩ := Store.tables_of_fetchCatalog hfetched.catalog
  have hkeeps : Store.Keeps job.id site.store s' := Store.keeps_of_eq hjobs hgantt
  exact hfetched.grants (Store.orderly_of_eq h.orderly hjobs hgantt) (hkeeps.job.trans h.stored)
    h.waits h.flagged h.queued (hkeeps.row.trans h.rowed)

/-- What a pass commits leaves the row alone, whatever is decided about the job. -/
theorem clears {now : Int} (h : site.Grants job row) (hp : site.record? (.pass now) = some p) :
    ∀ c ∈ p.report.commitments, p.frame.Clears c.placement.assignment row := by
  have hpassed := site.passed now
  rw [hp] at hpassed
  generalize site.pass now = after at hpassed
  cases hpassed with
  | made hfetch hreport _ =>
      rw [hreport]
      exact (h.frame (Controller.fetched_of_fetch hfetch)).clears _

theorem keeps_pass {now : Int} (h : site.Grants job row)
    (hopen : ∀ p, site.record? (.pass now) = some p → ∀ d ∈ p.report.decisions,
      ¬ d.Settles job.id) : Store.Keeps job.id site.store (site.pass now).store := by
  have hpassed := site.passed now
  generalize site.record? (.pass now) = p, site.pass now = after at hpassed hopen ⊢
  cases hpassed with
  | failed hjobs hgantt => exact Store.keeps_of_eq hjobs hgantt
  | @made s' situation report _ hfetch hreport _ =>
      have hfetched := Controller.fetched_of_fetch hfetch
      obtain ⟨hjobs, hgantt⟩ := Store.tables_of_fetchCatalog hfetched.catalog
      have hquiet := hopen _ rfl
      simp only [hreport, ← h.id_row] at hquiet
      obtain ⟨hdropped, hrows, hchanges⟩ := (h.frame hfetched).unreported _ hquiet
      rw [← hreport, h.id_row] at hdropped hrows hchanges
      have hcatalog : Store.Keeps job.id site.store s' := Store.keeps_of_eq hjobs hgantt
      apply hcatalog.trans
      exact WriteLog.keeps_storeReport (w := (s', [])) (Store.orderly_of_eq h.orderly hjobs hgantt)
        hdropped hrows hchanges

theorem keeps_step (h : site.Grants job row) (hspares : move.Spares job.id)
    (hopen : ∀ p, site.record? move = some p → ∀ d ∈ p.report.decisions, ¬ d.Settles job.id) :
    Store.Keeps job.id site.store (site.step move).store := by
  cases move with
  | pass now => exact h.keeps_pass hopen
  | rejectWrites _ | addResource _ => exact Store.keeps_of_eq rfl rfl
  | submit _ =>
      apply keeps_change
      intro s hs
      refine Store.keeps_submit h.orderly ?_ hs
      rw [h.stored]
      exact Option.some_ne_none job
  | withdraw _ => exact Store.keeps_withdraw hspares
  | setJobState _ _ =>
      apply keeps_change
      intro s hs
      refine Store.keeps_changeJob hspares ?_ hs
      exact fun _ => rfl
  | updateResource _ _ | setResourceState _ _ =>
      apply keeps_change
      intro s hs
      obtain ⟨hjobs, hgantt⟩ := Store.tables_of_updateResource hs
      exact Store.keeps_of_eq hjobs hgantt

theorem step (h : site.Grants job row) (hspares : move.Spares job.id)
    (hopen : ∀ p, site.record? move = some p → ∀ d ∈ p.report.decisions, ¬ d.Settles job.id) :
    (site.step move).Grants job row where
  orderly := orderly_step h.orderly move
  stored := (h.keeps_step hspares hopen).job.trans h.stored
  waits := h.waits
  flagged := h.flagged
  queued := by
    rw [config_step]
    exact h.queued
  rowed := (h.keeps_step hspares hopen).row.trans h.rowed

theorem after {moves : List Move} (h : site.Grants job row)
    (hspares : ∀ move ∈ moves, move.Spares job.id)
    (hopen : ∀ p ∈ site.passes moves, ∀ d ∈ p.report.decisions, ¬ d.Settles job.id) :
    (site.after moves).Grants job row := by
  induction moves generalizing site with
  | nil => exact h
  | cons move rest ih =>
      obtain ⟨hmove, hrest⟩ := List.forall_mem_cons.1 hspares
      simp only [passes, List.mem_append, Option.mem_toList, or_imp, forall_and] at hopen
      exact ih (h.step hmove hopen.1) hrest hopen.2

/-- The next pass is among those that leave the row alone, even if it settles the job. -/
theorem passes_clear {moves : List Move} (h : site.Grants job row)
    (hspares : ∀ move ∈ moves, move.Spares job.id)
    (hopen : ∀ p ∈ site.passes moves, ∀ d ∈ p.report.decisions, ¬ d.Settles job.id) (now : Int) :
    ∀ p ∈ site.passes (moves ++ [.pass now]), ∀ c ∈ p.report.commitments,
      p.frame.Clears c.placement.assignment row := by
  induction moves generalizing site with
  | nil =>
      intro p hp
      simp only [passes, List.nil_append, List.append_nil, Option.mem_toList] at hp
      exact h.clears hp
  | cons move rest ih =>
      obtain ⟨hmove, hrest⟩ := List.forall_mem_cons.1 hspares
      simp only [passes, List.mem_append, Option.mem_toList, or_imp, forall_and] at hopen
      intro p hp
      rw [List.cons_append, passes, List.mem_append, Option.mem_toList] at hp
      cases hp with
      | inl hp =>
          cases move with
          | pass now => exact h.clears hp
          | _ => cases hp
      | inr hp => exact ih (h.step hmove hopen.1) hrest hopen.2 p hp

end Grants

/-- A granted reservation keeps its row and its flag until a pass settles it, and no pass commits what
the row holds. -/
theorem reservation_kept (h : site.Grants job row) {moves : List Move}
    (hspares : ∀ move ∈ moves, move.Spares job.id)
    (hopen : ∀ p ∈ site.passes moves, ∀ d ∈ p.report.decisions, ¬ d.Settles job.id) :
    (site.after moves).store.ganttRow? job.id = some row ∧
      (site.after moves).store.storedJob? job.id = some job ∧
      ∀ now, ∀ p ∈ site.passes (moves ++ [.pass now]), ∀ c ∈ p.report.commitments,
        p.frame.Clears c.placement.assignment row :=
  ⟨(h.after hspares hopen).rowed, (h.after hspares hopen).stored,
    h.passes_clear hspares hopen⟩

section BusyDay

def reservedJob : Job := { exampleReservation with reservation := .scheduled, alternatives := [] }

def reservedRow : GanttRow := ⟨7, 70, 200, 10, [1]⟩

/-- Two resources, the first of them reserved for job 7 from 200 to 209. -/
def reservedSite : Site where
  controller :=
    { config := { Config.default with securityTime := 0, policy := .backfill }
      order := JobOrder.oldestFirst
      notifier := .silent
      power := .missing
      matcher := .empty }
  store :=
    { Store.ofResources (twoResourceFrame 9).catalog.resources [] with
      catalog := some (twoResourceFrame 9).catalog
      jobs := [reservedJob]
      requestRows := RowTable.ofAlternatives 7 exampleReservation.alternatives
      gantt := [reservedRow] }

/-- A job for both resources comes a moment before the reservation begins. -/
def busyDay : List Move := [.rejectWrites true, .submit (exampleJob 8 [] 2), .pass 195]

def busySituation : Situation where
  now := 195
  catalog := (twoResourceFrame 9).catalog
  gantt := [reservedRow]
  active := []
  waiting := [{ exampleReservation with reservation := .scheduled }, exampleJob 8 [] 2]
  wakeLead := 0

theorem passes_busyDay :
    reservedSite.passes busyDay =
      [⟨reservedSite.controller.frame busySituation,
        ((reservedSite.controller.frame busySituation).run .empty).report⟩] :=
  rfl

theorem agenda_busySituation : (reservedSite.controller.frame busySituation).agenda =
    [.review { exampleReservation with reservation := .scheduled }, .openQueue,
      .consider (exampleJob 8 [] 2), .showBestEffort, .openQueue] := by
  cbv

theorem report_busySituation :
    ((reservedSite.controller.frame busySituation).run .empty).report.decisions.map Decision.job =
        [8] ∧
      ((reservedSite.controller.frame busySituation).run .empty).report.commitments.map
        (fun c => (c.job.id, c.placement.assignment.start)) = [(8, 210)] := by
  simp only [Frame.run, PassState.report, PassState.finished, agenda_busySituation]
  decide +kernel

theorem grants_reservedSite : reservedSite.Grants reservedJob reservedRow where
  orderly := ⟨List.pairwise_singleton _ _, List.pairwise_singleton _ _⟩
  stored := rfl
  waits := rfl
  flagged := rfl
  queued := List.mem_singleton_self _
  rowed := rfl

/-- The job that comes has to wait until the reservation is over. -/
theorem reservation_kept_busyDay :
    (∃ p, reservedSite.passes busyDay = [p] ∧
      p.report.commitments.map (fun c => (c.job.id, c.placement.assignment.start)) = [(8, 210)]) ∧
    (reservedSite.after busyDay).store.ganttRow? 7 = some reservedRow ∧
      (reservedSite.after busyDay).store.storedJob? 7 = some reservedJob ∧
      ∀ now, ∀ p ∈ reservedSite.passes (busyDay ++ [.pass now]), ∀ c ∈ p.report.commitments,
        p.frame.Clears c.placement.assignment reservedRow := by
  have hspares : ∀ move ∈ busyDay, move.Spares reservedJob.id := by
    simp only [busyDay, List.forall_mem_cons, Move.Spares, true_and]
    exact List.forall_mem_nil _
  have hopen : ∀ p ∈ reservedSite.passes busyDay, ∀ d ∈ p.report.decisions,
      ¬ d.Settles reservedJob.id := by
    intro p hp d hd hsettles
    rw [passes_busyDay, List.mem_singleton] at hp
    subst hp
    have hjob := List.mem_map_of_mem (f := Decision.job) hd
    rw [report_busySituation.1, hsettles.1] at hjob
    exact absurd hjob (by decide)
  refine ⟨⟨_, passes_busyDay, report_busySituation.2⟩, ?_⟩
  exact reservation_kept grants_reservedSite hspares hopen

end BusyDay

end Site
end ClusterPlan
