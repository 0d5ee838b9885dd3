import ClusterPlan.Proofs.Pass.Accounts
import ClusterPlan.Proofs.Pass.Exclusion
import ClusterPlan.Proofs.Quota.Usage

/-!
Quotas over a whole pass. Whatever is committed keeps the rules that are enforced for it, at each
second of its window, together with all that was committed before it and with the rows that stand,
except those of active best-effort jobs: these are kept aside and never recorded.
-/

namespace ClusterPlan

/-- A commitment keeps the enforced limits on resources and on running jobs at every second, when
the rows and the earlier commitments are counted. -/
def Frame.KeepsQuotas (f : Frame) (rows : List GanttRow) (earlier : List Commitment)
    (c : Commitment) : Prop :=
  ∀ claim, f.commitmentClaim? c = some claim → ∀ d, d = .units ∨ d = .jobs →
    ∀ r ∈ f.ledger.enforced claim.claimant d, ∀ cap, r.caps.get d = some cap →
      ∀ t, claim.first ≤ t → t ≤ claim.last →
        Ledger.weightAt d
          ((rows.filterMap f.rowClaim? ++ (earlier ++ [c]).filterMap f.commitmentClaim?).filter
            fun other => r.key.countsWith claim.claimant other.claimant) t ≤ cap

namespace PassState

variable {f : Frame} {s s' : PassState} {task : Task} {c : Commitment}

/-- The ledger refused none of what is committed. -/
theorem Commits.refusal? {claim : Claim} (h : Commits f s s' task c)
    (hrules : s.ledger.rules = f.ledger.rules) (hclaim : f.commitmentClaim? c = some claim) :
    s.ledger.refusal? claim = none := by
  obtain ⟨a, hfinds, hwalltime⟩ := h.isFound
  simp only [Frame.commitmentClaim?, Frame.claim?] at hclaim
  split at hclaim
  · cases hclaim
  · rename_i hquota
    cases hclaim
    rw [h.heldUntil, ← hwalltime, ← claimant_eq hrules]
    exact refusal?_of_attempt hfinds.isFound (by simpa using hquota)

end PassState

theorem keepsQuotas_of_committed {f : Frame} {m : Matcher} {earlier later : List Commitment}
    {c : Commitment} (h : (f.run m).report.commitments = earlier ++ c :: later) :
    f.KeepsQuotas (f.rows.filter fun row => f.isRecorded row && !f.givesUp row) earlier c := by
  have hloaded := PassState.loaded_start f m
  obtain ⟨front, task, back, hagenda, hearlier, hcommits⟩ :=
    PassState.task_of_commitment f.agenda (PassState.start f m) hloaded.wellFormed
      (by rw [hloaded.commitments]; exact Nat.zero_le _) h
  obtain ⟨released, booked, hbalanced⟩ := PassState.balanced_front m hagenda
  intro claim hclaim d hd r hr cap hcap t hfirst hlast
  have hrefusal := hcommits.refusal? hbalanced.rules hclaim
  have hsublist := hbalanced.sublist
  rw [hearlier] at hsublist
  rw [← Ledger.enforced_congr hbalanced.rules] at hr
  refine le_trans (Ledger.weightAt_le_of_sublist d (List.Sublist.filter _ ?_) t)
    (Ledger.weightAt_le_of_refusal? hrefusal hd hr hcap hfirst hlast)
  rw [List.filterMap_append, ← List.append_assoc]
  exact hsublist.append (by simp [hclaim])

section JobLimit

def oneJob : Limit := .fixed (.ofRatio 1 1)

def twoJobs : Limit := .fixed (.ofRatio 2 1)

/-- Two resources, the first held by an active job of the given types, and a best-effort job
waiting. A rule limits how many jobs may run at once. -/
def jobLimitFrame (types : List String) (limit : Limit) : Frame where
  now := 100
  catalog := (twoResourceFrame 1).catalog
  gantt := [⟨1, 10, 50, 100, [1]⟩]
  active := [{ exampleJob 1 types 1 with state := .running }]
  waiting := [exampleJob 2 ["besteffort"] 1]
  wakeLead := 0
  config :=
    { Config.default with
      securityTime := 0
      rules := [⟨⟨.any, .any, .any, .any⟩, ⟨.unbounded, limit, .unbounded⟩⟩] }
  order := JobOrder.oldestFirst
  remembersFits := true

theorem agenda_jobLimitFrame (types : List String) (limit : Limit) :
    (jobLimitFrame types limit).agenda =
      [.openQueue, .showBestEffort, .openQueue, .consider (exampleJob 2 ["besteffort"] 1)] := by
  cbv

def secondResourceCommitment : Commitment where
  job := exampleJob 2 ["besteffort"] 1
  placement := ⟨109, ⟨20, 100, 10, .single 1⟩⟩

theorem keepsQuotas_of_committed_jobLimit :
    ((jobLimitFrame [] twoJobs).run .empty).report.commitments = [] ++ secondResourceCommitment :: [] ∧
      (jobLimitFrame [] twoJobs).KeepsQuotas
        ((jobLimitFrame [] twoJobs).rows.filter fun row =>
          (jobLimitFrame [] twoJobs).isRecorded row && !(jobLimitFrame [] twoJobs).givesUp row)
        [] secondResourceCommitment := by
  have hrun : ((jobLimitFrame [] twoJobs).run .empty).report.commitments =
      [] ++ secondResourceCommitment :: [] := by
    simp only [Frame.run, PassState.report, PassState.finished, agenda_jobLimitFrame]
    decide +kernel
  exact ⟨hrun, keepsQuotas_of_committed hrun⟩

/-- Beside an active best-effort job a second one is launched where only one may run. -/
theorem not_keepsQuotas_bestEffort :
    ¬ ∀ (f : Frame) (m : Matcher) (earlier later : List Commitment) (c : Commitment),
      (f.run m).report.commitments = earlier ++ c :: later → f.KeepsQuotas f.rows earlier c := by
  intro h
  have hrun : ((jobLimitFrame ["besteffort"] oneJob).run .empty).report.commitments =
      [] ++ secondResourceCommitment :: [] := by
    simp only [Frame.run, PassState.report, PassState.finished, agenda_jobLimitFrame]
    decide +kernel
  have hkeeps := h _ _ _ _ _ hrun ⟨⟨"default", "demo", "*", "ann"⟩, 1, 100, 109⟩
    (by decide +kernel) .jobs (Or.inr rfl)
    ⟨⟨.any, .any, .any, .any⟩, ⟨none, some 1, none⟩⟩ (by decide +kernel) 1 rfl 100
    (by decide) (by decide)
  revert hkeeps
  decide +kernel

end JobLimit

end ClusterPlan
