import ClusterPlan.Proofs.Controller.Refetching
import ClusterPlan.Proofs.Controller.Reserved

/-!
Two passes in a row over a store that nothing else touches. Where a job gets the same place whether or
not others have theirs already, the second pass is quiet: it has no rows to write or to drop. Only its
ledger is short of what the first one claimed for best-effort jobs that it launched.
-/

namespace ClusterPlan
namespace Site

variable {site : Site} {now : Int} {p : PassRecord}

theorem passes_twice {p' : PassRecord} (hp : site.record? (.pass now) = some p)
    (hp' : (site.pass now).record? (.pass now) = some p') :
    site.passes [.pass now, .pass now] = [p, p'] := by
  rw [passes, passes, passes, hp, step, hp']
  rfl

/-- Where the fetch succeeds, the pass is recorded. -/
theorem record?_of_fetch {s' : Store} {situation : Situation}
    (h : site.controller.fetch site.store now = .ok (s', situation)) :
    site.record? (.pass now) = some ⟨site.controller.frame situation,
      ((site.controller.frame situation).run site.controller.matcher).report⟩ := by
  obtain ⟨result, hresult, hreport⟩ := Controller.run_of_fetch h
  simp only [record?, h, hresult, hreport]

/-- A second pass at the same second is made over the situation that the first one left. -/
theorem exists_resumed (hstore : site.store.Orderly) (hwrites : site.store.rejectsWrites = false)
    (hqueues : site.controller.config.queues.Nodup) (hp : site.record? (.pass now) = some p)
    (hcurrent : p.frame.IsCurrent) :
    p.frame.now = now ∧ p.frame.order = site.controller.order ∧ p.frame.Tidy ∧
      p.report = (p.frame.run site.controller.matcher).report ∧
      ∃ g, p.frame.Resumes (p.frame.run site.controller.matcher).report g ∧
        (site.pass now).record? (.pass now) =
          some ⟨g, (g.run (p.frame.run site.controller.matcher).matcher).report⟩ := by
  have hpassed := site.passed now
  rw [hp] at hpassed
  generalize site.pass now = after at hpassed ⊢
  cases hpassed with
  | @made s' situation report m hfetch hreport hlearnt =>
      subst hreport hlearnt
      have hfetched := Controller.fetched_of_fetch hfetch
      obtain ⟨hjobs, hgantt⟩ := Store.tables_of_fetchCatalog hfetched.catalog
      have hs' := Store.orderly_of_eq hstore hjobs hgantt
      have htidy := Controller.tidy hfetched hs' hqueues
      have hreported := WriteLog.reported_storeReport (w := (s', []))
        ((site.controller.frame situation).run site.controller.matcher).report
        (hfetched.rejectsWrites_eq.trans hwrites) (PassState.nodup_ids_changes htidy.hasTurns _)
      refine ⟨hfetched.now, rfl, htidy, rfl, _,
        Controller.resumes hfetched hs' hreported hqueues, ?_⟩
      have hagain := Controller.fetch_again hfetched hs' hreported
      rw [← Controller.fetch_of_matcher site.controller
        ((site.controller.frame situation).run site.controller.matcher).matcher] at hagain
      exact record?_of_fetch hagain

/-- The second of two passes at the same second is quiet. The rows of active best-effort jobs are kept
aside without being charged for, so its claims are fewer by the best-effort jobs that start at that
second. -/
theorem quiet_of_unhindered (hstore : site.store.Orderly)
    (hwrites : site.store.rejectsWrites = false)
    (hqueues : site.controller.config.queues.Nodup) (horder : site.controller.order.IsPreorder)
    (hp : site.record? (.pass now) = some p)
    (hready : site.controller.matcher.Ready p.frame.catalog) (hframe : p.frame.Unhindered) :
    ∃ p', site.passes [.pass now, .pass now] = [p, p'] ∧
      p'.report.newRows = [] ∧ p'.report.dropped = [] ∧
      p'.report.claimCount + p.report.commitments.countP (fun c =>
        c.job.isBestEffort && c.placement.assignment.start == now && !c.job.isWithoutQuotas) =
      p.report.claimCount := by
  obtain ⟨rfl, hsame, htidy, hreport, g, hresumes, hp'⟩ :=
    exists_resumed hstore hwrites hqueues hp hframe.current
  have hrepeatable : p.frame.Repeatable := { hframe with tidy := htidy }
  have horder' : p.frame.order.IsPreorder := hsame ▸ horder
  have hready' : (p.frame.run site.controller.matcher).matcher.Ready p.frame.catalog :=
    (PassState.informed_run p.frame.agenda (PassState.informed_start hready)).serves.ready
  refine ⟨_, passes_twice hp hp', ?_, ?_, ?_⟩
  · exact hresumes.newRows_again hrepeatable hready hready' horder'
  · exact hresumes.dropped_again hrepeatable hready hready' horder'
  · rw [hreport]
    exact hresumes.claimCount_again hrepeatable hready hready' horder'

section Mixed

/-- Two resources. A regular job wants one of them and another one both; a best-effort job wants one. -/
def mixedSite : Site where
  controller := reservedSite.controller
  store :=
    { Store.ofResources [] [] with
      catalog := some (twoResourceFrame 9).catalog
      jobs := [{ exampleJob 1 [] 1 with alternatives := [] },
        { exampleJob 2 [] 2 with alternatives := [] },
        { exampleJob 3 ["besteffort"] 1 with alternatives := [] }]
      requestRows := RowTable.ofAlternatives 1 (exampleJob 1 [] 1).alternatives ++
        RowTable.ofAlternatives 2 (exampleJob 2 [] 2).alternatives ++
        RowTable.ofAlternatives 3 (exampleJob 3 [] 1).alternatives }

def mixedSituation : Situation where
  now := 100
  catalog := (twoResourceFrame 9).catalog
  gantt := []
  active := []
  waiting := [exampleJob 1 [] 1, exampleJob 2 [] 2, exampleJob 3 ["besteffort"] 1]
  wakeLead := 0

theorem agenda_mixedSituation : (mixedSite.controller.frame mixedSituation).agenda =
    [.openQueue, .consider (exampleJob 1 [] 1), .consider (exampleJob 2 [] 2), .showBestEffort,
      .openQueue, .consider (exampleJob 3 ["besteffort"] 1)] := by
  cbv

theorem report_mixed :
    ((mixedSite.controller.frame mixedSituation).run .empty).report.newRows =
        [⟨1, 10, 100, 10, [1]⟩, ⟨2, 20, 110, 10, [1, 2]⟩, ⟨3, 30, 100, 10, [2]⟩] ∧
      ((mixedSite.controller.frame mixedSituation).run .empty).report.claimCount = 3 ∧
      ((mixedSite.controller.frame mixedSituation).run .empty).report.commitments.countP (fun c =>
        c.job.isBestEffort && c.placement.assignment.start == 100 && !c.job.isWithoutQuotas) = 1 := by
  simp only [Frame.run, PassState.report, PassState.finished, agenda_mixedSituation]
  decide +kernel

theorem record_mixed : mixedSite.record? (.pass 100) =
    some ⟨mixedSite.controller.frame mixedSituation,
      ((mixedSite.controller.frame mixedSituation).run .empty).report⟩ :=
  rfl

theorem orderly_mixed : mixedSite.store.Orderly where
  jobs := by
    rw [Table.Ascending]
    decide
  gantt := List.Pairwise.nil

theorem unhindered_mixed : (mixedSite.controller.frame mixedSituation).Unhindered where
  current := nofun
  reserves := by decide
  unlimited := fun _ _ _ => Or.inl rfl
  steady := Frame.isSteady_of_singleParts (by decide)
  clock := by decide

theorem quiet_of_unhindered_mixed : ∃ p p', mixedSite.passes [.pass 100, .pass 100] = [p, p'] ∧
    p.report.newRows =
      [⟨1, 10, 100, 10, [1]⟩, ⟨2, 20, 110, 10, [1, 2]⟩, ⟨3, 30, 100, 10, [2]⟩] ∧
    p.report.claimCount = 3 ∧ p'.report.newRows = [] ∧ p'.report.dropped = [] ∧
      p'.report.claimCount = 2 := by
  obtain ⟨hrows, hclaims, hlaunched⟩ := report_mixed
  obtain ⟨p', hpasses, hnew, hdropped, hcount⟩ := quiet_of_unhindered orderly_mixed rfl
    (by decide) JobOrder.isPreorder_oldestFirst record_mixed (Matcher.ready_empty _) unhindered_mixed
  rw [hlaunched, hclaims] at hcount
  exact ⟨_, p', hpasses, hrows, hclaims, hnew, hdropped, by omega⟩

end Mixed

section Lone

/-- A waiting best-effort job and the one resource that it asks for. -/
def loneSite : Site where
  controller := reservedSite.controller
  store :=
    { Store.ofResources [] [] with
      catalog := some (twoResourceFrame 9).catalog
      jobs := [{ exampleJob 1 ["besteffort"] 1 with alternatives := [] }]
      requestRows := RowTable.ofAlternatives 1 (exampleJob 1 [] 1).alternatives }

def loneSituation : Situation where
  now := 100
  catalog := (twoResourceFrame 9).catalog
  gantt := []
  active := []
  waiting := [exampleJob 1 ["besteffort"] 1]
  wakeLead := 0

def launchedSituation : Situation where
  now := 100
  catalog := (twoResourceFrame 9).catalog
  gantt := [⟨1, 10, 100, 10, [1]⟩]
  active := [{ exampleJob 1 ["besteffort"] 1 with
    state := .toLaunch, message := "Launched with alternative 10." }]
  waiting := []
  wakeLead := 0

theorem agenda_loneSituation : (loneSite.controller.frame loneSituation).agenda =
    [.openQueue, .showBestEffort, .openQueue, .consider (exampleJob 1 ["besteffort"] 1)] := by
  cbv

theorem agenda_launchedSituation : (loneSite.controller.frame launchedSituation).agenda =
    [.openQueue, .showBestEffort, .openQueue] := by
  cbv

def loneReport : Report where
  now := 100
  decisions := [⟨1, .toLaunch, .toLaunch, .none, .launched 10, true, some ⟨10, 100, 10, .single 0⟩⟩]
  commitments := [⟨exampleJob 1 ["besteffort"] 1, ⟨109, ⟨10, 100, 10, .single 0⟩⟩⟩]
  newRows := [⟨1, 10, 100, 10, [1]⟩]
  dropped := []
  kills := []
  energy := none
  claimCount := 1

theorem report_lone :
    ((loneSite.controller.frame loneSituation).run .empty).report = loneReport := by
  simp only [Frame.run, PassState.report, PassState.finished, agenda_loneSituation]
  decide +kernel

theorem report_launched (m : Matcher) :
    ((loneSite.controller.frame launchedSituation).run m).report =
      ⟨100, [], [], [], [], [], none, 0⟩ := by
  simp only [Frame.run, PassState.report, PassState.finished, agenda_launchedSituation]
  rfl

theorem pass_lone : loneSite.pass 100 =
    ⟨{ loneSite.controller with
        matcher := ((loneSite.controller.frame loneSituation).run .empty).matcher },
      (WriteLog.storeReport (loneSite.store, []) loneReport).1⟩ := by
  rw [← report_lone]
  rfl

theorem passes_lone : ∃ m, loneSite.passes [.pass 100, .pass 100] =
    [⟨loneSite.controller.frame loneSituation, loneReport⟩,
      ⟨loneSite.controller.frame launchedSituation,
        ((loneSite.controller.frame launchedSituation).run m).report⟩] := by
  refine ⟨((loneSite.controller.frame loneSituation).run .empty).matcher, ?_⟩
  have hrecord : loneSite.record? (.pass 100) =
      some ⟨loneSite.controller.frame loneSituation, loneReport⟩ := by
    rw [← report_lone]
    rfl
  rw [passes, hrecord, step, pass_lone]
  rfl

theorem not_quiet_bestEffort :
    ¬ ∀ (site : Site) (now : Int) (p₁ p₂ : PassRecord), site.store.Orderly →
      site.store.rejectsWrites = false → site.passes [.pass now, .pass now] = [p₁, p₂] →
      p₂.report.newRows = [] ∧ p₂.report.dropped = [] ∧
        p₂.report.claimCount = p₁.report.claimCount := by
  intro h
  obtain ⟨m, hpasses⟩ := passes_lone
  have hcounts := (h loneSite _ _ _ ⟨List.pairwise_singleton _ _, List.Pairwise.nil⟩ rfl hpasses).2.2
  rw [report_launched] at hcounts
  exact absurd hcounts (by decide)

end Lone

end Site
end ClusterPlan
