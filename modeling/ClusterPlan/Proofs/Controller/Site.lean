import ClusterPlan.Proofs.Controller.Fetching

/-!
A controller with the store that it works on. Between its passes jobs come and go and resources change;
a run is a list of such moves, and its passes are kept with the frames they were made over.
-/

namespace ClusterPlan

structure Site where
  controller : Controller
  store : Store

/-- What may happen at a site. -/
inductive Move where
  | pass (now : Int)
  | rejectWrites (rejects : Bool)
  | submit (job : Job)
  | withdraw (job : Int)
  | setJobState (job : Int) (state : JobState)
  | addResource (r : Resource)
  | updateResource (id : Int) (change : Resource → Resource)
  | setResourceState (id : Int) (state : ResourceState)

structure PassRecord where
  frame : Frame
  report : Report

namespace Site

def change (site : Site) (f : Store → Except Error Store) : Site :=
  match f site.store with
  | .ok store => { site with store := store }
  | .error _ => site

/-- The site after a pass. One that fails may have built the catalog. -/
def pass (site : Site) (now : Int) : Site :=
  match site.controller.run site.store now with
  | .ok result => ⟨{ site.controller with matcher := result.matcher }, result.store⟩
  | .error _ => site.change fun s => s.fetchCatalog.map Prod.fst

def step (site : Site) : Move → Site
  | .pass now => site.pass now
  | .rejectWrites rejects => { site with store := { site.store with rejectsWrites := rejects } }
  | .submit job => site.change (·.submit job)
  | .withdraw job => { site with store := (site.store.withdraw job).1 }
  | .setJobState job state => site.change (·.setJobState job state)
  | .addResource r => { site with store := site.store.addResource r }
  | .updateResource id f => site.change (·.updateResource id f)
  | .setResourceState id state => site.change (·.setResourceState id state)

def after (site : Site) (moves : List Move) : Site := moves.foldl step site

def record? (site : Site) : Move → Option PassRecord
  | .pass now =>
      match site.controller.fetch site.store now, site.controller.run site.store now with
      | .ok (_, situation), .ok result => some ⟨site.controller.frame situation, result.report⟩
      | _, _ => none
  | _ => none

/-- The passes among the moves, those that failed left out. -/
def passes (site : Site) : List Move → List PassRecord
  | [] => []
  | move :: rest => (site.record? move).toList ++ (site.step move).passes rest

section Passes

/-- How a pass comes out: it stores its report, or it fails and leaves jobs and rows as they are. -/
inductive Passed (site : Site) (now : Int) : Option PassRecord → Site → Prop where
  | made {s' : Store} {situation : Situation} {report : Report} {m : Matcher}
      (fetched : site.controller.fetch site.store now = .ok (s', situation))
      (reported : report = ((site.controller.frame situation).run site.controller.matcher).report)
      (learnt : m = ((site.controller.frame situation).run site.controller.matcher).matcher) :
      Passed site now (some ⟨site.controller.frame situation, report⟩)
        ⟨{ site.controller with matcher := m }, (WriteLog.storeReport (s', []) report).1⟩
  | failed {s' : Store} (jobs : s'.jobs = site.store.jobs) (gantt : s'.gantt = site.store.gantt) :
      Passed site now none ⟨site.controller, s'⟩

theorem passed (site : Site) (now : Int) :
    site.Passed now (site.record? (.pass now)) (site.pass now) := by
  cases hrun : site.controller.run site.store now with
  | ok result =>
      obtain ⟨s', situation, hfetch, hreport, hmatcher, hstore⟩ := Controller.run_eq_ok hrun
      simp only [record?, pass, hrun, hfetch, hstore]
      exact .made hfetch hreport hmatcher
  | error e =>
      have hrecord : site.record? (.pass now) = none := by
        simp only [record?, hrun]
        cases site.controller.fetch site.store now <;> rfl
      rw [hrecord]
      simp only [pass, hrun, change]
      cases hcatalog : site.store.fetchCatalog with
      | error _ =>
          simp only [Except.map]
          exact .failed rfl rfl
      | ok fetched =>
          obtain ⟨hjobs, hgantt⟩ := Store.tables_of_fetchCatalog hcatalog
          simp only [Except.map]
          exact .failed hjobs hgantt

end Passes

section Tables

variable {site : Site} {f : Store → Except Error Store}

theorem orderly_change (h : site.store.Orderly)
    (hf : ∀ s, f site.store = .ok s → s.Orderly) : (site.change f).store.Orderly := by
  simp only [change]
  split
  · exact hf _ (by assumption)
  · exact h

theorem keeps_change {id : Int} (hf : ∀ s, f site.store = .ok s → Store.Keeps id site.store s) :
    Store.Keeps id site.store (site.change f).store := by
  simp only [change]
  split
  · exact hf _ (by assumption)
  · exact .refl site.store

theorem orderly_pass (h : site.store.Orderly) (now : Int) : (site.pass now).store.Orderly := by
  have hpassed := site.passed now
  generalize site.record? (.pass now) = p, site.pass now = after at hpassed
  cases hpassed with
  | made hfetch =>
      have hfetched := Controller.fetched_of_fetch hfetch
      obtain ⟨hjobs, hgantt⟩ := Store.tables_of_fetchCatalog hfetched.catalog
      exact WriteLog.orderly_storeReport (Store.orderly_of_eq h hjobs hgantt)
  | failed hjobs hgantt => exact Store.orderly_of_eq h hjobs hgantt

theorem orderly_step (h : site.store.Orderly) (move : Move) : (site.step move).store.Orderly := by
  cases move with
  | pass now => exact orderly_pass h now
  | rejectWrites _ | addResource _ => exact Store.orderly_of_eq h rfl rfl
  | submit _ => exact orderly_change h fun s => Store.orderly_submit h
  | withdraw _ => exact Store.orderly_withdraw h
  | setJobState _ _ =>
      apply orderly_change h
      intro s hs
      refine Store.orderly_changeJob h ?_ hs
      exact fun _ => rfl
  | updateResource _ _ | setResourceState _ _ =>
      apply orderly_change h
      intro s hs
      obtain ⟨hjobs, hgantt⟩ := Store.tables_of_updateResource hs
      exact Store.orderly_of_eq h hjobs hgantt

/-- A run keeps an orderly store orderly. -/
theorem orderly_after (h : site.store.Orderly) (moves : List Move) :
    (site.after moves).store.Orderly := by
  induction moves generalizing site with
  | nil => exact h
  | cons move rest ih => exact ih (orderly_step h move)

theorem config_step (site : Site) (move : Move) :
    (site.step move).controller.config = site.controller.config := by
  have hchange : ∀ f, (site.change f).controller = site.controller := by
    intro f
    simp only [change]
    split <;> rfl
  cases move with
  | pass now =>
      have hpassed := site.passed now
      simp only [step]
      generalize site.record? (.pass now) = p, site.pass now = after at hpassed ⊢
      cases hpassed with
      | made _ => rfl
      | failed _ _ => rfl
  | rejectWrites _ | addResource _ | withdraw _ => rfl
  | submit _ | setJobState _ _ | updateResource _ _ | setResourceState _ _ =>
      exact congrArg Controller.config (hchange _)

end Tables

end Site

end ClusterPlan
