import ClusterPlan.Proofs.Controller.Aftermath
import ClusterPlan.Proofs.Pass.Oblivious

/-!
A pass that cannot write. It leaves the store as it was but for the catalog that it fetched, so once writes
are accepted the pass can be run again, and it reports the same.
-/

namespace ClusterPlan

theorem Store.write_of_rejects {s : Store} (h : s.rejectsWrites = true) (kind : StoreWrite)
    (change : Store → Except Error Store) :
    s.write kind change = .error (.outage (.writeRefused kind)) := by
  rw [Store.write, if_pos h]

/-- A store that rejects writes takes nothing from a report. -/
theorem WriteLog.storeReport_of_rejects {w : WriteLog} (h : w.1.rejectsWrites = true) (r : Report) :
    (w.storeReport r).1 = w.1 := by
  have hrefused : ∀ {kind change} {s s' : Store}, s = w.1 → s.write kind change = .ok s' →
      s' = w.1 := by
    rintro kind change s s' rfl hs
    rw [Store.write_of_rejects h] at hs
    cases hs
  have hpreserves : Preserves (· = w.1) r :=
    { dropRows := fun _ _ => hrefused
      commitRows := fun _ _ => hrefused
      requestKills := fun _ _ => hrefused
      updateJobState := fun _ _ _ _ => hrefused
      updateReservation := fun _ _ _ _ => hrefused }
  exact hpreserves.storeReport rfl

namespace Controller

variable {c : Controller} {s s' : Store} {now : Int} {situation : Situation}

/-- What was fetched once is fetched again, whether writes are accepted or not. -/
theorem Fetched.fetch_again (h : c.Fetched s now s' situation) (rejects : Bool) :
    c.fetch { s' with rejectsWrites := rejects } now =
      .ok ({ s' with rejectsWrites := rejects }, situation) := by
  have hfetch : c.fetch { s' with rejectsWrites := rejects } now =
      .ok ({ s' with rejectsWrites := rejects },
        c.situationOf { s' with rejectsWrites := rejects } now situation.catalog) :=
    fetch_eq_ok h.catalog_eq fun _ hj hfetched => h.isWhole hj hfetched
  rw [hfetch, h.situation_eq]
  rfl

/-- The pass runs, leaves all tables of the store alone, and can be repeated. -/
structure Repeatable (c : Controller) (s : Store) (now : Int) (result : CycleResult) : Prop where
  ran : c.run s now = .ok result
  kept : ∃ catalog next,
    result.store = { s with catalog := some catalog, nextSnapshot := next }
  again : ∃ second, Controller.run { c with matcher := result.matcher }
    { result.store with rejectsWrites := false } now = .ok second ∧ second.report = result.report

end Controller

end ClusterPlan
