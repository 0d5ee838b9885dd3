import ClusterPlan.Proofs.Energy.Nodes
import ClusterPlan.Proofs.Pass.Availability
import ClusterPlan.Proofs.Pass.Held

/-!
Power and the plan. A pass orders nothing to sleep that something planned holds before it could be up
again, and it wakes what something planned needs as soon as that can be up.
-/

namespace ClusterPlan

namespace Frame

variable {f : Frame} {row : GanttRow} {start walltime t : Int}

/-- What stands when a pass is over that made these commitments: an assignment, and the last second at
which its resources are held. Placements go by the id of their job, so under each id there is only one. -/
inductive Upholds (f : Frame) (commitments : List Commitment) : Assignment → Int → Prop where
  /-- Active jobs hold their resources at least up to now. -/
  | active {row : GanttRow} {job : Job} : row ∈ f.rows → f.activeJob? row.job = some job →
      lastFor? commitments row.job = none →
      Upholds f commitments (f.rowAssignment row)
        (max (row.start + row.walltime - 1 + f.security) f.now)
  | reserved {row : GanttRow} {job : Job} : row ∈ f.rows → f.activeJob? row.job = none →
      f.reservedJob? row.job = some job → ¬ f.Lapses row → lastFor? commitments row.job = none →
      Upholds f commitments (f.rowAssignment row) (row.start + row.walltime - 1 + f.security)
  | committed {c : Commitment} : lastFor? commitments c.job.id = some c →
      Upholds f commitments c.placement.assignment
        (c.placement.assignment.start + c.placement.assignment.walltime - 1 + f.security)

theorem zero_le_lead (f : Frame) : 0 ≤ f.lead := le_max_right _ _

theorem zero_le_security (f : Frame) : 0 ≤ f.security := le_max_right _ _

/-- Sums that stop at the bounds of 64-bit time lose no second that can be told. -/
theorem le_heldUntil_of_latest (ht : t ≤ Time.latest)
    (h : t ≤ start + walltime - 1 + f.security) : t ≤ f.heldUntil start walltime := by
  have hsecurity := f.zero_le_security
  simp only [heldUntil, Time.windowEnd, Time.later] at *
  omega

theorem le_sleepWindowEnd {e : EnergySaving} (ht : t ≤ Time.latest)
    (h : t ≤ f.now + e.sleep + f.lead) : t ≤ e.sleepWindowEnd f.now f.lead := by
  have hlead := f.zero_le_lead
  simp only [EnergySaving.sleepWindowEnd, Time.later]
  omega

theorem le_wakeReady (ht : t ≤ Time.latest) (h : t ≤ f.now + f.lead) : t ≤ f.wakeReady := by
  simp only [wakeReady, Time.later]
  omega

/-- Instants are 64-bit. -/
structure InRange (f : Frame) : Prop where
  now : f.now ≤ Time.latest
  rows : ∀ row ∈ f.rows, row.start ≤ Time.latest

end Frame

namespace PassState

variable {f : Frame} {m : Matcher} {a : Assignment} {e : EnergySaving} {o : Nat} {last : Int}

theorem now_le_of_committed {c : Commitment} (hc : c ∈ (finished f m).commitments) :
    f.now ≤ c.placement.assignment.start := by
  obtain ⟨front, task, back, _, hcommits⟩ := task_of_committed hc
  exact (perform_step f _ task).start_of_commits hcommits

/-- What stands is left, and is held as long as it stands. -/
theorem exists_left_of_upheld (hrange : f.InRange)
    (h : f.Upholds (finished f m).commitments a last) (ho : o ∈ a.resources) :
    ∃ id p, f.Left (finished f m).commitments id p ∧ p.assignment = a ∧
      a.start ≤ Time.latest ∧ (f.now ≤ last → f.now ≤ p.heldUntil) := by
  cases h with
  | @active row job hrow hactive hlast =>
      have hplacement : f.standingPlacement? row =
          some ⟨max (f.heldUntil row.start row.walltime) f.now, f.rowAssignment row⟩ := by
        rw [Frame.standingPlacement?, Frame.standing?_of_active hactive, Option.map_some]
      have hlapses : ¬ f.Lapses row := by
        intro hlapses
        have hnone := (Frame.standing?_of_reservedAssignment? hlapses.reserved).2.1
        rw [hactive] at hnone
        cases hnone
      exact ⟨_, _, .loaded hrow hplacement hlapses hlast, rfl, hrange.rows row hrow,
        fun _ => le_max_right _ _⟩
  | @reserved row job hrow hactive hreserved hlapses hlast =>
      have hplacement : f.standingPlacement? row =
          some ⟨f.heldUntil row.start row.walltime, f.rowAssignment row⟩ := by
        rw [Frame.standingPlacement?, Frame.standing?_of_reserved hactive hreserved,
          Option.map_some]
      exact ⟨_, _, .loaded hrow hplacement hlapses hlast, rfl, hrange.rows row hrow,
        Frame.le_heldUntil_of_latest hrange.now⟩
  | @committed c hlast =>
      obtain ⟨_, _, _, hsplit, _⟩ := lastFor?_eq_some_iff.1 hlast
      have hc : c ∈ (finished f m).commitments := by
        rw [hsplit]
        exact List.mem_append_right _ List.mem_cons_self
      have hstart := (holds_start_of_committed hc ho).2.2
      have hlatest : c.placement.assignment.start ≤ Time.latest := by
        have hheld := (committed_of_task hc).2.1
        simp only [Frame.heldOnTimeline, Frame.horizon, Time.lastInstant] at hheld
        simp only [Time.latest, Number.greatestInt]
        omega
      exact ⟨_, _, .committed hlast, rfl, hlatest,
        fun _ => le_trans (now_le_of_committed hc) hstart⟩

theorem mem_busy_of_upheld (hrange : f.InRange)
    (h : f.Upholds (finished f m).commitments a last) (ho : o ∈ a.resources)
    (hlast : f.now ≤ last) (hstart : a.start ≤ f.now + e.sleep + f.lead) :
    o ∈ (energyNeeds f (finished f m) e).busy := by
  obtain ⟨id, p, hleft, rfl, hlatest, hheld⟩ := exists_left_of_upheld hrange h ho
  refine mem_resourcesOf.2 ⟨id, p, hleft, hheld hlast, ?_, ho⟩
  exact decide_eq_true (Frame.le_sleepWindowEnd hlatest hstart)

theorem mem_wanted_of_upheld (hrange : f.InRange) (henergy : f.config.energy = some e)
    (h : f.Upholds (finished f m).commitments a last) (ho : o ∈ a.resources)
    (habsent : o ∈ f.catalog.inState .absent) (hlast : f.now ≤ last)
    (hstart : a.start ≤ f.now + f.lead) :
    o ∈ (energyNeeds f (finished f m) e).wanted := by
  obtain ⟨id, p, hleft, rfl, hlatest, hheld⟩ := exists_left_of_upheld hrange h ho
  refine OrdinalSet.mem_union.2 (Or.inr (OrdinalSet.mem_inter.2 ⟨?_, ?_⟩))
  · refine mem_resourcesOf.2 ⟨id, p, hleft, hheld hlast, ?_, ho⟩
    exact decide_eq_true (Frame.le_wakeReady hlatest hstart)
  · rw [Frame.wakeable, henergy]
    exact habsent

theorem energy_eq {d : EnergyDecision} (henergy : f.config.energy = some e)
    (hd : (f.run m).report.energy = some d) :
    d = f.catalog.energyDecision e (energyNeeds f (finished f m) e) := by
  simp only [Frame.run, report, henergy, Option.map_some] at hd
  exact (Option.some.inj hd).symm

end PassState

/-- Power orders that go with the plan. -/
structure Provides (f : Frame) (e : EnergySaving) (commitments : List Commitment)
    (d : EnergyDecision) : Prop where
  alive : ∀ id ∈ d.sleep, ∃ o r, f.catalog.resource? o = some r ∧ r.id = id ∧ r.state = .alive
  /-- With a resource all that is up on its node sleeps. -/
  whole : ∀ o r o' r' node, f.catalog.resource? o = some r → r.id ∈ d.sleep → r.node = some node →
    f.catalog.resource? o' = some r' → r'.node = some node → r'.state = .alive → r'.id ∈ d.sleep
  /-- No second from now to the end of the sleep window is one at which something that stands holds
  a resource that sleeps. -/
  unheld : ∀ o r, f.catalog.resource? o = some r → r.id ∈ d.sleep →
    ∀ a last, f.Upholds commitments a last → o ∈ a.resources →
    ∀ t, a.start ≤ t → t ≤ last → f.now ≤ t → f.now + e.sleep + f.lead < t
  absent : ∀ id ∈ d.wakeup, ∃ o r, f.catalog.resource? o = some r ∧ r.id = id ∧ r.state = .absent
  woken : ∀ a last, f.Upholds commitments a last → a.start ≤ f.now + f.lead → f.now ≤ last →
    ∀ o ∈ a.resources, ∀ r, f.catalog.resource? o = some r → r.state = .absent → r.id ∈ d.wakeup

open PassState in
/-- The power orders of a pass go with what it leaves standing. -/
theorem provides_of_energy {f : Frame} {m : Matcher} {e : EnergySaving} {d : EnergyDecision}
    (hrange : f.InRange) (henergy : f.config.energy = some e)
    (hd : (f.run m).report.energy = some d) : Provides f e (f.run m).report.commitments d := by
  obtain rfl := energy_eq henergy hd
  constructor
  · exact fun id hid => Catalog.exists_of_mem_sleep hid
  · intro o r o' r' node hr hsleep hnode hr' hnode' halive
    have hon : f.catalog.nodeOf? o = some node := Catalog.nodeOf?_eq_some_iff.2 ⟨r, hr, hnode⟩
    have hon' : f.catalog.nodeOf? o' = some node := Catalog.nodeOf?_eq_some_iff.2 ⟨r', hr', hnode'⟩
    exact (Catalog.id_mem_toIds hr').2 (Catalog.sleepers_of_node
      ((Catalog.id_mem_toIds hr).1 hsleep) hon (Catalog.mem_inState.2 ⟨r', hr', halive⟩) hon')
  · intro o r hr hsleep a last hupheld ho t hstart hlast hnow
    by_contra hsoon
    obtain ⟨_, _, _, _, hfree⟩ :=
      Catalog.mem_restable.1 (Catalog.mem_sleepers.1 ((Catalog.id_mem_toIds hr).1 hsleep)).1
    exact hfree (mem_busy_of_upheld hrange hupheld ho (hnow.trans hlast)
      (hstart.trans (not_lt.1 hsoon)))
  · exact fun id hid => Catalog.exists_of_mem_wakeup hid
  · intro a last hupheld hstart hlast o ho r hr habsent
    have hstate := Catalog.mem_inState.2 ⟨r, hr, habsent⟩
    exact Catalog.mem_wakeup_of_wanted hr habsent
      (mem_wanted_of_upheld hrange henergy hupheld ho hstate hlast hstart)

section Powered

/-- Three resources that are up, one of them held by an active job of the given id, and a node with
two that are absent. -/
def poweredFrame (active : Int) (waiting : List Job) : Frame :=
  { twoResourceFrame active with
    catalog :=
      ⟨1, [⟨1, .alive, none, none, []⟩, ⟨2, .alive, none, none, []⟩,
        ⟨3, .absent, none, none, [("network_address", "b")]⟩,
        ⟨4, .absent, none, none, [("network_address", "b")]⟩, ⟨5, .alive, none, none, []⟩],
        by decide⟩
    active := [{ exampleJob active [] 1 with state := .running }]
    waiting := waiting
    wakeLead := 30
    config :=
      { Config.default with
        securityTime := 0
        policy := .backfill
        energy := some ⟨600, 60, 30⟩ } }

theorem inRange_poweredFrame (active : Int) (waiting : List Job) :
    (poweredFrame active waiting).InRange where
  now := by
    change (100 : Int) ≤ 9223372036854775807
    decide
  rows := by
    intro row hrow
    obtain rfl := List.mem_singleton.1 hrow
    change (50 : Int) ≤ 9223372036854775807
    decide

theorem agenda_poweredFrame :
    (poweredFrame 9 [exampleJob 8 [] 3]).agenda =
      [.openQueue, .consider (exampleJob 8 [] 3), .showBestEffort, .openQueue] := by
  cbv

/-- A job for three resources gets the node woken; what it and the active job leave sleeps. -/
theorem provides_of_energy_powered :
    (poweredFrame 9 [exampleJob 8 [] 3]).InRange ∧
      (poweredFrame 9 [exampleJob 8 [] 3]).config.energy = some ⟨600, 60, 30⟩ ∧
      ∃ d, ((poweredFrame 9 [exampleJob 8 [] 3]).run .empty).report.energy = some d ∧
        d.sleep = [5] ∧ d.wakeup = [3, 4] ∧
        Provides (poweredFrame 9 [exampleJob 8 [] 3]) ⟨600, 60, 30⟩
          ((poweredFrame 9 [exampleJob 8 [] 3]).run .empty).report.commitments d := by
  have hrange := inRange_poweredFrame 9 [exampleJob 8 [] 3]
  refine ⟨hrange, rfl, _, rfl, ?_, ?_, provides_of_energy hrange rfl rfl⟩ <;>
  · simp only [PassState.finished, agenda_poweredFrame]
    decide +kernel

theorem agenda_poweredFrame_reserved :
    (poweredFrame 7 [exampleReservation]).agenda =
      [.reserve exampleReservation, .openQueue, .showBestEffort, .openQueue] := by
  cbv

/-- Under the id of a new reservation an active job loses its placement, and what it runs on sleeps. -/
theorem not_unheld_of_shared_id :
    ¬ ∀ (f : Frame) (m : Matcher) (e : EnergySaving) (d : EnergyDecision) (row : GanttRow)
      (job : Job) (o : Nat) (r : Resource) (t : Int),
      f.InRange → f.config.queues.Nodup → f.config.energy = some e →
      (f.run m).report.energy = some d → row ∈ f.rows → f.activeJob? row.job = some job →
      o ∈ f.rowOrdinals row → f.catalog.resource? o = some r → r.id ∈ d.sleep →
      f.ActivelyHeldAt row.start row.walltime t → f.now ≤ t → f.now + e.sleep + f.lead < t := by
  intro h
  have henergy : ((poweredFrame 7 [exampleReservation]).run .empty).report.energy =
      some ⟨[1, 2, 5], [], [], []⟩ := by
    simp only [Frame.run, PassState.report, PassState.finished, agenda_poweredFrame_reserved]
    decide +kernel
  have hlater := h (poweredFrame 7 [exampleReservation]) .empty ⟨600, 60, 30⟩ _
    ⟨7, 10, 50, 1000, [2]⟩ { exampleJob 7 [] 1 with state := .running } 1
    ⟨2, .alive, none, none, []⟩ 100 (inRange_poweredFrame 7 _) (by decide +kernel) rfl henergy
    (by decide +kernel) (by decide +kernel) (by decide +kernel) rfl (by decide)
    ⟨by decide, Or.inr (by decide)⟩ (by decide)
  exact absurd hlater (by decide)

end Powered

end ClusterPlan
