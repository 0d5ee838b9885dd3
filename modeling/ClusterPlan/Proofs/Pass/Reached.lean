import ClusterPlan.Proofs.Pass.Optimal

/-!
The states in which a pass looks for a place for a job, and what it may leave behind there. `Reached` asks
for no agenda: any tasks may have come before, in any order.
-/

namespace ClusterPlan.PassState

variable {f : Frame} {m : Matcher} {s s' : PassState} {job : Job} {task : Task}

/-- A state between two tasks of a pass, or within one that has only given notice of something. -/
inductive Reached (f : Frame) (m : Matcher) : PassState → Prop where
  | start : Reached f m (start f m)
  | performed {s : PassState} (task : Task) : Reached f m s → Reached f m (perform f s task)
  | notified {s : PassState} (n : Notice) : Reached f m s → Reached f m (s.notify n)

theorem Reached.run {s : PassState} (h : Reached f m s) (tasks : List Task) :
    Reached f m (tasks.foldl (perform f) s) := by
  induction tasks generalizing s with
  | nil => exact h
  | cons task rest ih => exact ih (h.performed task)

theorem Reached.informed (hready : m.Ready f.catalog) (h : Reached f m s) : Informed f s := by
  induction h with
  | start => exact informed_start hready
  | performed task _ ih => exact (ih.step task).1
  | notified n _ ih => exact ⟨ih.times, ih.serves, ih.right⟩

/-- The ledger has the rules of the frame, and no job has a claim without a placement. -/
structure Backed (f : Frame) (s : PassState) : Prop where
  rules : s.ledger.rules = f.ledger.rules
  placed : ∀ id, s.placements.get? id = none → s.claims.get? id = none

theorem backed_start (f : Frame) (m : Matcher) : Backed f (start f m) := by
  have hopened := opened_start f m
  refine ⟨hopened.rules, fun id hnone => Option.eq_none_iff_forall_ne_some.2 fun n hn => ?_⟩
  obtain ⟨e, he, hid, _⟩ := (hopened.numbers id n).1 hn
  obtain ⟨row, hrow, hrecorded⟩ := List.mem_filterMap.1 (List.fst_mem_of_mem_zipIdx he)
  rw [row_of_recorded? hrecorded] at hid
  cases hstanding : f.standing? row with
  | none =>
      rw [Frame.recorded?_eq_none hstanding] at hrecorded
      cases hrecorded
  | some standing =>
      have hplaced : f.standingPlacement? row = some ⟨standing.2, f.rowAssignment row⟩ := by
        rw [Frame.standingPlacement?, hstanding, Option.map_some]
      have hsome := ((loaded_start f m).placements id _).2 ⟨row, hrow, hid, hplaced⟩
      rw [hnone] at hsome
      cases hsome

/-- A booking claims under the id of the job that it places. -/
theorem Step.backed (h : Step f s s' task) (hs : Backed f s) : Backed f s' := by
  refine ⟨h.rules.trans hs.rules, fun id => ?_⟩
  rcases h.cases_placements with ⟨c, hc⟩ | ⟨j, a, hexpires⟩ | hkeeps
  · rw [hc.placements, Dictionary.get?_put, (hc.charges hs.rules).claims]
    split
    · exact fun hnone => absurd hnone (Option.some_ne_none _)
    · rename_i hid
      intro hnone
      cases f.commitmentClaim? c with
      | none => exact hs.placed id hnone
      | some claim =>
          rw [Option.elim_some, Dictionary.get?_put, if_neg hid]
          exact hs.placed id hnone
  · rw [hexpires.placements, hexpires.claims, Dictionary.get?_erase, Dictionary.get?_erase]
    split
    · exact fun _ => rfl
    · exact hs.placed id
  · rw [hkeeps.placements, hkeeps.claims]
    exact hs.placed id

theorem Reached.backed (h : Reached f m s) : Backed f s := by
  induction h with
  | start => exact backed_start f m
  | performed task _ ih => exact (perform_step f _ task).backed ih
  | notified n _ ih => exact ⟨ih.rules, ih.placed⟩

/-- The second state has placed nothing that the first one has not, and kills no more. The two may
differ in what they remember about shapes and alternatives, in the power they ask for, and in what
they have decided. -/
structure Untouched (f : Frame) (s s' : PassState) : Prop where
  timeline : s'.timeline = s.timeline
  ledger : s'.ledger = s.ledger
  claims : s'.claims = s.claims
  placements : s'.placements = s.placements
  reservations : s'.reservations = s.reservations
  bestEffort : s'.bestEffort = s.bestEffort
  commitments : s'.commitments = s.commitments
  newRows : s'.newRows f = s.newRows f
  victims : s'.victims = s.victims

/-- Deciding about a job touches nothing else. -/
theorem untouched_of_decided {outcome : Outcome} {state : JobState} {reservation : Reservation}
    {note : Note} (h : Alike (s.decide job outcome state reservation note) s') :
    Untouched f s s' where
  timeline := h.timeline
  ledger := h.ledger
  claims := h.claims
  placements := h.placements
  reservations := h.reservations
  bestEffort := h.bestEffort
  commitments := h.commitments
  newRows := by rw [newRows, h.commitments]; rfl
  victims := h.victims

end ClusterPlan.PassState
