import ClusterPlan.Proofs.Pass.Launching

/-!
The placements that are left when a pass is over, told from the rows and from what the pass committed.
Under each id the last commitment is left. Where nothing was committed the placement of the row is,
unless it was given up: a reservation that the pass looks after and finds to be over.
-/

namespace ClusterPlan

namespace Dictionary

variable {κ : Type u} {α : Type v} [DecidableEq κ] {d : Dictionary κ α} {k : κ} {v : α}

/-- No key has two entries, so a look-up finds all that is there. -/
def Distinct (d : Dictionary κ α) : Prop := (d.map Prod.fst).Nodup

theorem Distinct.erase (h : d.Distinct) (k : κ) : (Dictionary.erase d k).Distinct :=
  h.sublist (List.filter_sublist.map _)

theorem Distinct.put (h : d.Distinct) (k : κ) (v : α) : (Dictionary.put d k v).Distinct := by
  rw [Distinct, Dictionary.put, List.map_cons, List.nodup_cons]
  refine ⟨fun hk => ?_, h.erase k⟩
  obtain ⟨e, he, hkey⟩ := List.mem_map.1 hk
  have hother := (List.mem_filter.1 he).2
  simp [hkey] at hother

theorem Distinct.putSome {ι : Type w} {key : ι → κ} {value? : ι → Option α} (h : d.Distinct)
    (entries : List ι) : (Dictionary.putSome key value? d entries).Distinct := by
  induction entries generalizing d with
  | nil => exact h
  | cons e rest ih =>
      rw [putSome_cons]
      cases value? e with
      | none => exact ih h
      | some v => exact ih (h.put (key e) v)

theorem mem_of_get? (h : d.get? k = some v) : (k, v) ∈ d := by
  obtain ⟨⟨j, w⟩, he, rfl⟩ := Option.map_eq_some_iff.1 h
  obtain rfl : j = k := by simpa using List.find?_some he
  exact List.mem_of_find?_eq_some he

theorem Distinct.get?_eq_some_iff (h : d.Distinct) : d.get? k = some v ↔ (k, v) ∈ d := by
  refine ⟨mem_of_get?, fun hmem => ?_⟩
  cases hget : d.get? k with
  | none =>
      have hnone := List.find?_eq_none.1 (Option.map_eq_none_iff.1 hget) _ hmem
      simp at hnone
  | some w =>
      have hsame := List.inj_on_of_nodup_map h (mem_of_get? hget) hmem rfl
      rw [(Prod.mk.inj hsame).2]

end Dictionary

/-- The last of some commitments that is for a job of the id. -/
def lastFor? (commitments : List Commitment) (id : Int) : Option Commitment :=
  commitments.reverse.find? fun c => c.job.id == id

section LastFor

variable {commitments : List Commitment} {c : Commitment} {id : Int}

theorem lastFor?_concat (commitments : List Commitment) (c : Commitment) (id : Int) :
    lastFor? (commitments ++ [c]) id = if c.job.id = id then some c else lastFor? commitments id := by
  rw [lastFor?, List.reverse_append, List.reverse_singleton, List.singleton_append, List.find?_cons]
  by_cases h : c.job.id = id
  · rw [h, beq_self_eq_true, if_pos rfl]
  · rw [beq_false_of_ne h, if_neg h, lastFor?]

theorem lastFor?_eq_none_iff :
    lastFor? commitments id = none ↔ ∀ c ∈ commitments, c.job.id ≠ id := by
  simp [lastFor?]

theorem lastFor?_eq_some_iff : lastFor? commitments id = some c ↔ c.job.id = id ∧
    ∃ earlier later, commitments = earlier ++ c :: later ∧ ∀ d ∈ later, d.job.id ≠ id := by
  rw [lastFor?, List.find?_eq_some_iff_append, beq_iff_eq]
  refine and_congr_right fun _ => ⟨?_, ?_⟩
  · rintro ⟨front, back, hsplit, hother⟩
    refine ⟨back.reverse, front.reverse, ?_, fun d hd => ?_⟩
    · rw [← List.reverse_reverse commitments, hsplit]
      simp
    · simpa using hother d (List.mem_reverse.1 hd)
  · rintro ⟨earlier, later, rfl, hother⟩
    refine ⟨later.reverse, earlier.reverse, by simp, fun d hd => ?_⟩
    simpa using hother d (List.mem_reverse.1 hd)

end LastFor

namespace Frame

/-- The pass gives up the reservation of the row: it looks after it and finds its time over. -/
structure Lapses (f : Frame) (row : GanttRow) : Prop where
  reserved : f.reservedAssignment? row = some (f.rowAssignment row)
  reviewed : ∃ queue ∈ f.config.queues, ∃ job ∈ f.queueJobs queue,
    job.reservation = .scheduled ∧ job.id = row.job
  begun : row.start ≤ f.now
  passed : row.last < f.now

/-- The placements that are left under an id once a pass has made these commitments. -/
inductive Left (f : Frame) (commitments : List Commitment) : Int → Placement → Prop where
  | committed {id : Int} {c : Commitment} : lastFor? commitments id = some c →
      Left f commitments id c.placement
  | loaded {row : GanttRow} {p : Placement} : row ∈ f.rows → f.standingPlacement? row = some p →
      ¬ f.Lapses row → lastFor? commitments row.job = none → Left f commitments row.job p

end Frame

namespace PassState

variable {f : Frame} {m : Matcher} {s s' s₀ : PassState} {task : Task} {id : Int} {a : Assignment}
  {p : Placement} {o : Nat}

section Reservations

/-- A reservation goes at its review, after its end. -/
theorem Step.review_of_gone (h : Step f s s' task) (ha : s.reservations.get? id = some a)
    (hgone : s'.reservations.get? id = none) :
    ∃ job, task = .review job ∧ job.id = id ∧ a.start ≤ f.now ∧ a.last < f.now := by
  rcases h.reservations_get? id with hsame | ⟨job, b, hexpires, rfl⟩
  · rw [hsame, ha] at hgone
    cases hgone
  · obtain rfl := hexpires.isReview
    refine ⟨job, rfl, rfl, ?_⟩
    cases h with
    | expired hb hdue hlast _ =>
        cases ha.symm.trans hb
        exact ⟨hdue, hlast⟩
    | ahead _ _ hs | delayed _ _ _ _ hs | awaited _ _ _ _ _ hs | started _ _ _ _ _ hs =>
        cases (hgone.symm.trans (congrArg (·.get? job.id) hs.reservations)).trans ha
    | refused htask | granted htask => exact absurd htask (not_reserves_of_reserved ha)

theorem review_of_gone_run (tasks : List Task) (s : PassState)
    (ha : s.reservations.get? id = some a)
    (hgone : (tasks.foldl (perform f) s).reservations.get? id = none) :
    ∃ job, .review job ∈ tasks ∧ job.id = id ∧ a.start ≤ f.now ∧ a.last < f.now := by
  induction tasks generalizing s with
  | nil =>
      rw [List.foldl_nil, ha] at hgone
      cases hgone
  | cons task rest ih =>
      cases hnext : (perform f s task).reservations.get? id with
      | none =>
          obtain ⟨job, rfl, hid, hover⟩ := (perform_step f s task).review_of_gone ha hnext
          exact ⟨job, List.mem_cons_self, hid, hover⟩
      | some b =>
          cases ((perform_step f s task).reservations_old hnext).symm.trans ha
          obtain ⟨job, hjob, hover⟩ := ih _ hnext hgone
          exact ⟨job, List.mem_cons_of_mem _ hjob, hover⟩

theorem reservations_gone_run (tasks : List Task) (s : PassState)
    (hnone : s.reservations.get? id = none) :
    (tasks.foldl (perform f) s).reservations.get? id = none := by
  induction tasks generalizing s with
  | nil => exact hnone
  | cons task rest ih => exact ih _ ((perform_step f s task).reservations_get?_of_none hnone)

/-- The review of a reservation that is over gives it up. -/
theorem Step.gone_of_review {job : Job} (h : Step f s s' (.review job))
    (ha : s.reservations.get? job.id = some a) (hdue : a.start ≤ f.now) (hlast : a.last < f.now) :
    s'.reservations.get? job.id = none := by
  cases h with
  | expired hb _ hpassed hs => exact (expires_of_abandoned hb hpassed hs).reservations_get?
  | ahead hb hahead _ =>
      cases ha.symm.trans hb
      omega
  | delayed hb _ hlasts _ _ | awaited hb _ hlasts _ _ _ | started hb _ hlasts _ _ _ =>
      cases ha.symm.trans hb
      omega
  | refused htask | granted htask => exact absurd htask (not_reserves_of_reserved ha)

theorem gone_iff (ha : (start f m).reservations.get? id = some a) :
    (finished f m).reservations.get? id = none ↔
      (∃ queue ∈ f.config.queues, ∃ job ∈ f.queueJobs queue,
        job.reservation = .scheduled ∧ job.id = id) ∧ a.start ≤ f.now ∧ a.last < f.now := by
  constructor
  · intro hgone
    obtain ⟨job, hjob, hid, hover⟩ := review_of_gone_run f.agenda _ ha hgone
    obtain ⟨front, back, hagenda⟩ := List.append_of_mem hjob
    obtain ⟨queue, hqueue, hqueued, hflag⟩ := (Frame.reviews_before_review hagenda).2
    exact ⟨⟨queue, hqueue, job, hqueued, hflag, hid⟩, hover⟩
  · rintro ⟨⟨queue, hqueue, job, hjob, hflag, rfl⟩, hdue, hlast⟩
    have hmem : .review job ∈ f.agenda := by
      rw [Frame.agenda_eq_reviews, List.mem_append, List.mem_flatMap]
      exact Or.inl ⟨queue, hqueue, Frame.mem_reviews.2 ⟨job, hjob, hflag, rfl⟩⟩
    obtain ⟨front, back, hagenda⟩ := List.append_of_mem hmem
    rw [finished, hagenda, List.foldl_append, List.foldl_cons]
    apply reservations_gone_run
    have hstep := perform_step f (front.foldl (perform f) (start f m)) (.review job)
    cases hb : (front.foldl (perform f) (start f m)).reservations.get? job.id with
    | none => exact hstep.reservations_get?_of_none hb
    | some b =>
        cases (reservations_old_run front _ hb).symm.trans ha
        exact hstep.gone_of_review hb hdue hlast

end Reservations

section Placements

/-- All that is placed now, told from what was placed at first: what was committed since, and what was
there and is no reservation that went. -/
def Follows (s₀ s : PassState) : Prop :=
  ∀ id, s.placements.get? id = ((lastFor? s.commitments id).map Commitment.placement).or
    (if s₀.reservations.has id && !s.reservations.has id then none else s₀.placements.get? id)

theorem follows_start (f : Frame) (m : Matcher) : Follows (start f m) (start f m) := by
  intro id
  rw [(loaded_start f m).commitments, Bool.and_not_self]
  rfl

/-- What expires was never committed, or else its placement would be lost. -/
theorem Step.follows (h : Step f s s' task) (hs : Follows s₀ s)
    (hexpiry : ∀ job a, Expires f s s' task job a →
      lastFor? s.commitments job.id = none ∧ s₀.reservations.has job.id = true) :
    Follows s₀ s' := by
  intro id
  rcases h.cases_placements with ⟨c, hc⟩ | ⟨job, a, hexpires⟩ | hkeeps
  · rw [hc.placements, Dictionary.get?_put, hc.commitments, lastFor?_concat, hc.reservations, hs id]
    split <;> rfl
  · obtain ⟨hnone, hsome⟩ := hexpiry job a hexpires
    rw [hexpires.placements, hexpires.commitments, hexpires.reservations, Dictionary.get?_erase,
      Dictionary.has, Dictionary.has, Dictionary.get?_erase, hs id]
    by_cases hid : job.id = id
    · subst hid
      rw [Dictionary.has] at hsome
      simp [hnone, hsome]
    · rw [if_neg hid, if_neg hid]
      rfl
  · rw [hkeeps.placements, hkeeps.commitments, hkeeps.reservations, hs id]

/-- While reservations are reviewed, none of those that are left has been committed. -/
theorem follows_reviews (tasks : List Task) (htasks : ∀ task ∈ tasks, ∃ job, task = .review job)
    (hold : ∀ id, s.reservations.has id = true → s₀.reservations.has id = true)
    (hunreserved : ∀ c ∈ s.commitments, s.reservations.get? c.job.id = none)
    (hs : Follows s₀ s) : Follows s₀ (tasks.foldl (perform f) s) := by
  induction tasks generalizing s with
  | nil => exact hs
  | cons task rest ih =>
      obtain ⟨⟨job, rfl⟩, hrest⟩ := List.forall_mem_cons.1 htasks
      have hstep := perform_step f s (.review job)
      refine ih hrest (fun id hid => hold id ?_) (fun c hc => ?_) (hstep.follows hs ?_)
      · obtain ⟨a, ha⟩ := Option.isSome_iff_exists.1 hid
        exact Option.isSome_iff_exists.2 ⟨a, hstep.reservations_old ha⟩
      · rcases hstep.commitments with ⟨d, hd⟩ | hsame
        · rw [hd.reservations]
          rw [hd.commitments] at hc
          rcases List.mem_append.1 hc with hc | hc
          · exact hunreserved c hc
          · obtain rfl := List.mem_singleton.1 hc
            exact hd.unreserved (congrArg Task.review (Option.some.inj hd.job))
        · rw [hsame] at hc
          exact hstep.reservations_get?_of_none (hunreserved c hc)
      · intro j a hexpires
        have hsome : s.reservations.has j.id = true :=
          Option.isSome_iff_exists.2 ⟨a, hexpires.reserved⟩
        refine ⟨lastFor?_eq_none_iff.2 fun c hc hid => ?_, hold _ hsome⟩
        have hnone := hunreserved c hc
        rw [hid, hexpires.reserved] at hnone
        cases hnone

/-- After the reviews nothing expires. -/
theorem follows_later (tasks : List Task) (htasks : ∀ task ∈ tasks, ∀ job, task ≠ .review job)
    (hs : Follows s₀ s) : Follows s₀ (tasks.foldl (perform f) s) := by
  induction tasks generalizing s with
  | nil => exact hs
  | cons task rest ih =>
      obtain ⟨htask, hrest⟩ := List.forall_mem_cons.1 htasks
      refine ih hrest ((perform_step f s task).follows hs fun job a hexpires => ?_)
      exact absurd hexpires.isReview (htask job)

theorem follows_finished (f : Frame) (m : Matcher) : Follows (start f m) (finished f m) := by
  obtain ⟨reviews, later, hagenda, hreviews, hlater⟩ :=
    Frame.phases_of_agenda (List.append_nil f.agenda).symm
  rw [finished, hagenda, List.foldl_append]
  -- Only reviews let anything expire, and they all come first.
  refine follows_later later hlater (follows_reviews reviews (fun task htask => ?_)
    (fun id hid => hid) (fun c hc => ?_) (follows_start f m))
  · obtain ⟨job, hjob, _⟩ := hreviews task htask
    exact ⟨job, hjob⟩
  · rw [(loaded_start f m).commitments] at hc
    cases hc

/-- Under the id of a row, reservations go as the row lapses. -/
theorem lapses_iff {row : GanttRow} (hrow : row ∈ f.rows) : f.Lapses row ↔
    (start f m).reservations.has row.job = true ∧ (finished f m).reservations.has row.job = false := by
  have hloaded := (loaded_start f m).reservations row.job
  simp only [Dictionary.has, Option.isSome_iff_exists, Option.isSome_eq_false_iff,
    Option.isNone_iff_eq_none]
  constructor
  · intro h
    have ha := (hloaded _).2 ⟨row, hrow, rfl, h.reserved⟩
    exact ⟨⟨_, ha⟩, (gone_iff ha).2 ⟨h.reviewed, h.begun, h.passed⟩⟩
  · rintro ⟨⟨a, ha⟩, hgone⟩
    obtain ⟨r, hr, hid, hreserved⟩ := (hloaded a).1 ha
    obtain rfl := Table.eq_of_key_eq f.ascending_rows hr hrow hid
    obtain ⟨rfl, _⟩ := Frame.standing?_of_reservedAssignment? hreserved
    obtain ⟨hreviewed, hbegun, hpassed⟩ := (gone_iff ha).1 hgone
    exact ⟨hreserved, hreviewed, hbegun, hpassed⟩

theorem placements_finished_iff :
    (finished f m).placements.get? id = some p ↔ f.Left (finished f m).commitments id p := by
  have hstart := (loaded_start f m).placements
  rw [follows_finished f m id]
  constructor
  · intro h
    cases hlast : lastFor? (finished f m).commitments id with
    | some c =>
        rw [hlast] at h
        cases h
        exact .committed hlast
    | none =>
        rw [hlast, Option.map_none, Option.none_or] at h
        split at h
        · cases h
        · rename_i hstays
          obtain ⟨row, hrow, rfl, hplacement⟩ := (hstart _ _).1 h
          refine .loaded hrow hplacement (fun hlapses => hstays ?_) hlast
          rw [((lapses_iff hrow).1 hlapses).1, ((lapses_iff hrow).1 hlapses).2]
          rfl
  · rintro (⟨hlast⟩ | ⟨hrow, hplacement, hlapses, hlast⟩)
    · rw [hlast]
      rfl
    · rw [hlast, Option.map_none, Option.none_or, if_neg, hstart]
      · exact ⟨_, hrow, rfl, hplacement⟩
      · rw [Bool.and_eq_true, Bool.not_eq_true', ← lapses_iff hrow]
        exact hlapses

theorem distinct_start (f : Frame) (m : Matcher) : (start f m).placements.Distinct := by
  have hempty : (initial f m).placements.Distinct := List.nodup_nil
  rw [start, (alike_noticeUnknownQueues f _).placements, load, placements_foldl_loadRow,
    timeline_foldl_close]
  exact hempty.putSome f.rows

theorem distinct_run (tasks : List Task) (s : PassState) (hs : s.placements.Distinct) :
    (tasks.foldl (perform f) s).placements.Distinct := by
  induction tasks generalizing s with
  | nil => exact hs
  | cons task rest ih =>
      refine ih _ ?_
      rcases (perform_step f s task).cases_placements with ⟨c, hc⟩ | ⟨job, a, hexpires⟩ | hkeeps
      · rw [hc.placements]
        exact hs.put _ _
      · rw [hexpires.placements]
        exact hs.erase _
      · rw [hkeeps.placements]
        exact hs

/-- The resources of what is left and not over before now. -/
theorem mem_resourcesOf {q : Placement → Bool} :
    o ∈ resourcesOf f (finished f m) q ↔
      ∃ id p, f.Left (finished f m).commitments id p ∧ f.now ≤ p.heldUntil ∧ q p = true ∧
        o ∈ p.assignment.resources := by
  have hdistinct : (finished f m).placements.Distinct := distinct_run f.agenda _ (distinct_start f m)
  simp only [resourcesOf, OrdinalSet.mem_unionAll, List.mem_map, List.mem_filter,
    Bool.and_eq_true, decide_eq_true_eq, ← placements_finished_iff, hdistinct.get?_eq_some_iff]
  constructor
  · rintro ⟨_, ⟨⟨id, p⟩, ⟨hmem, hheld, hq⟩, rfl⟩, ho⟩
    exact ⟨id, p, hmem, hheld, hq, ho⟩
  · rintro ⟨id, p, hmem, hheld, hq, ho⟩
    exact ⟨_, ⟨⟨id, p⟩, ⟨hmem, hheld, hq⟩, rfl⟩, ho⟩

end Placements

end PassState

end ClusterPlan
