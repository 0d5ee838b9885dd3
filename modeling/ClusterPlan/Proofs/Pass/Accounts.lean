import Mathlib.Data.List.Induction
import ClusterPlan.Proofs.Pass.Agenda

/-!
The quota ledger of a pass as an account. It opens with what the standing rows claim, except those
kept aside; it loses what reservations claim whose time has passed, and it gains what each
commitment claims.
-/

namespace ClusterPlan

namespace Frame

variable {f : Frame} {row : GanttRow}

/-- The ledger before anything is recorded. -/
def ledger (f : Frame) : Ledger :=
  if f.config.rules.isEmpty then .unlimited
  else .ofRules f.config.rules f.catalog.schedulable.card

/-- What a job claims with its resources. A job without quotas claims nothing. -/
def claim? (f : Frame) (job : Job) (resources : OrdinalSet) (first last : Int) : Option Claim :=
  if job.isWithoutQuotas then none
  else some ⟨f.ledger.claimant job, resources.card, first, last⟩

/-- What a standing row claims. -/
def rowClaim? (f : Frame) (row : GanttRow) : Option Claim :=
  (f.standing? row).bind fun e => f.claim? e.1 (f.rowOrdinals row) row.start e.2

def commitmentClaim? (f : Frame) (c : Commitment) : Option Claim :=
  f.claim? c.job c.placement.assignment.resources c.placement.assignment.start
    c.placement.heldUntil

/-- The rows whose claims are recorded. -/
def isRecorded (f : Frame) (row : GanttRow) : Bool := (f.aside? row).isNone

/-- The row with its claim, if that is recorded. -/
def recorded? (f : Frame) (row : GanttRow) : Option (GanttRow × Claim) :=
  if f.isRecorded row then (f.rowClaim? row).map (row, ·) else none

/-- Whether the pass gives up the reservation of the row: it looks after it and finds that its time
has passed. -/
def givesUp (f : Frame) (row : GanttRow) : Bool :=
  (f.reservedAssignment? row).any (fun a => a.last < f.now) &&
    f.config.queues.any fun queue =>
      (f.queueJobs queue).any fun job => job.reservation == .scheduled && job.id == row.job

theorem recorded?_eq_none (h : f.standing? row = none) : f.recorded? row = none := by
  simp [recorded?, rowClaim?, h]

end Frame

namespace PassState

variable {f : Frame} {s s' s₀ : PassState} {task : Task} {id : Int} {c : Commitment}

/-- One claim more in the ledger, under the id of its job. -/
structure Charges (claim : Option Claim) (id : Int) (s s' : PassState) : Prop where
  ledger : s'.ledger = claim.elim s.ledger fun new => (s.ledger.record new).1
  claims : s'.claims = claim.elim s.claims fun _ => s.claims.put id s.ledger.next

theorem claimant_eq {l l' : Ledger} (h : l.rules = l'.rules) (job : Job) :
    l.claimant job = l'.claimant job := by
  simp only [Ledger.claimant, h]

theorem charges_claimStanding (hrules : s.ledger.rules = f.ledger.rules) (job : Job)
    (resources : OrdinalSet) (first last : Int) :
    Charges (f.claim? job resources first last) job.id s
      (s.claimStanding job resources.card first last) := by
  cases hquota : job.isWithoutQuotas with
  | true => constructor <;> simp [Frame.claim?, claimStanding, hquota]
  | false =>
      have hclaimant := claimant_eq hrules job
      constructor <;> simp [Frame.claim?, claimStanding, hquota, hclaimant, Ledger.record]

theorem Charges.rules {claim : Option Claim} (h : Charges claim id s s') :
    s'.ledger.rules = s.ledger.rules := by
  rw [h.ledger]
  cases claim <;> rfl

section Rows

/-- Keeps of the state what `Charges` speaks of. -/
theorem Charges.of_eq {claim : Option Claim} {t t' : PassState} (h : Charges claim id s s')
    (hledger : t.ledger = s.ledger) (hclaims : t.claims = s.claims)
    (hledger' : t'.ledger = s'.ledger) (hclaims' : t'.claims = s'.claims) :
    Charges claim id t t' where
  ledger := by rw [hledger', hledger, h.ledger]
  claims := by rw [hclaims', hclaims, hledger, h.claims]

theorem charges_loadRow (hrules : s.ledger.rules = f.ledger.rules) (row : GanttRow) :
    Charges ((f.recorded? row).map (·.2)) row.job s (loadRow f s row) := by
  cases hstanding : f.standing? row with
  | none =>
      rw [Frame.recorded?_eq_none hstanding, loadRow_of_not_standing hstanding]
      exact ⟨rfl, rfl⟩
  | some e =>
      obtain ⟨job, last⟩ := e
      cases haside : Frame.keepsAside job with
      | true =>
          have hrecorded : f.recorded? row = none := by
            simp [Frame.recorded?, Frame.isRecorded, Frame.aside?, hstanding, haside]
          obtain ⟨notices, hload⟩ := loadRow_of_keepsAside hstanding haside s
          rw [hrecorded, hload]
          exact ⟨rfl, rfl⟩
      | false =>
          have hrecorded : (f.recorded? row).map (·.2) =
              f.claim? job (f.rowOrdinals row) row.start last := by
            simp [Frame.recorded?, Frame.isRecorded, Frame.aside?, Frame.rowClaim?, hstanding,
              haside]
          obtain ⟨notices, hload⟩ := loadRow_of_not_keepsAside hstanding haside s
          have hcharges := charges_claimStanding hrules job (f.rowOrdinals row) row.start last
          rw [hrecorded, hload, ← Frame.id_of_standing? hstanding]
          exact ⟨hcharges.ledger, hcharges.claims⟩

/-- The claims of the rows, numbered one after the other. -/
structure Opened (f : Frame) (rows : List GanttRow) (s : PassState) : Prop where
  rules : s.ledger.rules = f.ledger.rules
  claims : s.ledger.claims = (rows.filterMap f.recorded?).zipIdx.map fun e => (e.2, e.1.2)
  next : s.ledger.next = (rows.filterMap f.recorded?).length
  numbers : ∀ id n, s.claims.get? id = some n ↔
    ∃ e ∈ (rows.filterMap f.recorded?).zipIdx, e.1.1.job = id ∧ e.2 = n

theorem row_of_recorded? {row : GanttRow} {e : GanttRow × Claim} (h : f.recorded? row = some e) :
    e.1 = row := by
  simp only [Frame.recorded?] at h
  split at h
  · simp only [Option.map_eq_some_iff] at h
    obtain ⟨_, _, rfl⟩ := h
    rfl
  · cases h

theorem rowClaim?_of_recorded? {row : GanttRow} {e : GanttRow × Claim}
    (h : f.recorded? row = some e) : f.rowClaim? row = some e.2 := by
  simp only [Frame.recorded?] at h
  split at h
  · obtain ⟨claim, hclaim, rfl⟩ := Option.map_eq_some_iff.1 h
    exact hclaim
  · cases h

theorem Opened.append {rows : List GanttRow} {row : GanttRow} (hs : Opened f rows s)
    (hnew : ∀ r ∈ rows, r.job ≠ row.job)
    (hcharges : Charges ((f.recorded? row).map (·.2)) row.job s s') :
    Opened f (rows ++ [row]) s' := by
  cases hrow : f.recorded? row with
  | none =>
      rw [hrow] at hcharges
      have hsame : (rows ++ [row]).filterMap f.recorded? = rows.filterMap f.recorded? := by
        simp [hrow]
      constructor
      · exact hcharges.rules.trans hs.rules
      · rw [hsame, ← hs.claims, hcharges.ledger]
        rfl
      · rw [hsame, ← hs.next, hcharges.ledger]
        rfl
      · intro id n
        rw [hsame, ← hs.numbers, hcharges.claims]
        rfl
  | some e =>
      rw [hrow, Option.map_some] at hcharges
      have hlonger : ((rows ++ [row]).filterMap f.recorded?).zipIdx =
          (rows.filterMap f.recorded?).zipIdx ++ [(e, (rows.filterMap f.recorded?).length)] := by
        simp [hrow, List.zipIdx_append]
      have hjob : e.1.job = row.job := by rw [row_of_recorded? hrow]
      constructor
      · exact hcharges.rules.trans hs.rules
      · rw [hlonger, hcharges.ledger]
        simp [Ledger.record, hs.claims, hs.next]
      · rw [hcharges.ledger]
        simp [Ledger.record, hs.next, hrow]
      · intro id n
        rw [hcharges.claims, hlonger, Option.elim_some, Dictionary.get?_put, hs.next]
        simp only [List.mem_append, List.mem_singleton]
        by_cases hid : row.job = id
        · -- No earlier row is of this job.
          have hnone : ∀ d ∈ (rows.filterMap f.recorded?).zipIdx, d.1.1.job ≠ id := by
            intro d hd
            have hmem := List.fst_mem_of_mem_zipIdx hd
            rw [List.mem_filterMap] at hmem
            obtain ⟨r, hr, hd'⟩ := hmem
            rw [row_of_recorded? hd', ← hid]
            exact hnew r hr
          rw [if_pos hid]
          constructor
          · intro hn
            cases hn
            exact ⟨_, Or.inr rfl, hjob.trans hid, rfl⟩
          · rintro ⟨d, hd | rfl, hdid, rfl⟩
            · exact absurd hdid (hnone d hd)
            · rfl
        · rw [if_neg hid, hs.numbers]
          constructor
          · rintro ⟨d, hd, hdid⟩
            exact ⟨d, Or.inl hd, hdid⟩
          · rintro ⟨d, hd | rfl, hdid, rfl⟩
            · exact ⟨d, hd, hdid, rfl⟩
            · exact absurd (hjob.symm.trans hdid) hid

theorem opened_foldl_loadRow (rows : List GanttRow)
    (hrows : rows.Pairwise fun r r' => r.job ≠ r'.job) (hs : Opened f [] s) :
    Opened f rows (rows.foldl (loadRow f) s) := by
  induction rows using List.reverseRecOn with
  | nil => exact hs
  | append_singleton rows row ih =>
      rw [List.pairwise_append] at hrows
      have hopened := ih hrows.1
      rw [List.foldl_append, List.foldl_cons, List.foldl_nil]
      exact hopened.append (fun r hr => hrows.2.2 r hr row (List.mem_singleton_self _))
        (charges_loadRow hopened.rules row)

theorem opened_closed (f : Frame) (m : Matcher) :
    Opened f [] (f.closures.foldl close (initial f m)) := by
  rw [timeline_foldl_close]
  exact
    { rules := rfl
      claims := by simp only [initial, List.filterMap_nil]; split <;> rfl
      next := by simp only [initial, List.filterMap_nil]; split <;> rfl
      numbers := by simp [initial] }

theorem opened_start (f : Frame) (m : Matcher) : Opened f f.rows (start f m) := by
  have halike := alike_noticeUnknownQueues f ((initial f m).load f)
  have hopened := opened_foldl_loadRow f.rows f.rows_distinct (opened_closed f m)
  exact
    { rules := by rw [start, halike.ledger]; exact hopened.rules
      claims := by rw [start, halike.ledger]; exact hopened.claims
      next := by rw [start, halike.ledger]; exact hopened.next
      numbers := by rw [start, halike.claims]; exact hopened.numbers }

/-- All numbers that are in use are below the next one. -/
theorem Opened.lt_next {rows : List GanttRow} (h : Opened f rows s) :
    (∀ e ∈ s.ledger.claims, e.1 < s.ledger.next) ∧
      ∀ id n, s.claims.get? id = some n → n < s.ledger.next := by
  have hlt : ∀ e ∈ (rows.filterMap f.recorded?).zipIdx, e.2 < s.ledger.next := by
    intro e he
    rw [h.next]
    exact List.snd_lt_of_mem_zipIdx he
  rw [h.claims]
  refine ⟨List.forall_mem_map.2 hlt, fun id n hn => ?_⟩
  obtain ⟨e, he, _, rfl⟩ := (h.numbers id n).1 hn
  exact hlt e he

end Rows

section Balance

theorem Opened.numbers_nodup {rows : List GanttRow} {d e : (GanttRow × Claim) × Nat}
    (hd : d ∈ (rows.filterMap f.recorded?).zipIdx) (he : e ∈ (rows.filterMap f.recorded?).zipIdx)
    (h : d.2 = e.2) : d = e := by
  rw [List.mem_zipIdx_iff_getElem?] at hd he
  rw [h, he, Option.some.injEq] at hd
  exact Prod.ext hd.symm h

/-- The account of a pass that opened with `s₀`: what was recorded then, less what was released,
and after it what the commitments claim. Only claims of reservations given up are released. -/
structure Balanced (f : Frame) (s₀ s : PassState) (released : List Nat)
    (booked : List (Nat × Claim)) : Prop where
  rules : s.ledger.rules = f.ledger.rules
  next : s₀.ledger.next ≤ s.ledger.next
  claims : s.ledger.claims = s₀.ledger.claims.filter (fun e => e.1 ∉ released) ++ booked
  commitments : booked.map (·.2) = s.commitments.filterMap f.commitmentClaim?
  later : ∀ e ∈ booked, s₀.ledger.next ≤ e.1
  passed : ∀ n ∈ released, ∃ row ∈ f.rows, f.givesUp row = true ∧
    s₀.claims.get? row.job = some n

/-- While reservations are reviewed, those that still stand have the claims they came with. -/
structure Linked (s₀ s : PassState) : Prop where
  reservations : ∀ id a, s.reservations.get? id = some a → s₀.reservations.get? id = some a
  claims : ∀ id a, s.reservations.get? id = some a → s.claims.get? id = s₀.claims.get? id

variable {released : List Nat} {booked : List (Nat × Claim)}

theorem balanced_start (f : Frame) (m : Matcher) :
    Balanced f (start f m) (start f m) [] [] where
  rules := (opened_start f m).rules
  next := le_refl _
  claims := by simp
  commitments := by rw [(loaded_start f m).commitments]; rfl
  later := nofun
  passed := nofun

theorem linked_refl (s : PassState) : Linked s s := ⟨fun _ _ h => h, fun _ _ _ => rfl⟩

theorem Balanced.of_eq (h : Balanced f s₀ s released booked) (hledger : s'.ledger = s.ledger)
    (hcommitments : s'.commitments = s.commitments) : Balanced f s₀ s' released booked where
  rules := by rw [hledger, h.rules]
  next := by rw [hledger]; exact h.next
  claims := by rw [hledger, h.claims]
  commitments := by rw [hcommitments, h.commitments]
  later := h.later
  passed := h.passed

theorem Commits.charges (h : Commits f s s' task c) (hrules : s.ledger.rules = f.ledger.rules) :
    Charges (f.commitmentClaim? c) c.job.id s s' :=
  (charges_claimStanding hrules c.job c.placement.assignment.resources
    c.placement.assignment.start c.placement.heldUntil).of_eq rfl rfl h.ledger h.claims

theorem Commits.balanced (h : Commits f s s' task c) (hs : Balanced f s₀ s released booked) :
    ∃ booked', Balanced f s₀ s' released (booked ++ booked') := by
  have hcharges := h.charges hs.rules
  cases hclaim : f.commitmentClaim? c with
  | none =>
      rw [hclaim] at hcharges
      refine ⟨[], ?_⟩
      rw [List.append_nil]
      have hledger : s'.ledger = s.ledger := hcharges.ledger
      exact
        { rules := by rw [hledger, hs.rules]
          next := by rw [hledger]; exact hs.next
          claims := by rw [hledger, hs.claims]
          commitments := by simp [h.commitments, hs.commitments, hclaim]
          later := hs.later
          passed := hs.passed }
  | some claim =>
      rw [hclaim] at hcharges
      have hledger : s'.ledger = (s.ledger.record claim).1 := hcharges.ledger
      refine ⟨[(s.ledger.next, claim)], ?_⟩
      exact
        { rules := by rw [hledger]; exact hs.rules
          next := by rw [hledger]; exact hs.next.trans (Nat.le_succ _)
          claims := by rw [hledger]; simp [Ledger.record, hs.claims]
          commitments := by simp [h.commitments, hs.commitments, hclaim]
          later := by
            intro e he
            rcases List.mem_append.1 he with he | he
            · exact hs.later e he
            · rw [List.mem_singleton.1 he]
              exact hs.next
          passed := hs.passed }

theorem Expires.balanced {job : Job} {a : Assignment} {m : Matcher}
    (h : Expires f s s' task job a) (hs : Balanced f (start f m) s released booked)
    (hlinked : Linked (start f m) s)
    (hqueued : ∃ queue ∈ f.config.queues, job ∈ f.queueJobs queue ∧ job.reservation = .scheduled) :
    ∃ released', Balanced f (start f m) s' released' booked := by
  have hclaims := hlinked.claims _ _ h.reserved
  cases hnumber : s.claims.get? job.id with
  | none =>
      refine ⟨released, hs.of_eq ?_ h.commitments⟩
      rw [h.ledger, abandon, hnumber]
  | some n =>
      have hledger : s'.ledger = s.ledger.release n := by rw [h.ledger, abandon, hnumber]
      obtain ⟨row, hrow, hid, ha⟩ :=
        ((loaded_start f m).reservations _ _).1 (hlinked.reservations _ _ h.reserved)
      have hgivesUp : f.givesUp row = true := by
        obtain ⟨queue, hqueue, hjob, hflag⟩ := hqueued
        simp only [Frame.givesUp, ha, Option.any_some, h.passed, decide_true, Bool.true_and,
          List.any_eq_true, Bool.and_eq_true, beq_iff_eq]
        exact ⟨queue, hqueue, job, hjob, hflag, hid.symm⟩
      have hnumber₀ : (start f m).claims.get? row.job = some n := by
        rw [hid, ← hclaims, hnumber]
      -- Numbers of commitments come after those of rows, so none of them is released.
      have hlater : booked.filter (fun e => e.1 != n) = booked := by
        obtain ⟨e, he, _, rfl⟩ := ((opened_start f m).numbers _ _).1 hnumber₀
        rw [List.filter_eq_self]
        intro d hd
        have hbound := List.snd_lt_of_mem_zipIdx he
        have := hs.later d hd
        rw [(opened_start f m).next] at this
        simp only [bne_iff_ne]
        omega
      refine ⟨n :: released, ?_⟩
      exact
        { rules := by rw [hledger]; exact hs.rules
          next := by rw [hledger]; exact hs.next
          claims := by
            rw [hledger]
            simp only [Ledger.release, hs.claims, List.filter_append, hlater, List.filter_filter]
            congr 1
            refine List.filter_congr fun e _ => ?_
            by_cases he : e.1 = n <;> simp [he]
          commitments := by rw [h.commitments, hs.commitments]
          later := hs.later
          passed := List.forall_mem_cons.2 ⟨⟨row, hrow, hgivesUp, hnumber₀⟩, hs.passed⟩ }

theorem Step.linked {job : Job} (h : Step f s s' (.review job))
    (hrules : s.ledger.rules = f.ledger.rules) (hs : Linked s₀ s) : Linked s₀ s' := by
  rcases h.cases_placements with ⟨c, hc⟩ | ⟨j, a, hexpires⟩ | hkeeps
  · have hjob : job = c.job := Option.some.inj hc.job
    have hnone : s.reservations.get? c.job.id = none := hc.unreserved (by rw [hjob])
    have hclaims : ∀ id, c.job.id ≠ id → s'.claims.get? id = s.claims.get? id := by
      intro id hid
      rw [(hc.charges hrules).claims]
      cases f.commitmentClaim? c with
      | none => rfl
      | some claim => rw [Option.elim_some, Dictionary.get?_put, if_neg hid]
    rw [← hc.reservations] at hnone
    refine ⟨fun id a ha => hs.reservations id a (hc.reservations ▸ ha), fun id a ha => ?_⟩
    have hid : c.job.id ≠ id := by
      rintro rfl
      rw [hnone] at ha
      cases ha
    rw [hclaims id hid]
    exact hs.claims id a (hc.reservations ▸ ha)
  · have hother : ∀ id a, s'.reservations.get? id = some a →
        j.id ≠ id ∧ s.reservations.get? id = some a := by
      intro id a ha
      rw [hexpires.reservations, Dictionary.get?_erase] at ha
      split at ha
      · cases ha
      · exact ⟨‹_›, ha⟩
    refine ⟨fun id a ha => hs.reservations id a (hother id a ha).2, fun id a ha => ?_⟩
    obtain ⟨hid, ha⟩ := hother id a ha
    rw [hexpires.claims, Dictionary.get?_erase, if_neg hid]
    exact hs.claims id a ha
  · refine ⟨fun id a ha => hs.reservations id a (hkeeps.reservations ▸ ha), fun id a ha => ?_⟩
    rw [hkeeps.claims]
    exact hs.claims id a (hkeeps.reservations ▸ ha)

/-- Reviews keep the account balanced. -/
theorem balanced_reviews {m : Matcher} (tasks : List Task)
    (htasks : ∀ task ∈ tasks, ∃ job, task = .review job ∧
      ∃ queue ∈ f.config.queues, job ∈ f.queueJobs queue ∧ job.reservation = .scheduled)
    (hs : Balanced f (start f m) s released booked) (hlinked : Linked (start f m) s) :
    ∃ released' booked',
      Balanced f (start f m) (tasks.foldl (perform f) s) released' booked' := by
  induction tasks generalizing s released booked with
  | nil => exact ⟨released, booked, hs⟩
  | cons task rest ih =>
      obtain ⟨job, rfl, hqueued⟩ := htasks task List.mem_cons_self
      have hstep := perform_step f s (.review job)
      have hrest := fun task htask => htasks task (List.mem_cons_of_mem _ htask)
      have hlinked' := hstep.linked hs.rules hlinked
      rcases hstep.cases_placements with ⟨c, hc⟩ | ⟨j, a, hexpires⟩ | hkeeps
      · obtain ⟨booked', hs'⟩ := hc.balanced hs
        exact ih hrest hs' hlinked'
      · cases hexpires.isReview
        obtain ⟨released', hs'⟩ := hexpires.balanced hs hlinked hqueued
        exact ih hrest hs' hlinked'
      · exact ih hrest (hs.of_eq hkeeps.ledger hkeeps.commitments) hlinked'

/-- After the reviews nothing is released any more. -/
theorem balanced_later (tasks : List Task) (htasks : ∀ task ∈ tasks, ∀ job, task ≠ .review job)
    (hs : Balanced f s₀ s released booked) :
    ∃ booked', Balanced f s₀ (tasks.foldl (perform f) s) released booked' := by
  induction tasks generalizing s booked with
  | nil => exact ⟨booked, hs⟩
  | cons task rest ih =>
      have hrest := fun task htask => htasks task (List.mem_cons_of_mem _ htask)
      rcases (perform_step f s task).cases_placements with ⟨c, hc⟩ | ⟨j, a, hexpires⟩ | hkeeps
      · obtain ⟨booked', hs'⟩ := hc.balanced hs
        exact ih hrest hs'
      · exact absurd hexpires.isReview (htasks task List.mem_cons_self j)
      · exact ih hrest (hs.of_eq hkeeps.ledger hkeeps.commitments)

/-- At every point of a pass the account is balanced. -/
theorem balanced_front {front back : List Task} (m : Matcher) (h : f.agenda = front ++ back) :
    ∃ released booked,
      Balanced f (start f m) (front.foldl (perform f) (start f m)) released booked := by
  obtain ⟨reviews, later, rfl, hreviews, hlater⟩ := Frame.phases_of_agenda h
  rw [List.foldl_append]
  obtain ⟨released, booked, hs⟩ :=
    balanced_reviews reviews hreviews (balanced_start f m) (linked_refl _)
  obtain ⟨booked', hs'⟩ := balanced_later later hlater hs
  exact ⟨released, booked', hs'⟩

/-- The rows whose claims stay, told by the numbered entries. -/
theorem filterMap_rowClaim? (f : Frame) (rows : List GanttRow) :
    (rows.filter fun row => f.isRecorded row && !f.givesUp row).filterMap f.rowClaim? =
      ((rows.filterMap f.recorded?).zipIdx.filter fun e => !f.givesUp e.1.1).map (·.1.2) := by
  have hnumbers : ((rows.filterMap f.recorded?).zipIdx.filter fun e => !f.givesUp e.1.1).map (·.1.2) =
      ((rows.filterMap f.recorded?).filter fun e => !f.givesUp e.1).map (·.2) := by
    conv_rhs => rw [← List.zipIdx_map_fst 0 (rows.filterMap f.recorded?), List.filter_map,
      List.map_map]
    rfl
  rw [hnumbers, List.filterMap_filter, List.filter_filterMap, List.map_filterMap]
  refine List.filterMap_congr fun row _ => ?_
  cases hrecorded : f.isRecorded row with
  | false => simp [Frame.recorded?, hrecorded]
  | true =>
      cases hclaim : f.rowClaim? row with
      | none => simp [Frame.recorded?, hclaim]
      | some claim =>
          cases hgivesUp : f.givesUp row <;> simp [Frame.recorded?, hrecorded, hclaim, hgivesUp]

/-- What a balanced account holds: claims of rows, and what the commitments claim. -/
theorem Balanced.exists_kept {m : Matcher} (h : Balanced f (start f m) s released booked) :
    ∃ kept : List (GanttRow × Claim), kept.Sublist (f.rows.filterMap f.recorded?) ∧
      s.ledger.claims.map (·.2) = kept.map (·.2) ++ s.commitments.filterMap f.commitmentClaim? := by
  refine ⟨((f.rows.filterMap f.recorded?).zipIdx.filter fun e => e.2 ∉ released).map (·.1), ?_, ?_⟩
  · conv_rhs => rw [← List.zipIdx_map_fst 0 (f.rows.filterMap f.recorded?)]
    exact List.filter_sublist.map _
  · rw [h.claims, (opened_start f m).claims, List.map_append, h.commitments, List.filter_map,
      List.map_map, List.map_map]
    rfl

/-- What a balanced account holds at least: the claims of the rows not given up, and what the
commitments claim. -/
theorem Balanced.sublist {m : Matcher} (h : Balanced f (start f m) s released booked) :
    ((f.rows.filter fun row => f.isRecorded row && !f.givesUp row).filterMap f.rowClaim? ++
      s.commitments.filterMap f.commitmentClaim?).Sublist (s.ledger.claims.map (·.2)) := by
  have hopened := opened_start f m
  have hkept : ∀ e ∈ (f.rows.filterMap f.recorded?).zipIdx,
      f.givesUp e.1.1 = false → e.2 ∉ released := by
    intro e he hstays hmem
    obtain ⟨row, hrow, hgivesUp, hnumber⟩ := h.passed _ hmem
    obtain ⟨d, hd, hid, hde⟩ := (hopened.numbers _ _).1 hnumber
    rw [Opened.numbers_nodup hd he hde] at hid
    obtain ⟨r, hr, hre⟩ := List.mem_filterMap.1 (List.fst_mem_of_mem_zipIdx he)
    rw [row_of_recorded? hre] at hid hstays
    rw [Table.eq_of_key_eq f.ascending_rows hr hrow hid, hgivesUp] at hstays
    cases hstays
  rw [h.claims, List.map_append, h.commitments, filterMap_rowClaim?, hopened.claims,
    List.filter_map, List.map_map]
  refine List.Sublist.append (List.Sublist.map _ (filter_sublist_filter ?_)) (List.Sublist.refl _)
  intro e he hstays
  simp only [Bool.not_eq_true'] at hstays
  simp only [Function.comp_apply, decide_eq_true_eq]
  exact hkept e he hstays

end Balance

end PassState
end ClusterPlan
