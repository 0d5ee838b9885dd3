import ClusterPlan.Proofs.Request.Rows
import ClusterPlan.Proofs.Store.Orderly

/-!
A store after any history of operations, of which some are refused. Jobs and their rows are in tables of
their own, and only what is done to both of them keeps them in step. A history tells what is known about
one job without any table, and whatever is fetched from the store is what the history tells.
-/

namespace ClusterPlan

/-- The job without its alternatives, as it stands in the table. -/
def Job.bare (job : Job) : Job := { job with alternatives := [] }

namespace Store

/-- What may be done to a store between two passes or by one. -/
inductive Operation where
  | submit (job : Job)
  | withdraw (id : Int)
  | setJobState (id : Int) (state : JobState)
  | updateJobState (id : Int) (state : JobState) (message : String)
  | updateReservation (id : Int) (flag : Reservation)
  | commitRows (rows : List GanttRow)
  | dropRows (jobs : List Int)
  | requestKills (jobs : List Int)
  | addResource (r : Resource)
  | updateResource (id : Int) (change : Resource → Resource)
  | fetchCatalog
  | rejectWrites (rejects : Bool)

def apply (s : Store) : Operation → Except Error Store
  | .submit job => s.submit job
  | .withdraw id => .ok (s.withdraw id).1
  | .setJobState id state => s.setJobState id state
  | .updateJobState id state message => s.updateJobState id state message
  | .updateReservation id flag => s.updateReservation id flag
  | .commitRows rows => s.commitRows rows
  | .dropRows jobs => s.dropRows jobs
  | .requestKills jobs => s.requestKills jobs
  | .addResource r => .ok (s.addResource r)
  | .updateResource id change => s.updateResource id change
  | .fetchCatalog => s.fetchCatalog.map Prod.fst
  | .rejectWrites rejects => .ok { s with rejectsWrites := rejects }

/-- An operation that is refused leaves the store as it is. -/
def step (s : Store) (op : Operation) : Store :=
  match s.apply op with
  | .ok s' => s'
  | .error _ => s

def after (s : Store) (ops : List Operation) : Store := ops.foldl step s

/-- What is known about one job, and whether a pass may write about it. -/
structure Record where
  job? : Option Job
  rejectsWrites : Bool

namespace Record

def change (k : Record) (id other : Int) (f : Job → Job) : Record :=
  if other = id then { k with job? := k.job?.map f } else k

/-- A change that a pass wants to write. -/
def write (k : Record) (id other : Int) (f : Job → Job) : Record :=
  if k.rejectsWrites then k else k.change id other f

/-- What is done to other jobs tells nothing about this one. -/
def step (id : Int) (k : Record) : Operation → Record
  | .submit job => if job.id = id then { k with job? := k.job?.or (some job) } else k
  | .withdraw other => if other = id then { k with job? := none } else k
  | .setJobState other state => k.change id other fun j => { j with state := state }
  | .updateJobState other state message =>
      k.write id other fun j => { j with state := state, message := message }
  | .updateReservation other flag => k.write id other fun j => { j with reservation := flag }
  | .rejectWrites rejects => { k with rejectsWrites := rejects }
  | .commitRows _ | .dropRows _ | .requestKills _ => k
  | .addResource _ | .updateResource _ _ | .fetchCatalog => k

end Record

/-- What a history tells about a job. -/
def told? (ops : List Operation) (id : Int) : Option Job :=
  (ops.foldl (Record.step id) ⟨none, false⟩).job?

/-- The job that an operation submits under an id, if the store accepts it. -/
def accepted? (s : Store) (id : Int) : Operation → Option Job
  | .submit job => if job.id = id ∧ (s.submit job).isOk = true then some job else none
  | _ => none

/-- The last accepted submission under an id. -/
def lastAccepted? (s : Store) (id : Int) : List Operation → Option Job
  | [] => none
  | op :: rest => ((s.step op).lastAccepted? id rest).or (s.accepted? id op)

/-- The submitted job, as far as nothing was written about it. -/
def SameSubmission (submitted job : Job) : Prop :=
  job = { submitted with
    state := job.state
    message := job.message
    reservation := job.reservation }

/-- No fetch fails, and each shows the jobs as the history tells them, every one once and with the
alternatives of its last accepted submission. -/
structure Shows (start : Store) (ops : List Operation) : Prop where
  job : ∀ id, (start.after ops).job? id = .ok (told? ops id)
  waiting : ∀ queue, ∃ found, (start.after ops).waitingJobs queue = .ok found ∧
    Table.Ascending Job.id found ∧
    ∀ job, job ∈ found ↔ told? ops job.id = some job ∧ job.state = .waiting ∧ job.queue = queue
  active : ∃ found, (start.after ops).activeJobs = .ok found ∧ Table.Ascending Job.id found ∧
    ∀ job, job ∈ found ↔ told? ops job.id = some job ∧ job.state.isActive = true
  submitted : ∀ id job, told? ops id = some job →
    ∃ submitted, start.lastAccepted? id ops = some submitted ∧ SameSubmission submitted job

variable {s s' : Store} {id other : Int} {k : Record} {op : Operation} {job j : Job} {f : Job → Job}

/-- A change of what is written about a job, whatever the job asks for. -/
structure Annotates (f : Job → Job) : Prop where
  same : ∀ j, SameSubmission j (f j)
  bare : ∀ j, (f j).bare = f j.bare

theorem Annotates.id_eq (h : Annotates f) (j : Job) : (f j).id = j.id := by
  have hsame := h.same j
  rw [SameSubmission] at hsame
  rw [hsame]

theorem Annotates.alternatives_eq (h : Annotates f) (j : Job) :
    (f j).alternatives = j.alternatives := by
  have hsame := h.same j
  rw [SameSubmission] at hsame
  rw [hsame]

/-- The tables of a store say about one job what is known about it. -/
structure Records (s : Store) (id : Int) (k : Record) : Prop where
  jobs : Table.Ascending Job.id s.jobs
  rejectsWrites : s.rejectsWrites = k.rejectsWrites
  stored : s.storedJob? id = k.job?.map Job.bare
  rows : s.rowsOf id = RowTable.ofAlternatives id (k.job?.elim [] Job.alternatives)
  full : ∀ job ∈ k.job?, ∀ a ∈ job.alternatives, a.HasRows

theorem records_ofResources (resources : List Resource) (order : List String) (id : Int) :
    (ofResources resources order).Records id ⟨none, false⟩ where
  jobs := (orderly_ofResources resources order).jobs
  rejectsWrites := rfl
  stored := rfl
  rows := rfl
  full := fun job hjob => absurd hjob (Option.not_mem_none job)

namespace Records

theorem of_eq (h : s.Records id k) (hjobs : s'.jobs = s.jobs)
    (hrows : s'.requestRows = s.requestRows) (hrejects : s'.rejectsWrites = s.rejectsWrites) :
    s'.Records id k where
  jobs := hjobs ▸ h.jobs
  rejectsWrites := hrejects.trans h.rejectsWrites
  stored := by rw [storedJob?, hjobs]; exact h.stored
  rows := by rw [rowsOf, hrows]; exact h.rows
  full := h.full

theorem isSome_storedJob? (h : s.Records id k) : (s.storedJob? id).isSome = k.job?.isSome := by
  rw [h.stored, Option.isSome_map]

theorem job?_eq_none (h : s.Records id k) (hnone : ¬ (s.storedJob? id).isSome = true) :
    k.job? = none := by
  rwa [h.isSome_storedJob?, Option.not_isSome_iff_eq_none] at hnone

section Refused

variable {e : Error}

/-- What is to be written about a job that is not stored is written nowhere. -/
theorem change_eq_self (h : s.Records id k) (hs : s.changeJob other f = .error e) :
    k.change id other f = k := by
  rw [Store.changeJob] at hs
  split at hs
  · cases hs
  · rename_i hnone
    rw [Record.change]
    split
    · rename_i hid
      have hunknown := h.job?_eq_none (hid ▸ hnone)
      obtain ⟨_, rejects⟩ := k
      obtain rfl := hunknown
      rfl
    · rfl

theorem write_eq_self {kind : StoreWrite} (h : s.Records id k)
    (hs : s.write kind (·.changeJob other f) = .error e) : k.write id other f = k := by
  rw [Record.write, ← h.rejectsWrites]
  rw [Store.write] at hs
  split
  · rfl
  · rw [if_neg (by assumption)] at hs
    exact h.change_eq_self hs

/-- An operation that is refused tells nothing. -/
theorem refused (h : s.Records id k) (hs : s.apply op = .error e) : k.step id op = k := by
  cases op with
  | submit job =>
      rw [apply, Store.submit] at hs
      split at hs
      · rename_i hknown
        rw [Record.step]
        split
        · rename_i hid
          rw [hid, h.isSome_storedJob?] at hknown
          rw [Option.or_of_isSome hknown]
        · rfl
      · cases hs
  | withdraw other => cases hs
  | setJobState other state => exact h.change_eq_self hs
  | updateJobState other state message => exact h.write_eq_self hs
  | updateReservation other flag => exact h.write_eq_self hs
  | rejectWrites rejects => cases hs
  | commitRows _ | dropRows _ | requestKills _ => rfl
  | addResource _ | updateResource _ _ | fetchCatalog => rfl

end Refused

section Accepted

/-- A new job is put in its table with its rows in theirs, and no other job has to do with it. -/
theorem submit (h : s.Records id k) (hfull : ∀ a ∈ job.alternatives, a.HasRows)
    (hs : s.submit job = .ok s') : s'.Records id (k.step id (.submit job)) := by
  obtain ⟨hnew, hsame⟩ := submit_eq_ok hs
  have hjobs : Table.Ascending Job.id s'.jobs := by
    rw [hsame]
    exact Table.ascending_put h.jobs _
  have hrejects : s'.rejectsWrites = k.rejectsWrites := by rw [hsame]; exact h.rejectsWrites
  have hstored : s'.storedJob? id = if job.id = id then some job.bare else s.storedJob? id := by
    rw [hsame]
    exact Table.find?_put h.jobs job.bare id
  have hown : s'.rowsOf id = s.rowsOf id ++
      if job.id = id then RowTable.ofAlternatives job.id job.alternatives else [] := by
    rw [hsame, rowsOf, List.filter_append, RowTable.filter_ofAlternatives]
    rfl
  rw [Record.step]
  by_cases hid : job.id = id
  · have hnone : k.job? = none := h.job?_eq_none (by rw [← hid, hnew]; exact Bool.false_ne_true)
    rw [if_pos hid] at hstored hown ⊢
    refine ⟨hjobs, hrejects, ?_, ?_, ?_⟩
    · rw [hstored, hnone]
      rfl
    · rw [hown, h.rows, hnone, ← hid]
      rfl
    · rw [hnone]
      rintro _ ⟨⟩
      exact hfull
  · rw [if_neg hid] at hstored hown ⊢
    rw [List.append_nil] at hown
    exact ⟨hjobs, hrejects, hstored.trans h.stored, hown.trans h.rows, h.full⟩

/-- With a job its rows go, so that nothing is left for the next job with its id. -/
theorem withdraw (h : s.Records id k) :
    (s.withdraw other).1.Records id (k.step id (.withdraw other)) := by
  have hjobs : Table.Ascending Job.id (s.withdraw other).1.jobs := List.Pairwise.filter _ h.jobs
  rw [Record.step]
  by_cases hid : other = id
  · rw [if_pos hid]
    refine ⟨hjobs, h.rejectsWrites, ?_, ?_, fun job hjob => absurd hjob (Option.not_mem_none job)⟩
    · refine List.find?_eq_none.2 fun j hj => ?_
      have hne := of_decide_eq_true (List.mem_filter.1 hj).2
      simpa [hid] using hne
    · refine List.filter_eq_nil_iff.2 fun r hr => ?_
      have hne := of_decide_eq_true (List.mem_filter.1 hr).2
      simpa [hid] using hne
  · rw [if_neg hid]
    have hrows : (s.withdraw other).1.rowsOf id = s.rowsOf id := by
      rw [rowsOf, Store.withdraw, List.filter_filter]
      refine List.filter_congr fun r _ => ?_
      rw [Bool.and_eq_left_iff_imp]
      intro hr
      rw [of_decide_eq_true hr]
      exact decide_eq_true (Ne.symm hid)
    exact ⟨hjobs, h.rejectsWrites, (keeps_withdraw hid).job.trans h.stored, hrows.trans h.rows,
      h.full⟩

/-- What is written about a job and not about what it asks for leaves its description alone. -/
theorem changeJob (h : s.Records id k) (hf : Annotates f) (hs : s.changeJob other f = .ok s') :
    s'.Records id (k.change id other f) := by
  have hsame := changeJob_eq_ok hs
  have hjobs : Table.Ascending Job.id s'.jobs := by
    rw [hsame]
    exact Table.ascending_map (id_ite_change hf.id_eq) h.jobs
  have hrows : s'.rowsOf id = s.rowsOf id := by rw [hsame]; rfl
  have hrejects : s'.rejectsWrites = k.rejectsWrites := by rw [hsame]; exact h.rejectsWrites
  rw [Record.change]
  by_cases hother : other = id
  · rw [if_pos hother]
    refine ⟨hjobs, hrejects, ?_, ?_, ?_⟩
    · have hfound : ∀ j, s.storedJob? id = some j → (if j.id = other then f j else j) = f j := by
        intro j hj
        have hjid : j.id = id := by simpa using List.find?_some hj
        rw [if_pos (hjid.trans hother.symm)]
      calc s'.storedJob? id
          = (s.storedJob? id).map fun j => if j.id = other then f j else j := by
            rw [hsame]
            exact Table.find?_map (id_ite_change hf.id_eq) id
        _ = (s.storedJob? id).map f := Option.map_congr hfound
        _ = (k.job?.map f).map Job.bare := by
            rw [h.stored, Option.map_map, Option.map_map]
            exact congrArg (Option.map · k.job?) (funext fun j => (hf.bare j).symm)
    · rw [hrows, h.rows]
      cases k.job? with
      | none => rfl
      | some job => exact congrArg _ (hf.alternatives_eq job).symm
    · intro job hjob
      obtain ⟨known, hknown, rfl⟩ := Option.map_eq_some_iff.1 hjob
      rw [hf.alternatives_eq]
      exact h.full known hknown
  · rw [if_neg hother]
    exact ⟨hjobs, hrejects, (keeps_changeJob hother hf.id_eq hs).job.trans h.stored,
      hrows.trans h.rows, h.full⟩

theorem write {kind : StoreWrite} (h : s.Records id k) (hf : Annotates f)
    (hs : s.write kind (·.changeJob other f) = .ok s') : s'.Records id (k.write id other f) := by
  rw [Record.write, ← h.rejectsWrites]
  split
  · rename_i hrejects
    rw [Store.write, if_pos hrejects] at hs
    cases hs
  · exact h.changeJob hf (eq_of_write hs)

theorem accepted (h : s.Records id k)
    (hfull : ∀ job, op = .submit job → ∀ a ∈ job.alternatives, a.HasRows)
    (hs : s.apply op = .ok s') : s'.Records id (k.step id op) := by
  cases op with
  | submit job => exact h.submit (hfull job rfl) hs
  | withdraw other =>
      cases hs
      exact h.withdraw
  | setJobState other state =>
      refine h.changeJob ?_ hs
      exact ⟨fun _ => rfl, fun _ => rfl⟩
  | updateJobState other state message =>
      refine h.write ?_ hs
      exact ⟨fun _ => rfl, fun _ => rfl⟩
  | updateReservation other flag =>
      refine h.write ?_ hs
      exact ⟨fun _ => rfl, fun _ => rfl⟩
  | commitRows rows =>
      rw [apply, commitRows] at hs
      cases eq_of_write hs
      exact h.of_eq rfl rfl rfl
  | dropRows jobs =>
      rw [apply, dropRows] at hs
      cases eq_of_write hs
      exact h.of_eq rfl rfl rfl
  | requestKills jobs =>
      rw [apply, requestKills] at hs
      cases eq_of_write hs
      exact h.of_eq rfl rfl rfl
  | addResource r =>
      cases hs
      exact h.of_eq rfl rfl rfl
  | updateResource other f =>
      rw [apply, updateResource] at hs
      split at hs
      · cases hs
        exact h.of_eq rfl rfl rfl
      · cases hs
  | fetchCatalog =>
      rw [apply] at hs
      cases hfetch : s.fetchCatalog with
      | error e =>
          rw [hfetch] at hs
          cases hs
      | ok fetched =>
          obtain ⟨_, hsame⟩ := fetchCatalog_eq_ok hfetch
          rw [hfetch, Except.map, hsame] at hs
          cases hs
          exact h.of_eq rfl rfl rfl
  | rejectWrites rejects =>
      cases hs
      exact ⟨h.jobs, rfl, h.stored, h.rows, h.full⟩

end Accepted

theorem step (h : s.Records id k)
    (hfull : ∀ job, op = .submit job → ∀ a ∈ job.alternatives, a.HasRows) :
    (s.step op).Records id (k.step id op) := by
  rw [Store.step]
  split
  · exact h.accepted hfull (by assumption)
  · rw [h.refused (by assumption)]
    exact h

theorem after {ops : List Operation} (h : s.Records id k)
    (hfull : ∀ job, .submit job ∈ ops → ∀ a ∈ job.alternatives, a.HasRows) :
    (s.after ops).Records id (ops.foldl (Record.step id) k) := by
  induction ops generalizing s k with
  | nil => exact h
  | cons op rest ih =>
      refine ih (h.step fun job hop => ?_) fun job hjob => hfull job (List.mem_cons_of_mem _ hjob)
      exact hfull job (hop ▸ List.mem_cons_self)

/-- A stored job is put together as it is known. -/
theorem known_of_mem (h : s.Records j.id k) (hj : j ∈ s.jobs) :
    k.job? = some (s.assembled j) ∧ s.IsWhole j.id := by
  have hstored := h.stored
  rw [storedJob?, (Table.find?_eq_some_iff h.jobs).2 ⟨hj, rfl⟩] at hstored
  obtain ⟨job, hjob, hbare⟩ := Option.map_eq_some_iff.1 hstored.symm
  have hrows := h.rows
  rw [hjob] at hrows
  have hperm : (s.rowsOf j.id).Perm (RowTable.ofAlternatives j.id job.alternatives) :=
    List.Perm.of_eq hrows
  have hwhole := RowTable.alternatives_ofAlternatives hperm (h.full job hjob)
  refine ⟨?_, _, RowTable.pushAll_ofAlternatives hperm⟩
  rw [hjob, assembled, hwhole, ← hbare]
  rfl

theorem mem_of_known (h : s.Records id k) (hjob : k.job? = some job) :
    job.bare ∈ s.jobs ∧ job.id = id := by
  have hstored := h.stored
  rw [hjob] at hstored
  exact (Table.find?_eq_some_iff h.jobs).1 hstored

end Records

section Fetches

variable {known : Int → Record}

theorem job?_eq (h : s.Records id k) : s.job? id = .ok k.job? := by
  cases hstored : s.storedJob? id with
  | none =>
      have hnone : k.job? = none := h.job?_eq_none (by rw [hstored]; exact Bool.false_ne_true)
      simp only [job?, hstored, hnone]
  | some j =>
      obtain ⟨hj, rfl⟩ := (Table.find?_eq_some_iff h.jobs).1 hstored
      obtain ⟨hknown, hwhole⟩ := h.known_of_mem hj
      have hassemble : s.assemble [j] = .ok [s.assembled j] :=
        assemble_eq_ok_iff.2 ⟨fun _ hmem => List.mem_singleton.1 hmem ▸ hwhole, rfl⟩
      simp only [job?, hstored, hassemble, hknown]
      rfl

/-- A fetch of all jobs of a kind, if the kind does not depend on what a job asks for. -/
theorem assemble_filter (h : ∀ id, s.Records id (known id)) {p : Job → Bool}
    (hp : ∀ j, p (s.assembled j) = p j) :
    ∃ found, s.assemble (s.jobs.filter p) = .ok found ∧ Table.Ascending Job.id found ∧
      ∀ job, job ∈ found ↔ (known job.id).job? = some job ∧ p job = true := by
  refine ⟨(s.jobs.filter p).map s.assembled, ?_, ?_, fun job => ?_⟩
  · refine assemble_eq_ok_iff.2 ⟨fun j hj => ?_, rfl⟩
    exact ((h j.id).known_of_mem (List.mem_filter.1 hj).1).2
  · -- What is recorded of any job tells that the whole table is in order.
    exact List.pairwise_map.2 ((h 0).jobs.filter p)
  · rw [List.mem_map]
    constructor
    · rintro ⟨j, hj, rfl⟩
      obtain ⟨hj, hpj⟩ := List.mem_filter.1 hj
      exact ⟨((h j.id).known_of_mem hj).1, (hp j).trans hpj⟩
    · rintro ⟨hjob, hpjob⟩
      have hj := ((h job.id).mem_of_known hjob).1
      have hsame : s.assembled job.bare = job :=
        Option.some.inj (((h job.id).known_of_mem (j := job.bare) hj).1.symm.trans hjob)
      refine ⟨job.bare, List.mem_filter.2 ⟨hj, ?_⟩, hsame⟩
      rw [← hp, hsame, hpjob]

end Fetches

section Submissions

theorem SameSubmission.trans {first second : Job} (h : SameSubmission first second)
    (h' : SameSubmission second job) : SameSubmission first job := by
  rw [SameSubmission] at h h' ⊢
  rw [h', h]

theorem Record.exists_of_change (hf : ∀ j, SameSubmission j (f j))
    (hjob : (k.change id other f).job? = some job) :
    ∃ submitted, k.job? = some submitted ∧ SameSubmission submitted job := by
  rw [Record.change] at hjob
  split at hjob
  · obtain ⟨submitted, hsubmitted, rfl⟩ := Option.map_eq_some_iff.1 hjob
    exact ⟨submitted, hsubmitted, hf submitted⟩
  · exact ⟨job, hjob, rfl⟩

theorem Record.exists_of_write (hf : ∀ j, SameSubmission j (f j))
    (hjob : (k.write id other f).job? = some job) :
    ∃ submitted, k.job? = some submitted ∧ SameSubmission submitted job := by
  rw [Record.write] at hjob
  split at hjob
  · exact ⟨job, hjob, rfl⟩
  · exact Record.exists_of_change hf hjob

theorem isOk_submit : (s.submit job).isOk = true ↔ s.storedJob? job.id = none := by
  rw [Store.submit]
  split
  · rename_i hknown
    rw [Option.isSome_iff_ne_none] at hknown
    exact ⟨fun hok => absurd hok Bool.false_ne_true, fun hnone => absurd hnone hknown⟩
  · rename_i hnew
    exact ⟨fun _ => Option.not_isSome_iff_eq_none.1 hnew, fun _ => rfl⟩

/-- What is known after an operation was submitted by it or is known from before. -/
theorem Records.exists_accepted (h : s.Records id k) (hjob : (k.step id op).job? = some job) :
    ∃ submitted, (s.accepted? id op).or k.job? = some submitted ∧ SameSubmission submitted job := by
  cases op with
  | submit new =>
      rw [Record.step] at hjob
      split at hjob
      · rename_i hid
        cases hknown : k.job? with
        | some known =>
            have hrefused : ¬ (new.id = id ∧ (s.submit new).isOk = true) := by
              rw [isOk_submit, hid, h.stored, hknown]
              exact fun hboth => Option.some_ne_none _ hboth.2
            rw [hknown, Option.some_or] at hjob
            rw [accepted?, if_neg hrefused]
            exact ⟨known, rfl, Option.some.inj hjob ▸ rfl⟩
        | none =>
            have haccepted : new.id = id ∧ (s.submit new).isOk = true := by
              rw [isOk_submit, hid, h.stored, hknown]
              exact ⟨rfl, rfl⟩
            rw [hknown, Option.none_or] at hjob
            rw [accepted?, if_pos haccepted]
            exact ⟨new, rfl, Option.some.inj hjob ▸ rfl⟩
      · rename_i hid
        rw [accepted?, if_neg fun hboth => hid hboth.1]
        exact ⟨job, hjob, rfl⟩
  | withdraw other =>
      rw [Record.step] at hjob
      split at hjob
      · cases hjob
      · exact ⟨job, hjob, rfl⟩
  | setJobState other state =>
      refine Record.exists_of_change ?_ hjob
      exact fun _ => rfl
  | updateJobState other state message =>
      refine Record.exists_of_write ?_ hjob
      exact fun _ => rfl
  | updateReservation other flag =>
      refine Record.exists_of_write ?_ hjob
      exact fun _ => rfl
  | commitRows _ | dropRows _ | requestKills _ => exact ⟨job, hjob, rfl⟩
  | addResource _ | updateResource _ _ | fetchCatalog | rejectWrites _ => exact ⟨job, hjob, rfl⟩

theorem Records.exists_lastAccepted {ops : List Operation} (h : s.Records id k)
    (hfull : ∀ job, .submit job ∈ ops → ∀ a ∈ job.alternatives, a.HasRows)
    (hjob : (ops.foldl (Record.step id) k).job? = some job) :
    ∃ submitted, (s.lastAccepted? id ops).or k.job? = some submitted ∧
      SameSubmission submitted job := by
  induction ops generalizing s k with
  | nil => exact ⟨job, hjob, rfl⟩
  | cons op rest ih =>
      have hstep := h.step fun job hop => hfull job (hop ▸ List.mem_cons_self)
      obtain ⟨submitted, hsubmitted, hsame⟩ :=
        ih hstep (fun job hjob => hfull job (List.mem_cons_of_mem _ hjob)) hjob
      rw [lastAccepted?, Option.or_assoc]
      cases hlater : (s.step op).lastAccepted? id rest with
      | some later =>
          rw [hlater] at hsubmitted
          exact ⟨submitted, hsubmitted, hsame⟩
      | none =>
          rw [hlater, Option.none_or] at hsubmitted
          obtain ⟨earlier, hearlier, hbefore⟩ := h.exists_accepted hsubmitted
          exact ⟨earlier, hearlier, hbefore.trans hsame⟩

end Submissions

/-- Whatever was done to a store, every fetch from it succeeds and shows the jobs as the history tells
them. -/
theorem shows_after (resources : List Resource) (order : List String) (ops : List Operation)
    (h : ∀ job, .submit job ∈ ops → ∀ a ∈ job.alternatives, a.HasRows) :
    (ofResources resources order).Shows ops := by
  have hrecords : ∀ id, ((ofResources resources order).after ops).Records id
      (ops.foldl (Record.step id) ⟨none, false⟩) := fun id =>
    (records_ofResources resources order id).after h
  refine ⟨fun id => job?_eq (hrecords id), fun queue => ?_, ?_, ?_⟩
  · obtain ⟨found, hfound, hascending, hmem⟩ := assemble_filter hrecords
      (p := fun j => j.state == .waiting && j.queue == queue) fun _ => rfl
    refine ⟨found, hfound, hascending, fun job => (hmem job).trans ?_⟩
    rw [Bool.and_eq_true, beq_iff_eq, beq_iff_eq]
    rfl
  · exact assemble_filter hrecords fun _ => rfl
  · intro id job hjob
    obtain ⟨submitted, hsubmitted, hsame⟩ :=
      (records_ofResources resources order id).exists_lastAccepted h hjob
    rw [Option.or_none] at hsubmitted
    exact ⟨submitted, hsubmitted, hsame⟩

def resubmitted (alternatives : List Alternative) : Job where
  id := 7
  state := .waiting
  queue := ⟨"default"⟩
  user := ⟨"ann"⟩
  project := ⟨"demo"⟩
  types := []
  filter := none
  submitted := 0
  reservation := .none
  requestedStart := none
  alternatives := alternatives
  message := ""

/-- Two alternatives, the one with the greater number first. -/
def declaredAlternatives : List Alternative :=
  [⟨12, 60, [⟨some "mem > 8", [⟨"network_address", 2⟩, ⟨"resource_id", 4⟩]⟩,
    ⟨none, [⟨"resource_id", 1⟩]⟩]⟩, ⟨11, 30, [⟨none, [⟨"resource_id", 8⟩]⟩]⟩]

/-- A second submission and a write are refused, then the job is withdrawn and its id used again. -/
def resubmission : List Operation :=
  [.submit (resubmitted [⟨12, 90, [⟨none, [⟨"resource_id", 2⟩]⟩]⟩]),
    .submit (resubmitted declaredAlternatives), .rejectWrites true,
    .updateJobState 7 .toLaunch "Starts.", .rejectWrites false, .withdraw 7,
    .submit (resubmitted declaredAlternatives), .setJobState 7 .running]

theorem shows_after_resubmission :
    (∀ job, .submit job ∈ resubmission → ∀ a ∈ job.alternatives, a.HasRows) ∧
      (ofResources [] []).Shows resubmission ∧
      told? resubmission 7 = some { resubmitted declaredAlternatives with state := .running } := by
  have hfull : ∀ job, .submit job ∈ resubmission → ∀ a ∈ job.alternatives, a.HasRows := by
    intro job hjob
    simp only [resubmission, List.mem_cons, Operation.submit.injEq, reduceCtorEq, false_or,
      List.not_mem_nil, or_false] at hjob
    rcases hjob with rfl | rfl | rfl <;> decide
  exact ⟨hfull, shows_after [] [] resubmission hfull, rfl⟩

end Store

end ClusterPlan
