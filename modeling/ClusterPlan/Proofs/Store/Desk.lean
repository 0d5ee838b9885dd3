import ClusterPlan.Proofs.Matching.Memory
import ClusterPlan.Store

/-!
A store and a matcher that serve for long. Resources come and change, catalogs are built and handed out,
and the matcher is asked about any of them, also about one that is out of date. Whatever happened before,
the store hands out the catalog of its present resources, and the matcher answers as a new one would.
-/

namespace ClusterPlan

namespace Matcher

/-- What a matcher can be asked about a catalog. -/
inductive Question where
  | candidate (jobFilter : Option String) (a : Alternative)
  | forJob (job : Job)
  | validate (job : Job)

inductive Answer where
  | candidate (found : Except Error Candidate)
  | forJob (found : List (Except Error Candidate))
  | validate (verdict : Except Error Unit)

def Question.about (c : Catalog) : Question → Use
  | .candidate jobFilter a => .candidate c jobFilter a
  | .forJob job => .forJob c job
  | .validate job => .validate c job

def answer (m : Matcher) (c : Catalog) : Question → Answer
  | .candidate jobFilter a => .candidate (m.candidate c jobFilter a).2
  | .forJob job => .forJob (m.forJob c job).2
  | .validate job => .validate (m.validate c job).2

variable {m : Matcher} {c : Catalog}

/-- Two matchers that know nothing wrong about a catalog give the same answers about it. -/
theorem answer_eq_of_ready {m' : Matcher} (h : m.Ready c) (h' : m'.Ready c) (q : Question) :
    m.answer c q = m'.answer c q := by
  have hjob : ∀ job, (m.forJob c job).2 = (m'.forJob c job).2 := fun job =>
    (candidates_eq h job.filter job.alternatives).1.trans
      (candidates_eq h' job.filter job.alternatives).1.symm
  cases q with
  | candidate jobFilter a =>
      exact congrArg Answer.candidate
        ((candidate_eq h jobFilter a).1.trans (candidate_eq h' jobFilter a).1.symm)
  | forJob job => exact congrArg Answer.forJob (hjob job)
  | validate job =>
      simp only [answer, validate, hjob]
      split
      · rfl
      · split <;> rfl

/-- The matcher knows nothing, or what it knows is about one of the catalogs. -/
def IsAbout (m : Matcher) (catalogs : List Catalog) : Prop :=
  (m.filters.snapshot = none ∧ m.known = []) ∨
    ∃ d ∈ catalogs, m.filters.snapshot = some d.snapshot

theorem IsAbout.use {catalogs : List Catalog} (h : m.IsAbout catalogs) (u : Use)
    (hu : u.catalog ∈ catalogs) (hready : m.Ready u.catalog) : (m.use u).IsAbout catalogs := by
  rcases use_cases u hready with hsame | hserves
  · rw [hsame]
    exact h
  · exact Or.inr ⟨u.catalog, hu, hserves.filters.bound⟩

/-- A matcher is ready for a catalog with a number that is not yet in use. -/
theorem IsAbout.ready {catalogs : List Catalog} (h : m.IsAbout catalogs)
    (hfresh : ∀ d ∈ catalogs, d.snapshot ≠ c.snapshot) : m.Ready c := by
  rcases h with ⟨hnone, hknown⟩ | ⟨d, hd, hbound⟩
  · refine ⟨fun _ => hknown, fun hsome => ?_⟩
    rw [hnone] at hsome
    cases hsome
  · exact ready_of_snapshot_ne hbound (hfresh d hd)

end Matcher

/-- What a catalog says does not depend on its number. -/
theorem Catalog.resources_build (n n' : Nat) (order : List String) (resources : List Resource) :
    (build n order resources).map Catalog.resources =
      (build n' order resources).map Catalog.resources := by
  simp only [build]
  split <;> rfl

theorem Catalog.snapshot_build {c : Catalog} {n : Nat} {order : List String}
    {resources : List Resource} (h : build n order resources = .ok c) : c.snapshot = n := by
  simp only [build] at h
  split at h
  · cases h
    rfl
  · cases h

/-- A store and a matcher, with the catalogs that were built so far. -/
structure Desk where
  store : Store
  matcher : Matcher
  catalogs : List Catalog

namespace Desk

def opened (resources : List Resource) (order : List String) : Desk :=
  ⟨.ofResources resources order, .empty, []⟩

/-- What may happen at a desk. Catalogs are named by their place among those built. -/
inductive Event where
  | addResource (r : Resource)
  | updateResource (id : Int) (change : Resource → Resource)
  | setResourceState (id : Int) (state : ResourceState)
  | fetch
  /-- Somebody else builds a catalog of any resources. -/
  | build (order : List String) (resources : List Resource)
  | bind (place : Nat)
  | ask (place : Nat) (q : Matcher.Question)

def change (d : Desk) (f : Store → Except Error Store) : Desk :=
  match f d.store with
  | .ok store => { d with store := store }
  | .error _ => d

def use (d : Desk) (place : Nat) (u : Catalog → Matcher.Use) : Desk :=
  match d.catalogs[place]? with
  | some c => { d with matcher := d.matcher.use (u c) }
  | none => d

/-- All catalogs take their numbers from one counter, whoever builds them. -/
def step (d : Desk) : Event → Desk
  | .addResource r => { d with store := d.store.addResource r }
  | .updateResource id f => d.change (·.updateResource id f)
  | .setResourceState id state => d.change (·.setResourceState id state)
  | .fetch =>
      match d.store.fetchCatalog with
      | .ok (store, c) => { d with store := store, catalogs := d.catalogs ++ [c] }
      | .error _ => d
  | .build order resources =>
      match Catalog.build d.store.nextSnapshot order resources with
      | .ok c =>
          { d with
            store := { d.store with nextSnapshot := d.store.nextSnapshot + 1 }
            catalogs := d.catalogs ++ [c] }
      | .error _ => d
  | .bind place => d.use place .bind
  | .ask place q => d.use place q.about

def after (d : Desk) (events : List Event) : Desk := events.foldl step d

/-- The catalogs have numbers of their own, the matcher knows nothing wrong about any of them, and the
catalog that the store keeps is that of its resources. -/
structure Sound (order : List String) (d : Desk) : Prop where
  ordered : d.store.resourceOrder = order
  numbered : ∀ c ∈ d.catalogs, c.snapshot < d.store.nextSnapshot
  apart : Matcher.SnapshotsApart d.catalogs
  ready : ∀ c ∈ d.catalogs, d.matcher.Ready c
  about : d.matcher.IsAbout d.catalogs
  current : ∀ c, d.store.catalog = some c →
    c ∈ d.catalogs ∧ Catalog.build c.snapshot order d.store.resources = .ok c

variable {d : Desk} {order : List String}

theorem sound_opened (resources : List Resource) (order : List String) :
    (opened resources order).Sound order where
  ordered := rfl
  numbered := nofun
  apart := nofun
  ready := nofun
  about := Or.inl ⟨rfl, rfl⟩
  current := nofun

section Steps

/-- With other resources the store keeps no catalog. -/
theorem Sound.touched (h : d.Sound order) {store : Store}
    (horder : store.resourceOrder = d.store.resourceOrder)
    (hnext : store.nextSnapshot = d.store.nextSnapshot) (hnone : store.catalog = none) :
    Sound order { d with store := store } where
  ordered := horder.trans h.ordered
  numbered := by
    rw [hnext]
    exact h.numbered
  apart := h.apart
  ready := h.ready
  about := h.about
  current := fun c hc => by
    rw [hnone] at hc
    cases hc

theorem Sound.updated (h : d.Sound order) (id : Int) (f : Resource → Resource) :
    (d.change (·.updateResource id f)).Sound order := by
  simp only [change, Store.updateResource]
  split
  · rename_i store hstore
    split at hstore
    · cases hstore
      exact h.touched rfl rfl rfl
    · cases hstore
  · exact h

/-- A new catalog takes the next number, so nothing that is known can be wrong about it. -/
theorem Sound.built (h : d.Sound order) {c : Catalog} {store : Store}
    (hc : c.snapshot = d.store.nextSnapshot)
    (hnext : store.nextSnapshot = d.store.nextSnapshot + 1)
    (horder : store.resourceOrder = d.store.resourceOrder)
    (hcurrent : ∀ e, store.catalog = some e →
      e ∈ d.catalogs ++ [c] ∧ Catalog.build e.snapshot order store.resources = .ok e) :
    Sound order { d with store := store, catalogs := d.catalogs ++ [c] } := by
  have hfresh : ∀ e ∈ d.catalogs, e.snapshot ≠ c.snapshot := fun e he => by
    have := h.numbered e he
    omega
  refine ⟨horder.trans h.ordered, ?_, ?_, ?_, ?_, hcurrent⟩
  · intro e he
    rw [hnext]
    rcases List.mem_append.1 he with he | he
    · exact Nat.lt_succ_of_lt (h.numbered e he)
    · rw [List.mem_singleton.1 he, hc]
      exact Nat.lt_succ_self _
  · intro a ha b hb hab
    simp only [List.mem_append, List.mem_singleton] at ha hb
    rcases ha with ha | rfl <;> rcases hb with hb | rfl
    · exact h.apart a ha b hb hab
    · exact absurd hab (hfresh a ha)
    · exact absurd hab.symm (hfresh b hb)
    · rfl
  · intro e he
    rcases List.mem_append.1 he with he | he
    · exact h.ready e he
    · rw [List.mem_singleton.1 he]
      exact h.about.ready hfresh
  · rcases h.about with hnone | ⟨e, he, hbound⟩
    · exact Or.inl hnone
    · exact Or.inr ⟨e, List.mem_append_left _ he, hbound⟩

/-- The catalog that the store keeps is handed out again. -/
theorem Sound.kept (h : d.Sound order) {c : Catalog} (hc : d.store.catalog = some c) :
    Sound order { d with catalogs := d.catalogs ++ [c] } := by
  have hmem : ∀ e, e ∈ d.catalogs ++ [c] ↔ e ∈ d.catalogs := fun e => by
    simp only [List.mem_append, List.mem_singleton, or_iff_left_iff_imp]
    rintro rfl
    exact (h.current e hc).1
  refine ⟨h.ordered, fun e he => h.numbered e ((hmem e).1 he), ?_, fun e he => h.ready e ((hmem e).1 he),
    ?_, fun e he => ⟨(hmem e).2 (h.current e he).1, (h.current e he).2⟩⟩
  · exact fun a ha b hb => h.apart a ((hmem a).1 ha) b ((hmem b).1 hb)
  · exact h.about.imp_right fun ⟨e, he, hbound⟩ => ⟨e, (hmem e).2 he, hbound⟩

theorem Sound.fetched (h : d.Sound order) : (d.step .fetch).Sound order := by
  cases hkept : d.store.catalog with
  | some c =>
      have hfetch : d.store.fetchCatalog = .ok (d.store, c) := by
        simp only [Store.fetchCatalog, hkept]
      simp only [step, hfetch]
      exact h.kept hkept
  | none =>
      cases hbuild : Catalog.build d.store.nextSnapshot d.store.resourceOrder d.store.resources with
      | error e =>
          have hfetch : d.store.fetchCatalog = .error e := by
            simp only [Store.fetchCatalog, hkept, hbuild]
            rfl
          simpa only [step, hfetch] using h
      | ok c =>
          have hfetch : d.store.fetchCatalog =
              .ok ({ d.store with catalog := some c, nextSnapshot := d.store.nextSnapshot + 1 }, c) := by
            simp only [Store.fetchCatalog, hkept, hbuild]
            rfl
          have hnumber := Catalog.snapshot_build hbuild
          simp only [step, hfetch]
          refine h.built hnumber rfl rfl fun e he => ?_
          cases he
          rw [h.ordered] at hbuild
          exact ⟨List.mem_append_right _ (List.mem_singleton_self _), by rw [hnumber]; exact hbuild⟩

theorem Sound.used (h : d.Sound order) (place : Nat) {u : Catalog → Matcher.Use}
    (hu : ∀ c, (u c).catalog = c) : (d.use place u).Sound order := by
  simp only [Desk.use]
  split
  · rename_i c hc
    have hmem : (u c).catalog ∈ d.catalogs := by
      rw [hu]
      exact List.mem_of_getElem? hc
    exact
      { h with
        ready := Matcher.ready_use h.apart (u c) hmem h.ready
        about := h.about.use (u c) hmem (h.ready _ hmem) }
  · exact h

theorem Sound.step (h : d.Sound order) (e : Event) : (d.step e).Sound order := by
  cases e with
  | addResource r => exact h.touched rfl rfl rfl
  | updateResource id f => exact h.updated id f
  | setResourceState id state => exact h.updated id _
  | fetch => exact h.fetched
  | build other resources =>
      simp only [Desk.step]
      split
      · rename_i c hc
        refine h.built (Catalog.snapshot_build hc) rfl rfl fun e he => ?_
        exact ⟨List.mem_append_left _ (h.current e he).1, (h.current e he).2⟩
      · exact h
  | bind place => exact h.used place fun _ => rfl
  | ask place q => exact h.used place fun _ => by cases q <;> rfl

theorem Sound.after (h : d.Sound order) (events : List Event) : (d.after events).Sound order := by
  induction events generalizing d with
  | nil => exact h
  | cons e rest ih => exact ih (h.step e)

end Steps

/-- What a sound desk hands out says the same as a catalog built anew. -/
theorem Sound.resources_fetchCatalog (h : d.Sound order) (n : Nat) :
    d.store.fetchCatalog.map (fun e => e.2.resources) =
      (Catalog.build n order d.store.resources).map Catalog.resources := by
  cases hkept : d.store.catalog with
  | some c =>
      have hfetch : d.store.fetchCatalog = .ok (d.store, c) := by
        simp only [Store.fetchCatalog, hkept]
      rw [hfetch, Catalog.resources_build n c.snapshot, (h.current c hkept).2]
      rfl
  | none =>
      rw [Catalog.resources_build n d.store.nextSnapshot, ← h.ordered]
      simp only [Store.fetchCatalog, hkept]
      cases Catalog.build d.store.nextSnapshot d.store.resourceOrder d.store.resources <;> rfl

/-- Nothing that a store and a matcher remember ever shows: the store hands out the catalog of its
present resources, and the matcher answers about every catalog as a new one would. -/
theorem answers_of_new (resources : List Resource) (order : List String) (events : List Event) :
    let d := (opened resources order).after events
    (∀ n, d.store.fetchCatalog.map (fun e => e.2.resources) =
      (Catalog.build n order d.store.resources).map Catalog.resources) ∧
    ∀ c ∈ d.catalogs, ∀ q, d.matcher.answer c q = Matcher.empty.answer c q := by
  intro d
  have h : d.Sound order := (sound_opened resources order).after events
  exact ⟨h.resources_fetchCatalog, fun c hc q =>
    Matcher.answer_eq_of_ready (h.ready c hc) (Matcher.ready_empty c) q⟩

end Desk

end ClusterPlan
