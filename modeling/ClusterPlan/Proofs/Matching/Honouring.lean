import ClusterPlan.Proofs.Matching.Hierarchy
import ClusterPlan.Proofs.Matching.Memory

/-!
Choices honour requests. Whatever a matcher was used for before, what is chosen with its candidate
splits into one set for each part of the alternative, and each set is what its part asks for.
-/

namespace ClusterPlan

section Admissible

variable {c : Catalog} {jobFilter : Option String} {part : Part} {admissible : OrdinalSet}

theorem admitted_subset {expression : String} (h : c.admitted expression = .ok admissible) :
    ∀ o ∈ admissible, o ∈ c.schedulable := by
  simp only [Catalog.admitted] at h
  split at h
  · cases h
  · split at h
    · cases h
    · cases h
      intro o ho
      obtain ⟨r, hr, hp⟩ := Catalog.mem_ordinalsWhere.1 (OrdinalSet.mem_inter.1 ho).1
      exact Catalog.mem_ordinalsWhere.2 ⟨r, hr, (Bool.and_eq_true _ _ ▸ hp).1⟩

theorem admissible_subset (h : c.admissible jobFilter part = .ok admissible) :
    ∀ o ∈ admissible, o ∈ c.schedulable := by
  simp only [Catalog.admissible] at h
  split at h
  · cases h
    exact fun o ho => Catalog.defaults_subset ho
  · exact admitted_subset h

theorem groupPart_of_matchPart {p : CandidatePart} (h : c.matchPart jobFilter part = .ok p) :
    ∃ admissible, c.admissible jobFilter part = .ok admissible ∧
      c.groupPart part admissible = .ok p := by
  simp only [Catalog.matchPart] at h
  split at h
  · cases h
  · split at h
    · exact ⟨_, by assumption, h⟩
    · cases h

theorem parts_of_candidate {a : Alternative} {found : Candidate}
    (h : c.candidate jobFilter a = .ok found) :
    List.Forall₂ (fun part p => c.matchPart jobFilter part = .ok p) a.parts found.parts := by
  simp only [Catalog.candidate] at h
  split at h
  · cases h
  · split at h
    · cases h
    · rename_i parts hparts
      obtain ⟨rfl, _⟩ := Catalog.checkCandidate_eq_ok_iff.1 h
      exact forall₂_of_mapM hparts

end Admissible

/-- The set is what a part asks for, taken from the available resources. -/
structure Honours (c : Catalog) (jobFilter : Option String) (available : OrdinalSet) (part : Part)
    (s : OrdinalSet) : Prop where
  isFree : ∀ o ∈ s, o ∈ available
  isAdmissible : ∃ admissible, c.admissible jobFilter part = .ok admissible ∧
    (∀ o ∈ s, o ∈ admissible) ∧ Realises c admissible part.levels s
  notDead : ∀ o ∈ s, ∃ r, c.resource? o = some r ∧ r.state ≠ .dead

section Choices

variable {c : Catalog} {jobFilter : Option String} {available s : OrdinalSet}

theorem honours_of_served {part : Part} {p : CandidatePart}
    (hp : c.matchPart jobFilter part = .ok p) {left : OrdinalSet}
    (hleft : ∀ o ∈ left, o ∈ available) (hs : p.Served left s) :
    Honours c jobFilter available part s := by
  obtain ⟨admissible, hadmissible, hgroup⟩ := groupPart_of_matchPart hp
  have hsubset := admissible_subset hadmissible
  have hinside : ∀ o ∈ s, o ∈ admissible := by
    rw [← (levels_of_groupPart hgroup).1]
    exact hs.isAdmissible
  refine ⟨fun o ho => hleft o (hs.isFree o ho), ?_, ?_⟩
  · exact ⟨admissible, hadmissible, hinside, realises_of_served hsubset hgroup hs⟩
  · intro o ho
    exact Catalog.mem_schedulable.1 (hsubset o (hinside o ho))

theorem honours_of_forall₂ {parts : List Part} {ps : List CandidatePart} {sets : List OrdinalSet}
    (hparts : List.Forall₂ (fun part p => c.matchPart jobFilter part = .ok p) parts ps)
    (hsets : List.Forall₂
      (fun p s => ∃ left, (∀ o ∈ left, o ∈ available) ∧ p.Served left s) ps sets) :
    List.Forall₂ (Honours c jobFilter available) parts sets := by
  induction hparts generalizing sets with
  | nil =>
      cases hsets
      exact .nil
  | cons hp _ ih =>
      cases hsets with
      | cons hs hrest =>
          obtain ⟨left, hleft, hserved⟩ := hs
          exact .cons (honours_of_served hp hleft hserved) (ih hrest)

end Choices

/-- What is chosen with an answer of a matcher honours the request, if every snapshot belongs to
one catalog. -/
theorem pick?_honours {c : Catalog} {uses : List Matcher.Use}
    (hapart : Matcher.SnapshotsApart (c :: uses.map Matcher.Use.catalog))
    {jobFilter : Option String} {a : Alternative} {found : Candidate}
    (hfound : ((Matcher.after uses).candidate c jobFilter a).2 = .ok found)
    {available s : OrdinalSet} (hpick : found.pick? available = some s) :
    ∃ sets : List OrdinalSet, sets.Pairwise OrdinalSet.Disjoint ∧
      (∀ o, o ∈ s ↔ ∃ t ∈ sets, o ∈ t) ∧
      List.Forall₂ (Honours c jobFilter available) a.parts sets := by
  rw [(Matcher.candidate_eq (Matcher.ready_after hapart) jobFilter a).1] at hfound
  obtain ⟨sets, hsets, rfl⟩ := Option.map_eq_some_iff.1 hpick
  refine ⟨sets, pickEach?_disjoint hsets, fun o => OrdinalSet.mem_unionAll, ?_⟩
  exact honours_of_forall₂ (parts_of_candidate hfound) (pickEach?_served hsets)

section TwoNodes

/-- Three resources on two nodes. -/
def twoNodes : Catalog where
  snapshot := 1
  resources :=
    [⟨1, .alive, none, none, [("network_address", "a")]⟩,
      ⟨2, .alive, none, none, [("network_address", "b")]⟩,
      ⟨3, .alive, none, none, [("network_address", "b")]⟩]
  distinct := by decide

/-- One node whole, and one resource besides. -/
def nodeAndOne : Alternative :=
  ⟨10, 60, [⟨none, [⟨"network_address", 1⟩]⟩, ⟨none, [⟨"resource_id", 1⟩]⟩]⟩

def nodeAndOneCandidate : Candidate :=
  ⟨10, 60,
    [⟨.ofIds [0, 1, 2], [⟨"network_address", 1, [.single 0, .ofIds [1, 2]]⟩]⟩,
      ⟨.ofIds [0, 1, 2], [⟨"resource_id", 1, [.single 0, .single 1, .single 2]⟩]⟩]⟩

/-- The least resource is a node of its own; the other part takes the next one. -/
theorem pick?_honours_twoNodes :
    let uses : List Matcher.Use := [.bind .empty, .candidate twoNodes none nodeAndOne]
    let available : OrdinalSet := .ofIds [0, 1, 2]
    ((Matcher.after uses).candidate twoNodes none nodeAndOne).2 = .ok nodeAndOneCandidate ∧
      nodeAndOneCandidate.pick? available = some (.ofIds [0, 1]) ∧
      ∃ sets : List OrdinalSet, sets.Pairwise OrdinalSet.Disjoint ∧
        (∀ o, o ∈ OrdinalSet.ofIds [0, 1] ↔ ∃ t ∈ sets, o ∈ t) ∧
        List.Forall₂ (Honours twoNodes none available) nodeAndOne.parts sets := by
  intro uses available
  have hapart : Matcher.SnapshotsApart (twoNodes :: uses.map Matcher.Use.catalog) := by
    intro c hc d hd h
    simp only [uses, List.map_cons, List.map_nil, Matcher.Use.catalog, List.mem_cons,
      List.not_mem_nil, or_false] at hc hd
    rcases hc with rfl | rfl | rfl <;> rcases hd with rfl | rfl | rfl <;>
      first | rfl | exact absurd h (by decide)
  have hfound : ((Matcher.after uses).candidate twoNodes none nodeAndOne).2 =
      .ok nodeAndOneCandidate := by
    decide +kernel
  have hpick : nodeAndOneCandidate.pick? available = some (.ofIds [0, 1]) := by
    decide +kernel
  exact ⟨hfound, hpick, pick?_honours hapart hfound hpick⟩

end TwoNodes

end ClusterPlan
