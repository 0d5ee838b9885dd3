import ClusterPlan.Proofs.Matching.Conjunction

/-!
A filter that is malformed makes the request one that is refused, also when it is joined with another
filter, as long as neither text reaches into the other. A text that closes a parenthesis before it opens
one can make a well-formed filter of the whole.
-/

namespace ClusterPlan

/-- The text is given, says more than the default type and is no filter. -/
def Malformed (text : Option String) : Prop :=
  ∃ s, text = some s ∧ isTrivialFilter s = false ∧ ∀ f, Filter.parse s ≠ .ok f

/-- If both texts are kept, neither reaches into the other. -/
def Separable (jobFilter partFilter : Option String) : Prop :=
  ∀ s t, jobFilter = some s → partFilter = some t → isTrivialFilter s = false →
    isTrivialFilter t = false → Filter.Contained s t

variable {c : Catalog} {jobFilter partFilter text : Option String} {part : Part}
  {expression : String} {f : Filter}

theorem keptText_eq_some_iff :
    keptText text = some expression ↔
      ∃ s, text = some s ∧ isTrivialFilter s = false ∧ Text.trim s = expression := by
  rw [keptText, Option.filter_eq_some_iff, Option.map_eq_some_iff]
  constructor
  · rintro ⟨⟨s, rfl, rfl⟩, hkept⟩
    rw [isTrivialFilter_trim, Bool.not_eq_true'] at hkept
    exact ⟨s, rfl, hkept, rfl⟩
  · rintro ⟨s, rfl, hkept, rfl⟩
    exact ⟨⟨s, rfl, rfl⟩, by rw [isTrivialFilter_trim, hkept]; rfl⟩

theorem not_malformed_iff :
    ¬ Malformed text ↔ ∀ s, keptText text = some s → ∃ f, Filter.parse s = .ok f := by
  constructor
  · intro h s hs
    obtain ⟨u, rfl, hkept, rfl⟩ := keptText_eq_some_iff.1 hs
    by_contra hnone
    exact h ⟨u, rfl, hkept, fun f hf => hnone ⟨f, Filter.parse_trim_eq_ok_iff.2 hf⟩⟩
  · rintro h ⟨s, rfl, hkept, hnone⟩
    obtain ⟨f, hf⟩ := h (Text.trim s) (keptText_eq_some_iff.2 ⟨s, rfl, hkept, rfl⟩)
    exact hnone f (Filter.parse_trim_eq_ok_iff.1 hf)

theorem contained_of_keptText {s t : String} (h : Separable jobFilter partFilter)
    (hs : keptText jobFilter = some s) (ht : keptText partFilter = some t) :
    Filter.Contained s t := by
  obtain ⟨u, hu, hkept, rfl⟩ := keptText_eq_some_iff.1 hs
  obtain ⟨v, hv, hkept', rfl⟩ := keptText_eq_some_iff.1 ht
  exact Filter.contained_trim (h u v hu hv hkept hkept')

/-- The joint filter is accepted only if every text in it is. -/
theorem not_malformed_of_parse (hseparable : Separable jobFilter partFilter)
    (hjoint : combineFilters jobFilter partFilter = some expression)
    (hparse : Filter.parse expression = .ok f) :
    ¬ Malformed jobFilter ∧ ¬ Malformed partFilter := by
  rw [combineFilters_eq] at hjoint
  rw [not_malformed_iff, not_malformed_iff]
  cases hs : keptText jobFilter with
  | none =>
      rw [hs] at hjoint
      refine ⟨nofun, fun t ht => ⟨f, ?_⟩⟩
      rw [ht] at hjoint
      cases hjoint
      exact hparse
  | some s =>
      cases ht : keptText partFilter with
      | none =>
          rw [hs, ht] at hjoint
          cases hjoint
          exact ⟨fun _ h => ⟨f, Option.some.inj h ▸ hparse⟩, nofun⟩
      | some t =>
          rw [hs, ht] at hjoint
          cases hjoint
          obtain ⟨p, q, hp, hq, -⟩ :=
            (Filter.parse_conjoinedText_iff (contained_of_keptText hseparable hs ht)).1 hparse
          exact ⟨fun _ h => ⟨p, Option.some.inj h ▸ hp⟩, fun _ h => ⟨q, Option.some.inj h ▸ hq⟩⟩

theorem not_malformed_of_combineFilters_eq_none (h : combineFilters jobFilter partFilter = none) :
    ¬ Malformed jobFilter ∧ ¬ Malformed partFilter := by
  rw [combineFilters_eq] at h
  rw [not_malformed_iff, not_malformed_iff]
  cases hs : keptText jobFilter with
  | none =>
      rw [hs] at h
      have hnone : keptText partFilter = none := h
      rw [hnone]
      exact ⟨nofun, nofun⟩
  | some s =>
      rw [hs] at h
      cases ht : keptText partFilter <;> rw [ht] at h <;> cases h

theorem exists_fault_of_malformed (hseparable : Separable jobFilter part.filter)
    (hmalformed : Malformed jobFilter ∨ Malformed part.filter) :
    ∃ fault, c.matchPart jobFilter part = .error (.request fault) := by
  unfold Catalog.matchPart
  split
  · exact ⟨_, rfl⟩
  · cases hjoint : combineFilters jobFilter part.filter with
    | none =>
        obtain ⟨hjob, hpart⟩ := not_malformed_of_combineFilters_eq_none hjoint
        exact (hmalformed.elim hjob hpart).elim
    | some expression =>
        cases hparse : Filter.parse expression with
        | error fault =>
            refine ⟨.filter fault, ?_⟩
            simp only [Catalog.admissible, hjoint, Catalog.admitted, hparse]
        | ok f =>
            obtain ⟨hjob, hpart⟩ := not_malformed_of_parse hseparable hjoint hparse
            exact (hmalformed.elim hjob hpart).elim

/-- An alternative of one part is refused if the filter of the job or of the part is malformed. -/
theorem candidate_of_malformed {uses : List Matcher.Use} {a : Alternative}
    (hapart : Matcher.SnapshotsApart (c :: uses.map Matcher.Use.catalog)) (hparts : a.parts = [part])
    (hpositive : 0 < a.walltime) (hhorizon : a.walltime ≤ Time.lastInstant)
    (hseparable : Separable jobFilter part.filter)
    (hmalformed : Malformed jobFilter ∨ Malformed part.filter) :
    ∃ fault, ((Matcher.after uses).candidate c jobFilter a).2 = .error (.request fault) := by
  obtain ⟨fault, hfault⟩ := exists_fault_of_malformed (c := c) hseparable hmalformed
  have hsound : a.fault? = none :=
    Catalog.fault?_eq_none_iff.2 ⟨hpositive, hhorizon, by rw [hparts]; exact nofun⟩
  refine ⟨fault, ?_⟩
  rw [(Matcher.candidate_eq (Matcher.ready_after hapart) jobFilter a).1]
  simp only [Catalog.candidate, hsound, hparts, List.mapM_cons, hfault]
  rfl

/-- A quotation is left open. The filter of the part closes it, but opens another one. -/
theorem candidate_of_malformed_twoTypes :
    ∃ fault, ((Matcher.after [.bind twoTypes]).candidate twoTypes (some "gpu='yes")
      ⟨1, 60, [oneResource "gpu='no'"]⟩).2 = .error (.request fault) := by
  have hopen : Filter.tokens "gpu='yes".toList = .error .unterminated := by decide +kernel
  have hcontained : Filter.Contained "gpu='yes" "gpu='no'" := by
    constructor
    · rintro ⟨-, q, hq, hquote, -, us, hus⟩
      have hmark : q = '\'' := hquote.resolve_right fun hdouble => by
        rw [hdouble] at hq
        exact absurd hq (by decide)
      have hagain : Filter.tokens ("gpu='no'".toList.dropWhile (· ≠ '\'')).tail =
          .error .unterminated := by
        decide +kernel
      rw [hmark, hagain] at hus
      cases hus
    · rw [hopen]
      exact nofun
  have hmalformed : Malformed (some "gpu='yes") := by
    refine ⟨"gpu='yes", rfl, by decide, fun f hf => ?_⟩
    rw [Filter.parse, hopen] at hf
    cases hf
  have hseparable : Separable (some "gpu='yes") (oneResource "gpu='no'").filter := by
    rintro s t ⟨⟩ ⟨⟩ - -
    exact hcontained
  exact candidate_of_malformed snapshotsApart_twoTypes rfl (by decide) (by decide) hseparable
    (Or.inl hmalformed)

/-- The filter `(gpu='yes') OR (gpu='no') AND (gpu='yes')`. -/
def reachedOut : Filter :=
  .or (.compare "gpu" .equal "yes")
    (.and (.compare "gpu" .equal "no") (.compare "gpu" .equal "yes"))

theorem admitted_reachedOut :
    twoTypes.admitted "(gpu='yes') OR (gpu='no') AND (gpu='yes')" = .ok (.single 1) := by
  have hparse : Filter.parse "(gpu='yes') OR (gpu='no') AND (gpu='yes')" = .ok reachedOut := by decide +kernel
  have hproperties : reachedOut.properties = ["gpu"] := by cbv
  have hknown : (["gpu"].find? fun p => !twoTypes.hasProperty p) = none := by decide
  have hset : twoTypes.matching reachedOut ∩ twoTypes.defaults = .single 1 := by decide +kernel
  rw [Catalog.admitted, hparse]
  simp only [hproperties, hknown]
  rw [if_neg (by decide), hset]

/-- A malformed text that closes a parenthesis and opens another is accepted beside a filter. -/
theorem candidate_of_reaching_out :
    Malformed (some "gpu='yes') OR (gpu='no'") ∧
      ∃ found, (Matcher.empty.candidate twoTypes (some "gpu='yes') OR (gpu='no'")
        ⟨1, 60, [oneResource "gpu='yes'"]⟩).2 = .ok found := by
  constructor
  · refine ⟨_, rfl, by decide, fun f hf => ?_⟩
    have herror : Filter.parse "gpu='yes') OR (gpu='no'" =
        .error (.malformed "gpu='yes') OR (gpu='no'" .ending 3) := by decide +kernel
    rw [herror] at hf
    cases hf
  · have hjoint : combineFilters (some "gpu='yes') OR (gpu='no'") (some "gpu='yes'") =
        some "(gpu='yes') OR (gpu='no') AND (gpu='yes')" := by decide
    have hpart : twoTypes.matchPart (some "gpu='yes') OR (gpu='no'") (oneResource "gpu='yes'") =
        twoTypes.groupPart (oneResource "gpu='yes'") (.single 1) := by
      rw [Catalog.matchPart, if_neg (by decide), Catalog.admissible]
      simp only [oneResource, hjoint, admitted_reachedOut]
    refine ⟨⟨1, 60, [⟨.single 1, [⟨"resource_id", 1, [.single 1]⟩]⟩]⟩, ?_⟩
    rw [(Matcher.candidate_eq (Matcher.ready_empty twoTypes) _ _).1]
    simp only [Catalog.candidate, List.mapM_cons, hpart]
    rfl

end ClusterPlan
