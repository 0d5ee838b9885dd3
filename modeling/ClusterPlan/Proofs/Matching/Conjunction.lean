import ClusterPlan.Proofs.Catalog.Groups
import ClusterPlan.Proofs.Filter.Parentheses
import ClusterPlan.Proofs.Matching.Memory
import Mathlib.Data.String.Basic

/-!
The resources that the filters of a job and of a part admit together: those that satisfy both. A filter
that reads like the default type is left out before the two are joined. That is harmless where it is
that filter and the one that is kept does not name the type; else the kept one alone decides, and what
the other excludes is admitted.
-/

namespace ClusterPlan

section Texts

theorem dropBlanks_trim (s : String) : Text.dropBlanks (Text.trim s) = Text.dropBlanks s := by
  obtain ⟨front, back, hfront, hback, hsplit⟩ := Text.exists_blanks_around s.toList
  have hnone : ∀ {cs : List Char}, (∀ d ∈ cs, Text.isBlank d) →
      cs.filter (!Text.isBlank ·) = [] := by
    intro cs hcs
    refine List.filter_eq_nil_iff.2 fun d hd => ?_
    rw [hcs d hd]
    decide
  have hmiddle := congrArg (List.filter (!Text.isBlank ·)) hsplit
  rw [List.filter_append, List.filter_append, hnone hfront, hnone hback, List.nil_append,
    List.append_nil] at hmiddle
  rw [Text.dropBlanks, Text.dropBlanks, Text.trim, String.toList_ofList, hmiddle]

theorem isTrivialFilter_trim (s : String) : isTrivialFilter (Text.trim s) = isTrivialFilter s := by
  simp only [isTrivialFilter, dropBlanks_trim]

/-- The text of a filter, unless it reads like the default type or is blank. -/
def keptText (text : Option String) : Option String :=
  (text.map Text.trim).filter fun s => !isTrivialFilter s

theorem toList_keptText (text : Option String) :
    (keptText text).toList = (text.toList.map Text.trim).filter (!isTrivialFilter ·) := by
  cases text with
  | none => rfl
  | some s => cases h : isTrivialFilter (Text.trim s) <;> simp [keptText, h]

theorem join_enclosed (s t : String) :
    Text.join " AND " ["(" ++ s ++ ")", "(" ++ t ++ ")"] = Filter.conjoinedText s t := by
  have hmiddle : ")" ++ " AND " ++ "(" = ") AND (" := by decide
  rw [Text.join, String.intercalate_cons_cons, String.intercalate_singleton,
    Filter.conjoinedText, ← hmiddle]
  simp only [String.append_assoc]

theorem combineFilters_eq (jobFilter partFilter : Option String) :
    combineFilters jobFilter partFilter =
      match keptText jobFilter, keptText partFilter with
      | some s, some t => some (Filter.conjoinedText s t)
      | some s, none => some s
      | none, t => t := by
  simp only [combineFilters, List.map_append, List.filter_append, ← toList_keptText]
  cases keptText jobFilter with
  | none => cases keptText partFilter <;> rfl
  | some s =>
      cases keptText partFilter with
      | none => rfl
      | some t => exact congrArg some (join_enclosed s t)

end Texts
section DefaultType

/-- The filter that is true of the default type. -/
def typeIsDefault : Filter := .compare Resource.typeProperty .equal Resource.defaultType

theorem orderTexts_eq_iff {s t : String} : orderTexts s t = .eq ↔ s = t := by
  unfold orderTexts
  constructor
  · intro h
    split at h
    · cases h
    · split at h
      · cases h
      · exact le_antisymm (not_lt.1 ‹_›) (not_lt.1 ‹_›)
  · rintro rfl
    rw [if_neg (lt_irrefl s), if_neg (lt_irrefl s)]

/-- The name of the default type is no number, so that it equals itself only. -/
theorem orderValues_default (actual : String) :
    orderValues actual Resource.defaultType = .eq ↔ actual = Resource.defaultType := by
  have hnone : Decimal.readFloat? (Text.trim Resource.defaultType) = none := by decide
  rw [← orderTexts_eq_iff, orderValues, hnone]
  cases Decimal.readFloat? (Text.trim actual) <;> rfl

theorem holds_typeIsDefault (r : Resource) :
    typeIsDefault.holds r.property = true ↔ r.hasDefaultType = true := by
  have hvalue : r.property Resource.typeProperty =
      some ((r.properties.get? Resource.typeProperty).getD Resource.defaultType) := by
    rw [Resource.property, if_neg (by decide)]
    cases r.properties.get? Resource.typeProperty <;> rfl
  simp only [typeIsDefault, Filter.holds, hvalue, Comparison.accepts, beq_iff_eq,
    orderValues_default, Resource.hasDefaultType]

end DefaultType

namespace Catalog

variable {c : Catalog} {o : Nat} {expression : String} {f : Filter} {filters : List Filter}

/-- What an optional filter text demands: nothing if it is absent or blank, else the filter as which it
is accepted, which names known properties only. -/
inductive Reads (c : Catalog) : Option String → List Filter → Prop
  | absent : c.Reads none []
  | blank {s : String} (h : Text.trim s = "") : c.Reads (some s) []
  | filter {s : String} {f : Filter} (hparse : Filter.parse s = .ok f)
      (hknown : ∀ p ∈ f.mentions, c.hasProperty p) : c.Reads (some s) [f]

end Catalog

def NamesType (filters : List Filter) : Prop := ∃ f ∈ filters, Resource.typeProperty ∈ f.mentions

instance (filters : List Filter) : Decidable (NamesType filters) :=
  inferInstanceAs (Decidable (∃ f ∈ filters, _))

/-- The resource satisfies all filters, and has the default type unless one of them names the type. -/
def Catalog.Admits (c : Catalog) (filters : List Filter) (o : Nat) : Prop :=
  ∃ r, c.resource? o = some r ∧ r.isSchedulable ∧ (NamesType filters ∨ r.hasDefaultType) ∧
    ∀ f ∈ filters, f.holds r.property

namespace Catalog

variable {c : Catalog} {o : Nat} {expression : String} {f : Filter} {filters : List Filter}

theorem mem_properties {p : String} : p ∈ f.properties ↔ p ∈ f.mentions := by
  rw [Filter.properties, Text.ascending, List.mem_eraseDups, List.mem_mergeSort]

theorem admits_nil : c.Admits [] o ↔ o ∈ c.defaults := by
  simp [Admits, NamesType, defaults, mem_ordinalsWhere]

theorem admitted_of_parse (hparse : Filter.parse expression = .ok f)
    (hknown : ∀ p ∈ f.mentions, c.hasProperty p) :
    ∃ set, c.admitted expression = .ok set ∧ ∀ o, o ∈ set ↔ c.Admits [f] o := by
  have hnone : (f.properties.find? fun p => !c.hasProperty p) = none := by
    rw [List.find?_eq_none]
    intro p hp
    simp [hknown p (mem_properties.1 hp)]
  have hnames : NamesType [f] ↔ f.properties.contains Resource.typeProperty = true := by
    simp [NamesType, mem_properties]
  refine ⟨c.matching f ∩
    if f.properties.contains Resource.typeProperty then c.schedulable else c.defaults, ?_, ?_⟩
  · simp only [admitted, hparse, hnone]
  · intro o
    simp only [Admits, List.forall_mem_singleton, hnames, OrdinalSet.mem_inter]
    split
    · rename_i htype
      simp only [matching, schedulable, mem_ordinalsWhere, Bool.and_eq_true, htype, true_or]
      constructor
      · rintro ⟨⟨r, hr, hschedulable, hholds⟩, -⟩
        exact ⟨r, hr, hschedulable, trivial, hholds⟩
      · rintro ⟨r, hr, hschedulable, -, hholds⟩
        exact ⟨⟨r, hr, hschedulable, hholds⟩, r, hr, hschedulable⟩
    · rename_i htype
      simp only [matching, defaults, mem_ordinalsWhere, Bool.and_eq_true, htype,
        Bool.false_eq_true, false_or]
      constructor
      · rintro ⟨⟨r, hr, hschedulable, hholds⟩, r', hr', -, hdefault⟩
        obtain rfl := Option.some.inj (hr.symm.trans hr')
        exact ⟨r, hr, hschedulable, hdefault, hholds⟩
      · rintro ⟨r, hr, hschedulable, hdefault, hholds⟩
        exact ⟨⟨r, hr, hschedulable, hholds⟩, r, hr, hschedulable, hdefault⟩

theorem admits_congr {others : List Filter} (h : ∀ f, f ∈ filters ↔ f ∈ others) :
    c.Admits filters o ↔ c.Admits others o := by
  simp only [Admits, NamesType, h]

theorem admits_and {g : Filter} : c.Admits [.and f g] o ↔ c.Admits [f, g] o := by
  simp [Admits, NamesType, Filter.mentions, Filter.holds]

/-- The filter for the default type changes nothing if the type is not named otherwise. -/
theorem admits_append_typeIsDefault {out : List Filter}
    (h : ∀ f ∈ out, f = typeIsDefault ∧ ¬ NamesType filters) :
    c.Admits (out ++ filters) o ↔ c.Admits filters o := by
  cases out with
  | nil => rfl
  | cons g out =>
      obtain ⟨rfl, hunnamed⟩ := h g List.mem_cons_self
      have hnames : NamesType (typeIsDefault :: out ++ filters) :=
        ⟨typeIsDefault, List.mem_cons_self, List.mem_singleton.2 rfl⟩
      constructor
      · rintro ⟨r, hr, hschedulable, -, hholds⟩
        have hdefault := (holds_typeIsDefault r).1 (hholds _ List.mem_cons_self)
        exact ⟨r, hr, hschedulable, Or.inr hdefault,
          fun f hf => hholds f (List.mem_append_right _ hf)⟩
      · rintro ⟨r, hr, hschedulable, hdefault, hholds⟩
        refine ⟨r, hr, hschedulable, Or.inl hnames, fun f hf => ?_⟩
        rcases List.mem_append.1 hf with hf | hf
        · rw [(h f hf).1]
          exact (holds_typeIsDefault r).2 (hdefault.resolve_left hunnamed)
        · exact hholds f hf

end Catalog

section Joined

/-- The filters of a text, unless the text is left out. -/
def keptFilters (text : Option String) (filters : List Filter) : List Filter :=
  if text.any isTrivialFilter then [] else filters

/-- The filters of a text that is left out. -/
def leftOutFilters (text : Option String) (filters : List Filter) : List Filter :=
  if text.any isTrivialFilter then filters else []

theorem mem_iff_leftOut_or_kept (text : Option String) (filters : List Filter) {f : Filter} :
    f ∈ filters ↔ f ∈ leftOutFilters text filters ∨ f ∈ keptFilters text filters := by
  unfold leftOutFilters keptFilters
  split <;> simp

variable {c : Catalog} {jobFilter text : Option String} {part : Part} {filters : List Filter}
  {ps qs : List Filter}

theorem kept_cases (h : c.Reads text filters) :
    (keptText text = none ∧ keptFilters text filters = []) ∨
      ∃ s f, keptText text = some s ∧ keptFilters text filters = [f] ∧ Filter.parse s = .ok f ∧
        ∀ p ∈ f.mentions, c.hasProperty p := by
  cases h with
  | absent => exact Or.inl ⟨rfl, rfl⟩
  | @blank s h =>
      have htrivial : isTrivialFilter (Text.trim s) = true := by
        rw [h]
        decide
      exact Or.inl ⟨by simp [keptText, htrivial], by simp [keptFilters]⟩
  | @filter s f hparse hknown =>
      cases htrivial : isTrivialFilter s with
      | true => exact Or.inl ⟨by simp [keptText, isTrivialFilter_trim, htrivial],
          by simp [keptFilters, htrivial]⟩
      | false => exact Or.inr ⟨Text.trim s, f, by simp [keptText, isTrivialFilter_trim, htrivial],
          by simp [keptFilters, htrivial], Filter.parse_trim_eq_ok_iff.2 hparse, hknown⟩

/-- What is admitted is decided by the filters that are kept. -/
theorem admissible_of_reads (hjob : c.Reads jobFilter ps) (hpart : c.Reads part.filter qs) :
    ∃ set, c.admissible jobFilter part = .ok set ∧
      ∀ o, o ∈ set ↔ c.Admits (keptFilters jobFilter ps ++ keptFilters part.filter qs) o := by
  rw [Catalog.admissible, combineFilters_eq]
  rcases kept_cases hjob with ⟨hs, hf⟩ | ⟨s, f, hs, hf, hparse, hknown⟩ <;>
    rcases kept_cases hpart with ⟨ht, hg⟩ | ⟨t, g, ht, hg, hparse', hknown'⟩ <;>
      rw [hs, ht, hf, hg]
  · exact ⟨c.defaults, rfl, fun o => Catalog.admits_nil.symm⟩
  · exact Catalog.admitted_of_parse hparse' hknown'
  · exact Catalog.admitted_of_parse hparse hknown
  · have hboth : Filter.parse (Filter.conjoinedText s t) = .ok (.and f g) :=
      (Filter.parse_conjoinedText_iff (Filter.contained_of_parse hparse hparse')).2
        ⟨f, g, hparse, hparse', rfl⟩
    obtain ⟨set, hset, hmem⟩ := Catalog.admitted_of_parse (c := c) hboth
      (fun p hp => (List.mem_append.1 hp).elim (hknown p) (hknown' p))
    exact ⟨set, hset, fun o => (hmem o).trans Catalog.admits_and⟩

/-- After any use of the matcher a part is matched with the resources that the kept filters admit. -/
theorem matchPart_of_reads {uses : List Matcher.Use}
    (hapart : Matcher.SnapshotsApart (c :: uses.map Matcher.Use.catalog))
    (hlevels : part.levels ≠ []) (hjob : c.Reads jobFilter ps) (hpart : c.Reads part.filter qs) :
    ∃ set, c.admissible jobFilter part = .ok set ∧
      (((Matcher.after uses).bind c).filters.matchPart c jobFilter part).2 = c.groupPart part set ∧
      ∀ o, o ∈ set ↔ c.Admits (keptFilters jobFilter ps ++ keptFilters part.filter qs) o := by
  obtain ⟨set, hset, hmem⟩ := admissible_of_reads hjob hpart
  have hserves := (Matcher.serves_bind (Matcher.ready_after hapart)).filters
  refine ⟨set, hset, ?_, hmem⟩
  rw [(FilterMemo.matchPart_eq hserves jobFilter part).1, Catalog.matchPart, if_neg hlevels, hset]

/-- The resources that a part may be chosen from are those that satisfy the filter of the job and the
filter of the part, if what is left out is no more than the filter for the default type beside a filter
that does not name the type. In any case they are those that satisfy the filters that are kept. -/
theorem matchPart_conjunction {uses : List Matcher.Use}
    (hapart : Matcher.SnapshotsApart (c :: uses.map Matcher.Use.catalog))
    (hlevels : part.levels ≠ []) (hjob : c.Reads jobFilter ps) (hpart : c.Reads part.filter qs) :
    ∃ set, c.admissible jobFilter part = .ok set ∧
      (((Matcher.after uses).bind c).filters.matchPart c jobFilter part).2 = c.groupPart part set ∧
      (∀ o, o ∈ set ↔ c.Admits (keptFilters jobFilter ps ++ keptFilters part.filter qs) o) ∧
      ((∀ f ∈ leftOutFilters jobFilter ps ++ leftOutFilters part.filter qs, f = typeIsDefault ∧
          ¬ NamesType (keptFilters jobFilter ps ++ keptFilters part.filter qs)) →
        ∀ o, o ∈ set ↔ c.Admits (ps ++ qs) o) := by
  obtain ⟨set, hset, hmatch, hmem⟩ := matchPart_of_reads hapart hlevels hjob hpart
  refine ⟨set, hset, hmatch, hmem, fun hharmless o => ?_⟩
  have hsplit : ∀ f, f ∈ ps ++ qs ↔
      f ∈ (leftOutFilters jobFilter ps ++ leftOutFilters part.filter qs) ++
        (keptFilters jobFilter ps ++ keptFilters part.filter qs) := by
    intro f
    simp only [List.mem_append, mem_iff_leftOut_or_kept jobFilter ps,
      mem_iff_leftOut_or_kept part.filter qs]
    exact or_or_or_comm ..
  rw [hmem, Catalog.admits_congr hsplit, Catalog.admits_append_typeIsDefault hharmless]

/-- Three resources, the last one of another type than the others. -/
def twoTypes : Catalog where
  snapshot := 1
  resources :=
    [⟨1, .alive, none, none, [("gpu", "no")]⟩, ⟨2, .alive, none, none, [("gpu", "yes")]⟩,
      ⟨3, .alive, none, none, [("type", "gpu"), ("gpu", "yes")]⟩]
  distinct := by decide

def oneResource (filter : String) : Part := ⟨some filter, [⟨Resource.idProperty, 1⟩]⟩

theorem snapshotsApart_twoTypes :
    Matcher.SnapshotsApart (twoTypes :: [Matcher.Use.bind twoTypes].map Matcher.Use.catalog) := by
  intro c hc d hd _
  simp only [List.map_cons, List.map_nil, Matcher.Use.catalog, List.mem_cons, List.not_mem_nil,
    or_false, or_self] at hc hd
  rw [hc, hd]

theorem reads_typeIsDefault : twoTypes.Reads (some "type = 'default'") [typeIsDefault] :=
  .filter (by decide +kernel) (by decide)

theorem matchPart_conjunction_twoTypes :
    ∃ set, twoTypes.admissible (some "type = 'default'") (oneResource "gpu = 'yes'") = .ok set ∧
      (((Matcher.after [.bind twoTypes]).bind twoTypes).filters.matchPart twoTypes
        (some "type = 'default'") (oneResource "gpu = 'yes'")).2 =
        twoTypes.groupPart (oneResource "gpu = 'yes'") set ∧
      ∀ o, o ∈ set ↔ twoTypes.Admits [typeIsDefault, .compare "gpu" .equal "yes"] o := by
  have hpart : twoTypes.Reads (oneResource "gpu = 'yes'").filter [.compare "gpu" .equal "yes"] :=
    .filter (by decide +kernel) (by decide)
  obtain ⟨set, hset, hmatch, -, hadmits⟩ :=
    matchPart_conjunction snapshotsApart_twoTypes (by decide) reads_typeIsDefault hpart
  exact ⟨set, hset, hmatch, hadmits (by decide)⟩

/-- Beside a filter that names the type, the filter for the default type is lost. -/
theorem matchPart_other_type :
    twoTypes.Reads (some "type = 'default'") [typeIsDefault] ∧
      twoTypes.Reads (oneResource "type = 'gpu'").filter [.compare "type" .equal "gpu"] ∧
      (∃ set, twoTypes.admissible (some "type = 'default'") (oneResource "type = 'gpu'") = .ok set ∧
        (((Matcher.after []).bind twoTypes).filters.matchPart twoTypes
          (some "type = 'default'") (oneResource "type = 'gpu'")).2 =
          twoTypes.groupPart (oneResource "type = 'gpu'") set ∧ 2 ∈ set) ∧
      ¬ twoTypes.Admits [typeIsDefault, .compare "type" .equal "gpu"] 2 := by
  have hpart : twoTypes.Reads (oneResource "type = 'gpu'").filter [.compare "type" .equal "gpu"] :=
    .filter (by decide +kernel) (by decide)
  refine ⟨reads_typeIsDefault, hpart, ?_, ?_⟩
  · have hapart : Matcher.SnapshotsApart
        (twoTypes :: ([] : List Matcher.Use).map Matcher.Use.catalog) :=
      Matcher.snapshotsApart_singleton twoTypes
    obtain ⟨set, hset, hmatch, hmem⟩ :=
      matchPart_of_reads hapart (by decide) reads_typeIsDefault hpart
    exact ⟨set, hset, hmatch, (hmem 2).2 ⟨_, rfl, by decide, Or.inl (by decide), by decide⟩⟩
  · rintro ⟨r, hr, -, -, hholds⟩
    cases hr
    exact absurd (hholds typeIsDefault List.mem_cons_self) (by decide)

end Joined
end ClusterPlan
