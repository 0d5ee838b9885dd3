import ClusterPlan.Matching.Matcher
import Mathlib.Data.List.DropRight

/-!
The matcher without its memories. A matcher that serves a catalog answers as if it had none, and after any
use it serves every catalog whose snapshot was never that of another one.
-/

namespace ClusterPlan

section Filters

theorem trimChars_eq (cs : List Char) :
    Text.trimChars cs = List.rdropWhile Text.isBlank (cs.dropWhile Text.isBlank) :=
  rfl

theorem trimChars_trimChars (cs : List Char) :
    Text.trimChars (Text.trimChars cs) = Text.trimChars cs := by
  have hfront : (Text.trimChars cs).dropWhile Text.isBlank = Text.trimChars cs := by
    rw [List.dropWhile_eq_self_iff]
    intro hpos
    -- What is left starts as the text without its leading blanks.
    obtain ⟨rest, hrest⟩ := List.rdropWhile_prefix Text.isBlank (l := cs.dropWhile Text.isBlank)
    rw [← trimChars_eq] at hrest
    have hlen : 0 < (cs.dropWhile Text.isBlank).length := by
      rw [← hrest, List.length_append]
      omega
    have hhead := List.dropWhile_get_zero_not Text.isBlank cs hlen
    simp only [List.get_eq_getElem, ← hrest, List.getElem_append_left hpos] at hhead
    exact hhead
  rw [trimChars_eq, hfront, trimChars_eq, List.rdropWhile_idempotent]

theorem trim_trim (s : String) : Text.trim (Text.trim s) = Text.trim s := by
  rw [Text.trim, Text.trim, String.toList_ofList, trimChars_trimChars]

/-- Only what the shape keeps of the filter of a job matters. -/
theorem combineFilters_shape (a : Alternative) (jobFilter partFilter : Option String) :
    combineFilters (a.shape jobFilter).jobFilter partFilter =
      combineFilters jobFilter partFilter := by
  have hblank : isTrivialFilter "" = true := by decide
  cases jobFilter with
  | none => rfl
  | some f =>
      simp only [Alternative.shape, Option.map_some, Option.filter_some, decide_not,
        Bool.not_eq_true']
      by_cases hf : Text.trim f = ""
      · simp [combineFilters, hf, hblank]
      · simp [combineFilters, hf, trim_trim]

end Filters

namespace Catalog

/-- The resources that the filters of a job and of a part admit together. -/
def admissible (c : Catalog) (jobFilter : Option String) (part : Part) : Except Error OrdinalSet :=
  match combineFilters jobFilter part.filter with
  | none => .ok c.defaults
  | some expression => c.admitted expression

def matchPart (c : Catalog) (jobFilter : Option String) (part : Part) :
    Except Error CandidatePart :=
  if part.levels = [] then .error (.request (.partWithoutLevel part))
  else
    match c.admissible jobFilter part with
    | .ok admissible => c.groupPart part admissible
    | .error e => .error e

/-- The candidate of an alternative, told from the catalog alone. -/
def candidate (c : Catalog) (jobFilter : Option String) (a : Alternative) :
    Except Error Candidate :=
  match a.fault? with
  | some e => .error e
  | none =>
      match a.parts.mapM (c.matchPart jobFilter) with
      | .error e => .error e
      | .ok parts => c.checkCandidate a parts

theorem matchPart_shape (c : Catalog) (a : Alternative) (jobFilter : Option String) :
    c.matchPart (a.shape jobFilter).jobFilter = c.matchPart jobFilter := by
  funext part
  simp only [matchPart, admissible, combineFilters_shape]

theorem fault?_eq_none_iff {a : Alternative} :
    a.fault? = none ↔ 0 < a.walltime ∧ a.walltime ≤ Time.lastInstant ∧ a.parts ≠ [] := by
  simp only [Alternative.fault?]
  split
  · simp only [reduceCtorEq, false_iff]
    omega
  · split
    · simp only [reduceCtorEq, false_iff]
      omega
    · split
      · simp only [reduceCtorEq, false_iff]
        exact fun h => absurd (by assumption) h.2.2
      · simp only [true_iff]
        exact ⟨by omega, by omega, by assumption⟩

theorem checkCandidate_eq_ok_iff {c : Catalog} {a : Alternative} {parts : List CandidatePart}
    {found : Candidate} :
    c.checkCandidate a parts = .ok found ↔
      found = ⟨a.id, a.walltime, parts⟩ ∧ (pickEach? parts c.schedulable).isSome = true := by
  have hpick : ((⟨a.id, a.walltime, parts⟩ : Candidate).pick? c.schedulable).isNone =
      !(pickEach? parts c.schedulable).isSome := by
    simp [Candidate.pick?]
  cases hsome : (pickEach? parts c.schedulable).isSome with
  | false =>
      rw [hsome, Bool.not_false] at hpick
      simp [checkCandidate, hpick]
  | true =>
      rw [hsome, Bool.not_true] at hpick
      simp [checkCandidate, hpick, eq_comm]

/-- Alternatives of one shape have one candidate, up to their ids. -/
theorem candidate_of_shape_eq {c : Catalog} {a b : Alternative} {jobFilter otherFilter : Option String}
    {found : Candidate} (hshape : a.shape jobFilter = b.shape otherFilter)
    (h : c.candidate jobFilter a = .ok found) :
    c.candidate otherFilter b = .ok { found with id := b.id } := by
  have hwalltime : a.walltime = b.walltime := congrArg Shape.walltime hshape
  have hparts : a.parts = b.parts := congrArg Shape.parts hshape
  have hmatch : c.matchPart otherFilter = c.matchPart jobFilter := by
    rw [← matchPart_shape c b, ← hshape, matchPart_shape]
  simp only [candidate] at h ⊢
  cases ha : a.fault? with
  | some e =>
      rw [ha] at h
      cases h
  | none =>
      have hb : b.fault? = none := by
        rw [fault?_eq_none_iff] at ha ⊢
        rw [← hwalltime, ← hparts]
        exact ha
      rw [ha] at h
      rw [hb, hmatch, ← hparts]
      cases hall : a.parts.mapM (c.matchPart jobFilter) with
      | error e =>
          rw [hall] at h
          cases h
      | ok parts =>
          rw [hall] at h
          obtain ⟨rfl, hpick⟩ := checkCandidate_eq_ok_iff.1 h
          exact checkCandidate_eq_ok_iff.2 ⟨by rw [hwalltime], hpick⟩

end Catalog

namespace FilterMemo

variable {m : FilterMemo} {c : Catalog}

/-- The memory is bound to the catalog, and what it knows is right. -/
structure Serves (m : FilterMemo) (c : Catalog) : Prop where
  bound : m.snapshot = some c.snapshot
  right : ∀ expression set, m.known.get? expression = some set → c.admitted expression = .ok set

theorem bind_of_bound (h : m.snapshot = some c.snapshot) : m.bind c = m := by
  rw [bind, if_pos h]

theorem admitted_eq (h : m.Serves c) (expression : String) :
    (m.admitted c expression).2 = c.admitted expression ∧
      (m.admitted c expression).1.Serves c := by
  simp only [admitted, bind_of_bound h.bound]
  cases hknown : m.known.get? expression with
  | some set => exact ⟨(h.right expression set hknown).symm, h.bound, h.right⟩
  | none =>
      cases hset : c.admitted expression with
      | error e => exact ⟨rfl, h.bound, h.right⟩
      | ok set =>
          refine ⟨rfl, h.bound, fun other value hvalue => ?_⟩
          rw [Dictionary.get?_put] at hvalue
          split at hvalue
          · rename_i heq
            rw [← heq, hset, Option.some.inj hvalue]
          · exact h.right other value hvalue

theorem matchPart_eq (h : m.Serves c) (jobFilter : Option String) (part : Part) :
    (m.matchPart c jobFilter part).2 = c.matchPart jobFilter part ∧
      (m.matchPart c jobFilter part).1.Serves c := by
  simp only [matchPart, Catalog.matchPart, Catalog.admissible]
  split
  · exact ⟨rfl, h⟩
  · cases combineFilters jobFilter part.filter with
    | none => exact ⟨rfl, h⟩
    | some expression =>
        obtain ⟨hanswer, hserves⟩ := admitted_eq h expression
        obtain ⟨m', answer, hadmitted⟩ : ∃ m' answer, m.admitted c expression = (m', answer) :=
          ⟨_, _, rfl⟩
        rw [hadmitted] at hanswer hserves
        simp only [hadmitted, ← hanswer]
        cases answer with
        | ok set => exact ⟨rfl, hserves⟩
        | error e => exact ⟨rfl, hserves⟩

theorem matchParts_eq (h : m.Serves c) (jobFilter : Option String) (parts : List Part) :
    (m.matchParts c jobFilter parts).2 = parts.mapM (c.matchPart jobFilter) ∧
      (m.matchParts c jobFilter parts).1.Serves c := by
  induction parts generalizing m with
  | nil => exact ⟨rfl, h⟩
  | cons part rest ih =>
      obtain ⟨hanswer, hserves⟩ := matchPart_eq h jobFilter part
      obtain ⟨m', answer, hpart⟩ : ∃ m' answer, m.matchPart c jobFilter part = (m', answer) :=
        ⟨_, _, rfl⟩
      rw [hpart] at hanswer hserves
      rw [List.mapM_cons, ← hanswer, matchParts, hpart]
      cases answer with
      | error e => exact ⟨rfl, hserves⟩
      | ok first =>
          obtain ⟨hrest, hserves'⟩ := ih hserves
          obtain ⟨m'', others, hothers⟩ :
              ∃ m'' others, m'.matchParts c jobFilter rest = (m'', others) :=
            ⟨_, _, rfl⟩
          rw [hothers] at hrest hserves'
          rw [← hrest]
          simp only [hothers]
          cases others with
          | error e => exact ⟨rfl, hserves'⟩
          | ok others => exact ⟨rfl, hserves'⟩

end FilterMemo

namespace Matcher

variable {m : Matcher} {c d : Catalog}

/-- Both memories are bound to the catalog, and what they know is right. -/
structure Serves (m : Matcher) (c : Catalog) : Prop where
  filters : m.filters.Serves c
  right : ∀ shape found, m.known.get? shape = some found → ∀ jobFilter (a : Alternative),
    a.shape jobFilter = shape → c.candidate jobFilter a = .ok { found with id := a.id }

/-- What is known was found for the catalog that the matcher is bound to, if that is `c`. -/
structure Ready (m : Matcher) (c : Catalog) : Prop where
  unbound : m.filters.snapshot = none → m.known = []
  serves : m.filters.snapshot = some c.snapshot → m.Serves c

theorem ready_empty (c : Catalog) : empty.Ready c :=
  ⟨fun _ => rfl, nofun⟩

theorem Serves.ready (h : m.Serves c) : m.Ready c := by
  refine ⟨fun hnone => ?_, fun _ => h⟩
  rw [h.filters.bound] at hnone
  cases hnone

/-- A matcher bound to another snapshot knows nothing about the catalog that could be wrong. -/
theorem ready_of_snapshot_ne (hbound : m.filters.snapshot = some d.snapshot)
    (hne : d.snapshot ≠ c.snapshot) : m.Ready c := by
  refine ⟨fun hnone => ?_, fun hsome => ?_⟩
  · rw [hbound] at hnone
    cases hnone
  · rw [hbound] at hsome
    exact absurd (Option.some.inj hsome) hne

theorem serves_bind (h : m.Ready c) : (m.bind c).Serves c := by
  by_cases hbound : m.filters.snapshot = some c.snapshot
  · have hstale : m.filters.isStale c = false := by
      simp [FilterMemo.isStale, hbound]
    have hsame : m.bind c = m := by
      rw [bind, hstale, FilterMemo.bind_of_bound hbound]
      rfl
    rw [hsame]
    exact h.serves hbound
  · have hknown : (m.bind c).known = [] := by
      cases hnone : m.filters.snapshot with
      | none =>
          have hstale : m.filters.isStale c = false := by
            simp [FilterMemo.isStale, hnone]
          rw [bind, hstale]
          exact h.unbound hnone
      | some k =>
          have hstale : m.filters.isStale c = true := by
            rw [hnone] at hbound
            simp only [FilterMemo.isStale, hnone, Option.isSome_some, Bool.true_and, bne_iff_ne]
            exact hbound
          rw [bind, hstale]
          rfl
    have hfilters : (m.bind c).filters = { m.filters with snapshot := some c.snapshot, known := [] } := by
      rw [bind, FilterMemo.bind, if_neg hbound]
    refine ⟨⟨?_, ?_⟩, ?_⟩
    · rw [hfilters]
    · rw [hfilters]
      exact nofun
    · rw [hknown]
      exact nofun

theorem candidate_eq (h : m.Ready c) (jobFilter : Option String) (a : Alternative) :
    (m.candidate c jobFilter a).2 = c.candidate jobFilter a ∧
      (m.candidate c jobFilter a).1.Serves c := by
  have hbind := serves_bind h
  simp only [candidate]
  cases hknown : (m.bind c).known.get? (a.shape jobFilter) with
  | some found => exact ⟨(hbind.right _ found hknown jobFilter a rfl).symm, hbind⟩
  | none =>
      simp only [Catalog.candidate]
      cases hfault : a.fault? with
      | some e => exact ⟨rfl, hbind⟩
      | none =>
          obtain ⟨hparts, hfilters⟩ := FilterMemo.matchParts_eq hbind.filters jobFilter a.parts
          obtain ⟨filters, answer, hmatch⟩ :
              ∃ filters answer, (m.bind c).filters.matchParts c jobFilter a.parts =
                (filters, answer) :=
            ⟨_, _, rfl⟩
          rw [hmatch] at hparts hfilters
          simp only [hmatch, ← hparts]
          cases answer with
          | error e => exact ⟨rfl, hfilters, hbind.right⟩
          | ok parts =>
              cases hcheck : c.checkCandidate a parts with
              | error e =>
                  simp only [hcheck, true_and]
                  exact ⟨hfilters, hbind.right⟩
              | ok found =>
                  have hfound : c.candidate jobFilter a = .ok found := by
                    simp only [Catalog.candidate, hfault, ← hparts, hcheck]
                  simp only [hcheck, true_and]
                  refine ⟨hfilters, fun shape other hother g b hb => ?_⟩
                  rw [Dictionary.get?_put] at hother
                  split at hother
                  · rename_i heq
                    rw [← Option.some.inj hother]
                    exact Catalog.candidate_of_shape_eq (heq.trans hb.symm) hfound
                  · exact hbind.right shape other hother g b hb

theorem candidates_eq (h : m.Ready c) (jobFilter : Option String) (alternatives : List Alternative) :
    (m.candidates c jobFilter alternatives).2 = alternatives.map (c.candidate jobFilter) ∧
      (alternatives ≠ [] → (m.candidates c jobFilter alternatives).1.Serves c) := by
  induction alternatives generalizing m with
  | nil => exact ⟨rfl, fun hne => absurd rfl hne⟩
  | cons a rest ih =>
      obtain ⟨hfirst, hserves⟩ := candidate_eq h jobFilter a
      obtain ⟨hothers, hserves'⟩ := ih hserves.ready
      refine ⟨?_, fun _ => ?_⟩
      · simp only [candidates, List.map_cons, hfirst, hothers]
      · cases rest with
        | nil => exact hserves
        | cons b rest => exact hserves' nofun

/-- The ways in which a matcher is used. -/
inductive Use where
  | bind (c : Catalog)
  | candidate (c : Catalog) (jobFilter : Option String) (a : Alternative)
  | forJob (c : Catalog) (job : Job)
  | validate (c : Catalog) (job : Job)

def Use.catalog : Use → Catalog
  | .bind c | .candidate c _ _ | .forJob c _ | .validate c _ => c

def use (m : Matcher) : Use → Matcher
  | .bind c => m.bind c
  | .candidate c jobFilter a => (m.candidate c jobFilter a).1
  | .forJob c job => (m.forJob c job).1
  | .validate c job => (m.validate c job).1

/-- A matcher after some uses. -/
def after (uses : List Use) : Matcher := uses.foldl use empty

/-- No snapshot is that of two catalogs. -/
def SnapshotsApart (catalogs : List Catalog) : Prop :=
  ∀ c ∈ catalogs, ∀ d ∈ catalogs, c.snapshot = d.snapshot → c = d

theorem snapshotsApart_singleton (c : Catalog) : SnapshotsApart [c] := by
  intro d hd e he _
  rw [List.mem_singleton] at hd he
  rw [hd, he]

/-- A use leaves the matcher as it is, or bound to the catalog that it was about. -/
theorem use_cases (u : Use) (h : m.Ready u.catalog) : m.use u = m ∨ (m.use u).Serves u.catalog := by
  have hjob : ∀ (job : Job), job.alternatives ≠ [] →
      (m.forJob u.catalog job).1.Serves u.catalog := fun job =>
    (candidates_eq h job.filter job.alternatives).2
  cases u with
  | bind d => exact Or.inr (serves_bind h)
  | candidate d jobFilter a => exact Or.inr (candidate_eq h jobFilter a).2
  | forJob d job =>
      by_cases hnone : job.alternatives = []
      · left
        simp only [use, forJob, hnone, candidates]
      · exact Or.inr (hjob job hnone)
  | validate d job =>
      by_cases hnone : job.alternatives = []
      · left
        simp only [use, validate, hnone, if_true]
      · right
        have hserves := hjob job hnone
        simp only [use, validate, hnone, if_false]
        split <;> exact hserves

theorem ready_use {catalogs : List Catalog} (hapart : SnapshotsApart catalogs) (u : Use)
    (hu : u.catalog ∈ catalogs) (h : ∀ d ∈ catalogs, m.Ready d) :
    ∀ d ∈ catalogs, (m.use u).Ready d := by
  intro d hd
  rcases use_cases u (h u.catalog hu) with hsame | hserves
  · rw [hsame]
    exact h d hd
  · by_cases heq : u.catalog.snapshot = d.snapshot
    · rw [← hapart u.catalog hu d hd heq]
      exact hserves.ready
    · exact ready_of_snapshot_ne hserves.filters.bound heq

theorem ready_after {uses : List Use} (hapart : SnapshotsApart (c :: uses.map Use.catalog)) :
    (after uses).Ready c := by
  have hrun : ∀ (rest : List Use) (m : Matcher), (∀ u ∈ rest, u ∈ uses) →
      (∀ d ∈ c :: uses.map Use.catalog, m.Ready d) →
      ∀ d ∈ c :: uses.map Use.catalog, (rest.foldl use m).Ready d := by
    intro rest
    induction rest with
    | nil => exact fun m _ h => h
    | cons u rest ih =>
        intro m hrest h
        obtain ⟨hu, hrest⟩ := List.forall_mem_cons.1 hrest
        exact ih (m.use u) hrest
          (ready_use hapart u (List.mem_cons_of_mem _ (List.mem_map_of_mem hu)) h)
  exact hrun uses empty (fun _ hu => hu) (fun d _ => ready_empty d) c List.mem_cons_self

end Matcher

end ClusterPlan
