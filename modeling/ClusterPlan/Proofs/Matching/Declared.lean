import ClusterPlan.Proofs.Matching.Memory

/-!
What an answer of the matcher keeps of the alternative it is for. The answer may have been found for
another job, but it has the id that is asked for, and it lasts as long as the alternative declares, since
the shape under which it is known says how long.
-/

namespace ClusterPlan

/-- What a commitment takes from an alternative: its id and its walltime, but no groups. -/
def Alternative.declared (a : Alternative) : Candidate := ⟨a.id, a.walltime, []⟩

/-- The candidate is one for the alternative, as far as a commitment can tell. -/
structure Candidate.Answers (c : Candidate) (a : Alternative) : Prop where
  id : c.id = a.id
  walltime : c.walltime = a.walltime

namespace Matcher

variable {m : Matcher} {c : Catalog} {jobFilter : Option String}

/-- What is known for a shape lasts as long as the shape says. -/
def Timed (m : Matcher) : Prop :=
  ∀ shape found, m.known.get? shape = some found → found.walltime = shape.walltime

theorem timed_empty : empty.Timed := nofun

theorem Timed.bind (h : m.Timed) (c : Catalog) : (m.bind c).Timed := by
  simp only [Timed, Matcher.bind]
  split
  · intro shape found hnone
    cases hnone
  · exact h

/-- One alternative is matched: the answer is one for it, and the matcher stays as it has to be. -/
theorem Timed.candidate (h : m.Timed) (a : Alternative) :
    (m.candidate c jobFilter a).1.Timed ∧
      ∀ found, (m.candidate c jobFilter a).2 = .ok found → found.Answers a := by
  have hbind := h.bind c
  have herror : ∀ (e : Error) (found : Candidate), .error e = Except.ok found → found.Answers a := by
    intro e found herr
    cases herr
  simp only [Matcher.candidate]
  cases hknown : (m.bind c).known.get? (a.shape jobFilter) with
  | some known =>
      refine ⟨hbind, ?_⟩
      rintro _ ⟨⟩
      exact ⟨rfl, hbind _ known hknown⟩
  | none =>
      cases a.fault? with
      | some e => exact ⟨hbind, herror e⟩
      | none =>
          obtain ⟨filters, answer, hmatch⟩ :
              ∃ filters answer, (m.bind c).filters.matchParts c jobFilter a.parts =
                (filters, answer) :=
            ⟨_, _, rfl⟩
          cases answer with
          | error e =>
              simp only [hmatch]
              exact ⟨hbind, herror e⟩
          | ok parts =>
              cases hcheck : c.checkCandidate a parts with
              | error e =>
                  simp only [hmatch, hcheck]
                  exact ⟨hbind, herror e⟩
              | ok found =>
                  obtain ⟨hfound, _⟩ := Catalog.checkCandidate_eq_ok_iff.1 hcheck
                  have hanswers : found.Answers a := by
                    rw [hfound]
                    exact ⟨rfl, rfl⟩
                  simp only [hmatch, hcheck]
                  refine ⟨fun shape other hother => ?_, ?_⟩
                  · rw [Dictionary.get?_put] at hother
                    split at hother
                    · rename_i heq
                      cases hother
                      rw [hanswers.walltime, ← heq]
                      rfl
                    · exact hbind shape other hother
                  · rintro _ ⟨⟩
                    exact hanswers

theorem Timed.candidates (h : m.Timed) (alternatives : List Alternative) :
    (m.candidates c jobFilter alternatives).1.Timed ∧
      ∀ a found, (a, .ok found) ∈ alternatives.zip (m.candidates c jobFilter alternatives).2 →
        found.Answers a := by
  induction alternatives generalizing m with
  | nil => exact ⟨h, nofun⟩
  | cons b rest ih =>
      obtain ⟨hfirst, hanswers⟩ := @Timed.candidate m c jobFilter h b
      obtain ⟨hrest, hothers⟩ := ih hfirst
      refine ⟨hrest, fun a found hmem => ?_⟩
      rcases List.mem_cons.1 hmem with heq | hmem
      · obtain ⟨rfl, hok⟩ := Prod.mk.inj heq
        exact hanswers found hok.symm
      · exact hothers a found hmem

theorem Timed.forJob (h : m.Timed) (job : Job) : (m.forJob c job).1.Timed := (h.candidates _).1

theorem answers_of_mem_zip (h : m.Timed) {job : Job} {a : Alternative} {found : Candidate}
    (hmem : (a, .ok found) ∈ job.alternatives.zip (m.forJob c job).2) : found.Answers a :=
  (h.candidates _).2 a found hmem

/-- There is one answer for each alternative. -/
theorem length_forJob (m : Matcher) (c : Catalog) (job : Job) :
    (m.forJob c job).2.length = job.alternatives.length := by
  rw [forJob]
  induction job.alternatives generalizing m with
  | nil => rfl
  | cons a rest ih => exact congrArg (· + 1) (ih _)

theorem Timed.use (h : m.Timed) (u : Use) : (m.use u).Timed := by
  cases u with
  | bind d => exact h.bind d
  | candidate d jobFilter a => exact (h.candidate a).1
  | forJob d job => exact h.forJob job
  | validate d job =>
      simp only [Matcher.use, validate]
      split
      · exact h
      · split <;> exact h.forJob job

theorem timed_after (uses : List Use) : (after uses).Timed := by
  have hrun : ∀ m : Matcher, m.Timed → (uses.foldl Matcher.use m).Timed := by
    induction uses with
    | nil => exact fun m h => h
    | cons u rest ih => exact fun m h => ih _ (h.use u)
  exact hrun empty timed_empty

end Matcher
end ClusterPlan
