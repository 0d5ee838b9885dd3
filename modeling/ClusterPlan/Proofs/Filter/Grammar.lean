import ClusterPlan.Filter.Parser
import ClusterPlan.Proofs.Filter.Lexing

/-!
The grammar of filters as derivations of token lists, and that the parser finds exactly the filters
that have one. A derivation of a chain of disjuncts or conjuncts starts from the filter on its left.
-/

namespace ClusterPlan.Filter

section Keywords

variable {t : Token} {k l : String}

theorem not_isKeyword (h : isKeyword k t) (hne : Text.lower k ≠ Text.lower l) :
    isKeyword l t = false := by
  cases t with
  | word w =>
      simp only [isKeyword, Text.sameIgnoringCase, beq_iff_eq] at h
      simp only [isKeyword, Text.sameIgnoringCase, beq_eq_false_iff_ne, h]
      exact hne
  | _ => cases h

end Keywords

section Predicates

/-- The value that a token stands for. -/
def valueOf? : Token → Option String
  | .word v | .quoted v => some v
  | _ => none

/-- The values of a list after its first one, up to the closing parenthesis. -/
inductive MoreValues : List Token → List String → Prop
  | done : MoreValues [.closing] []
  | next {t : Token} {v : String} {ts : List Token} {vs : List String} (hvalue : valueOf? t = some v)
      (hrest : MoreValues ts vs) : MoreValues (.comma :: t :: ts) (v :: vs)

/-- Values in parentheses, at least one. -/
inductive Listing : List Token → List String → Prop
  | enclosed {t : Token} {v : String} {ts : List Token} {vs : List String}
      (hvalue : valueOf? t = some v) (hrest : MoreValues ts vs) :
      Listing (.opening :: t :: ts) (v :: vs)

/-- What is said of one property. Its name is a word, but not the keyword of a negation. -/
inductive Predicate : List Token → Filter → Prop
  | compare {p v : String} {c : Comparison} {t : Token} (hname : isKeyword "not" (.word p) = false)
      (hvalue : valueOf? t = some v) :
      Predicate [.word p, .comparison c, t] (.compare p c v)
  | among {p : String} {t : Token} {ts : List Token} {vs : List String}
      (hname : isKeyword "not" (.word p) = false) (hin : isKeyword "in" t)
      (hvalues : Listing ts vs) : Predicate (.word p :: t :: ts) (.among p vs false)
  | notAmong {p : String} {t u : Token} {ts : List Token} {vs : List String}
      (hname : isKeyword "not" (.word p) = false) (hnot : isKeyword "not" t)
      (hin : isKeyword "in" u) (hvalues : Listing ts vs) :
      Predicate (.word p :: t :: u :: ts) (.among p vs true)

variable {ts rest : List Token} {p v : String} {vs : List String} {f : Filter} {negated : Bool}

theorem value?_eq_ok_iff :
    value? ts = .ok (v, rest) ↔ ∃ t, valueOf? t = some v ∧ ts = t :: rest := by
  constructor
  · intro h
    unfold value? at h
    split at h
    · cases h
      exact ⟨_, rfl, rfl⟩
    · cases h
      exact ⟨_, rfl, rfl⟩
    · cases h
  · rintro ⟨t, ht, rfl⟩
    cases t <;> cases ht <;> rfl

theorem moreValues_eq_ok_iff :
    moreValues ts = .ok (vs, rest) ↔ ∃ used, ts = used ++ rest ∧ MoreValues used vs := by
  constructor
  · intro h
    fun_induction moreValues ts generalizing vs with
    | case1 rest' =>
        cases h
        exact ⟨_, rfl, .done⟩
    | case2 v rest' ih | case3 v rest' ih =>
        obtain ⟨⟨others, after⟩, hmore, hvs⟩ := bind_eq_ok_iff.1 h
        cases hvs
        obtain ⟨used, rfl, hused⟩ := ih hmore
        exact ⟨_, rfl, .next rfl hused⟩
    | case4 => cases h
    | case5 => cases h
  · rintro ⟨used, rfl, hused⟩
    induction hused with
    | done => rfl
    | @next t v ts vs hvalue _ ih =>
        cases t <;> cases hvalue <;>
          exact bind_eq_ok_iff.2 ⟨_, ih, rfl⟩

theorem listing_eq_ok_iff :
    listing p negated ts = .ok (f, rest) ↔
      ∃ used vs, ts = used ++ rest ∧ Listing used vs ∧ f = .among p vs negated := by
  constructor
  · intro h
    unfold listing at h
    split at h
    · obtain ⟨⟨first, mid⟩, hfirst, h⟩ := bind_eq_ok_iff.1 h
      obtain ⟨⟨others, after⟩, hothers, h⟩ := bind_eq_ok_iff.1 h
      cases h
      obtain ⟨t, ht, rfl⟩ := value?_eq_ok_iff.1 hfirst
      obtain ⟨used, rfl, hused⟩ := moreValues_eq_ok_iff.1 hothers
      exact ⟨_, _, rfl, .enclosed ht hused, rfl⟩
    · cases h
  · rintro ⟨used, vs, rfl, hused, rfl⟩
    obtain ⟨hvalue, hrest⟩ := hused
    exact bind_eq_ok_iff.2 ⟨_, value?_eq_ok_iff.2 ⟨_, hvalue, rfl⟩,
      bind_eq_ok_iff.2 ⟨_, moreValues_eq_ok_iff.2 ⟨_, rfl, hrest⟩, rfl⟩⟩

/-- After the name of a property. -/
theorem predicate_of_afterProperty (hname : isKeyword "not" (.word p) = false)
    (h : afterProperty p ts = .ok (f, rest)) :
    ∃ used, ts = used ++ rest ∧ Predicate (.word p :: used) f := by
  unfold afterProperty at h
  split at h
  · split at h
    · rename_i hnot
      split at h
      · split at h
        · rename_i hin
          obtain ⟨used, vs, rfl, hlist, rfl⟩ := listing_eq_ok_iff.1 h
          exact ⟨_, rfl, .notAmong hname hnot hin hlist⟩
        · cases h
      · cases h
    · split at h
      · rename_i hin
        obtain ⟨used, vs, rfl, hlist, rfl⟩ := listing_eq_ok_iff.1 h
        exact ⟨_, rfl, .among hname hin hlist⟩
      · split at h
        · obtain ⟨⟨v, after⟩, hvalue, h⟩ := bind_eq_ok_iff.1 h
          cases h
          obtain ⟨t, ht, rfl⟩ := value?_eq_ok_iff.1 hvalue
          exact ⟨_, rfl, .compare hname ht⟩
        · cases h
  · cases h

theorem predicate_of_eq_ok (hfirst : ∀ t ∈ ts.head?, isKeyword "not" t = false)
    (h : predicate ts = .ok (f, rest)) : ∃ used, ts = used ++ rest ∧ Predicate used f := by
  unfold predicate at h
  split at h
  · obtain ⟨used, rfl, hused⟩ := predicate_of_afterProperty (hfirst _ rfl) h
    exact ⟨_, rfl, hused⟩
  · cases h

theorem Predicate.exists_word (h : Predicate ts f) :
    ∃ p us, ts = .word p :: us ∧ isKeyword "not" (.word p) = false := by
  cases h with
  | compare hname _ | among hname _ _ | notAmong hname _ _ _ => exact ⟨_, _, rfl, hname⟩

theorem predicate_append (h : Predicate ts f) (rest : List Token) :
    predicate (ts ++ rest) = .ok (f, rest) := by
  cases h with
  | @compare p v c t hname hvalue =>
      exact bind_eq_ok_iff.2 ⟨(v, rest), value?_eq_ok_iff.2 ⟨t, hvalue, rfl⟩, rfl⟩
  | @among p t ts vs hname hin hvalues =>
      have hnot := not_isKeyword (l := "not") hin (by decide)
      have hlist : listing p false (ts ++ rest) = .ok (.among p vs false, rest) :=
        listing_eq_ok_iff.2 ⟨ts, vs, rfl, hvalues, rfl⟩
      simp [predicate, afterProperty, hnot, hin, hlist]
  | @notAmong p t u ts vs hname hnot hin hvalues =>
      have hlist : listing p true (ts ++ rest) = .ok (.among p vs true, rest) :=
        listing_eq_ok_iff.2 ⟨ts, vs, rfl, hvalues, rfl⟩
      simp [predicate, afterProperty, hnot, hin, hlist]

end Predicates

section Derivations

/-- The kinds of text that the parser reads. -/
inductive Phrase where
  | disjunction
  /-- What may follow conjunctions joined by OR, which are read as `left`. -/
  | disjuncts (left : Filter)
  | conjunction
  /-- What may follow operands joined by AND, which are read as `left`. -/
  | conjuncts (left : Filter)
  | operand

/-- The tokens are a phrase of the kind, and it stands for the filter. -/
inductive Derives : Phrase → List Token → Filter → Prop
  | disjunction {ts us : List Token} {first f : Filter} (hfirst : Derives .conjunction ts first)
      (hothers : Derives (.disjuncts first) us f) : Derives .disjunction (ts ++ us) f
  | noDisjunct {left : Filter} : Derives (.disjuncts left) [] left
  | disjunct {t : Token} {ts us : List Token} {left right f : Filter} (hor : isKeyword "or" t)
      (hright : Derives .conjunction ts right)
      (hothers : Derives (.disjuncts (.or left right)) us f) :
      Derives (.disjuncts left) (t :: (ts ++ us)) f
  | conjunction {ts us : List Token} {first f : Filter} (hfirst : Derives .operand ts first)
      (hothers : Derives (.conjuncts first) us f) : Derives .conjunction (ts ++ us) f
  | noConjunct {left : Filter} : Derives (.conjuncts left) [] left
  | conjunct {t : Token} {ts us : List Token} {left right f : Filter} (hand : isKeyword "and" t)
      (hright : Derives .operand ts right)
      (hothers : Derives (.conjuncts (.and left right)) us f) :
      Derives (.conjuncts left) (t :: (ts ++ us)) f
  | negation {t : Token} {ts : List Token} {inner : Filter} (hnot : isKeyword "not" t)
      (hinner : Derives .operand ts inner) : Derives .operand (t :: ts) (.not inner)
  | enclosed {ts : List Token} {f : Filter} (hinner : Derives .disjunction ts f) :
      Derives .operand (.opening :: (ts ++ [.closing])) f
  | predicate {ts : List Token} {f : Filter} (h : Predicate ts f) : Derives .operand ts f

namespace Phrase

/-- The function of the parser for the kind. -/
def read : Phrase → Nat → List Token → Except Stop (Filter × List Token)
  | disjunction => Filter.disjunction
  | disjuncts left => fun n => Filter.moreDisjuncts n left
  | conjunction => Filter.conjunction
  | conjuncts left => fun n => Filter.moreConjuncts n left
  | operand => Filter.operand

/-- Steps that are enough to read a phrase of `n` tokens. -/
def steps : Phrase → Nat → Nat
  | disjunction, n => 3 * n + 3
  | conjunction, n => 3 * n + 2
  | disjuncts _, n | conjuncts _, n | operand, n => 3 * n + 1

theorem exists_succ {p : Phrase} {m n : Nat} (h : p.steps m ≤ n) : ∃ k, n = k + 1 := by
  refine ⟨n - 1, ?_⟩
  cases p <;> simp only [steps] at h <;> omega

/-- Whether a phrase of the kind would go on with the token. -/
def joins : Phrase → Token → Bool
  | disjunction, t | disjuncts _, t => isKeyword "or" t || isKeyword "and" t
  | conjunction, t | conjuncts _, t => isKeyword "and" t
  | operand, _ => false

/-- A phrase of the kind ends before the tokens. -/
def EndsBefore (p : Phrase) (rest : List Token) : Prop := ∀ t ∈ rest.head?, p.joins t = false

end Phrase

variable {p : Phrase} {ts rest : List Token} {f : Filter}

theorem derives_of_read (n : Nat) (h : p.read n ts = .ok (f, rest)) :
    ∃ used, ts = used ++ rest ∧ Derives p used f := by
  induction n generalizing p ts f rest with
  | zero => cases p <;> cases h
  | succ n ih =>
      cases p with
      | disjunction =>
          obtain ⟨⟨first, mid⟩, hfirst, hmore⟩ := bind_eq_ok_iff.1 h
          obtain ⟨used, rfl, hused⟩ := ih (p := .conjunction) hfirst
          obtain ⟨others, rfl, hothers⟩ := ih (p := .disjuncts first) hmore
          exact ⟨_, (List.append_assoc ..).symm, .disjunction hused hothers⟩
      | disjuncts left =>
          simp only [Phrase.read, moreDisjuncts] at h
          split at h
          · split at h
            · rename_i hor
              obtain ⟨⟨right, mid⟩, hright, hmore⟩ := bind_eq_ok_iff.1 h
              obtain ⟨used, rfl, hused⟩ := ih (p := .conjunction) hright
              obtain ⟨others, rfl, hothers⟩ := ih (p := .disjuncts (.or left right)) hmore
              exact ⟨_, by simp, .disjunct hor hused hothers⟩
            · cases h
              exact ⟨[], rfl, .noDisjunct⟩
          · cases h
            exact ⟨[], rfl, .noDisjunct⟩
      | conjunction =>
          obtain ⟨⟨first, mid⟩, hfirst, hmore⟩ := bind_eq_ok_iff.1 h
          obtain ⟨used, rfl, hused⟩ := ih (p := .operand) hfirst
          obtain ⟨others, rfl, hothers⟩ := ih (p := .conjuncts first) hmore
          exact ⟨_, (List.append_assoc ..).symm, .conjunction hused hothers⟩
      | conjuncts left =>
          simp only [Phrase.read, moreConjuncts] at h
          split at h
          · split at h
            · rename_i hand
              obtain ⟨⟨right, mid⟩, hright, hmore⟩ := bind_eq_ok_iff.1 h
              obtain ⟨used, rfl, hused⟩ := ih (p := .operand) hright
              obtain ⟨others, rfl, hothers⟩ := ih (p := .conjuncts (.and left right)) hmore
              exact ⟨_, by simp, .conjunct hand hused hothers⟩
            · cases h
              exact ⟨[], rfl, .noConjunct⟩
          · cases h
            exact ⟨[], rfl, .noConjunct⟩
      | operand =>
          simp only [Phrase.read, operand] at h
          split at h
          · split at h
            · rename_i hnot
              obtain ⟨⟨inner, mid⟩, hinner, h⟩ := bind_eq_ok_iff.1 h
              cases h
              obtain ⟨used, rfl, hused⟩ := ih (p := .operand) hinner
              exact ⟨_, rfl, .negation hnot hused⟩
            · rename_i hnot
              split at h
              · rename_i hopening
                obtain ⟨⟨inner, mid⟩, hinner, hclose⟩ := bind_eq_ok_iff.1 h
                obtain ⟨used, rfl, hused⟩ := ih (p := .disjunction) hinner
                dsimp only at hclose
                split at hclose
                · cases hclose
                  subst hopening
                  exact ⟨_, by simp, .enclosed hused⟩
                · cases hclose
              · obtain ⟨used, hts, hused⟩ := predicate_of_eq_ok (by simpa using hnot) h
                exact ⟨used, hts, .predicate hused⟩
          · cases h

/-- What comes after a conjunct or a chain of disjuncts does not belong to a conjunction. -/
theorem endsBefore_of_disjuncts {left : Filter} (h : Derives (.disjuncts left) ts f)
    (hrest : Phrase.disjunction.EndsBefore rest) : Phrase.conjunction.EndsBefore (ts ++ rest) := by
  cases h with
  | noDisjunct =>
      intro t ht
      exact (Bool.or_eq_false_iff.1 (hrest t ht)).2
  | disjunct hor =>
      intro t ht
      cases ht
      exact not_isKeyword hor (by decide)

theorem read_of_derives (h : Derives p ts f) {n : Nat} (hn : p.steps ts.length ≤ n)
    (hrest : p.EndsBefore rest) : p.read n (ts ++ rest) = .ok (f, rest) := by
  induction h generalizing n rest with
  | @disjunction ts us first f _ hothers ihfirst ihothers =>
      obtain ⟨n, rfl⟩ := Phrase.exists_succ hn
      simp only [Phrase.steps, List.length_append] at hn ihfirst ihothers
      have hfirst' := ihfirst (n := n) (by omega) (endsBefore_of_disjuncts hothers hrest)
      have hothers' := ihothers (n := n) (by omega) hrest
      rw [List.append_assoc]
      exact bind_eq_ok_iff.2 ⟨_, hfirst', hothers'⟩
  | @noDisjunct left =>
      obtain ⟨n, rfl⟩ := Phrase.exists_succ hn
      cases rest with
      | nil => rfl
      | cons t rest =>
          have hor := (Bool.or_eq_false_iff.1 (hrest t rfl)).1
          simp [Phrase.read, moreDisjuncts, hor]
  | @disjunct t ts us left right f hor _ hothers ihright ihothers =>
      obtain ⟨n, rfl⟩ := Phrase.exists_succ hn
      simp only [Phrase.steps, List.length_append, List.length_cons] at hn ihright ihothers
      have hright' := ihright (n := n) (by omega) (endsBefore_of_disjuncts hothers hrest)
      have hothers' := ihothers (n := n) (by omega) hrest
      simp only [Phrase.read, List.cons_append, moreDisjuncts, hor, if_true, List.append_assoc]
      exact bind_eq_ok_iff.2 ⟨_, hright', hothers'⟩
  | @conjunction ts us first f _ hothers ihfirst ihothers =>
      obtain ⟨n, rfl⟩ := Phrase.exists_succ hn
      simp only [Phrase.steps, List.length_append] at hn ihfirst ihothers
      have hends : Phrase.operand.EndsBefore (us ++ rest) := fun _ _ => rfl
      have hfirst' := ihfirst (n := n) (by omega) hends
      have hothers' := ihothers (n := n) (by omega) hrest
      rw [List.append_assoc]
      exact bind_eq_ok_iff.2 ⟨_, hfirst', hothers'⟩
  | @noConjunct left =>
      obtain ⟨n, rfl⟩ := Phrase.exists_succ hn
      cases rest with
      | nil => rfl
      | cons t rest =>
          have hand : isKeyword "and" t = false := hrest t rfl
          simp [Phrase.read, moreConjuncts, hand]
  | @conjunct t ts us left right f hand _ hothers ihright ihothers =>
      obtain ⟨n, rfl⟩ := Phrase.exists_succ hn
      simp only [Phrase.steps, List.length_append, List.length_cons] at hn ihright ihothers
      have hends : Phrase.operand.EndsBefore (us ++ rest) := fun _ _ => rfl
      have hright' := ihright (n := n) (by omega) hends
      have hothers' := ihothers (n := n) (by omega) hrest
      simp only [Phrase.read, List.cons_append, moreConjuncts, hand, if_true, List.append_assoc]
      exact bind_eq_ok_iff.2 ⟨_, hright', hothers'⟩
  | @negation t ts inner hnot _ ih =>
      obtain ⟨n, rfl⟩ := Phrase.exists_succ hn
      simp only [Phrase.steps, List.length_cons] at hn ih
      have hends : Phrase.operand.EndsBefore rest := fun _ _ => rfl
      have hinner' := ih (n := n) (by omega) hends
      simp only [Phrase.read, List.cons_append, operand, hnot, if_true]
      exact bind_eq_ok_iff.2 ⟨_, hinner', rfl⟩
  | @enclosed ts f _ ih =>
      obtain ⟨n, rfl⟩ := Phrase.exists_succ hn
      simp only [Phrase.steps, List.length_cons, List.length_append, List.length_nil] at hn ih
      have hends : Phrase.disjunction.EndsBefore (.closing :: rest) := by
        intro t ht
        cases ht
        rfl
      have hinner' := ih (n := n) (by omega) hends
      have hnot : isKeyword "not" .opening = false := rfl
      simp only [Phrase.read, List.cons_append, List.append_assoc, operand, hnot, if_true,
        List.nil_append]
      exact bind_eq_ok_iff.2 ⟨_, hinner', rfl⟩
  | @predicate ts f h =>
      obtain ⟨n, rfl⟩ := Phrase.exists_succ hn
      obtain ⟨name, us, rfl, hname⟩ := h.exists_word
      have hpredicate := predicate_append h rest
      rw [List.cons_append] at hpredicate
      simp [Phrase.read, operand, hname, hpredicate]

theorem parseTokens_eq_ok_iff : parseTokens ts = .ok f ↔ Derives .disjunction ts f := by
  constructor
  · intro h
    obtain ⟨⟨found, rest⟩, hread, h⟩ := bind_eq_ok_iff.1 h
    dsimp only at h
    split at h
    · rename_i hnil
      cases h
      obtain ⟨used, rfl, hused⟩ := derives_of_read (p := .disjunction) (3 * ts.length + 3) hread
      rw [hnil, List.append_nil]
      exact hused
    · cases h
  · intro h
    have hends : Phrase.disjunction.EndsBefore [] := nofun
    have hread := read_of_derives h (Nat.le_refl _) hends
    rw [List.append_nil] at hread
    exact bind_eq_ok_iff.2 ⟨_, hread, rfl⟩

end Derivations

/-- A text is accepted if its tokens have a derivation. -/
theorem parse_eq_ok_iff {s : String} {f : Filter} :
    parse s = .ok f ↔ ∃ ts, tokens s.toList = .ok ts ∧ Derives .disjunction ts f := by
  simp only [← parseTokens_eq_ok_iff, parse]
  cases tokens s.toList with
  | error fault => exact ⟨nofun, nofun⟩
  | ok ts =>
      cases hparse : parseTokens ts with
      | error stop => simp [hparse]
      | ok g => simp [hparse]

theorem parse_trim_eq_ok_iff {s : String} {f : Filter} :
    parse (Text.trim s) = .ok f ↔ parse s = .ok f := by
  rw [parse_eq_ok_iff, parse_eq_ok_iff, Text.trim, String.toList_ofList, tokens_trimChars]

end ClusterPlan.Filter
