import ClusterPlan.Proofs.Filter.Grammar

/-!
Two filters in parentheses, joined by AND. The whole is accepted exactly if both are, with two
exceptions. A text reaches out of the parentheses around it if it closes one that it did not open; the
whole may then be a filter if as many are opened as closed in all. And a quotation that the first text
leaves open may be closed in the second, with lexemes behind it.
-/

namespace ClusterPlan.Filter

/-- How many parentheses are open after the tokens, if `n` are before them, and none if one is
closed that is not open. -/
def open? : Nat → List Token → Option Nat
  | n, [] => some n
  | n, .opening :: ts => open? (n + 1) ts
  | 0, .closing :: _ => none
  | n + 1, .closing :: ts => open? n ts
  | n, .word _ :: ts | n, .quoted _ :: ts | n, .comparison _ :: ts | n, .comma :: ts => open? n ts

section Depth

variable {n k m : Nat} {t : Token} {ts us vs xs ys : List Token}

theorem open?_append (n : Nat) (ts us : List Token) :
    open? n (ts ++ us) = (open? n ts).bind fun k => open? k us := by
  fun_induction open? n ts with
  | case1 => rfl
  | case2 n ts ih => exact ih
  | case3 ts => rfl
  | case4 n ts ih => exact ih
  | case5 n _ ts ih | case6 n _ ts ih | case7 n _ ts ih | case8 n ts ih =>
      rw [List.cons_append, open?, ih]

/-- Parentheses that are open before the tokens stay open. -/
theorem open?_add (h : open? n ts = some k) (m : Nat) : open? (n + m) ts = some (k + m) := by
  fun_induction open? n ts with
  | case1 n =>
      cases h
      rfl
  | case2 n ts ih =>
      rw [open?, Nat.add_right_comm]
      exact ih h
  | case3 ts => cases h
  | case4 n ts ih =>
      rw [Nat.succ_add, open?]
      exact ih h
  | case5 n _ ts ih | case6 n _ ts ih | case7 n _ ts ih | case8 n ts ih =>
      rw [open?]
      exact ih h

/-- What is open afterwards and what is closed makes up for what was open and what is opened. -/
theorem add_count_of_open? (h : open? n ts = some k) :
    n + ts.count .opening = k + ts.count .closing := by
  fun_induction open? n ts with
  | case1 n =>
      cases h
      rfl
  | case2 n ts ih =>
      have hcount := ih h
      simp only [List.count_cons, beq_iff_eq, reduceCtorEq, if_true, if_false]
      omega
  | case3 ts => cases h
  | case4 n ts ih =>
      have hcount := ih h
      simp only [List.count_cons, beq_iff_eq, reduceCtorEq, if_true, if_false]
      omega
  | case5 n _ ts ih | case6 n _ ts ih | case7 n _ ts ih | case8 n ts ih =>
      simpa only [List.count_cons, beq_iff_eq, reduceCtorEq, if_false, Nat.add_zero]
        using ih h

theorem open?_of_isKeyword {word : String} (h : isKeyword word t) :
    open? n (t :: ts) = open? n ts := by
  cases t with
  | word w => rw [open?]
  | _ => cases h

theorem open?_of_valueOf {v : String} (h : valueOf? t = some v) :
    open? n (t :: ts) = open? n ts := by
  cases t with
  | word w => rw [open?]
  | quoted w => rw [open?]
  | _ => cases h

theorem open?_of_moreValues {values : List String} (h : MoreValues ts values) :
    open? (n + 1) ts = some n := by
  induction h with
  | done => rfl
  | next hvalue _ ih => rw [open?, open?_of_valueOf hvalue, ih]

theorem open?_of_listing {values : List String} (h : Listing ts values) :
    open? n ts = some n := by
  obtain ⟨hvalue, hrest⟩ := h
  rw [open?, open?_of_valueOf hvalue, open?_of_moreValues hrest]

theorem open?_of_predicate {f : Filter} (h : Predicate ts f) : open? n ts = some n := by
  cases h with
  | compare _ hvalue => rw [open?, open?, open?_of_valueOf hvalue, open?]
  | among _ hin hvalues => rw [open?, open?_of_isKeyword hin, open?_of_listing hvalues]
  | notAmong _ hnot hin hvalues =>
      rw [open?, open?_of_isKeyword hnot, open?_of_isKeyword hin, open?_of_listing hvalues]

/-- A filter closes exactly the parentheses that it opens. -/
theorem open?_of_derives {p : Phrase} {f : Filter} (h : Derives p ts f) : open? n ts = some n := by
  induction h generalizing n with
  | disjunction _ _ ihfirst ihothers | conjunction _ _ ihfirst ihothers =>
      rw [open?_append, ihfirst, Option.bind_some, ihothers]
  | noDisjunct | noConjunct => rw [open?]
  | disjunct hword _ _ ihright ihothers | conjunct hword _ _ ihright ihothers =>
      rw [open?_of_isKeyword hword, open?_append, ihright, Option.bind_some, ihothers]
  | negation hnot _ ih => rw [open?_of_isKeyword hnot, ih]
  | enclosed _ ih =>
      rw [open?, open?_append, ih, Option.bind_some]
      rfl
  | predicate h => exact open?_of_predicate h

/-- The parenthesis that closes an enclosed text is the first one that the text has not opened. -/
theorem eq_of_append_closing (hus : open? 0 us = some 0) (hvs : open? 0 vs = some 0)
    (h : us ++ .closing :: xs = vs ++ .closing :: ys) : us = vs ∧ xs = ys := by
  have hlonger : ∀ {us vs as xs ys : List Token}, open? 0 us = some 0 → open? 0 vs = some 0 →
      vs = us ++ as → .closing :: xs = as ++ .closing :: ys → as = [] := by
    intro us vs as xs ys hus hvs hsplit hclose
    cases as with
    | nil => rfl
    | cons t as =>
        cases hclose
        rw [hsplit, open?_append, hus] at hvs
        cases hvs
  rcases List.append_eq_append_iff.1 h with ⟨as, hsplit, hclose⟩ | ⟨as, hsplit, hclose⟩
  · obtain rfl := hlonger hus hvs hsplit hclose
    rw [List.append_nil] at hsplit
    exact ⟨hsplit.symm, (List.cons.inj hclose).2⟩
  · obtain rfl := hlonger hvs hus hsplit hclose
    rw [List.append_nil] at hsplit
    exact ⟨hsplit, (List.cons.inj hclose).2.symm⟩

end Depth

section Conjoined

variable {ts us rest after : List Token} {f : Filter} {s t : String}

/-- Both token lists in parentheses, with AND between them. -/
def conjoined (ts us : List Token) : List Token :=
  .opening :: (ts ++ .closing :: .word "AND" :: .opening :: (us ++ [.closing]))

theorem open?_conjoined {k m : Nat} (hts : open? 0 ts = some k) (hus : open? 0 us = some m) :
    open? 0 (conjoined ts us) = some (k + m) := by
  have hleft := open?_add hts 1
  have hright := open?_add hus (k + 1)
  rw [Nat.zero_add] at hright
  rw [conjoined, open?, open?_append, hleft, Option.bind_some, open?, open?, open?, open?_append,
    hright, Option.bind_some, Nat.add_comm k m]
  rfl

/-- An operand that begins with a parenthesis is what stands in the parentheses. -/
theorem derives_of_opening (h : Derives .operand ts f) (hus : open? 0 us = some 0)
    (hsplit : ts ++ rest = .opening :: (us ++ .closing :: after)) :
    Derives .disjunction us f ∧ rest = after := by
  cases h with
  | negation hnot =>
      obtain ⟨rfl, -⟩ := List.cons.inj hsplit
      cases hnot
  | @enclosed inner _ hinner =>
      rw [List.cons_append, List.append_assoc] at hsplit
      obtain ⟨rfl, rfl⟩ :=
        eq_of_append_closing (open?_of_derives hinner) hus (List.cons.inj hsplit).2
      exact ⟨hinner, rfl⟩
  | predicate h =>
      obtain ⟨name, others, rfl, -⟩ := h.exists_word
      cases hsplit

theorem derives_conjoined_iff (hts : (open? 0 ts).isSome) (hus : (open? 0 us).isSome) :
    Derives .disjunction (conjoined ts us) f ↔
      ∃ p q, Derives .disjunction ts p ∧ Derives .disjunction us q ∧ f = .and p q := by
  constructor
  · intro h
    obtain ⟨k, hk⟩ := Option.isSome_iff_exists.1 hts
    obtain ⟨m, hm⟩ := Option.isSome_iff_exists.1 hus
    have hclosed : k + m = 0 :=
      Option.some.inj ((open?_conjoined hk hm).symm.trans (open?_of_derives h))
    obtain ⟨rfl, rfl⟩ : k = 0 ∧ m = 0 := ⟨by omega, by omega⟩
    generalize hall : conjoined ts us = all at h
    cases h with
    | disjunction hconjunction hdisjuncts =>
      cases hconjunction with
      | conjunction hleft hconjuncts =>
        rw [conjoined, List.append_assoc] at hall
        obtain ⟨hp, hrest⟩ := derives_of_opening hleft hk hall.symm
        cases hconjuncts with
        | noConjunct =>
            -- Only a disjunct could come next, but AND is what comes.
            cases hdisjuncts with
            | noDisjunct => cases hrest
            | disjunct hor =>
                obtain ⟨rfl, -⟩ := List.cons.inj hrest
                exact absurd hor (by decide)
        | conjunct hand hright hmore =>
            rw [List.cons_append, List.append_assoc] at hrest
            obtain ⟨hq, hnil⟩ := derives_of_opening hright hm (List.cons.inj hrest).2
            obtain ⟨rfl, rfl⟩ := List.append_eq_nil_iff.1 hnil
            cases hmore
            cases hdisjuncts
            exact ⟨_, _, hp, hq, rfl⟩
  · rintro ⟨p, q, hp, hq, rfl⟩
    have hconjuncts : Derives (.conjuncts p)
        (.word "AND" :: ((.opening :: (us ++ [.closing])) ++ [])) (.and p q) :=
      .conjunct (by decide) (.enclosed hq) .noConjunct
    have hall := Derives.disjunction (.conjunction (.enclosed hp) hconjuncts) .noDisjunct
    simpa [conjoined] using hall

/-- Both texts in parentheses, with AND between them. -/
def conjoinedText (s t : String) : String := "(" ++ s ++ ") AND (" ++ t ++ ")"

section Lexemes

/-- What the joint text has behind the first text. -/
def closingText (t : String) : List Char :=
  [')', ' ', 'A', 'N', 'D', ' ', '('] ++ (t.toList ++ [')'])

theorem toList_conjoinedText (s t : String) :
    (conjoinedText s t).toList = '(' :: (s.toList ++ closingText t) := by
  simp [conjoinedText, closingText, String.toList_append]

theorem breaks_closingText (t : String) : Breaks (closingText t) :=
  breaks_cons (by decide) (by decide) (by decide)

theorem tokens_append_closing (cs : List Char) :
    tokens (cs ++ [')']) = do return (← tokens cs) ++ [.closing] := by
  have hlast : tokens [')'] = .ok [.closing] := by
    rw [tokens_closing, tokens_nil]
    rfl
  have hshut : Shut (tokens cs) [')'] := fun _ d hd => by
    rw [List.mem_singleton.1 hd]
    decide
  rw [tokens_append hshut (breaks_cons (by decide) (by decide) (by decide)), before, hlast]
  rfl

theorem tokens_conjoinedText (hclosed : tokens s.toList ≠ .error .unterminated) :
    tokens (conjoinedText s t).toList = do
      let ts ← tokens s.toList
      let us ← tokens t.toList
      return conjoined ts us := by
  have hword : ∀ after, tokens ('A' :: 'N' :: 'D' :: ' ' :: after) = do
      return .word "AND" :: (← tokens (' ' :: after)) := by
    intro after
    rw [tokens_word (by decide)]
    rfl
  have hshut : Shut (tokens s.toList) (closingText t) := fun hopen => absurd hopen hclosed
  rw [toList_conjoinedText, tokens_opening, tokens_append hshut (breaks_closingText t), before,
    closingText]
  simp only [List.cons_append, List.nil_append]
  rw [tokens_closing, tokens_blank (by decide), hword, tokens_blank (by decide), tokens_opening,
    tokens_append_closing]
  simp [conjoined]

/-- A quotation that the first text leaves open can only be closed in the second. -/
theorem resumes_of_conjoinedText (hopen : tokens s.toList = .error .unterminated)
    (h : tokens (conjoinedText s t).toList = .ok ts) : Resumes s.toList t.toList := by
  rw [toList_conjoinedText, tokens_opening] at h
  obtain ⟨us, hus, -⟩ := bind_eq_ok_iff.1 h
  obtain ⟨-, q, hq, hquote, hclosed, vs, hvs⟩ :=
    resumes_of_tokens_append (breaks_closingText t) hopen hus
  have hfront : q ∉ [')', ' ', 'A', 'N', 'D', ' ', '('] := by
    rcases hquote with rfl | rfl <;> decide
  have hinside : q ∈ t.toList := by
    rcases List.mem_append.1 ((List.mem_append.1 hclosed).resolve_left hfront) with hmem | hmem
    · exact hmem
    · obtain rfl := List.mem_singleton.1 hmem
      exact absurd List.mem_cons_self hfront
  rw [closingText, tail_dropWhile_between hfront hinside, tokens_append_closing] at hvs
  obtain ⟨ws, hws, -⟩ := bind_eq_ok_iff.1 hvs
  exact ⟨hopen, q, hq, hquote, hinside, ws, hws⟩

end Lexemes

/-- No quotation goes on into the second text, and if as many parentheses are opened as closed in all,
neither text reaches out of those that are put around it. -/
structure Contained (s t : String) : Prop where
  shut : ¬ Resumes s.toList t.toList
  inside : ∀ ts us, tokens s.toList = .ok ts → tokens t.toList = .ok us →
    (ts ++ us).count .opening = (ts ++ us).count .closing →
    (open? 0 ts).isSome ∧ (open? 0 us).isSome

theorem count_of_derives_conjoined (h : Derives .disjunction (conjoined ts us) f) :
    (ts ++ us).count .opening = (ts ++ us).count .closing := by
  have hcount := add_count_of_open? (open?_of_derives (n := 0) h)
  simp only [conjoined, List.count_cons, List.count_append, List.count_nil, beq_iff_eq,
    reduceCtorEq, if_true, if_false] at hcount
  rw [List.count_append, List.count_append]
  omega

theorem isSome_open?_of_parse (h : parse s = .ok f) (hts : tokens s.toList = .ok ts) :
    (open? 0 ts).isSome := by
  obtain ⟨us, hus, hderives⟩ := parse_eq_ok_iff.1 h
  rw [hus] at hts
  cases hts
  rw [open?_of_derives hderives]
  rfl

/-- Texts that are accepted stay within their parentheses. -/
theorem contained_of_parse {p q : Filter} (hs : parse s = .ok p) (ht : parse t = .ok q) :
    Contained s t := by
  refine ⟨fun hresumes => ?_, fun ts us hts hus _ =>
    ⟨isSome_open?_of_parse hs hts, isSome_open?_of_parse ht hus⟩⟩
  obtain ⟨ts, hts, -⟩ := parse_eq_ok_iff.1 hs
  rw [hresumes.1] at hts
  cases hts

theorem parse_conjoinedText_iff (h : Contained s t) :
    parse (conjoinedText s t) = .ok f ↔
      ∃ p q, parse s = .ok p ∧ parse t = .ok q ∧ f = .and p q := by
  constructor
  · intro hparse
    obtain ⟨all, htokens, hall⟩ := parse_eq_ok_iff.1 hparse
    have hclosed : tokens s.toList ≠ .error .unterminated := fun hopen =>
      h.shut (resumes_of_conjoinedText hopen htokens)
    rw [tokens_conjoinedText hclosed] at htokens
    obtain ⟨ts, hts, htokens⟩ := bind_eq_ok_iff.1 htokens
    obtain ⟨us, hus, htokens⟩ := bind_eq_ok_iff.1 htokens
    cases htokens
    obtain ⟨hleft, hright⟩ := h.inside ts us hts hus (count_of_derives_conjoined hall)
    obtain ⟨p, q, hp, hq, rfl⟩ := (derives_conjoined_iff hleft hright).1 hall
    exact ⟨p, q, parse_eq_ok_iff.2 ⟨ts, hts, hp⟩, parse_eq_ok_iff.2 ⟨us, hus, hq⟩, rfl⟩
  · rintro ⟨p, q, hs, ht, rfl⟩
    obtain ⟨ts, hts, hp⟩ := parse_eq_ok_iff.1 hs
    obtain ⟨us, hus, hq⟩ := parse_eq_ok_iff.1 ht
    refine parse_eq_ok_iff.2 ⟨conjoined ts us, ?_, ?_⟩
    · rw [tokens_conjoinedText (by rw [hts]; nofun), hts, hus]
      rfl
    · exact (derives_conjoined_iff (isSome_open?_of_parse hs hts)
        (isSome_open?_of_parse ht hus)).2 ⟨p, q, hp, hq, rfl⟩

theorem contained_trim (h : Contained s t) : Contained (Text.trim s) (Text.trim t) := by
  have htrim : ∀ s : String, (Text.trim s).toList = Text.trimChars s.toList := fun s =>
    String.toList_ofList
  constructor
  · rw [htrim, htrim]
    exact fun hresumes => h.shut (resumes_of_trimChars hresumes)
  · rw [htrim, htrim, tokens_trimChars, tokens_trimChars]
    exact h.inside

end Conjoined
end ClusterPlan.Filter
