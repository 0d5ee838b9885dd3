import ClusterPlan.Proofs.Filter.Parentheses
import Mathlib.Data.List.Forall2

/-!
Writing filters. A filter is written with every part of it in parentheses, and the parser reads it
back from that text. Together with the grammar this says what the parser does: it accepts exactly the
token lists that the grammar derives, and every filter that can be written at all comes out of one.
-/

namespace ClusterPlan.Filter

section Grammar

/-- How strongly the outermost operator of a text may bind at least. -/
inductive Rank where
  | disjunction
  | conjunction
  | operand

/-- The tokens are a text of the rank, and it stands for the filter. What OR and AND join is joined
from the left. -/
inductive Denotes : Rank → List Token → Filter → Prop
  | conjunction {ts : List Token} {f : Filter} (h : Denotes .conjunction ts f) :
      Denotes .disjunction ts f
  | or {t : Token} {ts us : List Token} {left right : Filter}
      (hleft : Denotes .disjunction ts left) (hor : isKeyword "or" t)
      (hright : Denotes .conjunction us right) :
      Denotes .disjunction (ts ++ t :: us) (.or left right)
  | operand {ts : List Token} {f : Filter} (h : Denotes .operand ts f) : Denotes .conjunction ts f
  | and {t : Token} {ts us : List Token} {left right : Filter}
      (hleft : Denotes .conjunction ts left) (hand : isKeyword "and" t)
      (hright : Denotes .operand us right) : Denotes .conjunction (ts ++ t :: us) (.and left right)
  | not {t : Token} {ts : List Token} {inner : Filter} (hnot : isKeyword "not" t)
      (hinner : Denotes .operand ts inner) : Denotes .operand (t :: ts) (.not inner)
  | enclosed {ts : List Token} {f : Filter} (h : Denotes .disjunction ts f) :
      Denotes .operand (.opening :: (ts ++ [.closing])) f
  | predicate {ts : List Token} {f : Filter} (h : Predicate ts f) : Denotes .operand ts f

variable {t : Token} {ts us vs : List Token} {f left right : Filter}

/-- What a phrase of the kind stands for. A chain goes on with a text that stands for its left end. -/
def Phrase.Denoted : Phrase → List Token → Filter → Prop
  | disjunction, ts, f => Denotes .disjunction ts f
  | disjuncts left, ts, f => ∀ us, Denotes .disjunction us left → Denotes .disjunction (us ++ ts) f
  | conjunction, ts, f => Denotes .conjunction ts f
  | conjuncts left, ts, f => ∀ us, Denotes .conjunction us left → Denotes .conjunction (us ++ ts) f
  | operand, ts, f => Denotes .operand ts f

theorem denoted_of_derives {p : Phrase} (h : Derives p ts f) : p.Denoted ts f := by
  induction h with
  | disjunction _ _ ihfirst ihothers => exact ihothers _ (.conjunction ihfirst)
  | noDisjunct | noConjunct =>
      intro us hleft
      rwa [List.append_nil]
  | disjunct hor _ _ ihright ihothers =>
      intro us hleft
      have hlonger := ihothers _ (.or hleft hor ihright)
      rwa [List.append_assoc, List.cons_append] at hlonger
  | conjunction _ _ ihfirst ihothers => exact ihothers _ (.operand ihfirst)
  | conjunct hand _ _ ihright ihothers =>
      intro us hleft
      have hlonger := ihothers _ (.and hleft hand ihright)
      rwa [List.append_assoc, List.cons_append] at hlonger
  | negation hnot _ ih => exact .not hnot ih
  | enclosed _ ih => exact .enclosed ih
  | predicate h => exact .predicate h

/-- One more disjunct at the end of a chain. -/
theorem derives_disjuncts_concat {first : Filter} (h : Derives (.disjuncts first) ts left)
    (hor : isKeyword "or" t) (hright : Derives .conjunction us right) :
    Derives (.disjuncts first) (ts ++ t :: us) (.or left right) := by
  generalize hp : Phrase.disjuncts first = p at h
  induction h generalizing first with
  | @noDisjunct start =>
      cases hp
      have hlast : Derives (.disjuncts start) (t :: (us ++ [])) (.or start right) :=
        .disjunct hor hright .noDisjunct
      rwa [List.append_nil] at hlast
  | disjunct hword hnext _ _ ih =>
      cases hp
      have hmore := Derives.disjunct hword hnext (ih rfl)
      rwa [← List.append_assoc, ← List.cons_append] at hmore
  | _ => cases hp

/-- One more conjunct at the end of a chain. -/
theorem derives_conjuncts_concat {first : Filter} (h : Derives (.conjuncts first) ts left)
    (hand : isKeyword "and" t) (hright : Derives .operand us right) :
    Derives (.conjuncts first) (ts ++ t :: us) (.and left right) := by
  generalize hp : Phrase.conjuncts first = p at h
  induction h generalizing first with
  | @noConjunct start =>
      cases hp
      have hlast : Derives (.conjuncts start) (t :: (us ++ [])) (.and start right) :=
        .conjunct hand hright .noConjunct
      rwa [List.append_nil] at hlast
  | conjunct hword hnext _ _ ih =>
      cases hp
      have hmore := Derives.conjunct hword hnext (ih rfl)
      rwa [← List.append_assoc, ← List.cons_append] at hmore
  | _ => cases hp

/-- The kind of phrase of a text. -/
def Rank.phrase : Rank → Phrase
  | disjunction => .disjunction
  | conjunction => .conjunction
  | operand => .operand

theorem derives_of_denotes {r : Rank} (h : Denotes r ts f) : Derives r.phrase ts f := by
  induction h with
  | conjunction _ ih =>
      have hwhole := Derives.disjunction ih .noDisjunct
      rwa [List.append_nil] at hwhole
  | or _ hor _ ihleft ihright =>
      cases ihleft with
      | disjunction hfirst hothers =>
          have hwhole := Derives.disjunction hfirst (derives_disjuncts_concat hothers hor ihright)
          rwa [← List.append_assoc] at hwhole
  | operand _ ih =>
      have hwhole := Derives.conjunction ih .noConjunct
      rwa [List.append_nil] at hwhole
  | and _ hand _ ihleft ihright =>
      cases ihleft with
      | conjunction hfirst hothers =>
          have hwhole := Derives.conjunction hfirst (derives_conjuncts_concat hothers hand ihright)
          rwa [← List.append_assoc] at hwhole
  | not hnot _ ih => exact .negation hnot ih
  | enclosed _ ih => exact .enclosed ih
  | predicate h => exact .predicate h

theorem parseTokens_eq_ok_iff_denotes : parseTokens ts = .ok f ↔ Denotes .disjunction ts f :=
  parseTokens_eq_ok_iff.trans ⟨denoted_of_derives, derives_of_denotes⟩

end Grammar

/-- The text is read as one word. -/
def IsWord (s : String) : Prop := s ≠ "" ∧ ∀ c ∈ s.toList, isWordChar c = true

instance (s : String) : Decidable (IsWord s) :=
  decidable_of_iff (s ≠ "" ∧ s.toList.all isWordChar = true) (by rw [IsWord, List.all_eq_true])

/-- A property can have this name in a text: a word, but not the keyword of a negation. -/
def IsName (s : String) : Prop := IsWord s ∧ isKeyword "not" (.word s) = false

instance (s : String) : Decidable (IsName s) := inferInstanceAs (Decidable (_ ∧ _))

/-- There is a quote that can stand around the text. -/
def IsQuotable (s : String) : Prop := '\'' ∉ s.toList ∨ '"' ∉ s.toList

instance (s : String) : Decidable (IsQuotable s) := inferInstanceAs (Decidable (_ ∨ _))

/-- The value in the quotes that it does not contain, apostrophes if it contains neither. -/
def quotedText (value : String) : String :=
  if '\'' ∈ value.toList then "\"" ++ value ++ "\"" else "'" ++ value ++ "'"

def enclosedText (s : String) : String := "(" ++ s ++ ")"

/-- The filter as text, with parentheses around all of it and around each of its operands. -/
def text : Filter → String
  | compare property c value =>
      enclosedText (Text.join " " [property, c.symbol, quotedText value])
  | among property values negated =>
      enclosedText (Text.join " " (property :: ((if negated then ["NOT", "IN"] else ["IN"]) ++
        [enclosedText (Text.join ", " (values.map quotedText))])))
  | not inner => enclosedText (Text.join " " ["NOT", inner.text])
  | and left right => enclosedText (Text.join " " [left.text, "AND", right.text])
  | or left right => enclosedText (Text.join " " [left.text, "OR", right.text])

/-- All names in the filter are names that a text can have, all lists have a value, and each value
can be quoted. -/
def Writable : Filter → Prop
  | compare property _ value => IsName property ∧ IsQuotable value
  | among property values _ => IsName property ∧ values ≠ [] ∧ ∀ v ∈ values, IsQuotable v
  | not inner => inner.Writable
  | and left right | or left right => left.Writable ∧ right.Writable

section Lexemes

variable {s : String} {ts us : List Token} {xs ys : List Char}

/-- What breaks off a text that consists of lexemes starts lexemes of its own. -/
theorem tokens_append_of_ok (hxs : tokens xs = .ok ts) (hys : tokens ys = .ok us)
    (hbreaks : Breaks ys) : tokens (xs ++ ys) = .ok (ts ++ us) := by
  have hshut : Shut (tokens xs) ys := fun hopen => by
    rw [hxs] at hopen
    cases hopen
  rw [tokens_append hshut hbreaks, before, hxs, hys]
  rfl

theorem tokens_of_isWord (h : IsWord s) : tokens s.toList = .ok [.word s] := by
  obtain ⟨hne, hall⟩ := h
  cases hs : s.toList with
  | nil => exact absurd (String.toList_eq_nil_iff.1 hs) hne
  | cons c rest =>
      rw [hs, List.forall_mem_cons] at hall
      have hword : rest.takeWhile isWordChar = rest := List.takeWhile_eq_self_iff.2 hall.2
      have hnone : rest.dropWhile isWordChar = [] := List.dropWhile_eq_nil_iff.2 hall.2
      rw [tokens_word hall.1, hword, hnone, tokens_nil, ← hs, String.ofList_toList]
      rfl

theorem tokens_symbol (c : Comparison) : tokens c.symbol.toList = .ok [.comparison c] := by
  have halone : ∀ d, Alone d [] := fun d => by
    constructor <;> intro _ _ hnil <;> cases hnil
  have hlast : (do return .comparison c :: (← tokens []) : Except LexicalFault (List Token)) =
      .ok [.comparison c] := by
    rw [tokens_nil]
    rfl
  cases c with
  | equal => exact tokens_equal.trans hlast
  | notEqual => exact tokens_bangEqual.trans hlast
  | less => exact (tokens_less (halone '<')).trans hlast
  | lessEqual => exact tokens_lessEqual.trans hlast
  | greater => exact (tokens_greater (halone '>')).trans hlast
  | greaterEqual => exact tokens_greaterEqual.trans hlast

theorem tokens_between_quotes {q : Char} (hq : IsQuote q) (hnone : q ∉ s.toList) :
    tokens (q :: (s.toList ++ [q])) = .ok [.quoted s] := by
  have hpast : ∀ d ∈ s.toList, decide (d ≠ q) = true := fun d hd =>
    decide_eq_true fun heq => hnone (heq ▸ hd)
  have hdrop : (s.toList ++ [q]).dropWhile (· ≠ q) = [q] := by
    rw [List.dropWhile_append_of_pos hpast]
    simp
  have htake : (s.toList ++ [q]).takeWhile (· ≠ q) = s.toList := by
    rw [List.takeWhile_append_of_pos hpast]
    simp
  rw [tokens_quoted hq hdrop, htake, tokens_nil, String.ofList_toList]
  rfl

theorem tokens_quotedText (h : IsQuotable s) : tokens (quotedText s).toList = .ok [.quoted s] := by
  unfold quotedText
  split
  · rename_i hmem
    rw [String.toList_append, String.toList_append]
    exact tokens_between_quotes (Or.inr rfl) (h.resolve_left (not_not.2 hmem))
  · rename_i hnone
    rw [String.toList_append, String.toList_append]
    exact tokens_between_quotes (Or.inl rfl) hnone

theorem tokens_enclosedText (h : tokens s.toList = .ok ts) :
    tokens (enclosedText s).toList = .ok (.opening :: (ts ++ [.closing])) := by
  have htext : (enclosedText s).toList = '(' :: (s.toList ++ [')']) := by
    simp [enclosedText, String.toList_append]
  rw [htext, tokens_opening, tokens_append_closing, h]
  rfl

/-- Texts with blanks between them are read one after the other. -/
theorem tokens_spaced {words : List String} {lexemes : List (List Token)}
    (h : List.Forall₂ (fun s ts => tokens s.toList = .ok ts) words lexemes) :
    tokens (Text.join " " words).toList = .ok lexemes.flatten := by
  induction h with
  | nil => exact tokens_nil
  | @cons word ts rest tss hword hrest ih =>
      cases hrest with
      | nil =>
          rw [Text.join, String.intercalate_singleton, hword, List.flatten_singleton]
      | cons hnext hrest =>
          rw [Text.join, String.intercalate_cons_cons, String.append_assoc, String.toList_append,
            String.toList_append, List.flatten_cons]
          refine tokens_append_of_ok hword ?_ (breaks_cons (by decide) (by decide) (by decide))
          exact (tokens_blank (by decide)).trans ih

/-- A text in parentheses of what stands before a single lexeme, the lexeme and what stands after it. -/
theorem tokens_around {w u : String} {t : Token} (hs : tokens s.toList = .ok ts)
    (hw : tokens w.toList = .ok [t]) (hu : tokens u.toList = .ok us) :
    tokens (enclosedText (Text.join " " [s, w, u])).toList =
      .ok (.opening :: ((ts ++ t :: us) ++ [.closing])) := by
  have hlexemes := tokens_enclosedText (tokens_spaced (.cons hs (.cons hw (.cons hu .nil))))
  rwa [List.flatten_cons, List.flatten_cons, List.flatten_singleton] at hlexemes

/-- The quoted values of a list, up to the closing parenthesis. -/
theorem exists_lexemes_of_values {v : String} {vs : List String}
    (h : ∀ w ∈ v :: vs, IsQuotable w) :
    ∃ us, tokens (Text.join ", " ((v :: vs).map quotedText)).toList = .ok (.quoted v :: us) ∧
      MoreValues (us ++ [.closing]) vs := by
  induction vs generalizing v with
  | nil =>
      refine ⟨[], ?_, .done⟩
      rw [List.map_singleton, Text.join, String.intercalate_singleton]
      exact tokens_quotedText (h v List.mem_cons_self)
  | cons w rest ih =>
      rw [List.forall_mem_cons] at h
      obtain ⟨us, hus, hmore⟩ := ih h.2
      refine ⟨.comma :: .quoted w :: us, ?_, .next rfl hmore⟩
      rw [List.map_cons, List.map_cons, Text.join, String.intercalate_cons_cons,
        String.append_assoc, String.toList_append, String.toList_append, ← List.map_cons]
      refine tokens_append_of_ok (tokens_quotedText h.1) ?_
        (breaks_cons (by decide) (by decide) (by decide))
      change tokens (',' :: ' ' :: _) = _
      rw [tokens_comma, tokens_blank (by decide)]
      exact bind_eq_ok_iff.2 ⟨_, hus, rfl⟩

end Lexemes

section Written

variable {f : Filter}

/-- The text of a filter is an operand, whatever it stands beside. -/
theorem exists_lexemes_of_text (h : f.Writable) :
    ∃ ts, tokens f.text.toList = .ok ts ∧ Denotes .operand ts f := by
  obtain ⟨hand, hor, hnot, hin⟩ : IsWord "AND" ∧ IsWord "OR" ∧ IsWord "NOT" ∧ IsWord "IN" := by
    decide
  induction f with
  | compare property c value =>
      obtain ⟨hname, hvalue⟩ := h
      have hlexemes := tokens_around (tokens_of_isWord hname.1) (tokens_symbol c)
        (tokens_quotedText hvalue)
      exact ⟨_, hlexemes, .enclosed (.conjunction (.operand (.predicate (.compare hname.2 rfl))))⟩
  | among property values negated =>
      obtain ⟨hname, hne, hvalues⟩ := h
      obtain ⟨v, vs, rfl⟩ := List.exists_cons_of_ne_nil hne
      obtain ⟨us, hus, hmore⟩ := exists_lexemes_of_values hvalues
      have hlist := tokens_enclosedText hus
      have hlisting : Listing (.opening :: .quoted v :: (us ++ [.closing])) (v :: vs) :=
        .enclosed rfl hmore
      cases negated with
      | false =>
          have hlexemes := tokens_around (tokens_of_isWord hname.1) (tokens_of_isWord hin) hlist
          refine ⟨_, hlexemes, .enclosed (.conjunction (.operand (.predicate ?_)))⟩
          exact .among hname.2 (by decide) hlisting
      | true =>
          have hlexemes := tokens_enclosedText (tokens_spaced (.cons (tokens_of_isWord hname.1)
            (.cons (tokens_of_isWord hnot) (.cons (tokens_of_isWord hin) (.cons hlist .nil)))))
          refine ⟨_, hlexemes, .enclosed (.conjunction (.operand (.predicate ?_)))⟩
          rw [List.flatten_cons, List.flatten_cons, List.flatten_cons, List.flatten_singleton]
          exact .notAmong hname.2 (by decide) (by decide) hlisting
  | not inner ih =>
      obtain ⟨ts, hts, hinner⟩ := ih h
      have hlexemes := tokens_enclosedText (tokens_spaced
        (.cons (tokens_of_isWord hnot) (.cons hts .nil)))
      refine ⟨_, hlexemes, .enclosed (.conjunction (.operand ?_))⟩
      rw [List.flatten_cons, List.flatten_singleton]
      exact .not (by decide) hinner
  | and left right ihleft ihright =>
      obtain ⟨ts, hts, hleft⟩ := ihleft h.1
      obtain ⟨us, hus, hright⟩ := ihright h.2
      refine ⟨_, tokens_around hts (tokens_of_isWord hand) hus, .enclosed (.conjunction ?_)⟩
      exact .and (.operand hleft) (by decide) hright
  | or left right ihleft ihright =>
      obtain ⟨ts, hts, hleft⟩ := ihleft h.1
      obtain ⟨us, hus, hright⟩ := ihright h.2
      refine ⟨_, tokens_around hts (tokens_of_isWord hor) hus, .enclosed ?_⟩
      exact .or (.conjunction (.operand hleft)) (by decide) (.operand hright)

theorem parse_text (h : f.Writable) : parse f.text = .ok f := by
  obtain ⟨ts, hts, hdenotes⟩ := exists_lexemes_of_text h
  have hderives : Derives .disjunction ts f :=
    derives_of_denotes (.conjunction (.operand hdenotes))
  exact parse_eq_ok_iff.2 ⟨ts, hts, hderives⟩

/-- The parser accepts the token lists that the grammar derives and no others, and answers with the
filter that they stand for; and it reads every filter that can be written back from its text. -/
theorem parser_exact :
    (∀ (ts : List Token) (f : Filter), parseTokens ts = .ok f ↔ Denotes .disjunction ts f) ∧
      ∀ f : Filter, f.Writable → parse f.text = .ok f :=
  ⟨fun _ _ => parseTokens_eq_ok_iff_denotes, fun _ => parse_text⟩

/-- Quotes of both kinds in the values, and a property with the name of a keyword. -/
def mixedFilter : Filter :=
  .and (.compare "owner" .notEqual "o'neil")
    (.not (.or (.among "cluster" ["a", "\"b\""] true) (.compare "in" .less "7")))

theorem parser_exact_mixed :
    mixedFilter.Writable ∧
      parse "((owner != \"o'neil\") AND (NOT ((cluster NOT IN ('a', '\"b\"')) OR (in < '7'))))" =
        .ok mixedFilter := by
  have hwritable : mixedFilter.Writable := by
    simp only [mixedFilter, Writable]
    decide
  have htext : mixedFilter.text =
      "((owner != \"o'neil\") AND (NOT ((cluster NOT IN ('a', '\"b\"')) OR (in < '7'))))" := by
    decide
  have hparse := parser_exact.2 mixedFilter hwritable
  rw [htext] at hparse
  exact ⟨hwritable, hparse⟩

end Written

end ClusterPlan.Filter
