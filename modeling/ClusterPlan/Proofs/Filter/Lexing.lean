import ClusterPlan.Filter.Token
import ClusterPlan.Text.Blank
import Mathlib.Data.List.TakeWhile

/-!
Texts put one behind the other. If the second one starts with a character that no lexeme goes on
with, the lexemes are those of the first and then those of the second; only a quotation that the
first leaves open can reach into the second.
-/

namespace ClusterPlan

theorem Text.exists_blanks_around (cs : List Char) :
    ∃ front back, (∀ d ∈ front, Text.isBlank d) ∧ (∀ d ∈ back, Text.isBlank d) ∧
      cs = front ++ (Text.trimChars cs ++ back) := by
  refine ⟨cs.takeWhile Text.isBlank,
    ((cs.dropWhile Text.isBlank).reverse.takeWhile Text.isBlank).reverse,
    fun d hd => List.mem_takeWhile_imp hd,
    fun d hd => List.mem_takeWhile_imp (List.mem_reverse.1 hd), ?_⟩
  rw [Text.trimChars, ← List.reverse_append, List.takeWhile_append_dropWhile, List.reverse_reverse,
    List.takeWhile_append_dropWhile]

theorem bind_eq_ok_iff {ε α β : Type} {x : Except ε α} {f : α → Except ε β} {b : β} :
    (x >>= f) = .ok b ↔ ∃ a, x = .ok a ∧ f a = .ok b := by
  cases x with
  | error e => exact ⟨nofun, nofun⟩
  | ok a => exact ⟨fun h => ⟨a, rfl, h⟩, fun ⟨_, ha, h⟩ => Except.ok.inj ha ▸ h⟩

namespace Filter

/-- A quotation mark of either kind. -/
def IsQuote (c : Char) : Prop := c = '\'' ∨ c = '"'

instance (c : Char) : Decidable (IsQuote c) := inferInstanceAs (Decidable (_ ∨ _))

section Characters

variable {c : Char}

/-- A property of all blank characters has to be checked for these only. -/
theorem of_isBlank {p : Char → Prop}
    (hall : ∀ n ∈ [9, 10, 11, 12, 13, 0x20, 0x85, 0xA0, 0x1680, 0x2000, 0x2001, 0x2002, 0x2003,
      0x2004, 0x2005, 0x2006, 0x2007, 0x2008, 0x2009, 0x200A, 0x2028, 0x2029, 0x202F, 0x205F,
      0x3000], p (Char.ofNat n)) (h : Text.isBlank c) : p c := by
  simp only [Text.isBlank, Bool.or_eq_true, Bool.and_eq_true, decide_eq_true_eq, beq_iff_eq] at h
  have hc := hall c.toNat (by
    simp only [List.mem_cons, List.not_mem_nil, or_false]
    omega)
  rwa [Char.ofNat_toNat] at hc

theorem isWordChar_of_isBlank (h : Text.isBlank c) : isWordChar c = false :=
  of_isBlank (p := fun c => isWordChar c = false) (by decide +kernel) h

theorem not_isQuote_of_isBlank (h : Text.isBlank c) : ¬ IsQuote c :=
  of_isBlank (p := fun c => ¬ IsQuote c) (by decide) h

/-- The characters that are or begin a token of their own. -/
def standing : List Char := ['(', ')', ',', '=', '<', '>', '!']

theorem of_isQuote (h : IsQuote c) : ¬ Text.isBlank c ∧ ∀ d ∈ standing, c ≠ d := by
  rcases h with rfl | rfl <;> exact ⟨by decide, by simp [standing]⟩

theorem of_isWordChar (h : isWordChar c) :
    ¬ Text.isBlank c ∧ ¬ IsQuote c ∧ ∀ d ∈ standing, c ≠ d := by
  refine ⟨?_, ?_, ?_⟩
  · intro hblank
    rw [isWordChar_of_isBlank hblank] at h
    cases h
  · rintro (rfl | rfl) <;> exact absurd h (by decide)
  · rintro d hd rfl
    have hnone : standing.all fun d => !isWordChar d := by decide
    have hc := List.all_eq_true.1 hnone c hd
    rw [h] at hc
    cases hc

end Characters

/-- The text does not start with anything that could prolong a lexeme before it. -/
def Breaks (text : List Char) : Prop :=
  ∀ d ∈ text.head?, isWordChar d = false ∧ d ≠ '=' ∧ d ≠ '>'

theorem breaks_nil : Breaks [] :=
  nofun

theorem breaks_cons {d : Char} {text : List Char} (hword : isWordChar d = false) (heq : d ≠ '=')
    (hgt : d ≠ '>') : Breaks (d :: text) := by
  intro e he
  rw [List.head?_cons, Option.mem_some_iff] at he
  subst he
  exact ⟨hword, heq, hgt⟩

theorem breaks_of_isBlank {text : List Char} (h : ∀ d ∈ text, Text.isBlank d) : Breaks text := by
  intro d hd
  have hblank := h d (List.mem_of_mem_head? hd)
  exact ⟨isWordChar_of_isBlank hblank,
    of_isBlank (p := fun d => d ≠ '=' ∧ d ≠ '>') (by decide) hblank⟩

section Lexemes

variable {c d : Char} {rest after ys : List Char}

/-- No comparison of two characters begins with `c`. -/
structure Alone (c : Char) (rest : List Char) : Prop where
  lessEqual : ∀ after, c = '<' → rest = '=' :: after → False
  notEqual : ∀ after, c = '<' → rest = '>' :: after → False
  greaterEqual : ∀ after, c = '>' → rest = '=' :: after → False
  bangEqual : ∀ after, c = '!' → rest = '=' :: after → False

theorem alone_of_ne (hlt : c ≠ '<') (hgt : c ≠ '>') (hbang : c ≠ '!') : Alone c rest :=
  ⟨fun _ h => absurd h hlt, fun _ h => absurd h hlt, fun _ h => absurd h hgt,
    fun _ h => absurd h hbang⟩

theorem Alone.append (h : Alone c rest) (hys : Breaks ys) : Alone c (rest ++ ys) := by
  cases rest with
  | nil =>
      have hhead : ∀ d after, d = '=' ∨ d = '>' → [] ++ ys = d :: after → False := by
        intro d after hd hcons
        have hbreak := hys d (by rw [← List.nil_append ys, hcons]; rfl)
        exact hd.elim hbreak.2.1 hbreak.2.2
      exact ⟨fun _ _ => hhead _ _ (Or.inl rfl), fun _ _ => hhead _ _ (Or.inr rfl),
        fun _ _ => hhead _ _ (Or.inl rfl), fun _ _ => hhead _ _ (Or.inl rfl)⟩
  | cons e before =>
      have hhead : ∀ {d after}, e :: before ++ ys = d :: after → e :: before = d :: before := by
        intro d after hcons
        rw [(List.cons.inj hcons).1]
      exact ⟨fun _ hc heq => h.lessEqual _ hc (hhead heq),
        fun _ hc heq => h.notEqual _ hc (hhead heq),
        fun _ hc heq => h.greaterEqual _ hc (hhead heq),
        fun _ hc heq => h.bangEqual _ hc (hhead heq)⟩

theorem tokens_nil : tokens [] = .ok [] :=
  tokens.eq_def []

/-- What a character does that begins no comparison of two. -/
theorem tokens_of_alone (h : Alone c rest) :
    tokens (c :: rest) =
      if Text.isBlank c then tokens rest
      else if c = '(' then do return .opening :: (← tokens rest)
      else if c = ')' then do return .closing :: (← tokens rest)
      else if c = ',' then do return .comma :: (← tokens rest)
      else if IsQuote c then
        match rest.dropWhile (· ≠ c) with
        | [] => .error .unterminated
        | _ :: after => do
            return .quoted (String.ofList (rest.takeWhile (· ≠ c))) :: (← tokens after)
      else if c = '=' then do return .comparison .equal :: (← tokens rest)
      else if c = '<' then do return .comparison .less :: (← tokens rest)
      else if c = '>' then do return .comparison .greater :: (← tokens rest)
      else if c = '!' then .error .loneBang
      else if isWordChar c then do
        return .word (String.ofList (c :: rest.takeWhile isWordChar)) ::
          (← tokens (rest.dropWhile isWordChar))
      else .error (.unexpected c) := by
  rw [tokens.eq_def]
  split
  · rename_i hnil
    cases hnil
  · rename_i hcons
    exact (h.lessEqual _ (List.cons.inj hcons).1 (List.cons.inj hcons).2).elim
  · rename_i hcons
    exact (h.notEqual _ (List.cons.inj hcons).1 (List.cons.inj hcons).2).elim
  · rename_i hcons
    exact (h.greaterEqual _ (List.cons.inj hcons).1 (List.cons.inj hcons).2).elim
  · rename_i hcons
    exact (h.bangEqual _ (List.cons.inj hcons).1 (List.cons.inj hcons).2).elim
  · rename_i hcons
    obtain ⟨rfl, rfl⟩ := List.cons.inj hcons
    -- Only the branch of a quotation is not word for word the same.
    iterate 4 refine ite_congr rfl (fun _ => rfl) fun _ => ?_
    refine ite_congr rfl (fun _ => ?_) fun _ => rfl
    split <;> rename_i hdrop <;> simp only [hdrop]

theorem tokens_blank (h : Text.isBlank c) : tokens (c :: rest) = tokens rest := by
  have hne : c ≠ '<' ∧ c ≠ '>' ∧ c ≠ '!' :=
    of_isBlank (p := fun c => c ≠ '<' ∧ c ≠ '>' ∧ c ≠ '!') (by decide) h
  have halone : Alone c rest := alone_of_ne hne.1 hne.2.1 hne.2.2
  rw [tokens_of_alone halone, if_pos h]

theorem tokens_opening : tokens ('(' :: rest) = do return .opening :: (← tokens rest) := by
  have halone : Alone '(' rest := alone_of_ne (by decide) (by decide) (by decide)
  rw [tokens_of_alone halone]
  rfl

theorem tokens_closing : tokens (')' :: rest) = do return .closing :: (← tokens rest) := by
  have halone : Alone ')' rest := alone_of_ne (by decide) (by decide) (by decide)
  rw [tokens_of_alone halone]
  rfl

theorem tokens_comma : tokens (',' :: rest) = do return .comma :: (← tokens rest) := by
  have halone : Alone ',' rest := alone_of_ne (by decide) (by decide) (by decide)
  rw [tokens_of_alone halone]
  rfl

theorem tokens_equal :
    tokens ('=' :: rest) = do return .comparison .equal :: (← tokens rest) := by
  have halone : Alone '=' rest := alone_of_ne (by decide) (by decide) (by decide)
  rw [tokens_of_alone halone]
  rfl

theorem tokens_lessEqual :
    tokens ('<' :: '=' :: rest) = do return .comparison .lessEqual :: (← tokens rest) :=
  tokens.eq_def _

theorem tokens_notEqual :
    tokens ('<' :: '>' :: rest) = do return .comparison .notEqual :: (← tokens rest) :=
  tokens.eq_def _

theorem tokens_greaterEqual :
    tokens ('>' :: '=' :: rest) = do return .comparison .greaterEqual :: (← tokens rest) :=
  tokens.eq_def _

theorem tokens_bangEqual :
    tokens ('!' :: '=' :: rest) = do return .comparison .notEqual :: (← tokens rest) :=
  tokens.eq_def _

theorem tokens_less (h : Alone '<' rest) :
    tokens ('<' :: rest) = do return .comparison .less :: (← tokens rest) := by
  rw [tokens_of_alone h]
  rfl

theorem tokens_greater (h : Alone '>' rest) :
    tokens ('>' :: rest) = do return .comparison .greater :: (← tokens rest) := by
  rw [tokens_of_alone h]
  rfl

theorem tokens_loneBang (h : Alone '!' rest) : tokens ('!' :: rest) = .error .loneBang := by
  rw [tokens_of_alone h]
  rfl

theorem tokens_of_isQuote (hc : IsQuote c) :
    tokens (c :: rest) =
      match rest.dropWhile (· ≠ c) with
      | [] => .error .unterminated
      | _ :: after => do
          return .quoted (String.ofList (rest.takeWhile (· ≠ c))) :: (← tokens after) := by
  obtain ⟨hblank, hne⟩ := of_isQuote hc
  simp only [standing, List.forall_mem_cons] at hne
  obtain ⟨hopening, hclosing, hcomma, -, hless, hgreater, hbang, -⟩ := hne
  rw [tokens_of_alone (alone_of_ne hless hgreater hbang), if_neg hblank, if_neg hopening,
    if_neg hclosing, if_neg hcomma, if_pos hc]

theorem tokens_quoted (hc : IsQuote c) (h : rest.dropWhile (· ≠ c) = d :: after) :
    tokens (c :: rest) = do
      return .quoted (String.ofList (rest.takeWhile (· ≠ c))) :: (← tokens after) := by
  rw [tokens_of_isQuote hc, h]

theorem tokens_unterminated (hc : IsQuote c) (h : rest.dropWhile (· ≠ c) = []) :
    tokens (c :: rest) = .error .unterminated := by
  rw [tokens_of_isQuote hc, h]

theorem tokens_of_ne (hblank : ¬ Text.isBlank c) (hquote : ¬ IsQuote c)
    (hne : ∀ d ∈ standing, c ≠ d) :
    tokens (c :: rest) =
      if isWordChar c then do
        return .word (String.ofList (c :: rest.takeWhile isWordChar)) ::
          (← tokens (rest.dropWhile isWordChar))
      else .error (.unexpected c) := by
  simp only [standing, List.forall_mem_cons] at hne
  obtain ⟨hopening, hclosing, hcomma, hequal, hless, hgreater, hbang, -⟩ := hne
  rw [tokens_of_alone (alone_of_ne hless hgreater hbang), if_neg hblank, if_neg hopening,
    if_neg hclosing, if_neg hcomma, if_neg hquote, if_neg hequal, if_neg hless, if_neg hgreater,
    if_neg hbang]

theorem tokens_word (h : isWordChar c) :
    tokens (c :: rest) = do
      return .word (String.ofList (c :: rest.takeWhile isWordChar)) ::
        (← tokens (rest.dropWhile isWordChar)) := by
  obtain ⟨hblank, hquote, hne⟩ := of_isWordChar h
  rw [tokens_of_ne hblank hquote hne, if_pos h]

end Lexemes

section Append

variable {rest ys : List Char}

theorem dropWhile_isWordChar_append (hys : Breaks ys) :
    (rest ++ ys).dropWhile isWordChar = rest.dropWhile isWordChar ++ ys := by
  have hstop : ys.dropWhile isWordChar = ys := by
    cases ys with
    | nil => rfl
    | cons d ys => rw [List.dropWhile_cons, (hys d rfl).1, if_neg Bool.false_ne_true]
  rw [List.dropWhile_append, hstop]
  split
  · rename_i hempty
    rw [List.isEmpty_iff.1 hempty, List.nil_append]
  · rfl

theorem takeWhile_isWordChar_append (hys : Breaks ys) :
    (rest ++ ys).takeWhile isWordChar = rest.takeWhile isWordChar := by
  have hstop : ys.takeWhile isWordChar = [] := by
    cases ys with
    | nil => rfl
    | cons d ys => rw [List.takeWhile_cons, (hys d rfl).1, if_neg Bool.false_ne_true]
  rw [List.takeWhile_append, hstop, List.append_nil]
  split
  · rename_i hall
    exact ((List.takeWhile_prefix _).eq_of_length hall).symm
  · rfl

/-- How a text is read, lexeme by lexeme. All but a quotation that is left open is the same when a
text that breaks is put behind it. -/
inductive Reading : List Char → Prop
  | empty : Reading []
  | lexeme {xs after : List Char} (found : List Token) (hpart : after ⊆ xs)
      (h : ∀ ys, Breaks ys → tokens (xs ++ ys) = do return found ++ (← tokens (after ++ ys)))
      (hafter : Reading after) : Reading xs
  | fault {xs : List Char} (found : LexicalFault) (hne : found ≠ .unterminated)
      (h : ∀ ys, Breaks ys → tokens (xs ++ ys) = .error found) : Reading xs
  | quotation {c : Char} {rest : List Char} (hquote : IsQuote c) (hopen : c ∉ rest) :
      Reading (c :: rest)

theorem not_mem_of_dropWhile_eq_nil {c : Char} (h : rest.dropWhile (· ≠ c) = []) : c ∉ rest :=
  fun hmem => absurd (List.dropWhile_eq_nil_iff.1 h c hmem) (by simp)

theorem dropWhile_eq_nil_of_not_mem {c : Char} (h : c ∉ rest) : rest.dropWhile (· ≠ c) = [] :=
  List.dropWhile_eq_nil_iff.2 fun _ hd => decide_eq_true fun heq => h (heq ▸ hd)

theorem reading_of_pair {c d : Char} {after : List Char} (which : Comparison)
    (h : ∀ rest, tokens (c :: d :: rest) = do return .comparison which :: (← tokens rest))
    (hafter : Reading after) : Reading (c :: d :: after) :=
  .lexeme [.comparison which] (fun _ hx => List.mem_cons_of_mem _ (List.mem_cons_of_mem _ hx))
    (fun ys _ => h (after ++ ys)) hafter

theorem reading_of_quoted {c d : Char} {after : List Char} (hquote : IsQuote c)
    (hdrop : rest.dropWhile (· ≠ c) = d :: after) (hafter : Reading after) :
    Reading (c :: rest) := by
  have hpart : after ⊆ c :: rest := fun x hx => List.mem_cons_of_mem c
    ((List.dropWhile_sublist _).subset (hdrop ▸ List.mem_cons_of_mem d hx))
  refine .lexeme [.quoted (String.ofList (rest.takeWhile (· ≠ c)))] hpart (fun ys _ => ?_) hafter
  have hlonger : (rest ++ ys).dropWhile (· ≠ c) = d :: (after ++ ys) := by
    rw [List.dropWhile_append, hdrop]
    rfl
  have hquoted : (rest ++ ys).takeWhile (· ≠ c) = rest.takeWhile (· ≠ c) := by
    have hsplit := congrArg List.length
      (List.takeWhile_append_dropWhile (p := (· ≠ c)) (l := rest))
    rw [hdrop, List.length_append, List.length_cons] at hsplit
    rw [List.takeWhile_append, if_neg (by omega)]
  rw [List.cons_append, tokens_quoted hquote hlonger, hquoted]
  rfl

theorem reading (xs : List Char) : Reading xs := by
  fun_induction tokens xs with
  | case1 => exact .empty
  | case2 _ ih => exact reading_of_pair .lessEqual (fun _ => tokens_lessEqual) ih
  | case3 _ ih => exact reading_of_pair .notEqual (fun _ => tokens_notEqual) ih
  | case4 _ ih => exact reading_of_pair .greaterEqual (fun _ => tokens_greaterEqual) ih
  | case5 _ ih => exact reading_of_pair .notEqual (fun _ => tokens_bangEqual) ih
  | case6 c rest _ _ _ _ hblank ih =>
      refine .lexeme [] (List.subset_cons_self c rest) (fun ys _ => ?_) ih
      rw [List.cons_append, tokens_blank hblank]
      exact (bind_pure _).symm
  | case7 rest _ _ _ _ _ ih =>
      exact .lexeme [.opening] (List.subset_cons_self _ rest) (fun _ _ => tokens_opening) ih
  | case8 rest _ _ _ _ _ _ ih =>
      exact .lexeme [.closing] (List.subset_cons_self _ rest) (fun _ _ => tokens_closing) ih
  | case9 rest _ _ _ _ _ _ _ ih =>
      exact .lexeme [.comma] (List.subset_cons_self _ rest) (fun _ _ => tokens_comma) ih
  | case10 c rest _ _ _ _ _ _ _ _ hquote hdrop =>
      exact .quotation hquote (not_mem_of_dropWhile_eq_nil hdrop)
  | case11 c rest _ _ _ _ _ _ _ _ hquote d after hdrop _ ih =>
      exact reading_of_quoted hquote hdrop ih
  | case12 rest _ _ _ _ _ _ _ _ _ ih =>
      exact .lexeme [.comparison .equal] (List.subset_cons_self _ rest) (fun _ _ => tokens_equal) ih
  | case13 rest hle hne hge hbang _ _ _ _ _ _ ih =>
      exact .lexeme [.comparison .less] (List.subset_cons_self _ rest)
        (fun _ hys => tokens_less (Alone.append ⟨hle, hne, hge, hbang⟩ hys)) ih
  | case14 rest hle hne hge hbang _ _ _ _ _ _ _ ih =>
      exact .lexeme [.comparison .greater] (List.subset_cons_self _ rest)
        (fun _ hys => tokens_greater (Alone.append ⟨hle, hne, hge, hbang⟩ hys)) ih
  | case15 rest hle hne hge hbang =>
      exact .fault .loneBang nofun
        fun _ hys => tokens_loneBang (Alone.append ⟨hle, hne, hge, hbang⟩ hys)
  | case16 c rest _ _ _ _ _ _ _ _ _ _ _ _ _ hword _ ih =>
      refine .lexeme [.word (String.ofList (c :: rest.takeWhile isWordChar))]
        (List.subset_cons_of_subset c (List.dropWhile_sublist isWordChar).subset)
        (fun ys hys => ?_) ih
      rw [List.cons_append, tokens_word hword, takeWhile_isWordChar_append hys,
        dropWhile_isWordChar_append hys]
      rfl
  | case17 c rest _ _ _ _ hblank hopening hclosing hcomma hquote hequal hless hgreater hbang hword =>
      have hne : ∀ d ∈ standing, c ≠ d := by
        simp only [standing, List.forall_mem_cons]
        exact ⟨hopening, hclosing, hcomma, hequal, hless, hgreater, hbang, nofun⟩
      refine .fault (.unexpected c) nofun fun ys _ => ?_
      rw [List.cons_append, tokens_of_ne hblank hquote hne, if_neg hword]

/-- A quotation that is left open, if that is the outcome, is not closed by the text. -/
def Shut (outcome : Except LexicalFault (List Token)) (ys : List Char) : Prop :=
  outcome = .error .unterminated → ∀ d ∈ ys, ¬ IsQuote d

/-- The tokens found so far and then those of the text. -/
def before (outcome : Except LexicalFault (List Token)) (ys : List Char) :
    Except LexicalFault (List Token) := do
  let ts ← outcome
  let us ← tokens ys
  return ts ++ us

/-- Tokens of a text are found before those of what is put behind it, and a fault in it before any
fault in that. -/
theorem tokens_append {xs : List Char} (hshut : Shut (tokens xs) ys) (hys : Breaks ys) :
    tokens (xs ++ ys) = before (tokens xs) ys := by
  induction reading xs with
  | empty =>
      rw [List.nil_append, tokens_nil]
      exact (bind_pure _).symm
  | @lexeme xs after found _ h _ ih =>
      have halone := h [] breaks_nil
      rw [List.append_nil, List.append_nil] at halone
      rw [halone] at hshut ⊢
      have hopen : Shut (tokens after) ys := by
        intro hopen
        exact hshut (by rw [hopen]; rfl)
      rw [h ys hys, ih hopen]
      simp only [before, bind_assoc, pure_bind, List.append_assoc]
  | @fault xs found _ h =>
      have halone := h [] breaks_nil
      rw [List.append_nil] at halone
      rw [h ys hys, halone]
      rfl
  | @quotation c rest hquote hopen =>
      have halone := tokens_unterminated hquote (dropWhile_eq_nil_of_not_mem hopen)
      have hnone : c ∉ rest ++ ys := fun hmem => (List.mem_append.1 hmem).elim hopen
        fun hc => hshut halone c hc hquote
      rw [List.cons_append, tokens_unterminated hquote (dropWhile_eq_nil_of_not_mem hnone), halone]
      rfl

/-- The first text leaves a quotation open, the second one closes it, and what comes behind consists
of lexemes. -/
def Resumes (xs ys : List Char) : Prop :=
  tokens xs = .error .unterminated ∧
    ∃ q ∈ xs, IsQuote q ∧ q ∈ ys ∧ ∃ us, tokens (ys.dropWhile (· ≠ q)).tail = .ok us

theorem resumes_of_tokens_append {xs : List Char} {us : List Token} (hys : Breaks ys)
    (hopen : tokens xs = .error .unterminated) (h : tokens (xs ++ ys) = .ok us) : Resumes xs ys := by
  refine ⟨hopen, ?_⟩
  induction reading xs generalizing us with
  | empty =>
      rw [tokens_nil] at hopen
      cases hopen
  | @lexeme xs after found hpart hfound _ ih =>
      have halone := hfound [] breaks_nil
      rw [List.append_nil, List.append_nil, hopen] at halone
      have hleft : tokens after = .error .unterminated := by
        cases hlater : tokens after with
        | error fault =>
            rw [hlater] at halone
            exact halone.symm
        | ok vs =>
            rw [hlater] at halone
            cases halone
      rw [hfound ys hys] at h
      obtain ⟨vs, hvs, -⟩ := bind_eq_ok_iff.1 h
      obtain ⟨q, hq, hclosed⟩ := ih hleft hvs
      exact ⟨q, hpart hq, hclosed⟩
  | @fault xs found _ hfound =>
      rw [hfound ys hys] at h
      cases h
  | @quotation c rest hquote hnone =>
      have hrest : (rest ++ ys).dropWhile (· ≠ c) = ys.dropWhile (· ≠ c) :=
        List.dropWhile_append_of_pos fun d hd => decide_eq_true fun heq => hnone (heq ▸ hd)
      refine ⟨c, List.mem_cons_self, hquote, ?_⟩
      cases hdrop : ys.dropWhile (· ≠ c) with
      | nil =>
          rw [List.cons_append, tokens_unterminated hquote (hrest.trans hdrop)] at h
          cases h
      | cons d after =>
          rw [List.cons_append, tokens_quoted hquote (hrest.trans hdrop)] at h
          obtain ⟨vs, hvs, -⟩ := bind_eq_ok_iff.1 h
          refine ⟨?_, vs, hvs⟩
          by_contra hmem
          rw [dropWhile_eq_nil_of_not_mem hmem] at hdrop
          cases hdrop

/-- Behind the first `q` of a text that is put between two others. -/
theorem tail_dropWhile_between {q : Char} {front back : List Char} (hfront : q ∉ front)
    (hq : q ∈ ys) :
    ((front ++ (ys ++ back)).dropWhile (· ≠ q)).tail = (ys.dropWhile (· ≠ q)).tail ++ back := by
  have hpast : ∀ d ∈ front, decide (d ≠ q) = true := fun d hd =>
    decide_eq_true fun heq => hfront (heq ▸ hd)
  rw [List.dropWhile_append_of_pos hpast, List.dropWhile_append]
  cases hdrop : ys.dropWhile (· ≠ q) with
  | nil => exact absurd hq (not_mem_of_dropWhile_eq_nil hdrop)
  | cons d after => rfl

theorem tokens_blanks_append {xs bs : List Char} (h : ∀ d ∈ bs, Text.isBlank d) :
    tokens (bs ++ xs) = tokens xs := by
  induction bs with
  | nil => rfl
  | cons d bs ih =>
      rw [List.forall_mem_cons] at h
      rw [List.cons_append, tokens_blank h.1, ih h.2]

theorem tokens_append_blanks {xs bs : List Char} (h : ∀ d ∈ bs, Text.isBlank d) :
    tokens (xs ++ bs) = tokens xs := by
  have hnone : tokens bs = .ok [] := by
    rw [← List.append_nil bs, tokens_blanks_append h, tokens_nil]
  have hshut : Shut (tokens xs) bs := fun _ d hd => not_isQuote_of_isBlank (h d hd)
  rw [tokens_append hshut (breaks_of_isBlank h), before, hnone]
  cases tokens xs with
  | error fault => rfl
  | ok ts => exact congrArg Except.ok (List.append_nil ts)

/-- Blanks around a text make no difference. -/
theorem tokens_trimChars (cs : List Char) : tokens (Text.trimChars cs) = tokens cs := by
  obtain ⟨front, back, hfront, hback, hcs⟩ := Text.exists_blanks_around cs
  exact (tokens_append_blanks hback).symm.trans
    ((tokens_blanks_append hfront).symm.trans (congrArg tokens hcs.symm))

theorem mem_of_mem_trimChars {d : Char} {cs : List Char} (h : d ∈ Text.trimChars cs) : d ∈ cs := by
  obtain ⟨front, back, -, -, hcs⟩ := Text.exists_blanks_around cs
  rw [hcs]
  exact List.mem_append_right _ (List.mem_append_left _ h)

theorem resumes_of_trimChars {xs : List Char} (h : Resumes (Text.trimChars xs) (Text.trimChars ys)) :
    Resumes xs ys := by
  obtain ⟨hopen, q, hq, hquote, hclosed, us, hus⟩ := h
  obtain ⟨front, back, hfront, hback, hys⟩ := Text.exists_blanks_around ys
  refine ⟨tokens_trimChars xs ▸ hopen, q, mem_of_mem_trimChars hq, hquote,
    mem_of_mem_trimChars hclosed, us, ?_⟩
  have hplain : q ∉ front := fun hmem => not_isQuote_of_isBlank (hfront q hmem) hquote
  rw [hys, tail_dropWhile_between hplain hclosed, tokens_append_blanks hback, hus]

end Append
end Filter
end ClusterPlan
