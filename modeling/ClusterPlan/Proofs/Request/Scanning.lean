import ClusterPlan.Proofs.Filter.Lexing
import ClusterPlan.Proofs.Lists
import ClusterPlan.Request.Parser
import Mathlib.Data.List.DropRight

/-!
How the parts of a request are found. A text is passed over if the search for the next `+` sign goes
through it and is where it was before. Every text that consists of the lexemes of a filter is passed
over within braces, whatever stands in its quotations.
-/

namespace ClusterPlan

section Trimming

variable {c : Char} {xs ys : List Char}

theorem Text.trimChars_sublist (xs : List Char) : (Text.trimChars xs).Sublist xs :=
  (List.rdropWhile_prefix Text.isBlank _).sublist.trans (List.dropWhile_sublist _)

theorem Text.trimChars_eq_self_iff : Text.trimChars xs = xs ↔
    xs.dropWhile Text.isBlank = xs ∧ List.rdropWhile Text.isBlank xs = xs := by
  constructor
  · intro h
    have hprefix := List.rdropWhile_prefix Text.isBlank (xs.dropWhile Text.isBlank)
    have hlength := hprefix.length_le
    have hfront : xs.dropWhile Text.isBlank = xs := by
      refine (List.dropWhile_sublist _).eq_of_length_le ?_
      exact (congrArg List.length h).symm.le.trans hlength
    refine ⟨hfront, ?_⟩
    conv_rhs => rw [← h, Text.trimChars]
    rw [hfront, List.rdropWhile]
  · rintro ⟨hfront, hback⟩
    rw [Text.trimChars, hfront]
    exact hback

theorem Text.trimChars_blank_cons (h : Text.isBlank c) :
    Text.trimChars (c :: xs) = Text.trimChars xs := by
  rw [Text.trimChars, List.dropWhile_cons_of_pos h]
  rfl

theorem Text.trimChars_concat_blank (h : Text.isBlank c) :
    Text.trimChars (xs ++ [c]) = Text.trimChars xs := by
  have hshow : ∀ cs, Text.trimChars cs = List.rdropWhile Text.isBlank (cs.dropWhile Text.isBlank) :=
    fun _ => rfl
  rw [hshow, hshow, List.dropWhile_append]
  split
  · rename_i hempty
    rw [List.isEmpty_iff.1 hempty, List.dropWhile_cons_of_pos h]
    rfl
  · rw [List.rdropWhile_concat_pos _ _ _ h]

theorem Text.trimChars_eq_self_of_forall (h : ∀ d ∈ xs, ¬ Text.isBlank d) :
    Text.trimChars xs = xs := by
  rw [Text.trimChars_eq_self_iff]
  constructor
  · cases xs with
    | nil => rfl
    | cons d rest => exact List.dropWhile_cons_of_neg (h d List.mem_cons_self)
  · exact List.rdropWhile_eq_self_iff.2 fun hne => h _ (List.getLast_mem hne)

/-- Whatever stands between two texts without blanks around them has none around it either. -/
theorem Text.trimChars_between (hxs : Text.trimChars xs = xs) (hys : Text.trimChars ys = ys)
    (hxs_ne : xs ≠ []) (hys_ne : ys ≠ []) (between : List Char) :
    Text.trimChars (xs ++ (between ++ ys)) = xs ++ (between ++ ys) := by
  rw [Text.trimChars_eq_self_iff] at hxs hys ⊢
  obtain ⟨c, rest, rfl⟩ := List.exists_cons_of_ne_nil hxs_ne
  constructor
  · have hfirst : ¬ Text.isBlank c := by
      simpa using List.dropWhile_eq_self_iff.1 hxs.1 (Nat.succ_pos _)
    rw [List.cons_append, List.dropWhile_cons_of_neg hfirst]
  · rw [← List.append_assoc, List.rdropWhile_eq_self_iff]
    intro hne
    rw [List.getLast_append_of_ne_nil hne hys_ne]
    exact List.rdropWhile_eq_self_iff.1 hys.2 hys_ne

end Trimming

section Splitting

theorem Text.splitChars_eq_splitOn (sep : Char) (cs : List Char) :
    Text.splitChars sep cs = cs.splitOn sep := by
  induction cs with
  | nil => rfl
  | cons c rest ih =>
      rw [Text.splitChars, ih, List.splitOn_cons_eq_if_modifyHead]
      cases hrest : rest.splitOn sep with
      | nil => exact absurd hrest (List.splitOn_ne_nil sep rest)
      | cons part parts => simp only [beq_iff_eq, List.modifyHead_cons]

theorem Text.cutChars?_of_not_mem {sep : Char} {xs : List Char} (h : sep ∉ xs) (ys : List Char) :
    Text.cutChars? sep (xs ++ sep :: ys) = some (xs, ys) := by
  induction xs with
  | nil => exact if_pos rfl
  | cons c rest ih =>
      rw [List.mem_cons, not_or] at h
      rw [List.cons_append, Text.cutChars?, if_neg (Ne.symm h.1), ih h.2]
      rfl

end Splitting

namespace Request

variable {c q : Char} {depth : Int} {xs ys : List Char}

theorem isQuote_iff : isQuote c = true ↔ Filter.IsQuote c := by
  simp [isQuote, Filter.IsQuote]

/-- The text belongs to the part that is being read, with all that follows up to the next sign. -/
def Passes (depth : Int) (xs : List Char) : Prop :=
  ∀ rest, splitParts? none depth (xs ++ rest) =
    (splitParts? none depth rest).map fun parts => xs.foldr consFirst parts

theorem passes_nil : Passes depth [] := by
  intro rest
  exact Option.map_id'.symm

theorem Passes.append (hxs : Passes depth xs) (hys : Passes depth ys) : Passes depth (xs ++ ys) := by
  intro rest
  rw [List.append_assoc, hxs, hys, Option.map_map]
  simp only [Function.comp_def, List.foldr_append]

/-- The character opens and closes nothing, and no part ends at it. -/
structure IsPlain (depth : Int) (c : Char) : Prop where
  quote : ¬ Filter.IsQuote c
  opening : c ≠ '{'
  closing : c ≠ '}'
  sign : c = '+' → depth ≠ 0

theorem Passes.cons (hc : IsPlain depth c) (hxs : Passes depth xs) : Passes depth (c :: xs) := by
  intro rest
  have hsign : ¬ (c = '+' ∧ depth = 0) := fun h => hc.sign h.1 h.2
  have hquote : ¬ isQuote c = true := fun h => hc.quote (isQuote_iff.1 h)
  rw [List.cons_append, splitParts?, if_neg hquote, if_neg hc.opening, if_neg hc.closing,
    if_neg hsign, hxs, Option.map_map]
  rfl

theorem passes_of_forall (h : ∀ c ∈ xs, IsPlain depth c) : Passes depth xs := by
  induction xs with
  | nil => exact passes_nil
  | cons c rest ih =>
      rw [List.forall_mem_cons] at h
      exact .cons h.1 (ih h.2)

/-- Within a quotation only its own quote matters. -/
theorem splitParts?_quotation (hnone : q ∉ xs) (rest : List Char) :
    splitParts? (some q) depth (xs ++ q :: rest) =
      (splitParts? none depth rest).map fun parts => (xs ++ [q]).foldr consFirst parts := by
  induction xs with
  | nil =>
      rw [List.nil_append, splitParts?, if_pos rfl]
      rfl
  | cons c inside ih =>
      rw [List.mem_cons, not_or] at hnone
      rw [List.cons_append, splitParts?, if_neg (Ne.symm hnone.1), ih hnone.2, Option.map_map]
      rfl

theorem passes_quotation (hq : Filter.IsQuote q) (hnone : q ∉ xs) :
    Passes depth (q :: (xs ++ [q])) := by
  intro rest
  rw [List.cons_append, List.append_assoc, List.singleton_append, splitParts?,
    if_pos (isQuote_iff.2 hq), splitParts?_quotation hnone, Option.map_map]
  rfl

theorem passes_braces (h : Passes (depth + 1) xs) : Passes depth ('{' :: (xs ++ ['}'])) := by
  intro rest
  have hopening : splitParts? none depth ('{' :: (xs ++ '}' :: rest)) =
      (splitParts? none (depth + 1) (xs ++ '}' :: rest)).map (consFirst '{') := rfl
  have hclosing : splitParts? none (depth + 1) ('}' :: rest) =
      (splitParts? none (depth + 1 - 1) rest).map (consFirst '}') := rfl
  rw [List.cons_append, List.append_assoc, List.singleton_append, hopening, h, hclosing,
    Int.add_sub_cancel, Option.map_map, Option.map_map]
  simp [Function.comp_def]

section Lexemes

variable {ts : List Filter.Token}

theorem isPlain_of_isWordChar (hdepth : depth ≠ 0) (h : Filter.isWordChar c) : IsPlain depth c where
  quote := (Filter.of_isWordChar h).2.1
  opening := by
    rintro rfl
    exact absurd h (by decide)
  closing := by
    rintro rfl
    exact absurd h (by decide)
  sign := fun _ => hdepth

theorem isPlain_of_isBlank (hdepth : depth ≠ 0) (h : Text.isBlank c) : IsPlain depth c where
  quote := Filter.not_isQuote_of_isBlank h
  opening := Filter.of_isBlank (p := fun c => c ≠ '{') (by decide) h
  closing := Filter.of_isBlank (p := fun c => c ≠ '}') (by decide) h
  sign := fun _ => hdepth

theorem isPlain_of_mem_standing (hdepth : depth ≠ 0) (h : c ∈ Filter.standing) :
    IsPlain depth c := by
  have hall : (Filter.standing.all fun d => ¬ Filter.IsQuote d ∧ d ≠ '{' ∧ d ≠ '}') = true := by
    decide
  obtain ⟨hquote, hopening, hclosing⟩ := of_decide_eq_true (List.all_eq_true.1 hall c h)
  exact ⟨hquote, hopening, hclosing, fun _ => hdepth⟩

/-- Within braces a text is passed over if it consists of lexemes. Quotations end where the lexemes
do, and a brace can stand only in a quotation. -/
theorem passes_of_tokens (hdepth : depth ≠ 0) (h : Filter.tokens xs = .ok ts) : Passes depth xs := by
  have hstanding : ∀ {c}, c ∈ Filter.standing → IsPlain depth c := isPlain_of_mem_standing hdepth
  fun_induction Filter.tokens xs generalizing ts with
  | case1 => exact passes_nil
  | case2 _ ih | case3 _ ih | case4 _ ih | case5 _ ih =>
      obtain ⟨us, hus, -⟩ := bind_eq_ok_iff.1 h
      exact .cons (hstanding (by decide)) (.cons (hstanding (by decide)) (ih hus))
  | case6 c rest _ _ _ _ hblank ih => exact .cons (isPlain_of_isBlank hdepth hblank) (ih h)
  | case7 _ _ _ _ _ _ ih | case8 _ _ _ _ _ _ _ ih | case9 _ _ _ _ _ _ _ _ ih =>
      obtain ⟨us, hus, -⟩ := bind_eq_ok_iff.1 h
      exact .cons (hstanding (by decide)) (ih hus)
  | case10 => cases h
  | case11 c rest _ _ _ _ _ _ _ _ hquote d after hdrop _ ih =>
      obtain ⟨us, hus, -⟩ := bind_eq_ok_iff.1 h
      have hend : d = c := by
        have hhead := List.head?_dropWhile_not (fun e => decide (e ≠ c)) rest
        rw [hdrop] at hhead
        simpa using hhead
      have hnone : c ∉ rest.takeWhile (· ≠ c) := fun hmem => by
        simpa using List.mem_takeWhile_imp hmem
      rw [← List.takeWhile_append_dropWhile (p := (· ≠ c)) (l := rest), hdrop, hend,
        List.append_cons]
      exact (passes_quotation hquote hnone).append (ih hus)
  | case12 _ _ _ _ _ _ _ _ _ _ ih | case13 _ _ _ _ _ _ _ _ _ _ _ ih
  | case14 _ _ _ _ _ _ _ _ _ _ _ _ ih =>
      obtain ⟨us, hus, -⟩ := bind_eq_ok_iff.1 h
      exact .cons (hstanding (by decide)) (ih hus)
  | case15 => cases h
  | case16 c rest _ _ _ _ _ _ _ _ _ _ _ _ _ hword _ ih =>
      obtain ⟨us, hus, -⟩ := bind_eq_ok_iff.1 h
      refine .cons (isPlain_of_isWordChar hdepth hword) ?_
      rw [← List.takeWhile_append_dropWhile (p := Filter.isWordChar) (l := rest)]
      refine .append (passes_of_forall fun d hd => ?_) (ih hus)
      exact isPlain_of_isWordChar hdepth (List.mem_takeWhile_imp hd)
  | case17 => cases h

end Lexemes

section Joined

variable {aliases : Dictionary String String} {request : String}

theorem foldr_consFirst (xs part : List Char) (parts : List (List Char)) :
    xs.foldr consFirst (part :: parts) = (xs ++ part) :: parts := by
  induction xs with
  | nil => rfl
  | cons c rest ih => rw [List.foldr_cons, ih, consFirst, List.cons_append]

theorem passes_join {depth : Int} {sep : String} {texts : List String}
    (hsep : Passes depth sep.toList) (h : ∀ t ∈ texts, Passes depth t.toList) :
    Passes depth (Text.join sep texts).toList := by
  induction texts with
  | nil => exact passes_nil
  | cons t rest ih =>
      rw [List.forall_mem_cons] at h
      cases rest with
      | nil =>
          rw [Text.join, String.intercalate_singleton]
          exact h.1
      | cons u rest =>
          rw [Text.join, String.intercalate_cons_cons, String.toList_append, String.toList_append]
          exact (h.1.append hsep).append (ih h.2)

/-- Texts that are passed over are the parts of what they are joined to, but for blanks. -/
theorem exists_parts_of_joined {texts : List String} (hne : texts ≠ [])
    (h : ∀ t ∈ texts, Passes 0 t.toList) :
    ∃ found, splitParts? none 0 (Text.join " + " texts).toList = some found ∧
      found.map Text.trimChars = texts.map fun t => Text.trimChars t.toList := by
  induction texts with
  | nil => exact absurd rfl hne
  | cons t rest ih =>
      rw [List.forall_mem_cons] at h
      cases rest with
      | nil =>
          refine ⟨[t.toList], ?_, rfl⟩
          have hend : splitParts? none 0 [] = some [[]] := rfl
          have hall := h.1 []
          rw [hend, List.append_nil, Option.map_some, foldr_consFirst, List.append_nil] at hall
          rw [Text.join, String.intercalate_singleton, hall]
      | cons u rest =>
          obtain ⟨found, hfound, htrim⟩ := ih (List.cons_ne_nil u rest) h.2
          obtain ⟨next, others, rfl⟩ : ∃ next others, found = next :: others :=
            List.exists_cons_of_ne_nil fun hnil => by
              rw [hnil] at htrim
              cases htrim
          refine ⟨(t.toList ++ [' ']) :: (' ' :: next) :: others, ?_, ?_⟩
          · have hsign : ∀ more, splitParts? none 0 (' ' :: '+' :: ' ' :: more) =
                (splitParts? none 0 more).map fun parts => [' '] :: consFirst ' ' parts := by
              intro more
              have hblank : splitParts? none 0 (' ' :: more) =
                  (splitParts? none 0 more).map (consFirst ' ') := rfl
              have hend : splitParts? none 0 (' ' :: '+' :: ' ' :: more) =
                  ((splitParts? none 0 (' ' :: more)).map ([] :: ·)).map (consFirst ' ') := rfl
              rw [hend, hblank, Option.map_map, Option.map_map]
              rfl
            have hall := h.1 (' ' :: '+' :: ' ' :: (Text.join " + " (u :: rest)).toList)
            rw [hsign, hfound, Option.map_some, Option.map_some, foldr_consFirst] at hall
            rw [Text.join, String.intercalate_cons_cons, String.append_assoc,
              String.toList_append, String.toList_append]
            exact hall
          · have hblank : Text.isBlank ' ' := by decide
            rw [List.map_cons, List.map_cons, Text.trimChars_concat_blank hblank,
              Text.trimChars_blank_cons hblank, ← List.map_cons (f := Text.trimChars), htrim]
            rfl

theorem parsePart_congr {xs ys : List Char} (h : Text.trimChars xs = Text.trimChars ys) :
    parsePart aliases request xs = parsePart aliases request ys := by
  unfold parsePart
  rw [h]

/-- Each of the texts is read on its own. -/
theorem parse_joined {texts : List String} (hne : texts ≠ [])
    (h : ∀ t ∈ texts, Passes 0 t.toList) :
    parse aliases (Text.join " + " texts) =
      texts.mapM fun t => parsePart aliases (Text.join " + " texts) t.toList := by
  obtain ⟨found, hfound, htrim⟩ := exists_parts_of_joined hne h
  have hsame : List.Forall₂ (· = ·) (found.map Text.trimChars)
      (texts.map fun t => Text.trimChars t.toList) := by
    rw [htrim, List.forall₂_eq_eq_eq]
  rw [List.forall₂_map_left_iff, List.forall₂_map_right_iff] at hsame
  simp only [parse, hfound]
  exact mapM_congr (hsame.imp fun _ _ => parsePart_congr)

end Joined

end Request
end ClusterPlan
