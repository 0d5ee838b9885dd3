import ClusterPlan.Proofs.Request.Scanning

/-!
The levels of a part as text. A level is read back from its text if its name and its count are such as
a level can be written with, and the levels of a part are found between the slashes.
-/

namespace ClusterPlan

section Counts

theorem Decimal.digits_of_forall {cs : List Char} (h : ∀ c ∈ cs, c.isDigit) :
    Decimal.digits cs = (cs.map fun c => c.toNat - '0'.toNat, []) := by
  induction cs with
  | nil => rfl
  | cons c rest ih =>
      rw [List.forall_mem_cons] at h
      have hdigit : Decimal.digit? c = some (c.toNat - '0'.toNat) :=
        if_pos (by simpa [Char.isDigit, Char.le_def] using h.1)
      rw [Decimal.digits, hdigit, ih h.2]
      rfl

theorem Decimal.readNat?_toString {bound n : Nat} (h : n ≤ bound) :
    Decimal.readNat? bound (toString n) = some n := by
  have hall : ∀ c ∈ Nat.toDigits 10 n, c.isDigit := fun c hc =>
    Nat.isDigit_of_mem_toDigits (by decide) (by decide) hc
  have hvalue : Decimal.ofDigits ((Nat.toDigits 10 n).map fun c => c.toNat - '0'.toNat) = n := by
    rw [Decimal.ofDigits, List.foldl_map]
    exact Nat.ofDigitChars_ten_toDigits
  obtain ⟨c, rest, hcons⟩ := List.exists_cons_of_ne_nil (Nat.toDigits_ne_nil (n := n) (b := 10))
  rw [hcons] at hall hvalue
  have hsign : c ≠ '+' := by
    rintro rfl
    exact absurd (hall '+' List.mem_cons_self) (by decide)
  have hread := Decimal.digits_of_forall hall
  rw [List.map_cons] at hread hvalue
  have hunsigned : Decimal.readNat? bound (String.ofList (c :: rest)) =
      if n ≤ bound then some n else none := by
    unfold Decimal.readNat?
    rw [String.toList_ofList]
    split
    · rename_i hplus
      exact absurd (List.cons.inj hplus).1 hsign
    · simp only [hread, hvalue]
  rw [Nat.toString_eq_ofList_toDigits, hcons, hunsigned, if_pos h]

end Counts

namespace Request

variable {aliases : Dictionary String String} {request : String} {l : Level} {levels : List Level}

/-- A name that stands for itself wherever the name of a level can stand. -/
structure IsPlainName (aliases : Dictionary String String) (name : String) : Prop where
  ne_empty : name ≠ ""
  trimmed : Text.trim name = name
  plain : ∀ c ∈ name.toList, c ∉ ['/', '=', '+', '{', '}', '\'', '"']
  unaliased : aliases.get? name = none

theorem isPlainName_iff {name : String} : IsPlainName aliases name ↔
    name ≠ "" ∧ Text.trim name = name ∧
      (name.toList.all fun c => c ∉ ['/', '=', '+', '{', '}', '\'', '"']) = true ∧
      aliases.get? name = none := by
  simp only [List.all_eq_true, decide_eq_true_eq]
  exact ⟨fun h => ⟨h.ne_empty, h.trimmed, h.plain, h.unaliased⟩,
    fun h => ⟨h.1, h.2.1, h.2.2.1, h.2.2.2⟩⟩

instance (name : String) : Decidable (IsPlainName aliases name) :=
  decidable_of_iff _ isPlainName_iff.symm

/-- A level that can be written. -/
structure IsPlainLevel (aliases : Dictionary String String) (l : Level) : Prop where
  name : IsPlainName aliases l.property
  positive : 1 ≤ l.count
  bounded : l.count ≤ Number.greatestCount

theorem isPlainLevel_iff : IsPlainLevel aliases l ↔
    IsPlainName aliases l.property ∧ 1 ≤ l.count ∧ l.count ≤ Number.greatestCount :=
  ⟨fun h => ⟨h.name, h.positive, h.bounded⟩, fun h => ⟨h.1, h.2.1, h.2.2⟩⟩

instance (l : Level) : Decidable (IsPlainLevel aliases l) :=
  decidable_of_iff _ isPlainLevel_iff.symm

theorem toList_level (l : Level) :
    l.text.toList = l.property.toList ++ ('=' :: Nat.toDigits 10 l.count) := by
  simp [Level.text, String.toList_append]

theorem of_mem_digits {c : Char} {n : Nat} (h : c ∈ Nat.toDigits 10 n) :
    IsPlain 0 c ∧ c ≠ '/' ∧ ¬ Text.isBlank c := by
  have hword : Filter.isWordChar c := by
    have hdigit : c.isDigit := Nat.isDigit_of_mem_toDigits (by decide) (by decide) h
    have hlt : c.toNat < 0x80 := by
      have hle := (Char.isDigit_iff_toNat.1 hdigit).2
      exact Nat.lt_of_le_of_lt hle (by decide)
    simp [Filter.isWordChar, Text.isAlphanumeric, hlt, Char.isAlphanum, hdigit]
  have hne : ∀ d, Filter.isWordChar d = false → c ≠ d := by
    rintro d hd rfl
    rw [hword] at hd
    cases hd
  obtain ⟨hblank, hquote, -⟩ := Filter.of_isWordChar hword
  exact ⟨⟨hquote, hne '{' (by decide), hne '}' (by decide), fun h => absurd h (hne '+' (by decide))⟩,
    hne '/' (by decide), hblank⟩

theorem IsPlainName.isPlain {name : String} (h : IsPlainName aliases name) {c : Char}
    (hc : c ∈ name.toList) : IsPlain 0 c := by
  have hplain := h.plain c hc
  simp only [List.mem_cons, List.not_mem_nil, or_false, not_or] at hplain
  obtain ⟨-, -, hsign, hopening, hclosing, happostrophe, hquote⟩ := hplain
  exact ⟨not_or.2 ⟨happostrophe, hquote⟩, hopening, hclosing, fun h => absurd h hsign⟩

theorem passes_level (h : IsPlainLevel aliases l) : Passes 0 l.text.toList := by
  rw [toList_level]
  refine .append (passes_of_forall fun c hc => h.name.isPlain hc) (.cons ?_ ?_)
  · exact ⟨by decide, by decide, by decide, by decide⟩
  · exact passes_of_forall fun c hc => (of_mem_digits hc).1

theorem trimChars_name {name : String} (h : IsPlainName aliases name) :
    Text.trimChars name.toList = name.toList := by
  have htrim := congrArg String.toList h.trimmed
  rwa [Text.trim, String.toList_ofList] at htrim

theorem trimChars_digits (n : Nat) : Text.trimChars (Nat.toDigits 10 n) = Nat.toDigits 10 n :=
  Text.trimChars_eq_self_of_forall fun _ hd => (of_mem_digits hd).2.2

theorem toList_ne_nil {s : String} (h : s ≠ "") : s.toList ≠ [] :=
  fun hnil => h (String.toList_eq_nil_iff.1 hnil)

theorem trimChars_level (h : IsPlainLevel aliases l) :
    Text.trimChars l.text.toList = l.text.toList := by
  rw [toList_level]
  exact Text.trimChars_between (trimChars_name h.name) (trimChars_digits l.count)
    (toList_ne_nil h.name.ne_empty) Nat.toDigits_ne_nil ['=']

theorem not_mem_level (h : IsPlainLevel aliases l) : '/' ∉ l.text.toList := by
  rw [toList_level, List.mem_append, List.mem_cons]
  rintro (hmem | heq | hmem)
  · exact h.name.plain '/' hmem (by decide)
  · exact absurd heq (by decide)
  · exact (of_mem_digits hmem).2.1 rfl

theorem parseLevel_text (h : IsPlainLevel aliases l) :
    parseLevel aliases request l.text.toList = .ok l := by
  have hequal : '=' ∉ l.property.toList := fun hmem => h.name.plain '=' hmem (by decide)
  have hcount : Decimal.readNat? Number.greatestCount
      (String.ofList (Nat.toDigits 10 l.count)) = some l.count :=
    Decimal.readNat?_toString h.bounded
  have hzero : l.count ≠ 0 := Nat.one_le_iff_ne_zero.1 h.positive
  rw [toList_level, parseLevel, Text.cutChars?_of_not_mem hequal]
  simp only [trimChars_name h.name, trimChars_digits, hcount, String.ofList_toList,
    h.name.ne_empty, hzero, or_self, if_false, h.name.unaliased, Option.getD_none]

/-- The levels of a part as one text. -/
def levelsText (levels : List Level) : String := Text.join "/" (levels.map Level.text)

theorem levelsText_cons_cons (l l' : Level) (rest : List Level) :
    (levelsText (l :: l' :: rest)).toList =
      l.text.toList ++ ('/' :: (levelsText (l' :: rest)).toList) := by
  simp [levelsText, Text.join, String.toList_append]

theorem passes_levelsText (h : ∀ l ∈ levels, IsPlainLevel aliases l) :
    Passes 0 (levelsText levels).toList := by
  refine passes_join ?_ ?_
  · exact .cons ⟨by decide, by decide, by decide, by decide⟩ passes_nil
  · intro t ht
    obtain ⟨l, hl, rfl⟩ := List.mem_map.1 ht
    exact passes_level (h l hl)

theorem level_text_ne_nil (l : Level) : l.text.toList ≠ [] := by
  rw [toList_level]
  exact List.append_ne_nil_of_right_ne_nil _ (List.cons_ne_nil _ _)

theorem levelsText_ne_nil (hne : levels ≠ []) : (levelsText levels).toList ≠ [] := by
  obtain ⟨l, rest, rfl⟩ := List.exists_cons_of_ne_nil hne
  cases rest with
  | nil => exact level_text_ne_nil l
  | cons l' rest =>
      rw [levelsText_cons_cons]
      exact List.append_ne_nil_of_left_ne_nil (level_text_ne_nil l) _

theorem trimChars_levelsText (h : ∀ l ∈ levels, IsPlainLevel aliases l) :
    Text.trimChars (levelsText levels).toList = (levelsText levels).toList := by
  induction levels with
  | nil => rfl
  | cons l rest ih =>
      rw [List.forall_mem_cons] at h
      cases rest with
      | nil => exact trimChars_level h.1
      | cons l' rest =>
          rw [levelsText_cons_cons]
          exact Text.trimChars_between (trimChars_level h.1) (ih h.2) (level_text_ne_nil l)
            (levelsText_ne_nil (List.cons_ne_nil l' rest)) ['/']

/-- The levels are found between the slashes. -/
theorem names_levelsText (hne : levels ≠ []) (h : ∀ l ∈ levels, IsPlainLevel aliases l) :
    ((Text.splitChars '/' (levelsText levels).toList).map Text.trimChars).filter (· ≠ []) =
      levels.map fun l => l.text.toList := by
  have hsplit : Text.splitChars '/' (levelsText levels).toList =
      levels.map fun l => l.text.toList := by
    have htexts : (levelsText levels).toList =
        ['/'].intercalate (levels.map fun l => l.text.toList) := by
      rw [levelsText, Text.join, String.toList_intercalate, List.map_map]
      rfl
    rw [Text.splitChars_eq_splitOn, htexts]
    refine List.splitOn_intercalate '/' ?_ (fun hnil => hne (List.map_eq_nil_iff.1 hnil))
    intro text htext
    obtain ⟨l, hl, rfl⟩ := List.mem_map.1 htext
    exact not_mem_level (h l hl)
  have htrim : (levels.map fun l => l.text.toList).map Text.trimChars =
      levels.map fun l => l.text.toList := by
    rw [List.map_map]
    exact List.map_congr_left fun l hl => trimChars_level (h l hl)
  rw [hsplit, htrim, List.filter_eq_self]
  intro text htext
  obtain ⟨l, hl, rfl⟩ := List.mem_map.1 htext
  exact decide_eq_true (level_text_ne_nil l)

theorem mapM_parseLevel (h : ∀ l ∈ levels, IsPlainLevel aliases l) :
    (levels.map fun l => l.text.toList).mapM (parseLevel aliases request) = .ok levels := by
  rw [List.mapM_map]
  have hall : ∀ l ∈ levels,
      (parseLevel aliases request ∘ fun l => l.text.toList) l = .ok (id l) := fun l hl =>
    parseLevel_text (h l hl)
  rw [mapM_eq_ok_of_forall hall, List.map_id]

end Request
end ClusterPlan
