import ClusterPlan.Config
import ClusterPlan.Proofs.Filter.Grammar
import ClusterPlan.Proofs.Request.Levels

/-!
Writing requests. The parts of a request are written one after the other with `+` between them, and
they are read back from that text if and only if no filter contains a closing brace. A filter can
contain one only in a quotation; the search for the next part passes it over, but the filter is taken
to end there.
-/

namespace ClusterPlan.Request

variable {aliases : Dictionary String String} {request : String} {levels : List Level} {p : Part}
  {parts : List Part}

/-- A part that can be written: its filter is accepted and has no blanks around it, and it has a
level. -/
structure Writable (aliases : Dictionary String String) (p : Part) : Prop where
  filter : ∀ f ∈ p.filter, Text.trim f = f ∧ ∃ g, Filter.parse f = .ok g
  levels_ne_nil : p.levels ≠ []
  levels : ∀ l ∈ p.levels, IsPlainLevel aliases l

/-- The parts as one text. -/
def text (parts : List Part) : String := Text.join " + " (parts.map Part.text)

theorem toList_part_of_none (levels : List Level) :
    (Part.text ⟨none, levels⟩).toList = (levelsText levels).toList := by
  simp [Part.text, levelsText]

theorem toList_part_of_some {f : String} {levels : List Level} (hne : levels ≠ []) :
    (Part.text ⟨some f, levels⟩).toList =
      '{' :: (f.toList ++ '}' :: '/' :: (levelsText levels).toList) := by
  simp [Part.text, levelsText, String.toList_append, hne]

theorem passes_part (h : Writable aliases p) : Passes 0 p.text.toList := by
  obtain ⟨filter, levels⟩ := p
  have hlevels := passes_levelsText h.levels
  cases filter with
  | none =>
      rw [toList_part_of_none]
      exact hlevels
  | some f =>
      obtain ⟨-, g, hg⟩ := h.filter f rfl
      obtain ⟨ts, hts, -⟩ := Filter.parse_eq_ok_iff.1 hg
      have hfilter : Passes 0 ('{' :: (f.toList ++ ['}'])) :=
        passes_braces (passes_of_tokens (by decide) hts)
      have hslash : Passes 0 ('/' :: (levelsText levels).toList) :=
        .cons ⟨by decide, by decide, by decide, by decide⟩ hlevels
      have hall := hfilter.append hslash
      rw [toList_part_of_some h.levels_ne_nil]
      simpa using hall

theorem trimChars_part (h : Writable aliases p) :
    Text.trimChars p.text.toList = p.text.toList := by
  obtain ⟨filter, levels⟩ := p
  have hlevels := trimChars_levelsText h.levels
  cases filter with
  | none =>
      rw [toList_part_of_none]
      exact hlevels
  | some f =>
      rw [toList_part_of_some h.levels_ne_nil]
      have hopening : Text.trimChars ['{'] = ['{'] := by decide
      have hall := Text.trimChars_between hopening hlevels (List.cons_ne_nil _ _)
        (levelsText_ne_nil h.levels_ne_nil) (f.toList ++ ['}', '/'])
      simpa using hall

theorem part_ne_nil (h : Writable aliases p) : p.text.toList ≠ [] := by
  obtain ⟨filter, levels⟩ := p
  cases filter with
  | none =>
      rw [toList_part_of_none]
      exact levelsText_ne_nil h.levels_ne_nil
  | some f =>
      rw [toList_part_of_some h.levels_ne_nil]
      exact List.cons_ne_nil _ _

/-- The first character of the levels belongs to a name. -/
theorem exists_first_of_levels (hne : levels ≠ []) (h : ∀ l ∈ levels, IsPlainLevel aliases l) :
    ∃ c rest, (levelsText levels).toList = c :: rest ∧ c ≠ '{' := by
  obtain ⟨l, others, rfl⟩ := List.exists_cons_of_ne_nil hne
  have hl := (h l List.mem_cons_self).name
  obtain ⟨c, name, hname⟩ := List.exists_cons_of_ne_nil (toList_ne_nil hl.ne_empty)
  have hc : c ≠ '{' := (hl.isPlain (hname ▸ List.mem_cons_self)).opening
  have hlevel : l.text.toList = c :: (name ++ '=' :: Nat.toDigits 10 l.count) := by
    rw [toList_level, hname, List.cons_append]
  cases others with
  | nil => exact ⟨c, _, hlevel, hc⟩
  | cons l' rest =>
      have hlevels := levelsText_cons_cons l l' rest
      rw [hlevel, List.cons_append] at hlevels
      exact ⟨c, _, hlevels, hc⟩

theorem splitFilter_of_none (hne : levels ≠ []) (h : ∀ l ∈ levels, IsPlainLevel aliases l) :
    splitFilter request (levelsText levels).toList = .ok (none, (levelsText levels).toList) := by
  obtain ⟨c, rest, hcons, hc⟩ := exists_first_of_levels hne h
  rw [hcons, splitFilter]
  rintro _ heq
  exact hc (List.cons.inj heq).1

theorem splitFilter_of_some {f : String} (hne : levels ≠ [])
    (h : ∀ l ∈ levels, IsPlainLevel aliases l) (htrim : Text.trim f = f) (hf : f ≠ "")
    (hclosing : '}' ∉ f.toList) :
    splitFilter request ('{' :: (f.toList ++ '}' :: '/' :: (levelsText levels).toList)) =
      .ok (some f, (levelsText levels).toList) := by
  have hslash : Text.trimChars ('/' :: (levelsText levels).toList) =
      '/' :: (levelsText levels).toList := by
    have hslash : Text.trimChars ['/'] = ['/'] := by decide
    exact Text.trimChars_between hslash (trimChars_levelsText h) (List.cons_ne_nil _ _)
      (levelsText_ne_nil hne) []
  have hfilter : String.ofList (Text.trimChars f.toList) = f := htrim
  simp only [splitFilter, Text.cutChars?_of_not_mem hclosing, hslash, hfilter, hf, if_false]

/-- A filter with a closing brace is taken to end there. -/
theorem splitFilter_ne {f : String} {rest levels : List Char} {found : Option String}
    (hclosing : '}' ∈ f.toList)
    (h : splitFilter request ('{' :: (f.toList ++ rest)) = .ok (found, levels)) :
    found ≠ some f := by
  obtain ⟨front, back, hsplit, hfront⟩ := List.eq_append_cons_of_mem hclosing
  rw [hsplit, List.append_assoc, List.cons_append, splitFilter,
    Text.cutChars?_of_not_mem hfront] at h
  simp only at h
  have hfound := congrArg Prod.fst (Except.ok.inj h)
  dsimp only at hfound
  rintro rfl
  split at hfound
  · cases hfound
  · have hshort := (Text.trimChars_sublist front).length_le
    have hsame := congrArg String.toList (Option.some.inj hfound)
    rw [String.toList_ofList] at hsame
    rw [hsame, hsplit, List.length_append, List.length_cons] at hshort
    omega

theorem parsePart_of_splitFilter {filter : Option String} (h : Writable aliases p)
    (hsplit : splitFilter request p.text.toList = .ok (filter, (levelsText p.levels).toList)) :
    parsePart aliases request p.text.toList = .ok ⟨filter, p.levels⟩ := by
  have hnames := names_levelsText h.levels_ne_nil h.levels
  have hlevels : (p.levels.map fun l => l.text.toList).mapM (parseLevel aliases request) =
      .ok p.levels := mapM_parseLevel h.levels
  unfold parsePart
  rw [trimChars_part h]
  simp only [part_ne_nil h, if_false, hsplit]
  refine bind_eq_ok_iff.2 ⟨_, rfl, bind_eq_ok_iff.2 ⟨p.levels, ?_, ?_⟩⟩
  · rw [hnames]
    exact hlevels
  · rw [if_neg h.levels_ne_nil]
    rfl

theorem splitFilter_of_parsePart {q : Part} (h : Writable aliases p)
    (hread : parsePart aliases request p.text.toList = .ok q) :
    ∃ levels, splitFilter request p.text.toList = .ok (q.filter, levels) := by
  unfold parsePart at hread
  rw [trimChars_part h] at hread
  simp only [part_ne_nil h, if_false] at hread
  obtain ⟨⟨filter, levels⟩, hsplit, hread⟩ := bind_eq_ok_iff.1 hread
  obtain ⟨found, -, hread⟩ := bind_eq_ok_iff.1 hread
  split at hread
  · cases hread
  · cases hread
    exact ⟨levels, hsplit⟩

theorem parsePart_text_iff (h : Writable aliases p) :
    parsePart aliases request p.text.toList = .ok p ↔ ∀ f ∈ p.filter, '}' ∉ f.toList := by
  obtain ⟨filter, levels⟩ := p
  cases filter with
  | none =>
      refine iff_of_true (parsePart_of_splitFilter h ?_) nofun
      rw [toList_part_of_none]
      exact splitFilter_of_none h.levels_ne_nil h.levels
  | some f =>
      have htext := toList_part_of_some (f := f) h.levels_ne_nil
      obtain ⟨htrim, g, hg⟩ := h.filter f rfl
      constructor
      · rintro hread _ ⟨⟩ hclosing
        obtain ⟨found, hsplit⟩ := splitFilter_of_parsePart h hread
        rw [htext] at hsplit
        exact splitFilter_ne hclosing hsplit rfl
      · intro hclosing
        have hne : f ≠ "" := by
          rintro rfl
          obtain ⟨ts, hts, hderives⟩ := Filter.parse_eq_ok_iff.1 hg
          cases Filter.tokens_nil.symm.trans hts
          cases Filter.parseTokens_eq_ok_iff.2 hderives
        refine parsePart_of_splitFilter h ?_
        rw [htext]
        exact splitFilter_of_some h.levels_ne_nil h.levels htrim hne (hclosing f rfl)

/-- Parts that can be written are read back from their text exactly if none of their filters contains
a closing brace. -/
theorem parse_text_eq_ok_iff (hne : parts ≠ []) (h : ∀ p ∈ parts, Writable aliases p) :
    parse aliases (text parts) = .ok parts ↔ ∀ p ∈ parts, ∀ f ∈ p.filter, '}' ∉ f.toList := by
  have hpasses : ∀ t ∈ parts.map Part.text, Passes 0 t.toList := by
    intro t ht
    obtain ⟨p, hp, rfl⟩ := List.mem_map.1 ht
    exact passes_part (h p hp)
  have hread : parse aliases (text parts) =
      parts.mapM fun p => parsePart aliases (text parts) p.text.toList := by
    rw [text, parse_joined (fun hnil => hne (List.map_eq_nil_iff.1 hnil)) hpasses, List.mapM_map]
    rfl
  rw [hread]
  constructor
  · intro hall p hp
    have hown := List.forall₂_same.1 (forall₂_of_mapM hall) p hp
    exact (parsePart_text_iff (h p hp)).1 hown
  · intro hall
    have hown : ∀ p ∈ parts, parsePart aliases (text parts) p.text.toList = .ok (id p) :=
      fun p hp => (parsePart_text_iff (h p hp)).2 (hall p hp)
    rw [mapM_eq_ok_of_forall hown, List.map_id]

/-- A sign, a slash and an opening brace in quotations, and a name with a blank in it. -/
def mixedParts : List Part :=
  [⟨some "owner = \"o'n+l\" OR name IN ('\x7b', 'b/c=1')", [⟨"network_address", 2⟩, ⟨"core", 4⟩]⟩,
    ⟨none, [⟨"switch 1", 4294967295⟩]⟩]

theorem parse_text_eq_ok_iff_mixed :
    (mixedParts ≠ [] ∧ ∀ p ∈ mixedParts, Writable [("nodes", "network_address")] p) ∧
      parse [("nodes", "network_address")]
        ("\x7bowner = \"o'n+l\" OR name IN ('\x7b', 'b/c=1')\x7d/network_address=2/core=4" ++
          " + switch 1=4294967295") = .ok mixedParts := by
  have hparse : Filter.parse "owner = \"o'n+l\" OR name IN ('\x7b', 'b/c=1')" =
      .ok (.or (.compare "owner" .equal "o'n+l") (.among "name" ["\x7b", "b/c=1"] false)) := by
    decide +kernel
  have hwritable : ∀ p ∈ mixedParts, Writable [("nodes", "network_address")] p := by
    rw [mixedParts, List.forall_mem_cons, List.forall_mem_singleton]
    refine ⟨⟨?_, by decide, by decide⟩, ⟨nofun, by decide, by decide⟩⟩
    rintro f ⟨⟩
    exact ⟨by decide, _, hparse⟩
  have hread := (parse_text_eq_ok_iff (List.cons_ne_nil _ _) hwritable).2 (by decide)
  exact ⟨⟨List.cons_ne_nil _ _, hwritable⟩, hread⟩

/-- A closing brace in the quotation of a filter. -/
def bracedParts : List Part := [⟨some "gpu = '\x7d'", [⟨"resource_id", 1⟩]⟩]

/-- The filter is taken to end within its quotation, and what is left of it for a level. -/
theorem parse_text_bracedParts :
    (∀ p ∈ bracedParts, Writable Config.defaultAliases p) ∧
      parse Config.defaultAliases (text bracedParts) =
        .error (.levelForm "'\x7d" "\x7bgpu = '\x7d'\x7d/resource_id=1") := by
  have hparse : Filter.parse "gpu = '\x7d'" = .ok (.compare "gpu" .equal "\x7d") := by
    decide +kernel
  have hwritable : ∀ p ∈ bracedParts, Writable Config.defaultAliases p := by
    rw [bracedParts, List.forall_mem_singleton]
    refine ⟨?_, by decide, by decide⟩
    rintro f ⟨⟩
    exact ⟨by decide, _, hparse⟩
  exact ⟨hwritable, by decide⟩

end ClusterPlan.Request
