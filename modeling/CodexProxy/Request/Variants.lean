import CodexProxy.Request.Model
import CodexProxy.Library.Replace
import CodexProxy.Library.Slices

/-! Variants of the known models, such as dated snapshots. A variant is a known id, a dash
and anything else; its effort suffix is stripped and the families are tried in order. All
families but one are found by their ids, and the variants of `gpt-5.5` fall through. -/
namespace CodexProxy.Request

/-- The id in some letter case, and with whitespace around it. -/
def Writes (m id : String) : Prop :=
  ∃ before v after, m.toList = before ++ v ++ after ∧ Text.Blank before ∧ Text.Blank after ∧
    v.map Char.toLower = (Text.toAsciiLowercase id).toList

/-- What follows the id of a variant, in lower case and without whitespace at its end. -/
def variantRest (s : String) : String := Text.trim (Text.toAsciiLowercase ("-" ++ s))

/-- What the families below `gpt-5.6` are found by. -/
def FAMILY_MARKS : List String := ["gpt-5.1", "gpt-5.2", "gpt-5.4", "mini", "4o", "codex"]

/-- An effort and nothing else, or a mark of another family before the effort. -/
def Recognized (rest : String) : Prop :=
  rest ∈ EFFORT_SUFFIXES ∨ ∃ mark ∈ FAMILY_MARKS, Text.contains (stripEffortSuffix rest) mark = true

theorem stripSuffix_eq_some {s back rest : String} :
    Text.stripSuffix s back = some rest ↔ s = rest ++ back := by
  rw [Text.stripSuffix, Text.endsWith]
  constructor
  · intro found
    obtain ⟨ends, same⟩ := Option.ite_none_right_eq_some.mp found
    obtain ⟨front, split⟩ := List.isSuffixOf_iff_suffix.mp ends
    rw [← Option.some.inj same, ← split, List.length_append, Nat.add_sub_cancel, List.take_left']
    · rw [← String.toList_inj, ← split, String.toList_append, String.toList_ofList]
    · rfl
  · rintro rfl
    have ends : back.toList.isSuffixOf (rest ++ back).toList = true := by
      rw [List.isSuffixOf_iff_suffix, String.toList_append]
      exact List.suffix_append _ _
    rw [if_pos ends, String.toList_append, List.length_append, Nat.add_sub_cancel,
      List.take_left' rfl, String.ofList_toList]

/-- A dash starts a suffix and is nowhere else in it. -/
theorem effort_dash : ∀ suffix ∈ EFFORT_SUFFIXES,
    suffix.toList = '-' :: suffix.toList.tail ∧ '-' ∉ suffix.toList.tail := by
  decide

/-- What is left of a name: it ends in an effort, or it ends in none and is kept. -/
def Stripped (lower left : String) : Prop :=
  (∃ suffix ∈ EFFORT_SUFFIXES, lower = left ++ suffix) ∨
    left = lower ∧ ∀ suffix ∈ EFFORT_SUFFIXES, ∀ front, lower ≠ front ++ suffix

theorem stripEffortSuffix_spec (lower : String) : Stripped lower (stripEffortSuffix lower) := by
  rw [stripEffortSuffix]
  cases found : EFFORT_SUFFIXES.findSome? (Text.stripSuffix lower) with
  | none =>
    right
    refine ⟨rfl, fun suffix member front same => ?_⟩
    have kept := List.findSome?_eq_none_iff.mp found suffix member
    rw [stripSuffix_eq_some.mpr same] at kept
    cases kept
  | some left =>
    left
    obtain ⟨suffix, member, strips⟩ := List.exists_of_findSome?_eq_some found
    exact ⟨suffix, member, stripSuffix_eq_some.mp strips⟩

/-- The last dash tells where the effort starts. -/
theorem Stripped.unique (one : Stripped lower left) (two : Stripped lower left') :
    left = left' := by
  rcases one with ⟨suffix, member, same⟩ | ⟨rfl, kept⟩ <;>
    rcases two with ⟨suffix', member', same'⟩ | ⟨rfl, kept'⟩
  · obtain ⟨starts, once⟩ := effort_dash suffix member
    obtain ⟨starts', once'⟩ := effort_dash suffix' member'
    have chars := congrArg String.toList (same.symm.trans same')
    rw [String.toList_append, String.toList_append, starts, starts'] at chars
    exact String.toList_inj.mp (Text.append_cons_inj_last once once' chars).1
  · exact absurd same (kept' suffix member _)
  · exact absurd same' (kept suffix' member' _)
  · rfl

/-- Behind a dash stripping does not see what is in front. -/
theorem stripEffortSuffix_append (front : String) {rest : String}
    (dash : rest.toList = '-' :: level) :
    stripEffortSuffix (front ++ rest) = front ++ stripEffortSuffix rest := by
  refine (stripEffortSuffix_spec (front ++ rest)).unique ?_
  rcases stripEffortSuffix_spec rest with ⟨suffix, member, same⟩ | ⟨kept, ends⟩
  · exact .inl ⟨suffix, member, by rw [String.append_assoc, ← same]⟩
  · rw [kept]
    refine .inr ⟨rfl, fun suffix member other same => ?_⟩
    obtain ⟨starts, once⟩ := effort_dash suffix member
    have chars := congrArg String.toList same
    rw [String.toList_append, String.toList_append] at chars
    rcases List.append_eq_append_iff.mp chars with ⟨more, _, inside⟩ | ⟨more, _, outside⟩
    · refine ends suffix member (String.ofList more) (String.toList_inj.mp ?_)
      rw [inside, String.toList_append, String.toList_ofList]
    · cases more with
      | nil => exact ends suffix member "" (by simpa [String.ext_iff] using outside.symm)
      | cons c more =>
        rw [starts, dash, List.cons_append, List.cons_eq_cons] at outside
        exact once (outside.2 ▸ List.mem_append_right more List.mem_cons_self)

/-- Nothing is left exactly of an effort. -/
theorem stripEffortSuffix_eq_empty {rest : String} (shows : rest ≠ "") :
    stripEffortSuffix rest = "" ↔ rest ∈ EFFORT_SUFFIXES := by
  constructor
  · intro empty
    rcases empty ▸ stripEffortSuffix_spec rest with ⟨suffix, member, rfl⟩ | ⟨same, _⟩
    · rwa [String.empty_append]
    · exact absurd same.symm shows
  · intro member
    exact (stripEffortSuffix_spec rest).unique (.inl ⟨rest, member, (String.empty_append).symm⟩)

theorem ite_eq_gpt5 {c : Prop} [Decidable c] {family other : String} (better : family ≠ GPT5) :
    (if c then family else other) = GPT5 ↔ ¬ c ∧ other = GPT5 := by
  split
  · rename_i guard
    exact iff_of_false better fun both => both.1 guard
  · rename_i guard
    exact (and_iff_right guard).symm

/-- The flagships' families, which are found by how a name starts. -/
def StartsFlagship (lower : String) : Prop :=
  isGpt6Family lower = true ∨ lower = "gpt-5.6" ∨ Text.startsWith lower "gpt-5.6-" = true

/-- The generic model is for the names by which no family is found. The other guards look
for longer ids, in which one of the marks occurs. -/
theorem modelFamily_eq_gpt5 (lower : String) : modelFamily lower = GPT5 ↔
    ¬ StartsFlagship lower ∧ ∀ mark ∈ FAMILY_MARKS, Text.contains lower mark = false := by
  have longer (part whole : String) (inside : part.toList <:+: whole.toList)
      (absent : Text.contains lower part = false) : Text.contains lower whole = false := by
    rw [Bool.eq_false_iff] at absent ⊢
    exact fun occurs => absent (Text.contains_of_infix inside occurs)
  rw [modelFamily]
  iterate 16 rw [ite_eq_gpt5 (show _ ≠ GPT5 by decide)]
  simp only [Bool.or_eq_true, decide_eq_true_eq, Bool.not_eq_true, not_or, and_true]
  rw [StartsFlagship, not_or, not_or, Bool.not_eq_true, Bool.not_eq_true]
  simp only [FAMILY_MARKS, List.forall_mem_cons, List.not_mem_nil, false_imp_iff, implies_true,
    and_true]
  constructor
  · rintro ⟨gpt6, gpt56, _, _, _, _, gpt54, gpt52, _, _, _, gpt51, _, mini, fourO, _, codex⟩
    exact ⟨⟨gpt6, gpt56⟩, gpt51, gpt52, gpt54, mini, fourO, codex⟩
  · rintro ⟨⟨gpt6, gpt56⟩, gpt51, gpt52, gpt54, mini, fourO, codex⟩
    have spark := longer "codex" "gpt-5.3-codex-spark" (by decide) codex
    have gpt53 := longer "codex" "gpt-5.3-codex" (by decide) codex
    have gpt5Mini := longer "codex" "gpt-5-codex-mini" (by decide) codex
    have gpt5 := longer "codex" "gpt-5-codex" (by decide) codex
    have max := longer "gpt-5.1" "gpt-5.1-codex-max" (by decide) gpt51
    have gpt51Mini := longer "gpt-5.1" "gpt-5.1-codex-mini" (by decide) gpt51
    have gpt51Codex := longer "gpt-5.1" "gpt-5.1-codex" (by decide) gpt51
    exact ⟨gpt6, gpt56, longer "gpt-5.2" _ (by decide) gpt52, spark, gpt53,
      longer "gpt-5.4" _ (by decide) gpt54, gpt54, gpt52, max, gpt51Mini, gpt51Codex, gpt51,
      gpt5Mini, mini, fourO, gpt5, codex⟩

theorem known_shape : ∀ K ∈ KNOWN_MODELS, Text.toAsciiLowercase K = K ∧ Text.Tight K.toList := by
  decide +kernel

/-- A name that starts with a known id other than the generic one is not the generic one. -/
theorem known_append_ne {K : String} (known : K ∈ KNOWN_MODELS) (named : K ≠ GPT5) (rest : String) :
    K ++ rest ≠ GPT5 := by
  have outside : ∀ K ∈ KNOWN_MODELS, K ≠ GPT5 → ¬ K.toList <+: GPT5.toList := by decide +kernel
  intro same
  refine outside K known named ?_
  rw [← same, String.toList_append]
  exact List.prefix_append _ _

theorem lowered_dash (s : String) :
    (Text.toAsciiLowercase ("-" ++ s)).toList = '-' :: (Text.toAsciiLowercase s).toList := by
  rw [Text.toAsciiLowercase_append, String.toList_append]
  rfl

/-- The dash is visible and survives the trimming. -/
theorem variantRest_dash (s : String) : ∃ level, (variantRest s).toList = '-' :: level := by
  have visible : (Text.toAsciiLowercase ("-" ++ s)).toList.head?.any (!Text.isWhitespace ·) = true := by
    rw [lowered_dash]
    rfl
  obtain ⟨after, split, _, some⟩ := Text.trim_split_back visible
  obtain ⟨c, level, shows⟩ := List.exists_cons_of_ne_nil (String.toList_eq_nil_iff.not.mpr some)
  rw [lowered_dash, shows, List.cons_append] at split
  exact ⟨level, by rw [variantRest, shows, ← (List.cons_eq_cons.mp split).1]⟩

/-- A variant, however it is written, is looked up in lower case. -/
theorem lower_of_writes {K s m : String} (known : K ∈ KNOWN_MODELS)
    (written : Writes m (K ++ "-" ++ s)) :
    Text.toAsciiLowercase (Text.trim m) = K ++ variantRest s := by
  obtain ⟨before, v, after, split, front, back, same⟩ := written
  obtain ⟨lowered, tight⟩ := known_shape K known
  have inner : Text.trim m = Text.trim (String.ofList v) :=
    Text.trim_padded (by rw [split, String.toList_ofList]) front back
  have chars : Text.toAsciiLowercase (String.ofList v) = K ++ Text.toAsciiLowercase ("-" ++ s) := by
    rw [Text.toAsciiLowercase, String.toList_ofList, same, String.ofList_toList,
      String.append_assoc, Text.toAsciiLowercase_append, lowered]
  rw [inner, ← Text.trim_toAsciiLowercase, chars, variantRest, Text.trim_append tight]
  rw [lowered_dash]
  rfl

/-- The generic model is chosen after two lookups and all the guards have failed. -/
theorem normalizeModel_eq_gpt5 {K m rest : String} (known : K ∈ KNOWN_MODELS) (named : K ≠ GPT5)
    (lowered : Text.toAsciiLowercase (Text.trim m) = K ++ rest)
    (dash : rest.toList = '-' :: level) : normalizeModel m = GPT5 ↔
      exactModel (K ++ rest) = none ∧ exactModel (K ++ stripEffortSuffix rest) = none ∧
        modelFamily (K ++ stripEffortSuffix rest) = GPT5 := by
  have exact_ne (left : String) {found : String} (hit : exactModel (K ++ left) = some found) :
      found ≠ GPT5 := (exactModel_known hit).1 ▸ known_append_ne known named left
  have shows : K ++ stripEffortSuffix rest ≠ "" := by
    intro empty
    refine (known_shape K known).2.ne_nil ?_
    exact (List.append_eq_nil_iff.mp (by rw [← String.toList_append, empty]; rfl)).1
  rw [normalizeModel, lowered]
  cases whole : exactModel (K ++ rest) with
  | some found => exact iff_of_false (exact_ne rest whole) fun all => nomatch all.1
  | none =>
    dsimp only
    rw [stripEffortSuffix_append K dash, if_neg shows]
    cases stripped : exactModel (K ++ stripEffortSuffix rest) with
    | some found => exact iff_of_false (exact_ne _ stripped) fun all => nomatch all.2.1
    | none => exact ⟨fun same => ⟨rfl, rfl, same⟩, fun all => all.2.2⟩

/-- Every id but one is found by how it starts or by a mark in it. -/
theorem known_found : ∀ K ∈ KNOWN_MODELS, K ≠ GPT5 → K ≠ GPT5_5 →
    Text.startsWith K "gpt-6-" = true ∨ Text.startsWith K "gpt-5.6-" = true ∨
      ∃ mark ∈ FAMILY_MARKS, Text.contains K mark = true := by
  decide +kernel

theorem startsWith_append {s front : String} (starts : Text.startsWith s front = true)
    (rest : String) : Text.startsWith (s ++ rest) front = true := by
  rw [Text.startsWith, List.isPrefixOf_iff_prefix] at starts ⊢
  rw [String.toList_append]
  exact starts.trans (List.prefix_append _ _)

theorem modelFamily_append_ne {K : String} (known : K ∈ KNOWN_MODELS) (named : K ≠ GPT5)
    (other : K ≠ GPT5_5) (rest : String) : modelFamily (K ++ rest) ≠ GPT5 := by
  rw [Ne, modelFamily_eq_gpt5]
  rintro ⟨flagship, absent⟩
  rcases known_found K known named other with gpt6 | gpt56 | ⟨mark, member, occurs⟩
  · refine flagship (.inl ?_)
    rw [isGpt6Family, startsWith_append gpt6, Bool.or_true, Bool.true_or]
  · exact flagship (.inr (.inr (startsWith_append gpt56 rest)))
  · have inside : K.toList <:+: (K ++ rest).toList := by
      rw [String.toList_append]
      exact List.infix_append_left
    rw [Text.contains_iff] at occurs
    have found := Text.contains_iff.mpr (occurs.trans inside)
    rw [absent mark member] at found
    cases found

theorem marks_apart : ∀ mark ∈ FAMILY_MARKS, Text.Apart mark.toList GPT5_5.toList := by
  decide +kernel

theorem gpt55_contains {mark : String} (member : mark ∈ FAMILY_MARKS) (rest : String) :
    Text.contains (GPT5_5 ++ rest) mark = Text.contains rest mark := by
  rw [Bool.eq_iff_iff, Text.contains_iff, Text.contains_iff, String.toList_append]
  constructor
  · exact (marks_apart mark member).infix_append rest.toList
  · exact List.infix_append_of_infix_right

/-- The flagships' families do not start as `gpt-5.5` does. -/
theorem gpt55_not_flagship (rest : String) : ¬ StartsFlagship (GPT5_5 ++ rest) := by
  have split (front : String) (starts : front.toList <+: (GPT5_5 ++ rest).toList) :
      front.toList <+: GPT5_5.toList ∨ GPT5_5.toList <+: front.toList := by
    rw [String.toList_append] at starts
    exact List.prefix_or_prefix_of_prefix starts (List.prefix_append _ _)
  simp only [StartsFlagship, isGpt6Family, Text.startsWith, Bool.or_eq_true, decide_eq_true_eq,
    List.isPrefixOf_iff_prefix]
  rintro (((same | starts) | starts) | same | starts)
  · exact absurd (split "gpt-6" (same ▸ List.prefix_rfl)) (by decide)
  · exact absurd (split _ starts) (by decide)
  · exact absurd (split _ starts) (by decide)
  · exact absurd (split "gpt-5.6" (same ▸ List.prefix_rfl)) (by decide)
  · exact absurd (split _ starts) (by decide)

/-- No known id is a variant of `gpt-5.5`. -/
theorem gpt55_exact (rest : String) : exactModel (GPT5_5 ++ rest) = none ↔ rest ≠ "" := by
  have alone : ∀ K ∈ KNOWN_MODELS, GPT5_5.toList <+: K.toList → K = GPT5_5 := by
    decide +kernel
  rw [exactModel, List.find?_eq_none]
  constructor
  · rintro absent rfl
    exact absent GPT5_5 (by decide) (by decide)
  · intro more K known same
    rw [decide_eq_true_eq] at same
    have starts : GPT5_5.toList <+: K.toList := by
      rw [same, String.toList_append]
      exact List.prefix_append _ _
    rw [alone K known starts] at same
    have chars := congrArg String.toList same
    rw [String.toList_append, List.self_eq_append_right] at chars
    exact more (String.toList_eq_nil_iff.mp chars)

/-- Every variant of a known model stays with a known model, except for the variants of
`gpt-5.5` that ask for more than an effort and are not taken for another family's. -/
theorem variant_ne_gpt5_iff {K s m : String} (known : K ∈ KNOWN_MODELS) (named : K ≠ GPT5)
    (written : Writes m (K ++ "-" ++ s)) :
    normalizeModel m ≠ GPT5 ↔ K ≠ GPT5_5 ∨ Recognized (variantRest s) := by
  obtain ⟨level, dash⟩ := variantRest_dash s
  rw [Ne, normalizeModel_eq_gpt5 known named (lower_of_writes known written) dash]
  by_cases other : K = GPT5_5
  · have shows : variantRest s ≠ "" := by
      intro empty
      rw [empty] at dash
      cases dash
    rw [other, gpt55_exact, gpt55_exact, modelFamily_eq_gpt5, and_iff_right shows,
      and_iff_right (gpt55_not_flagship _), Ne, stripEffortSuffix_eq_empty shows, Recognized]
    have marks : (∀ mark ∈ FAMILY_MARKS,
        Text.contains (GPT5_5 ++ stripEffortSuffix (variantRest s)) mark = false) ↔
        ¬ ∃ mark ∈ FAMILY_MARKS,
          Text.contains (stripEffortSuffix (variantRest s)) mark = true := by
      rw [not_exists]
      refine forall_congr' fun mark => ?_
      rw [not_and]
      refine forall_congr' fun member => ?_
      rw [gpt55_contains member, Bool.not_eq_true]
    rw [marks, ← not_or, not_not]
    exact (or_iff_right (not_not.mpr rfl)).symm
  · refine iff_of_true (fun generic => ?_) (.inl other)
    exact modelFamily_append_ne known named other _ generic.2.2

/-- A dated snapshot with an effort, in upper case and with spaces around it. -/
theorem terra_snapshot : normalizeModel " GPT-5.6-TERRA-2026-01-01-high " ≠ GPT5 := by
  have other : GPT5_6_TERRA ≠ GPT5_5 := by decide
  have written : Writes " GPT-5.6-TERRA-2026-01-01-high " (GPT5_6_TERRA ++ "-" ++ "2026-01-01-HIGH") :=
    ⟨[' '], "GPT-5.6-TERRA-2026-01-01-high".toList, [' '], by decide, by decide, by decide, by decide⟩
  exact (variant_ne_gpt5_iff (by decide) (by decide) written).mpr (.inl other)

/-- A dated snapshot of `gpt-5.5` is served by the generic model. -/
theorem snapshot_collapses : ¬ ∀ K ∈ KNOWN_MODELS, K ≠ GPT5 → ∀ s m,
    Writes m (K ++ "-" ++ s) → normalizeModel m ≠ GPT5 := by
  intro stays
  have written : Writes "gpt-5.5-2026-01-01" (GPT5_5 ++ "-" ++ "2026-01-01") :=
    ⟨[], "gpt-5.5-2026-01-01".toList, [], by decide, by decide, by decide, by decide⟩
  exact stays GPT5_5 (by decide) (by decide) "2026-01-01" _ written (by decide +kernel)

end CodexProxy.Request
