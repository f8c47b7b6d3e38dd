import CodexProxy.Library.Trim

/-! Replacing texts by one another. A pattern and the text put in its place are apart if
neither occurs in the other and no end of the one is a beginning of the other; then the
inserted text takes part in no new occurrence of the pattern, and one pass over any text
leaves none behind. -/
namespace Text

/-- No occurrence of a part overlaps a text. -/
structure Apart (part text : List Char) : Prop where
  outside : ¬ part <:+: text
  around : ¬ text <:+: part
  ending : ∀ piece, piece ≠ [] → piece <:+ part → ¬ piece <+: text
  beginning : ∀ piece, piece ≠ [] → piece <+: part → ¬ piece <:+ text

/-- By looking at the ends and the beginnings of the part. -/
instance (part text : List Char) : Decidable (Apart part text) :=
  decidable_of_iff (¬ part <:+: text ∧ ¬ text <:+: part ∧
      (∀ piece ∈ part.tails, piece ≠ [] → ¬ piece <+: text) ∧
      ∀ piece ∈ part.inits, piece ≠ [] → ¬ piece <:+ text) <| by
    simp only [List.mem_tails, List.mem_inits]
    constructor
    · rintro ⟨outside, around, ending, beginning⟩
      exact ⟨outside, around, fun piece shows ends => ending piece ends shows,
        fun piece shows starts => beginning piece starts shows⟩
    · intro apart
      exact ⟨apart.outside, apart.around, fun piece ends shows => apart.ending piece shows ends,
        fun piece starts shows => apart.beginning piece shows starts⟩

theorem Apart.ne_nil (apart : Apart part text) : part ≠ [] := by
  rintro rfl
  exact apart.outside List.nil_infix

variable {part pattern target : List Char}

/-- An end of an apart part starts no text that begins with the target. -/
theorem Apart.not_prefix_append (apart : Apart part target) {piece : List Char}
    (shows : piece ≠ []) (ends : piece <:+ part) (rest : List Char) :
    ¬ piece <+: target ++ rest := by
  intro starts
  rcases List.prefix_or_prefix_of_prefix starts (List.prefix_append target rest) with inner | outer
  · exact apart.ending piece shows ends inner
  · exact apart.around (outer.isInfix.trans ends.isInfix)

/-- An end of an apart part that starts the result starts the text. The induction runs
over ends, since the rest of a part that has begun must follow. -/
theorem prefix_of_replaceChars (apart : Apart part target) (fuel : Nat) {piece : List Char}
    (ends : piece <:+ part) (starts : piece <+: replaceChars pattern target fuel cs) :
    piece <+: cs := by
  induction fuel generalizing piece cs with
  | zero => exact starts
  | succ fuel ih =>
    cases piece with
    | nil => exact List.nil_prefix
    | cons p piece =>
      cases cs with
      | nil => exact starts
      | cons c cs =>
        rw [replaceChars] at starts
        split at starts
        · exact absurd starts (apart.not_prefix_append (List.cons_ne_nil p piece) ends _)
        · obtain ⟨same, more⟩ := List.cons_prefix_cons.mp starts
          have later : piece <:+ part := (List.suffix_cons p piece).trans ends
          exact List.cons_prefix_cons.mpr ⟨same, ih later more⟩

/-- Past an inserted target an apart part must occur in what follows. -/
theorem Apart.infix_append (apart : Apart part target) (rest : List Char)
    (occurs : part <:+: target ++ rest) : part <:+: rest := by
  rcases List.infix_append_iff_ne_nil.mp occurs with inside | later | ⟨l, r, shows, _, rfl, ends, _⟩
  · exact absurd inside apart.outside
  · exact later
  · exact absurd ends (apart.beginning l shows (List.prefix_append l r))

/-- A pass makes no new occurrence of an apart part. -/
theorem infix_of_replaceChars (apart : Apart part target) (fuel : Nat)
    (occurs : part <:+: replaceChars pattern target fuel cs) : part <:+: cs := by
  induction fuel generalizing cs with
  | zero => exact occurs
  | succ fuel ih =>
    cases cs with
    | nil => exact occurs
    | cons c cs =>
      rw [replaceChars] at occurs
      split at occurs
      · exact (ih (apart.infix_append _ occurs)).trans (List.drop_suffix _ _).isInfix
      · rw [List.infix_cons_iff] at occurs
        rcases occurs with starts | later
        · obtain ⟨p, rest, rfl⟩ := List.exists_cons_of_ne_nil apart.ne_nil
          obtain ⟨same, more⟩ := List.cons_prefix_cons.mp starts
          have rest_prefix := prefix_of_replaceChars apart fuel (List.suffix_cons p rest) more
          exact (List.cons_prefix_cons.mpr ⟨same, rest_prefix⟩).isInfix
        · exact List.infix_cons (ih later)

/-- With enough fuel a pass leaves no occurrence of its own pattern. -/
theorem replaceChars_absent (apart : Apart pattern target) {fuel : Nat}
    (enough : cs.length ≤ fuel) : ¬ pattern <:+: replaceChars pattern target fuel cs := by
  induction fuel generalizing cs with
  | zero =>
    rw [List.length_eq_zero_iff.mp (Nat.le_zero.mp enough), replaceChars_nil, List.infix_nil]
    exact apart.ne_nil
  | succ fuel ih =>
    cases cs with
    | nil =>
      rw [replaceChars_nil, List.infix_nil]
      exact apart.ne_nil
    | cons c cs =>
      rw [List.length_cons, Nat.add_le_add_iff_right] at enough
      rw [replaceChars]
      split
      · have shows := List.length_pos_of_ne_nil apart.ne_nil
        refine fun occurs => ih ?_ (apart.infix_append _ occurs)
        rw [List.length_drop, List.length_cons]
        omega
      · rename_i elsewhere
        rw [List.infix_cons_iff]
        rintro (starts | later)
        · obtain ⟨p, rest, rfl⟩ := List.exists_cons_of_ne_nil apart.ne_nil
          obtain ⟨same, more⟩ := List.cons_prefix_cons.mp starts
          have rest_prefix := prefix_of_replaceChars apart fuel (List.suffix_cons p rest) more
          rw [List.isPrefixOf_iff_prefix] at elsewhere
          exact elsewhere (List.cons_prefix_cons.mpr ⟨same, rest_prefix⟩)
        · exact ih enough later

/-- A pass without an occurrence changes nothing. -/
theorem replaceChars_of_absent (fuel : Nat) (absent : ¬ pattern <:+: cs) :
    replaceChars pattern target fuel cs = cs := by
  induction fuel generalizing cs with
  | zero => rfl
  | succ fuel ih =>
    cases cs with
    | nil => rfl
    | cons c cs =>
      rw [List.infix_cons_iff, not_or] at absent
      rw [replaceChars, if_neg (by simpa using absent.1), ih absent.2]

/-- The names that a text is free of. -/
def FreeOf (s : String) (names : List String) : Prop :=
  ∀ name ∈ names, contains s name = false

theorem contains_replace {s part pattern target : String}
    (apart : Apart part.toList target.toList) (absent : contains s part = false) :
    contains (replace s pattern target) part = false := by
  rw [Bool.eq_false_iff, Ne, contains_iff] at absent ⊢
  rw [replace, String.toList_ofList]
  exact fun occurs => absent (infix_of_replaceChars apart _ occurs)

theorem contains_replace_self {s pattern target : String}
    (apart : Apart pattern.toList target.toList) :
    contains (replace s pattern target) pattern = false := by
  rw [Bool.eq_false_iff, Ne, contains_iff, replace, String.toList_ofList]
  exact replaceChars_absent apart le_rfl

theorem replace_of_absent {s pattern target : String} (absent : contains s pattern = false) :
    replace s pattern target = s := by
  rw [Bool.eq_false_iff, Ne, contains_iff] at absent
  rw [replace, replaceChars_of_absent _ absent, String.ofList_toList]

variable {target : String}

/-- Passes for apart names leave none of the names, nor any that was absent before. -/
theorem replaceAll_freeOf {names gone : List String} {s : String}
    (apart : ∀ name ∈ gone ++ names, Apart name.toList target.toList) (free : FreeOf s gone) :
    FreeOf (names.foldl (fun out name => replace out name target) s) (gone ++ names) := by
  induction names generalizing gone s with
  | nil => rwa [List.append_nil]
  | cons name names ih =>
    rw [List.append_cons] at apart ⊢
    refine ih apart fun other member => ?_
    rcases List.mem_append.mp member with earlier | this
    · exact contains_replace (apart other (List.mem_append_left _ member)) (free other earlier)
    · rw [List.mem_singleton.mp this]
      exact contains_replace_self (apart name (by simp))

theorem replaceAll_of_freeOf {names : List String} {s : String} (free : FreeOf s names) :
    names.foldl (fun out name => replace out name target) s = s := by
  induction names with
  | nil => rfl
  | cons name names ih =>
    obtain ⟨absent, others⟩ := List.forall_mem_cons.mp free
    rw [List.foldl_cons, replace_of_absent absent, ih others]

/-- A part that has no character of a separator occurs on one side of it. -/
theorem infix_separated {separator xs ys : List Char} (shows : separator ≠ [])
    (disjoint : ∀ c ∈ part, c ∉ separator) (occurs : part <:+: xs ++ (separator ++ ys)) :
    part <:+: xs ∨ part <:+: ys := by
  obtain ⟨d, separator, rfl⟩ := List.exists_cons_of_ne_nil shows
  rcases List.infix_append_iff_ne_nil.mp occurs with left | right | ⟨l, r, _, some, rfl, _, starts⟩
  · exact .inl left
  · rcases List.infix_append_iff_ne_nil.mp right with inside | later | ⟨l, r, some, _, rfl, ends, _⟩
    · cases part with
      | nil => exact .inl List.nil_infix
      | cons p part => exact absurd (inside.subset List.mem_cons_self) (disjoint p List.mem_cons_self)
    · exact .inr later
    · obtain ⟨p, l, rfl⟩ := List.exists_cons_of_ne_nil some
      exact absurd (ends.subset List.mem_cons_self) (disjoint p (by simp))
  · obtain ⟨p, r, rfl⟩ := List.exists_cons_of_ne_nil some
    obtain ⟨same, _⟩ := List.cons_prefix_cons.mp starts
    exact absurd (same ▸ List.mem_cons_self) (disjoint p (by simp))

/-- What shares no character with the separator and occurs in no part does not occur in
the joined parts. -/
theorem join_absent {separator part : String} {parts : List String}
    (shows : separator.toList ≠ []) (visible : part.toList ≠ [])
    (disjoint : ∀ c ∈ part.toList, c ∉ separator.toList)
    (absent : ∀ s ∈ parts, contains s part = false) :
    contains (join separator parts) part = false := by
  simp only [Bool.eq_false_iff, Ne, contains_iff] at absent ⊢
  rw [join, String.toList_intercalate]
  induction parts with
  | nil => simpa using visible
  | cons first parts ih =>
    obtain ⟨alone, others⟩ := List.forall_mem_cons.mp absent
    cases parts with
    | nil => simpa using alone
    | cons second parts =>
      rw [List.map_cons, List.map_cons, List.intercalate_cons_cons, List.append_assoc]
      intro occurs
      rcases infix_separated shows disjoint occurs with left | right
      · exact alone left
      · exact ih others right

end Text
