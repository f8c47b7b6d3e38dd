import CodexProxy.Library.Bytes
import Mathlib.Data.List.Infix

/-! Trimming, replacing and searching text. A tight text starts and ends with a visible
character; it occurs in a text exactly if it occurs in the trimmed text, and replacing a
tight pattern does not see the whitespace around a text. -/
namespace Text

/-- Nothing but whitespace. -/
def Blank (cs : List Char) : Prop := ∀ c ∈ cs, isWhitespace c = true

/-- Both ends are visible. -/
def Tight (cs : List Char) : Prop :=
  cs.head?.any (!isWhitespace ·) = true ∧ cs.getLast?.any (!isWhitespace ·) = true

instance (cs : List Char) : Decidable (Blank cs) :=
  decidable_of_iff (cs.all isWhitespace = true) List.all_eq_true

instance (cs : List Char) : Decidable (Tight cs) := inferInstanceAs (Decidable (_ ∧ _))

theorem Blank.head {c : Char} (blank : Blank (c :: cs)) : isWhitespace c = true :=
  blank c List.mem_cons_self

theorem Blank.tail {c : Char} (blank : Blank (c :: cs)) : Blank cs :=
  fun d member => blank d (List.mem_cons_of_mem c member)

theorem Tight.ne_nil (tight : Tight cs) : cs ≠ [] := by
  rintro rfl
  cases tight.1

theorem Tight.head (tight : Tight (c :: cs)) : isWhitespace c = false := by
  simpa using tight.1

theorem Tight.last (tight : Tight (cs ++ [c])) : isWhitespace c = false := by
  simpa using tight.2

/-- A tight text does not start in whitespace. -/
theorem Tight.not_prefix (tight : Tight part) (blank : isWhitespace c = true) :
    ¬ part <+: c :: cs := by
  intro starts
  obtain ⟨d, rest, rfl⟩ := List.exists_cons_of_ne_nil tight.ne_nil
  obtain ⟨same, _⟩ := List.cons_prefix_cons.mp starts
  exact absurd (same ▸ tight.head) (by simp [blank])

/-- A tight text does not end in whitespace. -/
theorem Tight.not_suffix (tight : Tight part) (blank : isWhitespace c = true) :
    ¬ part <:+ cs ++ [c] := by
  intro ends
  rcases List.suffix_concat_iff.mp ends with rfl | ⟨rest, rfl, _⟩
  · exact tight.ne_nil rfl
  · exact absurd tight.last (by simp [blank])

/-- What occurs in a text with whitespace in front occurs in the text. -/
theorem Tight.infix_front (tight : Tight part) (blank : Blank spaces) :
    part <:+: spaces ++ cs ↔ part <:+: cs := by
  induction spaces with
  | nil => rfl
  | cons c spaces ih =>
    rw [List.cons_append, List.infix_cons_iff, ih blank.tail]
    exact or_iff_right (tight.not_prefix blank.head)

theorem Tight.infix_back (tight : Tight part) (blank : Blank spaces) :
    part <:+: cs ++ spaces ↔ part <:+: cs := by
  induction spaces using List.reverseRecOn with
  | nil => rw [List.append_nil]
  | append_singleton spaces c ih =>
    have rest : Blank spaces := fun d member => blank d (List.mem_append_left _ member)
    rw [← List.append_assoc, List.infix_concat_iff, ih rest]
    exact or_iff_right (tight.not_suffix (blank c (by simp)))

theorem getLast?_append_any {p : α → Bool} {l : List α} (front : List α)
    (last : l.getLast?.any p = true) : (front ++ l).getLast?.any p = true := by
  cases same : l.getLast? with
  | none =>
    rw [same] at last
    cases last
  | some a => rw [List.getLast?_append, same, Option.some_or, ← same, last]

/-- What trimming removes. -/
theorem trim_split (s : String) : ∃ before after,
    s.toList = before ++ (trim s).toList ++ after ∧ Blank before ∧ Blank after := by
  refine ⟨s.toList.takeWhile isWhitespace,
    (s.toList.dropWhile isWhitespace).rtakeWhile isWhitespace, ?_, ?_, ?_⟩
  · rw [trim, String.toList_ofList, List.append_assoc, List.rdropWhile_append_rtakeWhile,
      List.takeWhile_append_dropWhile]
  · exact fun c member => List.mem_takeWhile_imp member
  · exact fun c member => List.mem_rtakeWhile_imp member

/-- What is left is tight. -/
theorem trim_tight {s : String} (visible : trim s ≠ "") : Tight (trim s).toList := by
  have some : (s.toList.dropWhile isWhitespace).rdropWhile isWhitespace ≠ [] := by
    intro none
    exact visible (by rw [trim, none, String.ofList_nil])
  rw [trim, String.toList_ofList]
  generalize inner : s.toList.dropWhile isWhitespace = cs at some
  obtain ⟨c, rest, split⟩ := List.exists_cons_of_ne_nil some
  constructor
  · obtain ⟨tail, rfl⟩ : ∃ tail, cs = c :: tail := by
      obtain ⟨tail, same⟩ := List.rdropWhile_prefix isWhitespace (l := cs)
      exact ⟨_, by rw [← same, split, List.cons_append]⟩
    have ne : s.toList.dropWhile isWhitespace ≠ [] := by simp [inner]
    have stopped := List.head_dropWhile_not isWhitespace ne
    simp only [inner, List.head_cons] at stopped
    rw [split, List.head?_cons, Option.any_some, stopped, Bool.not_false]
  · have stopped := List.rdropWhile_last_not isWhitespace cs some
    rw [List.getLast?_eq_some_getLast some, Option.any_some]
    simpa using stopped

theorem dropWhile_blank (blank : Blank spaces) (cs : List Char) :
    (spaces ++ cs).dropWhile isWhitespace = cs.dropWhile isWhitespace := by
  induction spaces with
  | nil => rfl
  | cons c spaces ih =>
    rw [List.cons_append, List.dropWhile_cons_of_pos blank.head, ih blank.tail]

theorem rdropWhile_blank (blank : Blank spaces) (cs : List Char) :
    (cs ++ spaces).rdropWhile isWhitespace = cs.rdropWhile isWhitespace := by
  induction spaces using List.reverseRecOn with
  | nil => rw [List.append_nil]
  | append_singleton spaces c ih =>
    have rest : Blank spaces := fun d member => blank d (List.mem_append_left _ member)
    rw [← List.append_assoc, List.rdropWhile_concat_pos _ _ _ (blank c (by simp)), ih rest]

/-- Trimming removes the whitespace around a tight text, and nothing of it. -/
theorem trim_of_split {s : String} {before cs after : List Char}
    (split : s.toList = before ++ cs ++ after) (front : Blank before) (back : Blank after)
    (tight : cs = [] ∨ Tight cs) : (trim s).toList = cs := by
  rw [trim, String.toList_ofList, split, List.append_assoc, dropWhile_blank front]
  rcases tight with rfl | tight
  · rw [List.nil_append, List.dropWhile_eq_nil_iff.mpr back, List.rdropWhile_nil]
  · obtain ⟨c, rest, rfl⟩ := List.exists_cons_of_ne_nil tight.ne_nil
    rw [List.cons_append, List.dropWhile_cons_of_neg (by simp [tight.head]), ← List.cons_append,
      rdropWhile_blank back]
    rcases List.eq_nil_or_concat' (c :: rest) with none | ⟨init, last, concat⟩
    · cases none
    · rw [concat] at tight ⊢
      exact List.rdropWhile_concat_neg _ _ _ (by simp [tight.last])

theorem trim_toList (s : String) : (trim s).toList = [] ∨ Tight (trim s).toList := by
  by_cases empty : trim s = ""
  · exact .inl (by rw [empty, String.toList_empty])
  · exact .inr (trim_tight empty)

theorem Blank.append (front : Blank spaces) (back : Blank spaces') : Blank (spaces ++ spaces') := by
  intro c member
  rcases List.mem_append.mp member with inFront | inBack
  · exact front c inFront
  · exact back c inBack

/-- Whitespace around a text does not matter. -/
theorem trim_padded {s t : String} {before after : List Char}
    (split : s.toList = before ++ t.toList ++ after) (front : Blank before) (back : Blank after) :
    trim s = trim t := by
  obtain ⟨before', after', split', front', back'⟩ := trim_split t
  refine String.toList_inj.mp (trim_of_split ?_ (front.append front') (back'.append back)
    (trim_toList t))
  simp only [split, split', List.append_assoc]

/-- Trimming once is enough. -/
@[simp] theorem trim_trim (s : String) : trim (trim s) = trim s := by
  obtain ⟨before, after, split, front, back⟩ := trim_split s
  exact (trim_padded split front back).symm

theorem toAsciiLowercase_append (s t : String) :
    toAsciiLowercase (s ++ t) = toAsciiLowercase s ++ toAsciiLowercase t := by
  rw [toAsciiLowercase, String.toList_append, List.map_append, String.ofList_append]
  rfl

/-- Past the upper-case letters of ASCII nothing is lowered. -/
theorem toLower_of_large {c : Char} (large : 91 ≤ c.toNat) : c.toLower = c := by
  refine dif_neg fun upper => ?_
  have last : c.toNat ≤ 90 := upper.2
  omega

/-- What lowering preserves is told by a table of the characters that it may change. -/
theorem toLower_invariant (f : Char → α)
    (table : ∀ n < 91, f (Char.ofNat n).toLower = f (Char.ofNat n)) (c : Char) :
    f c.toLower = f c := by
  by_cases listed : c.toNat < 91
  · rw [← Char.ofNat_toNat c]
    exact table c.toNat listed
  · rw [toLower_of_large (Nat.le_of_not_lt listed)]

/-- Lowering a letter takes no whitespace away and makes none. -/
theorem isWhitespace_toLower (c : Char) : isWhitespace c.toLower = isWhitespace c :=
  toLower_invariant isWhitespace (by decide) c

theorem Blank.map_toLower (blank : Blank cs) : Blank (cs.map Char.toLower) := by
  intro d member
  obtain ⟨c, inside, rfl⟩ := List.mem_map.mp member
  rw [isWhitespace_toLower]
  exact blank c inside

theorem Tight.map_toLower (tight : Tight cs) : Tight (cs.map Char.toLower) := by
  have keeps (c : Option Char) : (c.map Char.toLower).any (!isWhitespace ·) =
      c.any (!isWhitespace ·) := by
    cases c with
    | none => rfl
    | some c => simp [isWhitespace_toLower]
  rw [Tight, List.head?_map, List.getLast?_map, keeps, keeps]
  exact tight

theorem trim_toAsciiLowercase (s : String) :
    trim (toAsciiLowercase s) = toAsciiLowercase (trim s) := by
  obtain ⟨before, after, split, front, back⟩ := trim_split s
  have lowered : (toAsciiLowercase s).toList = before.map Char.toLower ++
      (toAsciiLowercase (trim s)).toList ++ after.map Char.toLower := by
    simp only [toAsciiLowercase, String.toList_ofList, split, List.map_append]
  refine String.toList_inj.mp (trim_of_split lowered front.map_toLower back.map_toLower ?_)
  rw [toAsciiLowercase, String.toList_ofList]
  rcases trim_toList s with empty | tight
  · exact .inl (by rw [empty, List.map_nil])
  · exact .inr tight.map_toLower

/-- Only the end is trimmed of a text that starts visibly. -/
theorem trim_split_back {s : String} (visible : s.toList.head?.any (!isWhitespace ·) = true) :
    ∃ after, s.toList = (trim s).toList ++ after ∧ Blank after ∧ trim s ≠ "" := by
  obtain ⟨before, after, split, front, back⟩ := trim_split s
  have flush : before = [] := by
    cases before with
    | nil => rfl
    | cons c before => simp [split, front.head] at visible
  rw [flush, List.nil_append] at split
  refine ⟨after, split, back, fun empty => ?_⟩
  rw [split, empty, String.toList_empty, List.nil_append] at visible
  cases after with
  | nil => cases visible
  | cons c after => simp [back.head] at visible

/-- A tight text in front of a text that starts visibly is kept. -/
theorem trim_append {s t : String} (tight : Tight s.toList)
    (visible : t.toList.head?.any (!isWhitespace ·) = true) : trim (s ++ t) = s ++ trim t := by
  obtain ⟨after, split, back, some⟩ := trim_split_back visible
  have appended : (s ++ t).toList = [] ++ (s ++ trim t).toList ++ after := by
    simp only [String.toList_append, List.nil_append, List.append_assoc, ← split]
  refine String.toList_inj.mp (trim_of_split appended (fun c member => nomatch member) back ?_)
  right
  rw [String.toList_append]
  refine ⟨?_, getLast?_append_any s.toList (trim_tight some).2⟩
  obtain ⟨c, rest, starts⟩ := List.exists_cons_of_ne_nil tight.ne_nil
  rw [starts] at tight ⊢
  exact tight.1

theorem contains_iff {s part : String} : contains s part = true ↔ part.toList <:+: s.toList := by
  rw [contains, List.any_eq_true, List.infix_iff_prefix_suffix]
  simp only [List.mem_tails, List.isPrefixOf_iff_prefix]
  exact exists_congr fun cs => and_comm

/-- What occurs in a part of a text occurs in the text. -/
theorem contains_of_infix {s part whole : String} (inside : part.toList <:+: whole.toList)
    (occurs : contains s whole = true) : contains s part = true := by
  rw [contains_iff] at occurs ⊢
  exact inside.trans occurs

/-- A tight text occurs in a text exactly if it occurs in the trimmed text. -/
theorem contains_trim {s part : String} (tight : Tight part.toList) :
    contains (trim s) part = contains s part := by
  obtain ⟨before, after, split, front, back⟩ := trim_split s
  rw [Bool.eq_iff_iff, contains_iff, contains_iff, split, tight.infix_back back,
    tight.infix_front front]

/-- What occurs in a part occurs in the joined parts. -/
theorem contains_join {separator part s : String} {parts : List String} (member : s ∈ parts)
    (occurs : contains s part = true) : contains (join separator parts) part = true := by
  rw [contains_iff] at occurs ⊢
  rw [join, String.toList_intercalate]
  refine occurs.trans ?_
  induction parts with
  | nil => cases member
  | cons first parts ih =>
    cases parts with
    | nil => simp_all
    | cons second parts =>
      rw [List.map_cons, List.map_cons, List.intercalate_cons_cons]
      rcases List.mem_cons.mp member with rfl | later
      · exact List.infix_append_of_infix_left List.infix_append_left
      · exact List.infix_append_of_infix_right (ih later)

variable {pattern target : List Char}

theorem prefix_append_blank (tight : Tight pattern) (blank : Blank spaces) :
    pattern <+: cs ++ spaces ↔ pattern <+: cs := by
  refine ⟨fun starts => ?_, fun starts => starts.trans (List.prefix_append cs spaces)⟩
  induction spaces using List.reverseRecOn with
  | nil => rwa [List.append_nil] at starts
  | append_singleton spaces c ih =>
    have rest : Blank spaces := fun d member => blank d (List.mem_append_left _ member)
    rw [← List.append_assoc] at starts
    rcases List.prefix_concat_iff.mp starts with whole | earlier
    · exact absurd (whole ▸ tight) fun ends => by simpa [blank c (by simp)] using ends.last
    · exact ih rest earlier

@[simp] theorem replaceChars_nil (fuel : Nat) : replaceChars pattern target fuel [] = [] := by
  cases fuel <;> rfl

theorem replaceChars_blank (tight : Tight pattern) (fuel : Nat) (blank : Blank spaces) :
    replaceChars pattern target fuel spaces = spaces := by
  induction fuel generalizing spaces with
  | zero => rfl
  | succ fuel ih =>
    cases spaces with
    | nil => rfl
    | cons c spaces =>
      rw [replaceChars, if_neg, ih blank.tail]
      rw [List.isPrefixOf_iff_prefix]
      exact tight.not_prefix blank.head

theorem replaceChars_blank_append (tight : Tight pattern) (fuel : Nat) (blank : Blank spaces)
    (cs : List Char) : replaceChars pattern target (spaces.length + fuel) (spaces ++ cs) =
      spaces ++ replaceChars pattern target fuel cs := by
  induction spaces with
  | nil => rw [List.length_nil, Nat.zero_add, List.nil_append, List.nil_append]
  | cons c spaces ih =>
    rw [List.length_cons, Nat.succ_add, List.cons_append, replaceChars, if_neg, ih blank.tail,
      List.cons_append]
    rw [List.isPrefixOf_iff_prefix]
    exact tight.not_prefix blank.head

/-- By induction on the fuel, of which any two amounts that suffice give the same. -/
theorem replaceChars_append_blank (tight : Tight pattern) (blank : Blank spaces)
    {fuel fuel' : Nat} (enough : cs.length ≤ fuel) (enough' : cs.length ≤ fuel') :
    replaceChars pattern target fuel (cs ++ spaces) =
      replaceChars pattern target fuel' cs ++ spaces := by
  induction fuel generalizing fuel' cs with
  | zero =>
    rw [List.length_eq_zero_iff.mp (Nat.le_zero.mp enough), replaceChars_nil]
    rfl
  | succ fuel ih =>
    cases cs with
    | nil => rw [List.nil_append, replaceChars_blank tight _ blank, replaceChars_nil, List.nil_append]
    | cons c cs =>
      obtain ⟨fuel', rfl⟩ : ∃ n, fuel' = n + 1 := Nat.exists_eq_add_of_le' (Nat.zero_lt_of_lt enough')
      simp only [List.length_cons, Nat.add_le_add_iff_right] at enough enough'
      have found : pattern <+: c :: cs ++ spaces ↔ pattern <+: c :: cs :=
        prefix_append_blank tight blank
      rw [List.cons_append] at found ⊢
      rw [replaceChars, replaceChars]
      simp only [List.isPrefixOf_iff_prefix, found]
      by_cases starts : pattern <+: c :: cs
      · have some := List.length_pos_of_ne_nil tight.ne_nil
        have short : ((c :: cs).drop pattern.length).length ≤ cs.length := by
          rw [List.length_drop, List.length_cons]
          omega
        rw [if_pos starts, if_pos starts, ← List.cons_append,
          List.drop_append_of_le_length starts.length_le,
          ih (short.trans enough) (short.trans enough'), List.append_assoc]
      · rw [if_neg starts, if_neg starts, ih enough enough', List.cons_append]

theorem replaceChars_last (tight : Tight target) (fuel : Nat)
    (visible : cs.getLast?.any (!isWhitespace ·) = true) :
    (replaceChars pattern target fuel cs).getLast?.any (!isWhitespace ·) = true := by
  induction fuel generalizing cs with
  | zero => exact visible
  | succ fuel ih =>
    cases cs with
    | nil => exact visible
    | cons c cs =>
      rw [replaceChars]
      split
      · by_cases whole : (c :: cs).length ≤ pattern.length
        · rw [List.drop_eq_nil_of_le whole, replaceChars_nil, List.append_nil]
          exact tight.2
        · refine getLast?_append_any target (ih ?_)
          rwa [List.getLast?_drop, if_neg whole]
      · cases cs with
        | nil => simpa using visible
        | cons d cs =>
          rw [List.getLast?_cons_cons] at visible
          exact getLast?_append_any [c] (ih visible)

theorem replaceChars_tight (tight : Tight target) (fuel : Nat) (visible : Tight cs) :
    Tight (replaceChars pattern target fuel cs) := by
  refine ⟨?_, replaceChars_last tight fuel visible.2⟩
  cases fuel with
  | zero => exact visible.1
  | succ fuel =>
    obtain ⟨c, cs, rfl⟩ := List.exists_cons_of_ne_nil visible.ne_nil
    obtain ⟨t, target', rfl⟩ := List.exists_cons_of_ne_nil tight.ne_nil
    rw [replaceChars]
    split
    · exact tight.1
    · exact visible.1

theorem replace_tight {s pattern target : String} (tight : Tight target.toList)
    (visible : Tight s.toList) : Tight (replace s pattern target).toList := by
  rw [replace, String.toList_ofList]
  exact replaceChars_tight tight _ visible

/-- Replacing a tight pattern by a tight text commutes with trimming. -/
theorem trim_replace (s : String) {pattern target : String} (found : Tight pattern.toList)
    (put : Tight target.toList) :
    trim (replace s pattern target) = replace (trim s) pattern target := by
  obtain ⟨before, after, split, front, back⟩ := trim_split s
  have inner : (replace s pattern target).toList =
      before ++ (replace (trim s) pattern target).toList ++ after := by
    rw [replace, replace, String.toList_ofList, String.toList_ofList, split]
    generalize (trim s).toList = cs
    rw [List.append_assoc, List.length_append, replaceChars_blank_append found _ front,
      List.length_append, replaceChars_append_blank found back (Nat.le_add_right _ _) le_rfl,
      List.append_assoc]
  refine String.toList_inj.mp (trim_of_split inner front back ?_)
  rcases trim_toList s with empty | tight
  · left
    rw [replace, empty, replaceChars_nil, String.toList_ofList]
  · exact .inr (replace_tight put tight)

end Text
