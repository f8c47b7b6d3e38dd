import CodexProxy.Library.Bytes
import Mathlib.Data.List.Basic

/-! Texts by their octets. Positions in a text count the octets of its UTF-8 encoding,
so a position may lie inside a character, where the text cannot be cut. A text with its
length in octets in front can be told from whatever follows it. -/
namespace Text

/-- The octets of the characters' UTF-8 encoding. -/
def octets : List Char → Nat
  | [] => 0
  | c :: cs => c.utf8Size + octets cs

@[simp] theorem octets_nil : octets [] = 0 := rfl

@[simp] theorem octets_cons (c : Char) (cs : List Char) :
    octets (c :: cs) = c.utf8Size + octets cs := rfl

@[simp] theorem octets_append (cs ds : List Char) : octets (cs ++ ds) = octets cs + octets ds := by
  induction cs with
  | nil => rw [List.nil_append, octets_nil, Nat.zero_add]
  | cons c cs ih => rw [List.cons_append, octets_cons, octets_cons, ih, Nat.add_assoc]

theorem octets_pos {cs : List Char} (shows : cs ≠ []) : 0 < octets cs := by
  obtain ⟨c, rest, rfl⟩ := List.exists_cons_of_ne_nil shows
  rw [octets_cons]
  exact Nat.add_pos_left (Char.utf8Size_pos c) _

theorem length_utf8 (s : String) : (utf8 s).length = s.utf8ByteSize := by
  simp [utf8]

theorem utf8ByteSize_eq (s : String) : s.utf8ByteSize = octets s.toList := by
  rw [← length_utf8, ← String.ofList_toList (s := s), utf8_ofList, String.toList_ofList]
  induction s.toList with
  | nil => rfl
  | cons c cs ih =>
    rw [List.flatMap_cons, List.length_append, ih, octets_cons, String.length_utf8EncodeChar]

theorem utf8_injective {s t : String} (same : utf8 s = utf8 t) : s = t := by
  rw [utf8, utf8, Array.toList_inj] at same
  exact String.toByteArray_inj.mp (ByteArray.ext same)

/-- The two sides of a position; none inside a character and past the end. -/
def cut : Nat → List Char → Option (List Char × List Char)
  | 0, cs => some ([], cs)
  | _ + 1, [] => none
  | n + 1, c :: cs =>
    if c.utf8Size ≤ n + 1 then
      (cut (n + 1 - c.utf8Size) cs).map fun sides => (c :: sides.1, sides.2)
    else none

/-- The text up to a position. -/
def sliceTo (s : String) (n : Nat) : Option String :=
  (cut n s.toList).map fun sides => String.ofList sides.1

/-- The text from a position on. -/
def sliceFrom (s : String) (n : Nat) : Option String :=
  (cut n s.toList).map fun sides => String.ofList sides.2

theorem cut_append (front back : List Char) :
    cut (octets front) (front ++ back) = some (front, back) := by
  induction front with
  | nil => rw [octets_nil, List.nil_append, cut]
  | cons c front ih =>
    obtain ⟨n, size⟩ := Nat.exists_eq_succ_of_ne_zero
      (Nat.pos_iff_ne_zero.mp (octets_pos (List.cons_ne_nil c front)))
    rw [size, List.cons_append, cut]
    rw [octets_cons] at size
    have inside : c.utf8Size ≤ n + 1 := by omega
    have rest : n + 1 - c.utf8Size = octets front := by omega
    rw [if_pos inside, rest, ih, Option.map_some]

/-- A text can be cut exactly where one of its characters ends. -/
theorem cut_eq_some {n : Nat} {cs front back : List Char} :
    cut n cs = some (front, back) ↔ cs = front ++ back ∧ octets front = n := by
  constructor
  · intro found
    induction cs generalizing n front with
    | nil =>
      cases n with
      | zero =>
        cases found
        exact ⟨rfl, rfl⟩
      | succ n => cases found
    | cons c cs ih =>
      cases n with
      | zero =>
        cases found
        exact ⟨rfl, rfl⟩
      | succ n =>
        rw [cut] at found
        split at found
        · obtain ⟨⟨front', back'⟩, inner, same⟩ := Option.map_eq_some_iff.mp found
          cases same
          obtain ⟨split, size⟩ := ih inner
          refine ⟨by rw [split, List.cons_append], ?_⟩
          rw [octets_cons, size]
          omega
        · cases found
  · rintro ⟨rfl, rfl⟩
    exact cut_append front back

/-- A position past the first character is one in the rest. -/
theorem cut_cons (c : Char) (cs : List Char) (n : Nat) :
    (cut (c.utf8Size + n) (c :: cs)).isSome = (cut n cs).isSome := by
  obtain ⟨m, size⟩ := Nat.exists_eq_succ_of_ne_zero
    (Nat.pos_iff_ne_zero.mp (Nat.add_pos_left (Char.utf8Size_pos c) n))
  have rest : m + 1 - c.utf8Size = n := by omega
  rw [size, cut, if_pos (by omega), rest, Option.isSome_map]

/-- A position inside a text where it cannot be cut lies inside a character. -/
theorem cut_eq_none {n : Nat} {cs : List Char} (inside : n ≤ octets cs) :
    cut n cs = none ↔ ∃ front c back, cs = front ++ c :: back ∧ octets front < n ∧
      n < octets front + c.utf8Size := by
  constructor
  · intro uncut
    induction cs generalizing n with
    | nil =>
      rw [Nat.le_zero.mp inside] at uncut
      cases uncut
    | cons c cs ih =>
      rw [octets_cons] at inside
      by_cases first : c.utf8Size ≤ n
      · obtain ⟨m, rfl⟩ := Nat.exists_eq_add_of_le first
        have later : cut m cs = none := by
          rw [← Option.isNone_iff_eq_none, ← Option.not_isSome, ← cut_cons c, uncut]
          rfl
        obtain ⟨front, d, back, split, starts, ends⟩ := ih (by omega) later
        refine ⟨c :: front, d, back, by rw [split, List.cons_append], ?_, ?_⟩ <;>
          rw [octets_cons] <;> omega
      · cases n with
        | zero => cases uncut
        | succ n => exact ⟨[], c, cs, rfl, Nat.succ_pos n, by rw [octets_nil]; omega⟩
  · rintro ⟨front, c, back, rfl, starts, ends⟩
    rw [Option.eq_none_iff_forall_ne_some]
    rintro ⟨left, right⟩ found
    obtain ⟨split, size⟩ := cut_eq_some.mp found
    rcases List.append_eq_append_iff.mp split with ⟨more, rfl, same⟩ | ⟨more, rfl, _⟩
    · cases more with
      | nil =>
        rw [List.append_nil] at size
        omega
      | cons d more =>
        obtain ⟨rfl, _⟩ := List.cons_eq_cons.mp same
        rw [octets_append, octets_cons] at size
        omega
    · rw [octets_append] at starts
      omega

/-- The characters with their positions. -/
def charIndices : Nat → List Char → List (Nat × Char)
  | _, [] => []
  | n, c :: cs => (n, c) :: charIndices (n + c.utf8Size) cs

theorem charIndices_get (cs : List Char) (n k : Nat) :
    (charIndices n cs)[k]? = cs[k]?.map fun c => (n + octets (cs.take k), c) := by
  induction cs generalizing n k with
  | nil => rfl
  | cons c cs ih =>
    rw [charIndices]
    cases k with
    | zero => rfl
    | succ k =>
      rw [List.getElem?_cons_succ, ih, List.getElem?_cons_succ, List.take_succ_cons, octets_cons,
        Nat.add_assoc]

/-- A character's position is one to cut at. -/
theorem sliceTo_charIndices {s : String} {k : Nat} {at_ : Nat × Char}
    (found : (charIndices 0 s.toList)[k]? = some at_) :
    sliceTo s at_.1 = some (String.ofList (s.toList.take k)) := by
  rw [charIndices_get, Option.map_eq_some_iff] at found
  obtain ⟨c, _, rfl⟩ := found
  have split := cut_append (s.toList.take k) (s.toList.drop k)
  rw [List.take_append_drop] at split
  rw [sliceTo, Nat.zero_add, split, Option.map_some]

/-- The length in octets, a colon and the text. -/
def lengthPrefixed (s : String) : String := toString s.utf8ByteSize ++ ":" ++ s

theorem digits_injective {m n : Nat} (same : toString m = toString n) : m = n := by
  have digits : Nat.toDigits 10 m = Nat.toDigits 10 n := by
    simpa using congrArg String.toList same
  rw [← @Nat.ofDigitChars_ten_toDigits m, digits, Nat.ofDigitChars_ten_toDigits]

theorem digits_no_colon (n : Nat) : ':' ∉ (toString n).toList := by
  intro member
  have digit := Nat.isDigit_of_mem_toDigits (by decide) (by decide)
    (show ':' ∈ Nat.toDigits 10 n by simpa using member)
  exact absurd digit (by decide)

/-- Two texts before the first of a kind of characters. -/
theorem append_cons_inj {xs ys xs' ys' : List α} {a : α} (front : a ∉ xs) (front' : a ∉ xs')
    (same : xs ++ a :: ys = xs' ++ a :: ys') : xs = xs' ∧ ys = ys' := by
  rcases List.append_eq_append_iff.mp same with ⟨more, split, rest⟩ | ⟨more, split, rest⟩
  · cases more with
    | nil =>
      rw [List.append_nil] at split
      exact ⟨split.symm, (List.cons_eq_cons.mp rest).2⟩
    | cons b more =>
      obtain ⟨rfl, _⟩ := List.cons_eq_cons.mp rest
      exact absurd (split ▸ List.mem_append_right xs List.mem_cons_self) front'
  · cases more with
    | nil =>
      rw [List.append_nil] at split
      exact ⟨split, (List.cons_eq_cons.mp rest).2.symm⟩
    | cons b more =>
      obtain ⟨rfl, _⟩ := List.cons_eq_cons.mp rest
      exact absurd (split ▸ List.mem_append_right xs' List.mem_cons_self) front

/-- Two texts after the last of a kind of characters. -/
theorem append_cons_inj_last {xs ys xs' ys' : List α} {a : α} (back : a ∉ ys) (back' : a ∉ ys')
    (same : xs ++ a :: ys = xs' ++ a :: ys') : xs = xs' ∧ ys = ys' := by
  have mirrored := congrArg List.reverse same
  simp only [List.reverse_append, List.reverse_cons, List.append_assoc, List.singleton_append]
    at mirrored
  obtain ⟨left, right⟩ := append_cons_inj (by simpa using back) (by simpa using back') mirrored
  exact ⟨List.reverse_injective right, List.reverse_injective left⟩

/-- Texts of one size in front of others can be told apart from what follows. -/
theorem append_inj_of_size {s s' t t' : String} (size : s.utf8ByteSize = s'.utf8ByteSize)
    (same : s ++ t = s' ++ t') : s = s' ∧ t = t' := by
  have encoded := congrArg utf8 same
  rw [utf8_append, utf8_append] at encoded
  obtain ⟨left, right⟩ := List.append_inj encoded (by rw [length_utf8, length_utf8, size])
  exact ⟨utf8_injective left, utf8_injective right⟩

/-- Whatever follows them, length-prefixed texts are the same only if the texts are. -/
theorem lengthPrefixed_append_inj {s s' t t' : String} :
    lengthPrefixed s ++ t = lengthPrefixed s' ++ t' ↔ s = s' ∧ t = t' := by
  constructor
  · intro same
    have chars := congrArg String.toList same
    simp only [lengthPrefixed, String.append_assoc, String.toList_append] at chars
    obtain ⟨digits, rest⟩ := append_cons_inj (digits_no_colon _) (digits_no_colon _) chars
    have size : s.utf8ByteSize = s'.utf8ByteSize := digits_injective (String.toList_inj.mp digits)
    refine append_inj_of_size size (String.toList_inj.mp ?_)
    rw [String.toList_append, String.toList_append]
    exact rest
  · rintro ⟨rfl, rfl⟩
    rfl

theorem lengthPrefixed_injective {s s' : String} (same : lengthPrefixed s = lengthPrefixed s') :
    s = s' := by
  have followed : lengthPrefixed s ++ "" = lengthPrefixed s' ++ "" := congrArg (· ++ "") same
  exact (lengthPrefixed_append_inj.mp followed).1

end Text
