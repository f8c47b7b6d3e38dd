import Mathlib.Data.List.DropRight

/-! ASCII-level operations on octet strings and on Unicode text, independent of
any protocol. Octets are a `List UInt8`; text is a `String`, whose octets are its
UTF-8 encoding. Only the operations that the formats above need are provided. -/
namespace Bytes

/-- The whitespace octets of ASCII: tab, line feed, form feed, return and space. -/
def isAsciiWhitespace (b : UInt8) : Bool :=
  b == 9 || b == 10 || b == 12 || b == 13 || b == 32

/-- Remove leading and trailing ASCII whitespace. -/
def trimAscii (bs : List UInt8) : List UInt8 :=
  (bs.dropWhile isAsciiWhitespace).rdropWhile isAsciiWhitespace

theorem mem_of_mem_trimAscii {bs : List UInt8} (member : b ∈ trimAscii bs) : b ∈ bs := by
  have kept := (List.rdropWhile_prefix _ _).subset member
  exact (List.dropWhile_suffix _).subset kept

/-- Trimming does nothing to octets whose ends are both visible. -/
theorem trimAscii_eq_self {bs : List UInt8} (front : bs.head?.all (!isAsciiWhitespace ·))
    (back : bs.getLast?.all (!isAsciiWhitespace ·)) : trimAscii bs = bs := by
  have left : bs.dropWhile isAsciiWhitespace = bs := by
    cases bs with
    | nil => rfl
    | cons b rest =>
      simp only [List.head?_cons, Option.all_some, Bool.not_eq_true'] at front
      simp only [List.dropWhile_cons, front, Bool.false_eq_true, if_false]
  rw [trimAscii, left]
  rcases List.eq_nil_or_concat bs with rfl | ⟨init, last, rfl⟩
  · rfl
  · rw [List.concat_eq_append, List.getLast?_concat] at back
    simp only [Option.all_some, Bool.not_eq_true'] at back
    rw [List.concat_eq_append, List.rdropWhile_concat_neg _ _ _ (by simp [back])]

/-- The line separator `\n`. -/
def newline : UInt8 := 10

/-- The carriage return `\r`. -/
def carriageReturn : UInt8 := 13

/-- The pieces between newlines; there is always at least one. -/
def lines (bs : List UInt8) : List (List UInt8) := bs.splitOn newline

/-- Join pieces with one newline between neighbours. -/
def unlines (pieces : List (List UInt8)) : List UInt8 := [newline].intercalate pieces

theorem unlines_lines (bs : List UInt8) : unlines (lines bs) = bs :=
  List.intercalate_splitOn newline

theorem lines_unlines {pieces : List (List UInt8)} (clean : ∀ l ∈ pieces, newline ∉ l)
    (some : pieces ≠ []) : lines (unlines pieces) = pieces :=
  List.splitOn_intercalate newline clean some

theorem lines_ne_nil (bs : List UInt8) : lines bs ≠ [] := List.splitOn_ne_nil _ _

theorem lines_line_append {line : List UInt8} (clean : newline ∉ line) (rest : List UInt8) :
    lines (line ++ newline :: rest) = line :: lines rest :=
  List.splitOn_append_cons_self_of_not_mem clean rest

/-- A piece has no separator in it. -/
theorem not_mem_of_splitOn [BEq α] [LawfulBEq α] {sep : α} {xs piece : List α}
    (member : piece ∈ xs.splitOn sep) : sep ∉ piece := by
  induction xs generalizing piece with
  | nil =>
    simp only [List.splitOn_nil, List.mem_singleton] at member
    simp [member]
  | cons x rest ih =>
    simp only [List.splitOn_cons_eq_if_modifyHead] at member
    split at member
    · rcases List.mem_cons.mp member with rfl | later
      · simp
      · exact ih later
    · rename_i different
      obtain ⟨first, others, split⟩ := List.exists_cons_of_ne_nil (List.splitOn_ne_nil sep rest)
      rw [split, List.modifyHead_cons] at member
      rcases List.mem_cons.mp member with rfl | later
      · have clean : sep ∉ first := ih (by rw [split]; exact List.mem_cons_self)
        simp only [beq_iff_eq] at different
        simp only [List.mem_cons, not_or]
        exact ⟨fun same => different same.symm, clean⟩
      · exact ih (by rw [split]; exact List.mem_cons_of_mem _ later)

theorem newline_not_mem_lines {bs line : List UInt8} (member : line ∈ lines bs) :
    newline ∉ line := not_mem_of_splitOn member

end Bytes

namespace Text

/-- The UTF-8 octets of a string. -/
def utf8 (s : String) : List UInt8 := s.toByteArray.data.toList

@[simp] theorem utf8_append (s t : String) : utf8 (s ++ t) = utf8 s ++ utf8 t := by
  simp [utf8, String.toByteArray_append]

theorem utf8_ofList (cs : List Char) :
    utf8 (String.ofList cs) = cs.flatMap String.utf8EncodeChar := by
  simp [utf8, String.toByteArray_ofList, List.utf8Encode]

/-- Characters with the Unicode property White_Space. -/
def isWhitespace (c : Char) : Bool :=
  let n := c.toNat
  (9 ≤ n && n ≤ 13) || n == 0x20 || n == 0x85 || n == 0xA0 || n == 0x1680 ||
    (0x2000 ≤ n && n ≤ 0x200A) || n == 0x2028 || n == 0x2029 || n == 0x202F ||
    n == 0x205F || n == 0x3000

/-- Remove leading and trailing Unicode whitespace. -/
def trim (s : String) : String :=
  String.ofList ((s.toList.dropWhile isWhitespace).rdropWhile isWhitespace)

/-- Remove every trailing occurrence of a character. -/
def trimEndMatches (s : String) (c : Char) : String := String.ofList (s.toList.rdropWhile (· = c))

/-- The texts around the first occurrence of a separator. -/
def splitOnce (s : String) (sep : Char) : Option (String × String) :=
  match s.toList.dropWhile (· ≠ sep) with
  | [] => none
  | _ :: rest => some (String.ofList (s.toList.takeWhile (· ≠ sep)), String.ofList rest)

/-- Lower the ASCII letters and keep every other character. -/
def toAsciiLowercase (s : String) : String := String.ofList (s.toList.map Char.toLower)

def startsWith (s front : String) : Bool := front.toList.isPrefixOf s.toList

def endsWith (s back : String) : Bool := back.toList.isSuffixOf s.toList

def contains (s part : String) : Bool := s.toList.tails.any part.toList.isPrefixOf

/-- The text before a suffix, when the text ends in it. -/
def stripSuffix (s back : String) : Option String :=
  if endsWith s back then
    some (String.ofList (s.toList.take (s.toList.length - back.toList.length)))
  else none

/-- Replace every occurrence of a non-empty pattern, leftmost first and without
overlap; the inserted text is not searched again. -/
def replaceChars (pattern target : List Char) : Nat → List Char → List Char
  | 0, cs => cs
  | _ + 1, [] => []
  | fuel + 1, c :: cs =>
    if pattern.isPrefixOf (c :: cs) then
      target ++ replaceChars pattern target fuel ((c :: cs).drop pattern.length)
    else c :: replaceChars pattern target fuel cs

def replace (s pattern target : String) : String :=
  String.ofList (replaceChars pattern.toList target.toList s.toList.length s.toList)

/-- Join texts with one separator between neighbours. -/
def join (separator : String) (parts : List String) : String := separator.intercalate parts

example : trim " \t gpt-5 \u00a0" = "gpt-5" := by decide
example : replace "Roo and Roo" "Roo" "Codex" = "Codex and Codex" := by decide

end Text
