import CodexProxy.Library.JsonTextProofs

/-! The reference reader and writers at the level of octets, and the codec they form. -/
namespace Text

/-- A character is one octet below 128, or only octets from 128 on. -/
theorem utf8EncodeChar_cases (c : Char) :
    (c.toNat < 128 ∧ String.utf8EncodeChar c = [UInt8.ofNat c.toNat]) ∨
      (128 ≤ c.toNat ∧ ∀ b ∈ String.utf8EncodeChar c, 128 ≤ b.toNat) := by
  unfold String.utf8EncodeChar
  change (c.val.toNat < 128 ∧ _) ∨ (128 ≤ c.val.toNat ∧ _)
  dsimp only
  split
  · left
    exact ⟨by omega, rfl⟩
  · right
    refine ⟨by omega, ?_⟩
    split
    · simp only [List.mem_cons, List.not_mem_nil, or_false]
      rintro b (rfl | rfl) <;> rw [UInt8.toNat_ofNat'] <;> omega
    split
    · simp only [List.mem_cons, List.not_mem_nil, or_false]
      rintro b (rfl | rfl | rfl) <;> rw [UInt8.toNat_ofNat'] <;> omega
    · simp only [List.mem_cons, List.not_mem_nil, or_false]
      rintro b (rfl | rfl | rfl | rfl) <;> rw [UInt8.toNat_ofNat'] <;> omega

theorem mem_utf8EncodeChar {c : Char} (member : b ∈ String.utf8EncodeChar c) :
    b.toNat = c.toNat ∨ 128 ≤ b.toNat := by
  rcases utf8EncodeChar_cases c with ⟨small, one⟩ | ⟨_, large⟩
  · rw [one, List.mem_singleton] at member
    left
    rw [member, UInt8.toNat_ofNat']
    omega
  · exact .inr (large b member)

/-- An ASCII octet in front is an ASCII character in front. -/
theorem utf8_cons {s : String} (ascii : b.toNat < 128) (octets : utf8 s = b :: bs) :
    ∃ c cs, s.toList = c :: cs ∧ c.toNat = b.toNat ∧ utf8 (String.ofList cs) = bs := by
  rw [← String.ofList_toList (s := s), utf8_ofList] at octets
  cases split : s.toList with
  | nil =>
    rw [split] at octets
    cases octets
  | cons c cs =>
    rw [split, List.flatMap_cons] at octets
    rcases utf8EncodeChar_cases c with ⟨small, one⟩ | ⟨_, large⟩
    · rw [one, List.singleton_append, List.cons.injEq] at octets
      refine ⟨c, cs, rfl, ?_, by rw [utf8_ofList, octets.2]⟩
      rw [← octets.1, UInt8.toNat_ofNat', Nat.mod_eq_of_lt (by omega)]
    · obtain ⟨b', bs', encoded⟩ := List.exists_cons_of_ne_nil (String.utf8EncodeChar_ne_nil (c := c))
      rw [encoded, List.cons_append, List.cons.injEq] at octets
      have := large b' (encoded ▸ List.mem_cons_self)
      rw [octets.1] at this
      omega

theorem fromUTF8?_utf8 (s : String) : String.fromUTF8? ⟨(utf8 s).toArray⟩ = some s := by
  have same : (⟨(utf8 s).toArray⟩ : ByteArray) = s.toByteArray := by simp [utf8]
  rw [same, String.fromUTF8?, dif_pos s.isValidUTF8]
  rfl

theorem utf8_of_fromUTF8? {bs : List UInt8} (decoded : String.fromUTF8? ⟨bs.toArray⟩ = some s) :
    utf8 s = bs := by
  unfold String.fromUTF8? at decoded
  split at decoded
  · cases decoded
    simp [utf8, String.fromUTF8]
  · cases decoded

end Text

namespace JsonText
open Bytes

/-- Visible text; a layout adds line breaks. -/
def Printable (layout : Layout) (c : Char) : Prop := 32 ≤ c.toNat ∨ layout ≠ none ∧ c = '\n'

theorem visible_of_all {cs : List Char} (all : cs.all (32 ≤ ·.toNat) = true) :
    ∀ c ∈ cs, 32 ≤ c.toNat := by
  simpa using all

theorem gap_printable (layout : Layout) : ∀ c ∈ gap layout, Printable layout c := by
  intro c member
  cases layout with
  | none => cases member
  | some n =>
    rcases List.mem_cons.mp member with rfl | member
    · exact .inr ⟨by simp, rfl⟩
    · rw [List.eq_of_mem_replicate member]
      exact .inl (by decide)

theorem Printable.inner {layout : Layout} (printable : Printable layout.inner c) :
    Printable layout c := by
  cases layout with
  | none => exact printable
  | some n => exact printable.imp id fun h => ⟨by simp, h.2⟩

theorem writeSequence_printable (layout : Layout) {left right : Char} {ts : List (List Char)}
    (opening : 32 ≤ left.toNat) (closing : 32 ≤ right.toNat)
    (each : ∀ t ∈ ts, ∀ c ∈ t, Printable layout c) :
    ∀ c ∈ writeSequence layout left right ts, Printable layout c := by
  intro c member
  cases ts with
  | nil =>
    simp only [writeSequence, List.mem_cons, List.not_mem_nil, or_false] at member
    rcases member with rfl | rfl
    · exact .inl opening
    · exact .inl closing
  | cons t ts =>
    simp only [writeSequence, List.mem_append, List.mem_cons, List.mem_flatMap, List.not_mem_nil,
      or_false] at member
    rcases member with ((((rfl | inner) | first) | ⟨u, other, (rfl | inner) | later⟩) | outer) | rfl
    · exact .inl opening
    · exact (gap_printable _ c inner).inner
    · exact each t List.mem_cons_self c first
    · exact .inl (by decide)
    · exact (gap_printable _ c inner).inner
    · exact each u (List.mem_cons_of_mem _ other) c later
    · exact gap_printable _ c outer
    · exact .inl closing

theorem hexDigit_printable : ∀ n < 16, 32 ≤ (hexDigit n).toNat := by decide

theorem escape_printable (c : Char) : ∀ e ∈ escape c, 32 ≤ e.toNat := by
  unfold escape
  split
  · exact visible_of_all rfl
  split
  · exact visible_of_all rfl
  split
  · exact visible_of_all rfl
  split
  · exact visible_of_all rfl
  split
  · exact visible_of_all rfl
  split
  · exact visible_of_all rfl
  split
  · exact visible_of_all rfl
  split
  · rename_i control
    have high := hexDigit_printable (c.toNat / 16) (by omega)
    have low := hexDigit_printable (c.toNat % 16) (by omega)
    simp only [List.mem_cons, List.not_mem_nil, or_false]
    rintro e (rfl | rfl | rfl | rfl | rfl | rfl)
    any_goals decide
    · exact high
    · exact low
  · rename_i visible
    intro e member
    rw [List.mem_singleton.mp member]
    omega

theorem writeString_printable (s : String) : ∀ c ∈ writeString s, 32 ≤ c.toNat := by
  intro c member
  simp only [writeString, List.cons_append, List.mem_cons, List.mem_append, List.mem_flatMap,
    List.not_mem_nil, or_false] at member
  rcases member with rfl | ⟨d, _, member⟩ | rfl
  · decide
  · exact escape_printable d c member
  · decide

theorem writeInteger_printable (n : Json.Integer) : ∀ c ∈ writeInteger n, 33 ≤ c.toNat := by
  have digits (m : Nat) : ∀ c ∈ Nat.toDigits 10 m, 33 ≤ c.toNat := fun c member => by
    have digit := Nat.isDigit_of_mem_toDigits (by decide) (by decide) member
    have := isDigit_bounds digit
    omega
  unfold writeInteger
  split
  · rw [List.forall_mem_cons]
    exact ⟨by decide, digits _⟩
  · exact digits _

mutual
theorem writeValue_printable (layout : Layout) (v : Json) :
    ∀ c ∈ writeValue layout v, Printable layout c := by
  intro c member
  cases v with
  | null =>
    exact .inl (visible_of_all rfl c member)
  | bool b =>
    cases b with
    | true => exact .inl (visible_of_all rfl c member)
    | false => exact .inl (visible_of_all rfl c member)
  | number n =>
    cases n with
    | float bits =>
      exact .inl (visible_of_all rfl c member)
    | int n =>
      have := writeInteger_printable n c member
      exact .inl (by omega)
  | string s => exact .inl (writeString_printable s c member)
  | array items =>
    refine writeSequence_printable layout (by decide) (by decide) ?_ c member
    intro t item c member
    exact (writeItems_printable layout.inner items t item c member).inner
  | object ms =>
    refine writeSequence_printable layout (by decide) (by decide) ?_ c member
    intro t item c member
    exact (writeMembers_printable layout.inner ms t item c member).inner

theorem writeItems_printable (layout : Layout) (items : List Json) :
    ∀ t ∈ writeItems layout items, ∀ c ∈ t, Printable layout c := by
  cases items with
  | nil => simp [writeItems]
  | cons v vs =>
    rw [writeItems, List.forall_mem_cons]
    exact ⟨writeValue_printable layout v, writeItems_printable layout vs⟩

theorem writeMembers_printable (layout : Layout) (ms : Json.Members) :
    ∀ t ∈ writeMembers layout ms, ∀ c ∈ t, Printable layout c := by
  cases ms with
  | nil => simp [writeMembers]
  | cons head ms =>
    obtain ⟨k, v⟩ := head
    rw [writeMembers, List.forall_mem_cons]
    refine ⟨?_, writeMembers_printable layout ms⟩
    intro c member
    rcases List.mem_append.mp member with member | value
    · rcases List.mem_append.mp member with key | colon
      · exact .inl (writeString_printable k c key)
      · unfold writeColon at colon
        split at colon
        · exact .inl (visible_of_all rfl c colon)
        · exact .inl (visible_of_all rfl c colon)
    · exact writeValue_printable layout v c value
end

/-- A value's text ends in a visible character. -/
theorem writeValue_last (layout : Layout) (v : Json) :
    ∃ cs c, writeValue layout v = cs ++ [c] ∧ 33 ≤ c.toNat := by
  have sequence {left right : Char} (ts : List (List Char)) (closing : 33 ≤ right.toNat) :
      ∃ cs c, writeSequence layout left right ts = cs ++ [c] ∧ 33 ≤ c.toNat := by
    cases ts with
    | nil => exact ⟨[left], right, rfl, closing⟩
    | cons t ts => exact ⟨_, right, rfl, closing⟩
  cases v with
  | null => exact ⟨['n', 'u', 'l'], 'l', rfl, by decide⟩
  | bool b =>
    cases b with
    | true => exact ⟨['t', 'r', 'u'], 'e', rfl, by decide⟩
    | false => exact ⟨['f', 'a', 'l', 's'], 'e', rfl, by decide⟩
  | number n =>
    cases n with
    | float bits => exact ⟨['n', 'u', 'l'], 'l', rfl, by decide⟩
    | int n =>
      obtain ⟨c, cs, split, _⟩ := writeInteger_head n
      have nonempty : writeInteger n ≠ [] := by simp [split]
      refine ⟨(writeInteger n).dropLast, (writeInteger n).getLast nonempty,
        (List.dropLast_append_getLast nonempty).symm, ?_⟩
      exact writeInteger_printable n _ (List.getLast_mem nonempty)
  | string s => exact ⟨'"' :: s.toList.flatMap escape, '"', rfl, by decide⟩
  | array items => exact sequence _ (by decide)
  | object ms => exact sequence _ (by decide)

theorem octet_visible {c : Char} (visible : 33 ≤ c.toNat) :
    ∀ b ∈ String.utf8EncodeChar c, isAsciiWhitespace b = false := by
  intro b member
  have large : 33 ≤ b.toNat := by
    rcases Text.mem_utf8EncodeChar member with same | large <;> omega
  have other (n : UInt8) (small : n.toNat < 33) : (b == n) = false := by
    rw [beq_eq_false_iff_ne]
    rintro rfl
    omega
  simp [isAsciiWhitespace, other]

/-- The text of a value keeps its ends under trimming. -/
theorem trimAscii_writeValue (layout : Layout) (v : Json) :
    trimAscii (Text.utf8 (String.ofList (writeValue layout v))) =
      Text.utf8 (String.ofList (writeValue layout v)) := by
  rw [Text.utf8_ofList]
  have opens := writeValue_opens layout v
  have printable := writeValue_printable layout v
  obtain ⟨cs, last, back, visible⟩ := writeValue_last layout v
  obtain ⟨first, rest, front, notSpace, _⟩ := opens
  apply trimAscii_eq_self
  · have shown : 33 ≤ first.toNat := by
      have bound := printable first (by rw [front]; exact List.mem_cons_self)
      rcases bound with bound | ⟨_, rfl⟩
      · have : first.toNat ≠ 32 := by
          intro code
          have : first = ' ' := by rw [← Char.ofNat_toNat first, code]
          rw [this] at notSpace
          exact absurd notSpace (by decide)
        omega
      · exact absurd notSpace (by decide)
    obtain ⟨b, bs, encoded⟩ := List.exists_cons_of_ne_nil (String.utf8EncodeChar_ne_nil (c := first))
    have seen := octet_visible shown b (encoded ▸ List.mem_cons_self)
    simp [front, encoded, seen]
  · have member := List.getLast?_eq_some_getLast (String.utf8EncodeChar_ne_nil (c := last))
    generalize (String.utf8EncodeChar last).getLast _ = b at member
    have seen := octet_visible visible b (List.mem_of_getLast? member)
    simp [back, member, seen]

theorem read_utf8_writeValue (layout : Layout) {v : Json} (portable : v.Portable) :
    read (Text.utf8 (String.ofList (writeValue layout v))) = some v := by
  have noFormFeed : 12 ∉ Text.utf8 (String.ofList (writeValue layout v)) := by
    rw [Text.utf8_ofList, List.mem_flatMap]
    rintro ⟨c, member, octet⟩
    have printable := writeValue_printable layout v c member
    have code : (12 : UInt8).toNat = c.toNat ∨ 128 ≤ (12 : UInt8).toNat :=
      Text.mem_utf8EncodeChar octet
    rw [show (12 : UInt8).toNat = 12 from rfl] at code
    rcases printable with large | ⟨_, rfl⟩
    · omega
    · exact absurd code (by decide)
  rw [read, if_neg noFormFeed, trimAscii_writeValue, Text.fromUTF8?_utf8, Option.bind_some,
    String.toList_ofList, readText_spec layout portable]

theorem trimAscii_idem (bs : List UInt8) : trimAscii (trimAscii bs) = trimAscii bs := by
  apply trimAscii_eq_self
  · rw [trimAscii]
    cases split : (bs.dropWhile isAsciiWhitespace).rdropWhile isAsciiWhitespace with
    | nil => rfl
    | cons b rest =>
      obtain ⟨suffix, whole⟩ := List.rdropWhile_prefix isAsciiWhitespace
        (bs.dropWhile isAsciiWhitespace)
      have first := List.head?_dropWhile_not isAsciiWhitespace bs
      rw [← whole, split] at first
      simpa using first
  · rw [trimAscii]
    cases split : (bs.dropWhile isAsciiWhitespace).rdropWhile isAsciiWhitespace with
    | nil => rfl
    | cons b rest =>
      have last := List.rdropWhile_last_not isAsciiWhitespace (bs.dropWhile isAsciiWhitespace)
        (by simp [split])
      rw [List.getLast?_eq_some_getLast (by simp), Option.all_some]
      simpa [split] using last

theorem read_trimAscii (bs : List UInt8) (v : Json) (known : read bs = some v) :
    read (trimAscii bs) = some v := by
  unfold read at known ⊢
  split at known
  · cases known
  · rename_i noFormFeed
    rw [if_neg fun member => noFormFeed (mem_of_mem_trimAscii member), trimAscii_idem]
    exact known

/-- A capital letter begins no value. -/
theorem readValue_capital (depth : Nat) {c : Char} (cs : List Char) (low : 65 ≤ c.toNat)
    (high : c.toNat ≤ 90) : readValue depth (c :: cs) = none := by
  have other (d : Char) (outside : d.toNat < 65 ∨ 90 < d.toNat) : c ≠ d := by
    rintro rfl
    omega
  have visible : isSpace c = false := by
    simp [isSpace, other]
  have scalar : readScalar (c :: cs) = none := by
    have literal (text : List Char) (d : Char) (outside : d.toNat < 65 ∨ 90 < d.toNat) (v : Json) :
        readLiteral (d :: text) v (c :: cs) = none :=
      readLiteral_other (other d outside).symm text v cs
    have digit : c.isDigit = false := by
      by_contra digit
      have := isDigit_bounds (by simpa using digit : c.isDigit = true)
      omega
    have natural : readNumber (c :: cs) = none := by
      unfold readNumber
      split
      · rename_i same
        exact absurd (List.cons.inj same).1 (other '-' (by decide))
      · rw [readNatural]
        have none : (c :: cs).takeWhile Char.isDigit = [] :=
          List.takeWhile_cons_of_neg (by simp [digit])
        simp [none, Nat.ofDigitChars_nil, Nat.toDigits_zero]
    have quote : c ≠ '"' := other '"' (by decide)
    simp [readScalar, literal, readString, quote, natural]
  cases depth with
  | zero =>
    simp only [readValue]
    rw [skip_cons visible, scalar]
  | succ depth =>
    simp only [readValue]
    rw [skip_cons visible]
    split
    · rename_i same
      exact absurd (List.cons.inj same).1 (other '[' (by decide))
    · rename_i same
      exact absurd (List.cons.inj same).1 (other '{' (by decide))
    · exact scalar

theorem readValue_bracket (depth : Nat) {c : Char} (cs : List Char) (low : 65 ≤ c.toNat)
    (high : c.toNat ≤ 90) : readValue (depth + 1) ('[' :: c :: cs) = none := by
  have item := readValue_capital depth cs low high
  have visible : isSpace '[' = false := by decide
  have shown : isSpace c = false := by
    have other (d : Char) (outside : d.toNat < 65 ∨ 90 < d.toNat) : c ≠ d := by
      rintro rfl
      omega
    simp [isSpace, other]
  have bracket : c ≠ ']' := by
    rintro rfl
    exact absurd high (by decide)
  have items : readSequence (readValue depth) ']' (c :: cs) = none := by
    simp only [readSequence, skip_cons shown, if_neg bracket, List.length_cons, readMore, item]
  simp only [readValue]
  rw [skip_cons visible]
  simp only [items, Option.map_none]

theorem trimAscii_front {b c : UInt8} (bs : List UInt8) (first : isAsciiWhitespace b = false)
    (second : isAsciiWhitespace c = false) :
    ∃ rest, trimAscii (b :: c :: bs) = b :: c :: rest := by
  have left : (b :: c :: bs).dropWhile isAsciiWhitespace = b :: c :: bs :=
    List.dropWhile_cons_of_neg (by simp [first])
  rw [trimAscii, left]
  induction bs using List.reverseRecOn with
  | nil =>
    refine ⟨[], ?_⟩
    rw [show [b, c] = [b] ++ [c] from rfl, List.rdropWhile_concat_neg _ _ _ (by simp [second])]
  | append_singleton bs d ih =>
    rw [show b :: c :: (bs ++ [d]) = (b :: c :: bs) ++ [d] from rfl]
    by_cases space : isAsciiWhitespace d = true
    · rw [List.rdropWhile_concat_pos _ _ _ space]
      exact ih (List.dropWhile_cons_of_neg (by simp [first]))
    · rw [List.rdropWhile_concat_neg _ _ _ space]
      exact ⟨bs ++ [d], rfl⟩

theorem read_letter (c : UInt8) (rest : List UInt8) (low : 65 ≤ c) (high : c ≤ 90) :
    read (91 :: c :: rest) = none := by
  have below : 65 ≤ c.toNat := low
  have above : c.toNat ≤ 90 := high
  have visible : isAsciiWhitespace c = false := by
    have other (n : UInt8) (small : n.toNat < 65) : (c == n) = false := by
      rw [beq_eq_false_iff_ne]
      rintro rfl
      omega
    simp [isAsciiWhitespace, other]
  obtain ⟨rest', trimmed⟩ := trimAscii_front (b := 91) rest (by decide) visible
  unfold read
  split
  · rfl
  · rw [trimmed]
    cases decoded : String.fromUTF8? ⟨(91 :: c :: rest').toArray⟩ with
    | none => rfl
    | some s =>
      obtain ⟨bracket, cs, split, code, tail⟩ :=
        Text.utf8_cons (by decide) (Text.utf8_of_fromUTF8? decoded)
      obtain ⟨letter, ds, split', code', _⟩ := Text.utf8_cons (by omega) tail
      have opening : bracket = '[' := by
        rw [← Char.ofNat_toNat bracket, code]
        rfl
      rw [String.toList_ofList] at split'
      rw [Option.bind_some, split, split', opening, readText, Json.maxDepth,
        readValue_bracket 126 ds (by omega) (by omega)]

theorem read_nil : read [] = none := by
  have empty : String.fromUTF8? ⟨(trimAscii []).toArray⟩ = some "" := Text.fromUTF8?_utf8 ""
  rw [read, if_neg (by simp), empty, Option.bind_some]
  rfl

theorem write_visible (v : Json) : ∀ b ∈ Text.utf8 (write v), 32 ≤ b := by
  intro b member
  rw [write, Text.utf8_ofList, List.mem_flatMap] at member
  obtain ⟨c, member, octet⟩ := member
  have bound : 32 ≤ b.toNat := by
    rcases writeValue_printable none v c member with large | ⟨compact, _⟩
    · rcases Text.mem_utf8EncodeChar octet with same | high <;> omega
    · exact absurd rfl compact
  exact bound

/-- The integral fragment as a codec. -/
def codec : Json.Codec where
  read := read
  write := write
  writePretty := writePretty
  sliceError target _ := "invalid " ++ target
  valueError target _ := "invalid " ++ target
  read_write _ portable := read_utf8_writeValue none portable
  read_writePretty _ portable := read_utf8_writeValue (some 0) portable
  read_trimAscii := read_trimAscii
  read_nil := read_nil
  read_letter := read_letter
  write_visible := write_visible

end JsonText
