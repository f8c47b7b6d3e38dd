import CodexProxy.Library.ReferenceCodec

/-! Texts as the values of HTTP headers. A value may have any octets but control characters,
with the tab allowed; it can be read as a text when it has visible ASCII and tabs only. -/
namespace HeaderValue

/-- What a value may consist of. -/
def allows (b : UInt8) : Bool := b == 9 || (0x20 ≤ b && b != 0x7f)

/-- What can be read as a text. -/
def shows (b : UInt8) : Bool := b == 9 || (0x20 ≤ b && b < 0x7f)

/-- A character that can be read back. -/
def Plain (c : Char) : Prop := c = '\t' ∨ 0x20 ≤ c.toNat ∧ c.toNat < 0x7f

/-- A character that is no control character of ASCII but the tab. -/
def Sendable (c : Char) : Prop := c = '\t' ∨ 0x20 ≤ c.toNat ∧ c.toNat ≠ 0x7f

/-- A condition on octets that treats all octets above ASCII alike, on a text's characters.
By induction on the text. -/
theorem utf8_all {p : UInt8 → Bool} {high : Bool} (above : ∀ b : UInt8, 128 ≤ b.toNat → p b = high)
    (s : String) : (Text.utf8 s).all p =
      s.toList.all fun c => if c.toNat < 128 then p (UInt8.ofNat c.toNat) else high := by
  rw [← String.ofList_toList (s := s), Text.utf8_ofList, String.toList_ofList]
  induction s.toList with
  | nil => rfl
  | cons c cs ih =>
    rw [List.flatMap_cons, List.all_append, ih, List.all_cons]
    congr 1
    rcases Text.utf8EncodeChar_cases c with ⟨small, one⟩ | ⟨large, octets⟩
    · rw [one, if_pos small, List.all_cons, List.all_nil, Bool.and_true]
    · rw [if_neg (by omega)]
      obtain ⟨first, rest, encoded⟩ :=
        List.exists_cons_of_ne_nil (String.utf8EncodeChar_ne_nil (c := c))
      cases high with
      | true => exact List.all_eq_true.mpr fun b member => above b (octets b member)
      | false =>
        have octet : first ∈ String.utf8EncodeChar c := encoded ▸ List.mem_cons_self
        rw [encoded, List.all_cons, above first (octets first octet), Bool.false_and]

theorem char_eq_tab {c : Char} : c = '\t' ↔ c.toNat = 9 := by
  constructor
  · rintro rfl
    rfl
  · intro same
    exact Char.toNat_inj.mp same

theorem ascii_toNat {c : Char} (ascii : c.toNat < 128) : (UInt8.ofNat c.toNat).toNat = c.toNat := by
  rw [UInt8.toNat_ofNat']
  omega

theorem all_shows (s : String) :
    (Text.utf8 s).all shows = true ↔ ∀ c ∈ s.toList, Plain c := by
  have above (b : UInt8) (large : 128 ≤ b.toNat) : shows b = false := by
    simp only [shows, Bool.or_eq_false_iff, beq_eq_false_iff_ne, ne_eq, ← UInt8.toNat_inj,
      Bool.and_eq_false_iff, decide_eq_false_iff_not, UInt8.le_iff_toNat_le, UInt8.lt_iff_toNat_lt]
    simp
    omega
  rw [utf8_all above, List.all_eq_true]
  refine forall₂_congr fun c _ => ?_
  by_cases ascii : c.toNat < 128
  · rw [if_pos ascii, Plain, char_eq_tab]
    simp only [shows, Bool.or_eq_true, beq_iff_eq, ← UInt8.toNat_inj, Bool.and_eq_true,
      decide_eq_true_eq, UInt8.le_iff_toNat_le, UInt8.lt_iff_toNat_lt, ascii_toNat ascii]
    simp
  · rw [if_neg ascii, Plain, char_eq_tab]
    simp
    omega

theorem all_allows (s : String) :
    (Text.utf8 s).all allows = true ↔ ∀ c ∈ s.toList, Sendable c := by
  have above (b : UInt8) (large : 128 ≤ b.toNat) : allows b = true := by
    simp only [allows, Bool.or_eq_true, beq_iff_eq, ← UInt8.toNat_inj, Bool.and_eq_true,
      decide_eq_true_eq, UInt8.le_iff_toNat_le, bne_iff_ne, ne_eq]
    simp
    omega
  rw [utf8_all above, List.all_eq_true]
  refine forall₂_congr fun c _ => ?_
  by_cases ascii : c.toNat < 128
  · rw [if_pos ascii, Sendable, char_eq_tab]
    simp only [allows, Bool.or_eq_true, beq_iff_eq, ← UInt8.toNat_inj, Bool.and_eq_true,
      decide_eq_true_eq, UInt8.le_iff_toNat_le, bne_iff_ne, ne_eq, ascii_toNat ascii]
    simp
  · rw [if_neg ascii, Sendable, char_eq_tab]
    simp
    omega

/-- What can be read is read back. By induction on the text. -/
theorem map_ofNat {s : String} (plain : ∀ c ∈ s.toList, Plain c) :
    (Text.utf8 s).map (fun b => Char.ofNat b.toNat) = s.toList := by
  rw [← String.ofList_toList (s := s), Text.utf8_ofList, String.toList_ofList]
  generalize s.toList = cs at plain ⊢
  induction cs with
  | nil => rfl
  | cons c cs ih =>
    obtain ⟨first, rest⟩ := List.forall_mem_cons.mp plain
    have ascii : c.toNat < 128 := by
      rw [Plain, char_eq_tab] at first
      omega
    rcases Text.utf8EncodeChar_cases c with ⟨_, one⟩ | ⟨large, _⟩
    · rw [List.flatMap_cons, one, List.singleton_append, List.map_cons, ih rest, ascii_toNat ascii,
        Char.ofNat_toNat]
    · omega

end HeaderValue
