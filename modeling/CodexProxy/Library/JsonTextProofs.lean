import CodexProxy.Library.JsonText

/-! Reading inverts writing on portable values, and the reference reader and writers
satisfy the laws of a codec. -/
namespace JsonText

/-- No number goes on in this continuation. -/
def Stops (rest : List Char) : Prop :=
  ∀ c ∈ rest.head?, c.isDigit = false ∧ c ≠ '.' ∧ c ≠ 'e' ∧ c ≠ 'E'

/-- A reader finds a value in front of every such continuation. -/
def Reads (reader : Reader α) (a : α) (text : List Char) : Prop :=
  ∀ rest, Stops rest → reader (text ++ rest) = some (a, rest)

/-- A text that begins with a visible character which closes nothing. -/
def Opens (text : List Char) : Prop :=
  ∃ c cs, text = c :: cs ∧ isSpace c = false ∧ c ≠ ']' ∧ c ≠ '}'

theorem Opens.append {text : List Char} (opens : Opens text) (rest : List Char) :
    Opens (text ++ rest) := by
  obtain ⟨c, cs, rfl, visible⟩ := opens
  exact ⟨c, cs ++ rest, rfl, visible⟩

theorem skip_cons {c : Char} (visible : isSpace c = false) (cs : List Char) :
    skip (c :: cs) = c :: cs := by
  rw [skip, List.dropWhile_cons_of_neg (by simp [visible])]

theorem Opens.skip {text : List Char} (opens : Opens text) : skip text = text := by
  obtain ⟨c, cs, rfl, visible, _⟩ := opens
  exact skip_cons visible cs

/-- Only whitespace. -/
def Blank (cs : List Char) : Prop := ∀ c ∈ cs, isSpace c = true

theorem skip_blank {blank : List Char} (spaces : Blank blank) (cs : List Char) :
    skip (blank ++ cs) = skip cs :=
  List.dropWhile_append_of_pos spaces

theorem gap_blank (layout : Layout) : Blank (gap layout) := by
  intro c member
  cases layout with
  | none => cases member
  | some n =>
    rcases List.mem_cons.mp member with rfl | member
    · decide
    · rw [List.eq_of_mem_replicate member]
      decide

/-- Leading whitespace makes no difference to the reader. -/
def Skips (reader : Reader α) : Prop :=
  ∀ blank cs, Blank blank → reader (blank ++ cs) = reader cs

theorem digits_head (m : Nat) : ∃ d ds, Nat.toDigits 10 m = d :: ds ∧ d.isDigit = true := by
  obtain ⟨d, ds, split⟩ := List.exists_cons_of_ne_nil (Nat.toDigits_ne_nil (b := 10) (n := m))
  exact ⟨d, ds, split, Nat.isDigit_of_mem_toDigits (by decide) (by decide)
    (split ▸ List.mem_cons_self)⟩

theorem isDigit_bounds {c : Char} (digit : c.isDigit = true) : 48 ≤ c.toNat ∧ c.toNat ≤ 57 := by
  simp only [Char.isDigit, ge_iff_le, Bool.and_eq_true, decide_eq_true_eq] at digit
  exact ⟨digit.1, digit.2⟩

/-- A digit differs from every character outside its range. -/
theorem isDigit_ne {c d : Char} (digit : c.isDigit = true)
    (other : d.toNat < 48 ∨ 57 < d.toNat := by decide) : c ≠ d := by
  rintro rfl
  have := isDigit_bounds digit
  omega

theorem readNatural_spec {negative : Bool} {m : Nat} (known : toInteger negative m = some n) :
    Reads (readNatural negative) (.number (.int n)) (Nat.toDigits 10 m) := by
  intro rest stops
  have digits : ∀ c ∈ Nat.toDigits 10 m, c.isDigit = true := fun c member =>
    Nat.isDigit_of_mem_toDigits (by decide) (by decide) member
  have none : rest.takeWhile Char.isDigit = [] ∧ rest.dropWhile Char.isDigit = rest := by
    cases rest with
    | nil => exact ⟨rfl, rfl⟩
    | cons c rest =>
      have plain := (stops c rfl).1
      exact ⟨List.takeWhile_cons_of_neg (by simp [plain]), List.dropWhile_cons_of_neg (by simp [plain])⟩
  have front : (Nat.toDigits 10 m ++ rest).takeWhile Char.isDigit = Nat.toDigits 10 m := by
    rw [List.takeWhile_append_of_pos digits, none.1, List.append_nil]
  have back : (Nat.toDigits 10 m ++ rest).dropWhile Char.isDigit = rest := by
    rw [List.dropWhile_append_of_pos digits, none.2]
  have ends : continuesNumber rest = false := by
    cases rest with
    | nil => rfl
    | cons c rest =>
      obtain ⟨_, point, small, capital⟩ := stops c rfl
      simp [continuesNumber, point, small, capital]
  simp only [readNatural, front, back, Nat.ofDigitChars_ten_toDigits, ends, Bool.not_false,
    and_self, if_true, known, Option.map_some]

theorem readNumber_spec (n : Json.Integer) :
    Reads readNumber (.number (.int n)) (writeInteger n) := by
  have lower := n.lower
  have upper := n.upper
  intro rest stops
  unfold writeInteger
  split
  · rename_i negative
    have known : toInteger true n.val.natAbs = some n := by
      have back : -(n.val.natAbs : Int) = n.val := by omega
      have nonzero : n.val ≠ 0 := by omega
      simp only [toInteger, if_true, back, nonzero, Int.natAbs_eq_zero, and_false, if_false]
      rw [dif_pos ⟨lower, upper⟩]
    exact readNatural_spec known rest stops
  · rename_i nonnegative
    have known : toInteger false n.val.toNat = some n := by
      have back : (n.val.toNat : Int) = n.val := by omega
      simp only [toInteger, Bool.false_eq_true, false_and, if_false, back]
      rw [dif_pos ⟨lower, upper⟩]
    obtain ⟨d, ds, split, digit⟩ := digits_head n.val.toNat
    have natural := readNatural_spec known rest stops
    rw [split] at natural ⊢
    rw [List.cons_append] at natural ⊢
    unfold readNumber
    split
    · rename_i same
      exact absurd (List.cons.inj same).1 (isDigit_ne digit)
    · exact natural

theorem hexValue_hexDigit : ∀ n < 16, hexValue (hexDigit n) = some n := by decide

theorem readChars_quote (rest : List Char) : readChars ('"' :: rest) = some ([], rest) := by
  rw [readChars.eq_def]
  rfl

theorem readChars_plain {c : Char} (quote : c ≠ '"') (backslash : c ≠ '\\')
    (visible : ¬ c.toNat < 32) (rest : List Char) :
    readChars (c :: rest) = (readChars rest).map fun p => (c :: p.1, p.2) := by
  rw [readChars.eq_def]
  dsimp only
  rw [if_neg quote, if_neg backslash, if_neg visible]

theorem readChars_escape (c : Char) (rest : List Char) :
    readChars (escape c ++ rest) = (readChars rest).map fun p => (c :: p.1, p.2) := by
  have byCode (n : Nat) (code : c.toNat = n) : c = Char.ofNat n := by
    rw [← code, Char.ofNat_toNat]
  unfold escape
  split
  · rename_i same
    subst same
    simp [readChars, unescape]
  split
  · rename_i same
    subst same
    simp [readChars, unescape]
  split
  · rename_i same
    subst same
    simp [readChars, unescape]
  split
  · rename_i same
    subst same
    simp [readChars, unescape]
  split
  · rename_i same
    subst same
    simp [readChars, unescape]
  split
  · rename_i code
    simp [readChars, unescape, byCode 8 code]
  split
  · rename_i code
    simp [readChars, unescape, byCode 12 code]
  split
  · rename_i control
    have high := hexValue_hexDigit (c.toNat / 16) (by omega)
    have low := hexValue_hexDigit (c.toNat % 16) (by omega)
    have zero : hexValue '0' = some 0 := by decide
    have value : unicode '0' '0' (hexDigit (c.toNat / 16)) (hexDigit (c.toNat % 16)) = some c := by
      have back : c.toNat / 16 * 16 + c.toNat % 16 = c.toNat := by omega
      simp only [unicode, zero, high, low, Option.bind_eq_bind, Option.bind_some, Nat.zero_mul,
        Nat.zero_add, back]
      rw [if_neg (by omega), Char.ofNat_toNat]
    simp [readChars, value]
  · rename_i quote backslash _ _ _ _ _ visible
    exact readChars_plain quote backslash visible rest

theorem readChars_spec (cs rest : List Char) :
    readChars (cs.flatMap escape ++ '"' :: rest) = some (cs, rest) := by
  induction cs with
  | nil => exact readChars_quote rest
  | cons c cs ih => rw [List.flatMap_cons, List.append_assoc, readChars_escape, ih, Option.map_some]

theorem readString_spec (s : String) (rest : List Char) :
    readString (writeString s ++ rest) = some (s, rest) := by
  have chars := readChars_spec s.toList rest
  simp [readString, writeString, chars]

theorem stops_nil : Stops [] := by
  intro c first
  cases first

theorem stops_cons {c : Char} (rest : List Char)
    (stop : c.isDigit = false ∧ c ≠ '.' ∧ c ≠ 'e' ∧ c ≠ 'E' := by decide) : Stops (c :: rest) := by
  intro d first
  cases first
  exact stop

theorem stops_gap (layout : Layout) {rest : List Char} (stops : Stops rest) :
    Stops (gap layout ++ rest) := by
  cases layout with
  | none => exact stops
  | some n => exact stops_cons _

/-- The two closing brackets. -/
def Closes (right : Char) : Prop := right = ']' ∨ right = '}'

theorem Closes.spec {right : Char} (closes : Closes right) :
    isSpace right = false ∧ right ≠ ',' ∧ ∀ rest, Stops (right :: rest) := by
  rcases closes with rfl | rfl
  · exact ⟨by decide, by decide, fun rest => stops_cons rest⟩
  · exact ⟨by decide, by decide, fun rest => stops_cons rest⟩

theorem readMore_blank {item : Reader α} (skips : Skips item) (right : Char) (fuel : Nat)
    {blank : List Char} (spaces : Blank blank) (cs : List Char) :
    readMore item right fuel (blank ++ cs) = readMore item right fuel cs := by
  cases fuel with
  | zero => rfl
  | succ fuel => simp only [readMore, skips blank cs spaces]

/-- The induction is on the items after the first one. -/
theorem readMore_spec {item : Reader α} {right : Char} (skips : Skips item)
    (closes : Closes right) (layout : Layout) {a : α} {t : List Char} {as : List α}
    {ts : List (List Char)} (first : Reads item a t) (others : List.Forall₂ (Reads item) as ts)
    (fuel : Nat) (enough : ts.length < fuel) (tail : List Char) :
    readMore item right fuel (t ++ (ts.flatMap (fun t => ',' :: gap layout.inner ++ t) ++
      (gap layout ++ right :: tail))) = some (a :: as, tail) := by
  obtain ⟨visible, notComma, stops⟩ := closes.spec
  induction others generalizing a t fuel with
  | nil =>
    obtain ⟨fuel, rfl⟩ := Nat.exists_eq_add_of_lt enough
    have read := first _ (stops_gap layout (stops tail))
    simp only [List.flatMap_nil, List.nil_append, readMore, read, skip_blank (gap_blank layout),
      skip_cons visible, if_true]
  | cons next others ih =>
    rename_i b u bs us
    obtain ⟨fuel, rfl⟩ := Nat.exists_eq_add_of_lt enough
    have continued := ih next (us.length + fuel + 1) (by omega)
    rw [← readMore_blank skips right _ (gap_blank layout.inner)] at continued
    have read := first (',' :: (gap layout.inner ++ (u ++
      (us.flatMap (fun t => ',' :: gap layout.inner ++ t) ++ (gap layout ++ right :: tail)))))
      (stops_cons _)
    have comma : isSpace ',' = false := by decide
    simp only [List.flatMap_cons, List.append_assoc, List.cons_append, List.length_cons] at read ⊢
    simp only [readMore, read, skip_cons comma, Ne.symm notComma, if_false, if_true]
    simp only [List.cons_append] at continued
    rw [show us.length + 1 + fuel = us.length + fuel + 1 by omega, continued, Option.map_some]

/-- Every further item takes at least its comma. -/
theorem length_separated (blank : List Char) (ts : List (List Char)) :
    ts.length ≤ (ts.flatMap fun t => ',' :: blank ++ t).length := by
  induction ts with
  | nil => simp
  | cons t ts ih =>
    simp only [List.flatMap_cons, List.length_append, List.length_cons] at ih ⊢
    omega

theorem readSequence_spec {item : Reader α} (left : Char) {right : Char} (skips : Skips item)
    (closes : Closes right) (layout : Layout) {as : List α} {ts : List (List Char)}
    (items : List.Forall₂ (Reads item) as ts) (opens : ∀ t ∈ ts, Opens t) (tail : List Char) :
    ∃ body, writeSequence layout left right ts ++ tail = left :: body ∧
      readSequence item right body = some (as, tail) := by
  obtain ⟨visible, _, _⟩ := closes.spec
  cases items with
  | nil =>
    refine ⟨right :: tail, rfl, ?_⟩
    simp only [readSequence, skip_cons visible, if_true]
  | cons first others =>
    rename_i a t as ts
    refine ⟨gap layout.inner ++ (t ++ (ts.flatMap (fun t => ',' :: gap layout.inner ++ t) ++
      (gap layout ++ right :: tail))), by simp [writeSequence], ?_⟩
    have opened := (opens t List.mem_cons_self).append
      (ts.flatMap (fun t => ',' :: gap layout.inner ++ t) ++ (gap layout ++ right :: tail))
    have enough : ts.length < (gap layout.inner ++ (t ++ (ts.flatMap (fun t =>
        ',' :: gap layout.inner ++ t) ++ (gap layout ++ right :: tail)))).length := by
      have each := length_separated (gap layout.inner) ts
      simp only [List.length_append, List.length_cons]
      omega
    have some := readMore_spec skips closes layout first others _ enough tail
    rw [← readMore_blank skips right _ (gap_blank layout.inner)] at some
    obtain ⟨c, cs, split, opening, notBracket, notBrace⟩ := opened
    have other : c ≠ right := by
      rcases closes with rfl | rfl
      · exact notBracket
      · exact notBrace
    simp only [readSequence]
    rw [skip_blank (gap_blank layout.inner)]
    simp only [split, skip_cons opening, if_neg other]
    simpa only [split] using some

theorem readScalar_literal : Reads readScalar .null ['n', 'u', 'l', 'l'] ∧
    Reads readScalar (.bool true) ['t', 'r', 'u', 'e'] ∧
    Reads readScalar (.bool false) ['f', 'a', 'l', 's', 'e'] := by
  refine ⟨?_, ?_, ?_⟩ <;> intro rest _ <;> simp [readScalar, readLiteral]

theorem readLiteral_other {c d : Char} (different : d ≠ c) (text : List Char) (v : Json)
    (cs : List Char) : readLiteral (d :: text) v (c :: cs) = none := by
  simp [readLiteral, different]

theorem readScalar_string (s : String) : Reads readScalar (.string s) (writeString s) := by
  intro rest _
  have read := readString_spec s rest
  have quote : writeString s ++ rest = '"' :: (s.toList.flatMap escape ++ '"' :: rest) := by
    simp [writeString]
  rw [quote] at read ⊢
  simp [readScalar, readLiteral_other, read]

theorem writeInteger_head (n : Json.Integer) :
    ∃ c cs, writeInteger n = c :: cs ∧ (c = '-' ∨ c.isDigit = true) := by
  unfold writeInteger
  split
  · exact ⟨_, _, rfl, .inl rfl⟩
  · obtain ⟨d, ds, split, digit⟩ := digits_head n.val.toNat
    exact ⟨d, ds, split, .inr digit⟩

/-- A number begins with none of the characters that another value begins with. -/
theorem number_ne {c d : Char} (number : c = '-' ∨ c.isDigit = true) (minus : d ≠ '-' := by decide)
    (other : d.toNat < 48 ∨ 57 < d.toNat := by decide) : c ≠ d := by
  rcases number with rfl | digit
  · exact Ne.symm minus
  · exact isDigit_ne digit other

theorem readScalar_integer (n : Json.Integer) :
    Reads readScalar (.number (.int n)) (writeInteger n) := by
  intro rest stops
  have read := readNumber_spec n rest stops
  obtain ⟨c, cs, split, number⟩ := writeInteger_head n
  rw [split, List.cons_append] at read ⊢
  have quote : c ≠ '"' := number_ne number
  have n : 'n' ≠ c := (number_ne number).symm
  have t : 't' ≠ c := (number_ne number).symm
  have f : 'f' ≠ c := (number_ne number).symm
  simp [readScalar, readLiteral_other, n, t, f, readString, quote, read]

theorem writeString_opens (s : String) : Opens (writeString s) :=
  ⟨'"', _, rfl, by decide, by decide, by decide⟩

theorem writeSequence_opens (layout : Layout) {left : Char} (right : Char) (ts : List (List Char))
    (opening : left = '[' ∨ left = '{') : Opens (writeSequence layout left right ts) := by
  have visible : isSpace left = false ∧ left ≠ ']' ∧ left ≠ '}' := by
    rcases opening with rfl | rfl <;> decide
  cases ts with
  | nil => exact ⟨left, _, rfl, visible⟩
  | cons t ts => exact ⟨left, _, rfl, visible⟩

theorem writeValue_opens (layout : Layout) (v : Json) : Opens (writeValue layout v) := by
  cases v with
  | null => exact ⟨_, _, rfl, by decide, by decide, by decide⟩
  | bool b => cases b <;> exact ⟨_, _, rfl, by decide, by decide, by decide⟩
  | number n =>
    cases n with
    | float bits => exact ⟨_, _, rfl, by decide, by decide, by decide⟩
    | int n =>
      obtain ⟨c, cs, split, number⟩ := writeInteger_head n
      refine ⟨c, cs, split, ?_, number_ne number, number_ne number⟩
      simp only [isSpace, beq_eq_false_iff_ne.mpr (number_ne number : c ≠ ' '),
        beq_eq_false_iff_ne.mpr (number_ne number : c ≠ '\n'),
        beq_eq_false_iff_ne.mpr (number_ne number : c ≠ '\r'),
        beq_eq_false_iff_ne.mpr (number_ne number : c ≠ '\t'), Bool.or_self]
  | string s => exact writeString_opens s
  | array items => exact writeSequence_opens layout ']' _ (.inl rfl)
  | object ms => exact writeSequence_opens layout '}' _ (.inr rfl)

theorem readValue_skips (depth : Nat) : Skips (readValue depth) := by
  intro blank cs spaces
  cases depth <;> simp only [readValue, skip_blank spaces]

theorem readMember_skips (value : Reader Json) : Skips (readMember value) := by
  intro blank cs spaces
  simp only [readMember, skip_blank spaces]

theorem readMember_spec {value : Reader Json} (skips : Skips value) (layout : Layout) (k : String)
    (reads : Reads value v text) :
    Reads (readMember value) (k, v) (writeString k ++ writeColon layout ++ text) := by
  intro rest stops
  have blank : Blank (if layout = none then [] else [' ']) := by
    intro c member
    split at member
    · cases member
    · rw [List.mem_singleton.mp member]
      decide
  have colon : writeColon layout = ':' :: (if layout = none then [] else [' ']) := by
    unfold writeColon
    split <;> rfl
  have visible : isSpace ':' = false := by decide
  rw [List.append_assoc, List.append_assoc, readMember,
    ((writeString_opens k).append _).skip, readString_spec]
  simp only [colon, List.cons_append, skip_cons visible, skips _ _ blank, reads rest stops,
    Option.map_some]

/-- A text that is not a container is read as a scalar at any depth. -/
theorem readValue_scalar {text : List Char} (depth : Nat) (reads : Reads readScalar v text)
    (opens : ∃ c cs, text = c :: cs ∧ isSpace c = false ∧ c ≠ '[' ∧ c ≠ '{') :
    Reads (readValue depth) v text := by
  intro rest stops
  have read := reads rest stops
  obtain ⟨c, cs, rfl, visible, bracket, brace⟩ := opens
  rw [List.cons_append] at read ⊢
  cases depth with
  | zero =>
    simp only [readValue]
    rw [skip_cons visible, read]
  | succ depth =>
    simp only [readValue]
    rw [skip_cons visible]
    split
    · rename_i same
      exact absurd (List.cons.inj same).1 bracket
    · rename_i same
      exact absurd (List.cons.inj same).1 brace
    · exact read

mutual
/-- Reading inverts writing, in either layout. -/
theorem readValue_spec (layout : Layout) (v : Json) (depth : Nat) (integral : v.integral = true)
    (shallow : v.depth ≤ depth) : Reads (readValue depth) v (writeValue layout v) := by
  cases v with
  | null => exact readValue_scalar depth readScalar_literal.1 ⟨_, _, rfl, by decide⟩
  | bool b =>
    cases b with
    | true => exact readValue_scalar depth readScalar_literal.2.1 ⟨_, _, rfl, by decide⟩
    | false => exact readValue_scalar depth readScalar_literal.2.2 ⟨_, _, rfl, by decide⟩
  | number n =>
    cases n with
    | float bits => simp [Json.integral] at integral
    | int n =>
      obtain ⟨c, cs, split, visible, _⟩ := writeValue_opens layout (.number (.int n))
      obtain ⟨c', cs', split', number⟩ := writeInteger_head n
      cases (show c :: cs = c' :: cs' from split.symm.trans split')
      exact readValue_scalar depth (readScalar_integer n)
        ⟨c, cs, split, visible, number_ne number, number_ne number⟩
  | string s => exact readValue_scalar depth (readScalar_string s) ⟨_, _, rfl, by decide⟩
  | array items =>
    simp only [Json.integral, Json.depth] at integral shallow
    obtain ⟨depth, rfl⟩ := Nat.exists_eq_add_of_lt shallow
    have each := readItems_spec layout.inner items (Json.depthAll items + depth) integral
      (Nat.le_add_right _ _)
    intro rest _
    obtain ⟨body, split, read⟩ := readSequence_spec '[' (readValue_skips _) (.inl rfl)
      layout each.1 each.2 rest
    have visible : isSpace '[' = false := by decide
    simp only [writeValue, split, readValue, skip_cons visible, read, Option.map_some]
  | object ms =>
    simp only [Json.integral, Json.depth] at integral shallow
    obtain ⟨depth, rfl⟩ := Nat.exists_eq_add_of_lt shallow
    have each := readMembers_spec layout.inner ms (Json.depthMembers ms + depth) integral
      (Nat.le_add_right _ _)
    intro rest _
    obtain ⟨body, split, read⟩ := readSequence_spec '{' (readMember_skips _) (.inr rfl)
      layout each.1 each.2 rest
    have visible : isSpace '{' = false := by decide
    simp only [writeValue, split, readValue, skip_cons visible, read, Option.map_some]

theorem readItems_spec (layout : Layout) (items : List Json) (depth : Nat)
    (integral : Json.integralAll items = true) (shallow : Json.depthAll items ≤ depth) :
    List.Forall₂ (Reads (readValue depth)) items (writeItems layout items) ∧
      ∀ t ∈ writeItems layout items, Opens t := by
  cases items with
  | nil => exact ⟨.nil, by simp [writeItems]⟩
  | cons v vs =>
    simp only [Json.integralAll, Json.depthAll, Bool.and_eq_true, Nat.max_le] at integral shallow
    obtain ⟨later, opens⟩ := readItems_spec layout vs depth integral.2 shallow.2
    refine ⟨.cons (readValue_spec layout v depth integral.1 shallow.1) later, ?_⟩
    rw [writeItems, List.forall_mem_cons]
    exact ⟨writeValue_opens layout v, opens⟩

theorem readMembers_spec (layout : Layout) (ms : Json.Members) (depth : Nat)
    (integral : Json.integralMembers ms = true) (shallow : Json.depthMembers ms ≤ depth) :
    List.Forall₂ (Reads (readMember (readValue depth))) ms (writeMembers layout ms) ∧
      ∀ t ∈ writeMembers layout ms, Opens t := by
  cases ms with
  | nil => exact ⟨.nil, by simp [writeMembers]⟩
  | cons head ms =>
    obtain ⟨k, v⟩ := head
    simp only [Json.integralMembers, Json.depthMembers, Bool.and_eq_true, Nat.max_le]
      at integral shallow
    obtain ⟨later, opens⟩ := readMembers_spec layout ms depth integral.2 shallow.2
    have value := readValue_spec layout v depth integral.1 shallow.1
    refine ⟨.cons (readMember_spec (readValue_skips depth) layout k value) later, ?_⟩
    rw [writeMembers, List.forall_mem_cons]
    exact ⟨((writeString_opens k).append _).append _, opens⟩
end

theorem readText_spec (layout : Layout) {v : Json} (portable : v.Portable) :
    readText (writeValue layout v) = some v := by
  have read := readValue_spec layout v Json.maxDepth portable.1 portable.2 [] stops_nil
  rw [List.append_nil] at read
  rw [readText, read]
  rfl

end JsonText
