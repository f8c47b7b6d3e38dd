import CodexProxy.Library.Slices
import CodexProxy.Library.Trim

/-! The token in the authorization header. A scheme that a token already carries is
removed, once, by cutting at a fixed position; the cut fails inside a character, and a
second scheme stays. -/
namespace CodexProxy.Upstream

/-- The same text up to the case of ASCII letters. -/
def eqIgnoreAsciiCase (s t : String) : Bool :=
  Text.toAsciiLowercase s = Text.toAsciiLowercase t

/-- None when a cut panics. -/
def bareToken (token : String) : Option String :=
  let token := Text.trim token
  if 7 ≤ token.utf8ByteSize then
    (Text.sliceTo token 7).bind fun front =>
      if eqIgnoreAsciiCase front "bearer " then (Text.sliceFrom token 7).map Text.trim
      else some token
  else some token

/-- The header of a request to the upstream. -/
def authorization (token : String) : Option String := (bareToken token).map ("Bearer " ++ ·)

/-- The scheme in some letter case. -/
def IsBearer (cs : List Char) : Prop := cs.map Char.toLower = "bearer ".toList

instance (cs : List Char) : Decidable (IsBearer cs) := inferInstanceAs (Decidable (_ = _))

def StartsBearer (s : String) : Prop := ∃ front rest, s.toList = front ++ rest ∧ IsBearer front

/-- A header with the scheme once, in front of the credentials. -/
def OneScheme (token : String) : Prop :=
  ∃ bare, bareToken token = some bare ∧ authorization token = some ("Bearer " ++ bare) ∧
    ¬ StartsBearer bare

/-- A character of the trimmed token lies across the seventh octet. -/
def Straddles (token : String) : Prop :=
  ∃ front c back, (Text.trim token).toList = front ++ c :: back ∧ Text.octets front < 7 ∧
    7 < Text.octets front + c.utf8Size

/-- The token carries the scheme twice, in front of something. -/
def Doubled (token : String) : Prop :=
  ∃ before first between second rest,
    token.toList = before ++ first ++ between ++ second ++ rest ∧ Text.Blank before ∧
      Text.Blank between ∧ IsBearer first ∧ IsBearer second ∧ ¬ Text.Blank rest

theorem utf8Size_toLower (c : Char) : c.toLower.utf8Size = c.utf8Size :=
  Text.toLower_invariant Char.utf8Size (by decide) c

theorem octets_toLower (cs : List Char) : Text.octets (cs.map Char.toLower) = Text.octets cs := by
  induction cs with
  | nil => rfl
  | cons c cs ih => rw [List.map_cons, Text.octets_cons, Text.octets_cons, utf8Size_toLower, ih]

theorem IsBearer.octets (bearer : IsBearer cs) : Text.octets cs = 7 := by
  rw [← octets_toLower, bearer]
  decide

/-- The scheme starts visibly. -/
theorem IsBearer.visible (bearer : IsBearer cs) :
    ∃ c rest, cs = c :: rest ∧ Text.isWhitespace c = false := by
  obtain ⟨c, rest, rfl⟩ : ∃ c rest, cs = c :: rest := by
    cases cs with
    | nil => cases bearer
    | cons c rest => exact ⟨c, rest, rfl⟩
  obtain ⟨lowered, _⟩ := List.cons_eq_cons.mp bearer
  exact ⟨c, rest, rfl, by rw [← Text.isWhitespace_toLower, lowered]; decide⟩

/-- The scheme ends in a space. -/
theorem IsBearer.space (bearer : IsBearer cs) :
    ∃ init c, cs = init ++ [c] ∧ Text.isWhitespace c = true := by
  rcases List.eq_nil_or_concat' cs with rfl | ⟨init, c, rfl⟩
  · cases bearer
  · have lowered : init.map Char.toLower ++ [c.toLower] = "bearer".toList ++ [' '] := by
      rw [← List.map_singleton, ← List.map_append]
      exact bearer
    obtain ⟨_, last⟩ := List.append_inj' lowered rfl
    refine ⟨init, c, rfl, ?_⟩
    rw [← Text.isWhitespace_toLower, (List.cons_eq_cons.mp last).1]
    decide

theorem eqIgnoreAsciiCase_bearer (cs : List Char) :
    eqIgnoreAsciiCase (String.ofList cs) "bearer " = true ↔ IsBearer cs := by
  have literal : Text.toAsciiLowercase "bearer " = "bearer " := by decide
  rw [eqIgnoreAsciiCase, decide_eq_true_eq, literal, IsBearer, ← String.toList_inj,
    Text.toAsciiLowercase, String.toList_ofList, String.toList_ofList]

/-- A scheme with something behind it starts and ends visibly. -/
theorem tight_of_bearer {first rest : List Char} (bearer : IsBearer first)
    (last : rest.getLast?.any (!Text.isWhitespace ·) = true) : Text.Tight (first ++ rest) := by
  obtain ⟨c, more, rfl, visible⟩ := bearer.visible
  exact ⟨by simp [visible], Text.getLast?_append_any _ last⟩

/-- What is left of a text without the whitespace at its end. -/
theorem split_back {cs : List Char} (shows : ¬ Text.Blank cs) : ∃ front back,
    cs = front ++ back ∧ Text.Blank back ∧ front.getLast?.any (!Text.isWhitespace ·) = true := by
  refine ⟨cs.rdropWhile Text.isWhitespace, cs.rtakeWhile Text.isWhitespace,
    (List.rdropWhile_append_rtakeWhile ..).symm, fun c member => List.mem_rtakeWhile_imp member, ?_⟩
  have some : cs.rdropWhile Text.isWhitespace ≠ [] :=
    fun none => shows (List.rdropWhile_eq_nil_iff.mp none)
  rw [List.getLast?_eq_some_getLast some, Option.any_some]
  simpa using List.rdropWhile_last_not Text.isWhitespace cs some

/-- A doubled token shows its second scheme once the first has been cut off. -/
theorem doubled_iff (token : String) : Doubled token ↔ ∃ front back,
    (Text.trim token).toList = front ++ back ∧ IsBearer front ∧
      StartsBearer (Text.trim (String.ofList back)) := by
  constructor
  · rintro ⟨before, first, between, second, rest, split, blank, gap, one, two, shows⟩
    obtain ⟨kept, after, rfl, back, last⟩ := split_back shows
    have inner := tight_of_bearer two last
    have outer := tight_of_bearer one (Text.getLast?_append_any between inner.2)
    have whole : token.toList = before ++ (first ++ (between ++ (second ++ kept))) ++ after := by
      simp only [split, List.append_assoc]
    have part : (String.ofList (between ++ (second ++ kept))).toList =
        between ++ (second ++ kept) ++ [] := by
      rw [String.toList_ofList, List.append_nil]
    exact ⟨first, between ++ (second ++ kept), Text.trim_of_split whole blank back (.inr outer), one,
      second, kept, Text.trim_of_split part gap (fun c member => nomatch member) (.inr inner), two⟩
  · rintro ⟨first, back, trimmed, one, second, kept, shown, two⟩
    obtain ⟨before, after, split, blank, _⟩ := Text.trim_split token
    obtain ⟨between, after', split', gap, _⟩ := Text.trim_split (String.ofList back)
    rw [String.toList_ofList, shown] at split'
    refine ⟨before, first, between, second, kept ++ after' ++ after, ?_, blank, gap, one, two, ?_⟩
    · simp only [split, trimmed, split', List.append_assoc]
    · intro all
      have tight : Text.Tight (second ++ kept) := by
        rw [← shown]
        refine Text.trim_tight fun empty => ?_
        rw [empty, String.toList_empty] at shown
        obtain ⟨c, more, rfl, _⟩ := two.visible
        cases shown
      rcases List.eq_nil_or_concat' kept with rfl | ⟨init, c, rfl⟩
      · obtain ⟨init, c, rfl, space⟩ := two.space
        rw [List.append_nil] at tight
        rw [tight.last] at space
        cases space
      · rw [← List.append_assoc] at tight
        have visible := tight.last
        rw [all c (by simp)] at visible
        cases visible

theorem StartsBearer.octets {s : String} (starts : StartsBearer s) : 7 ≤ Text.octets s.toList := by
  obtain ⟨front, rest, split, bearer⟩ := starts
  rw [split, Text.octets_append, bearer.octets]
  exact Nat.le_add_right 7 _

/-- The scheme is exactly what the cut takes off. -/
theorem IsBearer.cut (bearer : IsBearer front) (back : List Char) :
    Text.cut 7 (front ++ back) = some (front, back) :=
  Text.cut_eq_some.mpr ⟨rfl, bearer.octets⟩

theorem bareToken_short {token : String} (short : ¬ 7 ≤ Text.octets (Text.trim token).toList) :
    bareToken token = some (Text.trim token) := by
  rw [bareToken, Text.utf8ByteSize_eq, if_neg short]

theorem bareToken_uncut {token : String} (long : 7 ≤ Text.octets (Text.trim token).toList)
    (uncut : Text.cut 7 (Text.trim token).toList = none) : bareToken token = none := by
  rw [bareToken, Text.utf8ByteSize_eq, if_pos long, Text.sliceTo, uncut]
  rfl

theorem bareToken_cut {token : String} (long : 7 ≤ Text.octets (Text.trim token).toList)
    (cut : Text.cut 7 (Text.trim token).toList = some (front, back)) :
    bareToken token =
      if IsBearer front then some (Text.trim (String.ofList back)) else some (Text.trim token) := by
  rw [bareToken, Text.utf8ByteSize_eq, if_pos long, Text.sliceTo, cut, Option.map_some,
    Option.bind_some, Text.sliceFrom, cut]
  simp only [eqIgnoreAsciiCase_bearer, Option.map_some]

theorem oneScheme_of_bare {token bare : String} (found : bareToken token = some bare) :
    OneScheme token ↔ ¬ StartsBearer bare := by
  rw [OneScheme, authorization, found]
  constructor
  · rintro ⟨bare', same, _, once⟩
    rwa [Option.some.inj same]
  · exact fun once => ⟨bare, rfl, rfl, once⟩

theorem Doubled.startsBearer {token : String} (doubled : Doubled token) :
    StartsBearer (Text.trim token) := by
  obtain ⟨front, back, split, bearer, _⟩ := (doubled_iff token).mp doubled
  exact ⟨front, back, split, bearer⟩

/-- After a cut only a second scheme is left to send. -/
theorem oneScheme_of_cut {token : String} (long : 7 ≤ Text.octets (Text.trim token).toList)
    (cut : Text.cut 7 (Text.trim token).toList = some (front, back)) :
    OneScheme token ↔ ¬ Doubled token := by
  have found := bareToken_cut long cut
  obtain ⟨split, _⟩ := Text.cut_eq_some.mp cut
  -- Nothing else in front of the token can be the scheme.
  have only {front' back' : List Char} (split' : (Text.trim token).toList = front' ++ back')
      (bearer : IsBearer front') : front = front' ∧ back = back' := by
    rw [split', bearer.cut back'] at cut
    cases cut
    exact ⟨rfl, rfl⟩
  by_cases bearer : IsBearer front
  · rw [if_pos bearer] at found
    rw [oneScheme_of_bare found, doubled_iff, not_iff_not]
    constructor
    · exact fun starts => ⟨front, back, split, bearer, starts⟩
    · rintro ⟨front', back', split', bearer', starts⟩
      rwa [(only split' bearer').2]
  · rw [if_neg bearer] at found
    have other : ¬ StartsBearer (Text.trim token) := by
      rintro ⟨front', back', split', bearer'⟩
      exact bearer ((only split' bearer').1 ▸ bearer')
    rw [oneScheme_of_bare found]
    exact iff_of_true other fun doubled => other doubled.startsBearer

/-- Every token: its header has one scheme exactly if no character lies across the seventh
octet of the trimmed token and the token does not carry the scheme twice itself. -/
theorem oneScheme_iff (token : String) :
    OneScheme token ↔ ¬ Straddles token ∧ ¬ Doubled token := by
  by_cases long : 7 ≤ Text.octets (Text.trim token).toList
  · cases cut : Text.cut 7 (Text.trim token).toList with
    | none =>
      refine iff_of_false ?_ fun both => both.1 ((Text.cut_eq_none long).mp cut)
      rintro ⟨bare, found, _⟩
      rw [bareToken_uncut long cut] at found
      cases found
    | some sides =>
      have whole : ¬ Straddles token := by
        intro straddles
        rw [(Text.cut_eq_none long).mpr straddles] at cut
        cases cut
      rw [and_iff_right whole]
      exact oneScheme_of_cut long cut
  · rw [oneScheme_of_bare (bareToken_short long)]
    refine iff_of_true (fun starts => long starts.octets) ⟨?_, ?_⟩
    · rintro ⟨front, c, back, split, _, ends⟩
      rw [split, Text.octets_append, Text.octets_cons] at long
      omega
    · exact fun doubled => long doubled.startsBearer.octets

/-- A euro sign across the seventh octet is cut, and a second scheme is sent. -/
theorem schemes_kept : ¬ OneScheme "abcdef€" ∧ ¬ OneScheme "Bearer bearer x" := by
  constructor
  · rintro ⟨bare, found, _⟩
    have panics : bareToken "abcdef€" = none := by decide +kernel
    rw [panics] at found
    cases found
  · rintro ⟨bare, found, _, once⟩
    have doubled : bareToken "Bearer bearer x" = some "bearer x" := by decide +kernel
    rw [doubled] at found
    cases found
    exact once ⟨"bearer ".toList, ['x'], by decide, by decide⟩

end CodexProxy.Upstream
