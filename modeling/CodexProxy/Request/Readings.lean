import CodexProxy.Request.Responses

/-! What a request says, read off its JSON: the texts of its messages and items, and what
systems and users say in them. The functions that rewrite requests are not used for it,
and are shown to read the same. -/
namespace CodexProxy.Request
open Json

/-- The messages of a chat request. -/
def messagesOf (request : Json) : List Json := ((request.get? "messages").bind Json.asArray).getD []

/-- The input that a body forwards. -/
def inputOf (body : Json) : List Json := ((body.get? "input").bind Json.asArray).getD []

/-- A message or an item of one role. -/
def isOf (role : String) (msg : Json) : Bool := (msg.get? "role").bind Json.asString = some role

/-- The texts of a message: its content, or the texts of its content's items. -/
def contentTexts (msg : Json) : List String :=
  match msg.get? "content" with
  | some (.string text) => [text]
  | some (.array items) => items.filterMap fun item => (item.get? "text").bind Json.asString
  | _ => []

/-- The texts that are not empty. -/
def textsOf (msg : Json) : List String := (contentTexts msg).filter (· ≠ "")

/-- A text as the backend is to see it. -/
def shown (text : String) : String := replaceNames (Text.trim text)

/-- What the system messages say: each has its texts on lines of their own, with the names
replaced, and an empty line stands between two messages. -/
def systemSaid (request : Json) : String :=
  let spoken := (((messagesOf request).filter (isOf "system")).map textsOf).filter (· ≠ [])
  Text.trim (Text.join "\n\n" (spoken.map fun texts => Text.join "\n" (texts.map replaceNames)))

/-- What users say first in the messages: the first text that is not blank. -/
def userSaid (messages : List Json) : Option String :=
  (((messages.filter (isOf "user")).flatMap contentTexts).find? (Text.trim · ≠ "")).map shown

/-- The text of the last system item, of an array content with some text in it. -/
def LastSystem (items : List Json) (text : String) : Prop :=
  ∃ before item after contents, items = before ++ item :: after ∧ isOf "system" item = true ∧
    (∀ later ∈ after, isOf "system" later = false) ∧ item.get? "content" = some (.array contents) ∧
    textsOf item ≠ [] ∧ text = Text.join "\n\n" (textsOf item)

theorem isOf_iff {role : String} {msg : Json} : isOf role msg = true ↔ roleOf msg = some role := by
  rw [isOf, decide_eq_true_eq, roleOf]

theorem isSystem_eq_isOf (msg : Json) : isSystem msg = isOf "system" msg := rfl

theorem filterMap_itemText (items : List Json) : items.filterMap itemText =
    (items.filterMap fun item => (item.get? "text").bind Json.asString).filter (· ≠ "") := by
  rw [List.filter_filterMap]
  rfl

/-- The instructions in one message. -/
theorem systemText_eq (msg : Json) : systemText msg =
    if isOf "system" msg ∧ textsOf msg ≠ [] then
      some (Text.join "\n" ((textsOf msg).map replaceNames)) else none := by
  rw [systemText, textsOf, contentTexts]
  by_cases system : isOf "system" msg
  · rw [if_neg (not_not.mpr (isOf_iff.mp system))]
    cases content : msg.get? "content" with
    | none => simp
    | some v =>
      cases v with
      | string text =>
        by_cases empty : text = ""
        · simp [empty]
        · simp [empty, system, Text.join]
      | array items =>
        simp only [← filterMap_itemText, List.map_eq_nil_iff]
        by_cases none : items.filterMap itemText = [] <;> simp [none, system]
      | _ => simp
  · rw [if_pos (fun role => system (isOf_iff.mpr role)), if_neg fun both => system both.1]

theorem extractInstructions_said (request : Json) :
    extractInstructions request = systemSaid request := by
  have spoken (messages : List Json) : messages.filterMap systemText =
      (((messages.filter (isOf "system")).map textsOf).filter (· ≠ [])).map
        (fun texts => Text.join "\n" (texts.map replaceNames)) := by
    induction messages with
    | nil => rfl
    | cons msg messages ih =>
      rw [List.filterMap_cons, systemText_eq, ih, List.filter_cons]
      by_cases system : isOf "system" msg
      · by_cases silent : textsOf msg = [] <;> simp [system, silent]
      · simp [system]
  rw [extractInstructions, systemSaid, messagesOf]
  cases (request.get? "messages").bind Json.asArray with
  | none => decide
  | some messages =>
    rw [Option.getD_some, ← spoken]

/-- A message says nothing as a system. -/
theorem systemText_quiet {msg : Json} (quiet : isOf "system" msg = true → textsOf msg = []) :
    systemText msg = none := by
  rw [systemText_eq, if_neg fun both => both.2 (quiet both.1)]

theorem messageUserText_eq (msg : Json) : messageUserText msg =
    if isOf "user" msg then (contentTexts msg).find? (Text.trim · ≠ "") else none := by
  rw [messageUserText, contentTexts]
  by_cases user : isOf "user" msg
  · rw [if_neg (not_not.mpr (isOf_iff.mp user)), if_pos user]
    cases content : msg.get? "content" with
    | none => rfl
    | some v =>
      cases v with
      | string text => by_cases blank : Text.trim text = "" <;> simp [blank]
      | array items =>
        dsimp only
        rw [← List.head?_filter, List.filter_filterMap, List.head?_filterMap]
        rfl
      | _ => rfl
  · rw [if_pos (fun role => user (isOf_iff.mpr role)), if_neg user]

/-- The first user who says something. -/
theorem findSome?_messageUserText (messages : List Json) : messages.findSome? messageUserText =
    ((messages.filter (isOf "user")).flatMap contentTexts).find? (Text.trim · ≠ "") := by
  induction messages with
  | nil => rfl
  | cons msg messages ih =>
    rw [List.findSome?_cons, messageUserText_eq, ih]
    cases user : isOf "user" msg with
    | true =>
      rw [if_pos rfl, List.filter_cons_of_pos user, List.flatMap_cons, List.find?_append]
      cases (contentTexts msg).find? (Text.trim · ≠ "") <;> rfl
    | false => rw [if_neg Bool.false_ne_true, List.filter_cons_of_neg (by simp [user])]

theorem userSaid_eq (messages : List Json) :
    userSaid messages = (messages.findSome? messageUserText).map shown := by
  rw [userSaid, findSome?_messageUserText]

/-- A text that is not empty shows in what it is joined with. -/
theorem join_ne_empty {separator : String} {texts : List String} (some : texts ≠ [])
    (shows : ∀ text ∈ texts, text ≠ "") : Text.join separator texts ≠ "" := by
  obtain ⟨first, rest, rfl⟩ := List.exists_cons_of_ne_nil some
  have first_shows := shows first List.mem_cons_self
  cases rest with
  | nil => simpa [Text.join] using first_shows
  | cons second rest =>
    rw [Text.join, String.intercalate_cons_cons]
    simp [first_shows]

theorem textsOf_shows {msg : Json} : ∀ text ∈ textsOf msg, text ≠ "" := by
  intro text member
  simpa using (List.mem_filter.mp member).2

/-- The text of a system item. -/
theorem systemItemText_array {item : Json} {contents : List Json}
    (content : item.get? "content" = some (.array contents)) :
    systemItemText item = Text.join "\n\n" (textsOf item) := by
  rw [systemItemText, content, textsOf, contentTexts, content, ← filterMap_itemText]
  rfl

/-- The text of the last system item, with no system item behind it. -/
theorem systemTextOf_last {before after : List Json} {item : Json} (system : isOf "system" item = true)
    (later : ∀ other ∈ after, isOf "system" other = false) :
    systemTextOf (before ++ item :: after) = systemItemText item := by
  have quiet : after.filter isSystem = [] :=
    List.filter_eq_nil_iff.mpr fun other member => by
      rw [isSystem_eq_isOf, later other member]
      exact Bool.false_ne_true
  rw [systemTextOf, List.filter_append, List.filter_cons_of_pos (by exact system), quiet,
    List.getLast?_concat]
  rfl

/-- Where there is a system item there is a last one. -/
theorem last_system {items : List Json} (some : items.filter isSystem ≠ []) :
    ∃ before item after, items = before ++ item :: after ∧ isOf "system" item = true ∧
      ∀ later ∈ after, isOf "system" later = false := by
  induction items using List.reverseRecOn with
  | nil => exact absurd rfl some
  | append_singleton items item ih =>
    cases system : isOf "system" item with
    | true => exact ⟨items, item, [], rfl, system, by simp⟩
    | false =>
      rw [List.filter_append, List.filter_cons_of_neg (by simp [isSystem_eq_isOf, system]),
        List.filter_nil, List.append_nil] at some
      obtain ⟨before, last, after, rfl, own, later⟩ := ih some
      refine ⟨before, last, after ++ [item], by simp, own, ?_⟩
      rintro other member
      rcases List.mem_append.mp member with earlier | final
      · exact later other earlier
      · rwa [List.mem_singleton.mp final]

/-- The last system item with a text is the one that is read. -/
theorem systemTextOf_said (items : List Json) :
    (∀ text, LastSystem items text → systemTextOf items = text ∧ text ≠ "") ∧
    (systemTextOf items ≠ "" → LastSystem items (systemTextOf items)) := by
  constructor
  · rintro text ⟨before, item, after, contents, rfl, system, later, content, some, rfl⟩
    rw [systemTextOf_last system later, systemItemText_array content]
    exact ⟨rfl, join_ne_empty some textsOf_shows⟩
  · intro shows
    have some : items.filter isSystem ≠ [] := by
      intro none
      rw [systemTextOf, none] at shows
      exact shows rfl
    obtain ⟨before, item, after, rfl, system, later⟩ := last_system some
    rw [systemTextOf_last system later] at shows ⊢
    cases content : item.get? "content" with
    | none =>
      rw [systemItemText, content] at shows
      exact absurd rfl shows
    | some v =>
      cases v with
      | array contents =>
        rw [systemItemText_array content] at shows ⊢
        refine ⟨before, item, after, contents, rfl, system, later, content, ?_, rfl⟩
        intro none
        rw [none] at shows
        exact shows rfl
      | _ =>
        rw [systemItemText, content] at shows
        exact absurd rfl shows

end CodexProxy.Request
