import CodexProxy.Request.Input
import CodexProxy.Library.Trim

/-! Which texts of a conversation reach the backend. System texts are gathered for the
instructions and the texts of users and assistants become turns; a text occurs in the
input exactly if it occurs in one of these or in the greeting. -/
namespace CodexProxy.Request
open Json

/-- Every visible text of the message occurs in a text of the input. -/
def Reaches (msg : Json) (input : List Json) : Prop :=
  ∀ text ∈ contentTexts msg, Text.trim text ≠ "" →
    ∃ entry ∈ input, ∃ forwarded ∈ contentTexts entry, Text.contains forwarded (shown text) = true

/-- The roles that take part in a conversation. -/
def CONVERSATION_ROLES : List String := ["system", "developer", "user", "assistant"]

/-- No text of the conversation is dropped. -/
def Covers (request : Json) (input : List Json) : Prop :=
  ∀ msg ∈ messagesOf request, ∀ role ∈ CONVERSATION_ROLES, roleOf msg = some role →
    Reaches msg input

variable (env : Environment)

/-- The greeting, the system texts and the texts of the turns. -/
def spokenTexts (request : Json) : List String :=
  env.inversePrompt :: Text.join "\n\n" ((messagesOf request).filterMap systemText) ::
    ((messagesOf request).filter fun msg =>
      roleOf msg = some "user" ∨ roleOf msg = some "assistant").flatMap fun msg =>
        (contentTexts msg).map replaceNames

/-- What developers say is also said by the greeting, the system or a turn. -/
def DevelopersRepeat (request : Json) : Prop :=
  ∀ msg ∈ messagesOf request, roleOf msg = some "developer" →
    ∀ text ∈ contentTexts msg, Text.trim text ≠ "" →
      ∃ spoken ∈ spokenTexts env request, Text.contains spoken (shown text) = true

/-- Every name that is replaced starts and ends with a visible character. -/
theorem names_tight : ∀ name ∈ NAMES_TO_REPLACE, Text.Tight name.toList := by decide

theorem codex_tight : Text.Tight "Codex".toList := by decide

theorem trim_replaceNames (text : String) :
    Text.trim (replaceNames text) = replaceNames (Text.trim text) := by
  have names := names_tight
  unfold replaceNames
  generalize NAMES_TO_REPLACE = all at names
  induction all generalizing text with
  | nil => rfl
  | cons name rest ih =>
    obtain ⟨tight, others⟩ := List.forall_mem_cons.mp names
    rw [List.foldl_cons, List.foldl_cons, ih _ others, Text.trim_replace text tight codex_tight]

theorem replaceNames_tight {text : String} (tight : Text.Tight text.toList) :
    Text.Tight (replaceNames text).toList := by
  unfold replaceNames
  induction NAMES_TO_REPLACE generalizing text with
  | nil => exact tight
  | cons name rest ih => exact ih (Text.replace_tight codex_tight tight)

theorem shown_tight {text : String} (visible : Text.trim text ≠ "") :
    Text.Tight (shown text).toList :=
  replaceNames_tight (Text.trim_tight visible)

/-- A text as it is shown occurs in the text with its names replaced. -/
theorem contains_shown {text : String} (visible : Text.trim text ≠ "") :
    Text.contains (replaceNames text) (shown text) = true := by
  rw [← Text.contains_trim (shown_tight visible), trim_replaceNames, Text.contains_iff]
  exact List.infix_rfl

theorem contains_trimmed {text part : String} (tight : Text.Tight part.toList) :
    Text.contains (replaceNames (Text.trim text)) part = Text.contains (replaceNames text) part := by
  rw [← trim_replaceNames, Text.contains_trim tight]

/-- Nothing visible occurs in the empty text. -/
theorem contains_empty {part : String} (tight : Text.Tight part.toList) :
    Text.contains (replaceNames "") part = false := by
  have empty : replaceNames "" = "" := by decide
  rw [empty, Bool.eq_false_iff, Ne, Text.contains_iff, String.toList_empty, List.infix_nil]
  exact tight.ne_nil

theorem contentTexts_inputMessage (id : Json) (role kind : String) (texts : List String) :
    contentTexts (inputMessage id role kind texts) = texts := by
  have item (text : String) :
      ((buildObject [("type", .string kind), ("text", .string text)]).get? "text").bind
        Json.asString = some text := by
    simp [get?_buildObject, Json.asString]
  have content : (inputMessage id role kind texts).get? "content" =
      some (.array (texts.map fun text =>
        buildObject [("type", .string kind), ("text", .string text)])) := by
    simp [inputMessage, get?_buildObject]
  rw [contentTexts, content]
  simp only [List.filterMap_map, Function.comp_def, item, List.filterMap_some]

theorem texts_textEntries (msg : Json) (role kind : String) :
    (textEntries msg role kind).flatMap contentTexts =
      collectTextSegments (msg.get? "content") true := by
  unfold textEntries
  dsimp only
  split
  · rename_i empty
    rw [empty, List.flatMap_nil]
  · rw [List.flatMap_singleton, contentTexts_inputMessage]

/-- Calls and answers carry no texts. -/
theorem contentTexts_callEntry (tc : Json) : contentTexts (callEntry env tc) = [] := by
  simp [contentTexts, callEntry, get?_buildObject, Members.lookup_cons]

/-- The texts of a message's entries. -/
theorem texts_messageEntries (msg : Json) : (messageEntries env msg).flatMap contentTexts =
    if roleOf msg = some "user" ∨ roleOf msg = some "assistant" then
      collectTextSegments (msg.get? "content") true else [] := by
  unfold messageEntries
  split <;> rename_i role
  · rw [if_pos (.inl (roleOf_eq (by decide) role)), texts_textEntries]
  · rw [if_pos (.inr (roleOf_eq (by decide) role)), List.flatMap_append, texts_textEntries,
      toolCallEntries, List.flatMap_map]
    simp [contentTexts_callEntry]
  · have tool := roleOf_eq (by decide) role
    have other : ¬ (roleOf msg = some "user" ∨ roleOf msg = some "assistant") := by simp [tool]
    rw [if_neg other]
    dsimp only
    split
    · rfl
    · simp [contentTexts, get?_buildObject, Members.lookup_cons]
  · rename_i user assistant
    rw [if_neg, List.flatMap_nil]
    rintro (same | same)
    · exact user (by rw [same]; rfl)
    · exact assistant (by rw [same]; rfl)

theorem extractInstructions_eq (request : Json) : extractInstructions request =
    Text.trim (Text.join "\n\n" ((messagesOf request).filterMap systemText)) := by
  rw [extractInstructions, messagesOf]
  split
  · rename_i none
    rw [none]
    rfl
  · rename_i msgs some
    rw [some, Option.getD_some]

/-- The texts of the input. -/
theorem texts_input (request : Json) :
    (inputOf (buildCodexRequestBody env request)).flatMap contentTexts =
      env.inversePrompt :: extractInstructions request ::
        (messagesOf request).flatMap fun msg => (messageEntries env msg).flatMap contentTexts := by
  rw [inputOf_body, buildCodexInputMessages, List.flatMap_cons, List.flatMap_cons,
    contentTexts_inputMessage, contentTexts_inputMessage, List.flatMap_assoc]
  rfl

theorem itemText_eq_some {item : Json} {text : String} :
    itemText item = some text ↔ (item.get? "text").bind Json.asString = some text ∧ text ≠ "" := by
  rw [itemText, Option.filter_eq_some_iff, decide_eq_true_eq]

/-- A turn's texts, as they are forwarded and as they were sent. -/
theorem occurs_segments {msg : Json} {part : String} (tight : Text.Tight part.toList) :
    (∃ segment ∈ collectTextSegments (msg.get? "content") true,
        Text.contains segment part = true) ↔
      ∃ text ∈ contentTexts msg, Text.contains (replaceNames text) part = true := by
  rw [contentTexts]
  cases content : msg.get? "content" with
  | none => simp [collectTextSegments]
  | some v =>
    cases v with
    | string text =>
      simp only [List.mem_singleton, exists_eq_left]
      rw [← contains_trimmed tight]
      by_cases blank : Text.trim text = ""
      · simp [collectTextSegments, blank, contains_empty tight]
      · simp [collectTextSegments, blank]
    | array items =>
      simp only [collectTextSegments, if_true, List.mem_map, List.mem_filterMap]
      constructor
      · rintro ⟨_, ⟨text, ⟨item, member, found⟩, rfl⟩, occurs⟩
        exact ⟨text, ⟨item, member, (itemText_eq_some.mp found).1⟩, occurs⟩
      · rintro ⟨text, ⟨item, member, found⟩, occurs⟩
        refine ⟨_, ⟨text, ⟨item, member, itemText_eq_some.mpr ⟨found, ?_⟩⟩, rfl⟩, occurs⟩
        rintro rfl
        rw [contains_empty tight] at occurs
        cases occurs
    | _ => simp [collectTextSegments]

/-- The turns of a conversation, one message after the other. -/
theorem occurs_turns (messages : List Json) {part : String} (tight : Text.Tight part.toList) :
    (∃ forwarded ∈ messages.flatMap fun msg => (messageEntries env msg).flatMap contentTexts,
        Text.contains forwarded part = true) ↔
      ∃ spoken ∈ (messages.filter fun msg =>
        roleOf msg = some "user" ∨ roleOf msg = some "assistant").flatMap fun msg =>
          (contentTexts msg).map replaceNames, Text.contains spoken part = true := by
  induction messages with
  | nil => rfl
  | cons msg messages ih =>
    rw [List.flatMap_cons, texts_messageEntries]
    simp only [List.mem_append, or_and_right, exists_or]
    rw [ih]
    by_cases turn : roleOf msg = some "user" ∨ roleOf msg = some "assistant"
    · rw [if_pos turn, occurs_segments tight, List.filter_cons_of_pos (by simpa using turn),
        List.flatMap_cons]
      simp only [List.mem_append, or_and_right, exists_or, List.mem_map, exists_exists_and_eq_and]
    · rw [if_neg turn, List.filter_cons_of_neg (by simpa using turn)]
      simp

/-- Exactly what occurs in a spoken text occurs in the input. -/
theorem occurs_input (request : Json) {part : String} (tight : Text.Tight part.toList) :
    (∃ entry ∈ inputOf (buildCodexRequestBody env request), ∃ forwarded ∈ contentTexts entry,
        Text.contains forwarded part = true) ↔
      ∃ spoken ∈ spokenTexts env request, Text.contains spoken part = true := by
  have flat : (∃ entry ∈ inputOf (buildCodexRequestBody env request),
      ∃ forwarded ∈ contentTexts entry, Text.contains forwarded part = true) ↔
      ∃ forwarded ∈ (inputOf (buildCodexRequestBody env request)).flatMap contentTexts,
        Text.contains forwarded part = true := by
    simp only [List.mem_flatMap]
    grind
  rw [flat, texts_input, spokenTexts, extractInstructions_eq]
  simp only [List.exists_mem_cons_iff, Text.contains_trim tight,
    occurs_turns env (messagesOf request) tight]

/-- A system text is among the joined ones. -/
theorem systemText_contains {msg : Json} {text : String} (system : roleOf msg = some "system")
    (member : text ∈ contentTexts msg) (visible : Text.trim text ≠ "") :
    ∃ s, systemText msg = some s ∧ Text.contains s (shown text) = true := by
  have shows : text ≠ "" := by
    rintro rfl
    exact visible (by decide)
  rw [contentTexts] at member
  rw [systemText, if_neg (not_not.mpr system)]
  cases content : msg.get? "content" with
  | none =>
    rw [content] at member
    cases member
  | some v =>
    rw [content] at member
    cases v with
    | string t =>
      rw [List.mem_singleton.mp member] at visible shows ⊢
      exact ⟨_, if_neg shows, contains_shown visible⟩
    | array items =>
      obtain ⟨item, listed, found⟩ := List.mem_filterMap.mp member
      have segment : replaceNames text ∈ (items.filterMap itemText).map replaceNames :=
        List.mem_map_of_mem
          (List.mem_filterMap.mpr ⟨item, listed, itemText_eq_some.mpr ⟨found, shows⟩⟩)
      exact ⟨_, if_neg (List.ne_nil_of_mem segment),
        Text.contains_join segment (contains_shown visible)⟩
    | _ => cases member

/-- The texts of every role but the developer's are among the spoken ones. -/
theorem spoken_of_role {request msg : Json} (member : msg ∈ messagesOf request) {role : String}
    (role_eq : roleOf msg = some role) (listed : role ∈ CONVERSATION_ROLES)
    (other : role ≠ "developer") {text : String} (said : text ∈ contentTexts msg)
    (visible : Text.trim text ≠ "") :
    ∃ spoken ∈ spokenTexts env request, Text.contains spoken (shown text) = true := by
  have turn (own : roleOf msg = some "user" ∨ roleOf msg = some "assistant") :
      ∃ spoken ∈ spokenTexts env request, Text.contains spoken (shown text) = true := by
    refine ⟨replaceNames text, ?_, contains_shown visible⟩
    refine List.mem_cons_of_mem _ (List.mem_cons_of_mem _ (List.mem_flatMap.mpr ⟨msg, ?_, ?_⟩))
    · exact List.mem_filter.mpr ⟨member, by simpa using own⟩
    · exact List.mem_map_of_mem said
  simp only [CONVERSATION_ROLES, List.mem_cons, List.not_mem_nil, or_false] at listed
  rcases listed with rfl | rfl | rfl | rfl
  · obtain ⟨s, found, occurs⟩ := systemText_contains role_eq said visible
    have joined := List.mem_filterMap.mpr ⟨msg, member, found⟩
    exact ⟨_, List.mem_cons_of_mem _ List.mem_cons_self, Text.contains_join joined occurs⟩
  · exact absurd rfl other
  · exact turn (.inl role_eq)
  · exact turn (.inr role_eq)

/-- Every request: its texts reach the backend, except for what only developers say. -/
theorem covers_iff (request : Json) :
    Covers request (inputOf (buildCodexRequestBody env request)) ↔
      DevelopersRepeat env request := by
  constructor
  · intro covers msg member developer text said visible
    have listed : "developer" ∈ CONVERSATION_ROLES := by decide
    rw [← occurs_input env request (shown_tight visible)]
    exact covers msg member _ listed developer text said visible
  · intro repeated msg member role listed role_eq text said visible
    rw [occurs_input env request (shown_tight visible)]
    by_cases developer : role = "developer"
    · exact repeated msg member (developer ▸ role_eq) text said visible
    · exact spoken_of_role env member role_eq listed developer said visible

/-- A request whose only message is a developer's. -/
def briefRequest : Json :=
  .object [("messages", .array [.object [("role", .string "developer"),
    ("content", .string "Be brief.")]])]

/-- Whatever else the greeting says, the developer's text is lost. -/
theorem developer_dropped : ¬ ∃ env : Environment,
    Text.contains env.inversePrompt "Be brief." = false ∧
      Covers briefRequest (inputOf (buildCodexRequestBody env briefRequest)) := by
  rintro ⟨env, silent, covers⟩
  have message : .object [("role", .string "developer"), ("content", .string "Be brief.")] ∈
      messagesOf briefRequest := List.mem_cons_self
  have visible : Text.trim "Be brief." ≠ "" := by decide
  obtain ⟨entry, listed, forwarded, said, occurs⟩ :=
    covers _ message "developer" (by decide) rfl "Be brief." List.mem_cons_self visible
  obtain ⟨spoken, among, occurs⟩ :=
    (occurs_input env briefRequest (shown_tight visible)).mp ⟨entry, listed, forwarded, said, occurs⟩
  have shown_eq : shown "Be brief." = "Be brief." := by decide
  have texts : spokenTexts env briefRequest = [env.inversePrompt, ""] := by rfl
  rw [texts] at among
  rw [shown_eq] at occurs
  simp only [List.mem_cons, List.not_mem_nil, or_false] at among
  rcases among with rfl | rfl
  · rw [silent] at occurs
    cases occurs
  · exact absurd occurs (by decide)

end CodexProxy.Request
