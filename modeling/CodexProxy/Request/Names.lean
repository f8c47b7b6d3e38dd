import CodexProxy.Request.Coverage
import CodexProxy.Library.Replace

/-! Which names reach the backend. No name overlaps the text that it is replaced by, so
the passes leave none of them, in whatever order; neither the line breaks between the
segments of a system text nor the trimming brings one back. -/
namespace CodexProxy.Request
open Json

theorem names_apart : ∀ name ∈ NAMES_TO_REPLACE, Text.Apart name.toList "Codex".toList := by
  decide

/-- No name has a line break in it. -/
theorem names_one_line : ∀ name ∈ NAMES_TO_REPLACE, '\n' ∉ name.toList := by decide

theorem replaceNames_freeOf (s : String) : Text.FreeOf (replaceNames s) NAMES_TO_REPLACE := by
  have none : Text.FreeOf s [] := fun name member => absurd member List.not_mem_nil
  exact @Text.replaceAll_freeOf "Codex" NAMES_TO_REPLACE [] s names_apart none

theorem replaceNames_of_freeOf {s : String} (free : Text.FreeOf s NAMES_TO_REPLACE) :
    replaceNames s = s :=
  Text.replaceAll_of_freeOf free

/-- Joining with line breaks keeps the names out. -/
theorem freeOf_join {separator : String} (shows : separator.toList ≠ [])
    (breaks : ∀ c ∈ separator.toList, c = '\n') {parts : List String}
    (free : ∀ s ∈ parts, Text.FreeOf s NAMES_TO_REPLACE) :
    Text.FreeOf (Text.join separator parts) NAMES_TO_REPLACE := by
  intro name member
  have disjoint : ∀ c ∈ name.toList, c ∉ separator.toList :=
    fun c inName inSeparator => names_one_line name member (breaks c inSeparator ▸ inName)
  exact Text.join_absent shows (names_tight name member).ne_nil disjoint
    fun s listed => free s listed name member

theorem freeOf_trim {s : String} (free : Text.FreeOf s NAMES_TO_REPLACE) :
    Text.FreeOf (Text.trim s) NAMES_TO_REPLACE := by
  intro name member
  rw [Text.contains_trim (names_tight name member)]
  exact free name member

/-- A message's instructions are joined texts with the names replaced. -/
theorem systemText_segments {msg : Json} (found : systemText msg = some s) :
    ∃ texts : List String, s = Text.join "\n" (texts.map replaceNames) := by
  rw [systemText] at found
  split at found
  · cases found
  · cases content : msg.get? "content" with
    | none =>
      rw [content] at found
      cases found
    | some v =>
      rw [content] at found
      cases v with
      | string text =>
        obtain ⟨_, same⟩ := Option.ite_none_left_eq_some.mp found
        rw [← Option.some.inj same]
        exact ⟨[text], String.intercalate_singleton.symm⟩
      | array items =>
        obtain ⟨_, same⟩ := Option.ite_none_left_eq_some.mp found
        exact ⟨_, (Option.some.inj same).symm⟩
      | _ => cases found

theorem freeOf_systemText {msg : Json} (found : systemText msg = some s) :
    Text.FreeOf s NAMES_TO_REPLACE := by
  obtain ⟨texts, rfl⟩ := systemText_segments found
  refine freeOf_join (by decide) (by simp) fun segment listed => ?_
  obtain ⟨text, _, rfl⟩ := List.mem_map.mp listed
  exact replaceNames_freeOf text

theorem freeOf_extractInstructions (request : Json) :
    Text.FreeOf (extractInstructions request) NAMES_TO_REPLACE := by
  rw [extractInstructions_eq]
  refine freeOf_trim (freeOf_join (by decide) (by simp) fun s listed => ?_)
  obtain ⟨msg, _, found⟩ := List.mem_filterMap.mp listed
  exact freeOf_systemText found

theorem freeOf_segments {content : Option Json} (member : s ∈ collectTextSegments content true) :
    Text.FreeOf s NAMES_TO_REPLACE := by
  unfold collectTextSegments at member
  dsimp only at member
  split at member
  · split at member
    · cases member
    · rw [List.mem_singleton.mp member]
      exact replaceNames_freeOf _
  · obtain ⟨text, _, rfl⟩ := List.mem_map.mp member
    exact replaceNames_freeOf _
  · cases member

variable (env : Environment)

/-- The texts of what follows the greeting. -/
theorem texts_inputMessages (request : Json) :
    (buildCodexInputMessages env request).flatMap contentTexts =
      extractInstructions request ::
        (messagesOf request).flatMap fun msg => (messageEntries env msg).flatMap contentTexts := by
  rw [buildCodexInputMessages, List.flatMap_cons, contentTexts_inputMessage, List.flatMap_assoc]
  rfl

theorem freeOf_inputMessages {request entry : Json}
    (member : entry ∈ buildCodexInputMessages env request) (said : s ∈ contentTexts entry) :
    Text.FreeOf s NAMES_TO_REPLACE := by
  have among := List.mem_flatMap_of_mem member said
  rw [texts_inputMessages, List.mem_cons, List.mem_flatMap] at among
  rcases among with rfl | ⟨msg, _, turn⟩
  · exact freeOf_extractInstructions request
  · rw [texts_messageEntries] at turn
    split at turn
    · exact freeOf_segments turn
    · cases turn

/-- Every text: replacing leaves none of the names and is done after one time. Every chat
request: only the greeting, which is not the request's, may name another agent. -/
theorem names_replaced :
    (∀ s, Text.FreeOf (replaceNames s) NAMES_TO_REPLACE ∧
      replaceNames (replaceNames s) = replaceNames s) ∧
    ∀ request, ∃ conversation,
      inputOf (buildCodexRequestBody env request) =
        inputMessage .null "developer" "input_text" [env.inversePrompt] :: conversation ∧
      ∀ entry ∈ conversation, ∀ text ∈ contentTexts entry, Text.FreeOf text NAMES_TO_REPLACE := by
  constructor
  · intro s
    have free := replaceNames_freeOf s
    exact ⟨free, replaceNames_of_freeOf free⟩
  · intro request
    refine ⟨buildCodexInputMessages env request, inputOf_body env request, ?_⟩
    intro entry member text said
    exact freeOf_inputMessages env member said

end CodexProxy.Request
