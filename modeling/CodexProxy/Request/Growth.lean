import CodexProxy.Request.Coverage
import CodexProxy.Request.Footprint

/-! A conversation that goes on. The next request carries the messages of the last one and
more. What was forwarded for the last one stays in front under the same cache key, so the
backend can go on from what it has computed for it. -/
namespace CodexProxy.Request
open Json

/-- The same chat request with more messages, none of them with instructions; a user has
said something before. -/
structure ChatGrows (request request' : Json) (more : List Json) : Prop where
  settings : ∀ k ∈ CHAT_MEMBERS, k ≠ "messages" → request'.get? k = request.get? k
  messages : messagesOf request' = messagesOf request ++ more
  quiet : ∀ msg ∈ more, systemText msg = none
  speaks : ∃ msg ∈ messagesOf request, (messageUserText msg).isSome

/-- The same responses request with more input items, none of them a system item; it has a
key of its own, or a user has said something before. -/
structure ResponsesGrows (request request' : Members) (more : List Json) : Prop where
  settings : ∀ k ∈ RESPONSES_MEMBERS, k ≠ "input" → request'.lookup k = request.lookup k
  input : inputItems request' = inputItems request ++ more
  quiet : ∀ item ∈ more, roleOf item ≠ some "system"
  speaks : (∃ own, request.lookup "prompt_cache_key" = some (.string own)) ∨
    ∃ item ∈ inputItems request, (inputUserText item).isSome

/-- Replacing names makes no text blank. -/
theorem replaceNames_visible {text : String} (visible : Text.trim text ≠ "") :
    Text.trim (replaceNames text) ≠ "" := by
  intro blank
  rw [trim_replaceNames] at blank
  exact (shown_tight visible).ne_nil (congrArg String.toList blank)

theorem visibleItemText_eq_some {item : Json} {text : String} :
    visibleItemText item = some text ↔
      (item.get? "text").bind Json.asString = some text ∧ Text.trim text ≠ "" := by
  rw [visibleItemText, Option.filter_eq_some_iff, decide_eq_true_eq]

/-- A visible text is not an empty one. -/
theorem itemText_of_visible {item : Json} {text : String}
    (found : visibleItemText item = some text) : itemText item = some text := by
  obtain ⟨said, visible⟩ := visibleItemText_eq_some.mp found
  refine itemText_eq_some.mpr ⟨said, fun empty => visible ?_⟩
  rw [empty]
  decide

/-- What a user says first is found again in the segments. -/
theorem segments_visible {msg : Json} (speaks : (messageUserText msg).isSome) :
    roleOf msg = some "user" ∧
      ∃ text ∈ collectTextSegments (msg.get? "content") true, Text.trim text ≠ "" := by
  unfold messageUserText at speaks
  split at speaks
  · cases speaks
  · rename_i user
    refine ⟨not_not.mp user, ?_⟩
    cases content : msg.get? "content" with
    | none => simp [content] at speaks
    | some v =>
      rw [content] at speaks
      cases v with
      | string text =>
        have visible : Text.trim text ≠ "" := by
          intro blank
          simp [blank] at speaks
        refine ⟨replaceNames (Text.trim text), by simp [collectTextSegments, visible], ?_⟩
        exact replaceNames_visible (by rwa [Text.trim_trim])
      | array items =>
        obtain ⟨item, member, shows⟩ := List.findSome?_isSome_iff.mp speaks
        obtain ⟨text, found⟩ := Option.isSome_iff_exists.mp shows
        refine ⟨replaceNames text, ?_, replaceNames_visible (visibleItemText_eq_some.mp found).2⟩
        exact List.mem_map_of_mem (List.mem_filterMap.mpr ⟨item, member, itemText_of_visible found⟩)
      | _ => cases speaks

/-- A visible text of a user's message in the input is found. -/
theorem inputMessage_speaks (id : Json) (kind : String) {texts : List String} {text : String}
    (member : text ∈ texts) (visible : Text.trim text ≠ "") :
    (inputUserText (inputMessage id "user" kind texts)).isSome := by
  have role : roleOf (inputMessage id "user" kind texts) = some "user" := by
    simp [roleOf, inputMessage, get?_buildObject, Members.lookup_cons]
  have content : ((inputMessage id "user" kind texts).get? "content").bind Json.asArray =
      some (texts.map fun text => buildObject [("type", .string kind), ("text", .string text)]) := by
    simp [inputMessage, get?_buildObject]
  have item : visibleItemText (buildObject [("type", .string kind), ("text", .string text)]) =
      some text := by
    rw [visibleItemText_eq_some]
    exact ⟨by simp [get?_buildObject], visible⟩
  rw [inputUserText, if_neg (not_not.mpr role), content, Option.getD_some]
  exact List.findSome?_isSome_iff.mpr ⟨_, List.mem_map_of_mem member, by rw [item]; rfl⟩

variable (env : Environment)

/-- Who speaks in a message speaks in one of its entries. -/
theorem messageEntries_speaks {msg : Json} (speaks : (messageUserText msg).isSome) :
    ∃ entry ∈ messageEntries env msg, (inputUserText entry).isSome := by
  obtain ⟨user, text, member, visible⟩ := segments_visible speaks
  have entries : messageEntries env msg = textEntries msg "user" "input_text" := by
    rw [messageEntries, user]
    rfl
  rw [entries, textEntries, if_neg (List.ne_nil_of_mem member)]
  exact ⟨_, List.mem_singleton_self _, inputMessage_speaks _ _ member visible⟩

theorem content_sanitizeMessage {msg : Json} {items : List Json}
    (content : msg.get? "content" = some (.array items)) :
    (sanitizeMessage msg).get? "content" = some (.array (items.map sanitizeItem)) := by
  cases msg with
  | object mm =>
    have found : ((Json.object mm).get? "content").bind Json.asArray = some items := by
      rw [content, Option.bind_some, asArray_array]
    unfold sanitizeMessage
    rw [found]
    exact Members.lookup_insert_self _ _ _
  | _ => cases content

/-- Who speaks in an item speaks in the rewritten one. -/
theorem sanitizeMessage_speaks {msg : Json} (speaks : (inputUserText msg).isSome) :
    (inputUserText (sanitizeMessage msg)).isSome := by
  unfold inputUserText at speaks ⊢
  rw [roleOf_sanitizeMessage]
  split at speaks
  · cases speaks
  · rename_i user
    obtain ⟨item, member, shows⟩ := List.findSome?_isSome_iff.mp speaks
    obtain ⟨text, found⟩ := Option.isSome_iff_exists.mp shows
    obtain ⟨said, visible⟩ := visibleItemText_eq_some.mp found
    cases content : (msg.get? "content").bind Json.asArray with
    | none => simp [content] at member
    | some items =>
      obtain ⟨v, got, array⟩ := Option.bind_eq_some_iff.mp content
      obtain ⟨s, text', string⟩ := Option.bind_eq_some_iff.mp said
      rw [asString_eq_some.mp string] at text'
      cases v with
      | array items' =>
        rw [content, Option.getD_some, ← Option.some.inj array] at member
        have put := (sanitizeItem_spec item).text text text' (itemText_eq_some.mp
          (itemText_of_visible found)).2
        have kept : visibleItemText (sanitizeItem item) = some (replaceNames text) :=
          visibleItemText_eq_some.mpr ⟨by rw [put]; rfl, replaceNames_visible visible⟩
        rw [if_neg user, content_sanitizeMessage got, Option.bind_some, asArray_array,
          Option.getD_some]
        exact List.findSome?_isSome_iff.mpr ⟨_, List.mem_map_of_mem member, by rw [kept]; rfl⟩
      | _ => cases array

/-- Behind somebody who speaks nothing matters. -/
theorem extractFirstUserText_grown {body body' : Json} (more : List Json)
    (grown : inputOf body' = inputOf body ++ more)
    (speaks : ∃ entry ∈ inputOf body, (inputUserText entry).isSome) :
    extractFirstUserText body' = extractFirstUserText body := by
  obtain ⟨text, found⟩ := Option.isSome_iff_exists.mp (List.findSome?_isSome_iff.mpr speaks)
  have found' : (inputOf body').findSome? inputUserText = some text := by
    rw [grown, List.findSome?_append, found, Option.some_or]
  rw [inputOf] at found found'
  rw [extractFirstUserText, extractFirstUserText, found, found', Option.some_or, Option.some_or]

/-- The members of the body before the cache key is set. -/
def chatMembers (request : Json) : Members :=
  let greeting := inputMessage .null "developer" "input_text" [env.inversePrompt]
  let toolChoice := (((request.get? "tool_choice").bind Json.asString).filter (· ≠ "")).getD "auto"
  let parallel := ((request.get? "parallel_tool_calls").bind Json.asBool).getD false
  [("model", .string (normalizeModel (resolveRequestModel request))),
    ("instructions", .string env.codexInstructionsPrefix), ("store", .bool false),
    ("stream", .bool true), ("input", .array (greeting :: buildCodexInputMessages env request)),
    ("tools", mapToolsToCodex request), ("tool_choice", .string toolChoice),
    ("parallel_tool_calls", .bool parallel), ("reasoning", buildReasoningSettings request),
    ("include", includeEncryptedReasoning)].foldl
      (fun body m => Members.insert m.1 m.2 body) ([] : Members)

theorem buildCodexRequestBody_eq (request : Json) : buildCodexRequestBody env request =
    .object (withPromptCacheKey env (normalizeModel (resolveRequestModel request))
      env.codexInstructionsPrefix (chatMembers env request)) := rfl

theorem lookup_chatMembers_input (request : Json) : (chatMembers env request).lookup "input" =
    some (.array (inputMessage .null "developer" "input_text" [env.inversePrompt] ::
      buildCodexInputMessages env request)) := by
  simp [chatMembers, Members.lookup_insert]

section
variable {request request' : Json} {more : List Json} (grows : ChatGrows request request' more)
include grows

theorem ChatGrows.model : resolveRequestModel request' = resolveRequestModel request :=
  resolveRequestModel_congr (grows.settings "model" (by decide) (by decide))

theorem ChatGrows.settings_eq : buildReasoningSettings request' = buildReasoningSettings request := by
  have reasoning := grows.settings "reasoning" (by decide) (by decide)
  rw [buildReasoningSettings, buildReasoningSettings, grows.model,
    resolveReasoningEffort_congr (grows.settings "model" (by decide) (by decide))
      (grows.settings "reasoning_effort" (by decide) (by decide)) reasoning,
    resolveReasoningSummary_congr request request' reasoning]

/-- Quiet messages add nothing to the instructions. -/
theorem ChatGrows.input : buildCodexInputMessages env request' =
    buildCodexInputMessages env request ++ more.flatMap (messageEntries env) := by
  have silent : more.filterMap systemText = [] := List.filterMap_eq_nil_iff.mpr grows.quiet
  have instructions : extractInstructions request' = extractInstructions request := by
    rw [extractInstructions_eq, extractInstructions_eq, grows.messages, List.filterMap_append,
      silent, List.append_nil]
  have turns : (messagesOf request').flatMap (messageEntries env) =
      (messagesOf request).flatMap (messageEntries env) ++ more.flatMap (messageEntries env) := by
    rw [grows.messages, List.flatMap_append]
  unfold buildCodexInputMessages
  rw [instructions, List.cons_append]
  exact congrArg _ turns

/-- The members other than the input. -/
theorem ChatGrows.members {k : String} (other : k ≠ "input") :
    (chatMembers env request').lookup k = (chatMembers env request).lookup k := by
  have tools : mapToolsToCodex request' = mapToolsToCodex request := by
    rw [mapToolsToCodex, mapToolsToCodex, grows.settings "tools" (by decide) (by decide)]
  simp only [chatMembers, List.foldl_cons, List.foldl_nil, Members.lookup_insert, if_neg other,
    grows.model, grows.settings_eq, tools, grows.settings "tool_choice" (by decide) (by decide),
    grows.settings "parallel_tool_calls" (by decide) (by decide)]

/-- The input stays in front, and nothing else changes. -/
theorem ChatGrows.body :
    inputOf (buildCodexRequestBody env request') =
      inputOf (buildCodexRequestBody env request) ++ more.flatMap (messageEntries env) ∧
    ∀ k, k ≠ "input" →
      (buildCodexRequestBody env request').get? k = (buildCodexRequestBody env request).get? k := by
  constructor
  · rw [inputOf_body, inputOf_body, grows.input, List.cons_append]
  · intro k other
    rw [buildCodexRequestBody_eq, buildCodexRequestBody_eq, get?_object, get?_object, grows.model]
    by_cases key : k = "prompt_cache_key"
    · subst key
      refine lookup_withPromptCacheKey_congr env (grows.members env other) fun _ => ?_
      have grown : inputOf (.object (chatMembers env request')) =
          inputOf (.object (chatMembers env request)) ++ more.flatMap (messageEntries env) := by
        rw [inputOf, inputOf, get?_object, get?_object, lookup_chatMembers_input,
          lookup_chatMembers_input, grows.input]
        rfl
      refine extractFirstUserText_grown _ grown ?_
      obtain ⟨msg, member, speaks⟩ := grows.speaks
      obtain ⟨entry, among, shows⟩ := messageEntries_speaks env speaks
      refine ⟨entry, ?_, shows⟩
      rw [inputOf, get?_object, lookup_chatMembers_input]
      have turn := List.mem_flatMap_of_mem member among
      exact List.mem_cons_of_mem _ (List.mem_cons_of_mem _ turn)
    · rw [lookup_withPromptCacheKey env _ _ _ key, lookup_withPromptCacheKey env _ _ _ key,
        grows.members env other]

end

section
variable {request request' : Members} {more : List Json}

theorem inputOf_inputValue {body : Json} {items : List Json}
    (input : body.get? "input" = some (inputValue items)) : inputOf body = items := by
  rw [inputOf, input, inputValue]
  split
  · rename_i none
    exact none.symm
  · rfl

theorem inputOf_configured (request : Members) (requestedModel requestedEffort : String) :
    inputOf (.object (configuredMembers request requestedModel requestedEffort)) =
      forwardedItems request := by
  refine inputOf_inputValue ?_
  rw [get?_object, lookup_configured _ _ _ (by decide), lookup_split_input]

/-- Who speaks is a user, and no system item. -/
theorem speaker_kept {item : Json} (speaks : (inputUserText item).isSome) :
    (!isSystem item) = true := by
  rw [isSystem_eq, decide_eq_true_eq]
  intro system
  rw [inputUserText, system] at speaks
  cases speaks

variable (grows : ResponsesGrows request request' more)
include grows

/-- Without another system item the instructions stay. -/
theorem ResponsesGrows.system :
    systemTextOf (inputItems request') = systemTextOf (inputItems request) := by
  have none : more.filter isSystem = [] := by
    refine List.filter_eq_nil_iff.mpr fun item member => ?_
    simpa [isSystem] using grows.quiet item member
  rw [systemTextOf, systemTextOf, grows.input, List.filter_append, none, List.append_nil]

theorem ResponsesGrows.caller : callerInstructions request' = callerInstructions request := by
  rw [callerInstructions, callerInstructions, grows.settings "instructions" (by decide) (by decide)]

/-- The new items are forwarded behind the others. -/
theorem ResponsesGrows.items :
    forwardedItems request' = forwardedItems request ++ more.map sanitizeMessage := by
  have kept : more.filter (!isSystem ·) = more := by
    refine List.filter_eq_self.mpr fun item member => ?_
    rw [isSystem_eq, decide_eq_true_eq]
    exact grows.quiet item member
  unfold forwardedItems
  rw [grows.caller, grows.system, grows.input, List.filter_append, kept, List.map_append,
    List.append_assoc]

/-- The input stays in front, and nothing else changes. -/
theorem ResponsesGrows.body :
    inputOf (responsesTarget env (.object request')) =
      inputOf (responsesTarget env (.object request)) ++ more.map sanitizeMessage ∧
    ∀ k, k ≠ "input" → (responsesTarget env (.object request')).get? k =
      (responsesTarget env (.object request)).get? k := by
  have read (k : String) (listed : k ∈ RESPONSES_MEMBERS) (other : k ≠ "input") :
      (Json.object request').get? k = (Json.object request).get? k := grows.settings k listed other
  have model := resolveRequestModel_congr (read "model" (by decide) (by decide))
  have effort := resolveReasoningEffort_congr (read "model" (by decide) (by decide))
    (read "reasoning_effort" (by decide) (by decide)) (read "reasoning" (by decide) (by decide))
  rw [responsesTarget_object, responsesTarget_object, model, effort]
  constructor
  · rw [inputOf_inputValue (get?_forwardedBody_input ..), inputOf_inputValue
      (get?_forwardedBody_input ..), grows.items]
  · intro k other
    refine get?_forwardedBody_congr env other grows.caller grows.system (fun missing => ?_)
      fun accepted free => ?_
    · obtain ⟨item, member, speaks⟩ := grows.speaks.resolve_left (not_exists.mpr missing)
      refine extractFirstUserText_grown (more.map sanitizeMessage) ?_
        ⟨sanitizeMessage item, ?_, sanitizeMessage_speaks speaks⟩
      · rw [inputOf_configured, inputOf_configured, grows.items]
      · rw [inputOf_configured]
        refine List.mem_append_right _ (List.mem_map_of_mem (List.mem_filter.mpr ⟨member, ?_⟩))
        exact speaker_kept speaks
    · have table : ∀ k ∈ CODEX_RESPONSES_KEYS, k ∉ ["store", "stream", "include", "instructions"] →
        k ∈ RESPONSES_MEMBERS := by decide
      exact grows.settings k (table k accepted free) other

end

/-- Every conversation, whatever it goes on with: at both endpoints the input that was
forwarded is a prefix of the next one, which has the entries of the new messages behind it,
and every other member, the cache key among them, is the same. -/
theorem conversation_grows :
    (∀ request request' more, ChatGrows request request' more →
      inputOf (buildCodexRequestBody env request') =
        inputOf (buildCodexRequestBody env request) ++ more.flatMap (messageEntries env) ∧
      ∀ k, k ≠ "input" → (buildCodexRequestBody env request').get? k =
        (buildCodexRequestBody env request).get? k) ∧
    ∀ request request' more, ResponsesGrows request request' more →
      inputOf (responsesTarget env (.object request')) =
        inputOf (responsesTarget env (.object request)) ++ more.map sanitizeMessage ∧
      ∀ k, k ≠ "input" → (responsesTarget env (.object request')).get? k =
        (responsesTarget env (.object request)).get? k :=
  ⟨fun _ _ _ grows => grows.body env, fun _ _ _ grows => grows.body env⟩

namespace Sample

/-- A question and the answer to it, as messages and as input items. -/
def question : Json := buildObject [("role", .string "user"), ("content", .string "Why?")]
def answer : Json := buildObject [("role", .string "assistant"), ("content", .string "Because.")]
def questionItem : Json := buildObject [("role", .string "user"),
  ("content", .array [buildObject [("type", .string "input_text"), ("text", .string "Why?")]])]
def answerItem : Json := buildObject [("role", .string "assistant"),
  ("content", .array [buildObject [("type", .string "output_text"), ("text", .string "Because.")]])]

def chat (messages : List Json) : Json := .object [("messages", .array messages)]
def responses (items : List Json) : Members := [("input", .array items)]

theorem chat_goes_on : ChatGrows (chat [question]) (chat [question, answer]) [answer] := by
  refine ⟨?_, rfl, ?_, question, List.mem_singleton_self _, by decide⟩
  · simp [CHAT_MEMBERS, chat, Members.lookup_cons]
  · simp only [List.mem_singleton, forall_eq]
    decide

theorem responses_go_on :
    ResponsesGrows (responses [questionItem]) (responses [questionItem, answerItem]) [answerItem] := by
  refine ⟨?_, rfl, ?_, .inr ⟨questionItem, List.mem_singleton_self _, by decide⟩⟩
  · simp [RESPONSES_MEMBERS, responses, Members.lookup_cons]
  · simp only [List.mem_singleton, forall_eq]
    decide

end Sample

/-- An answer goes behind the question it is an answer to. -/
theorem conversation_grows_answered :
    inputOf (buildCodexRequestBody Sample.plain (Sample.chat [Sample.question, Sample.answer])) =
      inputOf (buildCodexRequestBody Sample.plain (Sample.chat [Sample.question])) ++
        [Sample.answer].flatMap (messageEntries Sample.plain) ∧
    inputOf (responsesTarget Sample.plain
        (.object (Sample.responses [Sample.questionItem, Sample.answerItem]))) =
      inputOf (responsesTarget Sample.plain (.object (Sample.responses [Sample.questionItem]))) ++
        [Sample.answerItem].map sanitizeMessage :=
  have grows := conversation_grows Sample.plain
  ⟨(grows.1 _ _ _ Sample.chat_goes_on).1, (grows.2 _ _ _ Sample.responses_go_on).1⟩

end CodexProxy.Request
