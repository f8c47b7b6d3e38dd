import CodexProxy.Library.ReferenceCodec
import CodexProxy.Request.Endpoints
import CodexProxy.Request.Rewritten

/-! What is forwarded depends on a few members of a request. The chat body is built from
them; the responses body is what is left of the request, so there the members that are
dropped in the end must not have been read on the way. -/
namespace CodexProxy.Request
open Json

/-- The members that the chat endpoint reads. -/
def CHAT_MEMBERS : List String :=
  ["model", "messages", "tools", "tool_choice", "parallel_tool_calls", "reasoning",
    "reasoning_effort"]

/-- The members that the responses endpoint reads. -/
def RESPONSES_MEMBERS : List String :=
  ["model", "instructions", "input", "tools", "tool_choice", "parallel_tool_calls", "reasoning",
    "reasoning_effort", "prompt_cache_key", "messages"]

/-- Two requests with the same value at each of these members. -/
def Alike (keys : List String) (request request' : Json) : Prop :=
  ∀ k ∈ keys, request'.get? k = request.get? k

section
variable {request request' : Json}

theorem resolveRequestModel_congr (model : request'.get? "model" = request.get? "model") :
    resolveRequestModel request' = resolveRequestModel request := by
  rw [resolveRequestModel, resolveRequestModel, model]

theorem resolveReasoningEffort_congr (model : request'.get? "model" = request.get? "model")
    (effort : request'.get? "reasoning_effort" = request.get? "reasoning_effort")
    (reasoning : request'.get? "reasoning" = request.get? "reasoning") :
    resolveReasoningEffort request' = resolveReasoningEffort request := by
  rw [resolveReasoningEffort.eq_def, resolveReasoningEffort.eq_def, model, effort, reasoning]

theorem extractFirstUserText_congr (input : request'.get? "input" = request.get? "input")
    (messages : request'.get? "messages" = request.get? "messages") :
    extractFirstUserText request' = extractFirstUserText request := by
  rw [extractFirstUserText, extractFirstUserText, input, messages]

end

variable (env : Environment)

/-- The key that is set is the body's own, else it depends on the first user text. -/
theorem lookup_withPromptCacheKey_congr {model instructions : String} {body body' : Members}
    (key : body'.lookup "prompt_cache_key" = body.lookup "prompt_cache_key")
    (first : (∀ own, body.lookup "prompt_cache_key" ≠ some (.string own)) →
      extractFirstUserText (.object body') = extractFirstUserText (.object body)) :
    (withPromptCacheKey env model instructions body').lookup "prompt_cache_key" =
      (withPromptCacheKey env model instructions body).lookup "prompt_cache_key" := by
  by_cases own : ∃ text, body.lookup "prompt_cache_key" = some (.string text)
  · obtain ⟨text, own⟩ := own
    rw [withPromptCacheKey_own env _ _ own, withPromptCacheKey_own env _ _ (key.trans own), key]
  · unfold withPromptCacheKey
    rw [key, first (not_exists.mp own)]
    split
    · exact key
    · dsimp only
      split
      · exact key
      · rw [Members.lookup_insert_self, Members.lookup_insert_self]

/-- The chat body is made of what is read. -/
theorem chat_congr {request request' : Json} (same : Alike CHAT_MEMBERS request request') :
    buildCodexRequestBody env request' = buildCodexRequestBody env request := by
  have model := resolveRequestModel_congr (same "model" (by decide))
  have effort := resolveReasoningEffort_congr (same "model" (by decide))
    (same "reasoning_effort" (by decide)) (same "reasoning" (by decide))
  have summary := resolveReasoningSummary_congr request request' (same "reasoning" (by decide))
  have settings : buildReasoningSettings request' = buildReasoningSettings request := by
    rw [buildReasoningSettings, buildReasoningSettings, model, effort, summary]
  have input : buildCodexInputMessages env request' = buildCodexInputMessages env request := by
    rw [buildCodexInputMessages, buildCodexInputMessages, extractInstructions.eq_def,
      extractInstructions.eq_def, same "messages" (by decide)]
  have tools : mapToolsToCodex request' = mapToolsToCodex request := by
    rw [mapToolsToCodex.eq_def, mapToolsToCodex.eq_def, same "tools" (by decide)]
  rw [buildCodexRequestBody, buildCodexRequestBody, model, settings, input, tools,
    same "tool_choice" (by decide), same "parallel_tool_calls" (by decide)]

section
variable {request request' : Members} {requestedModel requestedEffort : String}

theorem lookup_insertMissing_self (k : String) (v : Json) (ms : Members) :
    (insertMissing k v ms).lookup k = some ((ms.lookup k).getD v) := by
  unfold insertMissing
  cases found : ms.lookup k with
  | some w => simpa using found
  | none => simp

/-- The members other than the input, once the instructions and the input are rewritten. -/
theorem lookup_split_congr {k : String} (input : k ≠ "input")
    (caller : callerInstructions request' = callerInstructions request)
    (system : systemTextOf (inputItems request') = systemTextOf (inputItems request))
    (same : k ∉ ["store", "stream", "instructions"] → request'.lookup k = request.lookup k) :
    (splitMembers request' requestedModel).lookup k =
      (splitMembers request requestedModel).lookup k := by
  by_cases instructions : k = "instructions"
  · subst instructions
    rw [splitMembers, splitMembers, lookup_sanitizeResponsesInput _ input,
      lookup_sanitizeResponsesInput _ input, Members.lookup_insert_ne input,
      Members.lookup_insert_ne input, Members.lookup_insert_self, Members.lookup_insert_self,
      forwardedInstructions, forwardedInstructions, caller, system]
  · rw [lookup_split_other _ _ input instructions, lookup_split_other _ _ input instructions]
    simp only [forcedMembers, Members.lookup_insert]
    split
    · rfl
    · split
      · rfl
      · rw [same (by simp [*])]

/-- The members other than the input, before the cache key is set. -/
theorem lookup_configured_congr {k : String} (input : k ≠ "input")
    (caller : callerInstructions request' = callerInstructions request)
    (system : systemTextOf (inputItems request') = systemTextOf (inputItems request))
    (same : k ∉ ["store", "stream", "include", "instructions"] →
      request'.lookup k = request.lookup k) :
    (configuredMembers request' requestedModel requestedEffort).lookup k =
      (configuredMembers request requestedModel requestedEffort).lookup k := by
  by_cases included : k = "include"
  · subst included
    unfold configuredMembers
    simp only [lookup_setReasoning _ _ (show "include" ≠ "reasoning" by decide),
      lookup_insertMissing _ (show "include" ≠ "parallel_tool_calls" by decide),
      lookup_insertMissing _ (show "include" ≠ "tool_choice" by decide),
      Members.lookup_insert_self]
  · have split : (splitMembers request' requestedModel).lookup k =
        (splitMembers request requestedModel).lookup k := by
      refine lookup_split_congr input caller system fun free => same ?_
      simp only [List.mem_cons, List.not_mem_nil, or_false, not_or] at free ⊢
      exact ⟨free.1, free.2.1, included, free.2.2⟩
    by_cases other : k ∈ ["include", "tool_choice", "parallel_tool_calls", "reasoning"]
    · simp only [List.mem_cons, List.not_mem_nil, or_false] at other
      unfold configuredMembers
      dsimp only
      rcases other with rfl | rfl | rfl | rfl
      · exact (included rfl).elim
      · simp only [lookup_setReasoning _ _ (show "tool_choice" ≠ "reasoning" by decide),
          lookup_insertMissing _ (show "tool_choice" ≠ "parallel_tool_calls" by decide),
          lookup_insertMissing_self, Members.lookup_insert_ne included, split]
      · simp only [lookup_setReasoning _ _ (show "parallel_tool_calls" ≠ "reasoning" by decide),
          lookup_insertMissing_self,
          lookup_insertMissing _ (show "parallel_tool_calls" ≠ "tool_choice" by decide),
          Members.lookup_insert_ne included, split]
      · rw [setReasoning_reasoning, setReasoning_reasoning, resolveReasoningSummary_congr]
        rw [get?_object, get?_object, lookup_insertMissing _ (by decide),
          lookup_insertMissing _ (by decide), lookup_insertMissing _ (by decide),
          lookup_insertMissing _ (by decide), Members.lookup_insert_ne included,
          Members.lookup_insert_ne included, split]
    · rw [lookup_configured _ _ _ other, lookup_configured _ _ _ other, split]

/-- A forwarded member other than the input. -/
theorem get?_forwardedBody_congr {k : String} (input : k ≠ "input")
    (caller : callerInstructions request' = callerInstructions request)
    (system : systemTextOf (inputItems request') = systemTextOf (inputItems request))
    (first : (∀ own, request.lookup "prompt_cache_key" ≠ some (.string own)) →
      extractFirstUserText (.object (configuredMembers request' requestedModel requestedEffort)) =
        extractFirstUserText (.object (configuredMembers request requestedModel requestedEffort)))
    (same : k ∈ CODEX_RESPONSES_KEYS → k ∉ ["store", "stream", "include", "instructions"] →
      request'.lookup k = request.lookup k) :
    (forwardedBody env request' requestedModel requestedEffort).get? k =
      (forwardedBody env request requestedModel requestedEffort).get? k := by
  by_cases accepted : k ∈ CODEX_RESPONSES_KEYS
  · rw [get?_forwardedBody _ _ _ _ accepted, get?_forwardedBody _ _ _ _ accepted,
      rewriteResponsesMembers_eq, rewriteResponsesMembers_eq]
    have here : (configuredMembers request' requestedModel requestedEffort).lookup k =
        (configuredMembers request requestedModel requestedEffort).lookup k :=
      lookup_configured_congr input caller system (same accepted)
    have instructions : (configuredMembers request' requestedModel requestedEffort).lookup
        "instructions" =
        (configuredMembers request requestedModel requestedEffort).lookup "instructions" :=
      lookup_configured_congr (by decide) caller system fun free => absurd free (by decide)
    rw [instructions]
    by_cases key : k = "prompt_cache_key"
    · subst key
      rw [← lookup_configured_key request requestedModel requestedEffort] at first
      exact lookup_withPromptCacheKey_congr env here first
    · rw [lookup_withPromptCacheKey env _ _ _ key, lookup_withPromptCacheKey env _ _ _ key, here]
  · have refused : CODEX_RESPONSES_KEYS.contains k = false := by simpa using accepted
    simp only [forwardedBody, transformResponsesRequestBody, get?_object, Members.lookup_retain,
      refused, Bool.false_eq_true, if_false]

theorem responsesTarget_object (request : Members) : responsesTarget env (.object request) =
    forwardedBody env request (resolveRequestModel (.object request))
      (resolveReasoningEffort (.object request)) := rfl

/-- The responses body is made of what is read. -/
theorem responses_congr (same : Alike RESPONSES_MEMBERS (.object request) (.object request'))
    (k : String) : (responsesTarget env (.object request')).get? k =
      (responsesTarget env (.object request)).get? k := by
  have read (k : String) (listed : k ∈ RESPONSES_MEMBERS) : request'.lookup k = request.lookup k :=
    same k listed
  have caller : callerInstructions request' = callerInstructions request := by
    rw [callerInstructions, callerInstructions, read "instructions" (by decide)]
  have items : inputItems request' = inputItems request := by
    rw [inputItems, inputItems, read "input" (by decide)]
  have forwarded : forwardedItems request' = forwardedItems request := by
    rw [forwardedItems, forwardedItems, caller, items]
  have model := resolveRequestModel_congr (same "model" (by decide))
  have effort := resolveReasoningEffort_congr (same "model" (by decide))
    (same "reasoning_effort" (by decide)) (same "reasoning" (by decide))
  rw [responsesTarget_object, responsesTarget_object, model, effort]
  by_cases input : k = "input"
  · rw [input, get?_forwardedBody_input, get?_forwardedBody_input, forwarded]
  · refine get?_forwardedBody_congr env input caller (by rw [items]) ?_ fun accepted free =>
      read k ?_
    · refine fun _ => extractFirstUserText_congr ?_ ?_
      · rw [get?_object, get?_object, lookup_configured _ _ _ (by decide),
          lookup_configured _ _ _ (by decide), lookup_split_input, lookup_split_input, forwarded]
      · rw [get?_object, get?_object]
        exact lookup_configured_congr (by decide) caller (by rw [items])
          fun _ => read "messages" (by decide)
    · have table : ∀ k ∈ CODEX_RESPONSES_KEYS, k ∉ ["store", "stream", "include", "instructions"] →
        k ∈ RESPONSES_MEMBERS := by decide
      exact table k accepted free

end

/-- Every two requests, whatever else they carry: the chat body is the same when the members
that the endpoint reads are, and so is every member of the responses body. -/
theorem requests_footprint :
    (∀ request request' : Json, Alike CHAT_MEMBERS request request' →
      buildCodexRequestBody env request' = buildCodexRequestBody env request) ∧
    ∀ request request' : Members, Alike RESPONSES_MEMBERS (.object request) (.object request') →
      ∀ k, (responsesTarget env (.object request')).get? k =
        (responsesTarget env (.object request)).get? k :=
  ⟨fun _ _ same => chat_congr env same, fun _ _ same k => responses_congr env same k⟩

namespace Sample

def plain : Environment := ⟨JsonText.codec, "", "", id⟩

/-- A request with nothing but a setting that neither endpoint reads. -/
def streaming (stream : Bool) : Members := [("stream", .bool stream)]

theorem streaming_alike : Alike CHAT_MEMBERS (.object (streaming true)) (.object (streaming false)) ∧
    Alike RESPONSES_MEMBERS (.object (streaming true)) (.object (streaming false)) := by
  simp [Alike, CHAT_MEMBERS, RESPONSES_MEMBERS, streaming, Members.lookup_cons]

end Sample

/-- Whether the caller streams makes no difference to the backend. -/
theorem requests_footprint_streaming :
    buildCodexRequestBody Sample.plain (.object (Sample.streaming false)) =
      buildCodexRequestBody Sample.plain (.object (Sample.streaming true)) ∧
    ∀ k, (responsesTarget Sample.plain (.object (Sample.streaming false))).get? k =
      (responsesTarget Sample.plain (.object (Sample.streaming true))).get? k :=
  have alike := requests_footprint Sample.plain
  ⟨alike.1 _ _ Sample.streaming_alike.1, alike.2 _ _ Sample.streaming_alike.2⟩

end CodexProxy.Request
