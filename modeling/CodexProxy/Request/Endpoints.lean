import CodexProxy.Request.Efforts

/-! The two endpoints forward the same model and the same reasoning. The chat body is
built anew from the request; the responses body is the request rewritten in place, and
its summary is read after most of the rewriting, none of which touches `reasoning`. -/
namespace CodexProxy.Request
open Json

/-- The order in which the two settings are inserted does not matter. -/
theorem insertSome_comm (effort summary : Option Json) :
    insertSome "effort" effort (insertSome "summary" summary []) =
      insertSome "summary" summary (insertSome "effort" effort []) := by
  cases effort with
  | none => rfl
  | some e =>
    cases summary with
    | none => rfl
    | some s =>
      have before : "effort" < "summary" := by decide
      have notBefore : ¬ "summary" < "effort" := by decide
      simp [insertSome, Members.insert, before, notBefore]

/-- The summary is read off the `reasoning` member alone. -/
theorem resolveReasoningSummary_congr (request request' : Json)
    (same : request'.get? "reasoning" = request.get? "reasoning") :
    resolveReasoningSummary request' = resolveReasoningSummary request := by
  rw [resolveReasoningSummary, resolveReasoningSummary, same]

theorem setReasoning_reasoning (settings obj : Members) :
    (setReasoning settings obj).lookup "reasoning" =
      if settings = [] then none else some (.object settings) := by
  rw [setReasoning]
  split
  · rw [Members.lookup_erase, if_pos rfl]
  · rw [Members.lookup_insert, if_pos rfl]

variable (env : Environment)

/-- The settings that both endpoints arrive at. -/
def reasoningSettings (request : Json) : Members :=
  insertSome "summary" (resolveReasoningSummary request)
    (insertSome "effort" (effortMember (clampedEffort (resolveRequestModel request)
      (resolveReasoningEffort request))) [])

theorem chat_reasoning (request : Json) :
    (buildCodexRequestBody env request).get? "reasoning" =
      some (.object (reasoningSettings request)) := by
  rw [buildCodexRequestBody, get?_object, lookup_withPromptCacheKey env _ _ _ (by decide)]
  simp [Members.lookup_insert, buildReasoningSettings, reasoningSettings]

theorem responses_reasoning (request : Members) :
    (responsesTarget env (.object request)).get? "reasoning" =
      if reasoningSettings (.object request) = [] then none
      else some (.object (reasoningSettings (.object request))) := by
  rw [responsesTarget, transformResponsesRequestBody, get?_object, Members.lookup_retain,
    if_pos (by decide), rewriteResponsesMembers]
  rw [lookup_withPromptCacheKey env _ _ _ (by decide), setReasoning_reasoning, insertSome_comm,
    reasoningSettings]
  -- what was rewritten before the summary is read leaves `reasoning` alone
  rw [resolveReasoningSummary_congr (.object request)]
  rw [get?_object, get?_object, lookup_insertMissing _ (by decide),
    lookup_insertMissing _ (by decide)]
  simp only [Members.lookup_insert, Members.lookup_erase,
    lookup_sanitizeResponsesInput _ (show "reasoning" ≠ "input" by decide)]
  simp

/-- Every object request: both endpoints forward one model and the same effort and
summary; without either, chat sends an empty object and the responses path no member. -/
theorem endpoints_forward_alike (request : Members) :
    (∃ model : String,
      (buildCodexRequestBody env (.object request)).get? "model" = some (.string model) ∧
        (responsesTarget env (.object request)).get? "model" = some (.string model)) ∧
    ∃ settings : Members,
      (buildCodexRequestBody env (.object request)).get? "reasoning" =
          some (.object settings) ∧
        (responsesTarget env (.object request)).get? "reasoning" =
          if settings = [] then none else some (.object settings) := by
  constructor
  · exact ⟨_, (chat_forwards env (.object request)).1, (responses_forwards env request).1⟩
  · exact ⟨_, chat_reasoning env (.object request), responses_reasoning env request⟩

end CodexProxy.Request
