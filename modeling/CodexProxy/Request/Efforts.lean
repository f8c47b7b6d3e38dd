import CodexProxy.Request.Responses

/-! Which efforts reach the backend. Both endpoints forward the clamped effort with
the normalized model; the clamp keeps an effort inside the allowed set of every model
that has a default, and lets it through for the two that have none. -/
namespace CodexProxy.Request
open Json

/-- The efforts above `high`, which neither model without a default allows. -/
def EXTENDED_EFFORTS : List String := ["xhigh", "max", "ultra"]

/-- On the models without a default the clamp has nothing to fall back to. -/
theorem clamp_allowed_iff {model effort : String} (knownModel : model ∈ KNOWN_MODELS)
    (knownEffort : effort = "" ∨ effort ∈ EFFORTS) :
    (clampReasoningEffortForModel effort model = "" ∨
        clampReasoningEffortForModel effort model ∈ (modelAllowedEfforts model).getD []) ↔
      ¬ ((model = GPT5 ∨ model = GPT5_CODEX) ∧ effort ∈ EXTENDED_EFFORTS) := by
  obtain ⟨allowed, table⟩ := modelAllowedEfforts_known knownModel
  have outside : ∀ e ∈ EFFORTS, (e ∉ ["minimal", "low", "medium", "high"] ↔
      e ∈ EXTENDED_EFFORTS) := by decide
  simp only [clampReasoningEffortForModel, trim_known knownModel, trim_effort knownEffort, table,
    Option.getD_some]
  rw [← modelDefaultEffort_none knownModel]
  cases default : modelDefaultEffort model with
  | some d =>
    have valid := modelDefaultEffort_allowed knownModel default
    rw [table, Option.getD_some] at valid
    simp only [Option.getD_some, reduceCtorEq, false_and, not_false_eq_true, iff_true]
    split
    · exact .inr valid
    · split
      · exact .inr ‹_›
      · exact .inr valid
  | none =>
    have list : allowed = ["minimal", "low", "medium", "high"] := by
      rcases (modelDefaultEffort_none knownModel).mp default with rfl | rfl <;>
        exact (Option.some.inj table).symm
    simp only [Option.getD_none, true_and]
    split
    · rename_i empty
      rw [empty]
      simp [EXTENDED_EFFORTS]
    · rename_i shown
      have level := knownEffort.resolve_left shown
      rw [← outside effort level, ← list, ite_self, not_not]
      simp [shown]

theorem lookup_withPromptCacheKey (env : Environment) (model instructions : String)
    (body : Members) (other : k ≠ "prompt_cache_key") :
    (withPromptCacheKey env model instructions body).lookup k = body.lookup k := by
  unfold withPromptCacheKey
  split
  · rfl
  · dsimp only
    split
    · rfl
    · rw [Members.lookup_insert, if_neg other]

theorem lookup_sanitizeResponsesInput (obj : Members) (other : k ≠ "input") :
    (sanitizeResponsesInput obj).lookup k = obj.lookup k := by
  unfold sanitizeResponsesInput
  split
  · rfl
  · rw [Members.lookup_insert, if_neg other]

theorem lookup_insertMissing (obj : Members) (other : k' ≠ k) :
    (insertMissing k v obj).lookup k' = obj.lookup k' := by
  unfold insertMissing
  split
  · rfl
  · rw [Members.lookup_insert, if_neg other]

theorem lookup_setReasoning (settings obj : Members) (other : k ≠ "reasoning") :
    (setReasoning settings obj).lookup k = obj.lookup k := by
  unfold setReasoning
  split
  · rw [Members.lookup_erase, if_neg other]
  · rw [Members.lookup_insert, if_neg other]

/-- The effort that a body carries. -/
def forwardedEffort (body : Json) : Option Json := (body.get? "reasoning").bind (·.get? "effort")

theorem setReasoning_effort (settings obj : Members) :
    ((setReasoning settings obj).lookup "reasoning").bind (·.get? "effort") =
      settings.lookup "effort" := by
  unfold setReasoning
  split
  · rename_i empty
    rw [Members.lookup_erase, if_pos rfl, empty]
    rfl
  · rw [Members.lookup_insert, if_pos rfl, Option.bind_some, get?_object]

variable (env : Environment)

theorem chat_forwards (request : Json) :
    (buildCodexRequestBody env request).get? "model" =
        some (.string (normalizeModel (resolveRequestModel request))) ∧
      forwardedEffort (buildCodexRequestBody env request) =
        effortMember (clampedEffort (resolveRequestModel request)
          (resolveReasoningEffort request)) := by
  have reasoning : (buildCodexRequestBody env request).get? "reasoning" =
      some (buildReasoningSettings request) := by
    rw [buildCodexRequestBody, get?_object, lookup_withPromptCacheKey env _ _ _ (by decide)]
    simp [Members.lookup_insert]
  constructor
  · rw [buildCodexRequestBody, get?_object, lookup_withPromptCacheKey env _ _ _ (by decide)]
    simp [Members.lookup_insert]
  · rw [forwardedEffort, reasoning, Option.bind_some, buildReasoningSettings, get?_object,
      lookup_insertSome, if_neg (by decide), lookup_insertSome, if_pos rfl]
    exact Option.or_none

theorem responses_forwards (request : Members) :
    (responsesTarget env (.object request)).get? "model" =
        some (.string (normalizeModel (resolveRequestModel (.object request)))) ∧
      forwardedEffort (responsesTarget env (.object request)) =
        effortMember (clampedEffort (resolveRequestModel (.object request))
          (resolveReasoningEffort (.object request))) := by
  generalize asked : resolveRequestModel (.object request) = model
  generalize wanted : resolveReasoningEffort (.object request) = effort
  rw [responsesTarget, asked, wanted, transformResponsesRequestBody]
  constructor
  · rw [get?_object, Members.lookup_retain, if_pos (by decide), rewriteResponsesMembers]
    rw [lookup_withPromptCacheKey env _ _ _ (by decide), lookup_setReasoning _ _ (by decide),
      lookup_insertMissing _ (by decide), lookup_insertMissing _ (by decide)]
    simp only [Members.lookup_insert, lookup_sanitizeResponsesInput _
      (show "model" ≠ "input" by decide), Members.lookup_erase]
    simp
  · rw [forwardedEffort, get?_object, Members.lookup_retain, if_pos (by decide),
      rewriteResponsesMembers]
    rw [lookup_withPromptCacheKey env _ _ _ (by decide), setReasoning_effort, lookup_insertSome,
      if_pos rfl, lookup_insertSome, if_neg (by decide)]
    exact Option.or_none

/-- An effort in the body is one that the body's model allows. -/
def EffortAllowed (body : Json) : Prop :=
  ∀ effort, forwardedEffort body = some effort →
    ∃ model allowed level, body.get? "model" = some (.string model) ∧
      modelAllowedEfforts model = some allowed ∧ effort = .string level ∧ level ∈ allowed

/-- The request names a model without a default and an effort above `high`. -/
def EscapesClamp (request : Json) : Prop :=
  (normalizeModel (resolveRequestModel request) = GPT5 ∨
    normalizeModel (resolveRequestModel request) = GPT5_CODEX) ∧
  normalizeReasoningEffort (resolveReasoningEffort request) ∈ EXTENDED_EFFORTS

/-- A body that carries the clamped effort and the normalized model. -/
theorem effortAllowed_iff {body : Json} {model effort : String}
    (forwards : body.get? "model" = some (.string (normalizeModel model)) ∧
      forwardedEffort body = effortMember (clampedEffort model effort)) :
    EffortAllowed body ↔
      ¬ ((normalizeModel model = GPT5 ∨ normalizeModel model = GPT5_CODEX) ∧
        normalizeReasoningEffort effort ∈ EXTENDED_EFFORTS) := by
  obtain ⟨named, carried⟩ := forwards
  have known := normalizeModel_known model
  obtain ⟨allowed, table⟩ := modelAllowedEfforts_known known
  rw [← clamp_allowed_iff known (normalizeReasoningEffort_known effort), table, Option.getD_some,
    ← clampedEffort]
  generalize clampedEffort model effort = clamped at carried
  unfold EffortAllowed
  rw [carried, effortMember]
  split
  · rename_i empty
    refine iff_of_true ?_ (.inl empty)
    intro effort' carries
    cases carries
  · rename_i shown
    constructor
    · intro valid
      obtain ⟨m, list, level, same, listed, equal, member⟩ := valid _ rfl
      rw [named] at same
      have sameModel := Json.string.inj (Option.some.inj same)
      rw [← sameModel, table] at listed
      rw [Json.string.inj equal, Option.some.inj listed]
      exact .inr member
    · intro valid effort' carries
      rw [← Option.some.inj carries]
      exact ⟨_, allowed, _, named, table, rfl, valid.resolve_left shown⟩

/-- Every object request to either endpoint: the forwarded effort is allowed, except
for `xhigh`, `max` and `ultra` on the models without a default. -/
theorem effort_allowed_iff (request : Members) :
    (EffortAllowed (buildCodexRequestBody env (.object request)) ↔
        ¬ EscapesClamp (.object request)) ∧
      (EffortAllowed (responsesTarget env (.object request)) ↔
        ¬ EscapesClamp (.object request)) :=
  ⟨effortAllowed_iff (chat_forwards env (.object request)),
    effortAllowed_iff (responses_forwards env request)⟩

/-- `gpt-5` with the effort `xhigh`. -/
def xhighRequest : Members := [("model", .string "gpt-5"), ("reasoning_effort", .string "xhigh")]

/-- Whatever the environment, both endpoints forward an effort that `gpt-5` lacks. -/
theorem xhigh_forwarded : ¬ ∃ env : Environment,
    EffortAllowed (buildCodexRequestBody env (.object xhighRequest)) ∨
      EffortAllowed (responsesTarget env (.object xhighRequest)) := by
  have escapes : EscapesClamp (.object xhighRequest) := by
    have model : resolveRequestModel (.object xhighRequest) = "gpt-5" := by decide
    have effort : resolveReasoningEffort (.object xhighRequest) = "xhigh" := by decide
    rw [EscapesClamp, model, effort]
    decide
  rintro ⟨env, chat | responses⟩
  · exact (effortAllowed_iff (chat_forwards env (.object xhighRequest))).mp chat escapes
  · exact (effortAllowed_iff (responses_forwards env xhighRequest)).mp responses escapes

end CodexProxy.Request
