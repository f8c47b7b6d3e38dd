import CodexProxy.Request.Growth
import CodexProxy.Request.Names

/-! A proxy in front of a proxy. The body that the responses endpoint forwards is a request
itself, and rewriting it once more leaves it as it is, but for whitespace around a system
text and for a summary that the caller has switched off. -/
namespace CodexProxy.Request
open Json

theorem normalizeModel_of_known {model : String} (known : model ∈ KNOWN_MODELS) :
    normalizeModel model = model := by
  have table : ∀ m ∈ KNOWN_MODELS, normalizeModel m = m := by decide
  exact table model known

theorem effortSuffix_of_known {model : String} (known : model ∈ KNOWN_MODELS) :
    effortSuffix model = none := by
  have table : ∀ m ∈ KNOWN_MODELS, effortSuffix m = none := by decide
  exact table model known

theorem normalizeReasoningEffort_of_known {effort : String} (known : effort = "" ∨ effort ∈ EFFORTS) :
    normalizeReasoningEffort effort = effort := by
  have table : ∀ e ∈ "" :: EFFORTS, normalizeReasoningEffort e = e := by decide
  exact table effort (List.mem_cons.mpr known)

/-- The allowed efforts are efforts. -/
theorem modelAllowedEfforts_efforts {model effort : String} (known : model ∈ KNOWN_MODELS)
    (allowed : effort ∈ (modelAllowedEfforts model).getD []) : effort ∈ EFFORTS := by
  have table : ∀ m ∈ KNOWN_MODELS, ∀ e ∈ (modelAllowedEfforts m).getD [], e ∈ EFFORTS := by decide
  exact table model known effort allowed

/-- A clamped effort: none, one that is allowed, or one that there is no default for. -/
theorem clamp_cases {model effort : String} (knownModel : model ∈ KNOWN_MODELS)
    (knownEffort : effort = "" ∨ effort ∈ EFFORTS) :
    (clampReasoningEffortForModel effort model = "" ∧ modelDefaultEffort model = none) ∨
      clampReasoningEffortForModel effort model ∈ (modelAllowedEfforts model).getD [] ∨
      (clampReasoningEffortForModel effort model ∈ EFFORTS ∧ modelDefaultEffort model = none) := by
  obtain ⟨allowed, table⟩ := modelAllowedEfforts_known knownModel
  simp only [clampReasoningEffortForModel, trim_known knownModel, trim_effort knownEffort, table,
    Option.getD_some]
  cases default : modelDefaultEffort model with
  | some d =>
    have valid := modelDefaultEffort_allowed knownModel default
    rw [table, Option.getD_some] at valid
    refine .inr (.inl ?_)
    simp only [Option.getD_some]
    split
    · exact valid
    · split <;> assumption
  | none =>
    simp only [Option.getD_none, ite_self, and_true]
    by_cases empty : effort = ""
    · exact .inl (if_pos empty)
    · rw [if_neg empty]
      exact .inr (.inr (knownEffort.resolve_left empty))

theorem clamp_known {model effort : String} (knownModel : model ∈ KNOWN_MODELS)
    (knownEffort : effort = "" ∨ effort ∈ EFFORTS) :
    clampReasoningEffortForModel effort model = "" ∨
      clampReasoningEffortForModel effort model ∈ EFFORTS := by
  rcases clamp_cases knownModel knownEffort with ⟨none, _⟩ | allowed | ⟨level, _⟩
  · exact .inl none
  · exact .inr (modelAllowedEfforts_efforts knownModel allowed)
  · exact .inr level

/-- Clamping once is enough. -/
theorem clamp_clamp {model effort : String} (knownModel : model ∈ KNOWN_MODELS)
    (knownEffort : effort = "" ∨ effort ∈ EFFORTS) :
    clampReasoningEffortForModel (clampReasoningEffortForModel effort model) model =
      clampReasoningEffortForModel effort model := by
  obtain ⟨allowed, table⟩ := modelAllowedEfforts_known knownModel
  have cases := clamp_cases knownModel knownEffort
  have known := clamp_known knownModel knownEffort
  generalize clampReasoningEffortForModel effort model = clamped at cases known
  simp only [clampReasoningEffortForModel, trim_known knownModel, trim_effort known, table]
  rcases cases with ⟨rfl, default⟩ | valid | ⟨level, default⟩
  · rw [if_pos rfl, default, Option.getD_none]
  · rw [table, Option.getD_some] at valid
    split
    · rename_i empty
      have level := modelAllowedEfforts_efforts knownModel (by rwa [table, Option.getD_some])
      rw [empty] at level
      exact absurd level (by decide)
    · rfl
  · simp only [default, Option.getD_none, ite_self, ite_eq_right_iff]
    exact fun empty => empty.symm

theorem clampedEffort_known (requestedModel requestedEffort : String) :
    clampedEffort requestedModel requestedEffort = "" ∨
      clampedEffort requestedModel requestedEffort ∈ EFFORTS :=
  clamp_known (normalizeModel_known _) (normalizeReasoningEffort_known _)

theorem clampedEffort_again (requestedModel requestedEffort : String) :
    clampedEffort (normalizeModel requestedModel) (clampedEffort requestedModel requestedEffort) =
      clampedEffort requestedModel requestedEffort := by
  have known := normalizeModel_known requestedModel
  rw [clampedEffort, normalizeModel_of_known known,
    normalizeReasoningEffort_of_known (clampedEffort_known _ _)]
  exact clamp_clamp known (normalizeReasoningEffort_known _)

theorem sanitizeItem_sanitizeItem (item : Json) : sanitizeItem (sanitizeItem item) = sanitizeItem item := by
  cases found : itemText item with
  | none =>
    have kept : sanitizeItem item = item := (sanitizeItem_spec item).same fun text said => by
      by_contra shows
      rw [itemText_eq_some.mpr ⟨by rw [said]; rfl, shows⟩] at found
      cases found
    rw [kept, kept]
  | some text =>
    cases item with
    | object im =>
      have put : sanitizeItem (.object im) =
          .object (Members.insert "text" (.string (replaceNames text)) im) := by
        unfold sanitizeItem
        rw [found]
      rw [put]
      unfold sanitizeItem
      split
      · rename_i im' text' same found'
        obtain rfl := Json.object.inj same
        obtain ⟨said, _⟩ := itemText_eq_some.mp found'
        rw [get?_object, Members.lookup_insert_self] at said
        rw [← Option.some.inj said, Members.insert_insert, replaceNames_of_freeOf (replaceNames_freeOf text)]
      · rfl
    | _ => cases found

theorem sanitizeMessage_sanitizeMessage (msg : Json) :
    sanitizeMessage (sanitizeMessage msg) = sanitizeMessage msg := by
  cases content : (msg.get? "content").bind Json.asArray with
  | none =>
    have kept : sanitizeMessage msg = msg := (sanitizeMessage_spec msg).same fun items said => by
      rw [said] at content
      cases content
    rw [kept, kept]
  | some items =>
    cases msg with
    | object mm =>
      have put : sanitizeMessage (.object mm) =
          .object (Members.insert "content" (.array (items.map sanitizeItem)) mm) := by
        unfold sanitizeMessage
        rw [content]
      have again : ((Json.object (Members.insert "content" (.array (items.map sanitizeItem)) mm)).get?
          "content").bind Json.asArray = some (items.map sanitizeItem) := by
        rw [get?_object, Members.lookup_insert_self]
        rfl
      have settled : (items.map sanitizeItem).map sanitizeItem = items.map sanitizeItem := by
        rw [List.map_map]
        exact List.map_congr_left fun item _ => sanitizeItem_sanitizeItem item
      rw [put]
      unfold sanitizeMessage
      rw [again]
      dsimp only
      rw [Members.insert_insert, settled]
    | _ => cases content

variable (env : Environment) (request : Members)

/-- Nothing of the forwarded items is rewritten once more. -/
theorem forwardedItems_settled :
    (forwardedItems request).map sanitizeMessage = forwardedItems request := by
  rw [forwardedItems, List.map_append, List.map_map]
  refine congrArg₂ _ ?_ (List.map_congr_left fun item _ => sanitizeMessage_sanitizeMessage item)
  unfold displacedText
  split
  · exact congrArg (fun msg => [msg]) (sanitizeMessage_developer _)
  · rfl

theorem forwardedItems_kept :
    (forwardedItems request).filter (!isSystem ·) = forwardedItems request := by
  refine List.filter_eq_self.mpr fun item member => ?_
  rw [isSystem_eq, decide_eq_true_eq]
  exact (forwardedItems_spec request).noSystem item member

/-- A body whose input is what another one's was rewritten to. -/
theorem forwardedItems_again {once : Members}
    (input : once.lookup "input" = some (inputValue (forwardedItems request))) :
    forwardedItems once = forwardedItems request ∧ systemTextOf (inputItems once) = "" := by
  have items : inputItems once = forwardedItems request :=
    inputOf_inputValue (show (Json.object once).get? "input" = _ from input)
  have none : (forwardedItems request).filter isSystem = [] := by
    refine List.filter_eq_nil_iff.mpr fun item member => ?_
    simpa [isSystem] using (forwardedItems_spec request).noSystem item member
  have system : systemTextOf (inputItems once) = "" := by
    rw [systemTextOf, items, none]
    rfl
  refine ⟨?_, system⟩
  have lead : displacedText (callerInstructions once) "" = [] := if_neg fun both => both.2 rfl
  rw [forwardedItems, system, lead, items, forwardedItems_kept, forwardedItems_settled,
    List.nil_append]

/-- The members of the forwarded body. -/
def rewrittenMembers : Members :=
  Members.retain (CODEX_RESPONSES_KEYS.contains ·) (rewriteResponsesMembers env request
    (resolveRequestModel (.object request)) (resolveReasoningEffort (.object request)))

theorem responsesTarget_eq :
    responsesTarget env (.object request) = .object (rewrittenMembers env request) := rfl

/-- The members are those of the forwarded body. -/
theorem lookup_rewritten (k : String) : (rewrittenMembers env request).lookup k =
    (forwardedBody env request (resolveRequestModel (.object request))
      (resolveReasoningEffort (.object request))).get? k := rfl

theorem lookup_rewritten_none {k : String} (refused : k ∉ CODEX_RESPONSES_KEYS) :
    (rewrittenMembers env request).lookup k = none := by
  rw [rewrittenMembers, Members.lookup_retain, if_neg (by simpa using refused)]

theorem lookup_rewritten_model : (rewrittenMembers env request).lookup "model" =
    some (.string (normalizeModel (resolveRequestModel (.object request)))) :=
  (responses_forwards env request).1

theorem lookup_rewritten_instructions : (rewrittenMembers env request).lookup "instructions" =
    some (.string (forwardedInstructions request)) := by
  rw [lookup_rewritten, get?_forwardedBody_split _ _ _ _ (by decide) (by decide) (by decide),
    splitMembers, lookup_sanitizeResponsesInput _ (by decide), Members.lookup_insert_ne (by decide),
    Members.lookup_insert_self]

theorem trimmedText_string {text : String} (tight : Text.trim text = text) (shows : text ≠ "") :
    trimmedText (some (.string text)) = some text := by
  rw [trimmedText, Option.bind_some, asString_string, Option.map_some, tight, Option.filter_some,
    if_pos (decide_eq_true shows)]

/-- The model that the rewritten body asks for. -/
theorem resolveRequestModel_rewritten :
    resolveRequestModel (.object (rewrittenMembers env request)) =
      normalizeModel (resolveRequestModel (.object request)) := by
  have known := normalizeModel_known (resolveRequestModel (.object request))
  have shows : ∀ m ∈ KNOWN_MODELS, m ≠ "" := by decide
  rw [resolveRequestModel, get?_object, lookup_rewritten_model,
    trimmedText_string (trim_known known) (shows _ known), Option.getD_some]

/-- The effort that the rewritten body asks for. -/
theorem resolveReasoningEffort_rewritten :
    resolveReasoningEffort (.object (rewrittenMembers env request)) =
      clampedEffort (resolveRequestModel (.object request))
        (resolveReasoningEffort (.object request)) := by
  have carried : ((Json.object (rewrittenMembers env request)).get? "reasoning").bind
      (·.get? "effort") = effortMember (clampedEffort (resolveRequestModel (.object request))
        (resolveReasoningEffort (.object request))) := (responses_forwards env request).2
  have known := clampedEffort_known (resolveRequestModel (.object request))
    (resolveReasoningEffort (.object request))
  generalize clampedEffort (resolveRequestModel (.object request))
    (resolveReasoningEffort (.object request)) = clamped at carried known
  unfold resolveReasoningEffort
  rw [carried, get?_object, get?_object, lookup_rewritten_none env request (by decide),
    lookup_rewritten_model, effortMember]
  by_cases empty : clamped = ""
  · rw [if_pos empty, empty]
    simp [trimmedText, effortSuffix_of_known (normalizeModel_known _)]
  · rw [if_neg empty, trimmedText_string (trim_effort known) empty]
    rfl

/-- A summary is not null. -/
theorem summary_shown (request : Json) : resolveReasoningSummary request ≠ some .null := by
  unfold resolveReasoningSummary
  intro null
  split at null
  · cases null
  · rename_i shows _
    exact shows (Option.some.inj null)
  · cases null

/-- A setting in the reasoning member, which is left out when it is empty. -/
theorem settings_get? (settings : Members) (k : String) :
    (if settings = [] then none else some (Json.object settings)).bind (·.get? k) =
      settings.lookup k := by
  split
  · rename_i none
    rw [none]
    rfl
  · rfl

/-- The summary that the rewritten body asks for; one that is switched off comes back. -/
theorem resolveReasoningSummary_rewritten :
    resolveReasoningSummary (.object (rewrittenMembers env request)) =
      some ((resolveReasoningSummary (.object request)).getD (.string "auto")) := by
  have carried : ((Json.object (rewrittenMembers env request)).get? "reasoning").bind
      (·.get? "summary") = resolveReasoningSummary (.object request) := by
    have settings : (reasoningSettings (.object request)).lookup "summary" =
        resolveReasoningSummary (.object request) := by
      rw [reasoningSettings, lookup_insertSome, if_pos rfl, lookup_insertSome, if_neg (by decide)]
      exact Option.or_none
    rw [← responsesTarget_eq, responses_reasoning, settings_get?, settings]
  rw [resolveReasoningSummary, carried]
  cases asked : resolveReasoningSummary (.object request) with
  | none => rfl
  | some summary =>
    cases summary with
    | null => exact absurd asked (summary_shown _)
    | _ => rfl

/-- The reasoning that the rewritten body asks for. -/
theorem reasoningSettings_rewritten : reasoningSettings (.object (rewrittenMembers env request)) =
    insertSome "summary" (some ((resolveReasoningSummary (.object request)).getD (.string "auto")))
      (insertSome "effort" (effortMember (clampedEffort (resolveRequestModel (.object request))
        (resolveReasoningEffort (.object request)))) []) := by
  rw [reasoningSettings, resolveReasoningSummary_rewritten, resolveRequestModel_rewritten,
    resolveReasoningEffort_rewritten, clampedEffort_again]

variable (env' : Environment)

/-- The instructions lose the whitespace around them. -/
theorem twice_instructions :
    (responsesTarget env' (.object (rewrittenMembers env request))).get? "instructions" =
      some (.string (Text.trim (forwardedInstructions request))) := by
  have system := (forwardedItems_again request
    ((lookup_rewritten env request "input").trans (get?_forwardedBody_input ..))).2
  have caller : callerInstructions (rewrittenMembers env request) =
      Text.trim (forwardedInstructions request) := by
    rw [callerInstructions, lookup_rewritten_instructions]
    rfl
  rw [responsesTarget_eq, get?_object, lookup_rewritten_instructions, forwardedInstructions, system,
    caller, instructionsOf, if_neg (not_not.mpr rfl)]
  split
  · rfl
  · rename_i empty
    rw [not_not.mp empty]

/-- The reasoning has a summary, and is otherwise the same. -/
theorem twice_reasoning :
    (responsesTarget env' (.object (rewrittenMembers env request))).get? "reasoning" =
        (rewrittenMembers env request).lookup "reasoning" ↔
      (resolveReasoningSummary (.object request)).isSome := by
  have first : (rewrittenMembers env request).lookup "reasoning" =
      if reasoningSettings (.object request) = [] then none
      else some (.object (reasoningSettings (.object request))) := responses_reasoning env request
  rw [responses_reasoning, first, reasoningSettings_rewritten, reasoningSettings]
  generalize effortMember (clampedEffort (resolveRequestModel (.object request))
    (resolveReasoningEffort (.object request))) = effort
  cases resolveReasoningSummary (.object request) with
  | some summary => exact iff_of_true rfl rfl
  | none =>
    refine iff_of_false (fun same => ?_) Bool.false_ne_true
    -- the second body has a summary, and the first one has none
    have lookups := congrArg (·.bind (·.get? "summary")) same
    have unlike : "summary" ≠ "effort" := by decide
    simp only [settings_get?, lookup_insertSome, if_neg unlike] at lookups
    cases lookups

/-- The values of the settings that a request may leave open. -/
def filledValue (k : String) : Json := if k = "tool_choice" then .string "auto" else .bool false

theorem lookup_configured_filled (requestedModel requestedEffort : String) {k : String}
    (filled : k ∈ ["tool_choice", "parallel_tool_calls"]) :
    (configuredMembers request requestedModel requestedEffort).lookup k =
      some ((request.lookup k).getD (filledValue k)) := by
  have table : ∀ k ∈ ["tool_choice", "parallel_tool_calls"], k ≠ "input" ∧ k ≠ "instructions" ∧
      k ≠ "include" ∧ k ≠ "reasoning" ∧ k ∉ ["model", "store", "stream"] := by decide
  obtain ⟨input, instructions, included, reasoning, forced⟩ := table k filled
  have given : (Members.insert "include" includeEncryptedReasoning
      (splitMembers request requestedModel)).lookup k = request.lookup k := by
    rw [Members.lookup_insert_ne included, lookup_split_other _ _ input instructions,
      lookup_forcedMembers _ _ forced]
  simp only [List.mem_cons, List.not_mem_nil, or_false] at filled
  unfold configuredMembers
  dsimp only
  rw [lookup_setReasoning _ _ reasoning]
  rcases filled with rfl | rfl
  · rw [lookup_insertMissing _ (by decide), lookup_insertMissing_self, given]
    rfl
  · rw [lookup_insertMissing_self, lookup_insertMissing _ (by decide), given]
    rfl

/-- The settings that a request may have left open are filled in. -/
theorem lookup_rewritten_filled {k : String} (filled : k ∈ ["tool_choice", "parallel_tool_calls"]) :
    ∃ v, (rewrittenMembers env request).lookup k = some v := by
  have table : ∀ k ∈ ["tool_choice", "parallel_tool_calls"], k ∈ CODEX_RESPONSES_KEYS ∧
      k ≠ "prompt_cache_key" := by decide
  obtain ⟨accepted, notKey⟩ := table k filled
  rw [lookup_rewritten, get?_forwardedBody _ _ _ _ accepted, rewriteResponsesMembers_eq,
    lookup_withPromptCacheKey env _ _ _ notKey]
  exact ⟨_, lookup_configured_filled _ _ _ filled⟩

/-- What is the same in every body. -/
theorem lookup_configured_fixed (request' : Members) {k : String}
    (requestedModel requestedModel' requestedEffort requestedEffort' : String)
    (fixed : k ∈ ["store", "stream", "include"]) :
    (configuredMembers request requestedModel requestedEffort).lookup k =
      (configuredMembers request' requestedModel' requestedEffort').lookup k := by
  simp only [List.mem_cons, List.not_mem_nil, or_false] at fixed
  rcases fixed with rfl | rfl | rfl
  · simp [lookup_configured, lookup_split_other, forcedMembers, Members.lookup_insert]
  · simp [lookup_configured, lookup_split_other, forcedMembers]
  · simp [configuredMembers, lookup_setReasoning, lookup_insertMissing]

/-- Every other member stays. -/
theorem twice_other {k : String} (other : k ∉ ["instructions", "reasoning"])
    (keyed : ∃ own, (rewrittenMembers env request).lookup "prompt_cache_key" = some (.string own)) :
    (responsesTarget env' (.object (rewrittenMembers env request))).get? k =
      (rewrittenMembers env request).lookup k := by
  simp only [List.mem_cons, List.not_mem_nil, or_false, not_or] at other
  obtain ⟨instructions, reasoning⟩ := other
  by_cases accepted : k ∈ CODEX_RESPONSES_KEYS
  · by_cases model : k = "model"
    · rw [model, (responses_forwards env' _).1, lookup_rewritten_model,
        resolveRequestModel_rewritten, normalizeModel_of_known (normalizeModel_known _)]
    by_cases input : k = "input"
    · have first := (lookup_rewritten env request "input").trans (get?_forwardedBody_input ..)
      rw [input, first, responsesTarget_object, get?_forwardedBody_input,
        (forwardedItems_again request first).1]
    by_cases key : k = "prompt_cache_key"
    · obtain ⟨own, found⟩ := keyed
      rw [key, found, responsesTarget_object, get?_forwardedBody_ownKey _ _ _ _ found]
    by_cases filled : k ∈ ["tool_choice", "parallel_tool_calls"]
    · obtain ⟨v, found⟩ := lookup_rewritten_filled env request filled
      rw [responsesTarget_object, get?_forwardedBody _ _ _ _ accepted, rewriteResponsesMembers_eq,
        lookup_withPromptCacheKey env' _ _ _ key, lookup_configured_filled _ _ _ filled, found]
      rfl
    by_cases tools : k = "tools"
    · rw [tools, responsesTarget_object, get?_forwardedBody_split _ _ _ _ (by decide) (by decide)
        (by decide), lookup_split_other _ _ (by decide) (by decide),
        lookup_forcedMembers _ _ (by decide)]
    have table : ∀ k ∈ CODEX_RESPONSES_KEYS, k ≠ "model" → k ≠ "input" → k ≠ "prompt_cache_key" →
        k ∉ ["tool_choice", "parallel_tool_calls"] → k ≠ "tools" → k ≠ "instructions" →
        k ≠ "reasoning" → k ∈ ["store", "stream", "include"] := by decide
    have fixed := table k accepted model input key filled tools instructions reasoning
    rw [responsesTarget_object, get?_forwardedBody _ _ _ _ accepted, rewriteResponsesMembers_eq,
      lookup_withPromptCacheKey env' _ _ _ key, lookup_rewritten,
      get?_forwardedBody _ _ _ _ accepted, rewriteResponsesMembers_eq,
      lookup_withPromptCacheKey env _ _ _ key]
    exact lookup_configured_fixed _ _ _ _ _ _ fixed
  · rw [lookup_rewritten_none env request accepted, responsesTarget_eq, get?_object,
      lookup_rewritten_none env' _ accepted]

/-- With a digest the body has a cache key. -/
theorem lookup_rewritten_keyed (sha256 : List UInt8 → List UInt8) : ∃ own,
    (rewrittenMembers (env.hashing sha256) request).lookup "prompt_cache_key" =
      some (.string own) := by
  by_cases own : ∃ text, request.lookup "prompt_cache_key" = some (.string text)
  · obtain ⟨text, found⟩ := own
    rw [lookup_rewritten]
    exact ⟨text, get?_forwardedBody_ownKey _ _ _ _ found⟩
  · rw [lookup_rewritten]
    exact get?_forwardedBody_derivedKey _ _ _ _ sha256 (not_exists.mp own)

/-- Every object request through two proxies, whatever the second one's prompts and digest
are: all members but the instructions and the reasoning are those of the first body, and
these two are as well exactly if the instructions have no whitespace around them and the
caller has not switched the summary off. -/
theorem rewritten_twice (sha256 : List UInt8 → List UInt8) :
    (∀ k, k ∉ ["instructions", "reasoning"] →
      (responsesTarget env' (responsesTarget (env.hashing sha256) (.object request))).get? k =
        (responsesTarget (env.hashing sha256) (.object request)).get? k) ∧
    ((∀ k, (responsesTarget env' (responsesTarget (env.hashing sha256) (.object request))).get? k =
        (responsesTarget (env.hashing sha256) (.object request)).get? k) ↔
      Text.trim (forwardedInstructions request) = forwardedInstructions request ∧
        (resolveReasoningSummary (.object request)).isSome) := by
  have others {k : String} (other : k ∉ ["instructions", "reasoning"]) :=
    twice_other _ _ env' other (lookup_rewritten_keyed env request sha256)
  rw [responsesTarget_eq (env.hashing sha256) request]
  refine ⟨fun k other => others other, ?_⟩
  have instructions := twice_instructions (env.hashing sha256) request env'
  have first := lookup_rewritten_instructions (env.hashing sha256) request
  have reasoning := twice_reasoning (env.hashing sha256) request env'
  constructor
  · intro same
    refine ⟨?_, reasoning.mp (same "reasoning")⟩
    have kept := same "instructions"
    rw [instructions, get?_object, first] at kept
    exact Json.string.inj (Option.some.inj kept)
  · rintro ⟨tight, summary⟩ k
    by_cases other : k ∈ ["instructions", "reasoning"]
    · simp only [List.mem_cons, List.not_mem_nil, or_false] at other
      rcases other with rfl | rfl
      · rw [instructions, get?_object, first, tight]
      · exact reasoning.mpr summary
    · exact others other

end CodexProxy.Request
