import CodexProxy.Request.Coverage
import CodexProxy.Library.ReferenceCodec

/-! What a `/v1/responses` request is rewritten to. The steps change one map in turn; here
is what the map holds after the last of them, for every shape of the caller's body. -/
namespace CodexProxy.Request
open Json

/-- Two hexadecimal digits. -/
def hexOctet (b : UInt8) : List Char := [Nat.digitChar (b.toNat / 16), Nat.digitChar (b.toNat % 16)]

/-- Sixteen octets with the version and the variant of a name-based UUID. -/
def fromSha1Bytes (bs : List UInt8) : List UInt8 :=
  (bs.modify 6 fun b => (b &&& 0x0f) ||| 0x50).modify 8 fun b => (b &&& 0x3f) ||| 0x80

/-- The groups of a UUID with hyphens between them. -/
def hyphenated (bs : List UInt8) : String :=
  let group start size := ((bs.drop start).take size).flatMap hexOctet
  String.ofList (group 0 4 ++ '-' :: group 4 2 ++ '-' :: group 6 2 ++ '-' :: group 8 2 ++
    '-' :: group 10 6)

/-- The digest algorithm is a parameter. -/
def hashToUuid (sha256 : List UInt8 → List UInt8) (payload : String) : String :=
  hyphenated (fromSha1Bytes ((sha256 (Text.utf8 payload)).take 16))

/-- The environment of the code, for a digest algorithm. -/
def Environment.hashing (env : Environment) (sha256 : List UInt8 → List UInt8) : Environment :=
  { env with hashToUuid := Request.hashToUuid sha256 }

theorem hashToUuid_ne_empty (sha256 : List UInt8 → List UInt8) (payload : String) :
    hashToUuid sha256 payload ≠ "" := by
  intro empty
  have none := congrArg String.toList empty
  simp [hashToUuid, hyphenated] at none

/-- A content item with its text, if it has one, replaced. -/
structure SanitizedItem (item item' : Json) : Prop where
  text : ∀ text, item.get? "text" = some (.string text) → text ≠ "" →
    item'.get? "text" = some (.string (replaceNames text))
  others : ∀ k, k ≠ "text" → item'.get? k = item.get? k
  same : (∀ text, item.get? "text" = some (.string text) → text = "") → item' = item

/-- An input item with the texts of its array content replaced. -/
structure Sanitized (msg msg' : Json) : Prop where
  content : ∀ items, msg.get? "content" = some (.array items) →
    ∃ items', msg'.get? "content" = some (.array items') ∧ List.Forall₂ SanitizedItem items items'
  others : ∀ k, k ≠ "content" → msg'.get? k = msg.get? k
  same : (∀ items, msg.get? "content" ≠ some (.array items)) → msg' = msg

/-- The items of a body's input; none unless it is an array. -/
def inputItems (request : Members) : List Json := ((request.lookup "input").bind Json.asArray).getD []

/-- The caller's instructions without the whitespace around them. -/
def callerInstructions (request : Members) : String :=
  Text.trim (textOr (request.lookup "instructions"))

/-- The message that takes the place of a system text behind explicit instructions. -/
def developerMessage (systemText : String) : Json :=
  buildObject [("role", .string "developer"), ("content", .string (replaceNames systemText))]

/-- Instructions of the caller's that are not blank. -/
def Instructed (request : Members) : Prop :=
  ∃ text, request.lookup "instructions" = some (.string text) ∧ Text.trim text ≠ ""

/-- The input that belongs to a request. What the last system item says goes in front when
the caller has instructions, and only then. -/
structure RewrittenInput (request : Members) (items : List Json) : Prop where
  parts : ∃ lead rest, items = lead ++ rest ∧
    (∀ text, Instructed request → LastSystem (inputItems request) text →
      lead = [developerMessage text]) ∧
    (¬ (Instructed request ∧ ∃ text, LastSystem (inputItems request) text) → lead = []) ∧
    List.Forall₂ Sanitized ((inputItems request).filter fun item => roleOf item ≠ some "system") rest
  noSystem : ∀ item ∈ items, roleOf item ≠ some "system"

/-- The body that belongs to a request. -/
structure RewrittenBody (request : Members) (forwarded : Json) : Prop where
  keys : ∃ ms, forwarded = .object ms ∧ ∀ k ∈ ms.map Prod.fst, k ∈ CODEX_RESPONSES_KEYS
  store : forwarded.get? "store" = some (.bool false)
  stream : forwarded.get? "stream" = some (.bool true)
  model : ∃ model ∈ KNOWN_MODELS, forwarded.get? "model" = some (.string model)
  cacheKey : ∃ key, forwarded.get? "prompt_cache_key" = some (.string key)
  ownKey : ∀ key, request.lookup "prompt_cache_key" = some (.string key) →
    forwarded.get? "prompt_cache_key" = some (.string key)
  input : ∃ items, RewrittenInput request items ∧
    forwarded.get? "input" = some (if items = [] then .null else .array items)

theorem sanitizeItem_spec (item : Json) : SanitizedItem item (sanitizeItem item) := by
  cases found : itemText item with
  | none =>
    have kept : sanitizeItem item = item := by
      unfold sanitizeItem
      rw [found]
      cases item <;> rfl
    rw [kept]
    refine ⟨fun text said shows => ?_, fun k other => rfl, fun _ => rfl⟩
    have text : itemText item = some text :=
      itemText_eq_some.mpr ⟨by rw [said, Option.bind_some, asString_string], shows⟩
    rw [found] at text
    cases text
  | some text =>
    obtain ⟨said, shows⟩ := itemText_eq_some.mp found
    cases item with
    | object im =>
      have put : sanitizeItem (.object im) =
          .object (Members.insert "text" (.string (replaceNames text)) im) := by
        unfold sanitizeItem
        rw [found]
      obtain ⟨v, member, string⟩ := Option.bind_eq_some_iff.mp said
      rw [asString_eq_some.mp string] at member
      rw [put]
      refine ⟨fun text' said' _ => ?_, fun k other => Members.lookup_insert_ne other _ _,
        fun none => absurd (none text member) shows⟩
      rw [member] at said'
      cases said'
      exact Members.lookup_insert_self _ _ _
    | _ => cases said

theorem sanitizeMessage_spec (msg : Json) : Sanitized msg (sanitizeMessage msg) := by
  cases found : (msg.get? "content").bind Json.asArray with
  | none =>
    have kept : sanitizeMessage msg = msg := by
      unfold sanitizeMessage
      rw [found]
      cases msg <;> rfl
    rw [kept]
    refine ⟨fun items content => ?_, fun k other => rfl, fun _ => rfl⟩
    rw [content] at found
    cases found
  | some contents =>
    cases msg with
    | object mm =>
      have put : sanitizeMessage (.object mm) =
          .object (Members.insert "content" (.array (contents.map sanitizeItem)) mm) := by
        unfold sanitizeMessage
        rw [found]
      obtain ⟨v, member, array⟩ := Option.bind_eq_some_iff.mp found
      cases v with
      | array items =>
        obtain rfl := Option.some.inj array
        rw [put]
        refine ⟨fun items' content => ?_, fun k other => Members.lookup_insert_ne other _ _,
          fun none => absurd member (none items)⟩
        rw [member] at content
        cases content
        refine ⟨_, Members.lookup_insert_self _ _ _, ?_⟩
        rw [List.forall₂_map_right_iff]
        exact List.forall₂_same.mpr fun item _ => sanitizeItem_spec item
      | _ => cases array
    | _ => cases found

/-- The role is not among what is replaced. -/
theorem roleOf_sanitizeMessage (msg : Json) : roleOf (sanitizeMessage msg) = roleOf msg := by
  rw [roleOf, (sanitizeMessage_spec msg).others "role" (by decide), roleOf]

theorem isSystem_eq (msg : Json) : (!isSystem msg) = decide (roleOf msg ≠ some "system") := by
  rw [isSystem, decide_not]

theorem sanitizeMessage_developer (systemText : String) :
    sanitizeMessage (developerMessage systemText) = developerMessage systemText := by
  refine (sanitizeMessage_spec _).same fun items content => ?_
  rw [developerMessage, get?_buildObject] at content
  cases content

/-- What is put in front of the input is not a system item either. -/
theorem displacedText_role {userInstr systemText : String} :
    ∀ item ∈ displacedText userInstr systemText, roleOf item ≠ some "system" := by
  intro item member
  rw [displacedText] at member
  split at member
  · rw [List.mem_singleton.mp member]
    simp [roleOf, get?_buildObject, Members.lookup_cons]
  · cases member

/-- The second pass finds no system items any more, and only replaces texts. -/
theorem lookup_sanitized {obj : Members} {items : List Json}
    (given : obj.lookup "input" = some (inputValue items))
    (noSystem : ∀ item ∈ items, roleOf item ≠ some "system") :
    (sanitizeResponsesInput obj).lookup "input" = some (inputValue (items.map sanitizeMessage)) := by
  unfold sanitizeResponsesInput
  rw [given, Option.bind_some, inputValue, inputValue]
  cases items with
  | nil => exact given
  | cons item items =>
    rw [if_neg (List.cons_ne_nil _ _), asArray_array]
    have kept : (item :: items).filter (!isSystem ·) = item :: items := by
      refine List.filter_eq_self.mpr fun other member => ?_
      rw [isSystem_eq, decide_eq_true_eq]
      exact noSystem other member
    dsimp only
    rw [kept, Members.lookup_insert_self, List.map_cons, if_neg (List.cons_ne_nil _ _)]

variable (env : Environment) (request : Members) (requestedModel requestedEffort : String)

/-- The items that are forwarded. -/
def forwardedItems : List Json :=
  displacedText (callerInstructions request) (systemTextOf (inputItems request)) ++
    ((inputItems request).filter (!isSystem ·)).map sanitizeMessage

theorem instructed_iff : Instructed request ↔ callerInstructions request ≠ "" := by
  have blank : Text.trim "" = "" := by decide
  rw [Instructed, callerInstructions, textOr]
  cases request.lookup "instructions" with
  | none => simp [blank]
  | some v => cases v <;> simp [Json.asString, blank]

theorem forwardedItems_spec : RewrittenInput request (forwardedItems request) := by
  obtain ⟨read, last⟩ := systemTextOf_said (inputItems request)
  constructor
  · refine ⟨_, _, rfl, fun text instructed said => ?_, fun other => if_neg fun both => ?_, ?_⟩
    · obtain ⟨same, shows⟩ := read text said
      rw [same]
      exact if_pos ⟨(instructed_iff request).mp instructed, shows⟩
    · exact other ⟨(instructed_iff request).mpr both.1, _, last both.2⟩
    rw [List.forall₂_map_right_iff]
    simp only [isSystem_eq]
    exact List.forall₂_same.mpr fun item _ => sanitizeMessage_spec item
  · intro item member
    rcases List.mem_append.mp member with lead | rest
    · exact displacedText_role item lead
    · obtain ⟨msg, kept, rfl⟩ := List.mem_map.mp rest
      have role := (List.mem_filter.mp kept).2
      rw [isSystem_eq, decide_eq_true_eq] at role
      rwa [roleOf_sanitizeMessage]

/-- The members that are set for every request. -/
def forcedMembers : Members :=
  Members.insert "stream" (.bool true) (Members.insert "store" (.bool false)
    (Members.insert "model" (.string (normalizeModel requestedModel)) request))

theorem lookup_forcedMembers {k : String} (other : k ∉ ["model", "store", "stream"]) :
    (forcedMembers request requestedModel).lookup k = request.lookup k := by
  simp only [List.mem_cons, List.not_mem_nil, or_false, not_or] at other
  obtain ⟨model, store, stream⟩ := other
  rw [forcedMembers, Members.lookup_insert_ne stream, Members.lookup_insert_ne store,
    Members.lookup_insert_ne model]

/-- The instructions that are forwarded. -/
def forwardedInstructions : String :=
  instructionsOf (callerInstructions request) (systemTextOf (inputItems request))

/-- The members once the instructions and the input are rewritten. -/
def splitMembers : Members :=
  sanitizeResponsesInput (Members.insert "input"
    (inputValue (displacedText (callerInstructions request) (systemTextOf (inputItems request)) ++
      (inputItems request).filter (!isSystem ·)))
    (Members.insert "instructions" (.string (forwardedInstructions request))
      (Members.erase "instructions" (forcedMembers request requestedModel))))

/-- The members before the cache key is set. -/
def configuredMembers : Members :=
  let obj := insertMissing "parallel_tool_calls" (.bool false)
    (insertMissing "tool_choice" (.string "auto")
      (Members.insert "include" includeEncryptedReasoning (splitMembers request requestedModel)))
  let effort := effortMember (clampedEffort requestedModel requestedEffort)
  setReasoning (insertSome "effort" effort
    (insertSome "summary" (resolveReasoningSummary (.object obj)) [])) obj

/-- What is read on the way is what the caller has sent. -/
theorem rewriteResponsesMembers_eq :
    rewriteResponsesMembers env request requestedModel requestedEffort =
      withPromptCacheKey env (normalizeModel requestedModel)
        (textOr ((configuredMembers request requestedModel requestedEffort).lookup "instructions"))
        (configuredMembers request requestedModel requestedEffort) := by
  have instructions : Text.trim (textOr ((forcedMembers request requestedModel).lookup
      "instructions")) = callerInstructions request := by
    rw [lookup_forcedMembers _ _ (by decide), callerInstructions]
  have items : (((Members.erase "instructions"
      (forcedMembers request requestedModel)).lookup "input").bind Json.asArray).getD [] =
      inputItems request := by
    rw [Members.lookup_erase_ne (by decide), lookup_forcedMembers _ _ (by decide), inputItems]
  unfold configuredMembers splitMembers forwardedInstructions
  rw [← instructions, ← items]
  rfl

/-- The members that no step after the split touches. -/
theorem lookup_configured {k : String}
    (other : k ∉ ["include", "tool_choice", "parallel_tool_calls", "reasoning"]) :
    (configuredMembers request requestedModel requestedEffort).lookup k =
      (splitMembers request requestedModel).lookup k := by
  simp only [List.mem_cons, List.not_mem_nil, or_false, not_or] at other
  obtain ⟨included, choice, parallel, reasoning⟩ := other
  unfold configuredMembers
  dsimp only
  rw [lookup_setReasoning _ _ reasoning, lookup_insertMissing _ parallel,
    lookup_insertMissing _ choice, Members.lookup_insert_ne included]

/-- Both passes over the input together. -/
theorem lookup_split_input : (splitMembers request requestedModel).lookup "input" =
    some (inputValue (forwardedItems request)) := by
  have noSystem : ∀ item ∈ displacedText (callerInstructions request)
      (systemTextOf (inputItems request)) ++ (inputItems request).filter (!isSystem ·),
      roleOf item ≠ some "system" := by
    intro item member
    rcases List.mem_append.mp member with lead | rest
    · exact displacedText_role item lead
    · have role := (List.mem_filter.mp rest).2
      rwa [isSystem_eq, decide_eq_true_eq] at role
  have lead : (displacedText (callerInstructions request)
      (systemTextOf (inputItems request))).map sanitizeMessage =
      displacedText (callerInstructions request) (systemTextOf (inputItems request)) := by
    rw [displacedText]
    split
    · rw [List.map_singleton]
      exact congrArg (fun msg => [msg]) (sanitizeMessage_developer _)
    · rfl
  rw [splitMembers, lookup_sanitized (Members.lookup_insert_self _ _ _) noSystem, List.map_append,
    lead, forwardedItems]

/-- The members of the caller's that the split leaves alone. -/
theorem lookup_split_other {k : String} (input : k ≠ "input") (instructions : k ≠ "instructions") :
    (splitMembers request requestedModel).lookup k = (forcedMembers request requestedModel).lookup k := by
  rw [splitMembers, lookup_sanitizeResponsesInput _ input, Members.lookup_insert_ne input,
    Members.lookup_insert_ne instructions, Members.lookup_erase_ne instructions]

/-- The key that is set: the body's own text, or a derived one. -/
theorem withPromptCacheKey_own {body : Members} {own : String} (model instructions : String)
    (found : body.lookup "prompt_cache_key" = some (.string own)) :
    withPromptCacheKey env model instructions body = body := by
  unfold withPromptCacheKey
  rw [found]
  rfl

theorem withPromptCacheKey_derived {body : Members} {model instructions : String}
    (missing : ∀ own, body.lookup "prompt_cache_key" ≠ some (.string own))
    (shows : derivePromptCacheKey env model instructions (extractFirstUserText (.object body)) ≠ "") :
    (withPromptCacheKey env model instructions body).lookup "prompt_cache_key" =
      some (.string (derivePromptCacheKey env model instructions
        (extractFirstUserText (.object body)))) := by
  have none : ((body.lookup "prompt_cache_key").bind Json.asString).isSome = false := by
    rw [Option.isSome_eq_false_iff, Option.isNone_iff_eq_none, Option.bind_eq_none_iff]
    intro v found
    cases v with
    | string own => exact absurd found (missing own)
    | _ => rfl
  unfold withPromptCacheKey
  rw [none]
  dsimp only
  rw [if_neg Bool.false_ne_true, if_neg shows, Members.lookup_insert_self]

/-- A known model makes the derived key the rendering of a digest. -/
theorem derivePromptCacheKey_known {model : String} (known : model ∈ KNOWN_MODELS)
    (instructions firstUserText : String) :
    ∃ payload, derivePromptCacheKey env model instructions firstUserText = env.hashToUuid payload := by
  have shows : ∀ m ∈ KNOWN_MODELS, m ≠ "" := by decide
  unfold derivePromptCacheKey
  dsimp only
  rw [trim_known known, if_neg fun empty => shows model known empty.1]
  exact ⟨_, rfl⟩

/-- The forwarded body. -/
def forwardedBody : Json :=
  (transformResponsesRequestBody env (.object request) requestedModel requestedEffort).1

/-- A member that the backend accepts is the last one set. -/
theorem get?_forwardedBody {k : String} (accepted : k ∈ CODEX_RESPONSES_KEYS) :
    (forwardedBody env request requestedModel requestedEffort).get? k =
      (rewriteResponsesMembers env request requestedModel requestedEffort).lookup k := by
  rw [forwardedBody, transformResponsesRequestBody, get?_object, Members.lookup_retain,
    if_pos (List.contains_iff_mem.mpr accepted)]

theorem get?_forwardedBody_split {k : String} (accepted : k ∈ CODEX_RESPONSES_KEYS)
    (other : k ∉ ["include", "tool_choice", "parallel_tool_calls", "reasoning"])
    (notKey : k ≠ "prompt_cache_key") :
    (forwardedBody env request requestedModel requestedEffort).get? k =
      (splitMembers request requestedModel).lookup k := by
  rw [get?_forwardedBody _ _ _ _ accepted, rewriteResponsesMembers_eq,
    lookup_withPromptCacheKey env _ _ _ notKey, lookup_configured _ _ _ other]

/-- A member that is set for every request. -/
theorem get?_forwardedBody_forced {k : String} (forced : k ∈ ["model", "store", "stream"]) :
    (forwardedBody env request requestedModel requestedEffort).get? k =
      (forcedMembers request requestedModel).lookup k := by
  have table : ∀ k ∈ ["model", "store", "stream"], k ∈ CODEX_RESPONSES_KEYS ∧
      k ∉ ["include", "tool_choice", "parallel_tool_calls", "reasoning"] ∧ k ≠ "prompt_cache_key" ∧
      k ≠ "input" ∧ k ≠ "instructions" := by decide
  obtain ⟨accepted, other, notKey, input, instructions⟩ := table k forced
  rw [get?_forwardedBody_split _ _ _ _ accepted other notKey,
    lookup_split_other _ _ input instructions]

theorem get?_forwardedBody_input :
    (forwardedBody env request requestedModel requestedEffort).get? "input" =
      some (inputValue (forwardedItems request)) := by
  rw [get?_forwardedBody_split _ _ _ _ (by decide) (by decide) (by decide), lookup_split_input]

/-- The cache key before one is derived. -/
theorem lookup_configured_key :
    (configuredMembers request requestedModel requestedEffort).lookup "prompt_cache_key" =
      request.lookup "prompt_cache_key" := by
  rw [lookup_configured _ _ _ (by decide), lookup_split_other _ _ (by decide) (by decide),
    lookup_forcedMembers _ _ (by decide)]

/-- The caller's own key is kept. -/
theorem get?_forwardedBody_ownKey {own : String}
    (found : request.lookup "prompt_cache_key" = some (.string own)) :
    (forwardedBody env request requestedModel requestedEffort).get? "prompt_cache_key" =
      some (.string own) := by
  have kept := lookup_configured_key request requestedModel requestedEffort
  rw [found] at kept
  rw [get?_forwardedBody _ _ _ _ (by decide), rewriteResponsesMembers_eq,
    withPromptCacheKey_own env _ _ kept, kept]

variable (sha256 : List UInt8 → List UInt8)

/-- Otherwise the rendering of a digest is. -/
theorem get?_forwardedBody_derivedKey
    (missing : ∀ own, request.lookup "prompt_cache_key" ≠ some (.string own)) :
    ∃ key, (forwardedBody (env.hashing sha256) request requestedModel requestedEffort).get?
      "prompt_cache_key" = some (.string key) := by
  have unset := missing
  simp only [← lookup_configured_key request requestedModel requestedEffort] at unset
  obtain ⟨payload, derived⟩ := derivePromptCacheKey_known (env.hashing sha256)
    (normalizeModel_known requestedModel)
    (textOr ((configuredMembers request requestedModel requestedEffort).lookup "instructions"))
    (extractFirstUserText (.object (configuredMembers request requestedModel requestedEffort)))
  rw [get?_forwardedBody _ _ _ _ (by decide), rewriteResponsesMembers_eq,
    withPromptCacheKey_derived _ unset (derived ▸ hashToUuid_ne_empty sha256 payload)]
  exact ⟨_, rfl⟩

/-- Every object body, whatever model and effort are asked for. -/
theorem rewritten_body : RewrittenBody request
    (transformResponsesRequestBody (env.hashing sha256) (.object request) requestedModel
      requestedEffort).1 := by
  change RewrittenBody request (forwardedBody (env.hashing sha256) request requestedModel requestedEffort)
  constructor
  · refine ⟨_, rfl, fun k listed => ?_⟩
    obtain ⟨member, kept, rfl⟩ := List.mem_map.mp listed
    exact List.contains_iff_mem.mp (List.mem_filter.mp kept).2
  · rw [get?_forwardedBody_forced _ _ _ _ (by decide), forcedMembers,
      Members.lookup_insert_ne (by decide), Members.lookup_insert_self]
  · rw [get?_forwardedBody_forced _ _ _ _ (by decide), forcedMembers, Members.lookup_insert_self]
  · refine ⟨_, normalizeModel_known requestedModel, ?_⟩
    rw [get?_forwardedBody_forced _ _ _ _ (by decide), forcedMembers,
      Members.lookup_insert_ne (by decide), Members.lookup_insert_ne (by decide),
      Members.lookup_insert_self]
  · by_cases own : ∃ key, request.lookup "prompt_cache_key" = some (.string key)
    · obtain ⟨key, found⟩ := own
      exact ⟨key, get?_forwardedBody_ownKey _ _ _ _ found⟩
    · exact get?_forwardedBody_derivedKey _ _ _ _ sha256 (not_exists.mp own)
  · exact fun key found => get?_forwardedBody_ownKey _ _ _ _ found
  · exact ⟨_, forwardedItems_spec request, get?_forwardedBody_input _ _ _ _⟩

/-- What users say in a forwarded input, which may be a text. -/
def userTexts (forwarded : Json) : List String :=
  match forwarded.get? "input" with
  | some (.string text) => [text]
  | some (.array items) => (items.filter fun item => roleOf item = some "user").flatMap contentTexts
  | _ => []

/-- The prompt is forwarded, and a key is derived from it when the caller has none. -/
structure KeepsPrompt (text : String) (forwarded : Json) : Prop where
  carried : ∃ said ∈ userTexts forwarded, Text.contains said (shown text) = true
  keyed : (∀ own, request.lookup "prompt_cache_key" ≠ some (.string own)) →
    ∃ model instructions, forwarded.get? "model" = some (.string model) ∧
      forwarded.get? "instructions" = some (.string instructions) ∧
      forwarded.get? "prompt_cache_key" =
        some (.string (derivePromptCacheKey env model instructions (replaceNames text)))
  kept : forwarded.get? "input" ≠ some .null

variable {request}

/-- Every pass takes a text for no input at all. -/
theorem forwarded_null {text : String} (asked : request.lookup "input" = some (.string text)) :
    (forwardedBody env request requestedModel requestedEffort).get? "input" = some .null := by
  have items : inputItems request = [] := by
    rw [inputItems, asked]
    rfl
  have displaced : displacedText (callerInstructions request) (systemTextOf []) = [] :=
    if_neg fun both => both.2 rfl
  rw [get?_forwardedBody_input, forwardedItems, items, displaced]
  rfl

/-- Every object body with a text as its input: the prompt is replaced by null. -/
theorem prompt_lost {text : String} (asked : request.lookup "input" = some (.string text)) :
    let forwarded :=
      (transformResponsesRequestBody env (.object request) requestedModel requestedEffort).1
    forwarded.get? "input" = some .null ∧ userTexts forwarded = [] ∧
      ¬ KeepsPrompt env request text forwarded := by
  have null := forwarded_null env requestedModel requestedEffort asked
  rw [forwardedBody] at null
  refine ⟨null, ?_, fun keeps => keeps.kept null⟩
  rw [userTexts, null]

/-- A greeting as the input. -/
def greetingRequest : Members := [("input", .string "Hello")]

theorem greeting_lost :
    let forwarded := (transformResponsesRequestBody ⟨JsonText.codec, "", "", id⟩
      (.object greetingRequest) "gpt-5" "").1
    forwarded.get? "input" = some .null ∧ userTexts forwarded = [] ∧
      ¬ KeepsPrompt ⟨JsonText.codec, "", "", id⟩ greetingRequest "Hello" forwarded :=
  prompt_lost ⟨JsonText.codec, "", "", id⟩ "gpt-5" "" rfl

/-- Whatever the environment, the greeting is not kept. -/
theorem greeting_not_kept : ¬ ∃ env : Environment, KeepsPrompt env greetingRequest "Hello"
    (transformResponsesRequestBody env (.object greetingRequest) "gpt-5" "").1 := by
  rintro ⟨env, keeps⟩
  exact keeps.kept (forwarded_null env "gpt-5" "" rfl)

end CodexProxy.Request
