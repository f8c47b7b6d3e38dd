import CodexProxy.Request.Efforts
import CodexProxy.Request.Readings

/-! The input that a chat request is forwarded with. Every message yields its own
entries, in order; so function calls and their outputs are those of the request, and an
output that is answered in the request is answered in the input. -/
namespace CodexProxy.Request
open Json

def kindOf (entry : Json) : Option String := (entry.get? "type").bind Json.asString

def functionCalls (input : List Json) : List Json := input.filter (kindOf · = some "function_call")

def functionCallOutputs (input : List Json) : List Json :=
  input.filter (kindOf · = some "function_call_output")

/-- The objects among an assistant's tool calls. -/
def toolCallsOf (msg : Json) : List Json :=
  if roleOf msg = some "assistant" then
    (((msg.get? "tool_calls").bind Json.asArray).getD []).filter Json.isObject
  else []

/-- A tool message that says which call it answers. -/
def isAnswer (msg : Json) : Bool :=
  roleOf msg = some "tool" && textOr (msg.get? "tool_call_id") ≠ ""

/-- The texts of a turn; a content that is a text is trimmed. -/
def turnTexts (msg : Json) : List String :=
  ((match msg.get? "content" with
    | some (.string text) => [Text.trim text]
    | _ => contentTexts msg).filter (· ≠ "")).map replaceNames

/-- A message with one content item for each text. -/
def messageJson (id : Json) (role kind : String) (texts : List String) : Json :=
  buildObject [("type", .string "message"), ("id", id), ("role", .string role),
    ("content", .array (texts.map fun text =>
      buildObject [("type", .string kind), ("text", .string text)]))]

/-- The message of a turn that has texts. -/
def turnEntries (msg : Json) : List Json :=
  if turnTexts msg = [] then []
  else if isOf "user" msg then
    [messageJson ((msg.get? "id").getD .null) "user" "input_text" (turnTexts msg)]
  else if isOf "assistant" msg then
    [messageJson ((msg.get? "id").getD .null) "assistant" "output_text" (turnTexts msg)]
  else []

/-- A text, or the empty one in place of anything else. -/
def Spells (v : Option Json) (text : String) : Prop :=
  v = some (.string text) ∨ (∀ s, v ≠ some (.string s)) ∧ text = ""

variable (env : Environment)

/-- A text as it is, nothing for null, and the compact text of any other value. -/
def SpellsArguments (v : Option Json) (text : String) : Prop :=
  v = some (.string text) ∨ (v = none ∨ v = some .null) ∧ text = "" ∨
    ∃ other, v = some other ∧ other ≠ .null ∧ (∀ s, other ≠ .string s) ∧
      text = env.codec.write other

/-- The entry of a tool call. -/
def CallEntry (tc entry : Json) : Prop :=
  ∃ name callId arguments, Spells ((tc.get? "function").bind (·.get? "name")) name ∧
    Spells (tc.get? "id") callId ∧
    SpellsArguments env ((tc.get? "function").bind (·.get? "arguments")) arguments ∧
    entry = buildObject [("type", .string "function_call"), ("name", .string name),
      ("call_id", .string callId), ("arguments", .string arguments)]

/-- The texts of an array on lines of their own, and any other content as arguments are. -/
def SpellsOutput (msg : Json) (text : String) : Prop :=
  (∃ items, msg.get? "content" = some (.array items)) ∧ text = Text.join "\n" (textsOf msg) ∨
    (∀ items, msg.get? "content" ≠ some (.array items)) ∧
      SpellsArguments env (msg.get? "content") text

/-- The entry of a tool message. -/
def OutputEntry (msg entry : Json) : Prop :=
  ∃ callId output, msg.get? "tool_call_id" = some (.string callId) ∧ SpellsOutput env msg output ∧
    entry = buildObject [("type", .string "function_call_output"), ("call_id", .string callId),
      ("output", .string output)]

/-- The entries of a message: of its texts, then of its calls or of its answer. -/
def EntriesOf (msg : Json) (entries : List Json) : Prop :=
  ∃ calls outputs, entries = turnEntries msg ++ calls ++ outputs ∧
    List.Forall₂ (CallEntry env) (toolCallsOf msg) calls ∧
    List.Forall₂ (OutputEntry env) ([msg].filter isAnswer) outputs

/-- Every tool message answers a call of an earlier assistant message. -/
def Answered (messages : List Json) : Prop :=
  ∀ before msg after, messages = before ++ msg :: after → roleOf msg = some "tool" →
    ∀ id, msg.get? "tool_call_id" = some (.string id) →
      ∃ earlier ∈ before, ∃ tc ∈ toolCallsOf earlier, tc.get? "id" = some (.string id)

/-- Every output comes after a call with its id. -/
def Paired (input : List Json) : Prop :=
  ∀ before entry after, input = before ++ entry :: after →
    kindOf entry = some "function_call_output" →
    ∃ call ∈ before, kindOf call = some "function_call" ∧
      call.get? "call_id" = entry.get? "call_id"

/-- The input that belongs to a request. -/
structure Forwards (request : Json) (input : List Json) : Prop where
  entries : ∃ own : List (List Json),
    input = messageJson .null "developer" "input_text" [env.inversePrompt] ::
      messageJson .null "developer" "input_text" [systemSaid request] :: own.flatten ∧
    List.Forall₂ (EntriesOf env) (messagesOf request) own
  calls : List.Forall₂ (CallEntry env) ((messagesOf request).flatMap toolCallsOf)
    (functionCalls input)
  outputs : List.Forall₂ (OutputEntry env) ((messagesOf request).filter isAnswer)
    (functionCallOutputs input)
  paired : Answered (messagesOf request) → Paired input

theorem kindOf_inputMessage (id : Json) (role kind : String) (texts : List String) :
    kindOf (inputMessage id role kind texts) = some "message" := by
  simp [kindOf, inputMessage, get?_buildObject, Members.lookup_cons, Json.asString]

/-- An object tool call's entry. -/
def callEntry (tc : Json) : Json :=
  let func := (tc.get? "function").filter Json.isObject
  buildObject [("type", .string "function_call"),
    ("name", .string (textOr (func.bind (·.get? "name")))),
    ("call_id", .string (textOr (tc.get? "id"))),
    ("arguments", .string (extractArgumentsString env (func.bind (·.get? "arguments"))))]

theorem toolCallEntries (calls : List Json) :
    calls.filterMap (toolCallEntry env) = (calls.filter Json.isObject).map (callEntry env) := by
  induction calls with
  | nil => rfl
  | cons tc calls ih =>
    rw [List.filterMap_cons, toolCallEntry, ih]
    by_cases object : tc.isObject
    · rw [if_pos object, List.filter_cons_of_pos object, List.map_cons]
      rfl
    · rw [if_neg object, List.filter_cons_of_neg object]

theorem kindOf_callEntry (tc : Json) : kindOf (callEntry env tc) = some "function_call" := by
  simp [kindOf, callEntry, get?_buildObject, Members.lookup_cons, Json.asString]

theorem callId_callEntry (tc : Json) :
    (callEntry env tc).get? "call_id" = some (.string (textOr (tc.get? "id"))) := by
  simp [callEntry, get?_buildObject, Members.lookup_cons]

/-- An answer's entry. -/
def outputEntry (msg : Json) : Json :=
  buildObject [("type", .string "function_call_output"),
    ("call_id", .string (textOr (msg.get? "tool_call_id"))),
    ("output", .string (collectToolOutput env (msg.get? "content")))]

theorem kindOf_outputEntry (msg : Json) :
    kindOf (outputEntry env msg) = some "function_call_output" := by
  simp [kindOf, outputEntry, get?_buildObject, Members.lookup_cons, Json.asString]

theorem callId_outputEntry (msg : Json) :
    (outputEntry env msg).get? "call_id" = some (.string (textOr (msg.get? "tool_call_id"))) := by
  simp [outputEntry, get?_buildObject, Members.lookup_cons]

/-- The texts that are collected. -/
theorem collectTextSegments_turn (msg : Json) :
    collectTextSegments (msg.get? "content") true = turnTexts msg := by
  rw [turnTexts]
  cases content : msg.get? "content" with
  | none =>
    rw [contentTexts, content]
    rfl
  | some v =>
    cases v with
    | string text => by_cases blank : Text.trim text = "" <;> simp [collectTextSegments, blank]
    | array items => simp only [collectTextSegments, if_true, filterMap_itemText, contentTexts, content]
    | _ =>
      rw [contentTexts, content]
      rfl

theorem textEntries_turn {msg : Json} (role kind : String) : textEntries msg role kind =
    if turnTexts msg = [] then []
    else [messageJson ((msg.get? "id").getD .null) role kind (turnTexts msg)] := by
  rw [textEntries, collectTextSegments_turn]
  rfl

theorem turnEntries_kind (msg : Json) : ∀ entry ∈ turnEntries msg, kindOf entry = some "message" := by
  intro entry member
  unfold turnEntries at member
  split at member
  · cases member
  split at member
  · rw [List.mem_singleton.mp member]
    exact kindOf_inputMessage _ _ _ _
  split at member
  · rw [List.mem_singleton.mp member]
    exact kindOf_inputMessage _ _ _ _
  · cases member

theorem roleOf_eq {msg : Json} {role : String} (named : role ≠ "")
    (same : (roleOf msg).getD "" = role) : roleOf msg = some role := by
  cases found : roleOf msg with
  | none =>
    rw [found] at same
    exact absurd same.symm named
  | some other => rw [← same, found, Option.getD_some]

/-- A message's entries: its texts first, then its calls, or its answer. -/
theorem messageEntries_eq (msg : Json) : messageEntries env msg =
    turnEntries msg ++ (toolCallsOf msg).map (callEntry env) ++
      (if isAnswer msg then [outputEntry env msg] else []) := by
  unfold messageEntries toolCallsOf isAnswer turnEntries
  split <;> rename_i role
  · have user := roleOf_eq (by decide) role
    simp [user, isOf_iff.mpr user, textEntries_turn]
  · have assistant := roleOf_eq (by decide) role
    have notUser : isOf "user" msg = false := by simp [Bool.eq_false_iff, isOf_iff, assistant]
    simp [assistant, notUser, isOf_iff.mpr assistant, textEntries_turn, toolCallEntries]
  · have tool := roleOf_eq (by decide) role
    have notUser : isOf "user" msg = false := by simp [Bool.eq_false_iff, isOf_iff, tool]
    have notAssistant : isOf "assistant" msg = false := by simp [Bool.eq_false_iff, isOf_iff, tool]
    by_cases empty : textOr (msg.get? "tool_call_id") = ""
    · simp [tool, empty, notUser, notAssistant]
    · simp [tool, empty, outputEntry, notUser, notAssistant]
  · rename_i user assistant
    have notUser : roleOf msg ≠ some "user" := fun same => user (by rw [same]; rfl)
    have notAssistant : roleOf msg ≠ some "assistant" := fun same => assistant (by rw [same]; rfl)
    have notTool : roleOf msg ≠ some "tool" := fun same => role (by rw [same]; rfl)
    simp [notAssistant, notTool, Bool.eq_false_iff.mpr fun own => notUser (isOf_iff.mp own),
      Bool.eq_false_iff.mpr fun own => notAssistant (isOf_iff.mp own)]

theorem filter_kind {entries : List Json} {own : String}
    (same : ∀ entry ∈ entries, kindOf entry = some own) (kind : String) :
    entries.filter (kindOf · = some kind) = if own = kind then entries else [] := by
  split
  · rename_i equal
    exact List.filter_eq_self.mpr fun entry member => by simp [same entry member, equal]
  · rename_i other
    exact List.filter_eq_nil_iff.mpr fun entry member => by simp [same entry member, other]

/-- Filtered by kind, a message's entries are its calls, or its answer. -/
theorem messageEntries_kinds (msg : Json) :
    functionCalls (messageEntries env msg) = (toolCallsOf msg).map (callEntry env) ∧
    functionCallOutputs (messageEntries env msg) =
      (if isAnswer msg then [outputEntry env msg] else []) := by
  have calls : ∀ entry ∈ (toolCallsOf msg).map (callEntry env),
      kindOf entry = some "function_call" := by
    intro entry member
    obtain ⟨tc, _, rfl⟩ := List.mem_map.mp member
    exact kindOf_callEntry env tc
  have answers : ∀ entry ∈ (if isAnswer msg then [outputEntry env msg] else []),
      kindOf entry = some "function_call_output" := by
    intro entry member
    split at member
    · rw [List.mem_singleton.mp member, kindOf_outputEntry]
    · cases member
  rw [functionCalls, functionCallOutputs, messageEntries_eq]
  simp only [List.filter_append, filter_kind (turnEntries_kind msg), filter_kind calls,
    filter_kind answers]
  simp

theorem inputOf_body (request : Json) : inputOf (buildCodexRequestBody env request) =
    inputMessage .null "developer" "input_text" [env.inversePrompt] ::
      buildCodexInputMessages env request := by
  rw [inputOf, buildCodexRequestBody, get?_object, lookup_withPromptCacheKey env _ _ _ (by decide)]
  simp [Members.lookup_insert, Json.asArray]

theorem spells_textOr (v : Option Json) : Spells v (textOr v) := by
  cases v with
  | none => exact .inr ⟨by simp, rfl⟩
  | some v =>
    cases v with
    | string s => exact .inl rfl
    | _ => exact .inr ⟨by simp, rfl⟩

theorem spells_arguments (v : Option Json) :
    SpellsArguments env v (extractArgumentsString env v) := by
  cases v with
  | none => exact .inr (.inl ⟨.inl rfl, rfl⟩)
  | some v =>
    cases v with
    | string s => exact .inl rfl
    | null => exact .inr (.inl ⟨.inr rfl, rfl⟩)
    | _ => exact .inr (.inr ⟨_, rfl, by simp, by simp, rfl⟩)

/-- Only objects have members. -/
theorem filter_isObject_bind (v : Option Json) (k : String) :
    (v.filter Json.isObject).bind (·.get? k) = v.bind (·.get? k) := by
  cases v with
  | none => rfl
  | some v => cases v <;> rfl

theorem callEntry_spec (tc : Json) : CallEntry env tc (callEntry env tc) := by
  refine ⟨_, _, _, ?_, spells_textOr _, ?_, rfl⟩
  · rw [filter_isObject_bind]
    exact spells_textOr _
  · rw [filter_isObject_bind]
    exact spells_arguments env _

/-- The id of an answer is a text. -/
theorem answer_id {msg : Json} (answer : isAnswer msg = true) :
    roleOf msg = some "tool" ∧
      msg.get? "tool_call_id" = some (.string (textOr (msg.get? "tool_call_id"))) := by
  simp only [isAnswer, Bool.and_eq_true, decide_eq_true_eq] at answer
  refine ⟨answer.1, ?_⟩
  rcases spells_textOr (msg.get? "tool_call_id") with text | ⟨_, empty⟩
  · exact text
  · exact absurd empty answer.2

theorem spells_output (msg : Json) :
    SpellsOutput env msg (collectToolOutput env (msg.get? "content")) := by
  cases content : msg.get? "content" with
  | none => exact .inr ⟨by simp [content], by rw [content]; exact .inr (.inl ⟨.inl rfl, rfl⟩)⟩
  | some v =>
    cases v with
    | array items =>
      refine .inl ⟨⟨items, content⟩, ?_⟩
      rw [collectToolOutput, filterMap_itemText, textsOf, contentTexts, content]
    | _ => exact .inr ⟨by simp [content], by rw [content]; exact spells_arguments env _⟩

theorem outputEntry_spec {msg : Json} (answer : isAnswer msg = true) :
    OutputEntry env msg (outputEntry env msg) :=
  ⟨_, _, (answer_id answer).2, spells_output env msg, rfl⟩

/-- Where an element of a flattened list comes from. -/
theorem flatMap_split {f : α → List β} {l : List α} {xs ys : List β} {y : β}
    (split : l.flatMap f = xs ++ y :: ys) :
    ∃ before a after front back, l = before ++ a :: after ∧ f a = front ++ y :: back ∧
      xs = before.flatMap f ++ front := by
  induction l generalizing xs with
  | nil => simp at split
  | cons a l ih =>
    rw [List.flatMap_cons, List.append_eq_append_iff] at split
    rcases split with ⟨rest, same, later⟩ | ⟨back, same, later⟩
    · obtain ⟨before, b, after, front, back, rfl, inside, rfl⟩ := ih later
      exact ⟨a :: before, b, after, front, back, rfl, inside, by simp [same]⟩
    · cases back with
      | nil =>
        rw [List.nil_append] at later
        obtain ⟨before, b, after, front, back, rfl, inside, empty⟩ := @ih [] later.symm
        refine ⟨a :: before, b, after, front, back, rfl, inside, ?_⟩
        rw [List.flatMap_cons, List.append_assoc, ← empty, List.append_nil, same, List.append_nil]
      | cons z back =>
        obtain ⟨rfl, rfl⟩ := List.cons.inj later
        exact ⟨[], a, l, xs, back, rfl, same, rfl⟩

/-- The two messages that the proxy puts first are no calls and no outputs. -/
theorem filter_input (request : Json) {kind : String} (other : "message" ≠ kind) :
    (inputOf (buildCodexRequestBody env request)).filter (kindOf · = some kind) =
      (messagesOf request).flatMap fun msg =>
        (messageEntries env msg).filter (kindOf · = some kind) := by
  rw [inputOf_body, buildCodexInputMessages]
  rw [List.filter_cons_of_neg (by simp [kindOf_inputMessage, other]),
    List.filter_cons_of_neg (by simp [kindOf_inputMessage, other]), List.filter_flatMap]
  rfl

theorem functionCalls_input (request : Json) :
    functionCalls (inputOf (buildCodexRequestBody env request)) =
      ((messagesOf request).flatMap toolCallsOf).map (callEntry env) := by
  rw [functionCalls, filter_input env request (by decide), List.map_flatMap]
  exact congrArg (List.flatMap · _) (funext fun msg => (messageEntries_kinds env msg).1)

theorem functionCallOutputs_input (request : Json) :
    functionCallOutputs (inputOf (buildCodexRequestBody env request)) =
      ((messagesOf request).filter isAnswer).map (outputEntry env) := by
  rw [functionCallOutputs, filter_input env request (by decide)]
  generalize messagesOf request = messages
  induction messages with
  | nil => rfl
  | cons msg messages ih =>
    have own := (messageEntries_kinds env msg).2
    rw [functionCallOutputs] at own
    rw [List.flatMap_cons, ih, own]
    by_cases answer : isAnswer msg
    · rw [if_pos answer, List.filter_cons_of_pos answer]
      rfl
    · rw [if_neg answer, List.filter_cons_of_neg answer]
      rfl

/-- An answered request is forwarded as a paired input: the message that an output comes
from has its call in an earlier message, whose entries come earlier too. -/
theorem paired_of_answered {request : Json} (answered : Answered (messagesOf request)) :
    Paired (inputOf (buildCodexRequestBody env request)) := by
  rw [inputOf_body, buildCodexInputMessages]
  intro before entry after split output
  rcases before with _ | ⟨greeting, _ | ⟨developer, before⟩⟩
  · obtain ⟨rfl, _⟩ := List.cons.inj split
    simp [kindOf_inputMessage] at output
  · obtain ⟨rfl, _⟩ := List.cons.inj (List.cons.inj split).2
    simp [kindOf_inputMessage] at output
  · obtain ⟨earlier, msg, later, front, back, messages, inside, rfl⟩ :=
      flatMap_split (List.cons.inj (List.cons.inj split).2).2
    have listed : entry ∈ functionCallOutputs (messageEntries env msg) := by
      rw [inside]
      exact List.mem_filter.mpr ⟨by simp, by simp [output]⟩
    rw [(messageEntries_kinds env msg).2] at listed
    split at listed
    · rename_i answer
      obtain ⟨tool, id⟩ := answer_id answer
      obtain ⟨m, before, tc, called, same⟩ := answered earlier msg later messages tool _ id
      have call : callEntry env tc ∈ functionCalls (messageEntries env m) := by
        rw [(messageEntries_kinds env m).1]
        exact List.mem_map_of_mem called
      refine ⟨callEntry env tc, ?_, kindOf_callEntry env tc, ?_⟩
      · simp only [List.mem_cons, List.mem_append, List.mem_flatMap]
        exact .inr (.inr (.inl ⟨m, before, (List.mem_filter.mp call).1⟩))
      · rw [List.mem_singleton.mp listed, callId_callEntry, callId_outputEntry, same]
        rfl
    · cases listed

theorem messageEntries_spec (msg : Json) : EntriesOf env msg (messageEntries env msg) := by
  refine ⟨_, _, messageEntries_eq env msg, ?_, ?_⟩
  · rw [List.forall₂_map_right_iff, List.forall₂_same]
    exact fun tc _ => callEntry_spec env tc
  · cases answer : isAnswer msg with
    | true =>
      rw [List.filter_cons_of_pos answer, if_pos rfl]
      exact .cons (outputEntry_spec env answer) .nil
    | false =>
      rw [List.filter_cons_of_neg (by simp [answer])]
      exact .nil

/-- The forwarded input of every chat request. -/
theorem input_forwards (request : Json) :
    Forwards env request (inputOf (buildCodexRequestBody env request)) where
  entries := by
    refine ⟨(messagesOf request).map (messageEntries env), ?_, ?_⟩
    · rw [inputOf_body, buildCodexInputMessages, extractInstructions_said, ← List.flatMap_def]
      rfl
    · rw [List.forall₂_map_right_iff, List.forall₂_same]
      exact fun msg _ => messageEntries_spec env msg
  calls := by
    rw [functionCalls_input, List.forall₂_map_right_iff, List.forall₂_same]
    exact fun tc _ => callEntry_spec env tc
  outputs := by
    rw [functionCallOutputs_input, List.forall₂_map_right_iff, List.forall₂_same]
    exact fun msg member => outputEntry_spec env (List.mem_filter.mp member).2
  paired := paired_of_answered env

end CodexProxy.Request
