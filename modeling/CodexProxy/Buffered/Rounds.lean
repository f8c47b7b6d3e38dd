import CodexProxy.Buffered.Told
import CodexProxy.Request.Growth

/-! A conversation over several requests. The client puts the message of each completion
behind its messages, then the results of the calls in it, and asks again. What the backend
is told then is what it has told itself. -/
namespace CodexProxy.Buffered
open Bytes EventStream Transform Relay Polling Request

/-- The message of a completion's first choice. -/
def messageOf (response : Json) : Option Json :=
  (((response.get? "choices").bind Json.asArray).bind List.head?).bind (·.get? "message")

/-- The entry that a call is told back with. -/
def toldEntry (call : ToolCallAccumulator) : Json :=
  Json.buildObject [("type", .string "function_call"), ("name", .string call.name),
    ("call_id", .string call.id), ("arguments", .string call.arguments)]

/-- A completion as the input of a later request: its text, unless it is blank, and then
its calls. -/
def retold (c : Completion) : List Json :=
  (if Text.trim c.content = "" then []
    else [messageJson .null "assistant" "output_text" [shown c.content]]) ++
    c.toolCalls.map toldEntry

theorem messageOf_response (s : Aggregation) (model : String) (now : Int64) :
    messageOf (s.response model now) = some s.message := by
  have choices : (s.response model now).get? "choices" = some (.array [Json.buildObject
      [("index", .ofInt64 0), ("message", s.message), ("finish_reason", .string s.reason)]]) := by
    simp only [Aggregation.response, Json.get?_buildObject]
    cases s.usage <;> simp [skipNone, Json.Members.lookup_cons]
  simp [messageOf, choices, Json.get?_buildObject, Json.Members.lookup_cons]

/-- The assistant's message has no id. -/
theorem message_assistant {s : Aggregation} (role : s.role = "" ∨ s.role = "assistant") :
    roleOf s.message = some "assistant" ∧ s.message.get? "id" = none := by
  have own : firstNonEmpty s.role "assistant" = "assistant" := by
    rcases role with empty | own
    · rw [empty]
      rfl
    · rw [own]
      rfl
  simp only [roleOf, Aggregation.message, Json.get?_buildObject, own]
  by_cases calls : s.toolCalls = [] <;> by_cases reasoning : s.reasoningContent = "" <;>
    simp [calls, reasoning, Json.Members.lookup_cons]

/-- No chunk has another role. -/
theorem emits_role {t : SSETransformer} {a : Action} {c : ChatCompletionChunk}
    (emits : Emits t a c) : ∀ choice ∈ c.choices, ∀ role ∈ choice.delta.role, role = "assistant" := by
  intro choice member role given
  cases emits with
  | role | text | reasoning | start | arguments | finish =>
    rw [List.mem_singleton.mp member] at given
    first
    | exact (Option.some.inj given).symm
    | cases given

/-- The role that is accumulated. -/
def Assistant (s : Aggregation) : Prop := s.role = "" ∨ s.role = "assistant"

theorem Assistant.absorbChoice {s : Aggregation} {choice : StreamingChoice} (held : Assistant s)
    (given : ∀ role ∈ choice.delta.role, role = "assistant") : Assistant (s.absorbChoice choice) := by
  have calls (tcs : List ToolCallDelta) (s : Aggregation) :
      (tcs.foldl Aggregation.absorbToolCall s).role = s.role := by
    induction tcs generalizing s with
    | nil => rfl
    | cons tc tcs ih => exact ih _
  rw [Assistant, Aggregation.absorbChoice, calls, firstNonEmpty]
  split
  · cases present : choice.delta.role with
    | none => exact .inl rfl
    | some role => exact .inr (given role present)
  · exact held

theorem Assistant.absorb {s : Aggregation} {chunk : StreamingChunk} (held : Assistant s)
    (given : ∀ choice ∈ chunk.choices, ∀ role ∈ choice.delta.role, role = "assistant") :
    Assistant (s.absorb chunk) := by
  rw [Aggregation.absorb]
  refine List.foldlRecOn chunk.choices Aggregation.absorbChoice held ?_
  exact fun s held choice member => held.absorbChoice (given choice member)

variable (codec : Json.Codec)

/-- What a completion is made of has the role. -/
theorem absorbChunks_assistant {reads : List (List UInt8)} {ending : Ending} {model : String}
    {now : Int64} {response : Json}
    (returned : bufferChatCompletion codec reads ending model now = .ok response) :
    ∃ s, Assistant s ∧ response = s.response model now := by
  by_cases failed : ending ≠ .eof ∨ ∃ e ∈ eventsOf reads.flatten ending, rejects codec e = true
  · obtain ⟨err, result⟩ := buffer_error codec model now failed
    rw [result] at returned
    cases returned
  · obtain ⟨eof, accepted⟩ := not_or.mp failed
    simp only [ne_eq, Decidable.not_not] at eof
    subst eof
    have accepts : ∀ e ∈ eventsOf reads.flatten .eof, rejects codec e = false := by
      simpa using accepted
    rw [buffer_ok codec model now accepts, absorbChunks_eq] at returned
    refine ⟨_, ?_, (Except.ok.inj returned).symm⟩
    refine List.foldlRecOn _ Aggregation.absorb (Or.inl rfl) ?_
    intro s held chunk member
    obtain ⟨c, emitted, decoded⟩ := List.mem_filterMap.mp member
    obtain ⟨created, _, rfl⟩ := Option.map_eq_some_iff.mp decoded
    refine held.absorb fun choice given => ?_
    obtain ⟨choice', listed, rfl⟩ := List.mem_map.mp given
    obtain ⟨before, data, after, split, framed⟩ := (mem_emitted codec).mp emitted
    rw [SSETransformer.framesOf, SSETransformer.transformChunks_eq] at framed
    exact emits_role (Action.apply_emits framed) choice' listed

variable (env : Environment)

/-- A completion's message is forwarded as what the completion says. -/
theorem messageEntries_retold {response message : Json} {c : Completion}
    (presents : Presents response c) (said : messageOf response = some message)
    (assistant : roleOf message = some "assistant") (anonymous : message.get? "id" = none) :
    messageEntries env message = retold c := by
  obtain ⟨choice, message', choices, found, _, content, _, calls, _⟩ := presents
  have same : messageOf response = some message' := by
    simp [messageOf, choices, found]
  obtain rfl := Option.some.inj (said.symm.trans same)
  have entry (call : ToolCallAccumulator) :
      toolCallEntry env (presentedCall call) = some (toldEntry call) := by
    have object (ms : Json.Members) : (Json.buildObject ms).isObject = true := rfl
    simp [toolCallEntry, presentedCall, toldEntry, Json.get?_buildObject,
      Json.Members.lookup_cons, textOr, extractArgumentsString, Option.filter_some, object]
  have told : (((message.get? "tool_calls").bind Json.asArray).getD []).filterMap
      (toolCallEntry env) = c.toolCalls.map toldEntry := by
    rw [calls]
    split
    · rename_i none
      rw [none]
      rfl
    · simp [List.filterMap_map, entry]
  have text : textEntries message "assistant" "output_text" =
      if Text.trim c.content = "" then []
      else [messageJson .null "assistant" "output_text" [shown c.content]] := by
    rw [textEntries, content, anonymous]
    by_cases blank : Text.trim c.content = "" <;>
      simp [collectTextSegments, blank, shown, inputMessage, messageJson]
  rw [messageEntries, assistant, retold, ← told, ← text]
  rfl

/-- The answer of the backend to a request, and what the client puts behind it. -/
structure Round where
  reads : List (List UInt8)
  model : String
  now : Int64
  results : List Json

namespace Round

def events (round : Round) : List Event := eventsOf round.reads.flatten .eof

/-- The completion that the backend told. -/
def completion (round : Round) : Completion := told codec notPositive (round.events)

/-- The completion that the client gets, of one response whose events are numbered. -/
structure Returns (round : Round) (response : Json) : Prop where
  returned : bufferChatCompletion codec round.reads .eof round.model round.now = .ok response
  numbered : Numbered codec round.events
  one : OneResponse codec round.events
  few : (itemsSaid codec round.events).length ≤ 2 ^ 64

/-- Every result with an id answers a call of the backend's. -/
def Answers (round : Round) : Prop :=
  ∀ msg ∈ round.results, roleOf msg = some "tool" →
    ∀ id, msg.get? "tool_call_id" = some (.string id) →
      ∃ call ∈ (round.completion codec).toolCalls, call.id = id

/-- What the next request is forwarded with: the completion and the entries of the results. -/
def Retold (round : Round) (entries : List Json) : Prop :=
  ∃ own : List (List Json), entries = retold (round.completion env.codec) ++ own.flatten ∧
    List.Forall₂ (EntriesOf env) round.results own

def entries (round : Round) : List Json :=
  retold (round.completion env.codec) ++ round.results.flatMap (messageEntries env)

theorem entries_retold (round : Round) : round.Retold env (round.entries env) := by
  refine ⟨round.results.map (messageEntries env), by rw [entries, List.flatMap_def], ?_⟩
  rw [List.forall₂_map_right_iff, List.forall₂_same]
  exact fun msg _ => messageEntries_spec env msg

end Round

/-- The same request with a message and results behind its messages. -/
structure Resumes (request request' message : Json) (results : List Json) : Prop where
  settings : ∀ k ∈ CHAT_MEMBERS, k ≠ "messages" → request'.get? k = request.get? k
  messages : messagesOf request' = messagesOf request ++ message :: results
  quiet : ∀ msg ∈ results, isOf "system" msg = true → textsOf msg = []

/-- The rounds that have led from the first request to this one. -/
inductive Conversation (codec : Json.Codec) (first : Json) : List Round → Json → Prop where
  | opens : Conversation codec first [] first
  | goesOn {rounds : List Round} {round : Round} {request request' response message : Json}
      (before : Conversation codec first rounds request)
      (returns : round.Returns codec response) (said : messageOf response = some message)
      (resumes : Resumes request request' message round.results) :
      Conversation codec first (rounds ++ [round]) request'

section
variable {env}

/-- What a completion that is returned presents, and whose message it is. -/
theorem Round.Returns.presents {round : Round} {response : Json}
    (returns : round.Returns codec response) : Presents response (round.completion codec) := by
  by_cases rejected : ∃ e ∈ round.events, rejects codec e = true
  · obtain ⟨err, failed⟩ := buffer_error codec round.model round.now (.inr rejected)
    rw [returns.returned] at failed
    cases failed
  · have accepted : ∀ e ∈ round.events, rejects codec e = false := by simpa using rejected
    obtain ⟨response', returned, presents⟩ := presents_told codec round.model
      round.now accepted returns.numbered returns.one returns.few
    rw [returns.returned] at returned
    cases returned
    exact presents

theorem Round.Returns.assistant {round : Round} {response message : Json}
    (returns : round.Returns codec response) (said : messageOf response = some message) :
    roleOf message = some "assistant" ∧ message.get? "id" = none := by
  obtain ⟨s, held, rfl⟩ := absorbChunks_assistant codec returns.returned
  rw [messageOf_response] at said
  obtain rfl := Option.some.inj said
  exact message_assistant held

/-- The calls of the message are those of the completion. -/
theorem toolCallsOf_message {response message : Json} {c : Completion}
    (presents : Presents response c) (said : messageOf response = some message)
    (assistant : roleOf message = some "assistant") :
    Request.toolCallsOf message = c.toolCalls.map presentedCall := by
  obtain ⟨choice, message', choices, found, _, _, _, calls, _⟩ := presents
  have same : messageOf response = some message' := by
    simp [messageOf, choices, found]
  obtain rfl := Option.some.inj (said.symm.trans same)
  have objects : ∀ tc ∈ c.toolCalls.map presentedCall, tc.isObject = true := by
    intro tc member
    obtain ⟨call, _, rfl⟩ := List.mem_map.mp member
    rfl
  rw [Request.toolCallsOf, if_pos assistant, calls]
  split
  · rename_i none
    rw [none]
    rfl
  · exact List.filter_eq_self.mpr objects

/-- A round lets the request grow by its message and its results. -/
theorem Resumes.grows {round : Round} {request request' response message : Json}
    (resumes : Resumes request request' message round.results)
    (returns : round.Returns codec response) (said : messageOf response = some message)
    (speaks : ∃ msg ∈ messagesOf request, (messageUserText msg).isSome) :
    ChatGrows request request' (message :: round.results) where
  settings := resumes.settings
  messages := resumes.messages
  quiet := by
    rw [List.forall_mem_cons]
    refine ⟨?_, fun msg member => systemText_quiet (resumes.quiet msg member)⟩
    rw [systemText, (returns.assistant codec said).1]
    rfl
  speaks := speaks

/-- Results behind the message whose calls they answer. -/
theorem answered_append {messages results : List Json} {message : Json}
    (answered : Answered messages) (assistant : roleOf message = some "assistant")
    (answers : ∀ msg ∈ results, roleOf msg = some "tool" →
      ∀ id, msg.get? "tool_call_id" = some (.string id) →
        ∃ tc ∈ Request.toolCallsOf message, tc.get? "id" = some (.string id)) :
    Answered (messages ++ message :: results) := by
  intro before msg after split tool id named
  have other : msg ≠ message := by
    rintro rfl
    rw [assistant] at tool
    exact absurd (Option.some.inj tool) (by decide)
  rcases List.append_eq_append_iff.mp split with ⟨new, rfl, rest⟩ | ⟨old, rfl, rest⟩
  · rcases List.append_eq_cons_iff.mp rest.symm with ⟨_, same⟩ | ⟨new, rfl, rest'⟩
    · exact (other (List.cons.inj same).1).elim
    · have member : msg ∈ results := by
        rw [rest']
        simp
      exact ⟨message, by simp, answers msg member tool id named⟩
  · rcases List.append_eq_cons_iff.mp rest.symm with ⟨_, same⟩ | ⟨old, rfl, _⟩
    · exact (other (List.cons.inj same).1.symm).elim
    · exact answered before msg old rfl tool id named

end

section
variable {env} {first request : Json} {rounds : List Round}

/-- By induction on the rounds: the input grows by theirs, and a user has still spoken. -/
theorem Conversation.body (conversation : Conversation env.codec first rounds request)
    (speaks : ∃ msg ∈ messagesOf first, (messageUserText msg).isSome) :
    (inputOf (buildCodexRequestBody env request) =
        inputOf (buildCodexRequestBody env first) ++ rounds.flatMap (Round.entries env) ∧
      ∀ k, k ≠ "input" → (buildCodexRequestBody env request).get? k =
        (buildCodexRequestBody env first).get? k) ∧
      ∃ msg ∈ messagesOf request, (messageUserText msg).isSome := by
  induction conversation with
  | opens => exact ⟨⟨by simp, fun _ _ => rfl⟩, speaks⟩
  | @goesOn rounds round request request' response message _ returns said resumes ih =>
    obtain ⟨⟨input, others⟩, spoken⟩ := ih
    obtain ⟨input', others'⟩ := (resumes.grows env.codec returns said spoken).body env
    obtain ⟨assistant, anonymous⟩ := returns.assistant env.codec said
    have message_entries := messageEntries_retold env (returns.presents env.codec) said assistant
      anonymous
    refine ⟨⟨?_, fun k other => (others' k other).trans (others k other)⟩, ?_⟩
    · rw [input', input, List.flatMap_append, List.flatMap_singleton, List.flatMap_cons,
        message_entries, List.append_assoc]
      rfl
    · obtain ⟨msg, member, speaks⟩ := spoken
      exact ⟨msg, by rw [resumes.messages]; exact List.mem_append_left _ member, speaks⟩

/-- Results that answer the calls of their rounds are answers at the end. -/
theorem Conversation.answered (conversation : Conversation codec first rounds request)
    (answered : Answered (messagesOf first)) (answers : ∀ round ∈ rounds, round.Answers codec) :
    Answered (messagesOf request) := by
  induction conversation with
  | opens => exact answered
  | @goesOn rounds round request request' response message _ returns said resumes ih =>
    rw [List.forall_mem_append, List.forall_mem_singleton] at answers
    have assistant := (returns.assistant codec said).1
    rw [resumes.messages]
    refine answered_append (ih answers.1) assistant fun msg member tool id named => ?_
    obtain ⟨call, told, same⟩ := answers.2 msg member tool id named
    rw [toolCallsOf_message (returns.presents codec) said assistant]
    refine ⟨presentedCall call, List.mem_map_of_mem told, ?_⟩
    simp [presentedCall, Json.get?_buildObject, Json.Members.lookup_cons, same]

end

/-- Every conversation of any number of rounds in which a user has spoken at first: the last
request is forwarded with the first one's input and, round by round, with the text and the
calls that the backend has told and with the results for them; nothing else in the body
changes. Where the results answer calls of their rounds, every output is behind its call. -/
theorem conversation_told {first request : Json} {rounds : List Round}
    (conversation : Conversation env.codec first rounds request)
    (speaks : (userSaid (messagesOf first)).isSome) :
    (∃ told : List (List Json), List.Forall₂ (Round.Retold env) rounds told ∧
        inputOf (buildCodexRequestBody env request) =
          inputOf (buildCodexRequestBody env first) ++ told.flatten) ∧
      (∀ k, k ≠ "input" → (buildCodexRequestBody env request).get? k =
        (buildCodexRequestBody env first).get? k) ∧
      (Answered (messagesOf first) → (∀ round ∈ rounds, round.Answers env.codec) →
        Paired (inputOf (buildCodexRequestBody env request))) := by
  rw [userSaid_eq, Option.isSome_map, List.findSome?_isSome_iff] at speaks
  obtain ⟨⟨input, others⟩, _⟩ := conversation.body speaks
  refine ⟨⟨rounds.map (Round.entries env), ?_, ?_⟩, others, fun answered answers =>
    paired_of_answered env (conversation.answered env.codec answered answers)⟩
  · rw [List.forall₂_map_right_iff, List.forall₂_same]
    exact fun round _ => round.entries_retold env
  · rw [input, List.flatMap_def]

namespace Sample

/-- The result of the call that `thinkingCall` makes. -/
def listing : Json := Json.buildObject [("role", .string "tool"),
  ("tool_call_id", .string "call_fc_1"), ("content", .string "a.txt")]

def thinkingRound : Round := ⟨streamOf JsonText.codec thinkingCall, "gpt-5", 0, [listing]⟩

theorem thinkingRound_events : thinkingRound.events = thinkingCall.map JsonText.codec.toVec :=
  eventsOf_streamOf JsonText.codec thinkingCall .eof

theorem thinkingRound_returns : ∃ response message,
    thinkingRound.Returns JsonText.codec response ∧ messageOf response = some message := by
  obtain ⟨response, returned, choice, message, choices, found, _⟩ :=
    thinkingCall_presents JsonText.codec
  refine ⟨response, message, ⟨returned, ?_, ?_, ?_⟩, by simp [messageOf, choices, found]⟩
  · rw [thinkingRound_events]
    exact thinkingCall_numbered _
  · rw [thinkingRound_events]
    exact thinkingCall_one _
  · rw [thinkingRound_events]
    exact thinkingCall_few _

theorem listing_members : listing.get? "tool_call_id" = some (.string "call_fc_1") ∧
    listing.get? "content" = some (.string "a.txt") := by
  simp [listing, Json.get?_buildObject, Json.Members.lookup_cons]

theorem thinkingRound_answers : thinkingRound.Answers JsonText.codec := by
  have calls := (told_thinkingCall JsonText.codec).2
  rw [← thinkingRound_events] at calls
  intro msg member _ id named
  change msg ∈ [listing] at member
  obtain rfl := List.mem_singleton.mp member
  rw [listing_members.1, Option.some.injEq, Json.string.injEq] at named
  rw [Round.completion, calls]
  exact ⟨_, List.mem_singleton_self _, named⟩

/-- The call, and the result behind it. -/
theorem thinkingRound_retold {entries : List Json}
    (retold : thinkingRound.Retold Request.Sample.plain entries) :
    entries = [toldEntry ⟨"call_fc_1", "shell", "[]"⟩,
      Json.buildObject [("type", .string "function_call_output"), ("call_id", .string "call_fc_1"),
        ("output", .string "a.txt")]] := by
  obtain ⟨content, calls⟩ := told_thinkingCall Request.Sample.plain.codec
  have events : thinkingCall.map Request.Sample.plain.codec.toVec = thinkingRound.events :=
    thinkingRound_events.symm
  rw [events] at content calls
  obtain ⟨own, same, each⟩ := retold
  obtain ⟨turn, others, ⟨callEntries, outputs, split, called, answered⟩, none, rfl⟩ :=
    List.forall₂_cons_left_iff.mp each
  have silent : turnEntries listing = [] := by
    have user : isOf "user" listing = false := by decide
    have assistant : isOf "assistant" listing = false := by decide
    simp [turnEntries, user, assistant]
  have uncalled : Request.toolCallsOf listing = [] := if_neg (by decide)
  rw [uncalled, List.forall₂_nil_left_iff] at called
  rw [List.filter_cons_of_pos (by decide), List.filter_nil] at answered
  obtain ⟨_, _, ⟨callId, output, id, spells, rfl⟩, ⟨⟩, rfl⟩ := List.forall₂_cons_left_iff.mp answered
  rw [listing_members.1, Option.some.injEq, Json.string.injEq] at id
  have text : output = "a.txt" := by
    rcases spells with ⟨⟨items, array⟩, _⟩ | ⟨_, spelled⟩
    · rw [listing_members.2] at array
      cases array
    · rw [listing_members.2] at spelled
      rcases spelled with same | ⟨none | null, _⟩ | ⟨other, same, _, notText, _⟩
      · exact (Json.string.inj (Option.some.inj same)).symm
      · cases none
      · cases null
      · exact absurd (Option.some.inj same).symm (notText _)
  have blank : Text.trim "" = "" := by decide
  rw [same, Buffered.retold, Round.completion, content, calls, List.forall₂_nil_left_iff.mp none,
    split, silent, called, if_pos blank, ← id, text]
  rfl

theorem listing_resumes (message : Json) :
    Resumes (Request.Sample.chat [Request.Sample.question])
      (Request.Sample.chat [Request.Sample.question, message, listing]) message [listing] := by
  refine ⟨?_, rfl, ?_⟩
  · simp [CHAT_MEMBERS, Request.Sample.chat, Json.Members.lookup_cons]
  · simp only [List.mem_singleton, forall_eq]
    decide

end Sample

/-- A question, a call and its result. -/
theorem conversation_told_listing : ∃ request,
    inputOf (buildCodexRequestBody Request.Sample.plain request) =
      inputOf (buildCodexRequestBody Request.Sample.plain
        (Request.Sample.chat [Request.Sample.question])) ++
        [toldEntry ⟨"call_fc_1", "shell", "[]"⟩,
          Json.buildObject [("type", .string "function_call_output"),
            ("call_id", .string "call_fc_1"), ("output", .string "a.txt")]] ∧
    Paired (inputOf (buildCodexRequestBody Request.Sample.plain request)) := by
  obtain ⟨response, message, returns, said⟩ := Sample.thinkingRound_returns
  have fresh : Conversation JsonText.codec (Request.Sample.chat [Request.Sample.question]) []
    (Request.Sample.chat [Request.Sample.question]) := .opens
  have conversation := fresh.goesOn returns said (Sample.listing_resumes message)
  obtain ⟨⟨told, retold, input⟩, _, paired⟩ := conversation_told Request.Sample.plain conversation
    (by decide)
  refine ⟨_, ?_, paired ?_ ?_⟩
  · obtain ⟨entries, _, here, ⟨⟩, rfl⟩ := List.forall₂_cons_left_iff.mp retold
    rw [input, List.flatten_singleton, Sample.thinkingRound_retold here]
  · intro before msg after split tool
    have question : msg = Request.Sample.question := by
      have member : msg ∈ messagesOf (Request.Sample.chat [Request.Sample.question]) := by
        rw [split]
        simp
      exact List.mem_singleton.mp member
    rw [question] at tool
    exact absurd tool (by decide)
  · rw [List.nil_append, List.forall_mem_singleton]
    exact Sample.thinkingRound_answers

end CodexProxy.Buffered
