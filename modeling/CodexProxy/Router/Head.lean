import CodexProxy.Router.Conversation
import CodexProxy.Request.Coverage
import CodexProxy.Library.Slices
import CodexProxy.Library.ReferenceCodec

/-! The key of a conversation without a header. It is a digest of the conversation's head,
which later turns and other settings do not touch; the string that is digested tells any
two heads apart, whatever they contain. -/
namespace CodexProxy.Router
open Request Json

/-- The headers name no conversation. -/
def Unnamed (headers : HeaderMap) : Prop :=
  ∀ value text, headers.lookup HEADER_NAME = some value → headerText value = some text →
    validExplicitKey (Text.trim text) = false

/-- A chat request's messages, in one of which a user says something. -/
structure Opens (request : Json) (messages : List Json) : Prop where
  listed : request.get? "messages" = some (.array messages)
  alone : request.get? "input" = none
  speaks : ∃ msg ∈ messages, roleOf msg = some "user" ∧
    ∃ text ∈ contentTexts msg, Text.trim text ≠ ""

/-- The same conversation, later and perhaps with other settings. -/
structure Continues (messages : List Json) (request : Json) : Prop where
  alone : request.get? "input" = none
  listed : ∃ more, request.get? "messages" = some (.array (messages ++ more)) ∧
    ∀ msg ∈ more, roleOf msg ≠ some "system"

/-- The string that is digested. -/
def hashedHead (request : Json) : String :=
  headPayload (Text.trim (extractInstructions request)) (Text.trim (extractFirstUserText request))

theorem visibleItemText_isSome {item : Json} {text : String}
    (found : (item.get? "text").bind Json.asString = some text) (visible : Text.trim text ≠ "") :
    (visibleItemText item).isSome := by
  rw [visibleItemText, found, Option.filter_some, if_pos (by simpa using visible)]
  rfl

/-- A visible text of a user's message is found. -/
theorem messageUserText_isSome {msg : Json} {text : String} (user : roleOf msg = some "user")
    (said : text ∈ contentTexts msg) (visible : Text.trim text ≠ "") :
    (messageUserText msg).isSome := by
  rw [contentTexts] at said
  rw [messageUserText, if_neg (not_not.mpr user)]
  cases content : msg.get? "content" with
  | none =>
    rw [content] at said
    cases said
  | some v =>
    rw [content] at said
    cases v with
    | string t =>
      rw [List.mem_singleton.mp said] at visible
      dsimp only
      rw [if_neg visible]
      rfl
    | array items =>
      obtain ⟨item, listed, found⟩ := List.mem_filterMap.mp said
      exact List.findSome?_isSome_iff.mpr ⟨item, listed, visibleItemText_isSome found visible⟩
    | _ => cases said

/-- What is found is visible. -/
theorem messageUserText_visible {msg : Json} {text : String} (found : messageUserText msg = some text) :
    Text.trim text ≠ "" := by
  rw [messageUserText] at found
  split at found
  · cases found
  · split at found
    · obtain ⟨visible, same⟩ := Option.ite_none_left_eq_some.mp found
      rwa [← Option.some.inj same]
    · obtain ⟨item, _, inner⟩ := List.exists_of_findSome?_eq_some found
      rw [visibleItemText, Option.filter_eq_some_iff, decide_eq_true_eq] at inner
      exact inner.2
    · cases found

/-- Where the first text of a user is. -/
theorem extractFirstUserText_eq {request : Json} (alone : request.get? "input" = none) :
    extractFirstUserText request =
      (((messagesOf request).findSome? messageUserText).map replaceNames).getD "" := by
  rw [extractFirstUserText, alone]
  rfl

theorem messagesOf_eq {request : Json} {messages : List Json}
    (listed : request.get? "messages" = some (.array messages)) : messagesOf request = messages := by
  rw [messagesOf, listed]
  rfl

variable {request request' : Json} {messages : List Json}

theorem Opens.found (opens : Opens request messages) :
    ∃ text, messages.findSome? messageUserText = some text ∧ Text.trim text ≠ "" := by
  obtain ⟨msg, member, user, text, said, visible⟩ := opens.speaks
  have some : (messages.findSome? messageUserText).isSome :=
    List.findSome?_isSome_iff.mpr ⟨msg, member, messageUserText_isSome user said visible⟩
  obtain ⟨first, found⟩ := Option.isSome_iff_exists.mp some
  obtain ⟨_, _, inner⟩ := List.exists_of_findSome?_eq_some found
  exact ⟨first, found, messageUserText_visible inner⟩

/-- The head has a visible text of the user. -/
theorem Opens.firstUserText (opens : Opens request messages) :
    Text.trim (extractFirstUserText request) ≠ "" := by
  obtain ⟨text, found, visible⟩ := opens.found
  rw [extractFirstUserText_eq opens.alone, messagesOf_eq opens.listed, found, Option.map_some,
    Option.getD_some, trim_replaceNames]
  intro empty
  exact (shown_tight visible).ne_nil (congrArg String.toList empty)

/-- Appended messages change neither part of the head. -/
theorem Opens.head_eq (opens : Opens request messages) (continues : Continues messages request') :
    extractInstructions request' = extractInstructions request ∧
      extractFirstUserText request' = extractFirstUserText request := by
  obtain ⟨more, listed, quiet⟩ := continues.listed
  constructor
  · have silent : more.filterMap systemText = [] := by
      rw [List.filterMap_eq_nil_iff]
      exact fun msg member => if_pos (quiet msg member)
    rw [extractInstructions_eq, extractInstructions_eq, messagesOf_eq listed,
      messagesOf_eq opens.listed, List.filterMap_append, silent, List.append_nil]
  · obtain ⟨text, found, _⟩ := opens.found
    rw [extractFirstUserText_eq continues.alone, extractFirstUserText_eq opens.alone,
      messagesOf_eq listed, messagesOf_eq opens.listed, List.findSome?_append, found, Option.some_or]

theorem headPayload_eq (instructions firstUser : String) : headPayload instructions firstUser =
    "instructions:" ++
      (Text.lengthPrefixed instructions ++ ("\nfirst_user:" ++ Text.lengthPrefixed firstUser)) := by
  unfold headPayload Text.lengthPrefixed
  simp only [String.append_assoc]

/-- Both parts can be read off the digested string. -/
theorem headPayload_inj {instructions instructions' firstUser firstUser' : String} :
    headPayload instructions firstUser = headPayload instructions' firstUser' ↔
      instructions = instructions' ∧ firstUser = firstUser' := by
  constructor
  · intro same
    rw [headPayload_eq, headPayload_eq, String.append_right_inj] at same
    obtain ⟨left, rest⟩ := Text.lengthPrefixed_append_inj.mp same
    exact ⟨left, Text.lengthPrefixed_injective ((String.append_right_inj _).mp rest)⟩
  · rintro ⟨rfl, rfl⟩
    rfl

variable (env : Environment) {headers : HeaderMap}

/-- Without a header the key is the digest of the head. -/
theorem resolve_head (unnamed : Unnamed headers)
    (visible : Text.trim (extractFirstUserText request) ≠ "") :
    resolveConversationKey env headers request =
      some ⟨env.hashToUuid (hashedHead request), .headHash⟩ := by
  have none : (((headers.lookup HEADER_NAME).bind headerText).map Text.trim).filter
      (validExplicitKey ·) = none := by
    rw [Option.filter_eq_none_iff]
    intro key found
    obtain ⟨text, shown, rfl⟩ := Option.map_eq_some_iff.mp found
    obtain ⟨value, present, reads⟩ := Option.bind_eq_some_iff.mp shown
    rw [unnamed value text present reads]
    exact Bool.false_ne_true
  rw [resolveConversationKey, none]
  exact if_neg fun empty => visible empty.2

/-- What the systems say is trimmed already. -/
theorem systemSaid_trimmed (request : Json) :
    Text.trim (extractInstructions request) = systemSaid request := by
  rw [extractInstructions_said, systemSaid, Text.trim_trim]

/-- What the user says first is trimmed with the names in it replaced. -/
theorem Opens.userSaid_eq (opens : Opens request messages) :
    userSaid messages = some (Text.trim (extractFirstUserText request)) := by
  obtain ⟨text, found, _⟩ := opens.found
  rw [Request.userSaid_eq, extractFirstUserText_eq opens.alone, messagesOf_eq opens.listed, found,
    Option.map_some, Option.map_some, Option.getD_some, trim_replaceNames]
  rfl

/-- Every conversation that a user opens, and every later request of it. What is digested
tells two heads apart by what the systems and by what the user say in them. -/
theorem head_key (unnamed : Unnamed headers) :
    (∀ request messages, Opens request messages →
      resolveConversationKey env headers request =
          some ⟨env.hashToUuid (hashedHead request), .headHash⟩ ∧
        ∀ request', Continues messages request' →
          resolveConversationKey env headers request' =
            resolveConversationKey env headers request) ∧
    ∀ request messages request' messages', Opens request messages → Opens request' messages' →
      (hashedHead request = hashedHead request' ↔
        systemSaid request = systemSaid request' ∧ userSaid messages = userSaid messages') := by
  constructor
  · intro request messages opens
    have key := resolve_head env unnamed opens.firstUserText
    refine ⟨key, fun request' continues => ?_⟩
    obtain ⟨instructions, firstUser⟩ := opens.head_eq continues
    have visible : Text.trim (extractFirstUserText request') ≠ "" := firstUser ▸ opens.firstUserText
    rw [resolve_head env unnamed visible, key, hashedHead, hashedHead, instructions, firstUser]
  · intro request messages request' messages' opens opens'
    rw [opens.userSaid_eq, opens'.userSaid_eq, Option.some.injEq, ← systemSaid_trimmed,
      ← systemSaid_trimmed]
    exact headPayload_inj

/-- What the system says, and then a user. -/
def helloMessages : List Json :=
  [.object [("role", .string "system"), ("content", .string "Be brief.")],
    .object [("role", .string "user"), ("content", .string "Hello")]]

/-- The user says the same without a system. -/
def bareMessages : List Json := [.object [("role", .string "user"), ("content", .string "Hello")]]

def bareRequest : Json := .object [("messages", .array bareMessages)]

def helloRequest : Json := .object [("messages", .array helloMessages)]

/-- The same conversation after an answer, for another model. -/
def laterRequest : Json :=
  .object [("model", .string "gpt-5.4"), ("messages", .array (helloMessages ++
    [.object [("role", .string "assistant"), ("content", .string "Hi")]]))]

theorem hello_opens : Opens helloRequest helloMessages :=
  ⟨rfl, rfl, _, List.mem_cons_of_mem _ List.mem_cons_self, rfl, "Hello", List.mem_cons_self,
    by decide⟩

theorem bare_opens : Opens bareRequest bareMessages :=
  ⟨rfl, rfl, _, List.mem_cons_self, rfl, "Hello", List.mem_cons_self, by decide⟩

theorem later_continues : Continues helloMessages laterRequest := by
  refine ⟨rfl, _, rfl, fun msg member => ?_⟩
  rw [List.mem_singleton.mp member]
  decide

/-- A greeting and its answer have one key, and the greeting has another head without
the system. -/
theorem hello_key : resolveConversationKey ⟨JsonText.codec, "", "", id⟩ [] laterRequest =
    resolveConversationKey ⟨JsonText.codec, "", "", id⟩ [] helloRequest ∧
    hashedHead helloRequest ≠ hashedHead bareRequest := by
  have unnamed : Unnamed [] := fun value text present => nomatch present
  obtain ⟨keyed, apart⟩ := head_key ⟨JsonText.codec, "", "", id⟩ unnamed
  refine ⟨(keyed helloRequest helloMessages hello_opens).2 laterRequest later_continues, ?_⟩
  intro same
  have said := ((apart _ _ _ _ hello_opens bare_opens).mp same).1
  exact absurd said (by decide +kernel)

end CodexProxy.Router
