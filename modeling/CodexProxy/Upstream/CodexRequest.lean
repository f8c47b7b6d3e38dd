import CodexProxy.Library.HeaderValue
import CodexProxy.Router.Conversation
import CodexProxy.Upstream.BareToken

/-! The headers of a request to the upstream. The version is checked once, at startup; the
credentials are not checked at all. -/
namespace CodexProxy.Upstream
open Router

/-- How a refused text is shown (`debug`) is given. -/
def parseCodexCliVersion (debug : String → String) (raw : String) : Except String String :=
  if raw.toList.any isControl then
    .error ("codex-cli-version contains an invalid header character: " ++ debug raw)
  else if Text.trim raw = "" then .error "codex-cli-version must not be empty"
  else .ok (Text.trim raw)

/-- A random identifier in its hyphenated form. -/
structure Uuid where
  text : String
  digits : ∀ c ∈ text.toList, c = '-' ∨ '0' ≤ c ∧ c ≤ '9' ∨ 'a' ≤ c ∧ c ≤ 'f'

def userAgent (version : String) : String :=
  "codex_cli_rs/" ++ version ++ " (Mac OS 26.3.0; arm64) Apple_Terminal/466"

def turnMetadata (turn : Uuid) : String :=
  "\x7b\"turn_id\":\"" ++ turn.text ++ "\",\"sandbox\":\"none\"\x7d"

/-- None when the token cannot be cut. -/
def codexRequestHeaders (version token accountId : String) (turn session : Uuid) :
    Option (List (String × String)) :=
  (authorization token).map fun authorization =>
    [("authorization", authorization), ("version", version),
      ("openai-beta", "responses=experimental"), ("session_id", session.text),
      ("accept", "text/event-stream"), ("content-type", "application/json"),
      ("chatgpt-account-id", accountId), ("originator", "codex_cli_rs"),
      ("user-agent", userAgent version),
      ("x-codex-beta-features", "multi_agent,apps,prevent_idle_sleep"),
      ("x-codex-turn-metadata", turnMetadata turn)]

/-- A text that a header can carry. -/
def isHeaderValue (value : String) : Bool := (Text.utf8 value).all HeaderValue.allows

/-- The request is sent: no value of its headers is refused. -/
def CanSend (version token accountId : String) (turn session : Uuid) : Prop :=
  ∃ headers, codexRequestHeaders version token accountId turn session = some headers ∧
    ∀ header ∈ headers, isHeaderValue header.2 = true

theorem isHeaderValue_append (s t : String) :
    isHeaderValue (s ++ t) = (isHeaderValue s && isHeaderValue t) := by
  rw [isHeaderValue, Text.utf8_append, List.all_append, isHeaderValue, isHeaderValue]

/-- A text without control characters can be carried. -/
theorem isHeaderValue_of_visible {s : String} (visible : ∀ c ∈ s.toList, isControl c = false) :
    isHeaderValue s = true := by
  rw [isHeaderValue, HeaderValue.all_allows]
  intro c member
  have shown := visible c member
  simp only [isControl, Bool.or_eq_false_iff, Bool.and_eq_false_iff, decide_eq_false_iff_not] at shown
  right
  omega

theorem Uuid.visible (id : Uuid) : isHeaderValue id.text = true := by
  refine isHeaderValue_of_visible fun c member => ?_
  rcases id.digits c member with rfl | ⟨low, high⟩ | ⟨low, high⟩
  · rfl
  · have low' : 48 ≤ c.toNat := low
    have high' : c.toNat ≤ 57 := high
    simp only [isControl, Bool.or_eq_false_iff, Bool.and_eq_false_iff, decide_eq_false_iff_not]
    omega
  · have low' : 97 ≤ c.toNat := low
    have high' : c.toNat ≤ 102 := high
    simp only [isControl, Bool.or_eq_false_iff, Bool.and_eq_false_iff, decide_eq_false_iff_not]
    omega

theorem mem_trim {s : String} {c : Char} (member : c ∈ (Text.trim s).toList) : c ∈ s.toList := by
  obtain ⟨before, after, split, _⟩ := Text.trim_split s
  rw [split]
  exact List.mem_append_left _ (List.mem_append_right _ member)

section
variable {debug : String → String} {raw version : String}

theorem parse_ok (accepted : parseCodexCliVersion debug raw = .ok version) :
    version = Text.trim raw ∧ ∀ c ∈ raw.toList, isControl c = false := by
  unfold parseCodexCliVersion at accepted
  split at accepted
  · cases accepted
  · rename_i visible
    split at accepted
    · cases accepted
    · refine ⟨(Except.ok.inj accepted).symm, fun c member => ?_⟩
      rw [Bool.eq_false_iff]
      exact fun control => visible (List.any_eq_true.mpr ⟨c, member, control⟩)

/-- An accepted version can be carried. -/
theorem parse_sendable (accepted : parseCodexCliVersion debug raw = .ok version) :
    isHeaderValue version = true := by
  obtain ⟨rfl, visible⟩ := parse_ok accepted
  exact isHeaderValue_of_visible fun c member => visible c (mem_trim member)

end

/-- Only what is configured can be refused. -/
theorem canSend_iff (version token accountId : String) (turn session : Uuid) :
    CanSend version token accountId turn session ↔
      isHeaderValue version = true ∧ isHeaderValue accountId = true ∧
        ∃ bare, bareToken token = some bare ∧ isHeaderValue bare = true := by
  have scheme : isHeaderValue "Bearer " = true := by decide
  have product : isHeaderValue "codex_cli_rs/" = true := by decide
  have platform : isHeaderValue " (Mac OS 26.3.0; arm64) Apple_Terminal/466" = true := by decide
  have before : isHeaderValue "\x7b\"turn_id\":\"" = true := by decide
  have after : isHeaderValue "\",\"sandbox\":\"none\"\x7d" = true := by decide
  have fixed : isHeaderValue "responses=experimental" = true ∧
      isHeaderValue "text/event-stream" = true ∧ isHeaderValue "application/json" = true ∧
      isHeaderValue "codex_cli_rs" = true ∧
      isHeaderValue "multi_agent,apps,prevent_idle_sleep" = true := by decide
  have metadata : isHeaderValue (turnMetadata turn) = true := by
    rw [turnMetadata, isHeaderValue_append, isHeaderValue_append, before, turn.visible, after]
    rfl
  have agent : isHeaderValue (userAgent version) = isHeaderValue version := by
    rw [userAgent, isHeaderValue_append, isHeaderValue_append, product, platform, Bool.true_and,
      Bool.and_true]
  obtain ⟨beta, accept, content, originator, features⟩ := fixed
  cases found : bareToken token with
  | none => simp [CanSend, codexRequestHeaders, authorization, found]
  | some bare =>
    have authorized : isHeaderValue ("Bearer " ++ bare) = isHeaderValue bare := by
      rw [isHeaderValue_append, scheme, Bool.true_and]
    simp only [CanSend, codexRequestHeaders, authorization, found, Option.map_some,
      Option.some.injEq, exists_eq_left', List.forall_mem_cons, authorized, beta, session.visible,
      accept, content, originator, agent, features, metadata, List.not_mem_nil, false_imp_iff,
      implies_true, and_true, true_and]
    constructor
    · rintro ⟨token, version, account, _⟩
      exact ⟨version, account, token⟩
    · rintro ⟨version, account, token⟩
      exact ⟨token, version, account, version⟩

/-- Every configured version: one that passes at startup never makes a request unsendable,
which then depends on the credentials alone. One that no request can be sent with does not
pass. -/
theorem codex_request_sendable (debug : String → String) (raw token accountId : String)
    (turn session : Uuid) :
    (∀ version, parseCodexCliVersion debug raw = .ok version →
      (CanSend version token accountId turn session ↔ isHeaderValue accountId = true ∧
        ∃ bare, bareToken token = some bare ∧ isHeaderValue bare = true)) ∧
    ((∀ token accountId, ¬ CanSend (Text.trim raw) token accountId turn session) →
      ∃ message, parseCodexCliVersion debug raw = .error message) := by
  constructor
  · intro version accepted
    rw [canSend_iff, parse_sendable accepted, eq_self, true_and]
  · intro unsendable
    cases parsed : parseCodexCliVersion debug raw with
    | error message => exact ⟨message, rfl⟩
    | ok version =>
      refine absurd ((canSend_iff _ "" "" turn session).mpr ⟨?_, rfl, "", by decide, rfl⟩)
        (unsendable "" "")
      rw [← (parse_ok parsed).1]
      exact parse_sendable parsed

end CodexProxy.Upstream
