import CodexProxy.Transform.Wire
import CodexProxy.Library.Checked
import CodexProxy.Library.ReferenceCodec

/-! The token counts of a completed response. The sum of the counts is the fallback for a
total, but it is computed before it is known whether it is needed, so that counts whose sum
overflows spoil a payload that reports its total. -/
namespace CodexProxy.Transform
open SSETransformer Json.Decode

/-- None when the sum overflows; the argument of the fallback is evaluated first. -/
def Usage.withTotalChecked (promptTokens completionTokens : Int64) (total : Option Int64) :
    Option Usage :=
  (Checked.add promptTokens completionTokens).map fun sum =>
    { promptTokens, completionTokens, totalTokens := total.getD sum }

/-- The OpenAI spelling has precedence. -/
def UpstreamUsage.prompt (u : UpstreamUsage) : Int64 := (u.promptTokens.or u.inputTokens).getD 0

def UpstreamUsage.completion (u : UpstreamUsage) : Int64 :=
  (u.completionTokens.or u.outputTokens).getD 0

def UpstreamUsage.cached (u : UpstreamUsage) : Option Int64 :=
  (u.promptTokensDetails.bind (·.cachedTokens)).or (u.inputTokensDetails.bind (·.cachedTokens))

def UpstreamUsage.reasoning (u : UpstreamUsage) : Option Int64 :=
  (u.completionTokensDetails.bind (·.reasoningTokens)).or
    (u.outputTokensDetails.bind (·.reasoningTokens))

/-- The conversion in a build that checks for overflow. -/
def UpstreamUsage.toOpenaiChecked (u : UpstreamUsage) : Option Usage :=
  (Usage.withTotalChecked u.prompt u.completion u.totalTokens).map fun usage =>
    { usage with
      promptTokensDetails := u.cached.map PromptTokensDetails.mk
      completionTokensDetails := u.reasoning.map CompletionTokensDetails.mk }

/-- A count that is reported in either place. -/
def Reported (one other : Option Int64) (n : Int64) : Prop := one = some n ∨ other = some n

/-- The usage that a payload's counts call for. -/
structure Accounts (u : UpstreamUsage) (usage : Usage) : Prop where
  reported : ∀ n, u.totalTokens = some n → usage.totalTokens = n
  summed : u.totalTokens = none →
    usage.totalTokens.toInt = usage.promptTokens.toInt + usage.completionTokens.toInt
  cached : usage.promptTokensDetails.isSome ↔
    ∃ n, Reported (u.promptTokensDetails.bind (·.cachedTokens))
      (u.inputTokensDetails.bind (·.cachedTokens)) n
  cachedCount : ∀ d, usage.promptTokensDetails = some d →
    Reported (u.promptTokensDetails.bind (·.cachedTokens))
      (u.inputTokensDetails.bind (·.cachedTokens)) d.cachedTokens
  reasoning : usage.completionTokensDetails.isSome ↔
    ∃ n, Reported (u.completionTokensDetails.bind (·.reasoningTokens))
      (u.outputTokensDetails.bind (·.reasoningTokens)) n
  reasoningCount : ∀ d, usage.completionTokensDetails = some d →
    Reported (u.completionTokensDetails.bind (·.reasoningTokens))
      (u.outputTokensDetails.bind (·.reasoningTokens)) d.reasoningTokens

variable (codec : Json.Codec)

/-- A payload's usage is emitted as it calls for, and no addition overflows on the way. -/
def ExactUsage (t : SSETransformer) (data : List UInt8) (u : UpstreamUsage) : Prop :=
  ∃ chunk usage, t.transform codec data = (t, .ok (.emitted [frame codec chunk])) ∧
    chunk.usage = some usage ∧ u.toOpenaiChecked = some usage ∧ Accounts u usage

theorem fits_of_computed {u : UpstreamUsage} {usage : Usage}
    (computed : u.toOpenaiChecked = some usage) :
    Checked.Fits (u.prompt.toInt + u.completion.toInt) := by
  obtain ⟨_, total, _⟩ := Option.map_eq_some_iff.mp computed
  obtain ⟨sum, added, _⟩ := Option.map_eq_some_iff.mp total
  rw [Checked.add] at added
  exact Checked.ofInt_isSome.mp (by rw [added]; rfl)

/-- Without overflow both builds compute the same. -/
theorem toOpenaiChecked_eq {u : UpstreamUsage}
    (fits : Checked.Fits (u.prompt.toInt + u.completion.toInt)) :
    u.toOpenaiChecked = some u.toOpenai := by
  have added : Checked.add u.prompt u.completion = some (u.prompt + u.completion) :=
    Checked.ofInt_eq_some.mpr (Checked.add_of_fits fits)
  rw [UpstreamUsage.toOpenaiChecked, Usage.withTotalChecked, added]
  rfl

/-- One place or the other. -/
theorem reported_or {one other : Option Int64} :
    (∃ n, Reported one other n) ↔ (one.or other).isSome := by
  cases one with
  | some n => exact iff_of_true ⟨n, .inl rfl⟩ rfl
  | none =>
    rw [Option.none_or, Option.isSome_iff_exists]
    exact exists_congr fun n => or_iff_right (fun none => nomatch none)

theorem reported_of_or {one other : Option Int64} (found : one.or other = some n) :
    Reported one other n := by
  rcases Option.or_eq_some_iff.mp found with first | ⟨_, second⟩
  · exact .inl first
  · exact .inr second

/-- Without overflow the wrapping conversion is right. -/
theorem toOpenai_accounts {u : UpstreamUsage}
    (fits : Checked.Fits (u.prompt.toInt + u.completion.toInt)) : Accounts u u.toOpenai where
  reported n total := by
    simp only [UpstreamUsage.toOpenai, Usage.withTotal, total, Option.getD_some]
  summed missing := by
    simp only [UpstreamUsage.toOpenai, Usage.withTotal, missing, Option.getD_none]
    exact Checked.add_of_fits fits
  cached := by
    rw [reported_or]
    simp only [UpstreamUsage.toOpenai, Option.isSome_map]
  cachedCount d found := by
    obtain ⟨n, count, rfl⟩ := Option.map_eq_some_iff.mp found
    exact reported_of_or count
  reasoning := by
    rw [reported_or]
    simp only [UpstreamUsage.toOpenai, Option.isSome_map]
  reasoningCount d found := by
    obtain ⟨n, count, rfl⟩ := Option.map_eq_some_iff.mp found
    exact reported_of_or count

/-- Every payload with a usage, in every state: the emitted usage is exact if and only if the
sum of the counts fits, which it must even when a total is reported. -/
theorem exactUsage_iff (t : SSETransformer) {data : List UInt8} {e : EventEnvelope}
    {u : UpstreamUsage} (event : classify codec data = .event e)
    (completed : e.eventType = "response.completed")
    (accepted : CompletedPayload.decode e.extra = some ⟨⟨some u⟩⟩) :
    ExactUsage codec t data u ↔ Checked.Fits (u.prompt.toInt + u.completion.toInt) := by
  have denotes : interpret codec data = .finish e.sequenceNumber u.toOpenai := by
    rw [interpret, event]
    simp only [interpretEvent, completed]
    rw [if_neg (by decide), interpretCompleted, accepted]
    rfl
  constructor
  · rintro ⟨_, usage, _, _, computed, _⟩
    exact fits_of_computed computed
  · intro fits
    rw [ExactUsage, transform_eq, denotes]
    exact ⟨_, u.toOpenai, rfl, rfl, toOpenaiChecked_eq fits, toOpenai_accounts fits⟩

/-- The last event of a response, with two counts and a total. -/
def countedEvent (prompt completion total : Int64) : Json :=
  .object [("type", .string "response.completed"), ("response", .object [("usage", .object
    [("prompt_tokens", .ofInt64 prompt), ("completion_tokens", .ofInt64 completion),
      ("total_tokens", .ofInt64 total)])])]

def countedEnvelope (prompt completion total : Int64) : EventEnvelope :=
  ⟨"response.completed", none, .object [("response", .object [("usage", .object
    [("completion_tokens", .ofInt64 completion), ("prompt_tokens", .ofInt64 prompt),
      ("total_tokens", .ofInt64 total)])])]⟩

def countedUsage (prompt completion total : Int64) : UpstreamUsage :=
  ⟨some prompt, some completion, some total, none, none, none, none, none, none⟩

theorem countedEvent_decodes (prompt completion total : Int64) :
    EventEnvelope.decode (countedEvent prompt completion total) =
        some (countedEnvelope prompt completion total) ∧
      CompletedPayload.decode (countedEnvelope prompt completion total).extra =
        some ⟨⟨some (countedUsage prompt completion total)⟩⟩ := by
  have count (n : Int64) : nullable Json.asInt64 (.ofInt64 n) = some (some n) := by
    change (Json.asInt64 (.ofInt64 n)).map some = _
    rw [Json.asInt64_ofInt64, Option.map_some]
  have usage : UpstreamUsage.decode (.object [("completion_tokens", .ofInt64 completion),
      ("prompt_tokens", .ofInt64 prompt), ("total_tokens", .ofInt64 total)]) =
      some (countedUsage prompt completion total) := by
    rw [UpstreamUsage.decode, record_object (by simp)]
    simp [Json.Members.lookup_cons, count]
    rfl
  constructor
  · rfl
  · rw [countedEnvelope, CompletedPayload.decode, record_object (by simp)]
    simp only [Option.bind_eq_bind, Option.bind_some, Json.Members.lookup_cons, if_true,
      defaulted_some, CompletedResponse.decode]
    rw [record_object (by simp)]
    simp only [Option.bind_some, Json.Members.lookup_cons, if_true,
      defaulted_some, nullable_object, usage]
    rfl

/-- Counts that fit. -/
theorem exactUsage_small : ExactUsage JsonText.codec (SSETransformer.new "gpt-5")
    (JsonText.codec.toVec (countedEvent 3 4 7)) (countedUsage 3 4 7) := by
  obtain ⟨decoded, accepted⟩ := countedEvent_decodes 3 4 7
  have portable : (countedEvent 3 4 7).Portable := by decide
  have event := classify_toVec JsonText.codec portable
  rw [decoded] at event
  have fits : Checked.Fits
      ((countedUsage 3 4 7).prompt.toInt + (countedUsage 3 4 7).completion.toInt) := by decide
  exact (exactUsage_iff JsonText.codec _ event rfl accepted).mpr fits

/-- The largest count and one more: the sum overflows although the total is reported. -/
theorem usage_overflows : ¬ ∀ (codec : Json.Codec) (t : SSETransformer) (data : List UInt8)
    (e : EventEnvelope) (u : UpstreamUsage), classify codec data = .event e →
      e.eventType = "response.completed" →
      CompletedPayload.decode e.extra = some ⟨⟨some u⟩⟩ → ExactUsage codec t data u := by
  intro exact
  obtain ⟨decoded, accepted⟩ := countedEvent_decodes Int64.maxValue 1 5
  have portable : (countedEvent Int64.maxValue 1 5).Portable := by decide
  have event := classify_toVec JsonText.codec portable
  rw [decoded] at event
  obtain ⟨_, usage, _, _, computed, _⟩ :=
    exact JsonText.codec (SSETransformer.new "gpt-5") _ _ _ event rfl accepted
  exact absurd (fits_of_computed computed) (by decide)

end CodexProxy.Transform
