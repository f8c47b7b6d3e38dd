import CodexProxy.Credentials.Rotation
import CodexProxy.Credentials.Handling

/-! What one answer of the token endpoint comes to: when the new token is due again, which
refresh token is kept, and what a provider that does not rotate leaves in the file. -/
namespace CodexProxy.Credentials
open Transition

theorem saturate_toInt (n : Int) : (saturate n).toInt = max (-2 ^ 63) (min n (2 ^ 63 - 1)) :=
  Int64.toInt_ofInt_of_le (by omega) (by omega)

theorem tokenExpired_iff (expiresAtMs nowMs : Int64) : tokenExpired expiresAtMs nowMs = false ↔
    nowMs.toInt < (expiresAtMs.toInt - 3600000).bmod (2 ^ 64) := by
  have buffer : TOKEN_EXPIRY_BUFFER_MS.toInt = 3600000 := by decide
  rw [tokenExpired, decide_eq_false_iff_not, ge_iff_le, Int64.le_iff_toInt_le, Int64.toInt_sub,
    buffer, not_le]

/-- The lifetime is longer than the buffer and the clock is not about to run out. Close to
the smallest clock value the subtraction of the buffer wraps. -/
def Lasts (nowMs expiresInSecs : Int64) : Prop :=
  3600 < expiresInSecs.toInt ∧ nowMs.toInt < 2 ^ 63 - 1 - 3600000 ∨
    nowMs.toInt + 1000 * expiresInSecs.toInt < -2 ^ 63 + 3600000

theorem tokenExpired_fresh {nowMs expiresInSecs : Int64} (positive : 0 < expiresInSecs) :
    tokenExpired (saturatingAdd nowMs (saturatingMul expiresInSecs 1000)) nowMs = false ↔
      Lasts nowMs expiresInSecs := by
  have thousand : (1000 : Int64).toInt = 1000 := by decide
  have lower := nowMs.le_toInt
  have upper := nowMs.toInt_lt
  have longest := expiresInSecs.toInt_lt
  have ahead : 0 < expiresInSecs.toInt := by simpa using Int64.lt_iff_toInt_lt.mp positive
  rw [tokenExpired_iff, Lasts, saturatingAdd, saturatingMul, saturate_toInt, saturate_toInt, thousand]
  generalize nowMs.toInt = now at *
  generalize expiresInSecs.toInt = secs at *
  have wraps : ∀ n : Int, -2 ^ 63 ≤ n → n < 2 ^ 63 → (n - 3600000).bmod (2 ^ 64) =
      if n < -2 ^ 63 + 3600000 then n - 3600000 + 2 ^ 64 else n - 3600000 := by
    intro n _ _
    rw [Int.bmod_def]
    split <;> omega
  rw [wraps _ (by omega) (by omega)]
  split <;> omega

/-- What `expires_at_from` accepts, and what it makes of it. -/
theorem expiresAtFrom_eq_ok {nowMs expiresInSecs expiresAtMs : Int64} :
    expiresAtFrom nowMs expiresInSecs = .ok expiresAtMs ↔
      0 < expiresInSecs ∧ saturatingAdd nowMs (saturatingMul expiresInSecs 1000) = expiresAtMs := by
  rw [expiresAtFrom]
  split
  · rename_i short
    simp [Int64.not_lt.mpr short]
  · rename_i long
    simp [Int64.not_le.mp long]

/-- The token in the file is not due, and the next `get_credentials` asks for none. -/
structure System.Quiet (codec : Json.Codec) (nowMs : Int64) (s : System) : Prop where
  fresh : ∃ creds, readFile codec s.file = .ok creds ∧ tokenExpired creds.expiresAtMs nowMs = false
  unasked : ∀ t s', s.tasks t = .locking (.refresher .getCredentials) →
    Run (step codec) (fun s a => Alone t s a ∧ ∀ clock failure, a = .read t clock failure →
      clock = nowMs) s s' → s'.presented = s.presented

section
variable {codec : Json.Codec} {s s' : System} {t : Nat} {op : Refresher} {creds : OAuthCredentials}
  {auth : FsAuth} {answer : TokenAnswer} {parsed : TokenRefreshResponse}
  {readMs nowMs expiresAtMs : Int64}

/-- Where a `get_credentials` is that finds a token which is not due. -/
def Phase.Spared : Phase → Prop
  | .locking op => op = .refresher .getCredentials
  | .reading op => op = .getCredentials
  | .done _ => True
  | _ => False

theorem Phase.Spared.step (stored : readFile codec s.file = .ok creds)
    (fresh : tokenExpired creds.expiresAtMs nowMs = false) (spared : (s.tasks t).Spared)
    {a : Action} (alone : Alone t s a) (clocked : ∀ clock failure, a = .read t clock failure →
      clock = nowMs) (taken : Credentials.step codec s a = some s') :
    (s'.tasks t).Spared ∧ s'.file = s.file ∧ s'.presented = s.presented := by
  rcases alone.step taken with moves | ⟨tasks, file, presented⟩
  case inr =>
    rw [tasks]
    exact ⟨spared, file, presented⟩
  cases step_spec codec taken with
  | acquire _ here =>
    obtain rfl := moves
    rw [here] at spared
    obtain rfl := spared
    rw [System.proceed_tasks_here]
    exact ⟨rfl, rfl, rfl⟩
  | @read _ op clock failure here =>
    obtain rfl := moves
    obtain rfl := clocked clock failure rfl
    rw [here] at spared
    obtain rfl := spared
    have ends : ∃ outcome, afterRead .getCredentials clock
        ((contents codec s.file failure).bind FsAuth.credentials) = .done outcome := by
      cases failure with
      | some => exact ⟨_, rfl⟩
      | none =>
        rw [show (contents codec s.file none).bind FsAuth.credentials = .ok creds from stored]
        simp only [afterRead, Refresher.fresh, fresh, Bool.false_eq_true, if_false]
        exact ⟨_, rfl⟩
    obtain ⟨outcome, ends⟩ := ends
    rw [System.proceed_tasks_here, ends]
    exact ⟨trivial, rfl, rfl⟩
  | readFull here | reread here | answer here | deliver here | losePost here | loseAnswer here
  | dispatch here | rename here | finish here | failSync here =>
    obtain rfl := moves
    rw [here] at spared
    exact spared.elim
  | failWrite here =>
    obtain rfl := moves
    rcases here with here | here
    all_goals
      rw [here] at spared
      exact spared.elim
  | start | dropWaiting | dropPost | dropRename | drop | orphanAnswer | orphanRename =>
    exact moves.elim

/-- A token that is not due keeps the endpoint out of it. -/
theorem System.Quiet.of_fresh (stored : readFile codec s.file = .ok creds)
    (fresh : tokenExpired creds.expiresAtMs nowMs = false) : s.Quiet codec nowMs := by
  refine ⟨⟨creds, stored, fresh⟩, ?_⟩
  intro t s' waits reached
  have spared : (s'.tasks t).Spared ∧ s'.file = s.file ∧ s'.presented = s.presented := by
    induction reached with
    | here => exact ⟨by rw [waits]; rfl, rfl, rfl⟩
    | step _ allowed taken ih =>
      obtain ⟨spared, file, presented⟩ := ih
      obtain ⟨spared', file', presented'⟩ :=
        spared.step (file.symm ▸ stored) fresh allowed.1 allowed.2 taken
      exact ⟨spared', file'.trans file, presented'.trans presented⟩
  exact spared.2.2

/-- Tokens that are taken up are in the file when the call returns. -/
theorem Ready.renewed (ready : Ready codec t op creds auth readMs s)
    (taken : refreshToken codec answer = .ok parsed)
    (accepted : expiresAtFrom nowMs parsed.expiresIn = .ok expiresAtMs)
    (reached : Run (step codec) (Handling t answer readMs nowMs) s s') {outcome : Outcome}
    (returned : s'.tasks t = .done outcome) :
    s'.file = some ((auth.updateTokens parsed.accessToken
      (rotatedToken auth.tokens.refreshToken parsed.refreshToken) expiresAtMs).toVecPretty codec) := by
  have tokens : newTokens codec answer nowMs = .ok (parsed, expiresAtMs) := by
    rw [newTokens, taken]
    simp only [bind, Except.bind, accepted, pure, Except.pure]
  rw [ready.left reached returned, leaves, tokens]

/-- After a refresh with an accepted lifetime the endpoint is left alone exactly when the
lifetime is longer than the buffer. -/
theorem refreshed_quiet_iff (ready : Ready codec t op creds auth readMs s)
    (taken : refreshToken codec answer = .ok parsed)
    (accepted : expiresAtFrom nowMs parsed.expiresIn = .ok expiresAtMs)
    (reached : Run (step codec) (Handling t answer readMs nowMs) s s') {outcome : Outcome}
    (returned : s'.tasks t = .done outcome) :
    s'.Quiet codec nowMs ↔ Lasts nowMs parsed.expiresIn := by
  have stored : readFile codec s'.file = .ok ⟨parsed.accessToken,
      rotatedToken auth.tokens.refreshToken parsed.refreshToken, expiresAtMs, creds.userId⟩ := by
    rw [ready.renewed taken accepted reached returned, readFile_written]
    exact FsAuth.credentials_updateTokens ready.stored (refreshToken_nonempty taken) _ _
  obtain ⟨positive, rfl⟩ := expiresAtFrom_eq_ok.mp accepted
  rw [← tokenExpired_fresh positive]
  constructor
  · intro quiet
    obtain ⟨creds', stored', fresh⟩ := quiet.fresh
    cases stored.symm.trans stored'
    exact fresh
  · intro fresh
    exact .of_fresh stored fresh

end

namespace Sample
variable (codec : Json.Codec)

def nowMs : Int64 := 1700000000000

/-- A call waits for the mutex. -/
def waits (op : Refresher) : System := (start codec).put 0 (.locking (.refresher op))

theorem ready (op : Refresher) : Ready codec 0 op creds auth nowMs (waits codec op) where
  free := rfl
  waits := System.put_tasks_here ..
  raw := by simp only [waits, System.put, start, readRaw, FsAuth.fromSlice_toVecPretty]
  stored := rfl
  due := Refresher.fresh_due (by decide)

def tokens (accessToken : String) (expiresInSecs : Int64) : Json.Members :=
  [("access_token", .string accessToken), ("refresh_token", .string "refresh-1"),
    ("expires_in", .ofInt64 expiresInSecs)]

def success (members : Json.Members) : TokenAnswer :=
  .granted "refresh-1" (codec.toVec (.object members))

theorem tokens_read (accessToken : String) (expiresInSecs : Int64) :
    (codec.read (codec.toVec (.object (tokens accessToken expiresInSecs)))).bind
      TokenRefreshResponse.decode = some ⟨accessToken, "refresh-1", expiresInSecs⟩ := by
  have within : (Json.object (tokens accessToken expiresInSecs)).Within 1 := by simp [tokens]
  rw [codec.read_toVec (within.portable (by decide)), Option.bind_some,
    TokenRefreshResponse.decode, Json.Decode.record_object (by simp [tokens])]
  simp [tokens, Json.Decode.required, Json.Members.lookup_cons]

theorem tokens_taken (expiresInSecs : Int64) :
    refreshToken codec (success codec (tokens "access-1" expiresInSecs)) =
      .ok ⟨"access-1", "refresh-1", expiresInSecs⟩ := by
  simp only [refreshToken, success, tokens_read]
  simp

end Sample

theorem refreshed_quiet_iff_days : ∃ s' outcome, Run (step JsonText.codec)
    (Handling 0 (Sample.success JsonText.codec (Sample.tokens "access-1" 864000)) Sample.nowMs
      Sample.nowMs) (Sample.waits JsonText.codec .getCredentials) s' ∧
    s'.tasks 0 = .done outcome ∧ s'.Quiet JsonText.codec Sample.nowMs := by
  have ready := Sample.ready JsonText.codec .getCredentials
  obtain ⟨s', outcome, reached, returned⟩ := ready.returns _ Sample.nowMs
  have accepted : expiresAtFrom Sample.nowMs 864000 = .ok 1700864000000 := by rfl
  exact ⟨s', outcome, reached, returned, (refreshed_quiet_iff ready (Sample.tokens_taken _ _) accepted
    reached returned).mpr (.inl ⟨by decide, by decide⟩)⟩

/-- A lifetime of an hour is accepted, and the token is due again at once. -/
theorem hour_not_quiet : ∃ s' outcome, Run (step JsonText.codec)
    (Handling 0 (Sample.success JsonText.codec (Sample.tokens "access-1" 3600)) Sample.nowMs
      Sample.nowMs) (Sample.waits JsonText.codec .getCredentials) s' ∧
    s'.tasks 0 = .done outcome ∧ expiresAtFrom Sample.nowMs 3600 = .ok 1700003600000 ∧
    readFile JsonText.codec s'.file = .ok ⟨"access-1", "refresh-1", 1700003600000, "account"⟩ ∧
    tokenExpired 1700003600000 Sample.nowMs = true ∧ ¬ s'.Quiet JsonText.codec Sample.nowMs := by
  have ready := Sample.ready JsonText.codec .getCredentials
  obtain ⟨s', outcome, reached, returned⟩ := ready.returns _ Sample.nowMs
  have accepted : expiresAtFrom Sample.nowMs 3600 = .ok 1700003600000 := by rfl
  have stored : readFile JsonText.codec s'.file =
      .ok ⟨"access-1", "refresh-1", 1700003600000, "account"⟩ := by
    rw [ready.renewed (Sample.tokens_taken _ _) accepted reached returned, readFile_written]
    rfl
  refine ⟨s', outcome, reached, returned, accepted, stored, by decide, fun quiet => ?_⟩
  obtain ⟨creds, stored', fresh⟩ := quiet.fresh
  cases stored.symm.trans stored'
  exact absurd fresh (by decide)

section
variable {codec : Json.Codec} {s s' : System} {t : Nat} {op : Refresher} {creds : OAuthCredentials}
  {auth : FsAuth} {parsed : TokenRefreshResponse} {readMs nowMs : Int64}

/-- An answer that is not taken up leaves the file alone. -/
theorem Ready.kept (ready : Ready codec t op creds auth readMs s) {answer : TokenAnswer}
    {error : CredentialsError} (refused : newTokens codec answer nowMs = .error error)
    (reached : Run (step codec) (Handling t answer readMs nowMs) s s') {outcome : Outcome}
    (returned : s'.tasks t = .done outcome) : s'.file = s.file := by
  rw [ready.left reached returned, leaves, refused]

theorem Ready.storedToken (ready : Ready codec t op creds auth readMs s) :
    Credentials.storedToken codec s.file = some auth.tokens.refreshToken := by
  rw [← FsAuth.credentials_refreshToken ready.stored]
  refine storedToken_of_readFile codec ?_
  rw [readFile, ready.raw]
  exact ready.stored

/-- A response that decodes is taken up exactly when it has an access token and a
positive lifetime. -/
theorem newTokens_decoded (issued : String) {body : List UInt8}
    (decoded : (codec.read body).bind TokenRefreshResponse.decode = some parsed) (nowMs : Int64) :
    if parsed.accessToken ≠ "" ∧ 0 < parsed.expiresIn then
      refreshToken codec (.granted issued body) = .ok parsed ∧ expiresAtFrom nowMs parsed.expiresIn =
        .ok (saturatingAdd nowMs (saturatingMul parsed.expiresIn 1000))
    else ∃ error, newTokens codec (.granted issued body) nowMs = .error error := by
  have answered : refreshToken codec (.granted issued body) = if parsed.accessToken = "" then
      .error (.refresh "token endpoint returned an empty access_token") else .ok parsed := by
    simp only [refreshToken, decoded]
  by_cases empty : parsed.accessToken = ""
  · rw [if_neg (fun whole => whole.1 empty), newTokens, answered, if_pos empty]
    exact ⟨_, rfl⟩
  rw [if_neg empty] at answered
  by_cases positive : 0 < parsed.expiresIn
  · rw [if_pos ⟨empty, positive⟩]
    exact ⟨answered, expiresAtFrom_eq_ok.mpr ⟨positive, rfl⟩⟩
  · rw [if_neg (fun whole => positive whole.2), newTokens, answered]
    simp only [bind, Except.bind, expiresAtFrom, if_pos (Int64.not_lt.mp positive)]
    exact ⟨_, rfl⟩

theorem newTokens_undecoded (issued : String) {body : List UInt8}
    (undecoded : (codec.read body).bind TokenRefreshResponse.decode = none) (nowMs : Int64) :
    ∃ error, newTokens codec (.granted issued body) nowMs = .error error := by
  simp only [newTokens, refreshToken, undecoded]
  exact ⟨_, rfl⟩

/-- The refresh token of a response is stored exactly when the response is not rejected
for its access token or its lifetime, or is the stored token already. -/
theorem rotated_token_stored_iff (ready : Ready codec t op creds auth readMs s) {issued : String}
    {body : List UInt8} (decoded : (codec.read body).bind TokenRefreshResponse.decode = some parsed)
    (rotated : parsed.refreshToken ≠ "")
    (reached : Run (step codec) (Handling t (.granted issued body) readMs nowMs) s s')
    {outcome : Outcome} (returned : s'.tasks t = .done outcome) :
    storedToken codec s'.file = some parsed.refreshToken ↔
      parsed.accessToken ≠ "" ∧ 0 < parsed.expiresIn ∨
        parsed.refreshToken = auth.tokens.refreshToken := by
  have handled := newTokens_decoded issued decoded nowMs
  split at handled
  · rename_i whole
    obtain ⟨taken, accepted⟩ := handled
    rw [ready.renewed taken accepted reached returned, storedToken_written, FsAuth.updateTokens,
      rotatedToken, if_neg rotated]
    exact iff_of_true rfl (.inl whole)
  · rename_i broken
    obtain ⟨error, refused⟩ := handled
    rw [ready.kept refused reached returned, ready.storedToken, Option.some.injEq, eq_comm]
    simp only [broken, false_or]

end

theorem rotated_token_stored_iff_hour : ∃ s' outcome, Run (step JsonText.codec)
    (Handling 0 (Sample.success JsonText.codec (Sample.tokens "access-1" 3600)) Sample.nowMs
      Sample.nowMs) (Sample.waits JsonText.codec .refreshCredentials) s' ∧
    s'.tasks 0 = .done outcome ∧ storedToken JsonText.codec s'.file = some "refresh-1" := by
  have ready := Sample.ready JsonText.codec .refreshCredentials
  obtain ⟨s', outcome, reached, returned⟩ := ready.returns _ Sample.nowMs
  exact ⟨s', outcome, reached, returned, (rotated_token_stored_iff ready (Sample.tokens_read _ _ _)
    (by decide) reached returned).mpr (.inl ⟨by decide, by decide⟩)⟩

/-- A refresh is answered with these members, which issue another token, and leaves the old
token in the file. -/
def Sample.Loses (codec : Json.Codec) (members : Json.Members) : Prop :=
  (∃ parsed, (codec.read (codec.toVec (.object members))).bind TokenRefreshResponse.decode =
    some parsed ∧ parsed.refreshToken = "refresh-1") ∧
  ∃ s' outcome, Run (step codec) (Handling 0 (success codec members) nowMs nowMs)
    (waits codec .refreshCredentials) s' ∧
  s'.tasks 0 = .done outcome ∧ storedToken codec s'.file = some "refresh-0"

theorem Sample.loses (codec : Json.Codec) {accessToken : String} {expiresInSecs : Int64}
    (broken : ¬ (accessToken ≠ "" ∧ 0 < expiresInSecs)) :
    Loses codec (tokens accessToken expiresInSecs) := by
  have ready := ready codec .refreshCredentials
  have read := tokens_read codec accessToken expiresInSecs
  have handled := newTokens_decoded "refresh-1" read nowMs
  rw [if_neg broken] at handled
  obtain ⟨error, refused⟩ := handled
  obtain ⟨s', outcome, reached, returned⟩ := ready.returns
    (success codec (tokens accessToken expiresInSecs)) nowMs
  refine ⟨⟨_, read, rfl⟩, s', outcome, reached, returned, ?_⟩
  rw [ready.kept refused reached returned, ready.storedToken]
  rfl

/-- A lifetime of zero and an empty access token each cost the rotated token. -/
theorem rejected_token_lost : Sample.Loses JsonText.codec (Sample.tokens "access-1" 0) ∧
    Sample.Loses JsonText.codec (Sample.tokens "" 3600) :=
  ⟨Sample.loses _ (by decide), Sample.loses _ (by decide)⟩

section
open Json.Decode

/-- A token response as the endpoint means it: the refresh token may be left out. -/
def TokenRefreshResponse.meant (v : Json) : Option TokenRefreshResponse := do
  let fields ← record ["access_token", "refresh_token", "expires_in"] v
  return {
    accessToken := ← required Json.asString (fields "access_token")
    refreshToken := ← defaulted Json.asString "" (fields "refresh_token")
    expiresIn := ← required Json.asInt64 (fields "expires_in") }

/-- The body is an object without a refresh token. -/
def Unrotated (codec : Json.Codec) (body : List UInt8) : Prop :=
  ∃ members, codec.read body = some (.object members) ∧ members.lookup "refresh_token" = none

/-- Only a response that leaves the refresh token out is read in another way. -/
theorem TokenRefreshResponse.decode_meant {v : Json} {meaning : TokenRefreshResponse}
    (meant : TokenRefreshResponse.meant v = some meaning) :
    (decode v = some meaning ∧ ¬ ∃ members, v = .object members ∧
      members.lookup "refresh_token" = none) ∨
    (decode v = none ∧ meaning.refreshToken = "" ∧
      ∃ members, v = .object members ∧ members.lookup "refresh_token" = none) := by
  simp only [TokenRefreshResponse.meant, Option.bind_eq_bind, Option.bind_eq_some_iff,
    Option.pure_def, Option.some.injEq] at meant
  obtain ⟨fields, found, accessToken, access, refreshToken, refresh, expiresIn, expiry, rfl⟩ := meant
  cases present : fields "refresh_token" with
  | some w =>
    rw [present, defaulted_some] at refresh
    refine .inl ⟨?_, ?_⟩
    · simp only [required] at access expiry
      simp [decode, found, access, present, refresh, expiry, required]
    · rintro ⟨members, rfl, absent⟩
      simp only [record] at found
      split at found
      · cases found
        cases present.symm.trans absent
      · cases found
  | none =>
    rw [present, defaulted_none] at refresh
    cases refresh
    refine .inr ⟨by simp [decode, found, present, required], rfl, ?_⟩
    cases v with
    | object members =>
      simp only [record] at found
      split at found
      · cases found
        exact ⟨members, rfl, present⟩
      · cases found
    | array items =>
      -- A sequence that is too short for the refresh token has no lifetime either.
      simp only [record] at found
      split at found
      · cases found
        have short : items[2]? = none := by
          rw [List.getElem?_eq_none_iff] at present ⊢
          exact Nat.le_succ_of_le present
        have lifetime : (items[2]?).bind Json.asInt64 = some expiresIn := expiry
        rw [short] at lifetime
        cases lifetime
      · cases found
    | _ => cases found

variable {codec : Json.Codec} {s s' : System} {t : Nat} {op : Refresher} {creds : OAuthCredentials}
  {auth : FsAuth} {meaning : TokenRefreshResponse} {readMs nowMs : Int64}

/-- The file holds the tokens that the response means, with the old refresh token where
it gives none, exactly when it gives one or the file held them before. -/
theorem response_stored_iff (ready : Ready codec t op creds auth readMs s) {issued : String}
    {body : List UInt8} (meant : (codec.read body).bind TokenRefreshResponse.meant = some meaning)
    (nonempty : meaning.accessToken ≠ "") (positive : 0 < meaning.expiresIn)
    (reached : Run (step codec) (Handling t (.granted issued body) readMs nowMs) s s')
    {outcome : Outcome} (returned : s'.tasks t = .done outcome) :
    readRaw codec s'.file = .ok (auth.updateTokens meaning.accessToken
        (rotatedToken auth.tokens.refreshToken meaning.refreshToken)
        (saturatingAdd nowMs (saturatingMul meaning.expiresIn 1000))) ↔
      ¬ Unrotated codec body ∨ auth.tokens.accessToken = meaning.accessToken ∧
        auth.tokens.expiresAt = saturatingAdd nowMs (saturatingMul meaning.expiresIn 1000) := by
  obtain ⟨v, read, meant⟩ := Option.bind_eq_some_iff.mp meant
  have unrotated : Unrotated codec body ↔
      ∃ members, v = .object members ∧ members.lookup "refresh_token" = none := by
    simp only [Unrotated, read, Option.some.injEq]
  rcases TokenRefreshResponse.decode_meant meant with ⟨decoded, rotates⟩ | ⟨undecoded, none, left⟩
  · have taken : (codec.read body).bind TokenRefreshResponse.decode = some meaning := by
      rw [read, Option.bind_some, decoded]
    have handled := newTokens_decoded issued taken nowMs
    rw [if_pos ⟨nonempty, positive⟩] at handled
    rw [ready.renewed handled.1 handled.2 reached returned, readRaw, FsAuth.fromSlice_toVecPretty]
    exact iff_of_true rfl (.inl (unrotated.not.mpr rotates))
  · have untaken : (codec.read body).bind TokenRefreshResponse.decode = Option.none := by
      rw [read, Option.bind_some, undecoded]
    obtain ⟨error, refused⟩ := newTokens_undecoded issued untaken nowMs
    rw [ready.kept refused reached returned, ready.raw, none, rotatedToken, if_pos rfl]
    simp only [unrotated.mpr left, not_true, false_or, Except.ok.injEq]
    obtain ⟨⟨⟩⟩ := auth
    simp [FsAuth.updateTokens]

end

namespace Sample
variable (codec : Json.Codec)

/-- A response with an empty refresh token, or with none. -/
def unrotated (rotated : Option String) : Json.Members :=
  ("access_token", .string "access-1") ::
    ((rotated.map fun token => ("refresh_token", .string token)).toList ++
      [("expires_in", .ofInt64 864000)])

theorem unrotated_read (rotated : Option String) :
    codec.read (codec.toVec (.object (unrotated rotated))) =
      some (.object (unrotated rotated)) := by
  have within : (Json.object (unrotated rotated)).Within 1 := by
    cases rotated <;> simp [unrotated]
  exact codec.read_toVec (within.portable (by decide))

theorem unrotated_meant (rotated : Option String) :
    (codec.read (codec.toVec (.object (unrotated rotated)))).bind TokenRefreshResponse.meant =
      some ⟨"access-1", rotated.getD "", 864000⟩ := by
  have distinct : ((unrotated rotated).map Prod.fst).Nodup := by
    cases rotated <;> simp [unrotated]
  rw [unrotated_read, Option.bind_some, TokenRefreshResponse.meant,
    Json.Decode.record_object distinct]
  cases rotated <;> simp [unrotated, Json.Decode.required, Json.Members.lookup_cons]

end Sample

theorem response_stored_iff_empty : ∃ s' outcome, Run (step JsonText.codec)
    (Handling 0 (Sample.success JsonText.codec (Sample.unrotated (some ""))) Sample.nowMs
      Sample.nowMs) (Sample.waits JsonText.codec .checkAndRefresh) s' ∧
    s'.tasks 0 = .done outcome ∧ readRaw JsonText.codec s'.file =
      .ok (Sample.auth.updateTokens "access-1" "refresh-0" 1700864000000) := by
  have ready := Sample.ready JsonText.codec .checkAndRefresh
  obtain ⟨s', outcome, reached, returned⟩ := ready.returns _ Sample.nowMs
  refine ⟨s', outcome, reached, returned, (response_stored_iff ready (Sample.unrotated_meant _ _)
    (by decide) (by decide) reached returned).mpr (.inl ?_)⟩
  rintro ⟨members, read, absent⟩
  cases (Sample.unrotated_read ..).symm.trans read
  cases absent

/-- A response without a refresh token is a success for its provider, and is not stored. -/
theorem unrotated_not_stored : ∃ s' outcome, Run (step JsonText.codec)
    (Handling 0 (Sample.success JsonText.codec (Sample.unrotated none)) Sample.nowMs Sample.nowMs)
      (Sample.waits JsonText.codec .getCredentials) s' ∧
    s'.tasks 0 = .done outcome ∧
    (JsonText.codec.read (JsonText.codec.toVec (.object (Sample.unrotated none)))).bind
      TokenRefreshResponse.meant = some ⟨"access-1", "", 864000⟩ ∧
    readRaw JsonText.codec s'.file ≠
      .ok (Sample.auth.updateTokens "access-1" "refresh-0" 1700864000000) := by
  have ready := Sample.ready JsonText.codec .getCredentials
  obtain ⟨s', outcome, reached, returned⟩ := ready.returns
    (Sample.success JsonText.codec (Sample.unrotated none)) Sample.nowMs
  have undecoded : (JsonText.codec.read (JsonText.codec.toVec (.object (Sample.unrotated none)))).bind
      TokenRefreshResponse.decode = none := by
    rw [Sample.unrotated_read, Option.bind_some]
    rfl
  obtain ⟨error, refused⟩ := newTokens_undecoded "refresh-1" undecoded Sample.nowMs
  refine ⟨s', outcome, reached, returned, Sample.unrotated_meant _ _, fun stored => ?_⟩
  rw [ready.kept refused reached returned, ready.raw] at stored
  simp [FsAuth.updateTokens, Sample.auth] at stored

end CodexProxy.Credentials
