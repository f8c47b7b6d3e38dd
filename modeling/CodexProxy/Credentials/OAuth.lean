import CodexProxy.Credentials.AuthFile

/-! The refresh grant: when a token is due, what the endpoint may answer, and what is
made of an answer. Clock values are milliseconds in 64 bits. -/
namespace CodexProxy.Credentials
open Json.Decode

def TOKEN_EXPIRY_BUFFER_MS : Int64 := 60 * 60 * 1000

/-- The subtraction wraps, as in a release build. -/
def tokenExpired (expiresAtMs nowMs : Int64) : Bool :=
  nowMs ≥ expiresAtMs - TOKEN_EXPIRY_BUFFER_MS

/-- The nearest 64-bit integer. -/
def saturate (n : Int) : Int64 := Int64.ofInt (max (-2 ^ 63) (min n (2 ^ 63 - 1)))

def saturatingAdd (a b : Int64) : Int64 := saturate (a.toInt + b.toInt)
def saturatingMul (a b : Int64) : Int64 := saturate (a.toInt * b.toInt)

/-- A lifetime that is not positive is rejected. -/
def expiresAtFrom (nowMs expiresInSecs : Int64) : Except CredentialsError Int64 :=
  if expiresInSecs ≤ 0 then
    .error (.refresh ("token endpoint returned a non-positive expiry: " ++ toString expiresInSecs))
  else .ok (saturatingAdd nowMs (saturatingMul expiresInSecs 1000))

structure TokenRefreshResponse where
  accessToken : String
  refreshToken : String
  expiresIn : Int64

def TokenRefreshResponse.decode (v : Json) : Option TokenRefreshResponse := do
  let fields ← record ["access_token", "refresh_token", "expires_in"] v
  return {
    accessToken := ← required Json.asString (fields "access_token")
    refreshToken := ← required Json.asString (fields "refresh_token")
    expiresIn := ← required Json.asInt64 (fields "expires_in") }

/-- What the token endpoint does with a request. A success consumes the presented
refresh token and issues another, whatever its body says. -/
inductive TokenAnswer where
  | refused (status body : String)
  | granted (issued : String) (body : List UInt8)

/-- An answer as `refresh_token` returns it. -/
def refreshToken (codec : Json.Codec) : TokenAnswer → Except CredentialsError TokenRefreshResponse
  | .refused status body =>
    .error (.refresh ("token endpoint returned " ++ status ++ ": " ++ body))
  | .granted _ body =>
    match (codec.read body).bind TokenRefreshResponse.decode with
    | none => .error (.refresh
        ("invalid token response: " ++ codec.sliceError "TokenRefreshResponse" body))
    | some parsed =>
      if parsed.accessToken = "" then
        .error (.refresh "token endpoint returned an empty access_token")
      else .ok parsed

/-- The token to store: an empty one does not replace the old one. -/
def rotatedToken (old new : String) : String := if new = "" then old else new

/-- A success that the code takes up: the body decodes to the issued token, with an
access token and a positive lifetime. -/
def Accepted (codec : Json.Codec) (issued : String) (body : List UInt8) : Prop :=
  ∃ parsed, refreshToken codec (.granted issued body) = .ok parsed ∧
    parsed.refreshToken = issued ∧ issued ≠ "" ∧ 0 < parsed.expiresIn

/-- An empty access token is not taken up. -/
theorem refreshToken_nonempty {codec : Json.Codec} {answer : TokenAnswer}
    {parsed : TokenRefreshResponse} (taken : refreshToken codec answer = .ok parsed) :
    parsed.accessToken ≠ "" := by
  cases answer with
  | refused => cases taken
  | granted issued body =>
    simp only [refreshToken] at taken
    split at taken
    · cases taken
    · split at taken
      · cases taken
      · rename_i nonempty
        cases taken
        exact nonempty

theorem expiresAtFrom_ok (nowMs : Int64) {expiresInSecs : Int64} (positive : 0 < expiresInSecs) :
    ∃ expiresAtMs, expiresAtFrom nowMs expiresInSecs = .ok expiresAtMs := by
  refine ⟨_, if_neg ?_⟩
  exact Int64.not_le.mpr positive

end CodexProxy.Credentials
