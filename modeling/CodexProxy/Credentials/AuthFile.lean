import CodexProxy.Library.Decode

/-! The credentials file. Its octets are decoded on every read and written whole on
every update, so a stored state is what the octets decode to. -/
namespace CodexProxy.Credentials
open Json.Decode

set_option linter.dupNamespace false

/-- Token and account for one upstream request. -/
structure Credentials where
  token : String
  accountId : String

structure OAuthCredentials where
  accessToken : String
  refreshToken : String
  expiresAtMs : Int64
  userId : String

inductive CredentialsError where
  | oauthUnsupported
  | unavailable (message : String)
  | refresh (message : String)
  | storage (message : String)
  | parse (message : String)

def CredentialsError.display : CredentialsError → String
  | .oauthUnsupported => "credential store does not support OAuth operations"
  | .unavailable message => "credentials unavailable: " ++ message
  | .refresh message => "token refresh failed: " ++ message
  | .storage message => "credential storage error: " ++ message
  | .parse message => "credentials file is invalid: " ++ message

structure FsTokens where
  idToken : String := ""
  accessToken : String := ""
  refreshToken : String := ""
  accountId : String := ""
  expiresAt : Int64 := 0

structure FsAuth where
  tokens : FsTokens

def FsTokens.decode (v : Json) : Option FsTokens := do
  let fields ← record ["id_token", "access_token", "refresh_token", "account_id", "expiresAt"] v
  return {
    idToken := ← defaulted Json.asString "" (fields "id_token")
    accessToken := ← defaulted Json.asString "" (fields "access_token")
    refreshToken := ← defaulted Json.asString "" (fields "refresh_token")
    accountId := ← defaulted Json.asString "" (fields "account_id")
    expiresAt := ← defaulted Json.asInt64 0 (fields "expiresAt") }

def FsAuth.decode (v : Json) : Option FsAuth := do
  let fields ← record ["tokens"] v
  return { tokens := ← required FsTokens.decode (fields "tokens") }

/-- An expiry of zero is left out. -/
def FsTokens.toJson (t : FsTokens) : Json :=
  .object ([("id_token", .string t.idToken), ("access_token", .string t.accessToken),
      ("refresh_token", .string t.refreshToken), ("account_id", .string t.accountId)] ++
    if t.expiresAt = 0 then [] else [("expiresAt", .ofInt64 t.expiresAt)])

def FsAuth.toJson (auth : FsAuth) : Json := .object [("tokens", auth.tokens.toJson)]

variable (codec : Json.Codec)

def FsAuth.toVecPretty (auth : FsAuth) : List UInt8 := Text.utf8 (codec.writePretty auth.toJson)

def FsAuth.fromSlice (bytes : List UInt8) : Option FsAuth := (codec.read bytes).bind decode

/-- What the operating system says about a missing file. -/
def notFound : String := "No such file or directory (os error 2)"

/-- The file on disk; none when it does not exist. -/
abbrev File := Option (List UInt8)

def readRaw : File → Except CredentialsError FsAuth
  | none => .error (.storage notFound)
  | some bytes =>
    match FsAuth.fromSlice codec bytes with
    | some auth => .ok auth
    | none => .error (.parse (codec.sliceError "FsAuth" bytes))

/-- The credentials in a file; the id token stands in for a missing access token. -/
def FsAuth.credentials (auth : FsAuth) : Except CredentialsError OAuthCredentials :=
  let token := if auth.tokens.accessToken = "" then auth.tokens.idToken else auth.tokens.accessToken
  if token = "" ∨ auth.tokens.accountId = "" then
    .error (.unavailable "missing token or account_id in credentials file")
  else .ok {
    accessToken := token
    refreshToken := auth.tokens.refreshToken
    expiresAtMs := auth.tokens.expiresAt
    userId := auth.tokens.accountId }

def readFile (file : File) : Except CredentialsError OAuthCredentials :=
  (readRaw codec file).bind FsAuth.credentials

/-- The file's contents with new tokens; the id token and the account stay. -/
def FsAuth.updateTokens (auth : FsAuth) (accessToken refreshToken : String) (expiresAtMs : Int64) :
    FsAuth where
  tokens := { auth.tokens with accessToken, refreshToken, expiresAt := expiresAtMs }

/-- The contents of a file that is created. -/
def FsAuth.init (creds : OAuthCredentials) : FsAuth where
  tokens := {
    accessToken := creds.accessToken
    refreshToken := creds.refreshToken
    expiresAt := creds.expiresAtMs
    accountId := creds.userId }

theorem FsTokens.decode_toJson (t : FsTokens) : decode t.toJson = some t := by
  unfold toJson
  split
  · rename_i zero
    simp [decode, record, Json.Members.lookup_cons, ← zero]
  · simp [decode, record, Json.Members.lookup_cons]

theorem FsAuth.decode_toJson (auth : FsAuth) : decode auth.toJson = some auth := by
  simp [decode, toJson, record, required, Json.Members.lookup_cons, FsTokens.decode_toJson]

theorem FsAuth.portable (auth : FsAuth) : auth.toJson.Portable := by
  have within : auth.toJson.Within 2 := by
    simp only [toJson, FsTokens.toJson]
    split <;> simp
  exact within.portable (by decide)

/-- What was written is read back. -/
theorem FsAuth.fromSlice_toVecPretty (auth : FsAuth) :
    fromSlice codec (auth.toVecPretty codec) = some auth := by
  rw [fromSlice, toVecPretty, codec.read_writePretty _ auth.portable, Option.bind_some,
    decode_toJson]

/-- The refresh token in a file. -/
def storedToken (file : File) : Option String :=
  (file.bind (FsAuth.fromSlice codec)).map (·.tokens.refreshToken)

theorem storedToken_written (auth : FsAuth) :
    storedToken codec (some (auth.toVecPretty codec)) = some auth.tokens.refreshToken := by
  rw [storedToken, Option.bind_some, FsAuth.fromSlice_toVecPretty]
  rfl

/-- Credentials that were read carry the stored refresh token. -/
theorem storedToken_of_readFile {file : File} {creds : OAuthCredentials}
    (read : readFile codec file = .ok creds) : storedToken codec file = some creds.refreshToken := by
  cases file with
  | none => cases read
  | some bytes =>
    simp only [readFile, readRaw] at read
    cases decoded : FsAuth.fromSlice codec bytes with
    | none => simp [decoded, Except.bind] at read
    | some auth =>
      simp only [decoded, Except.bind, FsAuth.credentials] at read
      generalize (if auth.tokens.accessToken = "" then auth.tokens.idToken
        else auth.tokens.accessToken) = token at read
      split at read
      · cases read
      · cases read
        simp [storedToken, decoded]

/-- New tokens in a file that has credentials. -/
theorem FsAuth.credentials_updateTokens {auth : FsAuth} {creds : OAuthCredentials}
    (stored : auth.credentials = .ok creds) {accessToken : String} (nonempty : accessToken ≠ "")
    (refreshToken : String) (expiresAtMs : Int64) :
    (auth.updateTokens accessToken refreshToken expiresAtMs).credentials =
      .ok ⟨accessToken, refreshToken, expiresAtMs, creds.userId⟩ := by
  simp only [FsAuth.credentials] at stored
  generalize (if auth.tokens.accessToken = "" then auth.tokens.idToken
    else auth.tokens.accessToken) = token at stored
  split at stored
  · cases stored
  · rename_i present
    cases stored
    have account : auth.tokens.accountId ≠ "" := fun empty => present (.inr empty)
    simp [FsAuth.credentials, FsAuth.updateTokens, nonempty, account]

theorem readFile_written (auth : FsAuth) :
    readFile codec (some (auth.toVecPretty codec)) = auth.credentials := by
  rw [readFile, readRaw, FsAuth.fromSlice_toVecPretty]
  rfl

/-- Credentials are read from contents that decode. -/
theorem readFile_ok {file : File} {creds : OAuthCredentials} (read : readFile codec file = .ok creds) :
    ∃ auth, readRaw codec file = .ok auth ∧ auth.credentials = .ok creds := by
  cases raw : readRaw codec file with
  | error => simp [readFile, raw, Except.bind] at read
  | ok auth => exact ⟨auth, rfl, by simpa [readFile, raw, Except.bind] using read⟩

end CodexProxy.Credentials
