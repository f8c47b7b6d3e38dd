import CodexProxy.Credentials.OAuth

/-! The operations of the refreshing store, cut at their await points. A call waits for
the mutex, then is in one phase of its critical section at a time. -/
namespace CodexProxy.Credentials

/-- The operations that may refresh. -/
inductive Refresher where
  | getCredentials
  | refreshCredentials
  | checkAndRefresh

inductive Operation where
  | refresher (op : Refresher)
  | fullCredentials
  | updateTokens (accessToken refreshToken : String) (expiresAtMs : Int64) (userId : Option String)

/-- What a call returns. -/
inductive Outcome where
  | credentials (result : Except CredentialsError Credentials)
  | refreshed (result : Except CredentialsError Unit)
  | ticked
  | full (result : Except CredentialsError OAuthCredentials)
  | updated (result : Except CredentialsError Unit)

/-- On whose behalf tokens are written. -/
inductive Writer where
  | refresher (op : Refresher) (userId : String)
  | push

/-- Tokens on their way to the file. -/
structure Job where
  accessToken : String
  refreshToken : String
  expiresAtMs : Int64
  writer : Writer

/-- The refresh token that the endpoint issued for this write. -/
def Job.issued (job : Job) : Option String :=
  match job.writer with
  | .refresher _ _ => some job.refreshToken
  | .push => none

/-- Where a call is suspended. The phases from `reading` to `syncing` hold the mutex. -/
inductive Phase where
  | idle
  | locking (op : Operation)
  | reading (op : Refresher)
  | readingFull
  | posting (op : Refresher) (creds : OAuthCredentials)
  | answered (op : Refresher) (creds : OAuthCredentials) (answer : TokenAnswer)
  | updating (job : Job)
  | writing (job : Job) (auth : FsAuth)
  | dispatched (job : Job) (auth : FsAuth)
  | syncing (job : Job)
  | done (outcome : Outcome)

def Phase.holds : Phase → Bool
  | .idle | .locking _ | .done _ => false
  | _ => true

def OAuthCredentials.bearer (creds : OAuthCredentials) : Credentials where
  token := creds.accessToken
  accountId := creds.userId

/-- The stored credentials cannot be read. -/
def Refresher.readFailed (error : CredentialsError) : Refresher → Outcome
  | .getCredentials =>
    .credentials (.error (.unavailable ("failed to get full credentials: " ++ error.display)))
  | .refreshCredentials => .refreshed (.error error)
  | .checkAndRefresh => .ticked

/-- No refresh is due; a forced one always is. -/
def Refresher.fresh (creds : OAuthCredentials) (nowMs : Int64) : Refresher → Option Outcome
  | .getCredentials =>
    if tokenExpired creds.expiresAtMs nowMs then none else some (.credentials (.ok creds.bearer))
  | .refreshCredentials => none
  | .checkAndRefresh => if tokenExpired creds.expiresAtMs nowMs then none else some .ticked

/-- The refresh fails; `get_credentials` falls back on the stale token. -/
def Refresher.refreshFailed (creds : OAuthCredentials) (error : CredentialsError) :
    Refresher → Outcome
  | .getCredentials => .credentials (.ok creds.bearer)
  | .refreshCredentials => .refreshed (.error error)
  | .checkAndRefresh => .ticked

/-- The tokens are written or not; `get_credentials` uses them anyway. -/
def Job.written (job : Job) (result : Except CredentialsError Unit) : Outcome :=
  match job.writer with
  | .refresher .getCredentials userId => .credentials (.ok ⟨job.accessToken, userId⟩)
  | .refresher .refreshCredentials _ => .refreshed result
  | .refresher .checkAndRefresh _ => .ticked
  | .push => .updated result

def afterRead (op : Refresher) (nowMs : Int64) : Except CredentialsError OAuthCredentials → Phase
  | .error error => .done (op.readFailed error)
  | .ok creds =>
    match op.fresh creds nowMs with
    | some outcome => .done outcome
    | none => .posting op creds

def afterAnswer (op : Refresher) (creds : OAuthCredentials) (nowMs : Int64)
    (answer : Except CredentialsError TokenRefreshResponse) : Phase :=
  let tokens := do
    let newTokens ← answer
    let expiresAtMs ← expiresAtFrom nowMs newTokens.expiresIn
    return (newTokens, expiresAtMs)
  match tokens with
  | .error error => .done (op.refreshFailed creds error)
  | .ok (newTokens, expiresAtMs) => .updating {
      accessToken := newTokens.accessToken
      refreshToken := rotatedToken creds.refreshToken newTokens.refreshToken
      expiresAtMs
      writer := .refresher op creds.userId }

/-- `FsAuthFile::update_tokens` after its own read. -/
def afterReread (job : Job) : Except CredentialsError FsAuth → Phase
  | .error error => .done (job.written (.error error))
  | .ok auth =>
    .writing job (auth.updateTokens job.accessToken job.refreshToken job.expiresAtMs)

/-- The first phase under the mutex. A push creates a missing file, for which it needs
an account. -/
def afterLock (file : File) : Operation → Phase
  | .refresher op => .reading op
  | .fullCredentials => .readingFull
  | .updateTokens accessToken refreshToken expiresAtMs userId =>
    let job := Job.mk accessToken refreshToken expiresAtMs .push
    match file, userId with
    | some _, _ => .updating job
    | none, some userId =>
      if userId = "" then .done (job.written (.error bootstrapRefused))
      else .writing job (.init ⟨accessToken, refreshToken, expiresAtMs, userId⟩)
    | none, none => .done (job.written (.error bootstrapRefused))
where
  bootstrapRefused : CredentialsError :=
    .unavailable "userID is required when bootstrapping the filesystem credential store"

/-- The issued token that is not yet in the file. From the grant to the rename nothing
but this phase knows it. -/
def Phase.pending : Phase → Option String
  | .answered _ _ (.granted issued _) => some issued
  | .updating job | .writing job _ | .dispatched job _ => job.issued
  | _ => none

/-- The token that the endpoint is asked to exchange. -/
def Phase.presented : Phase → Option String
  | .posting _ creds => some creds.refreshToken
  | _ => none

end CodexProxy.Credentials
