import CodexProxy.Credentials.Chain
import CodexProxy.Library.ReferenceCodec

/-! What the token chain promises: the stored refresh token is not spent, and it is the
latest one. A call that is dropped between the grant and the rename breaks the chain. -/
namespace CodexProxy.Credentials
open Transition

section
variable (codec : Json.Codec) {good : System → Action → Prop}

/-- Once a grant is accepted, its caller is only five steps of its own from the end. -/
theorem grant_persists {s : System} {t : Nat} {op : Refresher} {creds : OAuthCredentials}
    {issued : String} {body : List UInt8} (here : s.tasks t = .answered op creds (.granted issued body))
    (accepted : Accepted codec issued body) (readable : Readable codec s.file)
    (quiet : ∀ s a, a = .deliver t 0 ∨ a = .read t 0 none ∨ a = .dispatch t ∨ a = .finish t →
      good s a)
    (renames : ∀ s job auth, s.tasks t = .dispatched job auth → job.issued = some issued →
      good s (.rename t)) :
    ∃ s', Run (step codec) good s s' ∧ s'.holder = none ∧ s'.consumed = s.consumed ∧
      storedToken codec s'.file = some issued := by
  obtain ⟨job, updating, token⟩ := afterAnswer_accepted op creds 0 accepted
  obtain ⟨auth, raw⟩ := readable
  have refreshToken : job.refreshToken = issued := by
    cases writer : job.writer with
    | push => simp [Job.issued, writer] at token
    | refresher => simpa [Job.issued, writer] using token
  have delivered := step_complete codec (a := .deliver t 0) (.deliver here)
  rw [updating] at delivered
  have reread := step_complete codec (a := .read t 0 none)
    (.reread (System.proceed_tasks_here s t (.updating job)))
  rw [contents, System.proceed_file, raw] at reread
  refine ⟨_, .head (quiet _ _ (.inl rfl)) delivered (.head (quiet _ _ (.inr (.inl rfl))) reread
    (.head (quiet _ _ (.inr (.inr (.inl rfl)))) (step_complete codec
      (.dispatch (System.proceed_tasks_here ..)))
    (.head (renames _ _ _ (System.proceed_tasks_here ..) token) (step_complete codec
      (.rename (System.proceed_tasks_here ..)))
    (.head (quiet _ _ (.inr (.inr (.inr rfl)))) (step_complete codec
      (.finish (System.proceed_tasks_here ..))) .here)))), rfl, rfl, ?_⟩
  rw [System.proceed_file, System.proceed_file, ← refreshToken]
  exact storedToken_written codec _

end

namespace Sample
variable (codec : Json.Codec)

def auth : FsAuth where
  tokens := { accessToken := "access-0", refreshToken := "refresh-0", accountId := "account" }

def creds : OAuthCredentials := ⟨"access-0", "refresh-0", 0, "account"⟩

/-- One stored token and nothing under way. -/
def start : System where
  file := some (auth.toVecPretty codec)
  holder := none
  tasks _ := .idle
  posts := []
  renames := []
  presented := []
  answers := []
  consumed := []
  latest := some "refresh-0"

def response (accessToken : String) : Json :=
  .object [("access_token", .string accessToken), ("refresh_token", .string "refresh-1"),
    ("expires_in", .ofInt64 864000)]

/-- A body with an access token and the next refresh token. -/
def body (accessToken : String) : List UInt8 := codec.toVec (response accessToken)

/-- The first call has presented the stored token. -/
def asked : System :=
  (((start codec).put 0 (.locking (.refresher .getCredentials))).proceed 0
    (.reading .getCredentials)).proceed 0 (.posting .getCredentials creds)

def answered (accessToken : String) : System :=
  ((asked codec).exchange "refresh-0" (.granted "refresh-1" (body codec accessToken))).proceed 0
    (.answered .getCredentials creds (.granted "refresh-1" (body codec accessToken)))

theorem stored : storedToken codec (start codec).file = some "refresh-0" :=
  storedToken_written codec auth

theorem initial : Initial codec (start codec) where
  idle _ := rfl
  free := rfl
  posts := rfl
  renames := rfl
  unspent _ _ := List.not_mem_nil
  latest := stored codec

theorem response_read (accessToken : String) :
    (codec.read (body codec accessToken)).bind TokenRefreshResponse.decode =
      some ⟨accessToken, "refresh-1", 864000⟩ := by
  have within : (response accessToken).Within 1 := by simp [response]
  rw [body, codec.read_toVec (within.portable (by decide)), Option.bind_some]
  simp [response, TokenRefreshResponse.decode, Json.Decode.record, Json.Decode.required,
    Json.Members.lookup_cons]

theorem accepted : Accepted codec "refresh-1" (body codec "access-1") := by
  refine ⟨⟨"access-1", "refresh-1", 864000⟩, ?_, rfl, by decide, by decide⟩
  simp only [refreshToken, response_read]
  simp

theorem read_contents :
    (contents codec (start codec).file none).bind FsAuth.credentials = .ok creds := by
  simp only [contents, readRaw, start, FsAuth.fromSlice_toVecPretty, Except.bind]
  rfl

theorem asked_run (good : System → Action → Prop)
    (quiet : ∀ s a, a = .start 0 (.refresher .getCredentials) ∨ a = .acquire 0 ∨
      a = .read 0 0 none → good s a) : Run (step codec) good (start codec) (asked codec) := by
  have read := step_complete codec (a := .read 0 0 none)
    (.read (System.proceed_tasks_here ((start codec).put 0 (.locking (.refresher .getCredentials)))
      0 (.reading .getCredentials)))
  rw [System.proceed_file, System.put_file, read_contents] at read
  refine .head (quiet _ _ (.inl rfl)) (step_complete codec (.start rfl))
    (.head (quiet _ _ (.inr (.inl rfl))) (step_complete codec
      (.acquire rfl (System.put_tasks_here ..)))
    (.head (quiet _ _ (.inr (.inr rfl))) read .here))

theorem answer_step (accessToken : String) :
    step codec (asked codec) (.answer 0 (.granted "refresh-1" (body codec accessToken))) =
      some (answered codec accessToken) :=
  step_complete codec (.answer (System.proceed_tasks_here ..))

theorem answered_here (accessToken : String) : (answered codec accessToken).tasks 0 =
    .answered .getCredentials creds (.granted "refresh-1" (body codec accessToken)) :=
  System.proceed_tasks_here ..

theorem deliver_refused : step codec (answered codec "") (.deliver 0 0) =
    some ((answered codec "").proceed 0 (.done (.credentials (.ok creds.bearer)))) := by
  have delivered := step_complete codec (a := .deliver 0 0) (.deliver (answered_here codec ""))
  simp only [refreshToken, response_read] at delivered
  exact delivered

theorem served_quiet (s : System) (a : Action) (quiet : a = .start 0 (.refresher .getCredentials) ∨
    a = .acquire 0 ∨ a = .read 0 0 none) : Uncancelled codec s a := by
  rcases quiet with rfl | rfl | rfl
  · exact ⟨trivial, trivial⟩
  · exact ⟨trivial, trivial⟩
  · exact ⟨fun failed => (failed rfl).elim, trivial⟩

theorem served_answer : Uncancelled codec (asked codec)
    (.answer 0 (.granted "refresh-1" (body codec "access-1"))) := by
  refine ⟨?_, trivial⟩
  intro issued body' presented same token
  cases same
  rw [asked, System.proceed_tasks_here] at token
  cases token
  exact ⟨accepted codec, by simp [asked, creds, System.proceed, System.put, start]⟩

theorem answered_run : Run (step codec) (Uncancelled codec) (start codec)
    (answered codec "access-1") :=
  .step (asked_run codec _ (served_quiet codec)) (served_answer codec) (answer_step codec "access-1")

/-- The whole refresh. -/
theorem refreshed_run : ∃ s, Run (step codec) (Uncancelled codec) (start codec) s ∧
    s.holder = none ∧ s.consumed = ["refresh-0"] ∧ storedToken codec s.file = some "refresh-1" := by
  have readable : Readable codec (answered codec "access-1").file := readable_written auth
  have quiet : ∀ s a, a = .deliver 0 0 ∨ a = .read 0 0 none ∨ a = .dispatch 0 ∨ a = .finish 0 →
      Uncancelled codec s a := by
    rintro s a (rfl | rfl | rfl | rfl)
    · exact ⟨trivial, trivial⟩
    · exact ⟨fun failed => (failed rfl).elim, trivial⟩
    · exact ⟨trivial, trivial⟩
    · exact ⟨trivial, trivial⟩
  have renames : ∀ s job auth, s.tasks 0 = .dispatched job auth →
      job.issued = some "refresh-1" → Uncancelled codec s (.rename 0) := by
    intro s job auth here issued
    refine ⟨?_, trivial⟩
    intro job' auth' here' pushed
    rw [here] at here'
    cases here'
    rw [issued] at pushed
    cases pushed
  obtain ⟨s, later, free, consumed, token⟩ := grant_persists codec
    (System.proceed_tasks_here ..) (accepted codec) readable quiet renames
  exact ⟨s, (answered_run codec).trans later, free, consumed.trans rfl, token⟩

end Sample

/-- The stored refresh token is not spent while the mutex is free, in every run in which
no call is dropped between the grant and the rename. -/
theorem stored_token_unspent (codec : Json.Codec) {start s : System} (initial : Initial codec start)
    (run : Run (step codec) (Undisturbed codec) start s) (free : s.holder = none)
    {token : String} (stored : storedToken codec s.file = some token) : token ∉ s.consumed := by
  have chain : Chain codec False s := .of_run initial run (fun _ _ quiet => quiet)
    (fun strictly => strictly.elim)
  have sound := chain.sound
  rw [System.current, free] at sound
  exact sound.1 token stored

theorem stored_token_unspent_refreshed : ∃ s, Run (step JsonText.codec)
    (Undisturbed JsonText.codec) (Sample.start JsonText.codec) s ∧ s.holder = none ∧
    storedToken JsonText.codec s.file = some "refresh-1" ∧ "refresh-0" ∈ s.consumed ∧
    "refresh-1" ∉ s.consumed := by
  obtain ⟨s, run, free, consumed, stored⟩ := Sample.refreshed_run JsonText.codec
  have quiet := run.mono fun _ _ uncancelled => uncancelled.undisturbed
  exact ⟨s, quiet, free, stored, by simp [consumed],
    stored_token_unspent JsonText.codec (Sample.initial _) quiet free stored⟩

/-- A client disconnects after the endpoint has answered: the mutex is released and the
file still has the token that was exchanged. -/
theorem dropped_refresh_strands_token : ¬ ∀ start s : System, Initial JsonText.codec start →
    Run (step JsonText.codec) (Served JsonText.codec) start s → s.holder = none →
    ∀ token, storedToken JsonText.codec s.file = some token → token ∉ s.consumed := by
  intro claimed
  have run := (Sample.answered_run JsonText.codec).mono fun _ _ uncancelled => uncancelled.1
  have allowed : Served JsonText.codec (Sample.answered JsonText.codec "access-1") (.drop 0) :=
    trivial
  have dropped := run.step allowed (step_complete JsonText.codec
    (.drop rfl rfl (by simp [Sample.answered])))
  exact claimed _ _ (Sample.initial _) dropped rfl "refresh-0" (Sample.stored _) List.mem_cons_self

/-- Only the holder of the mutex can know a token that the file does not have. -/
theorem Chain.settled_of_free {codec : Json.Codec} {strict : Prop} {s : System}
    (chain : Chain codec strict s) (free : s.holder = none) (t : Nat) :
    (s.tasks t).pending = none := by
  cases pending : (s.tasks t).pending with
  | none => rfl
  | some token =>
    have holds : (s.tasks t).holds = true := by
      cases phase : s.tasks t with
      | idle | locking | done => rw [phase] at pending; cases pending
      | _ => rfl
    rw [(chain.coherent t).mp holds] at free
    cases free

/-- Without dropped calls every presented token is unspent, and the stored one is the
latest unless a grant is on its way to the file. -/
theorem chain_unbroken (codec : Json.Codec) {start s : System} (initial : Initial codec start)
    (run : Run (step codec) (Uncancelled codec) start s) :
    (∀ t op creds, s.tasks t = .posting op creds → creds.refreshToken ∉ s.consumed) ∧
    ((∀ t, (s.tasks t).pending = none) → storedToken codec s.file = s.latest) ∧
    (s.holder = none → storedToken codec s.file = s.latest) := by
  have chain : Chain codec True s := .of_run initial run
    (fun _ _ uncancelled => uncancelled.undisturbed) (fun _ _ _ uncancelled => uncancelled)
  have latest : (∀ t, (s.tasks t).pending = none) → storedToken codec s.file = s.latest := by
    intro settled
    have current : s.current.pending = none := by
      rw [System.current]
      split
      · rfl
      · exact settled _
    exact (chain.sound.stored current).2 trivial
  refine ⟨?_, latest, fun free => latest (chain.settled_of_free free)⟩
  intro t op creds here
  obtain ⟨_, sound⟩ := chain.holding here rfl
  exact sound.1.1 creds.refreshToken rfl

theorem chain_unbroken_refreshed : ∃ s, Run (step JsonText.codec)
    (Uncancelled JsonText.codec) (Sample.start JsonText.codec) s ∧ s.holder = none ∧
    s.consumed = ["refresh-0"] ∧ s.latest = some "refresh-1" := by
  obtain ⟨s, run, free, consumed, stored⟩ := Sample.refreshed_run JsonText.codec
  have unbroken := chain_unbroken JsonText.codec (Sample.initial _) run
  exact ⟨s, run, free, consumed, by rw [← unbroken.2.2 free, stored]⟩

/-- While a grant is on its way the file has the previous token, and a success without an
access token is refused, so that its refresh token is never stored. -/
theorem latest_not_always_stored : (¬ ∀ start s : System, Initial JsonText.codec start →
    Run (step JsonText.codec) (Uncancelled JsonText.codec) start s →
    storedToken JsonText.codec s.file = s.latest) ∧
    ∃ s, Run (step JsonText.codec) (fun _ a => (∀ t, a ≠ .drop t) ∧ ∀ t answer,
        a = .answer t answer → answer = .granted "refresh-1" (Sample.body JsonText.codec ""))
      (Sample.start JsonText.codec) s ∧
    s.holder = none ∧ s.latest = some "refresh-1" ∧
    storedToken JsonText.codec s.file = some "refresh-0" ∧ "refresh-0" ∈ s.consumed := by
  constructor
  · intro claimed
    have same := claimed _ _ (Sample.initial _) (Sample.answered_run JsonText.codec)
    have different : (Sample.answered JsonText.codec "access-1").latest = some "refresh-1" := rfl
    have stored : storedToken JsonText.codec (Sample.answered JsonText.codec "access-1").file =
      some "refresh-0" := Sample.stored JsonText.codec
    rw [stored, different] at same
    exact absurd same (by decide)
  · have asked := Sample.asked_run JsonText.codec (fun _ a => (∀ t, a ≠ .drop t) ∧
      ∀ t answer, a = .answer t answer →
        answer = .granted "refresh-1" (Sample.body JsonText.codec "")) (by
        rintro s a (rfl | rfl | rfl)
        · exact ⟨by simp, by simp⟩
        · exact ⟨by simp, by simp⟩
        · exact ⟨by simp, by simp⟩)
    have answered := asked.step ⟨by simp, by rintro t answer same; cases same; rfl⟩
      (Sample.answer_step JsonText.codec "")
    exact ⟨_, answered.step ⟨by simp, by simp⟩ (Sample.deliver_refused _), rfl, rfl, Sample.stored _,
      List.mem_cons_self⟩

end CodexProxy.Credentials
