import CodexProxy.Credentials.Chain
import Mathlib.Data.List.Perm.Basic

/-! Where an access token can be. From the answer to the rename it is carried, by the
holder of the mutex or by an abandoned rename; after that it is settled, and no later step
carries it again. Tokens are told apart by a `view`, such as the identity. -/
namespace CodexProxy.Credentials
open Transition

/-- The access token of an answer that is taken up. -/
def TokenAnswer.accessToken (codec : Json.Codec) (answer : TokenAnswer) : Option String :=
  (refreshToken codec answer).toOption.map (·.accessToken)

/-- The access token that a read finds. -/
def storedAccess (codec : Json.Codec) (file : File) : Option String :=
  (readFile codec file).toOption.map (·.accessToken)

/-- The access token on its way to the file. -/
def Phase.carried (codec : Json.Codec) : Phase → Option String
  | .answered _ _ answer => answer.accessToken codec
  | .updating job | .writing job _ | .dispatched job _ => some job.accessToken
  | _ => none

def System.carried (codec : Json.Codec) (s : System) : List String :=
  (s.current.carried codec).toList ++ s.renames.map (·.1.accessToken)

/-- The access token that a call may return, or has returned. -/
def Phase.held : Phase → Option String
  | .posting _ creds | .answered _ creds _ => some creds.accessToken
  | .syncing job => some job.accessToken
  | .done (.credentials (.ok result)) => some result.token
  | _ => none

/-- A write of tokens that the endpoint issued. -/
def Job.Shaped (job : Job) : Prop := job.accessToken ≠ "" ∧ job.writer ≠ .push

def Phase.Shaped : Phase → Prop
  | .locking (.updateTokens ..) => False
  | .updating job => job.Shaped
  | .writing job auth | .dispatched job auth =>
    job.Shaped ∧ auth.tokens.accessToken = job.accessToken
  | _ => True

section
variable {β : Type} (view : String → β) (codec : Json.Codec) (origin : File)

/-- The tokens that the endpoint has issued so far, and the one that was stored first. -/
def System.known (s : System) : List β :=
  ((storedAccess codec origin).toList ++ s.answers.filterMap (·.accessToken codec)).map view

/-- No success repeats a token, and nothing is pushed. -/
def Distinct (s : System) : Action → Prop
  | .start _ (.updateTokens ..) => False
  | .answer _ answer | .orphanAnswer _ answer =>
    ∀ token ∈ answer.accessToken codec, view token ∉ s.known view codec origin
  | _ => True

/-- A token that is not going to be written. -/
def System.Settled (s : System) (token : String) : Prop :=
  view token ∈ s.known view codec origin ∧ view token ∉ (s.carried codec).map view

structure Tokens (s : System) : Prop where
  coherent : s.Coherent
  shaped : ∀ t, (s.tasks t).Shaped
  renames : ∀ job auth, (job, auth) ∈ s.renames → (Phase.dispatched job auth).Shaped
  known : ∀ token ∈ s.carried codec, view token ∈ s.known view codec origin
  distinct : ((s.carried codec).map view).Nodup
  stored : ∀ token ∈ storedAccess codec s.file, s.Settled view codec origin token
  held : ∀ t, ∀ token ∈ (s.tasks t).held, s.Settled view codec origin token

/-- What one step does to the tokens. -/
structure Effect (s s' : System) : Prop where
  known : s.known view codec origin ⊆ s'.known view codec origin
  carried : ∀ token ∈ s'.carried codec, token ∈ s.carried codec ∨
    view token ∉ s.known view codec origin ∧ view token ∈ s'.known view codec origin
  distinct : ((s'.carried codec).map view).Nodup
  /-- The file keeps its token or takes one that was carried. -/
  stored : ∀ token ∈ storedAccess codec s'.file, token ∈ storedAccess codec s.file ∨
    token ∈ s.carried codec ∧ view token ∉ (s'.carried codec).map view
  held : ∀ t, ∀ token ∈ (s'.tasks t).held,
    token ∈ (s.tasks t).held ∨ token ∈ storedAccess codec s.file ∨
    token ∈ s.carried codec ∧ view token ∉ (s'.carried codec).map view

end

section
variable {β : Type} {view : String → β} {codec : Json.Codec} {origin : File} {s s' : System}

theorem storedAccess_written {job : Job} {auth : FsAuth} {token : String}
    (shaped : (Phase.dispatched job auth).Shaped)
    (read : token ∈ storedAccess codec (some (auth.toVecPretty codec))) :
    token = job.accessToken := by
  obtain ⟨⟨nonempty, _⟩, same⟩ := shaped
  simp only [storedAccess, readFile, readRaw, FsAuth.fromSlice_toVecPretty, Except.bind,
    FsAuth.credentials, same, if_neg nonempty] at read
  split at read
  · cases read
  · cases read
    rfl

theorem System.carried_proceed (s : System) (t : Nat) (phase : Phase) :
    (s.proceed t phase).carried codec =
      (phase.carried codec).toList ++ s.renames.map (·.1.accessToken) := by
  rw [System.carried, System.current_proceed]
  cases phase <;> rfl

/-- The holder carries what its phase carries. -/
theorem System.Coherent.carried_eq (coherent : s.Coherent) {t : Nat} {phase : Phase}
    (here : s.tasks t = phase) (holds : phase.holds = true) :
    s.carried codec = (phase.carried codec).toList ++ s.renames.map (·.1.accessToken) := by
  rw [System.carried, coherent.current_eq (here ▸ holds), here]

theorem System.known_grows (s : System) (presented : String) (answer : TokenAnswer) :
    s.known view codec origin ⊆ (s.exchange presented answer).known view codec origin := by
  have sub : s.answers.Sublist (s.exchange presented answer).answers := by
    cases answer <;> exact List.sublist_cons_self ..
  exact (((List.Sublist.refl _).append (sub.filterMap _)).map view).subset

theorem System.known_exchange (s : System) (presented : String) {answer : TokenAnswer}
    {token : String} (issued : answer.accessToken codec = some token) :
    view token ∈ (s.exchange presented answer).known view codec origin := by
  refine List.mem_map_of_mem (List.mem_append_right _ ?_)
  cases answer <;> simp [System.exchange, issued]

theorem Job.held_written (job : Job) (result : Except CredentialsError Unit) {token : String}
    (held : token ∈ (Phase.done (job.written result)).held) : token = job.accessToken := by
  simp only [Job.written] at held
  split at held
  · cases held
    rfl
  · cases held
  · cases held
  · cases held

theorem Refresher.held_refreshFailed {op : Refresher} {creds : OAuthCredentials}
    {error : CredentialsError} {token : String}
    (held : token ∈ (Phase.done (op.refreshFailed creds error)).held) :
    token = creds.accessToken := by
  cases op with
  | getCredentials =>
    cases held
    rfl
  | refreshCredentials | checkAndRefresh => cases held

/-- A read leads to the stored token, if to any. -/
theorem held_afterRead {op : Refresher} {nowMs : Int64} {failure : Option String} {file : File}
    {token : String} (held : token ∈ (afterRead op nowMs
      ((contents codec file failure).bind FsAuth.credentials)).held) :
    token ∈ storedAccess codec file := by
  cases failure with
  | some failure => cases op <;> cases held
  | none =>
    change token ∈ (afterRead op nowMs (readFile codec file)).held at held
    cases read : readFile codec file with
    | error error =>
      rw [read] at held
      cases op <;> cases held
    | ok creds =>
      rw [storedAccess, read]
      rw [read, afterRead] at held
      cases op with
      | refreshCredentials => exact held
      | getCredentials =>
        simp only [Refresher.fresh] at held
        cases due : tokenExpired creds.expiresAtMs nowMs <;> rw [due] at held <;> exact held
      | checkAndRefresh =>
        simp only [Refresher.fresh] at held
        cases due : tokenExpired creds.expiresAtMs nowMs <;> rw [due] at held
        · cases held
        · exact held

theorem carried_afterRead {op : Refresher} {nowMs : Int64}
    {read : Except CredentialsError OAuthCredentials} :
    (afterRead op nowMs read).carried codec = none := by
  rw [afterRead.eq_def]
  split
  · rfl
  · split
    · rfl
    · rfl

/-- A response is taken up with its token, or is given up. -/
theorem afterAnswer_carries (codec : Json.Codec) (op : Refresher) (creds : OAuthCredentials) (nowMs : Int64)
    (answer : TokenAnswer) :
    (∃ error, afterAnswer op creds nowMs (refreshToken codec answer) =
      .done (op.refreshFailed creds error)) ∨
    ∃ job, afterAnswer op creds nowMs (refreshToken codec answer) = .updating job ∧
      job.Shaped ∧ answer.accessToken codec = some job.accessToken := by
  cases taken : refreshToken codec answer with
  | error error => exact .inl ⟨error, rfl⟩
  | ok parsed =>
    cases expiry : expiresAtFrom nowMs parsed.expiresIn with
    | error error =>
      refine .inl ⟨error, ?_⟩
      simp only [afterAnswer, bind, Except.bind, expiry]
    | ok expiresAtMs =>
      refine .inr ⟨⟨parsed.accessToken, rotatedToken creds.refreshToken parsed.refreshToken,
        expiresAtMs, .refresher op creds.userId⟩, ?_, ⟨?_, by simp⟩, ?_⟩
      · simp only [afterAnswer, bind, Except.bind, expiry, pure, Except.pure]
      · exact refreshToken_nonempty taken
      · rw [TokenAnswer.accessToken, taken]
        rfl

/-- Nothing new is carried. -/
theorem Effect.fewer (tokens : Tokens view codec origin s)
    (sub : (s'.carried codec).Sublist (s.carried codec))
    (known : s.known view codec origin ⊆ s'.known view codec origin)
    (stored : ∀ token ∈ storedAccess codec s'.file, token ∈ storedAccess codec s.file ∨
      token ∈ s.carried codec ∧ view token ∉ (s'.carried codec).map view)
    (held : ∀ t, ∀ token ∈ (s'.tasks t).held,
      token ∈ (s.tasks t).held ∨ token ∈ storedAccess codec s.file ∨
      token ∈ s.carried codec ∧ view token ∉ (s'.carried codec).map view) :
    Effect view codec origin s s' where
  known := known
  carried _ carried := .inl (sub.subset carried)
  distinct := tokens.distinct.sublist (sub.map view)
  stored := stored
  held := held

theorem Tokens.effect_refl (tokens : Tokens view codec origin s) : Effect view codec origin s s :=
  .fewer tokens (.refl _) (List.Subset.refl _) (fun _ => .inl) fun _ _ => .inl

/-- A move of one call, which leaves the file and the answers alone. -/
theorem Effect.move (tokens : Tokens view codec origin s) {b : System} {t : Nat}
    {phase phase' : Phase} (here : s.tasks t = phase) (tasks : b.tasks = s.tasks)
    (file : b.file = s.file) (answers : b.answers = s.answers)
    (sub : ((phase'.carried codec).toList ++ b.renames.map (·.1.accessToken)).Sublist
      (s.carried codec))
    (held : ∀ token ∈ phase'.held, token ∈ phase.held ∨ token ∈ storedAccess codec s.file ∨
      token ∈ s.carried codec ∧ view token ∉
        ((phase'.carried codec).toList ++ b.renames.map (·.1.accessToken)).map view) :
    Effect view codec origin s (b.proceed t phase') := by
  rw [← System.carried_proceed b t] at sub held
  refine .fewer tokens sub ?_ ?_ ?_
  · rw [System.known, System.known, System.proceed, System.put, answers]
    exact List.Subset.refl _
  · intro token stored
    rw [System.proceed_file, file] at stored
    exact .inl stored
  · intro u token holds
    by_cases same : u = t
    · subst same
      rw [System.proceed_tasks_here] at holds
      rw [here]
      exact held token holds
    · rw [System.proceed_tasks_other _ _ _ same, tasks] at holds
      exact .inl holds

/-- What the holder carried and carries no more. -/
theorem Tokens.released (tokens : Tokens view codec origin s) {t : Nat} {phase : Phase}
    (here : s.tasks t = phase) (holds : phase.holds = true) {token : String}
    (carried : phase.carried codec = some token) :
    token ∈ s.carried codec ∧ view token ∉ (s.renames.map (·.1.accessToken)).map view := by
  have all := tokens.distinct
  rw [tokens.coherent.carried_eq here holds, carried] at all ⊢
  exact ⟨List.mem_cons_self, (List.nodup_cons.mp all).1⟩

/-- A move of the holder, which goes on with what it carried or lets go of it. -/
theorem Effect.holder (tokens : Tokens view codec origin s) {b : System} {t : Nat}
    {phase phase' : Phase} (here : s.tasks t = phase) (holds : phase.holds = true)
    (tasks : b.tasks = s.tasks) (file : b.file = s.file) (answers : b.answers = s.answers)
    (renames : b.renames = s.renames)
    (carries : phase'.carried codec = none ∨ phase'.carried codec = phase.carried codec)
    (held : ∀ token ∈ phase'.held, token ∈ phase.held ∨ token ∈ storedAccess codec s.file ∨
      phase.carried codec = some token ∧ phase'.carried codec = none) :
    Effect view codec origin s (b.proceed t phase') := by
  refine .move tokens here tasks file answers ?_ ?_
  · rw [tokens.coherent.carried_eq here holds, renames]
    rcases carries with none | same
    · rw [none]
      exact List.sublist_append_right _ _
    · rw [same]
  · intro token given
    rcases held token given with kept | stored | ⟨carried, none⟩
    · exact .inl kept
    · exact .inr (.inl stored)
    · rw [none, renames]
      exact .inr (.inr (tokens.released here holds carried))

theorem Tokens.effect_answer (tokens : Tokens view codec origin s) {t : Nat} {op : Refresher}
    {creds : OAuthCredentials} {answer : TokenAnswer} (here : s.tasks t = .posting op creds)
    (fresh : ∀ token ∈ answer.accessToken codec, view token ∉ s.known view codec origin) :
    Effect view codec origin s ((s.exchange creds.refreshToken answer).proceed t
      (.answered op creds answer)) := by
  have before : s.carried codec = s.renames.map (·.1.accessToken) :=
    tokens.coherent.carried_eq here rfl
  have after : ((s.exchange creds.refreshToken answer).proceed t
      (.answered op creds answer)).carried codec =
      (answer.accessToken codec).toList ++ s.carried codec := by
    rw [System.carried_proceed, System.exchange_renames, before]
    rfl
  constructor
  · exact s.known_grows _ _
  · intro token carried
    rw [after, List.mem_append] at carried
    rcases carried with issued | carried
    · rw [Option.mem_toList] at issued
      exact .inr ⟨fresh token issued, s.known_exchange _ issued⟩
    · exact .inl carried
  · rw [after, List.map_append, List.nodup_append]
    refine ⟨?_, tokens.distinct, ?_⟩
    · cases answer.accessToken codec <;> simp
    · rintro _ issued _ carried rfl
      obtain ⟨token, given, rfl⟩ := List.mem_map.mp issued
      obtain ⟨token', carried, same⟩ := List.mem_map.mp carried
      refine fresh token (Option.mem_toList.mp given) ?_
      rw [← same]
      exact tokens.known token' carried
  · intro token stored
    rw [System.proceed_file, System.exchange_file] at stored
    exact .inl stored
  · intro u token held
    by_cases same : u = t
    · subst same
      rw [System.proceed_tasks_here] at held
      rw [here]
      exact .inl held
    · rw [System.proceed_tasks_other _ _ _ same, System.exchange_tasks] at held
      exact .inl held

theorem Tokens.effect_rename (tokens : Tokens view codec origin s) {t : Nat} {job : Job}
    {auth : FsAuth} (here : s.tasks t = .dispatched job auth) :
    Effect view codec origin s ((s.install codec job auth).proceed t (.syncing job)) := by
  have shaped := tokens.shaped t
  rw [here] at shaped
  have after : ((s.install codec job auth).proceed t (.syncing job)).carried codec =
      s.renames.map (·.1.accessToken) := System.carried_proceed ..
  have released : job.accessToken ∈ s.carried codec ∧
      view job.accessToken ∉ (s.renames.map (·.1.accessToken)).map view :=
    tokens.released here rfl rfl
  refine .fewer tokens ?_ (List.Subset.refl _) ?_ ?_
  · rw [after, tokens.coherent.carried_eq here rfl]
    exact List.sublist_append_right _ _
  · intro token stored
    rw [storedAccess_written shaped stored, after]
    exact .inr released
  · intro u token held
    by_cases same : u = t
    · subst same
      rw [System.proceed_tasks_here] at held
      cases held
      rw [after]
      exact .inr (.inr released)
    · rw [System.proceed_tasks_other _ _ _ same] at held
      exact .inl held

theorem Tokens.effect_orphanRename (tokens : Tokens view codec origin s) {i : Nat} {job : Job}
    {auth : FsAuth} (here : s.renames[i]? = some (job, auth)) :
    Effect view codec origin s
      ({ s with renames := s.renames.eraseIdx i }.install codec job auth) := by
  obtain ⟨bound, here⟩ := List.getElem?_eq_some_iff.mp here
  have shaped := tokens.renames job auth (here ▸ List.getElem_mem bound)
  have after : ({ s with renames := s.renames.eraseIdx i }.install codec job auth).carried codec =
      (s.current.carried codec).toList ++ (s.renames.eraseIdx i).map (·.1.accessToken) := rfl
  -- the erased rename comes first, up to order
  have order : (s.carried codec).Perm (job.accessToken ::
      ({ s with renames := s.renames.eraseIdx i }.install codec job auth).carried codec) := by
    have erased : ((job, auth) :: s.renames.eraseIdx i).Perm s.renames := by
      rw [← here]
      exact List.getElem_cons_eraseIdx_perm bound
    rw [after, System.carried]
    exact ((erased.symm.map _).append_left _).trans List.perm_middle
  have distinct := (order.map view).nodup_iff.mp tokens.distinct
  rw [List.map_cons, List.nodup_cons] at distinct
  refine .fewer tokens ?_ (List.Subset.refl _) ?_ ?_
  · exact (((List.eraseIdx_sublist ..).map _).append_left _)
  · intro token stored
    rw [storedAccess_written shaped stored]
    exact .inr ⟨order.mem_iff.mpr List.mem_cons_self, distinct.1⟩
  · intro t token held
    exact .inl held

/-- A call outside its critical section, before and after. -/
theorem Tokens.effect_put (tokens : Tokens view codec origin s) {t : Nat} {phase : Phase}
    (outside : (s.tasks t).holds = false) (held : phase.held = none) :
    Effect view codec origin s (s.put t phase) := by
  have same : (s.put t phase).carried codec = s.carried codec := by
    rw [System.carried, tokens.coherent.current_put outside]
    rfl
  refine .fewer tokens (same ▸ .refl _) (List.Subset.refl _) (fun _ => .inl) ?_
  intro u token given
  by_cases same : u = t
  · subst same
    rw [System.put_tasks_here, held] at given
    cases given
  · rw [System.put_tasks_other _ _ _ same] at given
    exact .inl given

theorem Tokens.effect (tokens : Tokens view codec origin s) {a : Action}
    (distinct : Distinct view codec origin s a) (taken : step codec s a = some s') :
    Effect view codec origin s s' := by
  cases step_spec codec taken with
  | start here | dropWaiting here => exact tokens.effect_put (by rw [here]; rfl) rfl
  | @acquire t op free here =>
    have shaped := tokens.shaped t
    rw [here] at shaped
    have renames : s.carried codec = s.renames.map (·.1.accessToken) := by
      rw [System.carried, System.current, free]
      rfl
    cases op with
    | refresher | fullCredentials =>
      exact .move tokens here rfl rfl rfl (renames ▸ .refl _) (by rintro _ ⟨⟩)
    | updateTokens => exact shaped.elim
  | read here =>
    exact .holder tokens here rfl rfl rfl rfl rfl (.inl carried_afterRead)
      fun _ held => .inr (.inl (held_afterRead held))
  | readFull here => exact .holder tokens here rfl rfl rfl rfl rfl (.inl rfl) (by rintro _ ⟨⟩)
  | @reread t job nowMs failure here =>
    cases contents codec s.file failure with
    | error error =>
      refine .holder tokens here rfl rfl rfl rfl rfl (.inl rfl) fun token held => ?_
      rw [job.held_written _ held]
      exact .inr (.inr ⟨rfl, rfl⟩)
    | ok auth => exact .holder tokens here rfl rfl rfl rfl rfl (.inr rfl) (by rintro _ ⟨⟩)
  | answer here => exact tokens.effect_answer here distinct
  | @deliver t op creds answer nowMs here =>
    rcases afterAnswer_carries codec op creds nowMs answer with
      ⟨error, gaveUp⟩ | ⟨job, updating, _, issued⟩
    · rw [gaveUp]
      refine .holder tokens here rfl rfl rfl rfl rfl (.inl rfl) fun token held => .inl ?_
      rw [Refresher.held_refreshFailed held]
      rfl
    · rw [updating]
      exact .holder tokens here rfl rfl rfl rfl rfl (.inr issued.symm) (by rintro _ ⟨⟩)
  | losePost here | loseAnswer here =>
    refine .holder (b := { s with posts := _ }) tokens here rfl rfl rfl rfl rfl (.inl rfl)
      fun token held => .inl ?_
    rw [Refresher.held_refreshFailed held]
    rfl
  | dispatch here => exact .holder tokens here rfl rfl rfl rfl rfl (.inr rfl) (by rintro _ ⟨⟩)
  | rename here => exact tokens.effect_rename here
  | @finish t job here | @failSync t job message here =>
    refine .holder tokens here rfl rfl rfl rfl rfl (.inl rfl) fun token held => .inl ?_
    rw [job.held_written _ held]
    rfl
  | @failWrite t job auth message here =>
    rcases here with here | here
    all_goals
      refine .holder tokens here rfl rfl rfl rfl rfl (.inl rfl) fun token held => ?_
      rw [job.held_written _ held]
      exact .inr (.inr ⟨rfl, rfl⟩)
  | drop holds => exact .holder tokens rfl holds rfl rfl rfl rfl (.inl rfl) (by rintro _ ⟨⟩)
  | dropPost here =>
    exact .holder (b := { s with posts := _ }) tokens here rfl rfl rfl rfl rfl (.inl rfl)
      (by rintro _ ⟨⟩)
  | dropRename here =>
    refine .move (b := { s with renames := (_, _) :: s.renames }) tokens here rfl rfl rfl ?_
      (by rintro _ ⟨⟩)
    rw [tokens.coherent.carried_eq here rfl]
    exact .refl _
  | @orphanAnswer i token answer here =>
    have known : s.known view codec origin ⊆
        ({ s with posts := s.posts.eraseIdx i }.exchange token answer).known view codec origin :=
      System.known_grows { s with posts := s.posts.eraseIdx i } token answer
    cases answer <;>
      exact .fewer tokens (.refl _) known (fun _ => .inl) fun _ _ => .inl
  | orphanRename here => exact tokens.effect_orphanRename here

theorem Effect.settled (effect : Effect view codec origin s s') {token : String}
    (settled : s.Settled view codec origin token) : s'.Settled view codec origin token := by
  refine ⟨effect.known settled.1, ?_⟩
  intro carried
  obtain ⟨token', carried, same⟩ := List.mem_map.mp carried
  rcases effect.carried token' carried with before | ⟨fresh, _⟩
  · exact settled.2 (same ▸ List.mem_map_of_mem before)
  · exact fresh (same ▸ settled.1)

/-- What was carried and is no longer is settled. -/
theorem Tokens.settles (tokens : Tokens view codec origin s)
    (effect : Effect view codec origin s s') {token : String} (carried : token ∈ s.carried codec)
    (free : view token ∉ (s'.carried codec).map view) : s'.Settled view codec origin token :=
  ⟨effect.known (tokens.known token carried), free⟩

/-- Only issued tokens are written. -/
theorem Phase.shaped_step (all : ∀ t, (s.tasks t).Shaped)
    {a : Action} (distinct : Distinct view codec origin s a) (taken : step codec s a = some s')
    (u : Nat) : (s'.tasks u).Shaped := by
  have shaped {t : Nat} {phase : Phase} (here : s.tasks t = phase) : phase.Shaped := here ▸ all t
  have moves {b : System} {t : Nat} {phase : Phase} (tasks : b.tasks = s.tasks)
      (shaped : u = t → phase.Shaped) : ((b.proceed t phase).tasks u).Shaped :=
    s.proceed_phase t phase Phase.Shaped tasks shaped (all u)
  cases step_spec codec taken with
  | @start t op here =>
    refine s.put_phase _ _ Phase.Shaped (fun _ => ?_) (all u)
    cases op with
    | updateTokens => exact distinct.elim
    | refresher | fullCredentials => trivial
  | dropWaiting => exact s.put_phase _ _ Phase.Shaped (fun _ => trivial) (all u)
  | @acquire t op free here =>
    refine moves rfl fun _ => ?_
    cases op with
    | updateTokens => exact (shaped here).elim
    | refresher | fullCredentials => trivial
  | read here =>
    refine moves rfl fun _ => ?_
    rw [afterRead.eq_def]
    split
    · trivial
    · split
      · trivial
      · trivial
  | @reread t job nowMs failure here =>
    refine moves rfl fun _ => ?_
    cases contents codec s.file failure with
    | error => trivial
    | ok auth => exact ⟨shaped here, rfl⟩
  | answer here => exact moves (s.exchange_tasks ..) fun _ => trivial
  | @deliver t op creds answer nowMs here =>
    refine moves rfl fun _ => ?_
    rcases afterAnswer_carries codec op creds nowMs answer with
      ⟨error, gaveUp⟩ | ⟨job, updating, issued, _⟩
    · rw [gaveUp]
      trivial
    · rw [updating]
      exact issued
  | dispatch here =>
    have written := shaped here
    refine moves rfl fun _ => ?_
    exact written
  | orphanAnswer =>
    rw [System.exchange_tasks]
    exact all u
  | orphanRename => exact all u
  | _ => exact moves rfl fun _ => trivial

theorem Phase.shaped_renames (all : ∀ t, (s.tasks t).Shaped)
    (renames : ∀ job auth, (job, auth) ∈ s.renames → (Phase.dispatched job auth).Shaped)
    {a : Action} (taken : step codec s a = some s') :
    ∀ job auth, (job, auth) ∈ s'.renames → (Phase.dispatched job auth).Shaped := by
  cases step_spec codec taken with
  | dropRename here =>
    intro job auth member
    rcases List.mem_cons.mp member with same | member
    · cases same
      exact here ▸ all _
    · exact renames job auth member
  | orphanRename here =>
    intro job auth member
    exact renames job auth (List.mem_of_mem_eraseIdx member)
  | answer here =>
    intro job auth member
    rw [System.proceed_renames, System.exchange_renames] at member
    exact renames job auth member
  | orphanAnswer here =>
    rw [System.exchange_renames]
    exact renames
  | _ => exact renames

/-- The invariant after a step with this effect. -/
theorem Tokens.after (tokens : Tokens view codec origin s) (effect : Effect view codec origin s s')
    (coherent : s'.Coherent) (shaped : ∀ t, (s'.tasks t).Shaped)
    (renames : ∀ job auth, (job, auth) ∈ s'.renames → (Phase.dispatched job auth).Shaped) :
    Tokens view codec origin s' where
  coherent := coherent
  shaped := shaped
  renames := renames
  known := by
    intro token carried
    rcases effect.carried token carried with before | ⟨_, issued⟩
    · exact effect.known (tokens.known token before)
    · exact issued
  distinct := effect.distinct
  stored := by
    intro token stored
    rcases effect.stored token stored with before | ⟨carried, free⟩
    · exact effect.settled (tokens.stored token before)
    · exact tokens.settles effect carried free
  held := by
    intro t token held
    rcases effect.held t token held with before | stored | ⟨carried, free⟩
    · exact effect.settled (tokens.held t token before)
    · exact effect.settled (tokens.stored token stored)
    · exact tokens.settles effect carried free

theorem Tokens.step (tokens : Tokens view codec origin s) {a : Action}
    (distinct : Distinct view codec origin s a) (taken : step codec s a = some s') :
    Tokens view codec origin s' :=
  tokens.after (tokens.effect distinct taken) (tokens.coherent.step taken)
    (Phase.shaped_step tokens.shaped distinct taken)
    (Phase.shaped_renames tokens.shaped tokens.renames taken)

/-- A call outside its critical section is begun, or its result is taken. -/
theorem Tokens.put (tokens : Tokens view codec origin s) {t : Nat} {phase : Phase}
    (outside : (s.tasks t).holds = false) (outside' : phase.holds = false)
    (held : phase.held = none) (shaped : phase.Shaped) :
    Tokens view codec origin (s.put t phase) :=
  tokens.after (tokens.effect_put outside held) (tokens.coherent.put outside outside')
    (fun u => s.put_phase t phase Phase.Shaped (fun _ => shaped) (tokens.shaped u)) tokens.renames

theorem Tokens.initial (idle : ∀ t, s.tasks t = .idle) (free : s.holder = none)
    (renames : s.renames = []) : Tokens view codec s.file s := by
  have nothing : s.carried codec = [] := by
    rw [System.carried, System.current, free, renames]
    rfl
  constructor
  · intro t
    simp [idle, free, Phase.holds]
  · intro t
    rw [idle]
    trivial
  · simp [renames]
  · simp [nothing]
  · simp [nothing]
  · intro token stored
    refine ⟨List.mem_map_of_mem (List.mem_append_left _ ?_), by simp [nothing]⟩
    rw [Option.mem_toList]
    exact stored
  · intro t token held
    rw [idle] at held
    cases held

/-- The file does not have this token. -/
def System.Replaced (view : String → β) (codec : Json.Codec) (s : System) (token : String) : Prop :=
  ∀ stored ∈ storedAccess codec s.file, view stored ≠ view token

theorem System.Settled.ne_carried {token carried : String}
    (settled : s.Settled view codec origin token) (carries : carried ∈ s.carried codec) :
    view carried ≠ view token := by
  intro same
  exact settled.2 (same ▸ List.mem_map_of_mem carries)

/-- A settled token that has been replaced does not come back. -/
theorem Effect.replaced (effect : Effect view codec origin s s') {token : String}
    (settled : s.Settled view codec origin token) (replaced : s.Replaced view codec token) :
    s'.Replaced view codec token := by
  intro stored read
  rcases effect.stored stored read with before | ⟨carried, _⟩
  · exact replaced stored before
  · exact settled.ne_carried carried

/-- Nor is it returned by a call that did not have it. -/
theorem Effect.avoids (effect : Effect view codec origin s s') {token : String}
    (settled : s.Settled view codec origin token) (replaced : s.Replaced view codec token) {t : Nat}
    (avoids : ∀ held ∈ (s.tasks t).held, view held ≠ view token) :
    ∀ held ∈ (s'.tasks t).held, view held ≠ view token := by
  intro held holds
  rcases effect.held t held holds with before | stored | ⟨carried, _⟩
  · exact avoids held before
  · exact replaced held stored
  · exact settled.ne_carried carried

end
end CodexProxy.Credentials
