import CodexProxy.Credentials.System

/-! One invariant carries the token chain through every order of steps. It says what the
holder of the mutex may rely on in each phase. -/
namespace CodexProxy.Credentials
variable (codec : Json.Codec)

/-- Exactly the holder is in its critical section. -/
def System.Coherent (s : System) : Prop := ∀ t, (s.tasks t).holds = true ↔ s.holder = some t

/-- The file decodes, so that an update does not fail. -/
def Readable (file : File) : Prop := ∃ auth, readRaw codec file = .ok auth

/-- Outside the window from the grant to the rename the file has the live token. Within
it the phase has. -/
def Phase.Sound (live : Option String → Prop) (file : File) : Phase → Prop
  | .posting _ creds =>
    live (some creds.refreshToken) ∧ live (storedToken codec file) ∧ Readable codec file
  | .answered _ _ (.granted issued body) =>
    Accepted codec issued body ∧ live (some issued) ∧ Readable codec file
  | .updating job =>
    match job.issued with
    | some token => live (some token) ∧ Readable codec file
    | none => live (storedToken codec file)
  | .writing job auth | .dispatched job auth =>
    match job.issued with
    | some token => live (some token) ∧ auth.tokens.refreshToken = token
    | none => live (storedToken codec file)
  | _ => live (storedToken codec file)

/-- A token is live when it is not spent; under the strict reading it is the latest too. -/
def System.Live (strict : Prop) (s : System) (token : Option String) : Prop :=
  (∀ x ∈ token, x ∉ s.consumed) ∧ (strict → token = s.latest)

structure Chain (strict : Prop) (s : System) : Prop where
  coherent : s.Coherent
  sound : s.current.Sound codec (s.Live strict) s.file
  pushed : ∀ job auth, (job, auth) ∈ s.renames → job.issued = none
  kept : strict → s.renames = []

namespace System

theorem Coherent.proceed {s : System} (coherent : s.Coherent) {t : Nat} {phase : Phase}
    (free : s.holder = none ∨ s.holder = some t) : (s.proceed t phase).Coherent := by
  intro u
  by_cases same : u = t
  · subst same
    cases holds : phase.holds <;> simp [System.proceed, System.put, holds]
  · have other : (s.tasks u).holds = false := by
      rw [Bool.eq_false_iff]
      intro held
      have holder := (coherent u).mp held
      rcases free with none | some
      · simp [none] at holder
      · simp only [some, Option.some.injEq] at holder
        exact same holder.symm
    cases holds : phase.holds <;> simp [System.proceed, System.put, holds, same, other, Ne.symm same]

theorem Coherent.put {s : System} (coherent : s.Coherent) {t : Nat} {phase : Phase}
    (outside : (s.tasks t).holds = false) (outside' : phase.holds = false) :
    (s.put t phase).Coherent := by
  intro u
  by_cases same : u = t
  · subst same
    have free := coherent u
    simp only [outside, Bool.false_eq_true, false_iff] at free
    simp [System.put, outside', free]
  · simpa [System.put, same] using coherent u

/-- Nobody else has the mutex while a call is in its critical section. -/
theorem Coherent.current_eq {s : System} (coherent : s.Coherent) {t : Nat}
    (holds : (s.tasks t).holds = true) : s.current = s.tasks t := by
  rw [System.current, (coherent t).mp holds]

theorem Coherent.current_put {s : System} (coherent : s.Coherent) {t : Nat} {phase : Phase}
    (outside : (s.tasks t).holds = false) : (s.put t phase).current = s.current := by
  cases free : s.holder with
  | none => simp [System.current, System.put, free]
  | some u =>
    have different : u ≠ t := by
      intro same
      rw [same] at free
      rw [(coherent t).mpr free] at outside
      cases outside
    simp [System.current, System.put, free, different]

theorem current_proceed (s : System) (t : Nat) (phase : Phase) :
    (s.proceed t phase).current = if phase.holds then phase else .idle := by
  cases holds : phase.holds <;> simp [System.current, System.proceed, System.put, holds]

end System

section
variable {codec} {live : Option String → Prop} {file : File}

theorem Phase.Sound.released {phase : Phase} (sound : phase.Sound codec live file)
    (released : phase.holds = false) : live (storedToken codec file) := by
  cases phase with
  | idle | locking | done => exact sound
  | _ => cases released

/-- Outside the window the file has the live token. -/
theorem Phase.Sound.stored {phase : Phase} (sound : phase.Sound codec live file)
    (settled : phase.pending = none) : live (storedToken codec file) := by
  cases phase with
  | posting => exact sound.2.1
  | answered op creds answer =>
    cases answer with
    | refused => exact sound
    | granted => cases settled
  | updating job | writing job | dispatched job =>
    simp only [Phase.pending] at settled
    simpa only [Phase.Sound, settled] using sound
  | _ => exact sound

theorem sound_afterLock (stored : live (storedToken codec file)) (op : Operation) :
    (afterLock file op).Sound codec live file := by
  cases op with
  | refresher | fullCredentials => exact stored
  | updateTokens =>
    simp only [afterLock]
    split
    · exact stored
    · split
      · exact stored
      · exact stored
    · exact stored

theorem sound_afterRead {op : Refresher} {nowMs : Int64} {failure : Option String}
    (stored : live (storedToken codec file)) :
    (afterRead op nowMs ((contents codec file failure).bind FsAuth.credentials)).Sound
      codec live file := by
  cases read : (contents codec file failure).bind FsAuth.credentials with
  | error => exact stored
  | ok creds =>
    simp only [afterRead]
    split
    · exact stored
    · cases failure with
      | some => cases read
      | none =>
        have token := storedToken_of_readFile codec read
        refine ⟨token ▸ stored, stored, ?_⟩
        cases raw : readRaw codec file with
        | error => simp [contents, raw, Except.bind] at read
        | ok auth => exact ⟨auth, raw⟩

/-- An accepted answer leads to the update with the issued token. -/
theorem afterAnswer_accepted (op : Refresher) (creds : OAuthCredentials) (nowMs : Int64)
    {issued : String} {body : List UInt8} (accepted : Accepted codec issued body) :
    ∃ job, afterAnswer op creds nowMs (refreshToken codec (.granted issued body)) =
      .updating job ∧ job.issued = some issued := by
  obtain ⟨parsed, taken, same, nonempty, positive⟩ := accepted
  obtain ⟨expiresAtMs, expiry⟩ := expiresAtFrom_ok nowMs positive
  refine ⟨⟨parsed.accessToken, rotatedToken creds.refreshToken parsed.refreshToken, expiresAtMs,
    .refresher op creds.userId⟩, ?_, ?_⟩
  · rw [afterAnswer, taken]
    simp only [bind, Except.bind, expiry, pure, Except.pure]
  · simp [Job.issued, rotatedToken, same, nonempty]

/-- A refused one ends the call. -/
theorem afterAnswer_refused (codec : Json.Codec) (op : Refresher) (creds : OAuthCredentials) (nowMs : Int64)
    (status body : String) :
    ∃ outcome, afterAnswer op creds nowMs (refreshToken codec (.refused status body)) =
      .done outcome := ⟨_, rfl⟩

theorem sound_afterAnswer {op : Refresher} {creds : OAuthCredentials} {nowMs : Int64}
    {answer : TokenAnswer} (sound : (Phase.answered op creds answer).Sound codec live file) :
    (afterAnswer op creds nowMs (refreshToken codec answer)).Sound codec live file := by
  cases answer with
  | refused status body =>
    obtain ⟨outcome, done⟩ := afterAnswer_refused codec op creds nowMs status body
    rw [done]
    exact sound
  | granted issued body =>
    obtain ⟨accepted, fresh, readable⟩ := sound
    obtain ⟨job, updating, token⟩ := afterAnswer_accepted op creds nowMs accepted
    rw [updating]
    simp only [Phase.Sound, token]
    exact ⟨fresh, readable⟩

theorem sound_afterReread {job : Job} {failure : Option String}
    (sound : (Phase.updating job).Sound codec live file)
    (reads : failure ≠ none → job.issued = none) :
    (afterReread job (contents codec file failure)).Sound codec live file := by
  cases token : job.issued with
  | none =>
    simp only [Phase.Sound, token] at sound
    cases contents codec file failure with
    | error => exact sound
    | ok auth => simpa only [afterReread, Phase.Sound, token] using sound
  | some token' =>
    have quiet : failure = none := by
      by_contra some
      rw [reads some] at token
      cases token
    simp only [Phase.Sound, token] at sound
    obtain ⟨fresh, auth, raw⟩ := sound
    rw [quiet, contents, raw]
    simp only [afterReread, Phase.Sound, token]
    refine ⟨fresh, ?_⟩
    cases writer : job.writer with
    | push => simp [Job.issued, writer] at token
    | refresher =>
      simp only [Job.issued, writer, Option.some.injEq] at token
      rw [← token]
      rfl

/-- What a phase relies on after the endpoint or the file has changed around it. -/
theorem Phase.Sound.change {live' : Option String → Prop} {file' : File} {phase : Phase}
    (sound : phase.Sound codec live file)
    (kept : ∀ token, token = phase.presented ∨ token = phase.pending → live token → live' token)
    (stored : phase.pending = none → live' (storedToken codec file'))
    (readable : Readable codec file → Readable codec file') : phase.Sound codec live' file' := by
  cases phase with
  | posting => exact ⟨kept _ (.inl rfl) sound.1, stored rfl, readable sound.2.2⟩
  | answered op creds answer =>
    cases answer with
    | refused => exact stored rfl
    | granted => exact ⟨sound.1, kept _ (.inr rfl) sound.2.1, readable sound.2.2⟩
  | updating job =>
    cases token : job.issued with
    | none => simpa only [Phase.Sound, token] using stored token
    | some =>
      simp only [Phase.Sound, token] at sound ⊢
      exact ⟨kept _ (.inr token.symm) sound.1, readable sound.2⟩
  | writing job | dispatched job =>
    cases token : job.issued with
    | none => simpa only [Phase.Sound, token] using stored token
    | some =>
      simp only [Phase.Sound, token] at sound ⊢
      exact ⟨kept _ (.inr token.symm) sound.1, sound.2⟩
  | _ => exact stored rfl

end

section
variable {codec} {strict : Prop} {s s' : System}

theorem readable_written (auth : FsAuth) : Readable codec (some (auth.toVecPretty codec)) :=
  ⟨auth, by rw [readRaw, FsAuth.fromSlice_toVecPretty]⟩

theorem System.Coherent.exchange (coherent : s.Coherent) (presented : String)
    (answer : TokenAnswer) : (s.exchange presented answer).Coherent := by
  cases answer <;> exact coherent

theorem System.Coherent.step (coherent : s.Coherent) {a : Action}
    (taken : Credentials.step codec s a = some s') : s'.Coherent := by
  have held {t : Nat} {phase : Phase} (here : s.tasks t = phase) (holds : phase.holds = true) :
      s.holder = none ∨ s.holder = some t := .inr ((coherent t).mp (here ▸ holds))
  cases step_spec codec taken with
  | start here | dropWaiting here => exact coherent.put (by rw [here]; rfl) rfl
  | acquire free here => exact coherent.proceed (.inl free)
  | @answer t op creds answer here =>
    refine (coherent.exchange creds.refreshToken answer).proceed ?_
    cases answer <;> exact held here rfl
  | losePost here | dropPost here =>
    exact System.Coherent.proceed (s := { s with posts := _ }) coherent (held here rfl)
  | dropRename here =>
    exact System.Coherent.proceed (s := { s with renames := _ }) coherent (held here rfl)
  | rename here =>
    exact System.Coherent.proceed (s := s.install codec _ _) coherent (held here rfl)
  | failWrite here =>
    rcases here with here | here
    · exact coherent.proceed (held here rfl)
    · exact coherent.proceed (held here rfl)
  | drop holds => exact coherent.proceed (held rfl holds)
  | @orphanAnswer i token answer here =>
    exact System.Coherent.exchange (s := { s with posts := s.posts.eraseIdx i }) coherent _ _
  | orphanRename => exact coherent
  | read here | readFull here | reread here | deliver here | loseAnswer here | dispatch here
  | finish here | failSync here => exact coherent.proceed (held here rfl)

/-- A call that is in its critical section has what its phase relies on. -/
theorem Chain.holding (chain : Chain codec strict s) {t : Nat} {phase : Phase}
    (here : s.tasks t = phase) (holds : phase.holds = true) :
    s.holder = some t ∧ phase.Sound codec (s.Live strict) s.file := by
  rw [← here] at holds
  refine ⟨(chain.coherent t).mp holds, ?_⟩
  rw [← here, ← chain.coherent.current_eq holds]
  exact chain.sound

theorem Chain.proceed {t : Nat} {phase : Phase} (coherent : s.Coherent)
    (free : s.holder = none ∨ s.holder = some t)
    (sound : phase.Sound codec (s.Live strict) s.file)
    (pushed : ∀ job auth, (job, auth) ∈ s.renames → job.issued = none)
    (kept : strict → s.renames = []) : Chain codec strict (s.proceed t phase) where
  coherent := coherent.proceed free
  sound := by
    rw [System.current_proceed]
    split
    · exact sound
    · rename_i released
      exact sound.released (Bool.eq_false_iff.mpr released)
  pushed := pushed
  kept := kept

theorem Chain.put (chain : Chain codec strict s) {t : Nat} {phase : Phase}
    (outside : (s.tasks t).holds = false) (outside' : phase.holds = false) :
    Chain codec strict (s.put t phase) where
  coherent := chain.coherent.put outside outside'
  sound := by
    rw [chain.coherent.current_put outside]
    exact chain.sound
  pushed := chain.pushed
  kept := chain.kept

/-- A move of the holder that leaves the file and the endpoint alone. -/
theorem Chain.move (chain : Chain codec strict s) {t : Nat} {phase phase' : Phase}
    (here : s.tasks t = phase) (holds : phase.holds = true)
    (sound : phase.Sound codec (s.Live strict) s.file →
      phase'.Sound codec (s.Live strict) s.file) : Chain codec strict (s.proceed t phase') := by
  have held := chain.holding here holds
  exact Chain.proceed chain.coherent (.inr held.1) (sound held.2) chain.pushed chain.kept

/-- The holder may give up where nothing is pending. -/
theorem Chain.settle (chain : Chain codec strict s) {t : Nat} {phase phase' : Phase}
    (here : s.tasks t = phase) (holds : phase.holds = true) (settled : phase.pending = none)
    (ends : phase'.holds = false) : Chain codec strict (s.proceed t phase') := by
  refine chain.move here holds ?_
  intro sound
  have stored := sound.stored settled
  cases phase' with
  | idle | locking | done => exact stored
  | _ => cases ends

theorem Chain.answer (chain : Chain codec strict s) {t : Nat} {op : Refresher}
    {creds : OAuthCredentials} {answer : TokenAnswer} (here : s.tasks t = .posting op creds)
    (served : Served codec s (.answer t answer)) :
    Chain codec strict ((s.exchange creds.refreshToken answer).proceed t
      (.answered op creds answer)) := by
  obtain ⟨holder, sound⟩ := chain.holding here rfl
  have coherent := chain.coherent.exchange creds.refreshToken answer
  cases answer with
  | refused status body =>
    exact Chain.proceed coherent (.inr holder) sound.2.1 chain.pushed chain.kept
  | granted issued body =>
    have presented : (s.tasks t).presented = some creds.refreshToken := by rw [here]; rfl
    obtain ⟨accepted, fresh⟩ := served issued body _ rfl presented
    refine Chain.proceed coherent (.inr holder) ?_ chain.pushed chain.kept
    refine ⟨accepted, ⟨?_, fun _ => rfl⟩, sound.2.2⟩
    intro x member
    cases member
    exact fresh

theorem Chain.rename (chain : Chain codec strict s) {t : Nat} {job : Job} {auth : FsAuth}
    (here : s.tasks t = .dispatched job auth) (served : Served codec s (.rename t)) :
    Chain codec strict ((s.install codec job auth).proceed t (.syncing job)) := by
  obtain ⟨holder, sound⟩ := chain.holding here rfl
  refine Chain.proceed (s := s.install codec job auth) chain.coherent (.inr holder) ?_
    chain.pushed chain.kept
  have token : storedToken codec (s.install codec job auth).file = some auth.tokens.refreshToken :=
    storedToken_written codec auth
  simp only [Phase.Sound, token]
  cases issued : job.issued with
  | none =>
    have fresh := served job auth here issued
    refine ⟨?_, ?_⟩
    · intro x member
      cases member
      exact fresh
    · intro _
      cases writer : job.writer with
      | push => simp [System.install, writer]
      | refresher => simp [Job.issued, writer] at issued
  | some =>
    simp only [Phase.Sound, issued] at sound
    obtain ⟨live, same⟩ := sound
    rw [same]
    refine ⟨live.1, ?_⟩
    intro strictly
    cases writer : job.writer with
    | push => simp [Job.issued, writer] at issued
    | refresher => simpa [System.install, writer] using live.2 strictly

/-- An abandoned request that is granted, with a token that nobody relies on. -/
theorem Chain.orphanAnswer (chain : Chain codec strict s) {i : Nat} {answer : TokenAnswer}
    {token : String}
    (unused : ∀ issued body, answer = .granted issued body → ¬ strict ∧
      storedToken codec s.file ≠ some token ∧
      s.current.presented ≠ some token ∧ s.current.pending ≠ some token) :
    Chain codec strict ({ s with posts := s.posts.eraseIdx i }.exchange token answer) := by
  cases answer with
  | refused => exact ⟨chain.coherent, chain.sound, chain.pushed, chain.kept⟩
  | granted issued body =>
    obtain ⟨lax, stored, presented, pending⟩ := unused issued body rfl
    have keeps : ∀ x, x ≠ some token → s.Live strict x →
        ({ s with posts := s.posts.eraseIdx i }.exchange token (.granted issued body)).Live
          strict x := by
      intro x other live
      refine ⟨?_, fun strictly => (lax strictly).elim⟩
      intro y member spent
      rcases List.mem_cons.mp spent with same | spent
      · exact other (by rw [← same]; exact member)
      · exact live.1 y member spent
    refine ⟨chain.coherent, ?_, chain.pushed, chain.kept⟩
    refine chain.sound.change ?_ ?_ id
    · intro x used live
      rcases used with rfl | rfl
      · exact keeps _ presented live
      · exact keeps _ pending live
    · intro settled
      exact keeps _ stored (chain.sound.stored settled)

/-- An abandoned rename of a pushed token that is not spent. -/
theorem Chain.orphanRename (chain : Chain codec strict s) {i : Nat} {job : Job} {auth : FsAuth}
    (here : s.renames[i]? = some (job, auth)) (served : Served codec s (.orphanRename i)) :
    Chain codec strict ({ s with renames := s.renames.eraseIdx i }.install codec job auth) := by
  have member := List.mem_of_getElem? here
  have lax : ¬ strict := by
    intro strictly
    rw [chain.kept strictly] at member
    cases member
  have fresh := served job auth here (chain.pushed job auth member)
  refine ⟨chain.coherent, ?_, ?_, fun strictly => (lax strictly).elim⟩
  · refine chain.sound.change ?_ ?_ (fun _ => readable_written auth)
    · intro x _ live
      exact ⟨live.1, fun strictly => (lax strictly).elim⟩
    · intro _
      refine ⟨?_, fun strictly => (lax strictly).elim⟩
      intro x stored
      simp only [System.install, storedToken_written] at stored
      cases stored
      exact fresh
  · intro job' auth' later
    exact chain.pushed job' auth' (List.mem_of_mem_eraseIdx later)

/-- Every step that meets the condition keeps the chain. Under the strict reading no call
is dropped. -/
theorem Chain.step (chain : Chain codec strict s) {a : Action}
    (undisturbed : Undisturbed codec s a) (uncancelled : strict → Uncancelled codec s a)
    (taken : step codec s a = some s') : Chain codec strict s' := by
  obtain ⟨served, quiet⟩ := undisturbed
  cases step_spec codec taken with
  | start here => exact chain.put (by rw [here]; rfl) rfl
  | acquire free here =>
    have sound := chain.sound
    rw [System.current, free] at sound
    exact Chain.proceed chain.coherent (.inl free) (sound_afterLock sound _)
      chain.pushed chain.kept
  | read here => exact chain.move here rfl fun stored => sound_afterRead stored
  | readFull here => exact chain.settle here rfl rfl rfl
  | reread here =>
    refine chain.move here rfl fun sound => sound_afterReread sound ?_
    intro failed
    have settled := served failed
    rwa [here] at settled
  | answer here => exact chain.answer here served
  | deliver here => exact chain.move here rfl fun sound => sound_afterAnswer sound
  | losePost here | dropPost here =>
    obtain ⟨holder, sound⟩ := chain.holding here rfl
    exact Chain.proceed (s := { s with posts := _ :: s.posts }) chain.coherent
      (.inr holder) sound.2.1 chain.pushed chain.kept
  | loseAnswer here =>
    have settled : (s.tasks _).pending = none := served
    rw [here] at settled
    exact chain.settle here rfl settled rfl
  | dispatch here => exact chain.move here rfl id
  | rename here => exact chain.rename here served
  | finish here | failSync here => exact chain.settle here rfl rfl rfl
  | failWrite here =>
    have settled : (s.tasks _).pending = none := served
    rcases here with here | here
    all_goals
      rw [here] at settled
      exact chain.settle here rfl settled rfl
  | dropWaiting here => exact chain.put (by rw [here]; rfl) rfl
  | dropRename here =>
    have settled : (s.tasks _).pending = none := quiet
    rw [here] at settled
    obtain ⟨holder, sound⟩ := chain.holding here rfl
    refine Chain.proceed (s := { s with renames := (_, _) :: s.renames }) chain.coherent
      (.inr holder) (sound.stored settled) ?_ (fun strictly => (uncancelled strictly).2.elim)
    intro job auth member
    rcases List.mem_cons.mp member with same | member
    · cases same
      exact settled
    · exact chain.pushed job auth member
  | drop holds => exact chain.settle rfl holds quiet rfl
  | orphanAnswer here =>
    refine chain.orphanAnswer ?_
    rintro issued body rfl
    exact ⟨fun strictly => (uncancelled strictly).2, quiet _ here⟩
  | orphanRename here => exact chain.orphanRename here served

theorem Chain.initial {start : System} (initial : Initial codec start) :
    Chain codec strict start where
  coherent t := by simp [initial.idle, initial.free, Phase.holds]
  sound := by
    rw [System.current, initial.free]
    exact ⟨initial.unspent, fun _ => initial.latest⟩
  pushed := by simp [initial.renames]
  kept _ := initial.renames

/-- The chain holds wherever a run gets. -/
theorem Chain.of_run {start : System} {good : System → Action → Prop}
    (initial : Initial codec start) (run : Transition.Run (Credentials.step codec) good start s)
    (undisturbed : ∀ s a, good s a → Undisturbed codec s a)
    (uncancelled : strict → ∀ s a, good s a → Uncancelled codec s a) : Chain codec strict s := by
  refine run.invariant (Chain.initial initial) ?_
  intro s a t chain allowed taken
  exact chain.step (undisturbed s a allowed) (fun strictly => uncancelled strictly s a allowed)
    taken

end
end CodexProxy.Credentials
