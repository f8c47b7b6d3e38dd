import CodexProxy.Credentials.Replacement

/-! What a successful write leaves is what is read, over any number of updates. -/
namespace CodexProxy.Credentials.Fs
open Calls

/-- New tokens for the file. -/
structure Push where
  accessToken : String
  refreshToken : String
  expiresAtMs : Int64

/-- The credentials after some pushes: the last one counts, and the account stays. -/
def lastPushed (creds : OAuthCredentials) (pushes : List Push) : OAuthCredentials :=
  match pushes.getLast? with
  | none => creds
  | some push => ⟨push.accessToken, push.refreshToken, push.expiresAtMs, creds.userId⟩

@[simp] theorem lastPushed_nil (creds : OAuthCredentials) : lastPushed creds [] = creds := rfl

theorem lastPushed_cons (creds : OAuthCredentials) (push : Push) (pushes : List Push) :
    lastPushed creds (push :: pushes) = lastPushed
      ⟨push.accessToken, push.refreshToken, push.expiresAtMs, creds.userId⟩ pushes := by
  simp only [lastPushed, List.getLast?_cons]
  cases pushes.getLast? with
  | none => rfl
  | some => rfl

section
variable (codec : Json.Codec) (file : FsAuthFile)

/-- The credentials that any read that succeeds returns. -/
def FsAuthFile.Reads (fs : FileSystem) (creds : OAuthCredentials) : Prop :=
  ∀ result fs', Returns Answers (file.read codec) fs (.ok result) fs' ↔ result = creds ∧ fs' = fs

/-- Updates that all succeed. -/
inductive Updated : FileSystem → List Push → FileSystem → Prop
  | none (fs : FileSystem) : Updated fs [] fs
  | push (uuid : String)
      (updated : Returns Answers
        (file.updateTokens codec uuid push.accessToken push.refreshToken push.expiresAtMs)
        fs (.ok ()) fs')
      (later : Updated fs' pushes fs'') : Updated fs (push :: pushes) fs''

end

section
variable {codec : Json.Codec} {file : FsAuthFile} {fs fs' : FileSystem}
  {accessToken refreshToken : String} {expiresAtMs : Int64}

theorem readRaw_iff : Returns Answers (file.readRaw codec) fs (.ok auth) fs' ↔
    readRaw codec (fs.contents file.path) = .ok auth ∧ fs' = fs := by
  unfold FsAuthFile.readRaw
  rw [Returns.bind_iff]
  constructor
  · rintro ⟨answer, t, asked, returned⟩
    obtain ⟨r, t, answered, finished⟩ := Returns.call_iff.mp asked
    obtain ⟨rfl, rfl⟩ := Returns.done_iff.mp finished
    cases answered with
    | failed => cases (Returns.done_iff.mp returned).1
    | read found =>
      obtain ⟨same, rfl⟩ := Returns.done_iff.mp returned
      exact ⟨found ▸ same.symm, rfl⟩
  · rintro ⟨decoded, rfl⟩
    cases found : fs'.contents file.path with
    | none => simp [found, readRaw] at decoded
    | some bytes =>
      refine ⟨.ok bytes, fs', Returns.call_iff.mpr ⟨_, _, .read found, ?_⟩, ?_⟩
      · exact Returns.done_iff.mpr ⟨rfl, rfl⟩
      · exact Returns.done_iff.mpr ⟨(found ▸ decoded).symm, rfl⟩

theorem read_iff : Returns Answers (file.read codec) fs (.ok creds) fs' ↔
    readFile codec (fs.contents file.path) = .ok creds ∧ fs' = fs := by
  unfold FsAuthFile.read
  refine Returns.andThen_iff.trans ⟨?_, ?_⟩
  · rintro ⟨auth, t, read, returned⟩
    obtain ⟨raw, rfl⟩ := readRaw_iff.mp read
    obtain ⟨same, rfl⟩ := Returns.done_iff.mp returned
    exact ⟨by simp [readFile, raw, Except.bind, same], rfl⟩
  · rintro ⟨read, rfl⟩
    obtain ⟨auth, raw, stored⟩ := readFile_ok codec read
    exact ⟨auth, _, readRaw_iff.mpr ⟨raw, rfl⟩, Returns.done_iff.mpr ⟨stored.symm, rfl⟩⟩

/-- A file is read as its octets decode. -/
theorem reads_iff : file.Reads codec fs creds ↔
    readFile codec (fs.contents file.path) = .ok creds := by
  constructor
  · intro reads
    exact (read_iff.mp ((reads creds fs).mpr ⟨rfl, rfl⟩)).1
  · intro decoded result fs'
    rw [read_iff, decoded, Except.ok.injEq, eq_comm (a := creds)]

theorem writeRaw_written
    (returned : Returns Answers (file.writeRaw codec uuid auth) fs (.ok ()) fs') :
    fs'.contents file.path = some (auth.toVecPretty codec) := by
  obtain ⟨_, outcome⟩ := (writeRaw_meets codec file uuid auth fs).returns returned
  simp only [FileSystem.contents, outcome.replaced rfl]

theorem init_reads (token : creds.accessToken ≠ "") (user : creds.userId ≠ "")
    (returned : Returns Answers (file.init codec uuid creds) fs (.ok ()) fs') :
    file.Reads codec fs' creds := by
  rw [reads_iff, writeRaw_written returned, readFile_written]
  simp [FsAuth.credentials, FsAuth.init, token, user]

/-- An update changes what it has read. -/
theorem updateTokens_written
    (returned : Returns Answers (file.updateTokens codec uuid accessToken refreshToken expiresAtMs)
      fs (.ok ()) fs') :
    ∃ auth, readRaw codec (fs.contents file.path) = .ok auth ∧ fs'.contents file.path =
      some ((auth.updateTokens accessToken refreshToken expiresAtMs).toVecPretty codec) := by
  obtain ⟨auth, t, read, written⟩ := Returns.andThen_iff.mp returned
  obtain ⟨raw, rfl⟩ := readRaw_iff.mp read
  exact ⟨auth, raw, writeRaw_written written⟩

theorem readRaw_written (auth : FsAuth) :
    readRaw codec (some (auth.toVecPretty codec)) = .ok auth := by
  simp only [readRaw, FsAuth.fromSlice_toVecPretty]

theorem updateTokens_reads (reads : file.Reads codec fs creds) (token : accessToken ≠ "")
    (returned : Returns Answers (file.updateTokens codec uuid accessToken refreshToken expiresAtMs)
      fs (.ok ()) fs') :
    file.Reads codec fs' ⟨accessToken, refreshToken, expiresAtMs, creds.userId⟩ := by
  obtain ⟨auth, raw, written⟩ := updateTokens_written returned
  obtain ⟨auth', raw', stored⟩ := readFile_ok codec (reads_iff.mp reads)
  cases raw.symm.trans raw'
  rw [reads_iff, written, readFile_written, FsAuth.credentials_updateTokens stored token]

/-- By induction on the updates; every one starts from what the one before has written. -/
theorem updated_reads (updated : Updated codec file fs pushes fs') (reads : file.Reads codec fs creds)
    (tokens : ∀ push ∈ pushes, push.accessToken ≠ "") :
    file.Reads codec fs' (lastPushed creds pushes) := by
  induction updated generalizing creds with
  | none => exact reads
  | push uuid updated later ih =>
    rw [lastPushed_cons]
    exact ih (updateTokens_reads reads (tokens _ (.head _)) updated)
      fun push member => tokens push (.tail _ member)

/-- By induction on the updates. -/
theorem updated_identity (updated : Updated codec file fs pushes fs')
    (raw : readRaw codec (fs.contents file.path) = .ok before) :
    ∃ after, readRaw codec (fs'.contents file.path) = .ok after ∧
      after.tokens.idToken = before.tokens.idToken ∧
      after.tokens.accountId = before.tokens.accountId := by
  induction updated generalizing before with
  | none => exact ⟨before, raw, rfl, rfl⟩
  | push uuid updated later ih =>
    obtain ⟨auth, read, written⟩ := updateTokens_written updated
    cases raw.symm.trans read
    have now := (congrArg (readRaw codec) written).trans (readRaw_written _)
    obtain ⟨after, read', kept⟩ := ih now
    exact ⟨after, read', kept⟩

end

/-- Nothing stands in the way of a write. -/
structure FsAuthFile.Writable (file : FsAuthFile) (uuid : String) (fs : FileSystem) : Prop where
  above : ∀ parent, file.path.parent = some parent → parent.isEmpty = false →
    ∃ mode, fs parent = some (.dir mode)
  named : (file.tmp uuid).fileName ≠ none
  absent : fs (file.tmp uuid) = none
  free : ∀ mode, fs file.path ≠ some (.dir mode)

section
variable {codec : Json.Codec} {file : FsAuthFile} {fs fs' : FileSystem}

theorem attempt_returns {c : Syscall} (answered : Answers c fs (.ok bytes) fs') :
    Returns Answers (attempt c) fs (.ok ()) fs' :=
  Returns.call_iff.mpr ⟨_, _, answered, Returns.done_iff.mpr ⟨rfl, rfl⟩⟩

theorem withParent_returns {f : Path → Io Unit} (above : ∀ parent, path.parent = some parent →
      parent.isEmpty = false → Returns Answers (f parent) fs (.ok ()) fs) :
    Returns Answers (withParent path f) fs (.ok ()) fs := by
  unfold withParent
  cases found : path.parent with
  | none => exact Returns.done_iff.mpr ⟨rfl, rfl⟩
  | some parent =>
    cases empty : parent.isEmpty with
    | true => simp only [empty, if_true]; exact Returns.done_iff.mpr ⟨rfl, rfl⟩
    | false => simpa only [empty, Bool.false_eq_true, if_false] using above parent found empty

/-- An undisturbed write changes the file and nothing else. -/
theorem writeRaw_returns (writable : file.Writable uuid fs) (auth : FsAuth) :
    ∃ fs', Returns Answers (file.writeRaw codec uuid auth) fs (.ok ()) fs' ∧
      fs' file.path = some (.file 0o600 (auth.toVecPretty codec) []) ∧
      ∀ path, path ≠ file.path → fs' path = fs path := by
  obtain ⟨above, named, absent, free⟩ := writable
  have beside : file.tmp uuid ≠ file.path := Path.withExtension_ne named (by simp)
  let data := auth.toVecPretty codec
  let created := Function.update fs (file.tmp uuid) (some (.file 0o600 [] []))
  let written := Function.update created (file.tmp uuid) (some (.file 0o600 ([] ++ []) data))
  let synced := Function.update written (file.tmp uuid) (some (.file 0o600 ([] ++ [] ++ data) []))
  let renamed := Function.update (Function.update synced (file.tmp uuid) none) file.path
    (some (.file 0o600 ([] ++ [] ++ data) []))
  have others (path : Path) (other : path ≠ file.path) : renamed path = fs path := by
    by_cases draft : path = file.tmp uuid
    · simp [renamed, draft, beside, absent]
    · simp [renamed, synced, written, created, other, draft]
  refine ⟨renamed, ?_, Function.update_self .., others⟩
  unfold FsAuthFile.writeRaw
  refine Returns.andThen_iff.mpr ⟨(), fs, withParent_returns fun parent found empty => ?_, ?_⟩
  · obtain ⟨mode, there⟩ := above parent found empty
    refine Returns.call_iff.mpr ⟨.ok [], fs, .metadata (by simp [there]), ?_⟩
    exact Returns.done_iff.mpr ⟨rfl, rfl⟩
  refine Returns.andThen_iff.mpr ⟨(), created, attempt_returns (.createNew named absent), ?_⟩
  refine Returns.andThen_iff.mpr ⟨(), renamed, ?_, withParent_returns fun parent found empty => ?_⟩
  · refine Returns.bind_iff.mpr ⟨.ok (), renamed, ?_, Returns.done_iff.mpr ⟨rfl, rfl⟩⟩
    have vacant (mode : Nat) : synced file.path ≠ some (.dir mode) := by
      simpa [synced, written, created, beside.symm] using free mode
    refine Returns.andThen_iff.mpr ⟨(), written,
      attempt_returns (.written [] data (Function.update_self ..) rfl), ?_⟩
    exact Returns.andThen_iff.mpr ⟨(), synced, attempt_returns (.synced (Function.update_self ..)),
      attempt_returns (.renamed (Function.update_self ..) vacant)⟩
  · obtain ⟨mode, there⟩ := above parent found empty
    have shorter := Path.parent_length found
    have there' : renamed parent = some (.dir mode) := by
      rw [others parent (fun same => by simp [same] at shorter), there]
    refine Returns.andThen_iff.mpr ⟨(), renamed, attempt_returns (.openDir there'), ?_⟩
    exact attempt_returns (.syncDir there')

theorem FsAuthFile.Writable.again (writable : file.Writable uuid fs)
    (placed : fs' file.path = some (.file mode contents pending))
    (others : ∀ path, path ≠ file.path → fs' path = fs path) : file.Writable uuid fs' where
  above parent found empty := by
    have shorter := Path.parent_length found
    rw [others parent (fun same => by simp [same] at shorter)]
    exact writable.above parent found empty
  named := writable.named
  absent := by
    have beside : file.tmp uuid ≠ file.path := Path.withExtension_ne writable.named (by simp)
    rw [others _ beside, writable.absent]
  free mode := by simp [placed]

/-- Any updates can all succeed. By induction on them. -/
theorem updated_exists (writable : file.Writable uuid fs)
    (raw : readRaw codec (fs.contents file.path) = .ok auth) (pushes : List Push) :
    ∃ fs', Updated codec file fs pushes fs' := by
  induction pushes generalizing fs auth with
  | nil => exact ⟨fs, .none fs⟩
  | cons push pushes ih =>
    obtain ⟨now, returned, placed, others⟩ := writeRaw_returns writable
      (auth.updateTokens push.accessToken push.refreshToken push.expiresAtMs)
    have updated : Returns Answers (file.updateTokens codec uuid push.accessToken
        push.refreshToken push.expiresAtMs) fs (.ok ()) now :=
      Returns.andThen_iff.mpr ⟨auth, fs, readRaw_iff.mpr ⟨raw, rfl⟩, returned⟩
    have contents := writeRaw_written returned
    obtain ⟨fs', later⟩ := ih (writable.again placed others) (contents ▸ readRaw_written _)
    exact ⟨fs', .push uuid updated later⟩

end

/-- What was created is read, and after any updates the last tokens are, for the same account. -/
theorem read_written (codec : Json.Codec) (file : FsAuthFile) :
    (∀ uuid creds fs fs', creds.accessToken ≠ "" → creds.userId ≠ "" →
      Returns Answers (file.init codec uuid creds) fs (.ok ()) fs' → file.Reads codec fs' creds) ∧
    ∀ creds pushes fs fs', file.Reads codec fs creds →
      (∀ push ∈ pushes, push.accessToken ≠ "") → Updated codec file fs pushes fs' →
      file.Reads codec fs' (lastPushed creds pushes) ∧
        ∃ before after, readRaw codec (fs.contents file.path) = .ok before ∧
          readRaw codec (fs'.contents file.path) = .ok after ∧
          after.tokens.idToken = before.tokens.idToken ∧
          after.tokens.accountId = before.tokens.accountId := by
  refine ⟨fun _ _ _ _ token user returned => init_reads token user returned, ?_⟩
  intro creds pushes fs fs' reads tokens updated
  obtain ⟨before, raw, _⟩ := readFile_ok codec (reads_iff.mp reads)
  obtain ⟨after, kept⟩ := updated_identity updated raw
  exact ⟨updated_reads updated reads tokens, before, after, raw, kept⟩

/-- A file that is created and updated twice, the second time with an expiry of zero. -/
theorem read_written_twice :
    let file : FsAuthFile := ⟨⟨false, ["auth.json"]⟩⟩
    let pushes : List Push := [⟨"access-1", "refresh-1", -1⟩, ⟨"access-2", "refresh-2", 0⟩]
    ∃ fs fs', file.Reads JsonText.codec fs ⟨"access", "refresh", 0, "user"⟩ ∧
      Updated JsonText.codec file fs pushes fs' ∧
      file.Reads JsonText.codec fs' ⟨"access-2", "refresh-2", 0, "user"⟩ := by
  intro file pushes
  have writable : file.Writable "id" fun _ => none :=
    ⟨(fun parent found empty => by cases found; cases empty), by decide, rfl, by simp⟩
  obtain ⟨fs, returned, placed, others⟩ := writeRaw_returns writable
    (.init ⟨"access", "refresh", 0, "user"⟩)
  have contents := writeRaw_written returned
  obtain ⟨fs', updated⟩ := updated_exists (writable.again placed others)
    (contents ▸ readRaw_written _) pushes
  obtain ⟨created, pushed⟩ := read_written JsonText.codec file
  have reads := created "id" _ _ fs (by decide) (by decide) returned
  exact ⟨fs, fs', reads, updated, (pushed _ pushes fs fs' reads (by decide) updated).1⟩

end CodexProxy.Credentials.Fs
