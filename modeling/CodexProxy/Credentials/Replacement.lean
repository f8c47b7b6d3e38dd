import CodexProxy.Credentials.Storage
import CodexProxy.Library.ReferenceCodec

/-! Writing the credentials file replaces it whole. Until the rename a write only adds
directories above the file and a draft beside it; after the rename the file stays. -/
namespace CodexProxy.Credentials.Fs
open Calls

/-- A name is its stem, or its stem and a last part without a dot. -/
theorem Path.fileStem_cases (name : String) : fileStem name = name ∨
    ∃ last, '.' ∉ last ∧ name.toList = (fileStem name).toList ++ '.' :: last := by
  have parts := List.takeWhile_append_dropWhile (p := (· ≠ '.')) (l := name.toList.reverse)
  unfold fileStem
  cases found : name.toList.reverse.dropWhile (· ≠ '.') with
  | nil => exact .inl rfl
  | cons c front =>
    have dot := List.head?_dropWhile_not (· ≠ '.') name.toList.reverse
    rw [found] at dot
    obtain rfl : c = '.' := by simpa using dot
    cases front with
    | nil => exact .inl rfl
    | cons first rest =>
      refine .inr ⟨(name.toList.reverse.takeWhile (· ≠ '.')).reverse, fun dot => ?_, ?_⟩
      · simpa using List.mem_takeWhile_imp (List.mem_reverse.mp dot)
      · rw [found] at parts
        simpa using congrArg List.reverse parts.symm

/-- A new extension with a dot in it makes a new name. -/
theorem Path.fileStem_extended (name extension : String) (dotted : '.' ∈ extension.toList) :
    fileStem name ++ "." ++ extension ≠ name := by
  intro same
  have characters := congrArg String.toList same
  rcases fileStem_cases name with whole | ⟨last, undotted, parts⟩
  · rw [whole] at characters
    simpa using congrArg List.length characters
  · rw [parts] at characters
    have equal : extension.toList = last := by simpa using characters
    exact undotted (equal ▸ dotted)

namespace Path

theorem fileName_cons {path : Path} (named : path.fileName = some name) :
    path.names = name :: path.names.drop 1 := by
  have first : path.names.head? = some name := (Option.filter_eq_some_iff.mp named).1
  cases names : path.names with
  | nil => simp [names] at first
  | cons head rest => simpa [names] using first

theorem withExtension_ne {path : Path} (named : (path.withExtension extension).fileName ≠ none)
    (dotted : '.' ∈ extension.toList) : path.withExtension extension ≠ path := by
  intro same
  rw [same] at named
  obtain ⟨name, found⟩ := Option.ne_none_iff_exists'.mp named
  have names := congrArg (·.names) same
  rw [fileName_cons found] at names
  simp only [withExtension, found, List.cons.injEq] at names
  exact fileStem_extended name extension dotted names.1

end Path

/-- A rename has succeeded. -/
def Renamed (history : History Syscall Answer) : Prop :=
  ∃ source target bytes, (.rename source target, .ok bytes) ∈ history

/-- A removal has been tried in vain. -/
def RemovalFailed (history : History Syscall Answer) : Prop :=
  ∃ path message, (.removeFile path, .error message) ∈ history

section
variable (file : Path) (start : FileSystem) (data : List UInt8)

/-- A place is as it was, or it was empty and has a directory now, above the file. -/
def Grown (fs : FileSystem) (path : Path) : Prop :=
  fs path = start path ∨
    path.names.length < file.names.length ∧ start path = none ∧ ∃ mode, fs path = some (.dir mode)

/-- Before the draft. -/
structure Before (past : History Syscall Answer) (fs : FileSystem) : Prop where
  unrenamed : ¬ Renamed past
  grown : ∀ path, Grown file start fs path

/-- With a draft of the file. -/
structure Drafted (draft : Path) (contents pending : List UInt8) (past : History Syscall Answer)
    (fs : FileSystem) : Prop where
  beside : draft ≠ file
  unrenamed : ¬ Renamed past
  absent : start draft = none
  drafted : fs draft = some (.file 0o600 contents pending)
  grown : ∀ path ≠ draft, Grown file start fs path

/-- After the rename. -/
structure Placed (past : History Syscall Answer) (fs : FileSystem) : Prop where
  renamed : Renamed past
  placed : fs file = some (.file 0o600 data [])

/-- The file has its old contents or all of the new ones. -/
def Whole (_ : History Syscall Answer) (fs : FileSystem) : Prop :=
  fs file = start file ∨ fs file = some (.file 0o600 data [])

/-- A success leaves the new contents. An error before the rename leaves the old ones, and no
draft when it could be removed. -/
structure Outcome (result : Except CredentialsError Unit) (past : History Syscall Answer)
    (fs : FileSystem) : Prop where
  replaced : result = .ok () → fs file = some (.file 0o600 data [])
  kept : ∀ e, result = .error e → ¬ Renamed past → fs file = start file ∧
    (¬ RemovalFailed past → ∀ path, fs.contents path = start.contents path)

end

section
variable {file draft : Path} {start fs : FileSystem} {data contents pending : List UInt8}
  {past : History Syscall Answer}

theorem Grown.old (grown : Grown file start fs file) : fs file = start file := by
  rcases grown with same | ⟨shorter, _⟩
  · exact same
  · exact absurd shorter (Nat.lt_irrefl _)

theorem Grown.octets (grown : Grown file start fs path) :
    fs.contents path = start.contents path := by
  rcases grown with same | ⟨_, absent, mode, created⟩
  · simp only [FileSystem.contents, same]
  · simp only [FileSystem.contents, absent, created]

theorem Before.whole (before : Before file start past fs) : Whole file start data past fs :=
  .inl (before.grown file).old

theorem Before.outcome (before : Before file start past fs) (e : CredentialsError) :
    Outcome file start data (.error e) past fs where
  replaced ok := by cases ok
  kept _ _ _ := ⟨(before.grown file).old, fun _ path => (before.grown path).octets⟩

theorem Drafted.whole (drafted : Drafted file start draft contents pending past fs) :
    Whole file start data past fs :=
  .inl (drafted.grown file drafted.beside.symm).old

theorem Placed.whole (placed : Placed file data past fs) : Whole file start data past fs :=
  .inr placed.placed

theorem Placed.outcome (placed : Placed file data past fs) (result : Except CredentialsError Unit) :
    Outcome file start data result past fs where
  replaced _ := placed.placed
  kept _ _ unrenamed := absurd placed.renamed unrenamed

end

section
variable {always : History Syscall Answer → FileSystem → Prop}
  {ends : Except CredentialsError Unit → History Syscall Answer → FileSystem → Prop}

theorem meets_attempt {c : Syscall} (now : always past fs)
    (succeeded : ∀ bytes t, Answers c fs (.ok bytes) t →
      always (past ++ [(c, .ok bytes)]) t ∧ ends (.ok ()) (past ++ [(c, .ok bytes)]) t)
    (failed : ∀ message t, Answers c fs (.error message) t →
      always (past ++ [(c, .error message)]) t ∧
        ends (.error (.storage message)) (past ++ [(c, .error message)]) t) :
    Meets Answers always ends (attempt c) past fs := by
  refine ⟨now, fun r t answered => ?_⟩
  cases r with
  | ok bytes => exact succeeded bytes t answered
  | error message => exact failed message t answered

end

section
variable {file : Path} {start : FileSystem}

theorem not_renamed {c : Syscall} {r : Answer} (unrenamed : ¬ Renamed past)
    (other : ∀ source target bytes, (c, r) ≠ (.rename source target, .ok bytes)) :
    ¬ Renamed (past ++ [(c, r)]) := by
  rintro ⟨source, target, bytes, made⟩
  rcases List.mem_append.mp made with earlier | now
  · exact unrenamed ⟨source, target, bytes, earlier⟩
  · exact other source target bytes (List.mem_singleton.mp now).symm

/-- A call that leaves the file system alone. -/
theorem Before.call {c : Syscall} {r : Answer} (before : Before file start past fs)
    (other : ∀ source target bytes, (c, r) ≠ (.rename source target, .ok bytes)) :
    Before file start (past ++ [(c, r)]) fs := ⟨not_renamed before.unrenamed other, before.grown⟩

theorem Before.vacant (before : Before file start past fs) (absent : fs path = none) :
    start path = none := by
  rcases before.grown path with same | ⟨_, empty, _⟩
  · exact same ▸ absent
  · exact empty

theorem Before.dir {dir : Path} (before : Before file start past fs)
    (above : dir.names.length < file.names.length) (vacant : start dir = none) (mode : Nat) :
    Before file start past (Function.update fs dir (some (.dir mode))) where
  unrenamed := before.unrenamed
  grown path := by
    by_cases same : path = dir
    · subst same
      exact .inr ⟨above, vacant, mode, Function.update_self ..⟩
    · simpa only [Grown, Function.update_of_ne same] using before.grown path

theorem pathExists_keeps (path : Path) : Keeps Answers (Before file start) (pathExists path) := by
  refine Keeps.bind (Keeps.ask fun past fs r t before answered => ?_) fun r => Keeps.done _
  cases answered with
  | failed => exact before.call (by simp)
  | metadata => exact before.call (by simp)

/-- By induction on the names. -/
theorem missingDirs_meets (absolute : Bool) (names : List String) (before : Before file start past fs) :
    Meets Answers (Before file start)
      (fun dirs past fs => Before file start past fs ∧
        ∀ dir ∈ dirs, dir.names.length ≤ names.length)
      (missingDirs absolute names) past fs := by
  induction names generalizing past fs with
  | nil =>
    unfold missingDirs
    split
    · exact ⟨before, before, by simp⟩
    · refine (pathExists_keeps _ past fs before).bind fun found past fs _ before => ?_
      cases found with
      | true => exact ⟨before, before, by simp⟩
      | false => exact ⟨before, before, by simp⟩
  | cons name rest ih =>
    unfold missingDirs
    refine (pathExists_keeps _ past fs before).bind fun found past fs _ before => ?_
    cases found with
    | true => exact ⟨before, before, by simp⟩
    | false =>
      refine (ih before).bind fun dirs past fs _ found => ⟨found.1, found.1, ?_⟩
      intro dir member
      rcases List.mem_cons.mp member with rfl | outer
      · simp
      · exact (found.2 dir outer).trans (Nat.le_succ _)

theorem createDir_meets {dir : Path} (before : Before file start past fs)
    (above : dir.names.length < file.names.length) :
    Meets Answers (Before file start)
      (fun result past fs => Before file start past fs ∧
        (result = .ok () → start dir = none ∧ ∃ mode, fs dir = some (.dir mode)))
      (attempt (.createDir dir)) past fs := by
  refine meets_attempt before (fun bytes t answered => ?_) fun message t answered => ?_
  · cases answered with
    | createDir absent =>
      have vacant := before.vacant absent
      have now := (before.dir above vacant 0o777).call (c := .createDir dir) (r := .ok []) (by simp)
      exact ⟨now, now, fun _ => ⟨vacant, _, Function.update_self ..⟩⟩
  · cases answered with
    | failed =>
      have now := before.call (c := .createDir dir) (r := .error message) (by simp)
      exact ⟨now, now, fun ok => by cases ok⟩

/-- Only what was created gets a mode. -/
theorem setPermissions_meets {dir : Path} (before : Before file start past fs)
    (above : dir.names.length < file.names.length) (vacant : start dir = none)
    (created : fs dir = some (.dir mode)) :
    Meets Answers (Before file start) (fun _ => Before file start)
      (attempt (.setPermissions dir 0o700)) past fs := by
  refine meets_attempt before (fun bytes t answered => ?_) fun message t answered => ?_
  · cases answered with
    | setPermissions found =>
      obtain rfl := Option.some.inj (created.symm.trans found)
      have now := (before.dir above vacant 0o700).call (c := .setPermissions dir 0o700)
        (r := .ok []) (by simp)
      exact ⟨now, now⟩
  · cases answered with
    | failed =>
      have now := before.call (c := .setPermissions dir 0o700) (r := .error message) (by simp)
      exact ⟨now, now⟩

/-- By induction on the directories; each is created in an empty place and gets its mode there. -/
theorem createDirs_keeps (dirs : List Path)
    (above : ∀ dir ∈ dirs, dir.names.length < file.names.length) :
    Keeps Answers (Before file start) (createDirs dirs) := by
  induction dirs with
  | nil => exact Keeps.done _
  | cons dir rest ih =>
    have short : dir.names.length < file.names.length := above dir (.head _)
    have later := ih fun dir member => above dir (.tail _ member)
    intro past fs before
    refine (createDir_meets before short).andThen (fun _ past fs before reached => ?_)
      fun _ _ _ reached => reached.1
    obtain ⟨vacant, mode, created⟩ := reached.2 rfl
    exact (setPermissions_meets before short vacant created).andThen
      (fun _ past fs _ before => later past fs before) fun _ _ _ => id

theorem withParent_keeps {inv : History Syscall Answer → FileSystem → Prop} {f : Path → Io Unit}
    (above : ∀ parent, path.parent = some parent → Keeps Answers inv (f parent)) :
    Keeps Answers inv (withParent path f) := by
  unfold withParent
  cases found : path.parent with
  | none => exact Keeps.done _
  | some parent =>
    dsimp only
    split
    · exact Keeps.done _
    · exact above parent found

theorem Path.parent_length {path parent : Path} (above : path.parent = some parent) :
    parent.names.length < path.names.length := by
  obtain ⟨absolute, names⟩ := path
  cases names with
  | nil => cases above
  | cons name rest => cases above; exact Nat.lt_succ_self _

theorem createParents_keeps : Keeps Answers (Before file start) (createParents file) := by
  refine withParent_keeps fun parent above => (pathExists_keeps parent).bind fun found => ?_
  cases found with
  | true => exact Keeps.done _
  | false =>
    intro past fs before
    refine (missingDirs_meets _ _ before).bind fun dirs past fs before reached => ?_
    refine createDirs_keeps _ (fun dir member => ?_) past fs before
    exact (reached.2 dir (List.mem_reverse.mp member)).trans_lt (Path.parent_length above)

variable {draft : Path} {data contents pending : List UInt8}

theorem Drafted.call {c : Syscall} {r : Answer}
    (drafted : Drafted file start draft contents pending past fs)
    (other : ∀ source target bytes, (c, r) ≠ (.rename source target, .ok bytes)) :
    Drafted file start draft contents pending (past ++ [(c, r)]) fs :=
  { drafted with unrenamed := not_renamed drafted.unrenamed other }

theorem Drafted.edit (drafted : Drafted file start draft contents pending past fs)
    (contents' pending' : List UInt8) :
    Drafted file start draft contents' pending' past
      (Function.update fs draft (some (.file 0o600 contents' pending'))) where
  beside := drafted.beside
  unrenamed := drafted.unrenamed
  absent := drafted.absent
  drafted := Function.update_self ..
  grown path other := by
    simpa only [Grown, Function.update_of_ne other] using drafted.grown path other

theorem Before.create (before : Before file start past fs) (beside : draft ≠ file)
    (absent : fs draft = none) :
    Drafted file start draft [] [] past (Function.update fs draft (some (.file 0o600 [] []))) where
  beside := beside
  unrenamed := before.unrenamed
  absent := before.vacant absent
  drafted := Function.update_self ..
  grown path other := by
    simpa only [Grown, Function.update_of_ne other] using before.grown path

theorem Placed.rename (draft : Path) (past : History Syscall Answer) (fs : FileSystem) :
    Placed file data (past ++ [(.rename draft file, .ok [])])
      (Function.update (Function.update fs draft none) file (some (.file 0o600 data []))) where
  renamed := ⟨draft, file, [], by simp⟩
  placed := Function.update_self ..

/-- Without its draft the file system has what it had. -/
theorem Drafted.remove (drafted : Drafted file start draft contents pending past fs) (path : Path) :
    FileSystem.contents (Function.update fs draft none) path = start.contents path := by
  by_cases same : path = draft
  · subst same
    simp only [FileSystem.contents, Function.update_self, drafted.absent]
  · simpa only [FileSystem.contents, Function.update_of_ne same] using
      Grown.octets (drafted.grown path same)

theorem write_meets (drafted : Drafted file start draft [] [] past fs) :
    Meets Answers (Whole file start data)
      (fun result past fs => ∃ contents pending,
        Drafted file start draft contents pending past fs ∧
          (result = .ok () → contents ++ pending = data))
      (attempt (.writeAll draft data)) past fs := by
  refine meets_attempt drafted.whole (fun bytes t answered => ?_) fun message t answered => ?_
  · cases answered with
    | written now later found split =>
      cases drafted.drafted.symm.trans found
      have now := (drafted.edit ([] ++ now) later).call (c := .writeAll draft data) (r := .ok [])
        (by simp)
      exact ⟨now.whole, _, _, now, fun _ => split.symm⟩
  · cases answered with
    | failed =>
      have now := drafted.call (c := .writeAll draft data) (r := .error message) (by simp)
      exact ⟨now.whole, _, _, now, fun ok => by cases ok⟩
    | cut now found part =>
      cases drafted.drafted.symm.trans found
      have now := (drafted.edit ([] ++ now) []).call (c := .writeAll draft data)
        (r := .error message) (by simp)
      exact ⟨now.whole, _, _, now, fun ok => by cases ok⟩

theorem sync_meets (drafted : Drafted file start draft contents pending past fs) :
    Meets Answers (Whole file start data)
      (fun result past fs => ∃ now later, Drafted file start draft now later past fs ∧
        (result = .ok () → now = contents ++ pending ∧ later = []))
      (attempt (.syncAll draft)) past fs := by
  refine meets_attempt drafted.whole (fun bytes t answered => ?_) fun message t answered => ?_
  · cases answered with
    | synced found =>
      cases drafted.drafted.symm.trans found
      have now := (drafted.edit (contents ++ pending) []).call (c := .syncAll draft) (r := .ok [])
        (by simp)
      exact ⟨now.whole, _, _, now, fun _ => ⟨rfl, rfl⟩⟩
  · cases answered with
    | failed =>
      have now := drafted.call (c := .syncAll draft) (r := .error message) (by simp)
      exact ⟨now.whole, _, _, now, fun ok => by cases ok⟩
    | lost now found part =>
      cases drafted.drafted.symm.trans found
      have now := (drafted.edit (contents ++ now) []).call (c := .syncAll draft)
        (r := .error message) (by simp)
      exact ⟨now.whole, _, _, now, fun ok => by cases ok⟩

theorem rename_meets (drafted : Drafted file start draft data [] past fs) :
    Meets Answers (Whole file start data)
      (fun result past fs => (result = .ok () → Placed file data past fs) ∧
        ∀ e, result = .error e → Drafted file start draft data [] past fs)
      (attempt (.rename draft file)) past fs := by
  refine meets_attempt drafted.whole (fun bytes t answered => ?_) fun message t answered => ?_
  · cases answered with
    | renamed found free =>
      cases drafted.drafted.symm.trans found
      have now : Placed file data _ _ := Placed.rename draft past fs
      exact ⟨now.whole, fun _ => now, fun e failed => by cases failed⟩
  · cases answered with
    | failed =>
      have now := drafted.call (c := .rename draft file) (r := .error message) (by simp)
      exact ⟨now.whole, (fun ok => by cases ok), fun _ _ => now⟩

/-- A draft that is not renamed is removed. -/
theorem remove_meets (drafted : Drafted file start draft contents pending past fs)
    (e : CredentialsError) :
    Meets Answers (Whole file start data) (fun _ => Outcome file start data (.error e))
      ((Program.ask (.removeFile draft)).bind fun _ => .done ()) past fs := by
  refine ⟨drafted.whole, fun r t answered => ?_⟩
  cases answered with
  | failed _ _ message =>
    have now := drafted.call (c := .removeFile draft) (r := .error message) (by simp)
    have failed : RemovalFailed (past ++ [(.removeFile draft, .error message)]) :=
      ⟨draft, message, by simp⟩
    exact ⟨now.whole, (fun ok => by cases ok), fun _ _ _ =>
      ⟨Grown.old (drafted.grown file drafted.beside.symm), fun removed => absurd failed removed⟩⟩
  | removed found =>
    have old : Function.update fs draft none file = start file := by
      rw [Function.update_of_ne drafted.beside.symm]
      exact Grown.old (drafted.grown file drafted.beside.symm)
    exact ⟨.inl old, (fun ok => by cases ok), fun _ _ _ => ⟨old, fun _ => drafted.remove⟩⟩

/-- The rename is the last step before which an error leaves the old file. -/
theorem draft_meets (drafted : Drafted file start draft [] [] past fs) :
    Meets Answers (Whole file start data)
      (fun result past fs => (result = .ok () → Placed file data past fs) ∧
        ∀ e, result = .error e → ∃ contents pending,
          Drafted file start draft contents pending past fs)
      (do attempt (.writeAll draft data)
          attempt (.syncAll draft)
          attempt (.rename draft file) : Io Unit) past fs := by
  refine (write_meets drafted).andThen ?synced ?failed
  case failed =>
    rintro e past fs ⟨contents, pending, drafted, _⟩
    exact ⟨(fun ok => by cases ok), fun _ _ => ⟨contents, pending, drafted⟩⟩
  case synced =>
    rintro _ past fs _ ⟨contents, pending, drafted, all⟩
    refine (sync_meets drafted).andThen ?renamed ?failed
    case failed =>
      rintro e past fs ⟨contents, pending, drafted, _⟩
      exact ⟨(fun ok => by cases ok), fun _ _ => ⟨contents, pending, drafted⟩⟩
    case renamed =>
      rintro _ past fs _ ⟨now, later, drafted, reached⟩
      obtain ⟨rfl, rfl⟩ := reached rfl
      rw [all rfl] at drafted
      exact (rename_meets drafted).mono (fun _ _ => id) fun result past fs reached =>
        ⟨reached.1, fun e failed => ⟨data, [], reached.2 e failed⟩⟩

/-- After an error the draft is removed. -/
theorem replace_meets (drafted : Drafted file start draft [] [] past fs) :
    Meets Answers (Whole file start data)
      (fun result past fs => (result = .ok () → Placed file data past fs) ∧
        ∀ e, result = .error e → Outcome file start data (.error e) past fs)
      (Fallible.onError
        (do attempt (.writeAll draft data)
            attempt (.syncAll draft)
            attempt (.rename draft file) : Io Unit)
        ((Program.ask (.removeFile draft)).bind fun _ => .done ())) past fs := by
  refine (draft_meets drafted).onError
    (fun _ past fs reached => ⟨reached.1, fun e failed => by cases failed⟩)
    fun e past fs _ reached => ?_
  obtain ⟨contents, pending, left⟩ := reached.2 e rfl
  refine (remove_meets left e).mono (fun _ _ => id) fun _ past fs outcome => ?_
  refine ⟨(fun ok => by cases ok), fun e' same => ?_⟩
  cases same
  exact outcome

theorem Placed.call {c : Syscall} {r : Answer} (placed : Placed file data past fs) :
    Placed file data (past ++ [(c, r)]) fs where
  renamed := by
    obtain ⟨source, target, bytes, made⟩ := placed.renamed
    exact ⟨source, target, bytes, List.mem_append_left _ made⟩
  placed := placed.placed

theorem Placed.attempt_keeps {c : Syscall} (reads : ∀ fs r t, Answers c fs r t → t = fs) :
    Keeps Answers (Placed file data) (attempt c) := by
  intro past fs placed
  refine meets_attempt placed (fun bytes t answered => ?_) fun message t answered => ?_
  · cases reads fs _ t answered
    exact ⟨placed.call, placed.call⟩
  · cases reads fs _ t answered
    exact ⟨placed.call, placed.call⟩

/-- The directory is only read. -/
theorem syncParent_keeps : Keeps Answers (Placed file data) (withParent file fun parent => do
    attempt (.openDir parent)
    attempt (.syncDir parent)) :=
  withParent_keeps fun parent _ =>
    (Placed.attempt_keeps fun fs r t answered => by cases answered <;> rfl).andThen fun _ =>
      Placed.attempt_keeps fun fs r t answered => by cases answered <;> rfl

theorem create_meets {extension : String} (dotted : '.' ∈ extension.toList)
    (before : Before file start past fs) :
    Meets Answers (Whole file start data)
      (fun result past fs =>
        (result = .ok () → Drafted file start (file.withExtension extension) [] [] past fs) ∧
          ∀ e, result = .error e → Before file start past fs)
      (attempt (.createNew (file.withExtension extension) 0o600)) past fs := by
  refine meets_attempt before.whole (fun bytes t answered => ?_) fun message t answered => ?_
  · cases answered with
    | createNew named absent =>
      have beside := Path.withExtension_ne named dotted
      have now := (before.create beside absent).call
        (c := .createNew (file.withExtension extension) 0o600) (r := .ok []) (by simp)
      exact ⟨now.whole, fun _ => now, fun e failed => by cases failed⟩
  · cases answered with
    | failed =>
      have now := before.call (c := .createNew (file.withExtension extension) 0o600)
        (r := .error message) (by simp)
      exact ⟨now.whole, (fun ok => by cases ok), fun _ _ => now⟩

end

section
variable (codec : Json.Codec) (file : FsAuthFile) (uuid : String) (auth : FsAuth)

/-- Every step of a write. -/
theorem writeRaw_meets (start : FileSystem) :
    Meets Answers (Whole file.path start (auth.toVecPretty codec))
      (Outcome file.path start (auth.toVecPretty codec)) (file.writeRaw codec uuid auth) [] start := by
  have begin : Before file.path start [] start := ⟨by simp [Renamed], fun _ => .inl rfl⟩
  have dotted : '.' ∈ ("json.tmp." ++ uuid).toList := by simp
  have parents : Meets Answers (Whole file.path start (auth.toVecPretty codec))
      (fun _ => Before file.path start) (createParents file.path) [] start :=
    (createParents_keeps [] start begin).mono (fun _ _ => Before.whole) fun _ _ _ => id
  refine parents.andThen (fun _ past fs _ before => ?_) fun e past fs before => before.outcome e
  refine (create_meets dotted before).andThen (fun _ past fs _ created => ?_)
    fun e past fs failed => (failed.2 e rfl).outcome e
  refine (replace_meets (created.1 rfl)).andThen (fun _ past fs _ replaced => ?_)
    fun e past fs failed => failed.2 e rfl
  exact (syncParent_keeps past fs (replaced.1 rfl)).mono (fun _ _ => Placed.whole)
    fun result _ _ placed => placed.outcome result

/-- Wherever a write stops, the file has its old contents or all of the new ones. A success
leaves the new ones, an error up to the rename the old ones; then, if a removal does not fail,
there is no file that was not there before, and none has changed. -/
theorem writeRaw_atomic {start fs : FileSystem} {rest : Io Unit}
    (ran : Run Answers (file.writeRaw codec uuid auth) start history rest fs) :
    (fs file.path = start file.path ∨
      fs file.path = some (.file 0o600 (auth.toVecPretty codec) [])) ∧
    (rest = .done (.ok ()) → fs file.path = some (.file 0o600 (auth.toVecPretty codec) [])) ∧
    ∀ e, rest = .done (.error e) → ¬ Renamed history →
      fs file.path = start file.path ∧
        (¬ RemovalFailed history → ∀ path, fs.contents path = start.contents path) := by
  have reached := (writeRaw_meets codec file uuid auth start).run ran
  refine ⟨reached.now, fun ended => ?_, fun e ended => ?_⟩
  · subst ended
    exact reached.2.replaced rfl
  · subst ended
    exact reached.2.kept e rfl

end

/-- A write that runs out of space; its draft is removed. -/
theorem writeRaw_cut :
    let file : FsAuthFile := ⟨⟨false, ["auth.json"]⟩⟩
    let start : FileSystem := fun path =>
      if path = file.path then some (.file 0o600 [123, 125] []) else none
    ∃ history fs, Run Answers
        (file.writeRaw JsonText.codec "id" (.init ⟨"access", "refresh", 0, "user"⟩))
        start history (.done (.error (.storage "No space left on device (os error 28)"))) fs ∧
      ∀ path, fs.contents path = start.contents path := by
  intro file start
  have named : (file.path.withExtension ("json.tmp." ++ "id")).fileName ≠ none := by decide
  have beside : file.path.withExtension ("json.tmp." ++ "id") ≠ file.path :=
    Path.withExtension_ne named (by simp)
  have ran : Run Answers (file.writeRaw JsonText.codec "id" (.init ⟨"access", "refresh", 0, "user"⟩))
      start _ (.done (.error (.storage "No space left on device (os error 28)"))) _ :=
    .call (.createNew named (if_neg beside))
      (.call (.cut _ (Function.update_self ..) (List.take_prefix 5 _))
        (.call (.removed (Function.update_self ..)) (.here _ _)))
  have reached := (writeRaw_atomic JsonText.codec file "id" _ ran).2.2 _ rfl (by simp [Renamed])
  exact ⟨_, _, ran, reached.2 (by simp [RemovalFailed])⟩

end CodexProxy.Credentials.Fs
