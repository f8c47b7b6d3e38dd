import Mathlib.Logic.Function.Basic
import CodexProxy.Credentials.AuthFile
import CodexProxy.Library.Calls

/-! The credentials file on a file system. Every operation may fail, a write that fails or
that is not synced may have written any part of its data, and the process may stop between
any two operations; a rename happens whole or not at all. -/
namespace CodexProxy.Credentials.Fs
open Calls

/-- The names of a path, the last one first. -/
structure Path where
  absolute : Bool
  names : List String
deriving DecidableEq

namespace Path

def parent : Path → Option Path
  | ⟨_, []⟩ => none
  | ⟨absolute, _ :: rest⟩ => some ⟨absolute, rest⟩

def isEmpty (p : Path) : Bool := !p.absolute && p.names.isEmpty

/-- The root and what ends in a dot component have no name of their own. -/
def fileName (p : Path) : Option String :=
  p.names.head?.filter fun name => name ≠ "." ∧ name ≠ ".."

/-- Up to the last dot, unless there is nothing in front of it. -/
def fileStem (name : String) : String :=
  let front := (name.toList.reverse.dropWhile (· ≠ '.')).drop 1
  if front = [] then name else String.ofList front.reverse

def withExtension (p : Path) (extension : String) : Path :=
  match p.fileName with
  | none => p
  | some name => { p with names := (fileStem name ++ "." ++ extension) :: p.names.drop 1 }

end Path

/-- A file's octets are on the disk or still on their way there. The umask can only lower
a mode. -/
inductive Entry where
  | file (mode : Nat) (contents pending : List UInt8)
  | dir (mode : Nat)

def Entry.setMode (mode : Nat) : Entry → Entry
  | .file _ contents pending => .file mode contents pending
  | .dir _ => .dir mode

abbrev FileSystem := Path → Option Entry

/-- What is in a file. -/
def FileSystem.contents (fs : FileSystem) (path : Path) : File :=
  match fs path with
  | some (.file _ contents _) => some contents
  | _ => none

/-- The operations on a file system; an open file goes by its path. -/
inductive Syscall where
  | metadata (path : Path)
  | read (path : Path)
  | createDir (path : Path)
  | setPermissions (path : Path) (mode : Nat)
  | createNew (path : Path) (mode : Nat)
  | writeAll (path : Path) (data : List UInt8)
  | syncAll (path : Path)
  | rename (source target : Path)
  | removeFile (path : Path)
  | openDir (path : Path)
  | syncDir (path : Path)

/-- The octets of a read, and none of any other success; or the error's text. -/
abbrev Answer := Except String (List UInt8)

/-- A failure has no effect, but that a write or a sync that fails may still write a part. -/
inductive Answers : Calls.Answers Syscall Answer FileSystem where
  | failed (c : Syscall) (fs : FileSystem) (message : String) : Answers c fs (.error message) fs
  | metadata (found : fs path ≠ none) : Answers (.metadata path) fs (.ok []) fs
  | read (found : fs.contents path = some bytes) : Answers (.read path) fs (.ok bytes) fs
  | createDir (absent : fs path = none) :
      Answers (.createDir path) fs (.ok []) (Function.update fs path (some (.dir 0o777)))
  | setPermissions (found : fs path = some entry) :
      Answers (.setPermissions path mode) fs (.ok [])
        (Function.update fs path (some (entry.setMode mode)))
  | createNew (named : path.fileName ≠ none) (absent : fs path = none) :
      Answers (.createNew path mode) fs (.ok []) (Function.update fs path (some (.file mode [] [])))
  | written (now later : List UInt8) (found : fs path = some (.file mode contents pending))
      (split : pending ++ data = now ++ later) :
      Answers (.writeAll path data) fs (.ok [])
        (Function.update fs path (some (.file mode (contents ++ now) later)))
  | cut (now : List UInt8) (found : fs path = some (.file mode contents pending))
      (part : now <+: pending ++ data) :
      Answers (.writeAll path data) fs (.error message)
        (Function.update fs path (some (.file mode (contents ++ now) [])))
  | synced (found : fs path = some (.file mode contents pending)) :
      Answers (.syncAll path) fs (.ok [])
        (Function.update fs path (some (.file mode (contents ++ pending) [])))
  | lost (now : List UInt8) (found : fs path = some (.file mode contents pending))
      (part : now <+: pending) :
      Answers (.syncAll path) fs (.error message)
        (Function.update fs path (some (.file mode (contents ++ now) [])))
  | renamed (found : fs source = some (.file mode contents pending))
      (free : ∀ mode, fs target ≠ some (.dir mode)) :
      Answers (.rename source target) fs (.ok [])
        (Function.update (Function.update fs source none) target (some (.file mode contents pending)))
  | removed (found : fs path = some (.file mode contents pending)) :
      Answers (.removeFile path) fs (.ok []) (Function.update fs path none)
  | openDir (found : fs path = some (.dir mode)) : Answers (.openDir path) fs (.ok []) fs
  | syncDir (found : fs path = some (.dir mode)) : Answers (.syncDir path) fs (.ok []) fs

abbrev Io := Fallible Syscall Answer CredentialsError

/-- An operation that is expected to succeed. -/
def attempt (c : Syscall) : Io Unit :=
  (Program.ask c).bind fun
    | .ok _ => .done (.ok ())
    | .error message => .done (.error (.storage message))

/-- Any failure passes for absence. -/
def pathExists (path : Path) : Program Syscall Answer Bool :=
  (Program.ask (.metadata path)).bind fun answer => .done answer.isOk

/-- The directories from a path upwards that are missing, the innermost first. -/
def missingDirs (absolute : Bool) : List String → Program Syscall Answer (List Path)
  | [] =>
    if !absolute then .done []
    else (pathExists ⟨absolute, []⟩).bind fun found =>
      .done (if found then [] else [⟨absolute, []⟩])
  | name :: rest =>
    (pathExists ⟨absolute, name :: rest⟩).bind fun found =>
      if found then .done []
      else (missingDirs absolute rest).bind fun dirs => .done (⟨absolute, name :: rest⟩ :: dirs)

def createDirs : List Path → Io Unit
  | [] => pure ()
  | dir :: dirs => do
    attempt (.createDir dir)
    attempt (.setPermissions dir 0o700)
    createDirs dirs

/-- What is done with a parent directory that has a name. -/
def withParent (path : Path) (f : Path → Io Unit) : Io Unit :=
  match path.parent with
  | none => pure ()
  | some parent => if parent.isEmpty then pure () else f parent

/-- Only directories that are created get a mode. -/
def createParents (path : Path) : Io Unit :=
  withParent path fun parent => (pathExists parent).bind fun found =>
    if found then .done (.ok ())
    else (missingDirs parent.absolute parent.names).bind fun missing => createDirs missing.reverse

structure FsAuthFile where
  path : Path

namespace FsAuthFile
variable (codec : Json.Codec) (file : FsAuthFile)

/-- A sibling with a name of its own. -/
def tmp (uuid : String) : Path := file.path.withExtension ("json.tmp." ++ uuid)

/-- A temporary file that is not renamed is removed. -/
def writeRaw (uuid : String) (auth : FsAuth) : Io Unit := do
  createParents file.path
  let data := auth.toVecPretty codec
  let tmp := file.tmp uuid
  attempt (.createNew tmp 0o600)
  let writeResult : Io Unit := do
    attempt (.writeAll tmp data)
    attempt (.syncAll tmp)
    attempt (.rename tmp file.path)
  writeResult.onError ((Program.ask (.removeFile tmp)).bind fun _ => .done ())
  withParent file.path fun parent => do
    attempt (.openDir parent)
    attempt (.syncDir parent)

/-- The contents when they could be read. -/
def readRaw : Io FsAuth :=
  (Program.ask (.read file.path)).bind fun
    | .ok bytes => .done (Credentials.readRaw codec (some bytes))
    | .error message => .done (.error (.storage message))

def read : Io OAuthCredentials := do
  let auth ← file.readRaw codec
  Program.done auth.credentials

def updateTokens (uuid accessToken refreshToken : String) (expiresAtMs : Int64) : Io Unit := do
  let auth ← file.readRaw codec
  file.writeRaw codec uuid (auth.updateTokens accessToken refreshToken expiresAtMs)

def init (uuid : String) (creds : OAuthCredentials) : Io Unit :=
  file.writeRaw codec uuid (.init creds)

end FsAuthFile
end CodexProxy.Credentials.Fs
