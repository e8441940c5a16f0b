import FpsMaxxing.Broker.Locations
import FpsMaxxing.Files.Volume

/-! What the broker does to its files: the lock, the journal and the socket, in the order it comes
up, and the socket again when it goes down. -/

namespace FpsMaxxing

open Effects Files

def journalFileMode : ℕ := 0o600

def journalSideSuffixes : List String := ["-journal", "-wal", "-shm"]

def Os.process (os : Os) (brokerUid : ℕ) : Process := ⟨os.cwd, brokerUid, os.gid, os.umask⟩

def lstat (path : Path) : Program FileCalls (Except Files.Error Metadata) :=
  @Program.perform FileCalls (.lstat path)

def removeFile (path : Path) : Program FileCalls (Except Files.Error Unit) :=
  @Program.perform FileCalls (.unlink path)

def bindListener (path : Path) : Program FileCalls (Except Files.Error Unit) :=
  @Program.perform FileCalls (.bind path)

def openCreate (path : Path) (mode : ℕ) : Program FileCalls (Except Files.Error ℕ) :=
  @Program.perform FileCalls (.opens path mode)

def setMode (path : Path) (mode : ℕ) : Program FileCalls (Except Files.Error Unit) :=
  @Program.perform FileCalls (.chmod path mode)

def flock (file : ℕ) : Program FileCalls (Except (Option Files.Error) Unit) :=
  @Program.perform FileCalls (.flock file)

def restrictToOwner (path : Path) : Program FileCalls (Except Files.Error Unit) := do
  match ← setMode path journalFileMode with
  | .ok () => return .ok ()
  | .error error => return .error (named path "restricted" error)

def createOwnerOnly (path : Path) : Program FileCalls (Except Files.Error ℕ) := do
  match ← openCreate path journalFileMode with
  | .error error => return .error (named path "opened" error)
  | .ok file =>
    match ← restrictToOwner path with
    | .error error => return .error error
    | .ok () => return .ok file

def restrictSides (path : Path) : List String → Program FileCalls (Except Files.Error Unit)
  | [] => return .ok ()
  | suffix :: suffixes => do
    match ← restrictToOwner (path.push suffix) with
    | .ok () => restrictSides path suffixes
    | .error error =>
      if error.kind = .notFound then restrictSides path suffixes else return .error error

def restrictJournal (path : Path) : Program FileCalls (Except Files.Error Unit) := do
  match ← createOwnerOnly path with
  | .error error => return .error error
  | .ok _ => restrictSides path journalSideSuffixes

def lockSingleInstance (path : Path) : Program FileCalls (Except Files.Error ℕ) := do
  match ← createOwnerOnly path with
  | .error error => return .error error
  | .ok file =>
    match ← flock file with
    | .ok () => return .ok file
    | .error none => return .error ⟨.other, path.text ++
        " is held by a running broker; only one may own this machine's knobs"⟩
    | .error (some errno) => return .error (named path "locked" errno)

def socketIdentity (path : Path) : Program FileCalls (Except Files.Error ℕ) := do
  match ← lstat path with
  | .error error => return .error (named path "inspected" error)
  | .ok metadata =>
    if metadata.socket then return .ok metadata.inode
    else return .error ⟨.alreadyExists, path.text ++ " is no longer a socket"⟩

structure UnixSocketTransport where
  path : Path
  identity : ℕ
  deriving DecidableEq

namespace UnixSocketTransport

def vacate (path : Path) : Program FileCalls (Except Files.Error Unit) := do
  match ← lstat path with
  | .ok metadata =>
    if metadata.socket then do
      match ← removeFile path with
      | .ok () => return .ok ()
      | .error error =>
        if error.kind = .notFound then return .ok () else return .error (named path "removed" error)
    else return .error ⟨.alreadyExists, path.text ++ " exists and is not a socket"⟩
  | .error error =>
    if error.kind = .notFound then return .ok () else return .error (named path "inspected" error)

def bind (path : Path) : Program FileCalls (Except Files.Error UnixSocketTransport) := do
  match ← vacate path with
  | .error error => return .error error
  | .ok () =>
    match ← bindListener path with
    | .error error => return .error (named path "bound" error)
    | .ok () =>
      match ← socketIdentity path with
      | .error error => do
        let _ ← removeFile path
        return .error error
      | .ok identity => return .ok ⟨path, identity⟩

def drop (transport : UnixSocketTransport) : Program FileCalls Unit := do
  match ← socketIdentity transport.path with
  | .error _ => return ()
  | .ok identity =>
    if identity = transport.identity then do
      let _ ← removeFile transport.path
      return ()
    else return ()

end UnixSocketTransport

namespace Unix

/-- `run` as far as the endpoint; what the journal's own library does to the journal is not here. -/
def comeUp (paths : Paths) : Program FileCalls (Except Files.Error UnixSocketTransport) := do
  match ← lockSingleInstance paths.lock with
  | .error error => return .error error
  | .ok _ =>
    match ← restrictJournal paths.journal with
    | .error error => return .error error
    | .ok () => UnixSocketTransport.bind paths.socket

def run (paths : Paths) : Program FileCalls (Except Files.Error Unit) := do
  match ← comeUp paths with
  | .error error => return .error error
  | .ok transport => do
    transport.drop
    return .ok ()

end Unix

end FpsMaxxing
