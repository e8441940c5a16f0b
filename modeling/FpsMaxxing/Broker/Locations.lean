import FpsMaxxing.Files.Tree

/-! Where the broker puts its socket, its journal and its lock, and the vet every path goes
through. -/

namespace FpsMaxxing

open Files

def socketEnv : String := "FPSMAXXING_BROKER_SOCKET"

def journalEnv : String := "FPSMAXXING_BROKER_JOURNAL_PATH"

def privateDirName : String := "fpsmaxxing"

def fallbackRuntimeBase : Path := ⟨true, [.normal "run"], nofun⟩

def privateDirMode : ℕ := 0o700

def otherWriteBits : ℕ := 0o022

def otherAccessBits : ℕ := 0o077

def stickyBit : ℕ := 0o1000

def rootUid : ℕ := 0

def defaultSocketName : String := "broker.sock"

def defaultJournalName : String := "journal.sqlite"

def lockFileName : String := "broker.lock"

structure Options where
  socket : Option Path
  journal : Option Path

structure Paths where
  socket : Path
  journal : Path
  lock : Path
  deriving DecidableEq

/-- The process the calls are made from; a call can be refused for a reason the file system does not
show. -/
structure Os where
  cwd : ℕ
  gid : ℕ
  umask : ℕ
  lstatFails : Path → Option Files.Error
  mkdirFails : Path → Option Files.Error
  chmodFails : Path → Option Files.Error

namespace Os

def symlinkMetadata (os : Os) (fs : FileSystem) (p : Path) : Except Files.Error Node :=
  match os.lstatFails p with
  | some error => .error error
  | none => fs.symlinkMetadata os.cwd p

def createDir (os : Os) (fs : FileSystem) (uid mode : ℕ) (p : Path) :
    Except Files.Error FileSystem :=
  match os.mkdirFails p with
  | some error => .error error
  | none => fs.createDir os.cwd uid os.gid (mode &&& ((os.umask &&& 0o777) ^^^ 0o777)) p

def setPermissions (os : Os) (fs : FileSystem) (mode : ℕ) (p : Path) :
    Except Files.Error FileSystem :=
  match os.chmodFails p with
  | some error => .error error
  | none => fs.setPermissions os.cwd mode p

end Os

def named (path : Path) (action : String) (error : Files.Error) : Files.Error :=
  ⟨error.kind, path.text ++ " cannot be " ++ action ++ ": " ++ error.text⟩

inductive Bar
  | ownerOnly
  | noForeignWrite
  deriving DecidableEq

namespace Bar

def refuses : Bar → ℕ → Bool
  | ownerOnly, mode => mode &&& otherAccessBits != 0
  | noForeignWrite, mode => mode &&& otherWriteBits != 0 && mode &&& stickyBit == 0

def requirement : Bar → String
  | ownerOnly => "no other user can reach"
  | noForeignWrite => "no other user can write"

end Bar

section

variable (os : Os) (fs : FileSystem) (brokerUid : ℕ)

def vetDirectory (directory : Path) (bar : Bar) : Except Files.Error Unit :=
  match os.symlinkMetadata fs directory with
  | .error error => .error (named directory "inspected" error)
  | .ok metadata =>
    let ownedByTrustedUid := metadata.uid == brokerUid || metadata.uid == rootUid
    if !metadata.isDir || !ownedByTrustedUid || bar.refuses metadata.mode then
      .error ⟨.permissionDenied, directory.text ++ " must be a directory owned by uid " ++
        toString brokerUid ++ " or root that " ++ bar.requirement ++ " it"⟩
    else .ok ()

def vetAncestors (base : Path) : Except Files.Error Unit :=
  base.ancestors.forM fun ancestor => vetDirectory os fs brokerUid ancestor .noForeignWrite

def vetResolvedPath (path : Path) : Except Files.Error Unit :=
  match path.parent.filter fun _ => path.isAbsolute with
  | none =>
    .error ⟨.permissionDenied,
      path.text ++ " must be an absolute path to an entry inside a directory"⟩
  | some parent => do
    vetDirectory os fs brokerUid parent .ownerOnly
    match parent.parent with
    | some above => vetAncestors os fs brokerUid above
    | none => .ok ()

def createPrivate (directory : Path) : Except Files.Error Unit × FileSystem :=
  match os.createDir fs brokerUid privateDirMode directory with
  | .ok made =>
    match os.setPermissions made privateDirMode directory with
    | .ok restricted => (.ok (), restricted)
    | .error error => (.error (named directory "restricted" error), made)
  | .error error =>
    if error.kind = .alreadyExists then (.ok (), fs)
    else (.error (named directory "created" error), fs)

def privateDirectoryIn (base : Path) : Except Files.Error Path × FileSystem :=
  match vetAncestors os fs brokerUid base with
  | .error error => (.error error, fs)
  | .ok () =>
    let directory := base.join (.name privateDirName)
    match createPrivate os fs brokerUid directory with
    | (.error error, left) => (.error error, left)
    | (.ok (), made) =>
      match os.symlinkMetadata made directory with
      | .error error => (.error (named directory "inspected" error), made)
      | .ok metadata =>
        if metadata.isDir && metadata.uid == brokerUid &&
            metadata.mode &&& 0o777 == privateDirMode then
          (.ok directory, made)
        else
          (.error ⟨.permissionDenied, directory.text ++ " must be a directory owned by uid " ++
            toString brokerUid ++ " with mode 700"⟩, made)

def resolvePathsFrom (options : Options) (base : Path) (lookup : String → Option Path) :
    Except Files.Error Paths × FileSystem :=
  let socket := options.socket.or (lookup socketEnv)
  let journal := options.journal.or (lookup journalEnv)
  match privateDirectoryIn os fs brokerUid base with
  | (.error error, left) => (.error error, left)
  | (.ok directory, made) =>
    let paths : Paths :=
      { socket := socket.getD (directory.join (.name defaultSocketName))
        journal := journal.getD (directory.join (.name defaultJournalName))
        lock := directory.join (.name lockFileName) }
    (do
      vetResolvedPath os made brokerUid paths.socket
      vetResolvedPath os made brokerUid paths.journal
      return paths, made)

def runtimeBase (xdgRuntimeDir : Option Path) : Path :=
  if brokerUid = rootUid then fallbackRuntimeBase
  else (xdgRuntimeDir.filter Path.isAbsolute).getD fallbackRuntimeBase

def resolvePaths (options : Options) (env : String → Option Path) :
    Except Files.Error Paths × FileSystem :=
  resolvePathsFrom os fs brokerUid options (runtimeBase brokerUid (env "XDG_RUNTIME_DIR")) env

end

end FpsMaxxing
