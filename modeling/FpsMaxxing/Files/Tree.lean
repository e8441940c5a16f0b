import FpsMaxxing.Files.Path
import Mathlib.Data.Set.Finite.Basic
import Mathlib.Logic.Function.Basic
import Mathlib.Logic.Relation

/-! A file system of directories, symbolic links and other entries, with owners and mode bits, and
the system calls that look a path up in it. -/

namespace FpsMaxxing.Files

inductive ErrorKind
  | notFound
  | notADirectory
  | alreadyExists
  | permissionDenied
  | other
  deriving DecidableEq

structure Error where
  kind : ErrorKind
  text : String
  deriving DecidableEq

inductive Kind
  | directory (parent : ℕ)
  | symlink (target : Path)
  | file
  deriving DecidableEq

structure Node where
  uid : ℕ
  gid : ℕ
  mode : ℕ
  kind : Kind
  deriving DecidableEq

def Node.isDir (node : Node) : Bool :=
  match node.kind with
  | .directory _ => true
  | _ => false

def Node.target (node : Node) : Option Path :=
  match node.kind with
  | .symlink target => some target
  | _ => none

/-- Inodes from `next` on have never been used. -/
structure FileSystem where
  nodes : ℕ → Node
  entries : ℕ → String → Option ℕ
  next : ℕ

def rootInode : ℕ := 0

structure Lookup where
  dir : ℕ
  name : String
  entry : ℕ
  deriving DecidableEq

/-- Where a path leads, the names on the way, and how many links may still be followed. -/
structure Passage where
  inode : ℕ
  lookups : List Lookup
  left : ℕ
  deriving DecidableEq

def Passage.after (r : Passage) (l : Lookup) : Passage := { r with lookups := l :: r.lookups }

def maxLinks : ℕ := 40

namespace FileSystem

def notFound : Error := ⟨.notFound, "No such file or directory (os error 2)"⟩

def notADirectory : Error := ⟨.notADirectory, "Not a directory (os error 20)"⟩

def alreadyExists : Error := ⟨.alreadyExists, "File exists (os error 17)"⟩

def tooManyLinks : Error := ⟨.other, "Too many levels of symbolic links (os error 40)"⟩

def walkWith (fs : FileSystem) (last : Bool) (left : ℕ)
    (follow : ℕ → List Segment → Except Error Passage) :
    ℕ → List Segment → Except Error Passage
  | d, [] => .ok ⟨d, [], left⟩
  | d, s :: rest =>
    match (fs.nodes d).kind with
    | .directory parent =>
      match s with
      | .empty | .cur => fs.walkWith last left follow d rest
      | .parent => fs.walkWith last left follow parent rest
      | .normal name =>
        match fs.entries d name with
        | none => .error notFound
        | some c =>
          Except.map (Passage.after · ⟨d, name, c⟩) <|
            match (fs.nodes c).target with
            | some target =>
              -- a link at the very end is followed when the call says so; a slash or a `.` after
              -- the name makes it not the end
              if rest = [] ∧ last = false then .ok ⟨c, [], left⟩
              else follow (if target.rooted then rootInode else d) (target.segments ++ rest)
            | none => fs.walkWith last left follow c rest
    | _ => .error notADirectory

def walk (fs : FileSystem) (last : Bool) : ℕ → ℕ → List Segment → Except Error Passage
  | 0 => fs.walkWith last 0 fun _ _ => .error tooManyLinks
  | n + 1 => fs.walkWith last (n + 1) (fs.walk last n)

def resolve (fs : FileSystem) (last : Bool) (cwd : ℕ) (p : Path) : Except Error Passage :=
  if p = .empty then .error notFound
  else fs.walk last maxLinks (if p.rooted then rootInode else cwd) p.segments

def symlinkMetadata (fs : FileSystem) (cwd : ℕ) (p : Path) : Except Error Node :=
  (fs.resolve false cwd p).map fun r => fs.nodes r.inode

def put (fs : FileSystem) (d : ℕ) (name : String) (entry : Option ℕ) : FileSystem :=
  { fs with entries := fun d' name' => if d' = d ∧ name' = name then entry else fs.entries d' name' }

def setNode (fs : FileSystem) (c : ℕ) (node : Node) : FileSystem :=
  { fs with nodes := Function.update fs.nodes c node }

def make (fs : FileSystem) (d : ℕ) (name : String) (node : Node) : FileSystem :=
  { ((fs.setNode fs.next node).put d name (some fs.next)) with next := fs.next + 1 }

def adopt (fs : FileSystem) (c d : ℕ) : FileSystem :=
  if (fs.nodes c).isDir then fs.setNode c { fs.nodes c with kind := .directory d } else fs

def chmod (fs : FileSystem) (c mode : ℕ) : FileSystem :=
  fs.setNode c { fs.nodes c with mode := mode }

def createDir (fs : FileSystem) (cwd uid gid mode : ℕ) (p : Path) : Except Error FileSystem :=
  match p.segments.reverse.dropWhile (· = .empty) with
  | .normal name :: above =>
    match fs.walk true maxLinks (if p.rooted then rootInode else cwd) above.reverse with
    | .error e => .error e
    | .ok r =>
      if (fs.nodes r.inode).isDir then
        match fs.entries r.inode name with
        | some _ => .error alreadyExists
        | none => .ok (fs.make r.inode name ⟨uid, gid, mode, .directory r.inode⟩)
      else .error notADirectory
  | [] => .error (if p.rooted then alreadyExists else notFound)
  | _ => .error alreadyExists

def setPermissions (fs : FileSystem) (cwd mode : ℕ) (p : Path) : Except Error FileSystem :=
  (fs.resolve true cwd p).map fun r => fs.chmod r.inode mode

end FileSystem

end FpsMaxxing.Files
