import FpsMaxxing.Effects.Program
import FpsMaxxing.Files.Users

/-! A file system with sockets in it, and the system calls of one process on it. A call can be
refused for a reason the file system does not show, but it does not report an entry that is there
as missing. -/

namespace FpsMaxxing.Files

open Effects

def Path.push (p : Path) (suffix : String) : Path where
  rooted := p.rooted
  segments := p.segments.dropLast ++ [.normal (((p.segments.getLast?).elim "" Segment.text) ++ suffix)]
  proper hr := by
    cases hs : p.segments with
    | nil => simp
    | cons s rest =>
      have hp := p.proper hr
      rw [hs] at hp
      cases rest with
      | nil => simp
      | cons t rest => simpa using hp

namespace FileSystem

def notAName : Error := ⟨.other, "Is a directory (os error 21)"⟩

def placeAt (fs : FileSystem) (left d : ℕ) (segments : List Segment) :
    Except Error (ℕ × String × ℕ) :=
  match segments.reverse with
  | .normal name :: above =>
    match fs.walk true left d above.reverse with
    | .error error => .error error
    | .ok r => if (fs.nodes r.inode).isDir then .ok (r.inode, name, r.left) else .error notADirectory
  | _ => .error notAName

def place (fs : FileSystem) (cwd : ℕ) (p : Path) : Except Error (ℕ × String) :=
  (fs.placeAt maxLinks (if p.rooted then rootInode else cwd) p.segments).map fun (d, name, _) =>
    (d, name)

def openAt (fs : FileSystem) : ℕ → ℕ → ℕ → List Segment → Except Error ((ℕ × String) ⊕ ℕ)
  | 0, _, _, _ => .error tooManyLinks
  | n + 1, left, d, segments =>
    match fs.placeAt left d segments with
    | .error error => .error error
    | .ok (d, name, left) =>
      match fs.entries d name with
      | none => .ok (.inl (d, name))
      | some c =>
        match (fs.nodes c).target with
        | none => .ok (.inr c)
        | some target =>
          if left = 0 then .error tooManyLinks
          else fs.openAt n (left - 1) (if target.rooted then rootInode else d) target.segments

end FileSystem

structure Volume where
  fs : FileSystem
  sockets : ℕ → Bool

namespace Volume

def isSocket (v : Volume) (c : ℕ) : Bool := v.sockets c && decide ((v.fs.nodes c).kind = .file)

def make (v : Volume) (d : ℕ) (name : String) (node : Node) (socket : Bool) : Volume :=
  ⟨v.fs.make d name node, Function.update v.sockets v.fs.next socket⟩

def Step (own : ℕ → Prop) (v v' : Volume) : Prop :=
  FileSystem.Step own v.fs v'.fs ∧ ∀ c < v.fs.next, v'.sockets c = v.sockets c

end Volume

structure Metadata where
  inode : ℕ
  socket : Bool
  deriving DecidableEq

inductive FileOp
  | lstat (p : Path)
  | unlink (p : Path)
  | bind (p : Path)
  | opens (p : Path) (mode : ℕ)
  | chmod (p : Path) (mode : ℕ)
  | flock (inode : ℕ)

/-- `flock` that would have to wait fails without an error of its own. -/
abbrev FileOp.Res : FileOp → Type
  | lstat _ => Except Error Metadata
  | unlink _ | bind _ | chmod _ _ => Except Error Unit
  | opens _ _ => Except Error ℕ
  | flock _ => Except (Option Error) Unit

abbrev FileCalls : Signature := ⟨FileOp, FileOp.Res⟩

def FileOp.fail (e : Error) : (o : FileOp) → o.Res
  | lstat _ | unlink _ | bind _ | chmod _ _ | opens _ _ => .error e
  | flock _ => .error (some e)

structure Process where
  cwd : ℕ
  uid : ℕ
  gid : ℕ
  umask : ℕ

def Process.node (who : Process) (mode : ℕ) : Node :=
  ⟨who.uid, who.gid, mode &&& ((who.umask &&& 0o777) ^^^ 0o777), .file⟩

def Missing {α : Type} (r : Except Error α) : Prop := ∃ e, r = .error e ∧ e.kind = .notFound

def FileOp.Misses (who : Process) (fs : FileSystem) : FileOp → Prop
  | lstat p => Missing (fs.resolve false who.cwd p)
  | chmod p _ => Missing (fs.resolve true who.cwd p)
  | unlink p => Missing (fs.place who.cwd p) ∨
    ∃ d name, fs.place who.cwd p = .ok (d, name) ∧ fs.entries d name = none
  | bind p => Missing (fs.place who.cwd p)
  | opens p _ =>
    Missing (fs.openAt (maxLinks + 1) maxLinks (if p.rooted then rootInode else who.cwd)
      p.segments)
  | flock _ => False

inductive Process.Calls (who : Process) : Semantics FileCalls Volume
  | refused {v o} (e : Error) : (e.kind = .notFound → FileOp.Misses who v.fs o) →
      who.Calls v o (o.fail e) v
  | lstat {v p r} : v.fs.resolve false who.cwd p = .ok r →
      who.Calls v (.lstat p) (.ok ⟨r.inode, v.isSocket r.inode⟩) v
  | unlink {v p d name c} : v.fs.place who.cwd p = .ok (d, name) → v.fs.entries d name = some c →
      (v.fs.nodes c).isDir = false →
      who.Calls v (.unlink p) (.ok ()) { v with fs := v.fs.put d name none }
  | bind {v p d name} : v.fs.place who.cwd p = .ok (d, name) → v.fs.entries d name = none →
      who.Calls v (.bind p) (.ok ()) (v.make d name (who.node 0o777) true)
  | opens {v p mode c} :
      v.fs.openAt (maxLinks + 1) maxLinks (if p.rooted then rootInode else who.cwd) p.segments =
        .ok (.inr c) → (v.fs.nodes c).isDir = false → v.isSocket c = false →
      who.Calls v (.opens p mode) (.ok c) v
  | creates {v p mode d name} :
      v.fs.openAt (maxLinks + 1) maxLinks (if p.rooted then rootInode else who.cwd) p.segments =
        .ok (.inl (d, name)) →
      who.Calls v (.opens p mode) (.ok v.fs.next) (v.make d name (who.node mode) false)
  | chmod {v p mode r} : v.fs.resolve true who.cwd p = .ok r →
      who.uid = 0 ∨ who.uid = (v.fs.nodes r.inode).uid →
      who.Calls v (.chmod p mode) (.ok ()) { v with fs := v.fs.chmod r.inode mode }
  | locks {v c} : who.Calls v (.flock c) (.ok ()) v
  | waits {v c} : who.Calls v (.flock c) (.error none) v

def notPermitted : Error := ⟨.other, "Operation not permitted (os error 1)"⟩

def addressInUse : Error := ⟨.other, "Address already in use (os error 98)"⟩

def Process.answer (who : Process) (v : Volume) : (o : FileOp) → o.Res × Volume
  | .lstat p =>
    match v.fs.resolve false who.cwd p with
    | .error error => (.error error, v)
    | .ok r => (.ok ⟨r.inode, v.isSocket r.inode⟩, v)
  | .unlink p =>
    match v.fs.place who.cwd p with
    | .error error => (.error error, v)
    | .ok (d, name) =>
      match v.fs.entries d name with
      | none => (.error FileSystem.notFound, v)
      | some c =>
        if (v.fs.nodes c).isDir then (.error FileSystem.notAName, v)
        else (.ok (), { v with fs := v.fs.put d name none })
  | .bind p =>
    match v.fs.place who.cwd p with
    | .error error => (.error error, v)
    | .ok (d, name) =>
      match v.fs.entries d name with
      | none => (.ok (), v.make d name (who.node 0o777) true)
      | some _ => (.error addressInUse, v)
  | .opens p mode =>
    match v.fs.openAt (maxLinks + 1) maxLinks (if p.rooted then rootInode else who.cwd)
      p.segments with
    | .error error => (.error error, v)
    | .ok (.inl (d, name)) => (.ok v.fs.next, v.make d name (who.node mode) false)
    | .ok (.inr c) =>
      if (v.fs.nodes c).isDir || v.isSocket c then (.error FileSystem.notAName, v) else (.ok c, v)
  | .chmod p mode =>
    match v.fs.resolve true who.cwd p with
    | .error error => (.error error, v)
    | .ok r =>
      if who.uid = 0 ∨ who.uid = (v.fs.nodes r.inode).uid then
        (.ok (), { v with fs := v.fs.chmod r.inode mode })
      else (.error notPermitted, v)
  | .flock _ => (.ok (), v)

lemma Process.answer_calls (who : Process) (v : Volume) (o : FileOp) :
    who.Calls v o (who.answer v o).1 (who.answer v o).2 := by
  cases o with
  | lstat p =>
    rw [answer]
    split
    · rename_i e he
      exact .refused e fun hk => ⟨e, he, hk⟩
    · rename_i r hr
      exact .lstat hr
  | unlink p =>
    rw [answer]
    split
    · rename_i e he
      exact .refused e fun hk => .inl ⟨e, he, hk⟩
    · rename_i d name hplace
      split
      · rename_i hnone
        exact .refused _ fun _ => .inr ⟨d, name, hplace, hnone⟩
      · rename_i c hc
        split_ifs with hdir
        · exact .refused FileSystem.notAName fun hk => by cases hk
        · exact .unlink hplace hc (Bool.eq_false_iff.mpr hdir)
  | bind p =>
    rw [answer]
    split
    · rename_i e he
      exact .refused e fun hk => ⟨e, he, hk⟩
    · rename_i d name hplace
      split
      · rename_i hnone
        exact .bind hplace hnone
      · exact .refused addressInUse fun hk => by cases hk
  | opens p mode =>
    rw [answer]
    split
    · rename_i e he
      exact .refused e fun hk => ⟨e, he, hk⟩
    · rename_i d name hopen
      exact .creates hopen
    · rename_i c hopen
      split_ifs with h
      · exact .refused FileSystem.notAName fun hk => by cases hk
      · rw [Bool.or_eq_true, not_or, Bool.not_eq_true, Bool.not_eq_true] at h
        exact .opens hopen h.1 h.2
  | chmod p mode =>
    rw [answer]
    split
    · rename_i e he
      exact .refused e fun hk => ⟨e, he, hk⟩
    · rename_i r hr
      split_ifs with hmay
      · exact .chmod hr hmay
      · exact .refused notPermitted fun hk => by cases hk
  | flock c => exact .locks

end FpsMaxxing.Files
