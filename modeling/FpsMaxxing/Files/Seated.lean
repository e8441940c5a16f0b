import FpsMaxxing.Effects.Amid
import FpsMaxxing.Files.Seat

/-! What the calls of a process leave alone while other users make theirs: the directories it has
its files in, the entries in them, and everything that is not its own. -/

namespace FpsMaxxing.Files

open Effects FileSystem

variable {own : ℕ → Prop} {who : Process} {v v' : Volume} {d c mode first : ℕ} {name : String}
  {segments : List Segment} {r : Passage} {p path : Path}

namespace Volume

lemma isSocket_iff : v.isSocket c = true ↔ v.sockets c = true ∧ (v.fs.nodes c).kind = .file := by
  simp [isSocket]

end Volume

namespace FileSystem

variable {fs : FileSystem} {left : ℕ}

lemma placeAt_holds {n : ℕ} (ht : fs.Tree) (hd : d < fs.next)
    (h : fs.placeAt left d segments = .ok (c, name, n)) : fs.Holds c := by
  rw [placeAt] at h
  split at h
  · split at h
    · cases h
    · rename_i r hw
      split at h
      · rename_i hdir
        cases h
        exact ⟨(walks_of_walk hw).used ht hd, hdir⟩
      · cases h
  · cases h

lemma openAt_free {n : ℕ} (ht : fs.Tree) (hd : d < fs.next)
    (h : fs.openAt n left d segments = .ok (.inl (c, name))) :
    fs.Holds c ∧ fs.entries c name = none := by
  induction n generalizing left d segments with
  | zero => cases h
  | succ n ih =>
    rw [openAt] at h
    split at h
    · cases h
    · rename_i d' name' left' hplace
      have hholds := placeAt_holds ht hd hplace
      split at h
      · rename_i hnone
        cases h
        exact ⟨hholds, hnone⟩
      · split at h
        · cases h
        · split at h
          · cases h
          · refine ih ?_ h
            split
            · exact ht.root_used
            · exact hholds.1

end FileSystem

/-- Nothing but a socket at the path is taken away, and nothing but modes is changed. -/
structure Spares (cwd : ℕ) (path : Path) (mode : ℕ) (v v' : Volume) : Prop where
  nodes : ∀ c < v.fs.next, v'.fs.nodes c = v.fs.nodes c ∨
    v'.fs.nodes c = { v.fs.nodes c with mode := mode }
  entries : ∀ l : Lookup, v.fs.entries l.dir l.name = some l.entry →
    v'.fs.entries l.dir l.name = some l.entry ∨ v.isSocket l.entry = true ∧
      ∃ r, v.fs.resolve false cwd path = .ok r ∧ r.lookups.getLast? = some l

def FileOp.Mild (mode : ℕ) : FileOp → Prop
  | lstat _ | flock _ => True
  | unlink _ => False
  | bind p => p.rooted = true
  | opens p m => p.rooted = true ∧ m = mode
  | chmod _ m => m = mode

variable (own first) in
structure Seated (seats : List (List Segment × Passage)) (v : Volume) : Prop where
  tree : v.fs.Tree
  born : first ≤ v.fs.next
  seat : ∀ x ∈ seats, Seat own v.fs x.1 x.2

variable (own who d) in
/-- Other users can do nothing with the file of the name, unless root has come upon one of theirs. -/
def Shielded (name : String) (v : Volume) : Prop :=
  ∀ c, v.fs.entries d name = some c → (v.fs.nodes c).kind = .file → v.isSocket c = false →
    (own (v.fs.nodes c).uid ∧ (v.fs.nodes c).mode &&& 0o077 = 0) ∨
      (who.uid = 0 ∧ ¬ own (v.fs.nodes c).uid)

namespace Seated

variable {seats : List (List Segment × Passage)}

lemma stable : Stable (Volume.Step own) (Seated own first seats) := by
  intro v u h hs
  refine ⟨h.tree.step hs.1, h.born.trans (hs.1.keeps h.tree).next, fun x hx => ?_⟩
  exact ((h.seat x hx).step hs.1).1

lemma make (h : Seated own first seats v) (hd : v.fs.Holds d) (hfree : v.fs.entries d name = none)
    {node : Node} (hn : node.kind = .file) (socket : Bool) :
    Seated own first seats (v.make d name node socket) := by
  refine ⟨h.tree.make hd fun p hp => ?_, h.born.trans (Nat.le_succ _), fun x hx => ?_⟩
  · cases hn.symm.trans hp
  · exact (h.seat x hx).make hd hfree hn

lemma chmod (h : Seated own first seats v) (hm : mode &&& 0o022 = 0) (c : ℕ) :
    Seated own first seats { v with fs := v.fs.chmod c mode } :=
  ⟨h.tree.chmod mode, h.born, fun x hx => (h.seat x hx).chmod hm c⟩

lemma put (h : Seated own first seats v) (he : v.fs.entries d name = some c)
    (hc : v.isSocket c = true) :
    Seated own first seats { v with fs := v.fs.put d name none } :=
  ⟨h.tree.remove, h.born, fun x hx => (h.seat x hx).put he (Volume.isSocket_iff.mp hc).2⟩

end Seated

namespace Spares

lemma refl (v : Volume) : Spares who.cwd path mode v v := ⟨fun _ _ => .inl rfl, fun _ h => .inl h⟩

lemma make (hfree : v.fs.entries d name = none) (node : Node) (socket : Bool) :
    Spares who.cwd path mode v (v.make d name node socket) := by
  refine ⟨fun c hc => .inl (setNode_ne _ hc.ne), fun l hl => .inl ?_⟩
  refine (put_entries_ne _ ?_).trans hl
  rintro ⟨hd, hn⟩
  rw [hd, hn, hfree] at hl
  cases hl

lemma chmod (c : ℕ) : Spares who.cwd path mode v { v with fs := v.fs.chmod c mode } := by
  refine ⟨fun x _ => ?_, fun _ h => .inl h⟩
  by_cases hx : x = c
  · right
    rw [hx]
    exact setNode_self _
  · exact .inl (setNode_ne _ hx)

lemma put (he : v.fs.entries d name = some c) (hc : v.isSocket c = true) {r : Passage}
    (hr : v.fs.resolve false who.cwd path = .ok r)
    (hl : r.lookups.getLast? = some ⟨d, name, c⟩) :
    Spares who.cwd path mode v { v with fs := v.fs.put d name none } := by
  refine ⟨fun _ _ => .inl rfl, fun ⟨d', name', c'⟩ he' => ?_⟩
  by_cases h : d' = d ∧ name' = name
  · obtain ⟨rfl, rfl⟩ := h
    obtain rfl := Option.some.inj (he.symm.trans he')
    exact .inr ⟨hc, r, hr, hl⟩
  · exact .inl ((put_entries_ne _ h).trans he')

end Spares

namespace Shielded

lemma make (ht : v.fs.Tree) {d' : ℕ} {name' : String} {node : Node} {socket : Bool}
    (hnew : socket = true ∨ own node.uid ∧ node.mode &&& 0o077 = 0)
    (h : Shielded own who d name v) : Shielded own who d name (v.make d' name' node socket) := by
  intro c he hk hs
  rcases put_entries he with ⟨_, _, hc⟩ | he
  · obtain rfl := Option.some.inj hc
    have hnode : (v.make d' name' node socket).fs.nodes v.fs.next = node := setNode_self _
    have hflag : (v.make d' name' node socket).sockets v.fs.next = socket :=
      Function.update_self ..
    rcases hnew with rfl | hnew
    · rw [Volume.isSocket_iff.mpr ⟨hflag, hk⟩] at hs
      cases hs
    · rw [hnode]
      exact .inl hnew
  · have hlt := (ht.used he).2.1
    have hnode : (v.make d' name' node socket).fs.nodes c = v.fs.nodes c := setNode_ne _ hlt.ne
    have hflag : (v.make d' name' node socket).sockets c = v.sockets c :=
      Function.update_of_ne hlt.ne ..
    rw [Volume.isSocket, hnode, hflag] at hs
    rw [hnode] at hk ⊢
    exact h c he hk hs

lemma chmod (hm : mode &&& 0o077 = 0) (x : ℕ) (h : Shielded own who d name v) :
    Shielded own who d name { v with fs := v.fs.chmod x mode } := by
  intro c he hk hs
  by_cases hx : c = x
  · subst hx
    have hself : (v.fs.chmod c mode).nodes c = { v.fs.nodes c with mode := mode } := setNode_self _
    simp only [Volume.isSocket, hself] at hk hs ⊢
    exact (h c he hk hs).imp (fun hn => ⟨hn.1, hm⟩) id
  · have hnode : (v.fs.chmod x mode).nodes c = v.fs.nodes c := setNode_ne _ hx
    simp only [Volume.isSocket, hnode] at hk hs ⊢
    exact h c he hk hs

lemma put {d' : ℕ} {name' : String} (h : Shielded own who d name v) :
    Shielded own who d name { v with fs := v.fs.put d' name' none } := by
  intro c he hk hs
  rcases put_entries he with ⟨_, _, hc⟩ | he
  · cases hc
  · exact h c he hk hs

lemma step (hseat : Seat own v.fs segments r) (hs : Volume.Step own v v')
    (h : Shielded own who r.inode name v) : Shielded own who r.inode name v' := by
  intro c he hk hsock
  rw [(hseat.step hs.1).2] at he
  have hlt := (hseat.tree.used he).2.1
  have hkeeps := hs.1.keeps hseat.tree
  have hkind : (v.fs.nodes c).kind = .file := by
    rw [Node.kind_file_iff] at hk ⊢
    rwa [hkeeps.isDir c hlt, hkeeps.target c hlt] at hk
  have hflag : v.isSocket c = false := by
    rw [Volume.isSocket, hs.2 c hlt, hk] at hsock
    rw [Volume.isSocket, hkind]
    exact hsock
  rw [hkeeps.uid c hlt]
  refine (h c he hkind hflag).imp (fun hn => ?_) id
  rw [hkeeps.mode c hlt hn.1]
  exact hn

end Shielded

namespace Process.Calls

variable {seats : List (List Segment × Passage)}

lemma mild {o : FileOp} {x : o.Res} (hc : who.Calls v o x v') (ho : o.Mild mode)
    (hm : mode &&& 0o077 = 0) (hown : own who.uid) (h : Seated own first seats v) :
    Seated own first seats v' ∧ Spares who.cwd path mode v v' ∧
      ∀ d name, Shielded own who d name v → Shielded own who d name v' := by
  cases hc with
  | refused | lstat | opens | locks | waits => exact ⟨h, .refl v, fun _ _ hs => hs⟩
  | unlink => exact ho.elim
  | @bind _ p d name hplace hfree =>
    have hr : p.rooted = true := ho
    rw [FileSystem.place, if_pos hr] at hplace
    obtain ⟨_, hat, heq⟩ := map_ok hplace
    cases heq
    exact ⟨h.make (placeAt_holds h.tree h.tree.root_used hat) hfree rfl true,
      .make hfree _ _, fun _ _ hs => hs.make h.tree (.inl rfl)⟩
  | @creates _ p _ d name hplace =>
    obtain ⟨hr, rfl⟩ := ho
    rw [if_pos hr] at hplace
    obtain ⟨hholds, hfree⟩ := openAt_free h.tree h.tree.root_used hplace
    refine ⟨h.make hholds hfree rfl false, .make hfree _ _, fun _ _ hs =>
      hs.make h.tree (.inr ⟨hown, ?_⟩)⟩
    change _ &&& _ &&& 0o077 = 0
    rw [Nat.and_assoc, Nat.and_comm _ 0o077, ← Nat.and_assoc, hm, Nat.zero_and]
  | chmod =>
    obtain rfl := ho
    exact ⟨h.chmod (and_eq_zero hm rfl) _, .chmod _, fun _ _ hs => hs.chmod hm _⟩

lemma shields {x : Except Error Unit} (hc : who.Calls v (.chmod p mode) x v')
    (hx : x = .ok () ∨ ∃ e : Error, x = .error e ∧ e.kind = .notFound) (hm : mode &&& 0o077 = 0)
    (hown : own who.uid) (hseat : Seat own v.fs segments r) (hu : Under p segments name) :
    Shielded own who r.inode name v' := by
  cases hc with
  | refused e hmiss =>
    intro c he hk _
    have hkind : e.kind = .notFound := by
      rcases hx with hx | ⟨e', hx, hkind⟩
      · cases hx
      · cases hx
        exact hkind
    obtain ⟨e', hres, _⟩ := hmiss hkind
    obtain ⟨r', hok, _⟩ := @Seat.find own v.fs true c who.cwd name segments r p hseat hu he
      (.inr (Node.kind_file_iff.mp hk).2)
    cases hok.symm.trans hres
  | @chmod _ _ _ r₁ hres hmay =>
    intro c he hk _
    by_cases hx : c = r₁.inode
    · subst hx
      have hself : (v.fs.chmod r₁.inode mode).nodes r₁.inode =
        { v.fs.nodes r₁.inode with mode := mode } := setNode_self _
      simp only [hself]
      by_cases ho : own (v.fs.nodes r₁.inode).uid
      · exact .inl ⟨ho, hm⟩
      · refine .inr ⟨hmay.resolve_right fun hmine => ho ?_, ho⟩
        rwa [← hmine]
    · have hnode : (v.fs.chmod r₁.inode mode).nodes c = v.fs.nodes c := setNode_ne _ hx
      simp only [hnode] at hk
      obtain ⟨r', hok, hinode, _⟩ := @Seat.find own v.fs true c who.cwd name segments r p hseat hu
        he (.inr (Node.kind_file_iff.mp hk).2)
      cases hok.symm.trans hres
      exact absurd hinode.symm hx

lemma unlinks {x : Except Error Unit} (hc : who.Calls v (.unlink path) x v')
    (h : Seated own first seats v) (hseat : Seat own v.fs segments r)
    (hu : Under path segments name) (he : v.fs.entries r.inode name = some c)
    (hsock : v.isSocket c = true) :
    Seated own first seats v' ∧ Spares who.cwd path mode v v' ∧
      ∀ d name, Shielded own who d name v → Shielded own who d name v' := by
  cases hc with
  | refused e => exact ⟨h, .refl v, fun _ _ hs => hs⟩
  | unlink hplace he' =>
    obtain ⟨rfl, hu'⟩ := hseat.place hu.below hplace
    obtain rfl := hu.name_eq hu'
    obtain rfl := Option.some.inj (he.symm.trans he')
    obtain ⟨r', hr', rfl, hl⟩ := @Seat.find own v.fs false _ who.cwd _ segments r path hseat hu he
      (.inl rfl)
    exact ⟨h.put he hsock, .put he hsock hr' hl, fun _ _ hs => hs.put⟩

end Process.Calls

end FpsMaxxing.Files
