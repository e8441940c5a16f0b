import FpsMaxxing.Broker.Locations
import FpsMaxxing.Effects.Checks
import FpsMaxxing.Files.Guarded

/-! Accepted paths are not led elsewhere by other users, unless the base ends in a slash or a `.`
behind a symbolic link. -/

namespace FpsMaxxing

open Effects Files FileSystem

def Trusted (brokerUid uid : ℕ) : Prop := uid = brokerUid ∨ uid = rootUid

variable {os : Os} {fs fs' : FileSystem} {brokerUid : ℕ} {p q base directory : Path} {bar : Bar}

lemma Bar.shut {node : Node} (h : bar.refuses node.mode = false) : ¬ node.Open ∨ node.Sticky := by
  cases bar with
  | ownerOnly =>
    have hmode : node.mode &&& otherAccessBits = 0 := by simpa [Bar.refuses] using h
    exact .inl (Node.not_open_of_mask (and_eq_zero hmode rfl))
  | noForeignWrite =>
    by_cases hs : node.Sticky
    · exact .inr hs
    · have hmode : node.mode &&& otherWriteBits = 0 := by
        have hs' : node.mode &&& stickyBit = 0 := not_not.mp hs
        simpa [Bar.refuses, hs'] using h
      exact .inl (Node.not_open_of_mask hmode)

lemma not_permits {node : Node} {u : User} (h : node.mode &&& otherAccessBits = 0)
    (hu : u.uid ≠ node.uid) (access : Access) : ¬ node.Permits u access := by
  rw [Node.Permits, if_neg hu, Node.Grants, not_not]
  split <;> cases access <;> exact and_eq_zero h rfl

lemma symlinkMetadata_ok {node : Node} (h : os.symlinkMetadata fs p = .ok node) :
    p ≠ .empty ∧ ∃ r, Walks fs false maxLinks (if p.rooted then rootInode else os.cwd) p.segments r ∧
      node = fs.nodes r.inode := by
  unfold Os.symlinkMetadata at h
  split at h
  · cases h
  · obtain ⟨r, hr, rfl⟩ := map_ok h
    unfold FileSystem.resolve at hr
    split at hr
    · cases hr
    · rename_i hne
      exact ⟨hne, r, walks_of_walk hr, rfl⟩

lemma vetDirectory_ok (h : vetDirectory os fs brokerUid p bar = .ok ()) :
    ∃ node, os.symlinkMetadata fs p = .ok node ∧ node.isDir = true ∧ Trusted brokerUid node.uid ∧
      bar.refuses node.mode = false := by
  unfold vetDirectory at h
  split at h
  · cases h
  · rename_i node hnode
    simp only at h
    split at h
    · cases h
    · rename_i hn
      simp only [Bool.or_eq_true, Bool.not_eq_true', not_or, Bool.not_eq_true, Bool.not_eq_false,
        beq_iff_eq] at hn
      exact ⟨node, hnode, hn.1.1, hn.1.2, hn.2⟩

/-- A path that leads, by guarded names only, to a directory of the broker or of root which nobody
else can write, or that is sticky. -/
structure Reached (fs : FileSystem) (brokerUid : ℕ) (p : Path) (r : Passage) : Prop where
  walks : Walks fs true maxLinks rootInode p.segments r
  isDir : (fs.nodes r.inode).isDir = true
  trusted : Trusted brokerUid (fs.nodes r.inode).uid
  shut : ¬ (fs.nodes r.inode).Open ∨ (fs.nodes r.inode).Sticky
  guarded : ∀ l ∈ r.lookups, Guarded (Trusted brokerUid) fs l

lemma Reached.child {r : Passage} (hr : p.rooted = true) (hc : p.Clean) (hq : p.parent = some q)
    (h : Reached fs brokerUid q r) (hv : vetDirectory os fs brokerUid p bar = .ok ()) :
    ∃ r', Reached fs brokerUid p r' ∧ bar.refuses (fs.nodes r'.inode).mode = false := by
  obtain ⟨-, -, gap, s, tail, hsegments, hs, hgap, htail⟩ := Path.parent_some hr hq
  obtain rfl : tail = [] := Path.clean_tail hc hsegments hs htail
  obtain ⟨node, hnode, hdir, htrusted, hbar⟩ := vetDirectory_ok hv
  obtain ⟨-, r', hw, rfl⟩ := symlinkMetadata_ok hnode
  rw [if_pos hr, hsegments, List.append_assoc] at hw
  have htarget := target_none hdir
  obtain ⟨r₁, r₂, h₁, h₂, hr'⟩ := Walks.split (by simp) hw
  obtain rfl : r₁ = r := Except.ok.inj (h₁.walk.symm.trans h.walks.walk)
  have hinode : r'.inode = r₂.inode := by rw [hr']
  have hlookups : r'.lookups = r₁.lookups ++ r₂.lookups := by rw [hr']
  rw [hinode] at hdir htrusted hbar htarget
  refine ⟨r', ⟨?_, ?_, ?_, ?_, ?_⟩, ?_⟩
  · rw [hsegments, List.append_assoc]
    exact hw.followed (by rwa [hinode])
  · rwa [hinode]
  · rwa [hinode]
  · rw [hinode]
    exact Bar.shut hbar
  · rw [hlookups]
    intro l hl
    rcases List.mem_append.mp hl with hl | hl
    · exact h.guarded l hl
    · rcases h₂.component hgap hs htarget with hnil | ⟨name, hone⟩
      · rw [hnil] at hl
        cases hl
      · rw [hone, List.mem_singleton] at hl
        subst hl
        refine ⟨h.trusted, h.shut.imp id fun hsticky => ⟨hsticky, htrusted⟩, fun target ht => ?_⟩
        rw [htarget] at ht
        cases ht
  · rwa [hinode]

lemma Reached.root (hr : p.rooted = true) (hc : p.Clean) (hq : p.parent = none)
    (hv : vetDirectory os fs brokerUid p bar = .ok ()) :
    ∃ r', Reached fs brokerUid p r' ∧ bar.refuses (fs.nodes r'.inode).mode = false := by
  have hnil : p.segments = [] := Path.clean_nil hc (Path.parent_none hr hq)
  obtain ⟨node, hnode, hdir, htrusted, hbar⟩ := vetDirectory_ok hv
  obtain ⟨-, r', hw, rfl⟩ := symlinkMetadata_ok hnode
  rw [if_pos hr, hnil] at hw
  cases hw
  refine ⟨⟨rootInode, [], maxLinks⟩, ⟨?_, hdir, htrusted, Bar.shut hbar, nofun⟩, hbar⟩
  rw [hnil]
  exact .nil

lemma reached_of_vetAncestors (hr : p.rooted = true) (hc : p.Clean)
    (hv : vetAncestors os fs brokerUid p = .ok ()) : ∃ r, Reached fs brokerUid p r := by
  induction hn : p.segments.length using Nat.strong_induction_on generalizing p with
  | _ n ih =>
    have hall := forM_eq_ok.mp hv
    have hself : vetDirectory os fs brokerUid p .noForeignWrite = .ok () :=
      hall p List.mem_cons_self
    cases hq : p.parent with
    | none =>
      obtain ⟨r, hreached, -⟩ := Reached.root hr hc hq hself
      exact ⟨r, hreached⟩
    | some q =>
      obtain ⟨hqr, hqc, -⟩ := Path.parent_some hr hq
      have hqv : vetAncestors os fs brokerUid q = .ok () := forM_eq_ok.mpr fun a ha =>
        hall a (by rw [Path.ancestors_some hq]; exact List.mem_cons_of_mem _ ha)
      obtain ⟨r, hreached⟩ := ih _ (hn ▸ Path.parent_length hq) hqr hqc hqv rfl
      obtain ⟨r', hreached', -⟩ := hreached.child hr hc hq hself
      exact ⟨r', hreached'⟩

lemma reached_of_vetResolvedPath (hv : vetResolvedPath os fs brokerUid p = .ok ()) :
    p.isAbsolute = true ∧ ∃ parent r, p.parent = some parent ∧ parent.rooted = true ∧
      Reached fs brokerUid parent r ∧ (fs.nodes r.inode).mode &&& otherAccessBits = 0 := by
  unfold vetResolvedPath at hv
  split at hv
  · cases hv
  · rename_i parent hfilter
    obtain ⟨hparent, habs⟩ := Option.filter_eq_some_iff.mp hfilter
    have hr : p.rooted = true := habs
    obtain ⟨hpr, hpc, -⟩ := Path.parent_some hr hparent
    cases hd : vetDirectory os fs brokerUid parent .ownerOnly with
    | error e =>
      rw [hd] at hv
      cases hv
    | ok u =>
      rw [hd] at hv
      have hclosed : ∀ r, Reached fs brokerUid parent r ∧
          Bar.ownerOnly.refuses (fs.nodes r.inode).mode = false →
          p.isAbsolute = true ∧ ∃ parent r, p.parent = some parent ∧ parent.rooted = true ∧
            Reached fs brokerUid parent r ∧ (fs.nodes r.inode).mode &&& otherAccessBits = 0 :=
        fun r h => ⟨hr, parent, r, hparent, hpr, h.1, by simpa [Bar.refuses] using h.2⟩
      cases hq : parent.parent with
      | none =>
        obtain ⟨r, h⟩ := Reached.root hpr hpc hq hd
        exact hclosed r h
      | some above =>
        obtain ⟨har, hac, -⟩ := Path.parent_some hpr hq
        have hav : vetAncestors os fs brokerUid above = .ok () := by
          simpa [hq, bind, Except.bind] using hv
        obtain ⟨r, hreached⟩ := reached_of_vetAncestors har hac hav
        obtain ⟨r', h⟩ := hreached.child hpr hpc hq hd
        exact hclosed r' h

lemma ne_empty (hr : p.rooted = true) : p ≠ .empty := by
  rintro rfl
  cases hr

lemma walks_front {r : Passage} (h : Walks fs true maxLinks rootInode p.segments r) :
    Walks fs true maxLinks rootInode p.front r := by
  rcases p.front_cases with hp | hp
  · rwa [hp]
  · rw [hp] at h
    obtain ⟨r₁, r₂, h₁, h₂, rfl⟩ := h.split (List.cons_ne_nil _ _)
    obtain rfl := h₂.skipped (by simp [Segment.skipped])
    simpa using h₁

lemma setPermissions_made {r : Passage} {name : String} {mode : ℕ} {node : Node} (ht : fs.Tree)
    (hr : base.rooted = true) (hw : Walks fs true maxLinks rootInode base.front r)
    (hfree : fs.entries r.inode name = none) (hnode : node.isDir = true)
    (h : os.setPermissions (fs.make r.inode name node) mode (base.join (.name name)) = .ok fs') :
    fs' = fs.make r.inode name { node with mode := mode } := by
  have hmade : (fs.make r.inode name node).nodes fs.next = node := setNode_self _
  unfold Os.setPermissions at h
  split at h
  · cases h
  · obtain ⟨r', hr', rfl⟩ := map_ok h
    rw [FileSystem.resolve, if_neg (ne_empty (p := base.join (.name name)) hr),
      Path.join_name_rooted, Path.join_name_segments, if_pos hr] at hr'
    obtain ⟨r₁, r₂, h₁, h₂, rfl⟩ := (walks_of_walk hr').split (List.cons_ne_nil _ _)
    obtain rfl : r₁ = r := Except.ok.inj (h₁.walk.symm.trans (hw.make ht node hfree ht.root_used).walk)
    have hinode : r₂.inode = fs.next := by
      generalize r₁.left = left at h₂
      cases h₂ with
      | skip _ hs _ => cases hs
      | enter _ he _ hend =>
        cases hend
        exact (Option.some.inj ((put_entries_self _).symm.trans he)).symm
      | keep _ _ _ hl => cases hl
      | follow _ he hl _ _ =>
        obtain rfl := Option.some.inj ((put_entries_self _).symm.trans he)
        rw [hmade, target_none hnode] at hl
        cases hl
    rw [FileSystem.chmod, hinode, hmade]
    unfold FileSystem.make FileSystem.put FileSystem.setNode
    simp only [Function.update_idem]

lemma createPrivate_ok {r : Passage} {name : String} (ht : fs.Tree) (hr : base.rooted = true)
    (hw : Walks fs true maxLinks rootInode base.front r)
    (h : createPrivate os fs brokerUid (base.join (.name name)) = (.ok (), fs')) :
    fs' = fs ∨ fs.entries r.inode name = none ∧ ∃ node : Node, node.uid = brokerUid ∧
      node.kind = .directory r.inode ∧ fs' = fs.make r.inode name node := by
  unfold createPrivate at h
  split at h
  · rename_i made hmade
    right
    unfold Os.createDir at hmade
    split at hmade
    · cases hmade
    · unfold FileSystem.createDir at hmade
      rw [Path.join_name_segments, Path.join_name_rooted, if_pos hr] at hmade
      simp only [List.reverse_append, List.reverse_cons, List.reverse_nil, List.nil_append,
        List.singleton_append, reduceCtorEq, decide_false, Bool.false_eq_true, not_false_eq_true,
        List.dropWhile_cons_of_neg, List.reverse_reverse, hw.walk] at hmade
      split at hmade
      · split at hmade
        · cases hmade
        · rename_i hfree
          cases hmade
          refine ⟨hfree, ?_⟩
          split at h
          · rename_i restricted hrestricted
            cases h
            exact ⟨_, rfl, rfl, setPermissions_made ht hr hw hfree rfl hrestricted⟩
          · cases h
      · cases hmade
  · split at h
    · cases h
      exact .inl rfl
    · cases h

lemma createPrivate_frame {r : Passage} {name : String} (ht : fs.Tree) (hr : base.rooted = true)
    (hw : Walks fs true maxLinks rootInode base.front r) (hd : (fs.nodes r.inode).isDir = true)
    (h : createPrivate os fs brokerUid (base.join (.name name)) = (.ok (), fs')) :
    fs'.Tree ∧ (∀ c < fs.next, fs'.nodes c = fs.nodes c) ∧
      Walks fs' true maxLinks rootInode base.front r := by
  rcases createPrivate_ok ht hr hw h with rfl | ⟨hfree, node, _, hkind, rfl⟩
  · exact ⟨ht, fun _ _ => rfl, hw⟩
  · have hholds : fs.Holds r.inode := ⟨hw.used ht ht.root_used, hd⟩
    refine ⟨ht.make hholds fun p hp => ?_, fun c hc => setNode_ne _ hc.ne,
      hw.make ht node hfree ht.root_used⟩
    rw [hkind] at hp
    exact (Kind.directory.inj hp).symm

lemma walks_name {r r' : Passage} {segments : List Segment} {name : String}
    (hw : Walks fs true maxLinks rootInode segments r)
    (h : Walks fs false maxLinks rootInode (segments ++ [.normal name]) r')
    (hd : (fs.nodes r'.inode).isDir = true) :
    r'.lookups = r.lookups ++ [⟨r.inode, name, r'.inode⟩] := by
  obtain ⟨r₁, r₂, h₁, h₂, rfl⟩ := h.split (List.cons_ne_nil _ _)
  obtain rfl : r₁ = r := Except.ok.inj (h₁.walk.symm.trans hw.walk)
  generalize r₁.left = left at h₂
  cases h₂ with
  | skip _ hs _ => cases hs
  | enter _ _ _ hend =>
    cases hend
    rfl
  | keep _ _ hl _ => cases (target_none hd).symm.trans hl
  | follow _ _ _ hgoes _ => exact absurd ⟨rfl, rfl⟩ hgoes

structure Private (os : Os) (brokerUid : ℕ) (fs fs' : FileSystem) (base directory : Path)
    (r r' : Passage) : Prop where
  rooted : base.rooted = true
  joined : directory = base.join (.name privateDirName)
  tree : fs'.Tree
  base_walks : Walks fs true maxLinks rootInode base.segments r
  walks : Walks fs' true maxLinks rootInode directory.segments r'
  lookups : r'.lookups = r.lookups ++ [⟨r.inode, privateDirName, r'.inode⟩]
  guarded : ∀ l ∈ r.lookups, Guarded (Trusted brokerUid) fs' l ↔ Guarded (Trusted brokerUid) fs l
  last : Guarded (Trusted brokerUid) fs' ⟨r.inode, privateDirName, r'.inode⟩
  trusted : Trusted brokerUid (fs'.nodes r'.inode).uid
  closed : (fs'.nodes r'.inode).mode &&& otherAccessBits = 0

lemma base_vetted (hv : vetAncestors os fs brokerUid base = .ok ()) :
    base.rooted = true ∧ ∃ r, Walks fs true maxLinks rootInode base.segments r ∧
      (fs.nodes r.inode).isDir = true ∧ Trusted brokerUid (fs.nodes r.inode).uid ∧
      (¬ (fs.nodes r.inode).Open ∨ (fs.nodes r.inode).Sticky) := by
  have hall := forM_eq_ok.mp hv
  have hr : base.rooted = true := by
    by_contra hr
    have hempty := hall _ (Path.empty_ancestors (Bool.not_eq_true _ ▸ hr))
    obtain ⟨node, hnode, -⟩ := vetDirectory_ok hempty
    exact (symlinkMetadata_ok hnode).1 rfl
  obtain ⟨node, hnode, hdir, htrusted, hbar⟩ := vetDirectory_ok (hall base List.mem_cons_self)
  obtain ⟨-, r, hw, rfl⟩ := symlinkMetadata_ok hnode
  rw [if_pos hr] at hw
  exact ⟨hr, r, hw.followed (target_none hdir), hdir, htrusted, Bar.shut hbar⟩

lemma privateDirectoryIn_ok (ht : fs.Tree)
    (h : privateDirectoryIn os fs brokerUid base = (.ok directory, fs')) :
    ∃ r r', Private os brokerUid fs fs' base directory r r' := by
  unfold privateDirectoryIn at h
  split at h
  · cases h
  · rename_i hv
    obtain ⟨hr, r, hw, hdir, htrusted, hshut⟩ := base_vetted hv
    simp only at h
    split at h
    · cases h
    · rename_i made hmade
      split at h
      · cases h
      · rename_i node hnode
        split at h
        · rename_i hok
          cases h
          simp only [Bool.and_eq_true, beq_iff_eq] at hok
          obtain ⟨⟨hdir', huid⟩, hmode⟩ := hok
          obtain ⟨ht', hold, hfront⟩ := createPrivate_frame ht hr (walks_front hw) hdir hmade
          obtain ⟨-, r', hw', rfl⟩ := symlinkMetadata_ok hnode
          rw [Path.join_name_rooted, if_pos hr, Path.join_name_segments] at hw'
          have hlookups := walks_name hfront hw' hdir'
          have hlt := hw.used ht ht.root_used
          refine ⟨r, r', hr, rfl, ht', hw, hw'.followed (target_none hdir'), hlookups, ?_, ?_,
            .inl huid, ?_⟩
          · intro l hl
            obtain ⟨hd, hc, -⟩ := ht.used (hw.entries l hl)
            exact Guarded.congr (hold _ hd.1) (hold _ hc)
          · refine ⟨?_, ?_, fun target hl => ?_⟩
            · rw [hold _ hlt]
              exact htrusted
            · rw [hold _ hlt]
              exact hshut.imp id fun hs => ⟨hs, .inl huid⟩
            · rw [target_none hdir'] at hl
              cases hl
          · have hmasked : (fs'.nodes r'.inode).mode &&& 0o777 &&& otherAccessBits = 0 := by
              rw [hmode]
              rfl
            rwa [Nat.and_assoc] at hmasked
        · cases h

/-- After any calls of other users the directory is still where it was, no link on the way is of
another user, and no other user can do anything in it. -/
def Kept (brokerUid : ℕ) (os : Os) (fs : FileSystem) (directory : Path) : Prop :=
  ∃ r, fs.resolve true os.cwd directory = .ok r ∧
    ∀ fs', Relation.ReflTransGen (Step (Trusted brokerUid)) fs fs' →
      ∃ r', fs'.resolve true os.cwd directory = .ok r' ∧ r'.inode = r.inode ∧
        (∀ l ∈ r'.lookups, ∀ target, (fs'.nodes l.entry).target = some target →
          Trusted brokerUid (fs'.nodes l.entry).uid) ∧
        ∀ u : User, ¬ Trusted brokerUid u.uid →
          ∀ access, ¬ (fs'.nodes r'.inode).Permits u access

def PathsKept (brokerUid : ℕ) (os : Os) (fs : FileSystem) (paths : Paths) : Prop :=
  paths.socket.isAbsolute = true ∧ paths.journal.isAbsolute = true ∧
    ∀ path ∈ [paths.socket, paths.journal, paths.lock], ∃ parent, path.parent = some parent ∧
      Kept brokerUid os fs parent

lemma resolve_ok_iff {r : Passage} (hr : p.rooted = true) :
    fs.resolve true os.cwd p = .ok r ↔ Walks fs true maxLinks rootInode p.segments r := by
  rw [FileSystem.resolve, if_neg (ne_empty hr), if_pos hr, walk_ok_iff]

lemma kept_of_guarded {r : Passage} (ht : fs.Tree) (hr : p.rooted = true)
    (hw : Walks fs true maxLinks rootInode p.segments r)
    (hg : ∀ l ∈ r.lookups, Guarded (Trusted brokerUid) fs l)
    (ho : Trusted brokerUid (fs.nodes r.inode).uid)
    (hc : (fs.nodes r.inode).mode &&& otherAccessBits = 0) : Kept brokerUid os fs p := by
  refine ⟨r, (resolve_ok_iff hr).mpr hw, fun fs' hs => ?_⟩
  obtain ⟨-, hk⟩ := ht.run hs
  obtain ⟨hw', hg'⟩ := hw.stays ht hg hs
  have hlt := hw.used ht ht.root_used
  refine ⟨r, (resolve_ok_iff hr).mpr hw', rfl, fun l hl => (hg' l hl).link, fun u hu => ?_⟩
  rw [← hk.mode _ hlt ho] at hc
  refine not_permits hc fun he => hu ?_
  rw [he, hk.uid _ hlt]
  exact ho

lemma exists_untrusted (brokerUid : ℕ) : ∃ uid, ¬ Trusted brokerUid uid :=
  ⟨brokerUid + 1, by simp [Trusted, rootUid]⟩

lemma guarded_of_kept {r : Passage} {l : Lookup} (ht : fs.Tree) (hr : p.rooted = true)
    (hk : Kept brokerUid os fs p) (hw : Walks fs true maxLinks rootInode p.segments r)
    (hl : l ∈ r.lookups) : Guarded (Trusted brokerUid) fs l := by
  obtain ⟨r₀, -, hkept⟩ := hk
  by_contra hg
  rcases hw.disturbed ht (exists_untrusted brokerUid) hl hg with
    ⟨target, htarget, hforeign⟩ | ⟨fs', hs, hgone⟩
  · obtain ⟨r', hr', -, hlinks, -⟩ := hkept fs .refl
    obtain rfl := Except.ok.inj (((resolve_ok_iff hr).mpr hw).symm.trans hr')
    exact hforeign (hlinks l hl target htarget)
  · obtain ⟨r', hr', -⟩ := hkept fs' hs
    exact hgone r' ((resolve_ok_iff hr).mp hr')

lemma resolvePathsFrom_ok {options : Options} {lookup : String → Option Path} {paths : Paths}
    (h : (resolvePathsFrom os fs brokerUid options base lookup).1 = .ok paths) :
    ∃ directory fs', privateDirectoryIn os fs brokerUid base = (.ok directory, fs') ∧
      (resolvePathsFrom os fs brokerUid options base lookup).2 = fs' ∧
      paths.socket = (options.socket.or (lookup socketEnv)).getD
        (directory.join (.name defaultSocketName)) ∧
      paths.journal = (options.journal.or (lookup journalEnv)).getD
        (directory.join (.name defaultJournalName)) ∧
      paths.lock = directory.join (.name lockFileName) ∧
      vetResolvedPath os fs' brokerUid paths.socket = .ok () ∧
      vetResolvedPath os fs' brokerUid paths.journal = .ok () := by
  unfold resolvePathsFrom at h ⊢
  simp only at h ⊢
  split at h
  · cases h
  · rename_i directory fs' hprivate
    cases hs : vetResolvedPath os fs' brokerUid ((options.socket.or (lookup socketEnv)).getD
        (directory.join (.name defaultSocketName))) with
    | error e =>
      rw [hs] at h
      cases h
    | ok u =>
      cases hj : vetResolvedPath os fs' brokerUid ((options.journal.or (lookup journalEnv)).getD
          (directory.join (.name defaultJournalName))) with
      | error e =>
        rw [hs, hj] at h
        cases h
      | ok u' =>
        rw [hs, hj] at h
        cases h
        exact ⟨directory, fs', hprivate, rfl, rfl, rfl, rfl, hs, hj⟩

lemma guarded_of_default {r r' : Passage} {name : String}
    (hp : Private os brokerUid fs fs' base directory r r')
    (hv : vetResolvedPath os fs' brokerUid (directory.join (.name name)) = .ok ()) :
    ∀ l ∈ r'.lookups, Guarded (Trusted brokerUid) fs' l := by
  obtain ⟨-, parent, r₁, hparent, -, hreached, -⟩ := reached_of_vetResolvedPath hv
  have hd : directory.rooted = true := by
    rw [hp.joined]
    exact hp.rooted
  have hsegments : directory.segments = base.front ++ [.normal privateDirName] := by
    rw [hp.joined]
    rfl
  rw [Path.parent_join hd hsegments] at hparent
  cases hparent
  obtain rfl := Except.ok.inj (hreached.walks.walk.symm.trans hp.walks.walk)
  exact hreached.guarded

lemma guarded_of_trimmed {r r' : Passage} (hp : Private os brokerUid fs fs' base directory r r')
    (hv : vetAncestors os fs brokerUid base = .ok ()) (htrim : base.trimmed = base) :
    ∀ l ∈ r.lookups, Guarded (Trusted brokerUid) fs l := by
  have hc : base.Clean := by
    rw [Path.Clean, ← Path.trimmed_segments hp.rooted, htrim]
  obtain ⟨r₁, hreached⟩ := reached_of_vetAncestors hp.rooted hc hv
  obtain rfl := Except.ok.inj (hreached.walks.walk.symm.trans hp.base_walks.walk)
  exact hreached.guarded

/-- Accepted paths are kept from every other user exactly when a default path had the directory
vetted, or the base ends in a component, or every name the base is looked up by is guarded. -/
theorem paths_kept {options : Options} {lookup : String → Option Path} {paths : Paths}
    (ht : fs.Tree) (h : (resolvePathsFrom os fs brokerUid options base lookup).1 = .ok paths) :
    PathsKept brokerUid os (resolvePathsFrom os fs brokerUid options base lookup).2 paths ↔
      options.socket.or (lookup socketEnv) = none ∨ options.journal.or (lookup journalEnv) = none ∨
        base.trimmed = base ∨ ∃ r, fs.resolve true os.cwd base = .ok r ∧
          ∀ l ∈ r.lookups, Guarded (Trusted brokerUid) fs l := by
  obtain ⟨directory, fs', hprivate, hleft, hsocket, hjournal, hlock, hvs, hvj⟩ :=
    resolvePathsFrom_ok h
  obtain ⟨r, r', hp⟩ := privateDirectoryIn_ok ht hprivate
  have hv : vetAncestors os fs brokerUid base = .ok () := by
    unfold privateDirectoryIn at hprivate
    split at hprivate
    · cases hprivate
    · assumption
  have hd : directory.rooted = true := by
    rw [hp.joined]
    exact hp.rooted
  have hlockdir : paths.lock.parent = some directory := by
    rw [hlock]
    exact Path.parent_join hd (by rw [hp.joined]; rfl)
  rw [hleft]
  constructor
  · rintro ⟨-, -, hall⟩
    obtain ⟨parent, hparent, hkept⟩ := hall paths.lock (by simp)
    rw [hlockdir] at hparent
    cases hparent
    refine .inr (.inr (.inr ⟨r, (resolve_ok_iff hp.rooted).mpr hp.base_walks, fun l hl => ?_⟩))
    refine (hp.guarded l hl).mp (guarded_of_kept hp.tree hd hkept hp.walks ?_)
    rw [hp.lookups]
    exact List.mem_append_left _ hl
  · intro hcond
    have hbase : (∀ l ∈ r.lookups, Guarded (Trusted brokerUid) fs l) →
        ∀ l ∈ r'.lookups, Guarded (Trusted brokerUid) fs' l := by
      intro hg l hl
      rw [hp.lookups] at hl
      rcases List.mem_append.mp hl with hl | hl
      · exact (hp.guarded l hl).mpr (hg l hl)
      · rw [List.mem_singleton.mp hl]
        exact hp.last
    have hguarded : ∀ l ∈ r'.lookups, Guarded (Trusted brokerUid) fs' l := by
      rcases hcond with hnone | hnone | htrim | ⟨r₀, hr₀, hg⟩
      · rw [hsocket, hnone] at hvs
        exact guarded_of_default hp hvs
      · rw [hjournal, hnone] at hvj
        exact guarded_of_default hp hvj
      · exact hbase (guarded_of_trimmed hp hv htrim)
      · obtain rfl := Except.ok.inj (hr₀.symm.trans ((resolve_ok_iff hp.rooted).mpr hp.base_walks))
        exact hbase hg
    obtain ⟨hsa, ps, rs, hps, hpsr, hs, hsc⟩ := reached_of_vetResolvedPath hvs
    obtain ⟨hja, pj, rj, hpj, hpjr, hj, hjc⟩ := reached_of_vetResolvedPath hvj
    refine ⟨hsa, hja, fun path hpath => ?_⟩
    simp only [List.mem_cons, List.not_mem_nil, or_false] at hpath
    rcases hpath with rfl | rfl | rfl
    · exact ⟨ps, hps, kept_of_guarded hp.tree hpsr hs.walks hs.guarded hs.trusted hsc⟩
    · exact ⟨pj, hpj, kept_of_guarded hp.tree hpjr hj.walks hj.guarded hj.trusted hjc⟩
    · exact ⟨directory, hlockdir,
        kept_of_guarded hp.tree hd hp.walks hguarded hp.trusted hp.closed⟩

section

def absolute (names : List String) (tail : List Segment) : Path :=
  ⟨true, names.map .normal ++ tail, nofun⟩

def linked : FileSystem where
  nodes
    | 0 => ⟨0, 0, 0o755, .directory 0⟩
    | 1 => ⟨0, 0, 0o1777, .directory 0⟩
    | 2 => ⟨0, 0, 0o755, .directory 0⟩
    | 3 => ⟨1000, 1000, 0o700, .directory 2⟩
    | 4 => ⟨1001, 1001, 0o777, .symlink (absolute ["home", "b"] [])⟩
    | _ => ⟨0, 0, 0, .file⟩
  entries
    | 0, "tmp" => some 1
    | 0, "home" => some 2
    | 2, "b" => some 3
    | 1, "x" => some 4
    | _, _ => none
  next := 5

lemma linked_entries {d c : ℕ} {name : String} (h : linked.entries d name = some c) :
    (d, name, c) ∈ [(0, "tmp", 1), (0, "home", 2), (2, "b", 3), (1, "x", 4)] := by
  unfold linked at h
  simp only at h
  split at h <;> cases h <;> decide

lemma linked_tree : linked.Tree := by
  refine ⟨rfl, by decide, fun h => ?_, fun h hp => ?_, fun h h' _ => ?_, fun {d p} hlt hp => ?_,
    fun d => ?_⟩
  · have hmem := linked_entries h
    simp only [List.mem_cons, Prod.mk.injEq, List.not_mem_nil, or_false] at hmem
    rcases hmem with ⟨rfl, rfl, rfl⟩ | ⟨rfl, rfl, rfl⟩ | ⟨rfl, rfl, rfl⟩ | ⟨rfl, rfl, rfl⟩ <;>
      exact ⟨⟨by decide, rfl⟩, by decide, by decide⟩
  · have hmem := linked_entries h
    simp only [List.mem_cons, Prod.mk.injEq, List.not_mem_nil, or_false] at hmem
    rcases hmem with ⟨rfl, rfl, rfl⟩ | ⟨rfl, rfl, rfl⟩ | ⟨rfl, rfl, rfl⟩ | ⟨rfl, rfl, rfl⟩ <;>
      cases hp <;> rfl
  · have hmem := linked_entries h
    have hmem' := linked_entries h'
    simp only [List.mem_cons, Prod.mk.injEq, List.not_mem_nil, or_false] at hmem hmem'
    rcases hmem with ⟨rfl, rfl, rfl⟩ | ⟨rfl, rfl, rfl⟩ | ⟨rfl, rfl, rfl⟩ | ⟨rfl, rfl, rfl⟩ <;>
      simp_all
  · have hd : d < 5 := hlt
    obtain rfl | rfl | rfl | rfl | rfl : d = 0 ∨ d = 1 ∨ d = 2 ∨ d = 3 ∨ d = 4 := by omega
    all_goals
      cases hp
      try decide
  · refine (Set.toFinite {"tmp", "home", "b", "x"}).subset fun name hname => ?_
    obtain ⟨c, hc⟩ := Option.ne_none_iff_exists'.mp hname
    have hmem := linked_entries hc
    simp only [List.mem_cons, Prod.mk.injEq, List.not_mem_nil, or_false] at hmem
    rcases hmem with ⟨_, rfl, _⟩ | ⟨_, rfl, _⟩ | ⟨_, rfl, _⟩ | ⟨_, rfl, _⟩ <;> simp

def plainOs : Os := ⟨0, 1000, 0o022, fun _ => none, fun _ => none, fun _ => none⟩

theorem redirected : ¬ ∀ (os : Os) (fs : FileSystem) (brokerUid : ℕ) (options : Options)
    (base : Path) (lookup : String → Option Path) (paths : Paths), fs.Tree →
    (resolvePathsFrom os fs brokerUid options base lookup).1 = .ok paths →
      PathsKept brokerUid os (resolvePathsFrom os fs brokerUid options base lookup).2 paths := by
  intro h
  have hok : (resolvePathsFrom plainOs linked 1000
      ⟨some (absolute ["home", "b", "s"] []), some (absolute ["home", "b", "j"] [])⟩
      (runtimeBase 1000 (some (absolute ["tmp", "x"] [.cur]))) fun _ => none).1 =
      .ok ⟨absolute ["home", "b", "s"] [], absolute ["home", "b", "j"] [],
        absolute ["tmp", "x"] [.cur, .normal "fpsmaxxing", .normal "broker.lock"]⟩ := by
    decide +kernel
  obtain ⟨-, -, hall⟩ := h _ _ _ _ _ _ _ linked_tree hok
  obtain ⟨parent, hparent, r, -, hkept⟩ := hall _ (List.mem_cons_of_mem _
    (List.mem_cons_of_mem _ List.mem_cons_self))
  have hdirectory : (absolute ["tmp", "x"] [.cur, .normal "fpsmaxxing", .normal "broker.lock"]).parent =
      some (absolute ["tmp", "x"] [.cur, .normal "fpsmaxxing"]) := by decide +kernel
  rw [hdirectory] at hparent
  cases hparent
  obtain ⟨r', hr', -, hlinks, -⟩ := hkept _ .refl
  have hr : (resolvePathsFrom plainOs linked 1000
      ⟨some (absolute ["home", "b", "s"] []), some (absolute ["home", "b", "j"] [])⟩
      (runtimeBase 1000 (some (absolute ["tmp", "x"] [.cur]))) fun _ => none).2.resolve true 0
        (absolute ["tmp", "x"] [.cur, .normal "fpsmaxxing"]) =
      .ok ⟨5, [⟨0, "tmp", 1⟩, ⟨1, "x", 4⟩, ⟨0, "home", 2⟩, ⟨2, "b", 3⟩, ⟨3, "fpsmaxxing", 5⟩], 39⟩ := by
    decide +kernel
  obtain rfl := Except.ok.inj (hr.symm.trans hr')
  have hforeign := hlinks ⟨1, "x", 4⟩ (by simp) (absolute ["home", "b"] []) rfl
  rcases hforeign with huid | huid <;> cases huid

theorem paths_kept_default : PathsKept 1000 plainOs
    (resolvePathsFrom plainOs linked 1000 ⟨none, none⟩ (absolute ["home", "b"] [])
      fun _ => none).2
    ⟨absolute ["home", "b", "fpsmaxxing", "broker.sock"] [],
      absolute ["home", "b", "fpsmaxxing", "journal.sqlite"] [],
      absolute ["home", "b", "fpsmaxxing", "broker.lock"] []⟩ :=
  (paths_kept linked_tree (by decide +kernel)).mpr (.inl rfl)

end

end FpsMaxxing
