import FpsMaxxing.Files.Users

/-! Which lookups of a path keep leading where they led whatever other users do: exactly those that
find each name in a directory it is safe in. -/

namespace FpsMaxxing.Files.FileSystem

variable (own : ℕ → Prop)

/-- No other user can take the name, and if it is a link no other user has made it. -/
structure Guarded (fs : FileSystem) (l : Lookup) : Prop where
  owned : own (fs.nodes l.dir).uid
  shut : ¬ (fs.nodes l.dir).Open ∨ (fs.nodes l.dir).Sticky ∧ own (fs.nodes l.entry).uid
  link : ∀ target, (fs.nodes l.entry).target = some target → own (fs.nodes l.entry).uid

structure Keeps (fs fs' : FileSystem) : Prop where
  next : fs.next ≤ fs'.next
  uid : ∀ c < fs.next, (fs'.nodes c).uid = (fs.nodes c).uid
  mode : ∀ c < fs.next, own (fs.nodes c).uid → (fs'.nodes c).mode = (fs.nodes c).mode
  target : ∀ c < fs.next, (fs'.nodes c).target = (fs.nodes c).target
  isDir : ∀ c < fs.next, (fs'.nodes c).isDir = (fs.nodes c).isDir
  entries : ∀ l, fs.entries l.dir l.name = some l.entry → Guarded own fs l →
    fs'.entries l.dir l.name = some l.entry

inductive Firm (fs : FileSystem) : ℕ → Prop
  | root : Firm fs rootInode
  | entry {l} : Firm fs l.dir → fs.entries l.dir l.name = some l.entry → Guarded own fs l →
      Firm fs l.entry

variable {own} {fs fs' fs'' : FileSystem} {l : Lookup} {u : User} {c d : ℕ}

lemma Guarded.untaken (hg : Guarded own fs l) (hu : ¬ own u.uid) : ¬ fs.MayTake u l.dir l.entry := by
  rintro ⟨hw, hs⟩
  have hne : u.uid ≠ (fs.nodes l.dir).uid := fun he => hu (he ▸ hg.owned)
  rcases hg.shut with hshut | ⟨hsticky, hown⟩
  · exact hshut (hw.open hne)
  · rcases hs hsticky with he | he
    · exact hu (he ▸ hown)
    · exact hne he

lemma Keeps.refl (fs : FileSystem) : Keeps own fs fs :=
  ⟨le_rfl, fun _ _ => rfl, fun _ _ _ => rfl, fun _ _ => rfl, fun _ _ => rfl, fun _ h _ => h⟩

lemma Guarded.keeps (ht : fs.Tree) (hk : Keeps own fs fs')
    (he : fs.entries l.dir l.name = some l.entry) (hg : Guarded own fs l) : Guarded own fs' l := by
  obtain ⟨⟨hd, -⟩, hc, -⟩ := ht.used he
  have hmode := hk.mode _ hd hg.owned
  refine ⟨?_, ?_, ?_⟩
  · rw [hk.uid _ hd]
    exact hg.owned
  · have hopen : (fs'.nodes l.dir).Open ↔ (fs.nodes l.dir).Open := by
      simp only [Node.Open, Node.Grants, hmode]
    rw [hopen, Node.Sticky, hmode, hk.uid _ hc]
    exact hg.shut
  · rw [hk.target _ hc, hk.uid _ hc]
    exact hg.link

lemma Keeps.trans (ht : fs.Tree) (h : Keeps own fs fs') (h' : Keeps own fs' fs'') :
    Keeps own fs fs'' where
  next := h.next.trans h'.next
  uid c hc := (h'.uid c (hc.trans_le h.next)).trans (h.uid c hc)
  mode c hc ho := by
    rw [h'.mode c (hc.trans_le h.next) (by rwa [h.uid c hc]), h.mode c hc ho]
  target c hc := (h'.target c (hc.trans_le h.next)).trans (h.target c hc)
  isDir c hc := (h'.isDir c (hc.trans_le h.next)).trans (h.isDir c hc)
  entries l he hg := h'.entries l (h.entries l he hg) (hg.keeps ht h he)

lemma Keeps.adopt (fs : FileSystem) (c d : ℕ) : Keeps own fs (fs.adopt c d) := by
  unfold FileSystem.adopt
  split
  · rename_i hdir
    obtain ⟨p, hp⟩ := isDir_iff.mp hdir
    have hother : ∀ {x}, x ≠ c →
        (fs.setNode c { fs.nodes c with kind := .directory d }).nodes x = fs.nodes x :=
      fun hx => setNode_ne _ hx
    refine ⟨le_rfl, ?_, ?_, ?_, ?_, fun _ h _ => h⟩
    all_goals
      intro x _
      by_cases hx : x = c
      · subst hx
        simp [setNode_self, Node.target, Node.isDir, hp]
      · simp [hother hx]
  · exact .refl fs

lemma Keeps.put {name : String} (entry : Option ℕ)
    (h : ∀ l, l.dir = d → l.name = name → fs.entries d name = some l.entry →
      ¬ Guarded own fs l) : Keeps own fs (fs.put d name entry) := by
  refine ⟨le_rfl, fun _ _ => rfl, fun _ _ _ => rfl, fun _ _ => rfl, fun _ _ => rfl, fun l he hg => ?_⟩
  have hne : ¬ (l.dir = d ∧ l.name = name) := by
    rintro ⟨hd, hn⟩
    exact h l hd hn (hd ▸ hn ▸ he) hg
  exact (put_entries_ne _ hne).trans he

lemma Keeps.make (fs : FileSystem) {name : String} (node : Node) (h : fs.entries d name = none) :
    Keeps own fs (fs.make d name node) := by
  have hold : ∀ {c}, c < fs.next → (fs.make d name node).nodes c = fs.nodes c :=
    fun hc => setNode_ne _ hc.ne
  refine ⟨Nat.le_succ _, fun c hc => by rw [hold hc], fun c hc _ => by rw [hold hc],
    fun c hc => by rw [hold hc], fun c hc => by rw [hold hc], fun l he _ => ?_⟩
  have hne : ¬ (l.dir = d ∧ l.name = name) := by
    rintro ⟨hd, hn⟩
    rw [hd, hn, h] at he
    cases he
  exact (put_entries_ne _ hne).trans he

lemma Keeps.chmod {mode : ℕ} (h : ¬ own (fs.nodes c).uid) : Keeps own fs (fs.chmod c mode) := by
  have hother : ∀ {x}, x ≠ c → (fs.chmod c mode).nodes x = fs.nodes x :=
    fun hx => setNode_ne _ hx
  have hself : (fs.chmod c mode).nodes c = { fs.nodes c with mode := mode } := setNode_self _
  refine ⟨le_rfl, fun x _ => ?_, fun x _ ho => ?_, fun x _ => ?_, fun x _ => ?_, fun _ he _ => he⟩
  · by_cases hx : x = c
    · rw [hx, hself]
    · rw [hother hx]
  · rw [hother]
    rintro rfl
    exact h ho
  all_goals
    by_cases hx : x = c
    · rw [hx, hself]
      rfl
    · rw [hother hx]

lemma Step.keeps (ht : fs.Tree) (hs : Step own fs fs') : Keeps own fs fs' := by
  cases hs with
  | create _ _ _ hfree _ _ => exact .make fs _ hfree
  | link _ _ _ hfree _ _ _ =>
    refine .put _ fun l _ _ he => ?_
    rw [hfree] at he
    cases he
  | remove hu hc hmay _ =>
    refine .put _ fun l hd _ he hg => ?_
    obtain rfl := Option.some.inj (he.symm.trans hc)
    exact hg.untaken hu (hd ▸ hmay)
  | @rename u d name d' name' c hu hc hmay _ _ hover =>
    have htaken : Keeps own fs (fs.put d name none) := by
      refine .put _ fun l hd _ he hg => ?_
      obtain rfl := Option.some.inj (he.symm.trans hc)
      exact hg.untaken hu (hd ▸ hmay)
    have hplaced : Keeps own (fs.put d name none) ((fs.put d name none).put d' name' (some c)) := by
      refine .put _ fun l hd _ he hg => ?_
      rcases put_entries he with ⟨_, _, he⟩ | he
      · cases he
      · have hg' : Guarded own fs l := ⟨hg.owned, hg.shut, hg.link⟩
        exact hg'.untaken hu (hd ▸ (hover _ he).1)
    exact (htaken.trans ht hplaced).trans ht (.adopt _ c d')
  | chmod hu _ hown => exact .chmod (by rwa [hown])

lemma Walks.make {last : Bool} {n d' : ℕ} {segments : List Segment} {r : Passage} {name : String}
    (ht : fs.Tree) (node : Node) (hfree : fs.entries d name = none)
    (h : Walks fs last n d' segments r) (hd' : d' < fs.next) :
    Walks (fs.make d name node) last n d' segments r := by
  have hold : ∀ {c}, c < fs.next → (fs.make d name node).nodes c = fs.nodes c :=
    fun hc => setNode_ne _ hc.ne
  refine h.carry (· < fs.next) (fun _ => True) ht.root_used (fun x p hx hp => ?_)
    (fun x name' c hx he _ => ?_) hd' fun _ _ => trivial
  · exact ⟨by rw [hold hx, hp], ht.above hx hp⟩
  · have hc := (ht.used he).2.1
    have hne : ¬ (x = d ∧ name' = name) := by
      rintro ⟨rfl, rfl⟩
      rw [hfree] at he
      cases he
    exact ⟨(put_entries_ne _ hne).trans he, by rw [hold hc], hc⟩

lemma Walks.used {last : Bool} {n d : ℕ} {segments : List Segment} {r : Passage} (ht : fs.Tree)
    (h : Walks fs last n d segments r) (hd : d < fs.next) : r.inode < fs.next := by
  induction h with
  | nil => exact hd
  | skip _ _ _ ih => exact ih hd
  | up hp _ ih => exact ih (ht.above hd hp)
  | enter _ he _ _ ih => exact ih (ht.used he).2.1
  | keep _ he _ _ => exact (ht.used he).2.1
  | follow _ _ _ _ _ ih =>
    refine ih ?_
    split
    · exact ht.root_used
    · exact hd

lemma Guarded.congr (hd : fs'.nodes l.dir = fs.nodes l.dir)
    (hc : fs'.nodes l.entry = fs.nodes l.entry) : Guarded own fs' l ↔ Guarded own fs l := by
  constructor
  · rintro ⟨ho, hs, hl⟩
    rw [hd] at ho
    rw [hd, hc] at hs
    rw [hc] at hl
    exact ⟨ho, hs, hl⟩
  · rintro ⟨ho, hs, hl⟩
    rw [← hd] at ho
    rw [← hd, ← hc] at hs
    rw [← hc] at hl
    exact ⟨ho, hs, hl⟩

lemma Tree.run (ht : fs.Tree) (hs : Relation.ReflTransGen (Step own) fs fs') :
    fs'.Tree ∧ Keeps own fs fs' := by
  induction hs with
  | refl => exact ⟨ht, .refl fs⟩
  | tail _ hs ih => exact ⟨ih.1.step hs, ih.2.trans ht (hs.keeps ih.1)⟩

lemma Firm.parent {p : ℕ} (ht : fs.Tree) (ht' : fs'.Tree) (hk : Keeps own fs fs')
    (hf : Firm own fs d) (hp : (fs.nodes d).kind = .directory p) :
    (fs'.nodes d).kind = .directory p ∧ Firm own fs p := by
  cases hf with
  | root =>
    cases ht.root_dir.symm.trans hp
    exact ⟨ht'.root_dir, .root⟩
  | @entry l hf he hg =>
    obtain rfl := ht.child he hp
    have hdir := hk.isDir _ (ht.used he).2.1
    rw [isDir_iff.mpr ⟨_, hp⟩] at hdir
    obtain ⟨p', hp'⟩ := isDir_iff.mp hdir
    rw [ht'.child (hk.entries l he hg) hp'] at hp'
    exact ⟨hp', hf⟩

theorem Walks.stays {last : Bool} {n : ℕ} {segments : List Segment} {r : Passage} (ht : fs.Tree)
    (h : Walks fs last n rootInode segments r) (hg : ∀ l ∈ r.lookups, Guarded own fs l)
    (hs : Relation.ReflTransGen (Step own) fs fs') :
    Walks fs' last n rootInode segments r ∧ ∀ l ∈ r.lookups, Guarded own fs' l := by
  obtain ⟨ht', hk⟩ := ht.run hs
  refine ⟨h.carry (Firm own fs) (Guarded own fs) .root (fun d p hf hp => hf.parent ht ht' hk hp) ?_
      .root hg,
    fun l hl => (hg l hl).keeps ht hk (h.entries l hl)⟩
  intro d name c hf he hg
  exact ⟨hk.entries _ he hg, hk.target c (ht.used he).2.1, .entry hf he hg⟩

lemma Tree.taken {name : String} (ht : fs.Tree) (hu : ¬ own u.uid)
    (hc : fs.entries d name = some c) (hmay : fs.MayTake u d c) :
    ∃ fs', Step own fs fs' ∧ fs'.entries d name = none ∧
      (∀ x, (fs'.nodes x).kind = (fs.nodes x).kind) ∧
      ∀ d' name' x x', fs.entries d' name' = some x → fs'.entries d' name' = some x' → x' = x := by
  obtain ⟨free, hfree⟩ := (ht.finite d).exists_notMem
  have hfree' : fs.entries d free = none := by
    by_contra hn
    exact hfree hn
  have hne : name ≠ free := by
    rintro rfl
    rw [hc] at hfree'
    cases hfree'
  have hstep : Step own fs (((fs.put d name none).put d free (some c)).adopt c d) :=
    .rename hu hc hmay (ht.used hc).1 hmay.1 fun c' hc' => by
      rw [hfree'] at hc'
      cases hc'
  refine ⟨_, hstep, ?_, fun x => ?_, fun d' name' x x' hx hx' => ?_⟩
  · rw [adopt_entries, put_entries_ne _ fun h => hne h.2, put_entries_self]
  · by_cases hx : x ≠ c ∨ (fs.nodes c).isDir = false
    · exact congrArg Node.kind (adopted c d x hx)
    · rw [not_or, not_not, Bool.not_eq_false] at hx
      obtain ⟨rfl, hdir⟩ := hx
      obtain ⟨p, hp⟩ := isDir_iff.mp hdir
      have hdir' : (((fs.put d name none).put d free (some x)).nodes x).isDir = true := hdir
      rw [hp, ht.child hc hp]
      exact adopt_self hdir' d
  · rw [adopt_entries] at hx'
    rcases put_entries hx' with ⟨rfl, rfl, _⟩ | hx'
    · rw [hfree'] at hx
      cases hx
    · rcases put_entries hx' with ⟨_, _, hx'⟩ | hx'
      · cases hx'
      · exact Option.some.inj (hx'.symm.trans hx)

lemma Tree.exposed (ht : fs.Tree) (hf : ∃ uid, ¬ own uid)
    (he : fs.entries l.dir l.name = some l.entry) (hg : ¬ Guarded own fs l) :
    (∃ target, (fs.nodes l.entry).target = some target ∧ ¬ own (fs.nodes l.entry).uid) ∨
      ∃ fs', Relation.ReflTransGen (Step own) fs fs' ∧ fs'.entries l.dir l.name = none ∧
        (∀ x, (fs'.nodes x).kind = (fs.nodes x).kind) ∧
        ∀ d' name' x x', fs.entries d' name' = some x → fs'.entries d' name' = some x' → x' = x := by
  by_cases hd : own (fs.nodes l.dir).uid
  · by_cases hlink : ∀ target, (fs.nodes l.entry).target = some target → own (fs.nodes l.entry).uid
    · right
      have hshut := mt (fun hs => (⟨hd, hs, hlink⟩ : Guarded own fs l)) hg
      rw [not_or, not_not, not_and] at hshut
      obtain ⟨hopen, hsticky⟩ := hshut
      obtain ⟨uid, huid, hmine⟩ : ∃ uid, ¬ own uid ∧
          ((fs.nodes l.dir).Sticky → uid = (fs.nodes l.entry).uid) := by
        by_cases hs : (fs.nodes l.dir).Sticky
        · exact ⟨_, hsticky hs, fun _ => rfl⟩
        · obtain ⟨uid, huid⟩ := hf
          exact ⟨uid, huid, fun h => absurd h hs⟩
      have hne : uid ≠ (fs.nodes l.dir).uid := fun h => huid (h ▸ hd)
      obtain ⟨groups, hw⟩ := hopen.writable hne
      obtain ⟨fs', hs, hrest⟩ := ht.taken (u := ⟨uid, groups⟩) huid he
        ⟨hw, fun h => .inl (hmine h)⟩
      exact ⟨fs', .single hs, hrest⟩
    · left
      rw [not_forall] at hlink
      obtain ⟨target, hlink⟩ := hlink
      rw [Classical.not_imp] at hlink
      exact ⟨target, hlink⟩
  · right
    have hself : (fs.chmod l.dir 0o700).nodes l.dir = { fs.nodes l.dir with mode := 0o700 } :=
      setNode_self _
    have hkind : ∀ x, ((fs.chmod l.dir 0o700).nodes x).kind = (fs.nodes x).kind := by
      intro x
      by_cases hx : x = l.dir
      · rw [hx, hself]
      · exact congrArg Node.kind (setNode_ne _ hx)
    have hchmod : Step own fs (fs.chmod l.dir 0o700) :=
      .chmod (u := ⟨(fs.nodes l.dir).uid, fun _ => false⟩) hd (ht.used he).1.1 rfl
    have hmay : (fs.chmod l.dir 0o700).MayTake ⟨(fs.nodes l.dir).uid, fun _ => false⟩ l.dir l.entry := by
      refine ⟨⟨?_, ?_⟩, fun _ => .inr ?_⟩
      · rw [hself]
        simp [Node.Permits, Node.Grants, Access.bit]
      · rw [hself]
        simp [Node.Permits, Node.Grants, Access.bit]
      · rw [hself]
    obtain ⟨fs', hs, hnone, hkinds, hagree⟩ := (ht.chmod 0o700).taken hd he hmay
    exact ⟨fs', .tail (.single hchmod) hs, hnone, fun x => (hkinds x).trans (hkind x), hagree⟩

theorem Walks.disturbed {last : Bool} {n : ℕ} {segments : List Segment} {r : Passage} (ht : fs.Tree)
    (hf : ∃ uid, ¬ own uid) (h : Walks fs last n d segments r) (hl : l ∈ r.lookups)
    (hg : ¬ Guarded own fs l) :
    (∃ target, (fs.nodes l.entry).target = some target ∧ ¬ own (fs.nodes l.entry).uid) ∨
      ∃ fs', Relation.ReflTransGen (Step own) fs fs' ∧
        ∀ r', ¬ Walks fs' last n d segments r' := by
  refine (ht.exposed hf (h.entries l hl) hg).imp id ?_
  rintro ⟨fs', hs, hnone, hkind, hagree⟩
  refine ⟨fs', hs, fun r' h' => ?_⟩
  obtain rfl := h.agree hkind hagree h'
  have hstill := h'.entries l hl
  rw [hnone] at hstill
  cases hstill

end FpsMaxxing.Files.FileSystem
