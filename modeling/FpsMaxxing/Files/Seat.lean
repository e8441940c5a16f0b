import FpsMaxxing.Files.Guarded
import FpsMaxxing.Files.Volume

/-! A directory that other users can neither write nor lead a path away from: what its entries are
is up to its owner alone. -/

namespace FpsMaxxing.Files

namespace Node

lemma kind_file_iff {node : Node} :
    node.kind = .file ↔ node.isDir = false ∧ node.target = none := by
  cases hk : node.kind <;> simp [isDir, target, hk]

lemma open_congr {node node' : Node} (h : node'.mode = node.mode) : node'.Open ↔ node.Open := by
  simp only [Open, Grants, h]

end Node

namespace FileSystem

variable {own : ℕ → Prop} {fs fs' : FileSystem} {last : Bool} {n d c cwd : ℕ} {name : String}
  {segments gap tail : List Segment} {s : Segment} {r r' : Passage} {p : Path}

lemma Walks.start_dir (h : Walks fs last n d segments r) (hr : (fs.nodes r.inode).isDir = true) :
    (fs.nodes d).isDir = true := by
  cases h with
  | nil => exact hr
  | skip hd => exact hd
  | up hp => exact isDir_iff.mpr ⟨_, hp⟩
  | enter hd | keep hd | follow hd => exact hd

lemma Walks.passed (h : Walks fs last n d segments r) (hr : (fs.nodes r.inode).isDir = true) :
    ∀ l ∈ r.lookups, (fs.nodes l.entry).kind ≠ .file := by
  induction h with
  | nil => exact List.forall_mem_nil _
  | skip _ _ _ ih | up _ _ ih => exact ih hr
  | enter _ _ _ h ih =>
    refine List.forall_mem_cons.mpr ⟨fun hk => ?_, ih hr⟩
    have hdir := h.start_dir hr
    rw [(Node.kind_file_iff.mp hk).1] at hdir
    cases hdir
  | keep _ _ ht _ =>
    refine List.forall_mem_singleton.mpr fun hk => ?_
    rw [(Node.kind_file_iff.mp hk).2] at ht
    cases ht
  | follow _ _ ht _ _ ih =>
    refine List.forall_mem_cons.mpr ⟨fun hk => ?_, ih hr⟩
    rw [(Node.kind_file_iff.mp hk).2] at ht
    cases ht

lemma Walks.firm (ht : fs.Tree) (h : Walks fs last n d segments r) (hd : Firm own fs d)
    (hg : ∀ l ∈ r.lookups, Guarded own fs l) (ho : (fs.nodes r.inode).target = none) :
    Firm own fs r.inode := by
  induction h with
  | nil => exact hd
  | skip _ _ _ ih => exact ih hd hg ho
  | up hp _ ih => exact ih (hd.parent ht ht (.refl fs) hp).2 hg ho
  | enter _ he _ _ ih =>
    obtain ⟨hl, hrest⟩ := List.forall_mem_cons.mp hg
    exact ih (.entry hd he hl) hrest ho
  | keep _ _ hl _ => cases ho.symm.trans hl
  | @follow _ _ _ _ target _ _ _ _ _ _ _ ih =>
    obtain ⟨_, hrest⟩ := List.forall_mem_cons.mp hg
    refine ih ?_ hrest ho
    split
    · exact .root
    · exact hd

lemma Firm.parent_dir (ht : fs.Tree) (h : Firm own fs d) {parent : ℕ}
    (hp : (fs.nodes d).kind = .directory parent) : (fs.nodes parent).isDir = true := by
  cases h with
  | root =>
    cases ht.root_dir.symm.trans hp
    exact isDir_iff.mpr ⟨_, ht.root_dir⟩
  | entry _ he _ =>
    obtain rfl := ht.child he hp
    exact (ht.used he).1.2

lemma Step.entries_shut (hs : Step own fs fs') (ho : own (fs.nodes d).uid)
    (hc : ¬ (fs.nodes d).Open) (name : String) : fs'.entries d name = fs.entries d name := by
  have hne : ∀ {u : User} {d'}, ¬ own u.uid → (fs.nodes d').Writable u → d ≠ d' := by
    rintro u d' hu hw rfl
    refine hc (hw.open ?_)
    intro he
    rw [he] at hu
    exact hu ho
  have hput : ∀ {d' name'} (entry : Option ℕ), d ≠ d' →
      (fs.put d' name' entry).entries d name = fs.entries d name :=
    fun entry hd => put_entries_ne entry fun h => hd h.1
  cases hs with
  | create hu _ hw => exact hput _ (hne hu hw)
  | link hu _ hw => exact hput _ (hne hu hw)
  | remove hu _ hmay => exact hput _ (hne hu hmay.1)
  | rename hu _ hmay _ hw =>
    rw [adopt_entries, put_entries_ne _ fun h => hne hu hw h.1]
    exact hput _ (hne hu hmay.1)
  | chmod => rfl

variable (own fs segments r) in
/-- A directory of the own users that nobody else can write, reached by names nobody else can
take. -/
structure Seat : Prop where
  tree : fs.Tree
  walks : Walks fs true maxLinks rootInode segments r
  isDir : (fs.nodes r.inode).isDir = true
  owned : own (fs.nodes r.inode).uid
  shut : ¬ (fs.nodes r.inode).Open
  guarded : ∀ l ∈ r.lookups, Guarded own fs l

namespace Seat

lemma used (h : Seat own fs segments r) : r.inode < fs.next := h.walks.used h.tree h.tree.root_used

lemma holds (h : Seat own fs segments r) : fs.Holds r.inode := ⟨h.used, h.isDir⟩

lemma step (h : Seat own fs segments r) (hs : Step own fs fs') :
    Seat own fs' segments r ∧ ∀ name, fs'.entries r.inode name = fs.entries r.inode name := by
  obtain ⟨hw, hg⟩ := h.walks.stays h.tree h.guarded (.single hs)
  have hk := hs.keeps h.tree
  refine ⟨⟨h.tree.step hs, hw, ?_, ?_, ?_, hg⟩, hs.entries_shut h.owned h.shut⟩
  · rw [hk.isDir _ h.used]
    exact h.isDir
  · rw [hk.uid _ h.used]
    exact h.owned
  · rw [Node.open_congr (hk.mode _ h.used h.owned)]
    exact h.shut

lemma put (h : Seat own fs segments r) (he : fs.entries d name = some c)
    (hc : (fs.nodes c).kind = .file) : Seat own (fs.put d name none) segments r := by
  refine ⟨h.tree.remove, ?_, h.isDir, h.owned, h.shut, fun l hl => ?_⟩
  · refine @Walks.carry fs (fs.put d name none) true _ _ _ _ (fun _ => True)
      (fun l => (fs.nodes l.entry).kind ≠ .file) trivial (fun _ _ _ hp => ⟨hp, trivial⟩)
      (fun d' name' c' _ he' hne => ?_) h.walks trivial (h.walks.passed h.isDir)
    refine ⟨(put_entries_ne _ ?_).trans he', rfl, trivial⟩
    rintro ⟨rfl, rfl⟩
    obtain rfl := Option.some.inj (he.symm.trans he')
    exact hne hc
  · have hnodes : ∀ x, (fs.put d name none).nodes x = fs.nodes x := fun _ => rfl
    exact (Guarded.congr (hnodes _) (hnodes _)).mpr (h.guarded l hl)

lemma make (h : Seat own fs segments r) (hd : fs.Holds d) (hfree : fs.entries d name = none)
    {node : Node} (hn : node.kind = .file) : Seat own (fs.make d name node) segments r := by
  have hold : ∀ {c}, c < fs.next → (fs.make d name node).nodes c = fs.nodes c :=
    fun hc => setNode_ne _ hc.ne
  have hr := hold h.used
  refine ⟨h.tree.make hd fun p hp => ?_, h.walks.make h.tree node hfree h.tree.root_used, ?_, ?_,
    ?_, fun l hl => ?_⟩
  · cases hn.symm.trans hp
  · rw [hr]
    exact h.isDir
  · rw [hr]
    exact h.owned
  · rw [hr]
    exact h.shut
  · obtain ⟨hdir, hentry, _⟩ := h.tree.used (h.walks.entries l hl)
    exact (Guarded.congr (hold hdir.1) (hold hentry)).mpr (h.guarded l hl)

lemma chmod (h : Seat own fs segments r) {mode : ℕ} (hm : mode &&& 0o022 = 0) (c : ℕ) :
    Seat own (fs.chmod c mode) segments r := by
  have huid : ∀ x, ((fs.chmod c mode).nodes x).uid = (fs.nodes x).uid := by
    intro x
    by_cases hx : x = c
    · rw [hx, FileSystem.chmod, setNode_self]
    · rw [FileSystem.chmod, setNode_ne _ hx]
  have hkind : ∀ x, ((fs.chmod c mode).nodes x).kind = (fs.nodes x).kind := by
    intro x
    by_cases hx : x = c
    · rw [hx, FileSystem.chmod, setNode_self]
    · rw [FileSystem.chmod, setNode_ne _ hx]
  have htarget : ∀ x, ((fs.chmod c mode).nodes x).target = (fs.nodes x).target := by
    intro x
    rw [Node.target, Node.target, hkind]
  -- the directory that gets the mode is shut, the others are what they were
  have hopen : ∀ x, ¬ ((fs.chmod c mode).nodes x).Open ∨
      (fs.chmod c mode).nodes x = fs.nodes x := by
    intro x
    by_cases hx : x = c
    · left
      rw [hx, FileSystem.chmod, setNode_self]
      exact Node.not_open_of_mask hm
    · right
      rw [FileSystem.chmod, setNode_ne _ hx]
  refine ⟨h.tree.chmod mode, ?_, ?_, ?_, ?_, fun l hl => ⟨?_, ?_, fun target ht => ?_⟩⟩
  · exact h.walks.carry (fun _ => True) (fun _ => True) trivial
      (fun x p _ hp => ⟨(hkind x).trans hp, trivial⟩)
      (fun _ _ x _ he _ => ⟨he, htarget x, trivial⟩) trivial fun _ _ => trivial
  · rw [Node.isDir, hkind]
    exact h.isDir
  · rw [huid]
    exact h.owned
  · rcases hopen r.inode with ho | ho
    · exact ho
    · rw [ho]
      exact h.shut
  · rw [huid]
    exact (h.guarded l hl).owned
  · rcases hopen l.dir with ho | ho
    · exact .inl ho
    · rw [ho, huid]
      exact (h.guarded l hl).shut
  · rw [huid]
    rw [htarget] at ht
    exact (h.guarded l hl).link target ht

end Seat

structure Under (p : Path) (segments : List Segment) (name : String) : Prop where
  rooted : p.rooted = true
  segments : ∃ gap, p.segments = segments ++ gap ++ [.normal name] ∧
    ∀ g ∈ gap, Segment.skipped g = true

structure Below (p : Path) (segments : List Segment) : Prop where
  rooted : p.rooted = true
  split : ∃ gap s tail, p.segments = segments ++ gap ++ s :: tail ∧ Segment.skipped s = false ∧
    (∀ g ∈ gap, Segment.skipped g = true) ∧ ∀ t ∈ tail, Segment.skipped t = true

lemma Under.below (h : Under p segments name) : Below p segments := by
  obtain ⟨gap, hp, hgap⟩ := h.segments
  exact ⟨h.rooted, gap, .normal name, [], hp, rfl, hgap, List.forall_mem_nil _⟩

lemma Under.name_eq {name' : String} (h : Under p segments name) (h' : Under p segments name') :
    name' = name := by
  obtain ⟨gap, hs, _⟩ := h.segments
  obtain ⟨gap', hs', _⟩ := h'.segments
  have heq := (List.append_inj' (hs.symm.trans hs') rfl).2
  cases heq
  rfl

lemma Under.push (h : Under p segments name) (suffix : String) :
    Under (p.push suffix) segments (name ++ suffix) := by
  obtain ⟨gap, hp, hgap⟩ := h.segments
  refine ⟨h.rooted, gap, ?_, hgap⟩
  change p.segments.dropLast ++ [.normal ((p.segments.getLast?).elim "" Segment.text ++ suffix)] = _
  rw [hp, List.dropLast_concat, List.getLast?_concat]
  rfl

lemma Walks.skipped_dir (h : Walks fs last n d tail r) (hne : tail ≠ [])
    (ht : ∀ t ∈ tail, t.skipped = true) : (fs.nodes d).isDir = true := by
  obtain ⟨t, rest, rfl⟩ := List.exists_cons_of_ne_nil hne
  have hskip := ht t List.mem_cons_self
  cases h with
  | skip hd => exact hd
  | up | enter | keep | follow => cases hskip

namespace Seat

lemma behind (h : Seat own fs segments r) (hgap : ∀ g ∈ gap, g.skipped = true) :
    Walks fs true maxLinks rootInode (segments ++ gap) r := by
  by_cases hne : gap = []
  · rw [hne, List.append_nil]
    exact h.walks
  · have hw := h.walks.extend hne (Walks.gap h.isDir hgap : Walks fs true r.left _ _ _)
    rwa [List.append_nil] at hw

lemma placeAt (h : Seat own fs segments r) (hb : Below p segments)
    (hs : fs.placeAt maxLinks rootInode p.segments = .ok (d, name, n)) :
    d = r.inode ∧ Under p segments name := by
  obtain ⟨hr, gap, s, tail, hp, _, hgap, htail⟩ := hb
  rw [FileSystem.placeAt] at hs
  split at hs
  · rename_i above hrev
    have hall := congrArg List.reverse hrev
    rw [List.reverse_reverse, List.reverse_cons] at hall
    have htnil : tail = [] := by
      by_contra hne
      rw [hp, List.append_cons] at hall
      obtain ⟨init, t, rfl⟩ := (List.eq_nil_or_concat' tail).resolve_left hne
      have hlast := (List.append_inj' ((List.append_assoc ..).trans hall) rfl).2
      have hskip := htail t (by simp)
      cases hlast
      cases hskip
    subst htnil
    obtain ⟨habove, hlast⟩ := List.append_inj' (hp.symm.trans hall) rfl
    cases hlast
    rw [← habove, (h.behind hgap).walk] at hs
    simp only [h.isDir, if_true] at hs
    cases hs
    exact ⟨rfl, hr, gap, hp, hgap⟩
  · cases hs

lemma found (h : Seat own fs segments r) (hb : Below p segments)
    (hres : fs.resolve false cwd p = .ok r') (hk : (fs.nodes r'.inode).kind = .file) :
    ∃ name, Under p segments name ∧ fs.entries r.inode name = some r'.inode := by
  obtain ⟨hr, gap, s, tail, hp, hs, hgap, htail⟩ := hb
  obtain ⟨hdir, htarget⟩ := Node.kind_file_iff.mp hk
  have hne : p ≠ .empty := by
    rintro rfl
    cases hr
  rw [FileSystem.resolve, if_neg hne, if_pos hr, hp] at hres
  have hw := walks_of_walk hres
  obtain ⟨r₁, r₂, h₁, h₂, rfl⟩ := hw.split (List.cons_ne_nil _ _)
  obtain rfl := Except.ok.inj ((h.behind hgap).walk.symm.trans h₁.walk)
  have hnil : ∀ {n x r₂}, Walks fs false n x tail r₂ → (fs.nodes r₂.inode).isDir = false →
      tail = [] := by
    intro n x r₂ hw hf
    by_contra hne
    obtain rfl := hw.skipped htail
    have ht := hw.skipped_dir hne htail
    rw [hf] at ht
    cases ht
  generalize r.left = left at h₂
  cases h₂ with
  | skip _ hskip => cases hs.symm.trans hskip
  | up hup hrest =>
    obtain rfl := hrest.skipped htail
    have hfirm := h.walks.firm h.tree .root h.guarded (target_none h.isDir)
    have ht := hfirm.parent_dir h.tree hup
    rw [hdir] at ht
    cases ht
  | enter _ he _ hrest =>
    obtain rfl := hnil hrest hdir
    cases hrest
    exact ⟨_, ⟨hr, gap, hp, hgap⟩, he⟩
  | keep _ _ hl => cases htarget.symm.trans hl
  | follow _ _ _ hgoes hrest =>
    have hne : tail ≠ [] := fun hn => hgoes ⟨hn, rfl⟩
    obtain ⟨r₃, r₄, _, h₄, rfl⟩ := hrest.split hne
    exact absurd (hnil h₄ hdir) hne

lemma find (h : Seat own fs segments r) (hu : Under p segments name)
    (he : fs.entries r.inode name = some c) (hl : last = false ∨ (fs.nodes c).target = none) :
    ∃ r', fs.resolve last cwd p = .ok r' ∧ r'.inode = c ∧
      r'.lookups.getLast? = some ⟨r.inode, name, c⟩ := by
  obtain ⟨gap, hp, hgap⟩ := hu.segments
  have hne : p ≠ .empty := by
    rintro rfl
    cases hu.rooted
  have hw : ∃ r', Walks fs last r.left r.inode [.normal name] r' ∧ r'.inode = c ∧
      r'.lookups = [⟨r.inode, name, c⟩] := by
    cases ht : (fs.nodes c).target with
    | none => exact ⟨_, .enter h.isDir he ht .nil, rfl, rfl⟩
    | some target =>
      have hlast : last = false := hl.resolve_right fun hn => by cases ht.symm.trans hn
      exact ⟨_, .keep h.isDir he ht hlast, rfl, rfl⟩
  obtain ⟨r', hw, rfl, hlookups⟩ := hw
  have hall := (h.behind hgap).extend (List.cons_ne_nil _ _) hw
  rw [FileSystem.resolve, if_neg hne, if_pos hu.rooted, hp]
  exact ⟨_, hall.walk, rfl, by rw [hlookups, List.getLast?_concat]⟩

lemma place (h : Seat own fs segments r) (hb : Below p segments)
    (hs : fs.place cwd p = .ok (d, name)) : d = r.inode ∧ Under p segments name := by
  rw [FileSystem.place, if_pos hb.rooted] at hs
  obtain ⟨⟨d', name', n⟩, hplace, heq⟩ := map_ok hs
  cases heq
  exact h.placeAt hb hplace

lemma openAt (h : Seat own fs segments r) (hb : Below p segments) {x : (ℕ × String) ⊕ ℕ}
    (hs : fs.openAt (n + 1) maxLinks rootInode p.segments = .ok x) :
    ∃ name, Under p segments name := by
  rw [FileSystem.openAt] at hs
  split at hs
  · cases hs
  · rename_i hplace
    exact ⟨_, (h.placeAt hb hplace).2⟩

end Seat

end FileSystem

end FpsMaxxing.Files
