import FpsMaxxing.Files.Walk

/-! What other users can do to a file system through directories they have open, and which lookups
they cannot disturb by it. -/

namespace FpsMaxxing.Files

structure User where
  uid : ℕ
  groups : ℕ → Bool

inductive Access
  | read
  | write
  | search
  deriving DecidableEq

def Access.bit : Access → ℕ
  | read => 4
  | write => 2
  | search => 1

lemma and_eq_zero {mode mask bits : ℕ} (h : mode &&& mask = 0) (hb : mask &&& bits = bits) :
    mode &&& bits = 0 := by
  rw [← hb, ← Nat.and_assoc, h, Nat.zero_and]

namespace Node

def Grants (node : Node) (shift : ℕ) (access : Access) : Prop :=
  node.mode &&& access.bit * shift ≠ 0

def Permits (node : Node) (u : User) (access : Access) : Prop :=
  node.Grants (if u.uid = node.uid then 64 else if u.groups node.gid then 8 else 1) access

def Writable (node : Node) (u : User) : Prop := node.Permits u .write ∧ node.Permits u .search

def Sticky (node : Node) : Prop := node.mode &&& 0o1000 ≠ 0

def Open (node : Node) : Prop :=
  (node.Grants 8 .write ∧ node.Grants 8 .search) ∨ (node.Grants 1 .write ∧ node.Grants 1 .search)

lemma Writable.open {node : Node} {u : User} (hu : u.uid ≠ node.uid) (h : node.Writable u) :
    node.Open := by
  obtain ⟨hw, hs⟩ := h
  rw [Permits, if_neg hu] at hw hs
  split at hw
  · rename_i hg
    rw [if_pos hg] at hs
    exact .inl ⟨hw, hs⟩
  · rename_i hg
    rw [if_neg hg] at hs
    exact .inr ⟨hw, hs⟩

lemma Open.writable {node : Node} {uid : ℕ} (h : node.Open) (hne : uid ≠ node.uid) :
    ∃ groups, node.Writable ⟨uid, groups⟩ := by
  rcases h with h | h
  · refine ⟨fun _ => true, ?_⟩
    rwa [Writable, Permits, Permits, if_neg hne, if_pos rfl]
  · refine ⟨fun _ => false, ?_⟩
    rwa [Writable, Permits, Permits, if_neg hne, if_neg Bool.false_ne_true]

lemma not_open_of_mask {node : Node} (h : node.mode &&& 0o022 = 0) : ¬ node.Open := by
  rintro (⟨hw, _⟩ | ⟨hw, _⟩)
  · exact hw (and_eq_zero h rfl)
  · exact hw (and_eq_zero h rfl)

end Node

namespace FileSystem

def Holds (fs : FileSystem) (d : ℕ) : Prop := d < fs.next ∧ (fs.nodes d).isDir = true

def MayTake (fs : FileSystem) (u : User) (d c : ℕ) : Prop :=
  (fs.nodes d).Writable u ∧
    ((fs.nodes d).Sticky → u.uid = (fs.nodes c).uid ∨ u.uid = (fs.nodes d).uid)

variable (own : ℕ → Prop)

/-- One call of a user none of whose uids are the `own` ones. -/
inductive Step (fs : FileSystem) : FileSystem → Prop
  | create {u : User} {d name node} : ¬ own u.uid → fs.Holds d → (fs.nodes d).Writable u →
      fs.entries d name = none → node.uid = u.uid → (∀ p, node.kind = .directory p → p = d) →
      Step fs (fs.make d name node)
  | link {u : User} {d name c} : ¬ own u.uid → fs.Holds d → (fs.nodes d).Writable u →
      fs.entries d name = none → c < fs.next → c ≠ rootInode → (fs.nodes c).isDir = false →
      Step fs (fs.put d name (some c))
  | remove {u : User} {d name c} : ¬ own u.uid → fs.entries d name = some c → fs.MayTake u d c →
      (∀ inner, fs.entries c inner = none) → Step fs (fs.put d name none)
  | rename {u : User} {d name d' name' c} : ¬ own u.uid → fs.entries d name = some c →
      fs.MayTake u d c → fs.Holds d' → (fs.nodes d').Writable u →
      (∀ c', fs.entries d' name' = some c' → fs.MayTake u d' c' ∧
        (fs.nodes c').isDir = (fs.nodes c).isDir ∧ ∀ inner, fs.entries c' inner = none) →
      Step fs (((fs.put d name none).put d' name' (some c)).adopt c d')
  | chmod {u : User} {c mode} : ¬ own u.uid → c < fs.next → (fs.nodes c).uid = u.uid →
      Step fs (fs.chmod c mode)

structure Tree (fs : FileSystem) : Prop where
  root_dir : (fs.nodes rootInode).kind = .directory rootInode
  root_used : rootInode < fs.next
  used : ∀ {d name c}, fs.entries d name = some c → fs.Holds d ∧ c < fs.next ∧ c ≠ rootInode
  child : ∀ {d name c p}, fs.entries d name = some c → (fs.nodes c).kind = .directory p → p = d
  single : ∀ {d name name' c}, fs.entries d name = some c → fs.entries d name' = some c →
    (fs.nodes c).isDir = true → name' = name
  above : ∀ {d p}, d < fs.next → (fs.nodes d).kind = .directory p → p < fs.next
  finite : ∀ d, {name | fs.entries d name ≠ none}.Finite

variable {own} {fs fs' : FileSystem} {d c : ℕ} {name : String}

lemma put_nodes (entry : Option ℕ) : (fs.put d name entry).nodes = fs.nodes := rfl

lemma put_entries_self (entry : Option ℕ) : (fs.put d name entry).entries d name = entry :=
  if_pos ⟨rfl, rfl⟩

lemma put_entries_ne {d' : ℕ} {name' : String} (entry : Option ℕ) (h : ¬ (d' = d ∧ name' = name)) :
    (fs.put d name entry).entries d' name' = fs.entries d' name' := if_neg h

lemma put_entries {d' : ℕ} {name' : String} {entry : Option ℕ}
    (h : (fs.put d name entry).entries d' name' = some c) :
    (d' = d ∧ name' = name ∧ entry = some c) ∨ fs.entries d' name' = some c := by
  by_cases hn : d' = d ∧ name' = name
  · obtain ⟨rfl, rfl⟩ := hn
    rw [put_entries_self] at h
    exact .inl ⟨rfl, rfl, h⟩
  · rw [put_entries_ne _ hn] at h
    exact .inr h

lemma put_finite (h : ∀ d, {name | fs.entries d name ≠ none}.Finite) (entry : Option ℕ) (d' : ℕ) :
    {name' | (fs.put d name entry).entries d' name' ≠ none}.Finite := by
  refine ((h d').insert name).subset fun name' hname => ?_
  by_cases hn : name' = name
  · exact .inl hn
  · have hold : (fs.put d name entry).entries d' name' ≠ none := hname
    rw [put_entries_ne _ fun hd => hn hd.2] at hold
    exact .inr hold

lemma setNode_self (node : Node) : (fs.setNode c node).nodes c = node := Function.update_self ..

lemma setNode_ne {c' : ℕ} (node : Node) (h : c' ≠ c) : (fs.setNode c node).nodes c' = fs.nodes c' :=
  Function.update_of_ne h _ _

lemma adopted (c d x : ℕ) (hx : x ≠ c ∨ (fs.nodes c).isDir = false) :
    (fs.adopt c d).nodes x = fs.nodes x := by
  unfold adopt
  split
  · rename_i hdir
    rcases hx with hx | hx
    · exact setNode_ne _ hx
    · rw [hx] at hdir
      cases hdir
  · rfl

lemma adopt_self (hdir : (fs.nodes c).isDir = true) (d : ℕ) :
    ((fs.adopt c d).nodes c).kind = .directory d := by
  rw [adopt, if_pos hdir, setNode_self]

lemma adopt_isDir (c d x : ℕ) : ((fs.adopt c d).nodes x).isDir = (fs.nodes x).isDir := by
  by_cases hx : x = c ∧ (fs.nodes c).isDir = true
  · obtain ⟨rfl, hdir⟩ := hx
    rw [hdir]
    exact isDir_iff.mpr ⟨d, adopt_self hdir d⟩
  · rw [adopted c d x]
    rw [not_and_or, Bool.not_eq_true] at hx
    exact hx

lemma adopt_entries (c d : ℕ) : (fs.adopt c d).entries = fs.entries := by
  unfold adopt
  split <;> rfl

lemma adopt_next (c d : ℕ) : (fs.adopt c d).next = fs.next := by
  unfold adopt
  split <;> rfl

namespace Tree

lemma make {node : Node} (h : fs.Tree) (hd : fs.Holds d) (hk : ∀ p, node.kind = .directory p → p = d) :
    (fs.make d name node).Tree := by
  have hold : ∀ {c}, c < fs.next → (fs.make d name node).nodes c = fs.nodes c :=
    fun hc => setNode_ne _ hc.ne
  have hentries : ∀ {d' name' c}, (fs.make d name node).entries d' name' = some c →
      (d' = d ∧ name' = name ∧ c = fs.next) ∨ fs.entries d' name' = some c := by
    intro d' name' c hc
    rcases put_entries hc with ⟨hd, hn, hc⟩ | hc
    · exact .inl ⟨hd, hn, (Option.some.inj hc).symm⟩
    · exact .inr hc
  refine ⟨?_, ?_, ?_, ?_, ?_, ?_, put_finite h.finite _⟩
  · rw [hold h.root_used]
    exact h.root_dir
  · exact Nat.lt_succ_of_lt h.root_used
  · intro d' name' c hc
    rcases hentries hc with ⟨rfl, rfl, rfl⟩ | hc
    · exact ⟨⟨Nat.lt_succ_of_lt hd.1, by rw [hold hd.1]; exact hd.2⟩, Nat.lt_succ_self _,
        h.root_used.ne'⟩
    · obtain ⟨hd', hc, hne⟩ := h.used hc
      exact ⟨⟨Nat.lt_succ_of_lt hd'.1, by rw [hold hd'.1]; exact hd'.2⟩, Nat.lt_succ_of_lt hc, hne⟩
  · intro d' name' c p hc hp
    rcases hentries hc with ⟨rfl, rfl, rfl⟩ | hc
    · exact hk p ((congrArg Node.kind (setNode_self node)).symm.trans hp)
    · rw [hold (h.used hc).2.1] at hp
      exact h.child hc hp
  · intro d' name' name'' c hc hc' hdir
    rcases hentries hc with ⟨_, hn, hx⟩ | ho <;> rcases hentries hc' with ⟨_, hn', hx'⟩ | ho'
    · exact hn'.trans hn.symm
    · exact absurd hx (h.used ho').2.1.ne
    · exact absurd hx' (h.used ho).2.1.ne
    · rw [hold (h.used ho).2.1] at hdir
      exact h.single ho ho' hdir
  · intro d' p hlt hp
    rcases Nat.lt_succ_iff_lt_or_eq.mp hlt with hlt | rfl
    · rw [hold hlt] at hp
      exact Nat.lt_succ_of_lt (h.above hlt hp)
    · obtain rfl := hk p ((congrArg Node.kind (setNode_self node)).symm.trans hp)
      exact Nat.lt_succ_of_lt hd.1

lemma link (h : fs.Tree) (hd : fs.Holds d) (hc : c < fs.next) (hne : c ≠ rootInode)
    (hdir : (fs.nodes c).isDir = false) : (fs.put d name (some c)).Tree := by
  refine ⟨h.root_dir, h.root_used, ?_, ?_, ?_, h.above, put_finite h.finite _⟩
  · intro d' name' c' hc'
    rcases put_entries hc' with ⟨rfl, rfl, hx⟩ | ho
    · cases hx
      exact ⟨hd, hc, hne⟩
    · exact h.used ho
  · intro d' name' c' p hc' hp
    rcases put_entries hc' with ⟨rfl, rfl, hx⟩ | ho
    · cases hx
      have hp' := isDir_iff.mpr ⟨p, hp⟩
      rw [put_nodes, hdir] at hp'
      cases hp'
    · exact h.child ho hp
  · intro d' name' name'' c' hc' hc'' hdir'
    have hold : ∀ {n}, (fs.put d name (some c)).entries d' n = some c' →
        fs.entries d' n = some c' := by
      intro n hn
      rcases put_entries hn with ⟨_, _, hx⟩ | ho
      · cases hx
        rw [put_nodes, hdir] at hdir'
        cases hdir'
      · exact ho
    exact h.single (hold hc') (hold hc'') hdir'

lemma remove (h : fs.Tree) : (fs.put d name none).Tree := by
  have hold : ∀ {d' n c}, (fs.put d name none).entries d' n = some c → fs.entries d' n = some c := by
    intro d' n c hn
    rcases put_entries hn with ⟨_, _, hx⟩ | ho
    · cases hx
    · exact ho
  exact ⟨h.root_dir, h.root_used, fun hc => h.used (hold hc), fun hc hp => h.child (hold hc) hp,
    fun hc hc' hdir => h.single (hold hc) (hold hc') hdir, h.above, put_finite h.finite _⟩

lemma chmod (h : fs.Tree) (mode : ℕ) : (fs.chmod c mode).Tree := by
  have hkind : ∀ x, ((fs.chmod c mode).nodes x).kind = (fs.nodes x).kind := by
    intro x
    by_cases hx : x = c
    · rw [hx, FileSystem.chmod, setNode_self]
    · rw [FileSystem.chmod, setNode_ne _ hx]
  have hdir : ∀ x, ((fs.chmod c mode).nodes x).isDir = (fs.nodes x).isDir := by
    intro x
    rw [Node.isDir, Node.isDir, hkind x]
  refine ⟨?_, h.root_used, fun hc => ?_, fun hc hp => ?_, fun hc hc' hx => ?_, fun hlt hp => ?_,
    h.finite⟩
  · rw [hkind]
    exact h.root_dir
  · obtain ⟨hd, hc, hne⟩ := h.used hc
    exact ⟨⟨hd.1, by rw [hdir]; exact hd.2⟩, hc, hne⟩
  · rw [hkind] at hp
    exact h.child hc hp
  · rw [hdir] at hx
    exact h.single hc hc' hx
  · rw [hkind] at hp
    exact h.above hlt hp

lemma renamed_entries {d' : ℕ} {name' : String} (h : fs.Tree) (hc : fs.entries d name = some c)
    {d₁ x : ℕ} {n₁ : String}
    (hx : (((fs.put d name none).put d' name' (some c)).adopt c d').entries d₁ n₁ = some x) :
    (d₁ = d' ∧ n₁ = name' ∧ x = c) ∨
      fs.entries d₁ n₁ = some x ∧ (x ≠ c ∨ (fs.nodes c).isDir = false) := by
  rw [adopt_entries] at hx
  rcases put_entries hx with ⟨rfl, rfl, hnew⟩ | hx₁
  · exact .inl ⟨rfl, rfl, (Option.some.inj hnew).symm⟩
  · rcases put_entries hx₁ with ⟨_, _, hnew⟩ | ho
    · cases hnew
    · refine .inr ⟨ho, ?_⟩
      rw [← Bool.not_eq_true, ← not_and_or]
      rintro ⟨rfl, hdir⟩
      obtain ⟨p, hp⟩ := isDir_iff.mp hdir
      obtain rfl := (h.child hc hp).symm.trans (h.child ho hp)
      obtain rfl := h.single hc ho hdir
      rw [put_entries_self] at hx₁
      cases hx₁

lemma rename {d' : ℕ} {name' : String} (h : fs.Tree) (hc : fs.entries d name = some c)
    (hd' : fs.Holds d') : (((fs.put d name none).put d' name' (some c)).adopt c d').Tree := by
  obtain ⟨-, hused, hne⟩ := h.used hc
  have hkeep : ∀ x, x ≠ c ∨ (fs.nodes c).isDir = false →
      (((fs.put d name none).put d' name' (some c)).adopt c d').nodes x = fs.nodes x :=
    fun x hx => adopted c d' x hx
  have hmoved : (fs.nodes c).isDir = true →
      ((((fs.put d name none).put d' name' (some c)).adopt c d').nodes c).kind = .directory d' :=
    fun hdir => by
      have hdir' : (((fs.put d name none).put d' name' (some c)).nodes c).isDir = true := hdir
      exact adopt_self hdir' d'
  have hisDir : ∀ x, ((((fs.put d name none).put d' name' (some c)).adopt c d').nodes x).isDir =
      (fs.nodes x).isDir := fun x => adopt_isDir c d' x
  have hfin : ∀ x, {n | ((fs.put d name none).put d' name' (some c)).entries x n ≠ none}.Finite :=
    put_finite (put_finite h.finite none) (some c)
  refine ⟨?_, ?_, ?_, ?_, ?_, ?_, by rw [adopt_entries]; exact hfin⟩
  · rw [hkeep _ (.inl hne.symm)]
    exact h.root_dir
  · rw [adopt_next]
    exact h.root_used
  · intro d₁ n₁ x hx
    rw [Holds, adopt_next, hisDir]
    rcases h.renamed_entries hc hx with ⟨rfl, rfl, rfl⟩ | ⟨ho, _⟩
    · exact ⟨hd', hused, hne⟩
    · exact h.used ho
  · intro d₁ n₁ x p hx hp
    rcases h.renamed_entries hc hx with ⟨rfl, rfl, rfl⟩ | ⟨ho, hn⟩
    · have hdir := isDir_iff.mpr ⟨p, hp⟩
      rw [hisDir] at hdir
      rw [hmoved hdir] at hp
      cases hp
      rfl
    · have hx' : x ≠ c ∨ (fs.nodes c).isDir = false := hn
      rw [hkeep _ hx'] at hp
      exact h.child ho hp
  · intro d₁ n₁ n₂ x hx hx' hdir
    rw [hisDir] at hdir
    have hother : ∀ {n}, fs.entries d₁ n = some x ∧ (x ≠ c ∨ (fs.nodes c).isDir = false) → x ≠ c := by
      rintro n ⟨_, hn | hn⟩ rfl
      · exact hn rfl
      · rw [hn] at hdir
        cases hdir
    rcases h.renamed_entries hc hx with ⟨_, hn₁, hxc⟩ | ho <;>
      rcases h.renamed_entries hc hx' with ⟨_, hn₂, hxc'⟩ | ho'
    · exact hn₂.trans hn₁.symm
    · exact absurd hxc (hother ho')
    · exact absurd hxc' (hother ho)
    · exact h.single ho.1 ho'.1 hdir
  · intro d₁ p hlt hp
    rw [adopt_next] at hlt ⊢
    by_cases hx : d₁ ≠ c ∨ (fs.nodes c).isDir = false
    · rw [hkeep _ hx] at hp
      exact h.above hlt hp
    · rw [not_or, not_not, Bool.not_eq_false] at hx
      obtain ⟨rfl, hdir⟩ := hx
      rw [hmoved hdir] at hp
      cases hp
      exact hd'.1

lemma step (h : fs.Tree) (hs : Step own fs fs') : fs'.Tree := by
  cases hs with
  | create _ hd _ _ _ hk => exact h.make hd hk
  | link _ hd _ _ hc hne hdir => exact h.link hd hc hne hdir
  | remove _ _ _ _ => exact h.remove
  | rename _ hc _ hd' _ _ => exact h.rename hc hd'
  | chmod _ _ _ => exact h.chmod _

end Tree

end FileSystem

end FpsMaxxing.Files
