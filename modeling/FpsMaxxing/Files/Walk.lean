import FpsMaxxing.Files.Tree

/-! What a successful lookup passes, as a relation: what another file system has to agree on for the
lookup to come out the same, and how a lookup goes on behind a part of its path. -/

namespace FpsMaxxing.Files

namespace FileSystem

inductive Walks (fs : FileSystem) (last : Bool) : ℕ → ℕ → List Segment → Passage → Prop
  | nil {n d} : Walks fs last n d [] ⟨d, [], n⟩
  | skip {n d s rest r} : (fs.nodes d).isDir = true → s.skipped = true →
      Walks fs last n d rest r → Walks fs last n d (s :: rest) r
  | up {n d p rest r} : (fs.nodes d).kind = .directory p →
      Walks fs last n p rest r → Walks fs last n d (.parent :: rest) r
  | enter {n d name c rest r} : (fs.nodes d).isDir = true → fs.entries d name = some c →
      (fs.nodes c).target = none → Walks fs last n c rest r →
      Walks fs last n d (.normal name :: rest) (r.after ⟨d, name, c⟩)
  | keep {n d name c target} : (fs.nodes d).isDir = true → fs.entries d name = some c →
      (fs.nodes c).target = some target → last = false →
      Walks fs last n d [.normal name] ⟨c, [⟨d, name, c⟩], n⟩
  | follow {n d name c target rest r} : (fs.nodes d).isDir = true →
      fs.entries d name = some c → (fs.nodes c).target = some target →
      ¬ (rest = [] ∧ last = false) →
      Walks fs last n (if target.rooted then rootInode else d) (target.segments ++ rest) r →
      Walks fs last (n + 1) d (.normal name :: rest) (r.after ⟨d, name, c⟩)

variable {fs fs' : FileSystem} {last : Bool} {n d : ℕ} {segments : List Segment} {r : Passage}

lemma map_ok {ε α β : Type} {f : α → β} {x : Except ε α} {b : β} (h : x.map f = .ok b) :
    ∃ a, x = .ok a ∧ f a = b := by
  cases x with
  | error e => cases h
  | ok a => exact ⟨a, rfl, Except.ok.inj h⟩

lemma isDir_iff {node : Node} : node.isDir = true ↔ ∃ p, node.kind = .directory p := by
  cases hk : node.kind <;> simp [Node.isDir, hk]

lemma walkWith_walks {left : ℕ} {follow : ℕ → List Segment → Except Error Passage}
    (hf : ∀ {d segments r}, follow d segments = .ok r →
      ∃ n, left = n + 1 ∧ Walks fs last n d segments r)
    (h : fs.walkWith last left follow d segments = .ok r) : Walks fs last left d segments r := by
  induction segments generalizing d r with
  | nil =>
    cases h
    exact .nil
  | cons s rest ih =>
    cases hk : (fs.nodes d).kind with
    | symlink | file => simp [walkWith, hk] at h
    | directory p =>
      have hd : (fs.nodes d).isDir = true := isDir_iff.mpr ⟨p, hk⟩
      cases s with
      | empty | cur => exact .skip hd rfl (ih (by simpa [walkWith, hk] using h))
      | parent => exact .up hk (ih (by simpa [walkWith, hk] using h))
      | normal name =>
        cases he : fs.entries d name with
        | none => simp [walkWith, hk, he] at h
        | some c =>
          cases ht : (fs.nodes c).target with
          | none =>
            simp only [walkWith, hk, he, ht] at h
            obtain ⟨r', hr', rfl⟩ := map_ok h
            exact .enter hd he ht (ih hr')
          | some target =>
            simp only [walkWith, hk, he, ht] at h
            split at h
            · rename_i hend
              obtain ⟨rfl, rfl⟩ := hend
              cases h
              exact .keep hd he ht rfl
            · rename_i hgoes
              obtain ⟨r', hr', rfl⟩ := map_ok h
              obtain ⟨n, rfl, hn⟩ := hf hr'
              exact .follow hd he ht hgoes hn

lemma walks_of_walk (h : fs.walk last n d segments = .ok r) : Walks fs last n d segments r := by
  induction n generalizing d segments r with
  | zero => exact walkWith_walks (fun hr => by cases hr) h
  | succ n ih => exact walkWith_walks (fun hr => ⟨n, rfl, ih hr⟩) h

lemma Walks.walk (h : Walks fs last n d segments r) : fs.walk last n d segments = .ok r := by
  induction h with
  | @nil n d => cases n <;> rfl
  | @skip n d s rest r hd hs _ ih =>
    obtain ⟨p, hp⟩ := isDir_iff.mp hd
    cases s with
    | empty | cur => cases n <;> simpa [FileSystem.walk, walkWith, hp] using ih
    | parent | normal => cases hs
  | @up n d p rest r hp _ ih => cases n <;> simpa [FileSystem.walk, walkWith, hp] using ih
  | @enter n d name c rest r hd he ht _ ih =>
    obtain ⟨p, hp⟩ := isDir_iff.mp hd
    have hw : fs.walk last n d (.normal name :: rest) =
        (fs.walk last n c rest).map (Passage.after · ⟨d, name, c⟩) := by
      cases n <;> simp [FileSystem.walk, walkWith, hp, he, ht]
    rw [hw, ih]
    rfl
  | @keep n d name c target hd he ht hl =>
    obtain ⟨p, hp⟩ := isDir_iff.mp hd
    cases n <;> simp [FileSystem.walk, walkWith, hp, he, ht, hl, Except.map, Passage.after]
  | @follow n d name c target rest r hd he ht hgoes _ ih =>
    obtain ⟨p, hp⟩ := isDir_iff.mp hd
    simp only [FileSystem.walk, walkWith, hp, he, ht, if_neg hgoes, ih]
    rfl

lemma walk_ok_iff : fs.walk last n d segments = .ok r ↔ Walks fs last n d segments r :=
  ⟨walks_of_walk, Walks.walk⟩

lemma Walks.entries (h : Walks fs last n d segments r) :
    ∀ l ∈ r.lookups, fs.entries l.dir l.name = some l.entry := by
  induction h with
  | nil => exact nofun
  | skip _ _ _ ih => exact ih
  | up _ _ ih => exact ih
  | enter _ he _ _ ih =>
    intro l hl
    rcases List.mem_cons.mp hl with rfl | hl
    · exact he
    · exact ih l hl
  | keep _ he _ _ =>
    intro l hl
    rw [List.mem_singleton.mp hl]
    exact he
  | follow _ he _ _ _ ih =>
    intro l hl
    rcases List.mem_cons.mp hl with rfl | hl
    · exact he
    · exact ih l hl

lemma Walks.carry (Firm : ℕ → Prop) (Guarded : Lookup → Prop) (hroot : Firm rootInode)
    (hd : ∀ d p, Firm d → (fs.nodes d).kind = .directory p →
      (fs'.nodes d).kind = .directory p ∧ Firm p)
    (he : ∀ d name c, Firm d → fs.entries d name = some c → Guarded ⟨d, name, c⟩ →
      fs'.entries d name = some c ∧ (fs'.nodes c).target = (fs.nodes c).target ∧ Firm c)
    (h : Walks fs last n d segments r) (hf : Firm d) (hg : ∀ l ∈ r.lookups, Guarded l) :
    Walks fs' last n d segments r := by
  have hdir : ∀ {d}, Firm d → (fs.nodes d).isDir = true → (fs'.nodes d).isDir = true := by
    intro d hf hk
    obtain ⟨p, hp⟩ := isDir_iff.mp hk
    exact isDir_iff.mpr ⟨p, (hd d p hf hp).1⟩
  induction h with
  | nil => exact .nil
  | skip hk hs _ ih => exact .skip (hdir hf hk) hs (ih hf hg)
  | up hp _ ih =>
    obtain ⟨hp', hf'⟩ := hd _ _ hf hp
    exact .up hp' (ih hf' hg)
  | enter hk hn ht _ ih =>
    obtain ⟨hn', ht', hf'⟩ := he _ _ _ hf hn (hg _ List.mem_cons_self)
    exact .enter (hdir hf hk) hn' (ht'.trans ht)
      (ih hf' fun l hl => hg l (List.mem_cons_of_mem _ hl))
  | keep hk hn ht hl =>
    obtain ⟨hn', ht', _⟩ := he _ _ _ hf hn (hg _ List.mem_cons_self)
    exact .keep (hdir hf hk) hn' (ht'.trans ht) hl
  | @follow n d name c target rest r hk hn ht hgoes _ ih =>
    obtain ⟨hn', ht', _⟩ := he _ _ _ hf hn (hg _ List.mem_cons_self)
    have hstart : Firm (if target.rooted then rootInode else d) := by
      split
      · exact hroot
      · exact hf
    exact .follow (hdir hf hk) hn' (ht'.trans ht) hgoes
      (ih hstart fun l hl => hg l (List.mem_cons_of_mem _ hl))

lemma Walks.agree {r' : Passage} (hk : ∀ c, (fs'.nodes c).kind = (fs.nodes c).kind)
    (he : ∀ d name c c', fs.entries d name = some c → fs'.entries d name = some c' → c' = c)
    (h : Walks fs last n d segments r) (h' : Walks fs' last n d segments r') : r' = r := by
  have ht : ∀ c, (fs'.nodes c).target = (fs.nodes c).target := by
    intro c
    rw [Node.target, Node.target, hk c]
  induction h generalizing r' with
  | nil =>
    cases h'
    rfl
  | skip _ hs _ ih =>
    cases h' with
    | skip _ _ h' => exact ih h'
    | up | enter | keep | follow => cases hs
  | up hp _ ih =>
    cases h' with
    | skip _ hs _ => cases hs
    | up hp' h' =>
      rw [hk, hp] at hp'
      cases hp'
      exact ih h'
  | enter _ hn hl _ ih =>
    cases h' with
    | skip _ hs _ => cases hs
    | enter _ hn' _ h' =>
      obtain rfl := he _ _ _ _ hn hn'
      rw [ih h']
    | keep _ hn' hl' _ | follow _ hn' hl' _ _ =>
      obtain rfl := he _ _ _ _ hn hn'
      rw [ht, hl] at hl'
      cases hl'
  | keep _ hn hl hlast =>
    cases h' with
    | skip _ hs _ => cases hs
    | enter _ hn' hl' _ =>
      obtain rfl := he _ _ _ _ hn hn'
      rw [ht, hl] at hl'
      cases hl'
    | keep _ hn' _ _ =>
      obtain rfl := he _ _ _ _ hn hn'
      rfl
    | follow _ _ _ hgoes _ => exact absurd ⟨rfl, hlast⟩ hgoes
  | follow _ hn hl hgoes _ ih =>
    cases h' with
    | skip _ hs _ => cases hs
    | enter _ hn' hl' _ =>
      obtain rfl := he _ _ _ _ hn hn'
      rw [ht, hl] at hl'
      cases hl'
    | keep _ _ _ hlast => exact absurd ⟨rfl, hlast⟩ hgoes
    | follow _ hn' hl' _ h' =>
      obtain rfl := he _ _ _ _ hn hn'
      rw [ht, hl] at hl'
      cases hl'
      rw [ih h']

lemma Walks.extend {rest : List Segment} {r' : Passage} (hne : rest ≠ [])
    (h : Walks fs true n d segments r) (h' : Walks fs last r.left r.inode rest r') :
    Walks fs last n d (segments ++ rest) { r' with lookups := r.lookups ++ r'.lookups } := by
  generalize hlast : true = follows at h
  induction h with
  | nil => exact h'
  | skip hk hs _ ih => exact .skip hk hs (ih h')
  | up hp _ ih => exact .up hp (ih h')
  | enter hk hn ht _ ih => exact .enter hk hn ht (ih h')
  | keep _ _ _ hl =>
    rw [← hlast] at hl
    cases hl
  | @follow n d name c target more r hk hn ht _ _ ih =>
    have hgoes : ¬ (more ++ rest = [] ∧ last = false) := fun hend =>
      hne (List.append_eq_nil_iff.mp hend.1).2
    have hmore := ih h'
    rw [List.append_assoc] at hmore
    exact .follow hk hn ht hgoes hmore

lemma Walks.split {rest : List Segment} (hne : rest ≠ [])
    (h : Walks fs last n d (segments ++ rest) r) :
    ∃ r₁ r₂, Walks fs true n d segments r₁ ∧ Walks fs last r₁.left r₁.inode rest r₂ ∧
      r = { r₂ with lookups := r₁.lookups ++ r₂.lookups } := by
  generalize hs : segments ++ rest = all at h
  -- the part that is split off is empty, or its first segment is the one looked at
  have hnil : ∀ {n d r}, Walks fs last n d ([] ++ rest) r →
      ∃ r₁ r₂, Walks fs true n d [] r₁ ∧ Walks fs last r₁.left r₁.inode rest r₂ ∧
        r = { r₂ with lookups := r₁.lookups ++ r₂.lookups } :=
    fun h => ⟨_, _, .nil, h, rfl⟩
  induction h generalizing segments with
  | nil => exact absurd (List.append_eq_nil_iff.mp hs).2 hne
  | skip hk hsk h ih =>
    cases segments with
    | nil => exact hnil (hs ▸ .skip hk hsk h)
    | cons s more =>
      cases hs
      obtain ⟨r₁, r₂, h₁, h₂, rfl⟩ := ih rfl
      exact ⟨r₁, r₂, .skip hk hsk h₁, h₂, rfl⟩
  | up hp h ih =>
    cases segments with
    | nil => exact hnil (hs ▸ .up hp h)
    | cons s more =>
      cases hs
      obtain ⟨r₁, r₂, h₁, h₂, rfl⟩ := ih rfl
      exact ⟨r₁, r₂, .up hp h₁, h₂, rfl⟩
  | @enter n d name c after r hk hn ht h ih =>
    cases segments with
    | nil => exact hnil (hs ▸ .enter hk hn ht h)
    | cons s more =>
      cases hs
      obtain ⟨r₁, r₂, h₁, h₂, rfl⟩ := ih rfl
      exact ⟨r₁.after ⟨d, name, c⟩, r₂, .enter hk hn ht h₁, h₂, rfl⟩
  | keep hk hn ht hl =>
    cases segments with
    | nil => exact hnil (hs ▸ .keep hk hn ht hl)
    | cons s more =>
      obtain ⟨-, hmore⟩ := List.cons.inj hs
      exact absurd (List.append_eq_nil_iff.mp hmore).2 hne
  | @follow n d name c target after r hk hn ht hgoes h ih =>
    cases segments with
    | nil => exact hnil (hs ▸ .follow hk hn ht hgoes h)
    | cons s more =>
      cases hs
      obtain ⟨r₁, r₂, h₁, h₂, rfl⟩ := ih (List.append_assoc ..)
      exact ⟨r₁.after ⟨d, name, c⟩, r₂, .follow hk hn ht (fun hend => nomatch hend.2) h₁, h₂, rfl⟩

lemma Walks.followed (h : Walks fs false n d segments r)
    (ht : (fs.nodes r.inode).target = none) : Walks fs true n d segments r := by
  generalize hlast : false = follows at h
  induction h with
  | nil => exact .nil
  | skip hk hs _ ih => exact .skip hk hs (ih ht)
  | up hp _ ih => exact .up hp (ih ht)
  | enter hk hn hl _ ih => exact .enter hk hn hl (ih ht)
  | keep _ _ hl _ =>
    rw [hl] at ht
    cases ht
  | follow hk hn hl _ _ ih => exact .follow hk hn hl (fun hend => nomatch hend.2) (ih ht)

lemma Walks.skipped (hs : ∀ s ∈ segments, s.skipped = true) (h : Walks fs last n d segments r) :
    r = ⟨d, [], n⟩ := by
  induction segments generalizing r with
  | nil =>
    cases h
    rfl
  | cons s rest ih =>
    have hskip := hs s List.mem_cons_self
    cases h with
    | skip _ _ h => exact ih (fun x hx => hs x (List.mem_cons_of_mem _ hx)) h
    | up | enter | keep | follow => cases hskip

lemma Walks.gap (hd : (fs.nodes d).isDir = true) (hs : ∀ s ∈ segments, s.skipped = true) :
    Walks fs last n d segments ⟨d, [], n⟩ := by
  induction segments with
  | nil => exact .nil
  | cons s rest ih =>
    exact .skip hd (hs s List.mem_cons_self) (ih fun x hx => hs x (List.mem_cons_of_mem _ hx))

lemma target_none {node : Node} (h : node.isDir = true) : node.target = none := by
  obtain ⟨parent, hp⟩ := isDir_iff.mp h
  rw [Node.target, hp]

lemma Walks.component {n d : ℕ} {gap : List Segment} {s : Segment} {r : Passage}
    (h : Walks fs false n d (gap ++ [s]) r) (hgap : ∀ g ∈ gap, g.skipped = true)
    (hs : s.skipped = false) (ht : (fs.nodes r.inode).target = none) :
    r.lookups = [] ∨ ∃ name, r.lookups = [⟨d, name, r.inode⟩] := by
  obtain ⟨r₁, r₂, h₁, h₂, rfl⟩ := h.split (List.cons_ne_nil _ _)
  obtain rfl := h₁.skipped hgap
  cases h₂ with
  | skip _ hskip _ =>
    rw [hs] at hskip
    cases hskip
  | up _ hend =>
    cases hend
    exact .inl rfl
  | enter _ _ _ hend =>
    cases hend
    exact .inr ⟨_, rfl⟩
  | keep _ _ hl _ =>
    rw [hl] at ht
    cases ht
  | follow _ _ _ hgoes _ => exact absurd ⟨rfl, rfl⟩ hgoes

end FileSystem

end FpsMaxxing.Files
