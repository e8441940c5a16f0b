import Mathlib.Data.List.DropRight
import Mathlib.Tactic.Common

/-! Paths as `std::path` reads them on Unix: separators and `.` components are skipped, `..` is
kept, and nothing is looked up. -/

namespace FpsMaxxing.Files

inductive Segment
  | empty
  | cur
  | parent
  | normal (name : String)
  deriving DecidableEq

namespace Segment

def text : Segment → String
  | empty => ""
  | cur => "."
  | parent => ".."
  | normal name => name

def skipped : Segment → Bool
  | empty | cur => true
  | parent | normal _ => false

end Segment

structure Path where
  rooted : Bool
  segments : List Segment
  proper : rooted = false → segments.head? ≠ some .empty
  deriving DecidableEq

namespace Path

def empty : Path := ⟨false, [], nofun⟩

def root : Path := ⟨true, [], nofun⟩

def name (text : String) : Path := ⟨false, [.normal text], nofun⟩

def text (p : Path) : String :=
  (if p.rooted then "/" else "") ++ "/".intercalate (p.segments.map Segment.text)

def isAbsolute (p : Path) : Bool := p.rooted

def upTo (p : Path) (segments : List Segment) (h : segments <+: p.segments) : Path where
  rooted := p.rooted
  segments := segments
  proper hr hs := p.proper hr <| by
    obtain ⟨rest, hrest⟩ := h
    rw [← hrest, List.head?_append, hs]
    rfl

def lead (p : Path) : List Segment :=
  if p.rooted = false ∧ p.segments.head? = some .cur then [.cur] else []

def body (p : Path) : List Segment := p.segments.drop p.lead.length

lemma lead_body (p : Path) : p.lead ++ p.body = p.segments := by
  unfold body lead
  split
  · rename_i h
    cases hs : p.segments with
    | nil => simp [hs] at h
    | cons s rest =>
      rw [hs] at h
      have hcur : s = .cur := by simpa using h.2
      subst hcur
      rfl
  · rfl

def trim (segments : List Segment) : List Segment := segments.rdropWhile Segment.skipped

lemma trim_isPrefix (segments : List Segment) : trim segments <+: segments :=
  List.rdropWhile_prefix _ _

def trimmed (p : Path) : Path :=
  p.upTo (p.lead ++ trim p.body) (by
    rw [← p.lead_body]
    exact (List.prefix_append_right_inj _).mpr (trim_isPrefix _))

def parent (p : Path) : Option Path :=
  if trim p.body ≠ [] then
    some (p.upTo (p.lead ++ trim (trim p.body).dropLast) (by
      rw [← p.lead_body]
      refine (List.prefix_append_right_inj _).mpr ?_
      exact (trim_isPrefix _).trans ((List.dropLast_prefix _).trans (trim_isPrefix _))))
  else if p.lead ≠ [] then some .empty
  else none

def ascend : ℕ → Path → List Path
  | 0, _ => []
  | n + 1, p =>
    match p.parent with
    | some q => q :: ascend n q
    | none => []

def ancestors (p : Path) : List Path := p :: ascend p.segments.length p

def front (p : Path) : List Segment :=
  if p.segments.getLast? = some .empty then p.segments.dropLast else p.segments

lemma front_head (p : Path) (hp : p.rooted = false) : p.front.head? ≠ some .empty ∧
    (p.front = [] → p.segments = []) := by
  have hproper := p.proper hp
  unfold front
  split
  · rename_i hlast
    cases hs : p.segments with
    | nil => simp
    | cons s rest =>
      rw [hs] at hproper hlast
      cases rest with
      | nil => exact absurd hlast hproper
      | cons r rest => exact ⟨hproper, nofun⟩
  · exact ⟨hproper, id⟩

def join (p q : Path) : Path :=
  if hq : q.rooted then q
  else
    { rooted := p.rooted
      segments := p.front ++ q.segments
      proper := by
        intro hp
        obtain ⟨hne, _⟩ := p.front_head hp
        cases hf : p.front with
        | nil => exact q.proper (by simpa using hq)
        | cons s rest => rwa [hf] at hne }

variable {p q : Path}

lemma lead_rooted (hr : p.rooted = true) : p.lead = [] := by
  simp [lead, hr]

lemma body_rooted (hr : p.rooted = true) : p.body = p.segments := by
  simp [body, lead_rooted hr]

def Clean (p : Path) : Prop := trim p.segments = p.segments

lemma trimmed_segments (hr : p.rooted = true) : p.trimmed.segments = trim p.segments := by
  have hsegments : p.trimmed.segments = p.lead ++ trim p.body := rfl
  rw [hsegments, lead_rooted hr, body_rooted hr, List.nil_append]

lemma trim_trim (segments : List Segment) : trim (trim segments) = trim segments :=
  List.rdropWhile_idempotent _ _

lemma trim_append {front gap : List Segment} (h : ∀ s ∈ gap, s.skipped = true) :
    trim (front ++ gap) = trim front := by
  induction gap using List.reverseRecOn with
  | nil => rw [List.append_nil]
  | append_singleton gap s ih =>
    rw [← List.append_assoc, trim, List.rdropWhile_concat_pos _ _ _ (h s (by simp))]
    exact ih fun x hx => h x (List.mem_append_left _ hx)

lemma trim_concat {front : List Segment} {s : Segment} (h : s.skipped = false) :
    trim (front ++ [s]) = front ++ [s] :=
  List.rdropWhile_concat_neg _ _ _ (by simp [h])

lemma trim_gap (segments : List Segment) : ∃ gap, segments = trim segments ++ gap ∧
    ∀ s ∈ gap, s.skipped = true :=
  ⟨segments.rtakeWhile Segment.skipped, List.rdropWhile_append_rtakeWhile.symm,
    fun _ hs => List.mem_rtakeWhile_imp hs⟩

lemma trim_last {segments : List Segment} (h : trim segments ≠ []) :
    ((trim segments).getLast h).skipped = false := by
  exact Bool.eq_false_iff.mpr (List.rdropWhile_last_not Segment.skipped segments h)

lemma parent_some (hr : p.rooted = true) (h : p.parent = some q) :
    q.rooted = true ∧ q.Clean ∧ ∃ gap s tail, p.segments = q.segments ++ gap ++ s :: tail ∧
      s.skipped = false ∧ (∀ g ∈ gap, g.skipped = true) ∧ ∀ t ∈ tail, t.skipped = true := by
  unfold parent at h
  split at h
  · rename_i hne
    cases h
    obtain ⟨tail, htail, hskip⟩ := trim_gap p.body
    obtain ⟨gap, hgap, hskip'⟩ := trim_gap (trim p.body).dropLast
    refine ⟨hr, ?_, gap, (trim p.body).getLast hne, tail, ?_, trim_last hne, hskip', hskip⟩
    · simp only [Clean, upTo, lead_rooted hr, List.nil_append, trim_trim]
    · simp only [upTo, lead_rooted hr, List.nil_append]
      rw [← hgap, ← body_rooted hr, List.append_cons, List.dropLast_concat_getLast hne]
      exact htail
  · rw [if_neg (by simp [lead_rooted hr])] at h
    cases h

lemma parent_none (hr : p.rooted = true) (h : p.parent = none) :
    ∀ s ∈ p.segments, s.skipped = true := by
  unfold parent at h
  split at h
  · cases h
  · rename_i hne
    rw [not_not, trim, List.rdropWhile_eq_nil_iff, body_rooted hr] at hne
    exact hne

lemma clean_tail {front tail : List Segment} {s : Segment} (hc : p.Clean)
    (h : p.segments = front ++ s :: tail) (hs : s.skipped = false)
    (htail : ∀ t ∈ tail, t.skipped = true) : tail = [] := by
  have hclean : trim (front ++ [s] ++ tail) = front ++ [s] ++ tail := by
    have hp := hc
    rw [Clean, h, List.append_cons] at hp
    exact hp
  rw [trim_append htail, trim_concat hs] at hclean
  exact List.self_eq_append_right.mp hclean

lemma clean_nil (hc : p.Clean) (h : ∀ s ∈ p.segments, s.skipped = true) : p.segments = [] :=
  hc.symm.trans ((List.rdropWhile_eq_nil_iff ..).mpr h)

lemma join_name_rooted (text : String) : (p.join (.name text)).rooted = p.rooted := rfl

lemma join_name_segments (text : String) :
    (p.join (.name text)).segments = p.front ++ [.normal text] := rfl

lemma parent_join {front : List Segment} {name text : String} (hr : p.rooted = true)
    (hs : p.segments = front ++ [.normal name]) : (p.join (.name text)).parent = some p := by
  have hfront : p.front = p.segments := by simp [Path.front, hs]
  have hr' : (p.join (.name text)).rooted = true := hr
  have hbody : trim (p.join (.name text)).body = p.segments ++ [.normal text] := by
    rw [body_rooted hr', join_name_segments, hfront, trim_concat rfl]
  have hclean : trim p.segments = p.segments := by rw [hs, trim_concat rfl]
  rw [parent, if_pos (by simp [hbody])]
  have hsegments : (p.join (.name text)).lead ++ trim (trim (p.join (.name text)).body).dropLast =
      p.segments := by
    rw [lead_rooted hr', hbody, List.nil_append, List.dropLast_concat, hclean]
  cases p
  simp only [upTo, Option.some.injEq, Path.mk.injEq]
  exact ⟨rfl, hsegments⟩

lemma front_cases (p : Path) : p.front = p.segments ∨ p.segments = p.front ++ [.empty] := by
  unfold front
  split
  · rename_i hlast
    right
    obtain ⟨init, hinit⟩ := List.getLast?_eq_some_iff.mp hlast
    rw [hinit, List.dropLast_concat]
  · exact .inl rfl

lemma parent_length (h : p.parent = some q) : q.segments.length < p.segments.length := by
  have hlen := congrArg List.length p.lead_body
  rw [List.length_append] at hlen
  unfold parent at h
  split at h
  · rename_i hne
    cases h
    have h₁ := (trim_isPrefix (trim p.body).dropLast).length_le
    have h₂ := (trim_isPrefix p.body).length_le
    have h₃ := List.length_pos_of_ne_nil hne
    simp only [upTo, List.length_append]
    rw [List.length_dropLast] at h₁
    omega
  · split at h
    · rename_i hlead
      cases h
      have h₁ := List.length_pos_of_ne_nil hlead
      simp only [Path.empty, List.length_nil]
      omega
    · cases h

lemma ascend_succ (n : ℕ) (h : p.segments.length ≤ n) : ascend (n + 1) p = ascend n p := by
  induction n generalizing p with
  | zero =>
    cases hp : p.parent with
    | none => simp [ascend, hp]
    | some q =>
      have hlt := parent_length hp
      omega
  | succ n ih =>
    cases hp : p.parent with
    | none => simp [ascend, hp]
    | some q =>
      have hlt := parent_length hp
      rw [ascend, ascend, hp]
      simp only
      rw [ih (by omega)]

lemma ascend_length {n : ℕ} (h : p.segments.length ≤ n) : ascend n p = ascend p.segments.length p := by
  induction n, h using Nat.le_induction with
  | base => rfl
  | succ n hn ih => rw [ascend_succ n hn, ih]

lemma ancestors_some (h : p.parent = some q) : p.ancestors = p :: q.ancestors := by
  have hlt := parent_length h
  obtain ⟨n, hn⟩ : ∃ n, p.segments.length = n + 1 := ⟨p.segments.length - 1, by omega⟩
  rw [ancestors, ancestors, hn, ascend, h]
  simp only
  rw [ascend_length (by omega)]

lemma ancestors_none (h : p.parent = none) : p.ancestors = [p] := by
  rw [ancestors]
  cases p.segments.length with
  | zero => rfl
  | succ n => rw [ascend, h]

lemma empty_ancestors (hr : p.rooted = false) : Path.empty ∈ p.ancestors := by
  induction hn : p.segments.length using Nat.strong_induction_on generalizing p with
  | _ n ih =>
    cases hp : p.parent with
    | some q =>
      have hlt := parent_length hp
      have hq : q.rooted = false := by
        unfold parent at hp
        split at hp
        · cases hp
          exact hr
        · split at hp <;> cases hp
          rfl
      rw [ancestors_some hp]
      exact List.mem_cons_of_mem _ (ih _ (hn ▸ hlt) hq rfl)
    | none =>
      have hempty : p.segments = [] := by
        unfold parent at hp
        split at hp
        · cases hp
        · rename_i hbody
          split at hp
          · cases hp
          · rename_i hlead
            have hproper := p.proper hr
            rw [not_not, trim, List.rdropWhile_eq_nil_iff] at hbody
            rw [not_not] at hlead
            have hsegments := p.lead_body
            rw [hlead, List.nil_append] at hsegments
            rw [hsegments] at hbody
            cases hs : p.segments with
            | nil => rfl
            | cons s rest =>
              have hskip := hbody s (by simp [hs])
              cases s with
              | empty => simp [hs] at hproper
              | cur => simp [lead, hr, hs] at hlead
              | parent | normal => cases hskip
      have he : p = .empty := by
        cases p
        cases hr
        cases hempty
        rfl
      rw [ancestors_none hp, he]
      exact List.mem_singleton_self _

end Path

end FpsMaxxing.Files
