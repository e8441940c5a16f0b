import Mathlib.Data.List.Nodup
import Mathlib.Tactic.Common

/-! Association lists, read by the first entry with a key. -/

namespace FpsMaxxing

variable {κ ν : Type} [DecidableEq κ] {l : List (κ × ν)} {k : κ} {v : ν}

lemma lookup_eq_some_of_nodup (h : (l.map Prod.fst).Nodup) : l.lookup k = some v ↔ (k, v) ∈ l := by
  induction l with
  | nil => simp
  | cons entry l ih =>
    obtain ⟨k', v'⟩ := entry
    obtain ⟨hk, hl⟩ := List.nodup_cons.mp h
    rw [List.lookup_cons]
    by_cases he : k = k'
    · subst he
      have hnot : (k, v) ∉ l := fun hm => hk (List.mem_map.mpr ⟨_, hm, rfl⟩)
      simp [hnot, eq_comm]
    · have hb : (k == k') = false := beq_eq_false_iff_ne.mpr he
      rw [hb, ih hl]
      simp [he]

lemma lookup_eq_none_iff_not_mem : l.lookup k = none ↔ k ∉ l.map Prod.fst := by
  rw [List.lookup_eq_none_iff]
  simp only [List.mem_map, not_exists, not_and, bne_iff_ne, ne_eq]
  exact ⟨fun h p hp he => h p hp he.symm, fun h p hp he => h p hp he.symm⟩

lemma lookup_filter_ne (l : List (κ × ν)) (gone k : κ) :
    (l.filter fun entry => entry.1 ≠ gone).lookup k = if k = gone then none else l.lookup k := by
  induction l with
  | nil => simp
  | cons entry l ih =>
    obtain ⟨k', v⟩ := entry
    rw [List.filter_cons]
    by_cases hg : k' = gone
    · subst hg
      by_cases hk : k = k'
      · simpa [hk] using ih
      · have hb : (k == k') = false := beq_eq_false_iff_ne.mpr hk
        simpa [hk, List.lookup_cons, hb] using ih
    · by_cases hk : k = k'
      · subst hk
        simp [hg]
      · have hb : (k == k') = false := beq_eq_false_iff_ne.mpr hk
        simpa [hg, List.lookup_cons, hb] using ih

lemma mem_keys_of_lookup (h : l.lookup k = some v) : k ∈ l.map Prod.fst := by
  by_contra hn
  rw [lookup_eq_none_iff_not_mem.mpr hn] at h
  cases h

lemma exists_lookup_of_mem_keys (h : k ∈ l.map Prod.fst) : ∃ v, l.lookup k = some v := by
  cases hl : l.lookup k with
  | some v => exact ⟨v, rfl⟩
  | none => exact absurd h (lookup_eq_none_iff_not_mem.mp hl)

lemma forall_lookup {μ : Type} {Q : μ → ν → Prop} {m : List (κ × μ)}
    (hk : m.map Prod.fst = l.map Prod.fst) (hn : (l.map Prod.fst).Nodup) :
    (∀ k v, l.lookup k = some v → ∃ u, m.lookup k = some u ∧ Q u v) ↔
      List.Forall₂ (fun entry' entry => Q entry'.2 entry.2) m l := by
  induction l generalizing m with
  | nil =>
    obtain rfl : m = [] := List.map_eq_nil_iff.mp hk
    exact iff_of_true nofun .nil
  | cons entry l ih =>
    obtain ⟨key, v⟩ := entry
    cases m with
    | nil => cases hk
    | cons entry' m =>
      obtain ⟨key', u⟩ := entry'
      obtain ⟨hhead, htail⟩ := List.cons.inj hk
      obtain rfl : key' = key := hhead
      obtain ⟨hnew, hn⟩ := List.nodup_cons.mp hn
      rw [List.forall₂_cons, ← ih htail hn]
      constructor
      · intro h
        refine ⟨?_, fun k w hl => ?_⟩
        · obtain ⟨u', hu, hq⟩ := h key' v (by simp)
          rw [List.lookup_cons, beq_self_eq_true] at hu
          cases hu
          exact hq
        · have hne : (k == key') = false :=
            beq_eq_false_iff_ne.mpr fun he => hnew (he ▸ mem_keys_of_lookup hl)
          obtain ⟨u', hu, hq⟩ := h k w (by rw [List.lookup_cons, hne]; exact hl)
          rw [List.lookup_cons, hne] at hu
          exact ⟨u', hu, hq⟩
      · rintro ⟨hq, h⟩ k w hl
        rw [List.lookup_cons] at hl ⊢
        by_cases he : k = key'
        · rw [beq_iff_eq.mpr he] at hl ⊢
          cases hl
          exact ⟨u, rfl, hq⟩
        · rw [beq_eq_false_iff_ne.mpr he] at hl ⊢
          exact h k w hl

end FpsMaxxing
