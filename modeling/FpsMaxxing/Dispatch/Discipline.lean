import FpsMaxxing.Dispatch.Log

/-! The discipline of one worker, and what follows from it whoever the clients are. -/

namespace FpsMaxxing.Dispatch

variable {ρ α : Type}

structure Notices (α : Type) where
  dropped : α
  stopped : α

def Justified (notices : Notices α) (log : List (Event ρ α)) : Event ρ α → Prop
  | .sent job => ¬ Down log ∧ outstanding job.respond.client log = none ∧
      ∀ earlier ∈ sent log, earlier.respond ≠ job.respond
  | .begun job => ¬ Down log ∧ current log = none ∧ begun log ++ [job] <+: sent log
  | .answered job _ | .panicked job => current log = some job
  | .delivered slot response => ∃ job, outstanding slot.client log = some job ∧
      job.respond = slot ∧ (.answered job response ∈ log ∨
        Down log ∧ (∀ r, .answered job r ∉ log) ∧ response = notices.dropped)
  | .declined _ _ response => Down log ∧ response = notices.stopped

inductive Valid (notices : Notices α) : List (Event ρ α) → Prop
  | nil : Valid notices []
  | snoc {log e} : Valid notices log → Justified notices log e → Valid notices (log ++ [e])

variable {notices : Notices α} {log pre mid post : List (Event ρ α)} {e : Event ρ α}

lemma Valid.of_snoc (h : Valid notices (log ++ [e])) :
    Valid notices log ∧ Justified notices log e := by
  generalize hl : log ++ [e] = full at h
  cases h with
  | nil => simp at hl
  | snoc h hj =>
    obtain ⟨rfl, he⟩ := List.append_inj' hl rfl
    cases he
    exact ⟨h, hj⟩

lemma Valid.justified (h : Valid notices (pre ++ e :: post)) :
    Valid notices pre ∧ Justified notices pre e := by
  induction post using List.reverseRecOn with
  | nil => exact h.of_snoc
  | append_singleton post last ih =>
    rw [← List.cons_append, ← List.append_assoc] at h
    exact ih h.of_snoc.1

lemma Valid.begun_prefix (h : Valid notices log) : begun log <+: sent log := by
  induction h with
  | nil => exact List.prefix_rfl
  | @snoc log e _ hj ih =>
    cases e with
    | begun job =>
      rw [begun_append, sent_append]
      simpa using hj.2.2
    | sent job =>
      rw [begun_append, sent_append]
      simpa using ih.trans (List.prefix_append _ [job])
    | _ => simpa using ih

lemma Valid.sent_nodup (h : Valid notices log) : ((sent log).map Job.respond).Nodup := by
  induction h with
  | nil => exact List.nodup_nil
  | @snoc log e _ hj ih =>
    cases e with
    | sent job =>
      rw [sent_append, List.map_append, sent_sent, List.map_singleton]
      refine ih.append (List.nodup_singleton _) ?_
      intro slot hs hslot
      obtain ⟨earlier, he, rfl⟩ := List.mem_map.mp hs
      exact hj.2.2 earlier he (List.mem_singleton.mp hslot)
    | _ => simpa using ih

lemma Valid.begun_nodup (h : Valid notices log) : ((begun log).map Job.respond).Nodup :=
  h.sent_nodup.sublist (h.begun_prefix.sublist.map _)

lemma Valid.current_after {job : Job ρ} (h : Valid notices (pre ++ .begun job :: mid)) :
    current (pre ++ .begun job :: mid) = some job ∨ (∃ r, .answered job r ∈ mid) ∨
      Down (pre ++ .begun job :: mid) := by
  induction mid using List.reverseRecOn with
  | nil => exact .inl (current_begun pre job)
  | append_singleton mid e ih =>
    rw [← List.cons_append, ← List.append_assoc] at h ⊢
    obtain ⟨hv, hj⟩ := h.of_snoc
    rcases ih hv with hc | ⟨r, hr⟩ | hd
    · cases e with
      | begun j =>
        rw [hj.2.1] at hc
        cases hc
      | answered j r =>
        obtain rfl : j = job := Option.some.inj (hj.symm.trans hc)
        exact .inr (.inl ⟨r, by simp⟩)
      | panicked j => exact .inr (.inr (down_snoc.mpr (.inr ⟨j, rfl⟩)))
      | sent j => exact .inl ((current_sent _ j).trans hc)
      | delivered slot r => exact .inl ((current_delivered _ slot r).trans hc)
      | declined c q r => exact .inl ((current_declined _ q r c).trans hc)
    · exact .inr (.inl ⟨r, List.mem_append_left _ hr⟩)
    · exact .inr (.inr (hd.append _))

lemma Valid.alone {job next : Job ρ}
    (h : Valid notices (pre ++ .begun job :: mid ++ .begun next :: post)) :
    ∃ r, .answered job r ∈ mid := by
  obtain ⟨hv, hd, hc, _⟩ := h.justified
  rcases hv.current_after with hcur | hr | hdown
  · rw [hc] at hcur
    cases hcur
  · exact hr
  · exact absurd hdown hd

lemma Valid.after_panic {job next : Job ρ} (h : Valid notices (pre ++ .panicked job :: post)) :
    .sent next ∉ post ∧ .begun next ∉ post := by
  have hdown : ∀ mid, Down (pre ++ .panicked job :: mid) := fun mid => ⟨job, by simp⟩
  constructor
  · intro hm
    obtain ⟨mid, rest, rfl⟩ := List.append_of_mem hm
    rw [← List.cons_append, ← List.append_assoc] at h
    exact h.justified.2.1 (hdown mid)
  · intro hm
    obtain ⟨mid, rest, rfl⟩ := List.append_of_mem hm
    rw [← List.cons_append, ← List.append_assoc] at h
    exact h.justified.2.1 (hdown mid)

end FpsMaxxing.Dispatch
