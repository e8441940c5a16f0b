import FpsMaxxing.Apps.Refinement
import FpsMaxxing.Recovery.Passes

/-! A whole recovery pass over an anchored setting, and what `doctor` says of it. -/

namespace FpsMaxxing

open Effects Serde

variable {σ : Type} {P : Provider σ} {x : σ} {w : World σ}

lemma Pass.reclaimAll_restores (hP : P.Faithful) {xs : List UnclosedExperiment}
    (hr : w.db.ready = true) (hx : ∀ y ∈ xs, P.snapshot x (.ok y.snapshot)) :
    (P.watchdog.reclaimAll xs).run.Ensures ((sem P).only JournalWorks) w fun r v =>
      (w.host = x ∨ xs ≠ [] → v.host = x) ∧ ∃ restorations, r = .ok restorations ∧
        restorations.map Restoration.experimentId = xs.map UnclosedExperiment.experimentId ∧
        (P.Restores → (∀ restoration ∈ restorations, restoration.restored = true) ∧
          v.db.records = w.db.records ++ xs.flatMap P.watchdog.successRecords) := by
  induction xs generalizing w with
  | nil => exact ⟨fun h => h.resolve_right (fun hn => hn rfl), [], rfl, rfl, fun _ =>
      ⟨List.forall_mem_nil _, (List.append_nil _).symm⟩⟩
  | cons y xs ih =>
    obtain ⟨hy, hxs⟩ := List.forall_mem_cons.mp hx
    rw [Watchdog.reclaimAll, Program.ensures_run_bind]
    refine (Pass.reclaimOne_ensures hr).mono ?_
    rintro _ v ⟨hready, restoration, rfl, hid, r', hroll, hok⟩
    dsimp only
    rw [Program.ensures_run_bind]
    refine (ih hready hxs).mono ?_
    rintro _ u ⟨hhost, restorations, rfl, hids, hall⟩
    have hv : v.host = x := (hP x _ hy _ _ _ hroll).2
    refine ⟨fun _ => hhost (.inl hv), restoration :: restorations, rfl, ?_, fun hres => ?_⟩
    · rw [List.map_cons, List.map_cons, hid, hids]
    · obtain ⟨hok', hsnap⟩ := hres x _ hy _ _ _ hroll
      obtain ⟨hrestored, hrec⟩ := hok hok' hsnap
      obtain ⟨hrest, hrecs⟩ := hall hres
      refine ⟨List.forall_mem_cons.mpr ⟨hrestored, hrest⟩, ?_⟩
      rw [hrecs, hrec, List.flatMap_cons, List.append_assoc]

lemma Database.no_leaks_of_closed {db db' : Database} {xs : List UnclosedExperiment}
    (hw : db'.records = db.records ++ xs.flatMap P.watchdog.successRecords)
    (hall : ∀ e, db.Leaks P.manifest.id e → e ∈ xs.map UnclosedExperiment.experimentId) (e : ℤ) :
    ¬ db'.Leaks P.manifest.id e := by
  rintro ⟨⟨intent, hm, hs, hid, hp⟩, hopen⟩
  have hclosed : ∀ record ∈ db'.records, record.experimentId = e →
      record.stage.terminal = false := by
    intro record hmem he
    by_contra ht
    have hc : db'.closed e = true :=
      Database.closed_iff.mpr ⟨record, hmem, he, Bool.not_eq_false _ ▸ ht⟩
    simp [hopen] at hc
  rw [hw] at hm hclosed
  rcases List.mem_append.mp hm with hm | hm
  · have hl : db.Leaks P.manifest.id e := by
      refine ⟨⟨intent, hm, hs, hid, hp⟩, ?_⟩
      by_contra hc
      rw [Bool.not_eq_false, Database.closed_iff] at hc
      obtain ⟨record, hr, he, ht⟩ := hc
      simp [hclosed record (List.mem_append_left _ hr) he] at ht
    obtain ⟨y, hy, hye⟩ := List.mem_map.mp (hall e hl)
    have hrow : (⟨y.experimentId, .failed, P.watchdog.providerId, Watchdog.reclaimedPayload y⟩ :
        Record) ∈ xs.flatMap P.watchdog.successRecords :=
      List.mem_flatMap.mpr ⟨y, hy, List.mem_cons_of_mem _ (List.mem_singleton_self _)⟩
    have ht := hclosed _ (List.mem_append_right _ hrow) hye
    cases ht
  · obtain ⟨y, _, hm⟩ := List.mem_flatMap.mp hm
    rcases List.mem_pair.mp hm with rfl | rfl <;> cases hs

namespace Anchored

lemma ledger (h : Anchored P x w.bare) : ∃ s : Host σ, s.world = w ∧ Ledger s ∧ s.Rooted P x ∧
    (w.db.ready = true ∨ w.db.records = []) := by
  obtain ⟨s, hr, hw, hroot⟩ := h.rooted
  refine ⟨⟨w, s.procs⟩, rfl, hr.ledger.of_bare hw, hroot, ?_⟩
  have hready := hr.ready
  rwa [hw] at hready

lemma leaks_iff_dangling (h : Anchored P x w.bare) :
    w.db.dangling = 0 ↔ ∀ e, ¬ w.db.Leaks P.manifest.id e := by
  obtain ⟨s, rfl, hl, hroot, _⟩ := h.ledger
  rw [Database.dangling, List.length_eq_zero_iff, List.eq_nil_iff_forall_not_mem]
  refine forall_congr' fun e => not_congr (Ledger.mem_dangling.trans ⟨?_, fun h => ⟨_, h⟩⟩)
  rintro ⟨providerId, hleak⟩
  have hintent := hleak.1
  obtain ⟨intent, hm, hst, hid, hp⟩ := hintent
  obtain ⟨i, p, Q, request, ho, ht, _, hrec⟩ := hl.intent_row hm hst
  have hQ : Q = P := by
    have hprov := (hroot i p ho.1).1
    rwa [ht] at hprov
  have hname : providerId = P.manifest.id := by
    rw [← hp, hrec, hQ]
    rfl
  rwa [← hname]

/-- A whole pass over everything that is open brings the setting back to the baseline, whatever the
setting is when it begins; where snapshots read back as taken it closes everything. -/
lemma recover (hP : P.Faithful) (h : Anchored P x w.bare) :
    (P.watchdog.reclaim .allUnclosed).run.Ensures ((sem P).only JournalWorks) w fun r u =>
      u.host = x ∧ ∃ restorations, r = .ok restorations ∧
        (∀ e, e ∈ restorations.map Restoration.experimentId ↔ w.db.Leaks P.manifest.id e) ∧
        (P.Restores → (∀ restoration ∈ restorations, restoration.restored = true) ∧
          ∀ e, ¬ u.db.Leaks P.manifest.id e) := by
  have hbase : w.host = x ∨ ∃ e, w.db.Leaks P.manifest.id e := h.baseline
  obtain ⟨s, rfl, hl, hroot, hready⟩ := h.ledger
  rw [Watchdog.reclaim, Program.ensures_run_bind]
  refine (hl.scan_ensures hready P rfl).mono ?_
  rintro _ _ ⟨rfl, list, rfl, hx⟩
  have hf : list.filter (UnclosedExperiment.selectedBy .allUnclosed) = list :=
    List.filter_eq_self.mpr fun _ _ => rfl
  dsimp only
  rw [hf]
  cases hr : s.world.db.ready with
  | false =>
    have hnone : ∀ e, ¬ s.world.db.Leaks P.manifest.id e := by
      rintro e ⟨⟨record, hm, _⟩, _⟩
      rw [hready.resolve_left (by simp [hr])] at hm
      cases hm
    have hnil : list = [] := by
      rw [← List.map_eq_nil_iff (f := UnclosedExperiment.experimentId),
        List.eq_nil_iff_forall_not_mem]
      exact fun e he => hnone e ((hx.complete e).mp he)
    rw [hnil]
    refine ⟨hbase.resolve_right (not_exists.mpr hnone), [], rfl, fun e => ?_, fun _ => ?_⟩
    · exact iff_of_false (List.not_mem_nil) (hnone e)
    · exact ⟨List.forall_mem_nil _, hnone⟩
  | true =>
    refine (Pass.reclaimAll_restores hP hr fun y hy => hroot.snapshot (hx.faithful y hy)).mono ?_
    rintro _ u ⟨hhost, restorations, rfl, hids, hall⟩
    have hids' : ∀ e, e ∈ restorations.map Restoration.experimentId ↔
        s.world.db.Leaks P.manifest.id e := by
      intro e
      rw [hids]
      exact hx.complete e
    refine ⟨hhost (hbase.imp_right ?_), restorations, rfl, hids', fun hres => ?_⟩
    · rintro ⟨e, he⟩ rfl
      exact absurd ((hx.complete e).mpr he) List.not_mem_nil
    · obtain ⟨hrestored, hrec⟩ := hall hres
      exact ⟨hrestored, Database.no_leaks_of_closed hrec fun e he => (hx.complete e).mpr he⟩

end Anchored

end FpsMaxxing
