import FpsMaxxing.Safety.JournalRows
import FpsMaxxing.Host.Scan

/-! A lifecycle whose restore is not confirmed is reported and closed like any other failure. -/

namespace FpsMaxxing

open Effects Serde

variable {σ : Type}

def corruptProvider : Device UInt64 where
  __ := mockProvider "linux"
  rollback snapshot current :=
    match (mockProvider "linux").rollback snapshot current with
    | (.ok (), value) => (.ok (), value + 1)
    | answer => answer

structure Unrestored (s : Host σ) (i : ℕ) (p : Proc σ) (P : Provider σ) (request : ChangeRequest)
    (error : ControlPlaneError) : Prop where
  proc : s.procs i = some p
  task : p.task = .lifecycle P request
  returned : p.residual = .done (.lifecycle (.error error))
  undisturbed : p.Undisturbed
  applied : p.progress.applied = true
  unconfirmed : p.progress.confirmed = false

structure ClosedAsFailed (s : Host σ) (p : Proc σ) (P : Provider σ) (error : ControlPlaneError)
    (e : ℤ) : Prop where
  began : p.progress.experiment = some e
  record : ∃ failure, failure.error = error ∧
    (failure.stage = .rollback ∨ failure.stage = .rollbackVerify) ∧
    p.progress.written.getLast? =
      some (Lifecycle.entry P e .failed (ControlPlane.failedPayload failure))
  once : (p.progress.stages.filter Stage.terminal).length = 1
  inJournal : s.world.db.written e = p.progress.written
  closed : s.world.db.closed e = true
  unlisted : ∀ Q : Provider σ,
    Q.watchdog.scan.run.Ensures ((sem Q).only JournalWorks) s.world fun r _ =>
      ∃ list, r = .ok list ∧ e ∉ list.map UnclosedExperiment.experimentId

lemma Ledger.closed_of_written {s : Host σ} (h : Ledger s) {i : ℕ} {p : Proc σ} {e : ℤ}
    (ho : s.Owns i p e) {record : Record} (hm : record ∈ p.progress.written)
    (ht : record.stage.terminal = true) : s.world.db.closed e = true := by
  obtain ⟨hr, he⟩ := h.written_in_journal ho hm
  obtain ⟨row, hrow, rfl⟩ := List.mem_map.mp hr
  rw [Database.closed, List.any_eq_true]
  exact ⟨row, hrow, by simp [he, ht]⟩

theorem unrestored_closed {s : Host σ} (h : Reachable s) {i : ℕ} {p : Proc σ} {P : Provider σ}
    {request : ChangeRequest} {error : ControlPlaneError}
    (hu : Unrestored s i p P request error) : ∃ e, ClosedAsFailed s p P error e := by
  have hl := h.ledger
  have hwf := lifecycle_wellFormed h hu.proc hu.task
  obtain ⟨e, snapshot, hc⟩ | ⟨_, _, hn, _⟩ := Ledger.finished h.honest hu.proc hu.task hu.returned
  · obtain ⟨failure, body, hf, hst, hw⟩ := (hc.failed error rfl).2 hu.undisturbed.lost
    have ho : s.Owns i p e := ⟨hu.proc, hc.began⟩
    have hclosed : s.world.db.closed e = true :=
      hl.closed_of_written ho (hw ▸ List.mem_append_right _ (List.mem_singleton_self _)) rfl
    refine ⟨e, hc.began, ⟨failure, hf, hst hu.applied hu.unconfirmed, by rw [hw]; simp⟩,
      hwf.terminal _ e hu.returned hc.began hu.undisturbed, hl.recorded e i p ho, hclosed,
      fun Q => ?_⟩
    refine (hl.scan_ensures h.ready Q rfl).mono ?_
    rintro r w ⟨_, list, hr, hx⟩
    refine ⟨list, hr, fun hm => ?_⟩
    have hleak := ((hx.complete e).mp hm).2
    simp [hclosed] at hleak
  · exact absurd (hn.symm.trans hu.applied) (by simp)

def corrupted : Host UInt64 :=
  corruptProvider.play (Pool.init (World.initial 7))
    (corruptProvider.opened ++
      [.spawn 1 (.lifecycle corruptProvider.provider (mockRequest 42)), .go 1 20])

lemma corrupted_reachable : Reachable corrupted :=
  Device.play_reachable 7 (by simp [Device.opened, Device.Plays, Task.provider])

lemma corrupted_unrestored : ∃ p, p.progress.experiment = some 1 ∧
    Unrestored corrupted 1 p corruptProvider.provider (mockRequest 42)
      .rollbackVerificationFailed :=
  ⟨_, rfl, rfl, rfl, rfl, by decide, rfl, rfl⟩

theorem corrupted_closed : ∃ p e,
    Unrestored corrupted 1 p corruptProvider.provider (mockRequest 42)
      .rollbackVerificationFailed ∧
    ClosedAsFailed corrupted p corruptProvider.provider .rollbackVerificationFailed e := by
  obtain ⟨p, _, hu⟩ := corrupted_unrestored
  obtain ⟨e, he⟩ := unrestored_closed corrupted_reachable hu
  exact ⟨p, e, hu, he⟩

theorem unrestored_not_unclosed : ¬ ∀ (s : Host UInt64) (i : ℕ) (p : Proc UInt64)
    (P : Provider UInt64) (request : ChangeRequest) (error : ControlPlaneError) (e : ℤ),
    Reachable s → Unrestored s i p P request error → p.progress.experiment = some e →
      s.world.db.closed e = false := by
  intro h
  obtain ⟨p, he, hu⟩ := corrupted_unrestored
  have hc := h _ _ _ _ _ _ _ corrupted_reachable hu he
  exact absurd hc (by decide)

end FpsMaxxing
