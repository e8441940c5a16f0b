import FpsMaxxing.Host.Watchdog

/-! When the watchdog takes a lease to have run out. -/

namespace FpsMaxxing

open Effects Serde

def Watchdog.unclosedAt (db : Database) (providerId : String) (now : ℤ) :
    Except WatchdogError (List UnclosedExperiment) :=
  (db.unclosed providerId now).mapM Watchdog.decode

structure ReadFrom (db : Database) (providerId : String) (now : ℤ) (intent : Row)
    (experiment : UnclosedExperiment) : Prop where
  row : intent ∈ db.rows
  stage : intent.stage = .applyIntent
  provider : intent.providerId = providerId
  unclosed : db.closed intent.experimentId = false
  decoded : ∃ candidate ∈ db.candidatesOf now intent, Watchdog.decode candidate = .ok experiment

def RunOut (recordedAt now : ℤ) (leaseSeconds : NonZeroU64) : Prop :=
  0 ≤ now - recordedAt ∧ 1000 * (leaseSeconds.val.toNat : ℤ) ≤ now - recordedAt

def FallsShort (recordedAt now : ℤ) (leaseSeconds : NonZeroU64) : Prop :=
  Database.seconds now - Database.seconds recordedAt = leaseSeconds.val.toNat ∧
    now % 1000 < recordedAt % 1000

variable {db : Database} {providerId : String} {now : ℤ} {intent : Row}
  {experiment : UnclosedExperiment}

lemma NonZeroU64.pos (n : NonZeroU64) : 0 < n.val.toNat := by
  apply Nat.pos_of_ne_zero
  intro h
  exact n.property (UInt64.toNat_inj.mp h)

lemma leaseExpired_iff (recordedAt now : ℤ) (leaseSeconds : NonZeroU64) :
    (leaseExpired (some (Database.seconds now - Database.seconds recordedAt)) leaseSeconds = true ↔
      RunOut recordedAt now leaseSeconds) ↔ ¬ FallsShort recordedAt now leaseSeconds := by
  have hp := NonZeroU64.pos leaseSeconds
  have he : leaseExpired (some (Database.seconds now - Database.seconds recordedAt))
      leaseSeconds = true ↔ 0 ≤ Database.seconds now - Database.seconds recordedAt ∧
        (leaseSeconds.val.toNat : ℤ) ≤ Database.seconds now - Database.seconds recordedAt :=
    decide_eq_true_iff
  rw [he, RunOut, FallsShort, Database.seconds, Database.seconds]
  omega

lemma ReadFrom.leaseExpired (h : ReadFrom db providerId now intent experiment) :
    experiment.leaseExpired = leaseExpired
      (some (Database.seconds now - Database.seconds intent.recordedAt))
      experiment.request.leaseSeconds := by
  obtain ⟨candidate, hc, hd⟩ := h.decoded
  obtain ⟨snapshot, _, rfl⟩ := List.mem_map.mp hc
  rw [Watchdog.decode] at hd
  split at hd
  · cases hd
    rfl
  · cases hd

lemma ReadFrom.mem {experiments : List UnclosedExperiment}
    (h : ReadFrom db providerId now intent experiment)
    (hl : Watchdog.unclosedAt db providerId now = .ok experiments) : experiment ∈ experiments := by
  obtain ⟨candidate, hc, hd⟩ := h.decoded
  have hm : candidate ∈ db.unclosed providerId now := by
    rw [Database.unclosed, List.mem_insertionSort, List.mem_flatMap]
    refine ⟨intent, List.mem_filter.mpr ⟨h.row, ?_⟩, hc⟩
    simp [h.stage, h.provider, h.unclosed]
  exact mem_of_mem_mapM hl hm hd

lemma exists_readFrom {experiments : List UnclosedExperiment}
    (hl : Watchdog.unclosedAt db providerId now = .ok experiments) (hm : experiment ∈ experiments) :
    ∃ intent, ReadFrom db providerId now intent experiment := by
  obtain ⟨candidate, hc, hd⟩ := exists_of_mem_mapM hl hm
  simp only [Database.unclosed, List.mem_insertionSort, List.mem_flatMap, List.mem_filter,
    Bool.and_eq_true, decide_eq_true_eq, Bool.not_eq_true'] at hc
  obtain ⟨intent, ⟨hi, ⟨hs, hp⟩, ho⟩, hc⟩ := hc
  exact ⟨intent, hi, hs, hp, ho, candidate, hc, hd⟩

/-- A scan marks an experiment expired, and a pass over expired leases takes it, as soon as the
lease has run out and not before, exactly unless the lease falls short. -/
theorem lease_expiry {experiments : List UnclosedExperiment}
    (hl : Watchdog.unclosedAt db providerId now = .ok experiments) :
    (∀ experiment ∈ experiments, ∃ intent, ReadFrom db providerId now intent experiment) ∧
    ∀ intent experiment, ReadFrom db providerId now intent experiment →
      experiment ∈ experiments ∧
      (((experiment.leaseExpired = true ↔
            RunOut intent.recordedAt now experiment.request.leaseSeconds) ∧
          (experiment ∈ experiments.filter (UnclosedExperiment.selectedBy .expiredLeasesOnly) ↔
            RunOut intent.recordedAt now experiment.request.leaseSeconds)) ↔
        ¬ FallsShort intent.recordedAt now experiment.request.leaseSeconds) := by
  refine ⟨fun experiment hm => exists_readFrom hl hm, fun intent experiment hr => ?_⟩
  have hm := hr.mem hl
  have hs : experiment ∈ experiments.filter (UnclosedExperiment.selectedBy .expiredLeasesOnly) ↔
      experiment.leaseExpired = true := by
    rw [List.mem_filter]
    exact and_iff_right hm
  refine ⟨hm, ?_⟩
  rw [hs, and_self, hr.leaseExpired]
  exact leaseExpired_iff _ _ _

def leasedAt (recordedAt : ℤ) : Database where
  ready := true
  rows := [⟨⟨1, .snapshot, "mock", toValue (⟨"mock", .object []⟩ : StateSnapshot)⟩, recordedAt⟩,
    ⟨⟨1, .applyIntent, "mock", toValue (⟨"mock.value", .object [("value", toValue (42 : UInt64))],
      ⟨1, by decide⟩⟩ : ChangeRequest)⟩, recordedAt⟩]
  trials := []

def leasedExperiment (leaseExpired : Bool) : UnclosedExperiment :=
  ⟨1, "mock", ⟨"mock", .object []⟩, ⟨"mock.value", .object [("value", toValue (42 : UInt64))],
    ⟨1, by decide⟩⟩, leaseExpired⟩

lemma leasedAt_readFrom (recordedAt now : ℤ) : ReadFrom (leasedAt recordedAt) "mock" now
    ⟨⟨1, .applyIntent, "mock", toValue (leasedExperiment true).request⟩, recordedAt⟩
    (leasedExperiment (leaseExpired
      (some (Database.seconds now - Database.seconds recordedAt)) 1)) := by
  refine ⟨by simp [leasedAt, leasedExperiment], rfl, rfl, rfl, _, List.mem_singleton_self _, rfl⟩

theorem lease_expiry_second : (leasedExperiment true).leaseExpired = true ↔
    RunOut 999 1999 (leasedExperiment true).request.leaseSeconds := by
  have hl : Watchdog.unclosedAt (leasedAt 999) "mock" 1999 = .ok [leasedExperiment true] := by
    decide
  have hr := leasedAt_readFrom 999 1999
  exact (((lease_expiry hl).2 _ _ hr).2.mpr (by simp [FallsShort])).1

theorem lease_expires_early :
    Watchdog.unclosedAt (leasedAt 999) "mock" 1000 = .ok [leasedExperiment true] ∧
      (leasedExperiment true).selectedBy .expiredLeasesOnly = true ∧
      ¬ RunOut 999 1000 (leasedExperiment true).request.leaseSeconds := by
  refine ⟨by decide, rfl, ?_⟩
  simp [RunOut, leasedExperiment]

end FpsMaxxing
