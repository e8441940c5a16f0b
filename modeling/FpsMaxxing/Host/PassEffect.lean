import FpsMaxxing.Host.LifecycleEffect

/-! What a pass does to the host and to the journal while the journal works. -/

namespace FpsMaxxing

open Effects Serde

variable {σ : Type}

namespace Pass

variable {P : Provider σ} {w : World σ} {x : UnclosedExperiment}

lemma restoreState_ensures (snapshot : StateSnapshot) :
    (Watchdog.restoreState snapshot).Ensures ((sem P).only JournalWorks) w fun r v =>
      v.db = w.db ∧ ∃ r', P.rollback snapshot w.host r' v.host ∧
        (r' = .ok () → (∀ t, P.snapshot v.host t → t = .ok snapshot) → r = .ok ()) := by
  rw [Watchdog.restoreState, Program.ensures_run_bind]
  refine ensures_invoke fun r y hy => ?_
  cases r with
  | error e => exact ⟨rfl, .error e, hy, by simp⟩
  | ok u =>
    dsimp only
    rw [Program.ensures_run_bind]
    refine ensures_invoke fun t z hz => ?_
    obtain ⟨ht, rfl⟩ := hz
    cases t with
    | error e => exact ⟨rfl, .ok u, hy, fun _ h => by cases h _ ht⟩
    | ok restored =>
      dsimp only
      split_ifs with he
      · exact ⟨rfl, .ok u, hy, fun _ _ => rfl⟩
      · exact ⟨rfl, .ok u, hy, fun _ h => absurd (Except.ok.inj (h _ ht)) he⟩

lemma insert_ensures {records : List Record} (hr : w.db.ready = true)
    {post : Except SqlError Unit → World σ → Prop}
    (hp : ∀ now, post (.ok ()) ⟨w.db.insert now records, w.host⟩) :
    (execute (.insert records)).Ensures ((sem P).only JournalWorks) w post := by
  have hrun : ∀ now, Statement.run now (.insert records) w.db =
      some ((), w.db.insert now records) := by
    intro now
    simp [Statement.run, hr]
  refine ensures_execute (hrun 0) fun now b db h => ?_
  rw [hrun now] at h
  cases h
  exact hp now

lemma recordFailure_ensures (hr : w.db.ready = true) (error : String) :
    (P.watchdog.recordFailure x error).run.Ensures ((sem P).only JournalWorks) w fun r v =>
      r = .ok () ∧ v.db.ready = true ∧ v.host = w.host := by
  have hrun : ∀ now, Statement.run now (.lastRestore x.experimentId) w.db =
      some (w.db.lastRestore x.experimentId, w.db) := by
    intro now
    simp [Statement.run, hr]
  rw [Watchdog.recordFailure, Program.ensures_run_bind, Watchdog.lastFailureMatches,
    Program.ensures_run_bind, Program.ensures_mapErr]
  refine ensures_execute (hrun 0) fun now b db h => ?_
  rw [hrun now] at h
  cases h
  simp only [Except.mapError]
  have hi : (mapErr WatchdogError.journal (execute (.insert (P.watchdog.failureRecords x
      error)))).run.Ensures ((sem P).only JournalWorks) w fun r v =>
        r = .ok () ∧ v.db.ready = true ∧ v.host = w.host := by
    rw [Program.ensures_mapErr]
    exact insert_ensures hr fun now => ⟨rfl, hr, rfl⟩
  cases hl : w.db.lastRestore x.experimentId with
  | none => exact hi
  | some payload =>
    cases hf : Watchdog.failureMatches error payload with
    | true => simpa [hf] using hr
    | false => simpa [hf] using hi

lemma reclaimOne_ensures (hr : w.db.ready = true) :
    (P.watchdog.reclaimOne x).run.Ensures ((sem P).only JournalWorks) w fun r v =>
      v.db.ready = true ∧ ∃ restoration, r = .ok restoration ∧
        restoration.experimentId = x.experimentId ∧ ∃ r', P.rollback x.snapshot w.host r' v.host ∧
          (r' = .ok () → (∀ t, P.snapshot v.host t → t = .ok x.snapshot) →
            restoration.restored = true ∧
              v.db.records = w.db.records ++ P.watchdog.successRecords x) := by
  rw [Watchdog.reclaimOne, Program.ensures_run_lift_bind]
  refine (restoreState_ensures x.snapshot).mono ?_
  rintro r v ⟨hdb, r', hrb, hok⟩
  cases r with
  | error e =>
    dsimp only
    rw [Program.ensures_run_bind]
    refine (recordFailure_ensures (hdb ▸ hr) e.text).mono ?_
    rintro _ u ⟨rfl, hready, hhost⟩
    refine ⟨hready, _, rfl, rfl, r', hhost ▸ hrb, fun h₁ h₂ => ?_⟩
    rw [hhost] at h₂
    cases hok h₁ h₂
  | ok u =>
    dsimp only
    rw [Program.ensures_run_bind, Watchdog.recordSuccess, Program.ensures_mapErr]
    refine insert_ensures (hdb ▸ hr) fun now => ?_
    refine ⟨hdb ▸ hr, _, rfl, rfl, r', hrb, fun _ _ => ⟨rfl, ?_⟩⟩
    rw [Database.records_insert, hdb]

lemma reclaimAll_ensures {xs : List UnclosedExperiment} (hr : w.db.ready = true) :
    (P.watchdog.reclaimAll xs).run.Ensures ((sem P).only JournalWorks) w fun _ v =>
      ∀ x, xs.getLast? = some x → ∃ y r', P.rollback x.snapshot y r' v.host := by
  induction xs generalizing w with
  | nil => simp [Watchdog.reclaimAll]
  | cons x xs ih =>
    rw [Watchdog.reclaimAll, Program.ensures_run_bind]
    refine (reclaimOne_ensures hr).mono ?_
    rintro _ v ⟨hready, restoration, rfl, _, r', hrb, _⟩
    dsimp only
    rw [Program.ensures_run_bind]
    cases xs with
    | nil =>
      refine (Program.ensures_done _ _).mpr ?_
      rintro _ ⟨⟩
      exact ⟨w.host, r', hrb⟩
    | cons x' xs' =>
      refine (ih hready).mono ?_
      rintro (e | rs) u hu
      · simpa using hu
      · simpa using hu

end Pass

end FpsMaxxing
