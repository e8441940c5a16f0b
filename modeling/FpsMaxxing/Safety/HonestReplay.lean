import FpsMaxxing.Apps.Spec
import FpsMaxxing.Host.Trials

/-! A replay raises no alarm over a row that a trial journaled, whatever happened since. -/

namespace FpsMaxxing

open Effects Serde

variable {σ : Type}

lemma Standing.next_trials (m : Standing) (o : Op) (r : o.Res) :
    (m.next o r).trials = m.trials ++ journaled o r := by
  match o, r with
  | .provider method, _ => exact (List.append_nil _).symm
  | .journal statement, .error _ => cases statement <;> exact (List.append_nil _).symm
  | .journal (.recordTrial _), .ok _ => rfl
  | .journal .createTables, .ok _ | .journal .ready, .ok _ | .journal (.unclosed _), .ok _
  | .journal (.lastRestore _), .ok _ | .journal (.beginExperiment _ _), .ok _
  | .journal (.insert _), .ok _ | .journal (.readTrial _), .ok _ =>
    exact (List.append_nil _).symm

lemma trials_of_event {app : App σ} {tr : List (Entry Calls (World σ))} {payload : Value} {id : ℤ}
    {m : Standing}
    (h : (⟨.journal (.recordTrial payload), .ok id⟩ : Calls.Event) ∈ tr.map Entry.event) :
    ⟨id, payload⟩ ∈ (((appsContract σ).monitor app).run m tr).trials := by
  have hrun : (((appsContract σ).monitor app).run m tr).trials =
      m.trials ++ (tr.map Entry.event).flatMap fun e => journaled e.1 e.2 := by
    clear h
    induction tr generalizing m with
    | nil => exact (List.append_nil _).symm
    | cons e tr ih =>
      rw [Monitor.run_cons, ih]
      simp [Contract.monitor, appsContract, Standing.next_trials, Entry.event]
  rw [hrun]
  exact List.mem_append_right _ (List.mem_flatMap.mpr ⟨_, h, List.mem_singleton.mpr rfl⟩)

def Standing.Stored (app : App σ) (m : Standing) (w : World σ) : Prop :=
  ∀ trial ∈ m.trials, app.Journals trial.payload ∧ w.db.ready = true ∧
    w.db.trial trial.id = some trial

lemma Standing.Stored.mono {app : App σ} {m : Standing} {w w' : World σ} (h : m.Stored app w)
    (hk : Keeps w w') : m.Stored app w' := by
  intro trial ht
  obtain ⟨hj, hr, hf⟩ := h trial ht
  exact ⟨hj, hk.ready hr, hk.trial _ _ hf⟩

lemma Standing.Stored.next {app : App σ} {m : Standing} {w w' : World σ} {o : Op} {r : o.Res}
    (h : m.Stored app w) (ha : app.Allows m o) (hs : sem app.provider w o r w') :
    (m.next o r).Stored app w' := by
  intro trial ht
  rw [next_trials] at ht
  rcases List.mem_append.mp ht with ht | ht
  · exact h.mono (sem_keeps hs) trial ht
  · cases mem_journaled ht
    obtain ⟨hr, _⟩ := sem_recordTrial hs
    exact ⟨ha, (sem_keeps hs).ready hr, sem_recordTrial_found hs⟩

lemma stored {guard : Apps σ → Label (App σ) → Prop} {w : World σ} {s : Apps σ}
    (h : (apps σ).Run guard (Pool.init w) s) {i : ℕ} {p : AppProc σ} (hp : s.procs i = some p) :
    p.standing.Stored p.task s.world := by
  refine (appsContract σ).ambient (I := Standing.Stored) h (Contract.honest_init _)
    (fun i p hp => by simp [Pool.init] at hp) (fun t w trial ht => by cases ht)
    (fun t m w o r w' hi ha hs => hi.next ha hs) (fun t m w u o r w' hi hs => hi.mono (sem_keeps hs))
    (fun t m w u o w' hi ht => hi.mono (torn_keeps ht)) i p hp

lemma execute_readTrial {Q : Provider σ} {w : World σ} {row : Trial} (hr : w.db.ready = true)
    (hf : w.db.trial row.id = some row) :
    (execute (.readTrial row.id)).Ensures ((sem Q).only JournalWorks) w fun r v =>
      v = w ∧ r = .ok (some row.payload) := by
  have hrun : ∀ now, (Statement.readTrial row.id).run now w.db = some (some row.payload, w.db) := by
    have hf : (w.db.trials.find? fun trial => trial.id = row.id) = some row := hf
    simp [Statement.run, hr, hf]
  refine ensures_execute (hrun 0) fun now found db h => ?_
  rw [hrun] at h
  cases h
  exact ⟨rfl, rfl⟩

lemma replayTrial_found {Q : Provider σ} {w : World σ} {row : Trial}
    (decodeError : Value → String) (hr : w.db.ready = true) (hf : w.db.trial row.id = some row) :
    ((replayTrial decodeError row.id).run.interpret Q.plane.handle).Ensures
      ((sem Q).only JournalWorks) w fun r v =>
        v = w ∧ r = replay decodeError row.id row.payload := by
  rw [replayTrial_eq, Program.ensures_map]
  apply (execute_readTrial hr hf).mono
  rintro _ v ⟨hv, rfl⟩
  exact ⟨hv, rfl⟩

lemma honest_of_stored {w₀ : World σ} {s : Apps σ} (hs : (apps σ).Reach (Pool.init w₀) s) {i : ℕ}
    {p : AppProc σ} (hp : s.procs i = some p) {P : Provider σ} {os : String} {spec : ExperimentSpec}
    (ht : p.task = .trial P os spec) {row : Trial} (hm : row ∈ p.standing.trials) :
    ∃ baseline candidate outcome record, Honest spec baseline candidate outcome record ∧
      row.payload = toValue record ∧
      ∀ result, p.residual = .done (.trial result) →
        result = report record outcome (.ok row.id) := by
  by_cases hr : ∃ result, p.residual = .done (.trial result)
  · obtain ⟨result, hres⟩ := hr
    have hpost := ((Contract.honest_init (c := appsContract σ) w₀).run hs).post hp hres
    rw [ht] at hpost
    obtain ⟨baseline, candidate, outcome, record, hh, hrow, hrep⟩ := hpost row hm
    refine ⟨baseline, candidate, outcome, record, hh, hrow, fun result' hres' => ?_⟩
    rw [hres] at hres'
    cases hres'
    exact hrep
  · obtain ⟨hj, _, _⟩ := stored hs hp row hm
    rw [ht] at hj
    obtain ⟨baseline, candidate, outcome, record, hh, hrow⟩ := hj
    exact ⟨baseline, candidate, outcome, record, hh, hrow, fun result h => absurd ⟨result, h⟩ hr⟩

theorem honest_replay {w₀ : World σ} {s : Apps σ} (hs : (apps σ).Reach (Pool.init w₀) s) {i : ℕ}
    {p : AppProc σ} (hp : s.procs i = some p) {P : Provider σ} {os : String} {spec : ExperimentSpec}
    (ht : p.task = .trial P os spec) {payload : Value} {id : ℤ}
    (he : (⟨.journal (.recordTrial payload), .ok id⟩ : Calls.Event) ∈ p.trace.map Entry.event) :
    ∃ baseline candidate outcome record, Honest spec baseline candidate outcome record ∧
      payload = toValue record ∧ fromValue payload = some record ∧
      (∀ result, p.residual = .done (.trial result) → result = report record outcome (.ok id)) ∧
      ∀ s', (apps σ).Reach s s' → ∀ (Q : Provider σ) (decodeError : Value → String),
        ((replayTrial decodeError id).run.interpret Q.plane.handle).Ensures
          ((sem Q).only JournalWorks) s'.world fun r v => v = s'.world ∧
            ∃ replayed, r = .ok replayed ∧ replayed.trialId = id ∧
              replayed.recorded = record.verdict ∧ replayed.isConsistent = true ∧
              replayed.policyLegal = true ∧ replayed.policyReason = none := by
  have hm : ⟨id, payload⟩ ∈ p.standing.trials := trials_of_event he
  obtain ⟨_, hr, hf⟩ := stored hs hp ⟨id, payload⟩ hm
  obtain ⟨baseline, candidate, outcome, record, hh, hrow, hrep⟩ := honest_of_stored hs hp ht hm
  obtain rfl : payload = toValue record := hrow
  refine ⟨baseline, candidate, outcome, record, hh, rfl, hh.record_roundTrips, hrep,
    fun s' hs' Q decodeError => ?_⟩
  have hk := hs'.world Keeps.refl (fun _ _ _ => Keeps.trans) (fun _ _ _ _ _ => sem_keeps)
    fun _ _ _ _ => torn_keeps
  refine (replayTrial_found (Q := Q) decodeError (hk.ready hr) (hk.trial _ _ hf)).mono ?_
  rintro r v ⟨hv, rfl⟩
  exact ⟨hv, _, hh.replay_eq decodeError id, rfl, rfl, hh.consistent, rfl, rfl⟩

def mockTrial : App UInt64 := .trial (mockProvider "linux").provider "linux" (specForValue 40)

def mockRecord : TrialRecord :=
  recordOf (specForValue 40) 7 40 (measure 7 2 5) (measure 40 2 5)
    (some (.ok ⟨"mock", "set mock.value from 7 to 40", true, true⟩))

def afterTrial : Apps UInt64 := (mockProvider "linux").launch mockTrial 20 (World.initial 7)

theorem honest_replay_mock : ∃ record : TrialRecord, fromValue (toValue mockRecord) = some record ∧
    ((replayTrial (fun _ => "") 1).run.interpret (mockProvider "linux").provider.plane.handle).Ensures
      ((sem (mockProvider "linux").provider).only JournalWorks) afterTrial.world fun r v =>
        v = afterTrial.world ∧ ∃ replayed, r = .ok replayed ∧ replayed.trialId = 1 ∧
          replayed.recorded = record.verdict ∧ replayed.isConsistent = true ∧
          replayed.policyLegal = true ∧ replayed.policyReason = none := by
  have hrun : (apps UInt64).Reach (Pool.init (World.initial 7)) afterTrial :=
    Device.launch_run rfl _ _ trivial fun _ => trivial
  obtain ⟨_, _, _, record, _, _, hd, _, hreplay⟩ := honest_replay hrun
    (Pool.set_procs_self _ _ _ _) rfl
    (show (⟨.journal (.recordTrial (toValue mockRecord)), .ok 1⟩ : Calls.Event) ∈ _ by
      decide +kernel)
  exact ⟨record, hd, hreplay _ .refl _ _⟩

end FpsMaxxing
