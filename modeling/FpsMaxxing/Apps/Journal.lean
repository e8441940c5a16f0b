import FpsMaxxing.Recovery.Registry
import FpsMaxxing.Safety.HonestReplay

/-! What the programs make of the journal over time: two tables that only grow, a registry in which
every experiment goes one way, and trials that can be read back for good. -/

namespace FpsMaxxing

open Effects Effects.Registry Serde

variable {σ : Type}

namespace Database

def journalStages (db : Database) : List String := db.rows.map fun row => row.stage.text

def trialIds (db : Database) : List ℤ := (db.trials.map Trial.id).insertionSort (· ≤ ·)

structure Grows (db db' : Database) : Prop where
  rows : db.rows <+: db'.rows
  trials : db.trials <+: db'.trials

lemma Grows.refl (db : Database) : db.Grows db := ⟨List.prefix_rfl, List.prefix_rfl⟩

lemma Grows.trans {a b c : Database} (h : a.Grows b) (h' : b.Grows c) : a.Grows c :=
  ⟨h.rows.trans h'.rows, h.trials.trans h'.trials⟩

structure Shelved (db : Database) : Prop where
  ascending : (db.trials.map Trial.id).Pairwise (· < ·)
  ready : db.trials = [] ∨ db.ready = true

variable {db db' : Database}

lemma Shelved.trialIds (h : db.Shelved) : db.trialIds = db.trials.map Trial.id := by
  apply List.Pairwise.insertionSort_eq
  exact h.ascending.imp fun hab => hab.le

lemma Shelved.trial (h : db.Shelved) {trial : Trial} (hm : trial ∈ db.trials) :
    db.trial trial.id = some trial := by
  rw [Database.trial, List.find?_eq_some_iff_append]
  obtain ⟨before, after, hd⟩ := List.append_of_mem hm
  refine ⟨by simp, before, after, hd, fun other ho => ?_⟩
  have hasc := h.ascending
  rw [hd, List.map_append, List.pairwise_append] at hasc
  have hlt := hasc.2.2 other.id (List.mem_map_of_mem ho) trial.id (by simp)
  simpa using hlt.ne

lemma Shelved.record (h : db.Shelved) (hr : db'.ready = true) {payload : Value}
    (ht : db'.trials = db.trials ++ [⟨db.nextTrial, payload⟩]) : db'.Shelved where
  ascending := by
    rw [ht, List.map_append, List.pairwise_append]
    refine ⟨h.ascending, List.pairwise_singleton _ _, fun id hid next hn => ?_⟩
    obtain ⟨trial, hm, rfl⟩ := List.mem_map.mp hid
    rw [List.map_singleton, List.mem_singleton] at hn
    rw [hn]
    exact lt_nextTrial hm
  ready := .inr hr

end Database

lemma sem_grows {P : Provider σ} {w w' : World σ} {o : Op} {r : o.Res} (h : sem P w o r w') :
    w.db.Grows w'.db := by
  refine ⟨?_, ⟨_, (sem_trials h).symm⟩⟩
  cases o with
  | provider method => rw [h.2]
  | journal statement =>
    obtain ⟨e, _, rfl⟩ | ⟨now, b, db, hr, _, rfl⟩ := h
    · exact List.prefix_rfl
    · cases statement with
      | createTables | ready =>
        cases hr
        exact List.prefix_rfl
      | beginExperiment _ _ | insert _ =>
        simp only [Statement.run, Option.ite_none_right_eq_some] at hr
        obtain ⟨_, hr⟩ := hr
        cases hr
        exact List.prefix_append _ _
      | _ =>
        simp only [Statement.run, Option.ite_none_right_eq_some] at hr
        obtain ⟨_, hr⟩ := hr
        cases hr
        exact List.prefix_rfl

lemma sem_shelved {P : Provider σ} {w w' : World σ} {o : Op} {r : o.Res} (h : sem P w o r w')
    (hw : w.db.Shelved) : w'.db.Shelved := by
  have ht := sem_trials h
  by_cases hn : journaled o r = []
  · rw [hn, List.append_nil] at ht
    refine ⟨ht ▸ hw.ascending, ?_⟩
    rw [ht]
    exact hw.ready.imp_right (sem_keeps h).ready
  · obtain ⟨trial, hm⟩ := List.exists_mem_of_ne_nil _ hn
    cases mem_journaled hm
    obtain ⟨hr, hid⟩ := sem_recordTrial h
    exact hw.record ((sem_keeps h).ready hr) (hid ▸ ht)

section

variable {guard : Apps σ → Label (App σ) → Prop} {s s' : Apps σ}

lemma apps_grow (h : (apps σ).Run guard s s') : s.world.db.Grows s'.world.db := by
  induction h with
  | refl => exact .refl _
  | tail _ hs ih =>
    obtain ⟨l, _, hs⟩ := hs
    apply ih.trans
    cases hs with
    | spawn _ _ | crash _ _ => exact .refl _
    | call _ _ _ hs => exact sem_grows hs
    | torn _ _ _ ht =>
      rw [Pool.set_world, torn_db ht]
      exact .refl _

lemma apps_shelved {x : σ} (h : (apps σ).Run guard (Pool.init (World.initial x)) s) :
    s.world.db.Shelved := by
  induction h with
  | refl => exact ⟨List.Pairwise.nil, .inl rfl⟩
  | tail _ hs ih =>
    obtain ⟨l, _, hs⟩ := hs
    cases hs with
    | spawn _ _ | crash _ _ => exact ih
    | call _ _ _ hs => exact sem_shelved hs ih
    | torn _ _ _ ht => rwa [Pool.set_world, torn_db ht]

end

/-- However the programs interleave, fail and die, the journal is a registry of experiments that
go from absent over captured and intended to closed and never back. -/
theorem journal_registers {x : σ} {guard : Apps σ → Label (App σ) → Prop} {s s' : Apps σ}
    (h : (apps σ).Run guard (Pool.init (World.initial x)) s) (hr : (apps σ).Run guard s s') :
    Registry.Run s.world.db.status s'.world.db.status ∧
      s.world.db.status ≤ s'.world.db.status ∧
      (∀ e, s.world.db.status e = .closed → s'.world.db.status e = .closed) ∧
      s.world.db.Grows s'.world.db ∧ s.world.db.journalStages <+: s'.world.db.journalStages := by
  obtain ⟨c, inside, hrun, hsim⟩ := (appsLayer σ).refines h
  obtain ⟨c', inside', hmore, hsim'⟩ := hsim.run hrun hr
  have hstatus : Registry.Run c.world.db.status c'.world.db.status :=
    Reachable.run_status ⟨x, hrun⟩ hmore
  have hw : c.world = s.world.bare := hsim.world
  have hw' : c'.world = s'.world.bare := hsim'.world
  rw [hw, hw'] at hstatus
  have hgrow := apps_grow hr
  exact ⟨hstatus, le_of_run hstatus, fun e he => closed_of_run hstatus he, hgrow,
    hgrow.rows.map _⟩

theorem journal_registers_broker : appliedByBroker.world.db.status 1 = .intended ∧
    Registry.Run (World.initial (7 : UInt64)).db.status appliedByBroker.world.db.status := by
  have h : (apps UInt64).Reach (Pool.init (World.initial 7)) appliedByBroker :=
    appliedByBroker_run (fun _ => trivial) fun _ => trivial
  exact ⟨by decide +kernel, (journal_registers .refl h).1⟩

/-- A trial that was recorded is listed in its place and reads back as it was written, through any
provider and after anything that any program has done since. -/
theorem trials_read_back {x : σ} {guard : Apps σ → Label (App σ) → Prop} {s s' : Apps σ}
    (h : (apps σ).Run guard (Pool.init (World.initial x)) s) (hr : (apps σ).Run guard s s') :
    s.world.db.trialIds <+: s'.world.db.trialIds ∧
      s'.world.db.trialIds = s'.world.db.trials.map Trial.id ∧
      s'.world.db.trialIds.Pairwise (· < ·) ∧
      ∀ trial ∈ s.world.db.trials, ∀ Q : Provider σ,
        (execute (.readTrial trial.id)).Ensures ((sem Q).only JournalWorks) s'.world fun r v =>
          v = s'.world ∧ r = .ok (some trial.payload) := by
  have hs := apps_shelved h
  have hs' := apps_shelved (h.trans hr)
  have hgrow := apps_grow hr
  refine ⟨?_, hs'.trialIds, ?_, fun trial hm Q => ?_⟩
  · rw [hs.trialIds, hs'.trialIds]
    exact hgrow.trials.map _
  · rw [hs'.trialIds]
    exact hs'.ascending
  · have hm' := hgrow.trials.subset hm
    have hready := hs'.ready.resolve_left (List.ne_nil_of_mem hm')
    exact execute_readTrial hready (hs'.trial hm')

def afterTwoTrials : Apps UInt64 := (mockProvider "linux").join mockTrial 1 20 afterTrial

theorem trials_read_back_mock : afterTwoTrials.world.db.trialIds = [1, 2] ∧
    ∃ payload, (execute (.readTrial 1)).Ensures
      ((sem (mockProvider "linux").provider).only JournalWorks) afterTwoTrials.world fun r _ =>
        r = .ok (some payload) := by
  have h : (apps UInt64).Reach (Pool.init (World.initial 7)) afterTrial :=
    Device.launch_run rfl _ _ trivial fun _ => trivial
  have hlater : (apps UInt64).Reach afterTrial afterTwoTrials :=
    Device.join_run rfl rfl _ trivial fun _ => trivial
  have hids : afterTrial.world.db.trials.map Trial.id = [1] := by decide +kernel
  obtain ⟨trial, hm, hid⟩ := List.mem_map.mp (hids ▸ List.mem_singleton_self (1 : ℤ))
  obtain ⟨_, hlisted, _, hread⟩ := trials_read_back h hlater
  refine ⟨hlisted.trans (by decide +kernel), trial.payload, ?_⟩
  exact hid ▸ (hread trial hm _).mono fun _ _ h => h.2

end FpsMaxxing
