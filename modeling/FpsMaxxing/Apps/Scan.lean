import FpsMaxxing.Apps.Refinement
import FpsMaxxing.Safety.CrashRecovery

/-! What a scan finds of the programs that were running: each experiment it lists goes back to a
program that was asked for it. -/

namespace FpsMaxxing

open Effects Serde

variable {σ : Type}

structure Effects.Pool.Begun (s : Apps σ) (providerId : String)
    (experiment : UnclosedExperiment) : Prop where
  admitted : ∃ i p, s.procs i = some p ∧ p.task.provider.manifest.id = providerId ∧
    p.task.Admits experiment.request ∧
    p.task.provider.plane.validate experiment.request = .ok ()
  snapshot : ⟨experiment.experimentId, .snapshot, providerId, toValue experiment.snapshot⟩ ∈
    s.world.db.records
  intent : ⟨experiment.experimentId, .applyIntent, providerId, toValue experiment.request⟩ ∈
    s.world.db.records

lemma Ledger.begun {s : Apps σ} {c : Host σ}
    (hc : Ledger (⟨s.world, c.procs⟩ : Host σ))
    (howned : ∀ k r, c.procs k = some r → ∃ i p, s.procs i = some p ∧ p.task.Runs r.task)
    {providerId : String} {experiment : UnclosedExperiment}
    (hl : s.world.db.Leaks providerId experiment.experimentId)
    (hd : (⟨s.world, c.procs⟩ : Host σ).Describes experiment) :
    s.Begun providerId experiment := by
  obtain ⟨k, r, P, request, ho, ht, hcap, rfl, _⟩ := hd
  obtain ⟨Q, asked, snapshot, rest, ht', _, hcap', hv, hw, _⟩ := hc.owner ho
  obtain ⟨rfl, rfl⟩ : P = Q ∧ experiment.request = asked := by simpa [ht] using ht'
  obtain rfl : experiment.snapshot = snapshot := Option.some.inj (hcap.symm.trans hcap')
  obtain ⟨⟨record, hr, hs, hid, hp⟩, _⟩ := hl
  obtain ⟨k', r', P', request', ho', ht'', _, hrec⟩ := hc.intent_row hr hs
  rw [hid] at ho'
  obtain rfl := hc.unique _ k r k' r' ho ho'
  obtain rfl : r = r' := Option.some.inj (ho.1.symm.trans ho'.1)
  obtain ⟨rfl, rfl⟩ : P = P' ∧ experiment.request = request' := by simpa [ht] using ht''
  have hname : P.manifest.id = providerId := by
    rw [← hp, hrec]
    rfl
  obtain ⟨i, p, hi, hruns⟩ := howned k r ho.1
  rw [ht] at hruns
  obtain ⟨hP, ha⟩ := hruns
  have hfirst := (hc.written_in_journal ho (hw ▸ List.mem_cons_self)).1
  refine ⟨⟨i, p, hi, hP ▸ hname, ha, hP ▸ hv⟩, hname ▸ hfirst, ?_⟩
  rw [← hname, ← hid]
  exact hrec ▸ hr

theorem apps_scan_exact {x : σ} {s : Apps σ} {guard : Apps σ → Label (App σ) → Prop}
    (h : (apps σ).Run guard (Pool.init (World.initial x)) s) (P : Provider σ) :
    P.watchdog.scan.run.Ensures ((sem P).only JournalWorks) s.world fun r w =>
      w = s.world ∧ ∃ list, r = .ok list ∧
        (list.map UnclosedExperiment.experimentId).Pairwise (· < ·) ∧
        (∀ experiment, experiment ∈ list.map UnclosedExperiment.experimentId ↔
          s.world.db.Leaks P.manifest.id experiment) ∧
        ∀ experiment ∈ list, s.Begun P.manifest.id experiment := by
  obtain ⟨c, inside, hrun, hsim⟩ := (appsLayer σ).refines h
  have hw : c.world = s.world.bare := hsim.world
  have hc := (Reachable.ledger ⟨x, hrun⟩).of_bare hw
  have hready : s.world.db.ready = true ∨ s.world.db.records = [] := by
    have hr := Reachable.ready ⟨x, hrun⟩
    rwa [hw] at hr
  refine (hc.scan_ensures hready P rfl).mono ?_
  rintro r w ⟨rfl, list, rfl, hx⟩
  refine ⟨rfl, list, rfl, hx.ascending, hx.complete, fun experiment hm => ?_⟩
  have hl := (hx.complete _).mp (List.mem_map_of_mem hm)
  exact hc.begun hsim.owned hl (hx.faithful experiment hm)

theorem apps_scan_exact_broker : appliedByBroker.world.db.Leaks "mock" 1 ∧
    (mockProvider "linux").provider.watchdog.scan.run.Ensures
      ((sem (mockProvider "linux").provider).only JournalWorks) appliedByBroker.world fun r _ =>
        ∃ list, r = .ok list ∧ 1 ∈ list.map UnclosedExperiment.experimentId ∧
          ∀ experiment ∈ list, appliedByBroker.Begun "mock" experiment := by
  have hl : appliedByBroker.world.db.Leaks "mock" 1 := by decide +kernel
  refine ⟨hl, (apps_scan_exact (appliedByBroker_run (fun _ => trivial) (fun _ => trivial) :
    (apps UInt64).Reach _ _) (mockProvider "linux").provider).mono ?_⟩
  rintro r w ⟨_, list, rfl, _, hm, hb⟩
  exact ⟨list, rfl, (hm 1).mpr hl, hb⟩

end FpsMaxxing
