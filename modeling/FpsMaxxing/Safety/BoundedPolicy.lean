import FpsMaxxing.Safety.HonestReplay

/-! No program asks a provider for more than the policy allows, and the journal knows first. -/

namespace FpsMaxxing

open Effects Serde

variable {σ : Type}

def Standing.Committed (m : Standing) (w : World σ) : Prop :=
  ∀ record ∈ m.written, record ∈ w.db.records

lemma Standing.mem_next_written {m : Standing} {o : Op} {r : o.Res} {record : Record}
    (h : record ∈ (m.next o r).written) : record ∈ m.written ∨ record ∈ committed o r := by
  match o, r, h with
  | .provider method, _, h => exact .inl h
  | .journal statement, .error _, h => cases statement <;> exact .inl h
  | .journal (.beginExperiment _ _), .ok _, h => exact .inr h
  | .journal (.insert _), .ok _, h => exact List.mem_append.mp h
  | .journal .createTables, .ok _, h | .journal .ready, .ok _, h
  | .journal (.unclosed _), .ok _, h | .journal (.lastRestore _), .ok _, h
  | .journal (.recordTrial _), .ok _, h | .journal (.readTrial _), .ok _, h => exact .inl h

lemma Standing.Committed.next {P : Provider σ} {m : Standing} {w w' : World σ} {o : Op} {r : o.Res}
    (h : m.Committed w) (hs : sem P w o r w') : (m.next o r).Committed w' := by
  intro record hm
  rw [sem_records hs, List.mem_append]
  exact (mem_next_written hm).imp_left (h record)

lemma committed_of_run {guard : Apps σ → Label (App σ) → Prop} {w : World σ} {s : Apps σ}
    (h : (apps σ).Run guard (Pool.init w) s) {i : ℕ} {p : AppProc σ} (hp : s.procs i = some p) :
    p.standing.Committed s.world :=
  (appsContract σ).ambient (I := fun _ => Standing.Committed) h (Contract.honest_init _)
    (fun i p hp => by simp [Pool.init] at hp) (fun t w record hr => by cases hr)
    (fun t m w o r w' hi _ hs => hi.next hs)
    (fun t m w u o r w' hi hs record hm => (sem_keeps hs).records record (hi record hm))
    (fun t m w u o w' hi ht record hm => (torn_keeps ht).records record (hi record hm)) i p hp

lemma allows_of_run {guard : Apps σ → Label (App σ) → Prop} {w : World σ} {s : Apps σ}
    (h : (apps σ).Run guard (Pool.init w) s) {i : ℕ} {p : AppProc σ} (hp : s.procs i = some p)
    {o : Op} (hn : p.residual.nextOp = some o) : p.task.Allows p.standing o := by
  cases hr : p.residual with
  | done a =>
    rw [hr] at hn
    cases hn
  | call o' next =>
    rw [hr] at hn
    cases hn
    exact ((Contract.honest_init (c := appsContract σ) w).run h).allows hp hr

theorem apply_bounded {w₀ : World σ} {s : Apps σ} (hs : (apps σ).Reach (Pool.init w₀) s) {i : ℕ}
    {p : AppProc σ} (hp : s.procs i = some p) {asked : ChangeRequest}
    (hn : p.residual.nextOp = some (.provider (.apply asked))) :
    (∃ capability, (p.task.provider.manifest.capabilities.find? fun item =>
        item.id = asked.capabilityId) = some capability ∧ capability.risk = .reversible) ∧
      (1 ≤ asked.leaseSeconds.val ∧ asked.leaseSeconds.val ≤ 300) ∧
      (∃ fields value, asked.parameters = .object fields ∧
        fields.lookup "value" = some (.number (.posInt value)) ∧ value ≤ 100) ∧
      ∃ experiment, p.standing.experiment = some experiment ∧
        .intent p.task.provider asked experiment ∈ s.world.db.records := by
  obtain ⟨_, hv, experiment, he, hw⟩ := allows_of_run hs hp hn
  obtain ⟨hc, hl, value, hval, hle⟩ := (ControlPlane.validate_eq_ok _ _).mp hv
  refine ⟨hc, ⟨?_, hl⟩, ?_, experiment, he, committed_of_run hs hp _ hw⟩
  · have h0 := asked.leaseSeconds.property
    rw [UInt64.le_iff_toNat_le]
    have hne : asked.leaseSeconds.val.toNat ≠ 0 := fun h => h0 (UInt64.toNat_inj.mp h)
    exact Nat.one_le_iff_ne_zero.mpr hne
  · obtain ⟨v, hg, hu⟩ := Option.bind_eq_some_iff.mp hval
    obtain ⟨fields, hf, hlookup⟩ := Value.get_eq_some.mp hg
    obtain rfl := Value.asU64_eq_some.mp hu
    exact ⟨fields, value, hf, hlookup, hle⟩

def applying (n : ℕ) : Apps UInt64 := (mockProvider "linux").launch mockTrial n (World.initial 7)

theorem apply_bounded_mock : ∃ experiment,
    Record.intent (mockProvider "linux").provider (specForValue 40).target experiment ∈
      (applying 7).world.db.records := by
  have hrun : (apps UInt64).Reach (Pool.init (World.initial 7)) (applying 7) :=
    Device.launch_run rfl _ _ trivial fun _ => trivial
  obtain ⟨_, _, _, experiment, _, h⟩ := apply_bounded hrun (Pool.set_procs_self _ _ _ _)
    (show _ = some (Op.provider (.apply (specForValue 40).target)) by decide +kernel)
  exact ⟨experiment, h⟩

end FpsMaxxing
