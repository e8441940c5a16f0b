import FpsMaxxing.Recovery.Unended
import FpsMaxxing.Safety.StaleRollback

/-! One process after another on one setting, and what brings the setting back: every snapshot on
record was taken at the baseline, and while the setting is off it an experiment is open. -/

namespace FpsMaxxing

open Effects Serde

variable {σ : Type}

def Task.isLifecycle : Task σ → Bool
  | .lifecycle _ _ => true
  | _ => false

def Effects.Pool.Rooted (P : Provider σ) (x : σ) (s : Host σ) : Prop :=
  ∀ i p, s.procs i = some p → p.task.provider = P ∧
    (p.task.isLifecycle = true → ∀ snapshot, p.progress.captured = some snapshot →
      P.snapshot x (.ok snapshot))

structure Anchored (P : Provider σ) (x : σ) (w : World σ) : Prop where
  rooted : ∃ s : Host σ, Reachable s ∧ s.world = w ∧ s.Rooted P x
  baseline : w.host = x ∨ ∃ e, w.db.Leaks P.manifest.id e

namespace Effects.Pool.Rooted

variable {P : Provider σ} {x : σ} {s : Host σ}

lemma init (w : World σ) : (Pool.init w : Host σ).Rooted P x := by
  intro i p hp
  simp [Pool.init] at hp

lemma snapshot (h : s.Rooted P x) {y : UnclosedExperiment} (hy : s.Describes y) :
    P.snapshot x (.ok y.snapshot) := by
  obtain ⟨i, p, Q, request, ho, ht, hc, _⟩ := hy
  exact (h i p ho.1).2 (by rw [ht]; rfl) _ hc

end Effects.Pool.Rooted

/-- A process dies between two calls or inside one. -/
def Halts {α : Type} (q : Program Calls α) (v u : World σ) : Prop :=
  u = v ∨ ∃ o next, q = .call (o : Calls.Op) next ∧ torn v o u

lemma Halts.map {α β : Type} {q : Program Calls α} {v u : World σ} (f : α → β)
    (h : Halts q v u) : Halts (f <$> q) v u := by
  rcases h with rfl | ⟨o, next, rfl, ht⟩
  · exact .inl rfl
  · exact .inr ⟨o, _, rfl, ht⟩

lemma Halts.of_map {α β : Type} {q : Program Calls α} {v u : World σ} {f : α → β}
    (h : Halts (f <$> q) v u) : Halts q v u := by
  rcases h with rfl | ⟨o, next, hq, ht⟩
  · exact .inl rfl
  · cases q with
    | done a => cases hq
    | call o' next' =>
      cases hq
      exact .inr ⟨_, _, rfl, ht⟩

lemma Halts.done {α : Type} {a : α} {v u : World σ} (h : Halts (.done a) v u) : u = v := by
  rcases h with rfl | ⟨_, _, hq, _⟩
  · rfl
  · cases hq

lemma Halts.db {α : Type} {q : Program Calls α} {v u : World σ} (h : Halts q v u) :
    u.db = v.db := by
  rcases h with rfl | ⟨o, next, _, ht⟩
  · rfl
  · exact torn_db ht

lemma Reachable.halt {s : Host σ} (h : Reachable s) {t : Task σ} {tr : Trace σ}
    {q : Program Calls Outcome} {v u : World σ}
    (hs : Steps (sem t.provider) t.start s.world tr q v) (hu : Halts q v u) :
    ∃ (s' : Host σ) (i : ℕ) (p : Proc σ), Reachable s' ∧ s'.world = u ∧ s.procs i = none ∧
      s'.procs i = some p ∧ p.task = t ∧ p.trace = tr ∧ ∀ j, j ≠ i → s'.procs j = s.procs j := by
  obtain ⟨x, hrun⟩ := h
  obtain ⟨i, hi⟩ := hrun.room
  let a := s.set i (.fresh (system σ) t) s.world
  have ha : a.procs i = some (.fresh (system σ) t) := Pool.set_procs_self _ _ _ _
  have hgo : (system σ).Reach a _ := System.run_of_steps ha rfl (fun _ => trivial) hs
  have hreach := (hrun.tail ⟨_, trivial, .spawn t hi⟩).trans hgo
  rcases hu with rfl | ⟨o, next, rfl, htorn⟩
  · refine ⟨_, i, _, ⟨x, hreach⟩, rfl, hi, Pool.set_procs_self _ _ _ _, rfl, rfl, fun j hj => ?_⟩
    rw [Pool.set_procs_ne _ hj, Pool.set_procs_ne _ hj]
  · refine ⟨_, i, _, ⟨x, hreach.tail ⟨_, trivial, .torn (Pool.set_procs_self _ _ _ _) rfl rfl
      htorn⟩⟩, rfl, hi, Pool.set_procs_self _ _ _ _, rfl, rfl, fun j hj => ?_⟩
    rw [Pool.set_procs_ne _ hj, Pool.set_procs_ne _ hj, Pool.set_procs_ne _ hj]

namespace Anchored

variable {P : Provider σ} {x : σ} {w v u : World σ}

lemma initial (P : Provider σ) (x : σ) : Anchored P x (World.initial x) where
  rooted := ⟨Pool.init (World.initial x), ⟨x, .refl⟩, rfl, .init _⟩
  baseline := .inl rfl

lemma rooted_halt (h : Anchored P x w) {t : Task σ} (ht : t.provider = P) {tr : Trace σ}
    {q : Program Calls Outcome} (hs : Steps (sem P) t.start w tr q v) (hu : Halts q v u)
    (hc : t.isLifecycle = true → ∀ snapshot, (Progress.start.run tr).captured = some snapshot →
      P.snapshot x (.ok snapshot)) :
    ∃ s : Host σ, Reachable s ∧ s.world = u ∧ s.Rooted P x := by
  obtain ⟨s, hr, rfl, hroot⟩ := h.rooted
  subst ht
  obtain ⟨s', i, p, hr', hw, _, hp, rfl, rfl, hother⟩ := hr.halt hs hu
  refine ⟨s', hr', hw, fun j p' hp' => ?_⟩
  by_cases hj : j = i
  · subst hj
    cases hp.symm.trans hp'
    exact ⟨rfl, hc⟩
  · exact hroot j p' ((hother j hj).symm.trans hp')

/-- A lifecycle that starts at the baseline leaves the setting there when it returns; where it dies
before, an experiment is open or the setting is untouched. -/
lemma lifecycle (hP : P.Faithful) (h : Anchored P x w) (hw : w.host = x) {request : ChangeRequest}
    {tr : Trace σ} {q : Program Calls (Except ControlPlaneError LifecycleResult)}
    (hs : Steps (sem P) (P.plane.runLifecycle request).run w tr q v) (hu : Halts q v u) :
    Anchored P x u ∧ ∀ r, q = .done r → u.host = x := by
  have hb := Lifecycle.baseline hs
  rw [hw] at hb
  have hopen : (Progress.start.run tr).applied = true ∧ (Progress.start.run tr).rollbacks = [] ∨
      (∃ asked, q.nextOp = some (.provider (.apply asked))) → ∃ e, v.db.Leaks P.manifest.id e := by
    obtain ⟨s, hr, rfl, _⟩ := h.rooted
    exact hr.leaks hs
  have hhost : v.host = x ∨ (Progress.start.run tr).applied = true ∧
      (Progress.start.run tr).rollbacks = [] := by
    cases ha : (Progress.start.run tr).applied with
    | false => exact .inl (hb.untouched ha)
    | true =>
      by_cases hr : (Progress.start.run tr).rollbacks = []
      · exact .inr ⟨rfl, hr⟩
      · exact .inl (hb.restored hP hr)
  have hv : v.host = x ∨ ∃ e, v.db.Leaks P.manifest.id e := hhost.imp_right fun hu => hopen (.inl hu)
  refine ⟨⟨?_, ?_⟩, ?_⟩
  · exact h.rooted_halt (t := .lifecycle P request) rfl (hs.map Outcome.lifecycle) (hu.map _)
      fun _ => hb.captured
  · rw [hu.db]
    rcases hu with rfl | ⟨o, next, rfl, ht⟩
    · exact hv
    have ha := (hs.obeys Lifecycle.runLifecycle_obeys).1
    match o, ha, ht with
    | .provider (.apply asked), _, _ => exact .inr (hopen (.inr ⟨asked, rfl⟩))
    | .provider (.rollback snapshot), ha, _ => exact .inr (hopen (.inl ⟨ha.1, ha.2.1⟩))
    | .provider .snapshot, _, ht | .provider (.preview _), _, ht | .provider (.verify _), _, ht
    | .journal _, _, ht =>
      rw [show u = v from ht]
      exact hv
  · rintro r rfl
    rw [hu.done]
    refine hhost.resolve_right fun hr => ?_
    exact (hs.obeys Lifecycle.runLifecycle_closing) hr.1 hr.2

end Anchored

end FpsMaxxing
