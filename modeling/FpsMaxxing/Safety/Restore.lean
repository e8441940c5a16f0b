import FpsMaxxing.Host.LifecycleEffect

/-! A faithful provider is back where it was after every lifecycle that is not cut short. -/

namespace FpsMaxxing

open Effects Serde

variable {σ : Type}

structure Session (σ : Type) where
  request : ChangeRequest
  before : World σ
  trace : Trace σ
  result : Except ControlPlaneError LifecycleResult
  after : World σ

def Session.progress (session : Session σ) : Progress := Progress.start.run session.trace

inductive Series (P : Provider σ) (w : World σ) : List (Session σ) → World σ → Prop
  | start : Series P w [] w
  | call {sessions v request tr r u} : Series P w sessions v →
      Steps (sem P) (P.plane.runLifecycle request).run v tr (.done r) u →
      Series P w (sessions ++ [⟨request, v, tr, r, u⟩]) u

structure Session.Clean (P : Provider σ) (session : Session σ) : Prop where
  rolledBack : (session.trace.any fun entry => entry.op.isApply) = true →
    ∃ snapshot, session.progress.captured = some snapshot ∧
      P.snapshot session.before.host (.ok snapshot) ∧
      (session.trace.filterMap fun entry => entry.op.rollback?) = [snapshot]
  untouched : (session.trace.any fun entry => entry.op.isApply) = false →
    (session.trace.filterMap fun entry => entry.op.rollback?) = []
  ok : ∀ result, session.result = .ok result → result.verified = true ∧ result.rolledBack = true

namespace Lifecycle

variable {P : Provider σ} {request : ChangeRequest} {w v : World σ} {tr : Trace σ}
  {r : Except ControlPlaneError LifecycleResult}

lemma finished_of_steps (h : Steps (sem P) (P.plane.runLifecycle request).run w tr (.done r) v) :
    Finished P request r (Progress.start.run tr) :=
  h.obeys runLifecycle_obeys

lemma clean_of_steps (h : Steps (sem P) (P.plane.runLifecycle request).run w tr (.done r) v) :
    Session.Clean P ⟨request, w, tr, r, v⟩ := by
  have ha : (Progress.start.run tr).applied = tr.any fun entry => entry.op.isApply :=
    Progress.run_applied
  have hr : (Progress.start.run tr).rollbacks = tr.filterMap fun entry => entry.op.rollback? :=
    Progress.run_rollbacks
  obtain ⟨e, s, hc⟩ | ⟨⟨error, rfl⟩, _, hn, hrb, _⟩ := finished_of_steps h
  · have hrb := hc.rollbacks
    rw [ha, hr] at hrb
    refine ⟨fun hap => ⟨s, hc.captured, (baseline h).captured s hc.captured, ?_⟩, fun hap => ?_,
      fun result hok => ?_⟩
    · simpa [hap] using hrb
    · simpa [hap] using hrb
    · obtain ⟨_, _, _, preview, rfl, _⟩ := hc.ok result hok
      exact ⟨rfl, rfl⟩
  · refine ⟨fun hap => ?_, fun _ => hr.symm.trans hrb, by simp⟩
    simp [← ha, hn] at hap

lemma host_restored (hf : P.Faithful)
    (h : Steps (sem P) (P.plane.runLifecycle request).run w tr (.done r) v) : v.host = w.host := by
  have hb := baseline h
  cases ha : (Progress.start.run tr).applied with
  | false => exact hb.untouched ha
  | true =>
    refine hb.restored hf ?_
    obtain ⟨e, s, hc⟩ | ⟨_, _, hn, _⟩ := finished_of_steps h
    · simp [hc.rollbacks, ha]
    · simp [hn] at ha

end Lifecycle

lemma Series.host {P : Provider σ} (hf : P.Faithful) {w v : World σ} {sessions : List (Session σ)}
    (h : Series P w sessions v) : v.host = w.host ∧ ∀ session ∈ sessions,
      session.after.host = w.host ∧ session.Clean P := by
  induction h with
  | start => exact ⟨rfl, by simp⟩
  | @call sessions v request tr r u hs hstep ih =>
    have hu := (Lifecycle.host_restored hf hstep).trans ih.1
    refine ⟨hu, fun session hm => ?_⟩
    rcases List.mem_append.mp hm with hm | hm
    · exact ih.2 session hm
    · rw [List.mem_singleton.mp hm]
      exact ⟨hu, Lifecycle.clean_of_steps hstep⟩

theorem lifecycles_restore : (∀ os, (mockProvider os).provider.Faithful) ∧
    ∀ {σ : Type} (P : Provider σ), P.Faithful → ∀ (w v : World σ) (sessions : List (Session σ)),
      Series P w sessions v → ∀ session ∈ sessions,
        session.after.host = w.host ∧ session.Clean P :=
  ⟨mockProvider_faithful, fun _ hf _ _ _ h => (h.host hf).2⟩

theorem lifecycles_restore_mock : ∃ sessions v,
    Series (mockProvider "linux").provider ⟨⟨true, [], []⟩, 7⟩ sessions v ∧
      sessions.map Session.request = [mockRequest 42, mockRequest 101] ∧
      ∀ session ∈ sessions,
        session.after.host = 7 ∧ session.Clean (mockProvider "linux").provider := by
  obtain ⟨tr₁, r₁, v₁, h₁⟩ : ∃ tr r v, Steps (sem (mockProvider "linux").provider)
      ((mockProvider "linux").provider.plane.runLifecycle (mockRequest 42)).run
      ⟨⟨true, [], []⟩, 7⟩ tr (.done r) v :=
    ⟨_, _, _, Program.advance_done (n := 20) (mockProvider "linux").answer_sem rfl⟩
  have h₂ : Steps (sem (mockProvider "linux").provider)
      ((mockProvider "linux").provider.plane.runLifecycle (mockRequest 101)).run v₁ [] (.done _) v₁ :=
    .start
  have hs := Series.call (Series.call .start h₁) h₂
  exact ⟨_, _, hs, rfl,
    lifecycles_restore.2 _ (mockProvider_faithful "linux") _ _ _ hs⟩

end FpsMaxxing
