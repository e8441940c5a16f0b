import FpsMaxxing.Safety.CrashRecovery

/-! A lifecycle writes its terminal row only when nothing of what it applied is left: until the
rollback the experiment stays open. -/

namespace FpsMaxxing

open Effects Serde

variable {σ : Type}

def Progress.Unended (m : Progress) : Prop :=
  ∀ record ∈ m.written, record.stage.terminal = false

lemma Progress.Unended.append {m m' : Progress} {records : List Record} (h : m.Unended)
    (hw : m'.written = m.written ++ records)
    (hr : ∀ record ∈ records, record.stage.terminal = false) : m'.Unended := by
  intro record hm
  rw [hw, List.mem_append] at hm
  exact hm.elim (h record) (hr record)

namespace Lifecycle

def Undone (m : Progress) : Prop := m.applied = true → m.rollbacks ≠ []

def closesLate (m : Progress) : Op → Prop
  | .provider (.apply _) => m.Unended
  | .journal (.insert records) =>
    (∀ record ∈ records, record.stage.terminal = false) ∨ Undone m
  | _ => True

def closing : Monitor Calls Progress := ⟨Progress.next, closesLate⟩

structure Goes (m m' : Progress) : Prop where
  applied : m'.applied = m.applied
  rollbacks : m'.rollbacks = m.rollbacks
  unended : m.Unended → m'.Unended

variable {P : Provider σ} {request : ChangeRequest} {experiment : ℤ} {snapshot : StateSnapshot}
  {m m' : Progress} {stage : Stage} {payload : Value}

lemma Goes.refl (m : Progress) : Goes m m := ⟨rfl, rfl, id⟩

lemma Goes.trans {m'' : Progress} (h : Goes m m') (h' : Goes m' m'') : Goes m m'' :=
  ⟨h'.applied.trans h.applied, h'.rollbacks.trans h.rollbacks, h'.unended ∘ h.unended⟩

lemma recordStage_goes (hs : stage.terminal = false) {post : Except StageFailure Unit → Progress → Prop}
    (hp : ∀ r m', Goes m m' → post r m') :
    (P.plane.recordStage experiment stage payload).run.Obeys closing m post := by
  rw [ControlPlane.recordStage, Program.obeys_mapErr]
  refine ⟨.inl fun record hm => ?_, fun r => hp _ _ ?_⟩
  · rw [List.mem_singleton.mp hm]
    exact hs
  · obtain ⟨_, ha, hr⟩ := m.next_journal (.insert [⟨experiment, stage, P.manifest.id, payload⟩]) r
    refine ⟨ha, hr, fun hu => hu.append (Progress.next_written _ _ _) ?_⟩
    rcases r with e | u
    · exact List.forall_mem_nil _
    · intro record hm
      rw [List.mem_singleton.mp hm]
      exact hs

lemma observeApplied_goes {post : Except StageFailure Bool → Progress → Prop}
    (hp : ∀ r m', Goes m m' → post r m') :
    (P.plane.observeApplied experiment request).run.Obeys closing m post := by
  rw [ControlPlane.observeApplied, Program.obeys_run_bind]
  apply recordStage_goes rfl
  rintro (e | u) m₁ h₁
  · exact hp _ _ h₁
  · dsimp only
    rw [Program.obeys_run_bind, ControlPlane.inStage, Program.obeys_mapErr, obeys_invoke]
    refine ⟨trivial, ?_⟩
    rintro (e | verified)
    · exact hp _ _ h₁
    · simp only [Except.mapError]
      rw [Program.obeys_run_bind]
      apply recordStage_goes rfl
      rintro (e | u) m₂ h₂
      · exact hp _ _ (h₁.trans h₂)
      · cases verified <;> exact hp _ _ (h₁.trans h₂)

lemma restore_rolls {post : Except StageFailure Unit → Progress → Prop}
    (hp : ∀ r m', m'.rollbacks ≠ [] → post r m') :
    (P.plane.restore experiment snapshot).run.Obeys closing m post := by
  rw [ControlPlane.restore, Program.obeys_run_bind, ControlPlane.inStage, Program.obeys_mapErr,
    obeys_invoke]
  refine ⟨trivial, fun r => ?_⟩
  have hn : (closing.next m (.provider (.rollback snapshot)) r).rollbacks ≠ [] :=
    List.append_ne_nil_of_right_ne_nil _ (List.cons_ne_nil _ _)
  generalize closing.next m (.provider (.rollback snapshot)) r = m₁ at hn ⊢
  rcases r with e | u
  · exact hp _ _ hn
  · simp only [Except.mapError]
    rw [Program.obeys_run_bind]
    apply recordStage_goes rfl
    rintro (e | u) m₂ h₂
    · exact hp _ _ (h₂.rollbacks ▸ hn)
    · dsimp only
      rw [Program.obeys_run_bind, ControlPlane.inStage, Program.obeys_mapErr, obeys_invoke]
      refine ⟨trivial, fun r => ?_⟩
      have hn₂ : (closing.next m₂ (.provider .snapshot) r).rollbacks ≠ [] := by
        rw [closing, Progress.next_rollbacks]
        exact List.append_ne_nil_of_left_ne_nil (h₂.rollbacks ▸ hn) _
      generalize closing.next m₂ (.provider .snapshot) r = m₃ at hn₂ ⊢
      rcases r with e | restored
      · exact hp _ _ hn₂
      · simp only [Except.mapError]
        rw [Program.obeys_run_bind]
        apply recordStage_goes rfl
        rintro (e | u) m₄ h₄
        · exact hp _ _ (h₄.rollbacks ▸ hn₂)
        · dsimp only
          split_ifs <;> exact hp _ _ (h₄.rollbacks ▸ hn₂)

lemma probe_closing (hu : m.Unended) {post : Except StageFailure Bool → Progress → Prop}
    (hp : ∀ r m', post r m') :
    (ExceptT.run do
      ControlPlane.inStage .apply (invoke (.apply request))
      P.plane.observeApplied experiment request).Obeys closing m post := by
  rw [Program.obeys_run_bind, ControlPlane.inStage, Program.obeys_mapErr, obeys_invoke]
  refine ⟨hu, ?_⟩
  rintro (e | u)
  · exact hp _ _
  · exact observeApplied_goes fun r m' _ => hp r m'

lemma runStages_closing (ha : m.applied = false) (hu : m.Unended)
    {post : Except StageFailure LifecycleResult → Progress → Prop}
    (hp : ∀ r m', Undone m' → post r m') :
    (P.plane.runStages experiment request snapshot).run.Obeys closing m post := by
  have hnone : ∀ r m', Goes m m' → post r m' := by
    intro r m' h
    refine hp r m' fun ha' => ?_
    rw [h.applied, ha] at ha'
    cases ha'
  rw [ControlPlane.runStages, Program.obeys_run_bind, ControlPlane.inStage, Program.obeys_mapErr,
    obeys_invoke]
  refine ⟨trivial, ?_⟩
  rintro (e | preview)
  · exact hnone _ _ (.refl m)
  simp only [Except.mapError]
  rw [Program.obeys_run_bind]
  apply recordStage_goes rfl
  rintro (e | u) m₁ h₁
  · exact hnone _ _ h₁
  dsimp only
  rw [Program.obeys_run_bind]
  apply recordStage_goes rfl
  rintro (e | u) m₂ h₂
  · exact hnone _ _ (h₁.trans h₂)
  dsimp only
  rw [Program.obeys_run_lift_bind]
  refine probe_closing ((h₁.trans h₂).unended hu) fun observed m₃ => ?_
  rw [Program.obeys_run_lift_bind]
  apply restore_rolls
  intro restored m₄ h₄
  cases restored <;> cases observed <;> exact hp _ _ fun _ => h₄

lemma record_late (h : Undone m) {post : Except SqlError Unit → Progress → Prop}
    (hp : ∀ r m', Undone m' → post r m') :
    (P.plane.record experiment stage payload).Obeys closing m post := by
  refine ⟨.inr h, fun r => hp r _ fun ha => ?_⟩
  obtain ⟨_, ha', hr⟩ := m.next_journal (.insert [⟨experiment, stage, P.manifest.id, payload⟩]) r
  exact hr ▸ h (ha' ▸ ha)

lemma runLifecycle_closing :
    (P.plane.runLifecycle request).run.Obeys closing .start fun _ m => Undone m := by
  rw [ControlPlane.runLifecycle, Program.obeys_run_bind, ExceptT.run_mk]
  cases P.plane.validate request with
  | error e =>
    intro h
    cases h
  | ok u =>
    simp only [Program.pure_eq, Program.obeys_done]
    rw [Program.obeys_run_bind, Program.obeys_mapErr, obeys_invoke]
    refine ⟨trivial, ?_⟩
    rintro (e | snapshot)
    · intro h
      cases h
    simp only [Except.mapError]
    rw [Program.obeys_run_bind, Program.obeys_mapErr, ControlPlane.beginExperiment, obeys_execute]
    refine ⟨trivial, ?_⟩
    rintro (e | experiment)
    · intro h
      cases h
    simp only [Except.mapError]
    rw [Program.obeys_run_lift_bind]
    apply runStages_closing rfl
    · intro record hm
      rw [List.mem_singleton.mp hm]
      rfl
    rintro (failure | result) m' hm
    · rw [ControlPlane.recordOutcome, Program.obeys_run_lift_bind]
      exact record_late hm fun _ _ h => h
    · rw [ControlPlane.recordOutcome, Program.obeys_run_bind, Program.obeys_mapErr]
      apply record_late hm
      rintro (e | u) m'' h <;> exact h

lemma unended_next {o : Op} {r : o.Res} (ho : closesLate m o)
    (h : m.applied = true → m.rollbacks = [] → m.Unended) :
    (m.next o r).applied = true → (m.next o r).rollbacks = [] → (m.next o r).Unended := by
  intro ha hr
  rw [Progress.next_applied, Bool.or_eq_true] at ha
  rw [Progress.next_rollbacks, List.append_eq_nil_iff] at hr
  have hkeep : (∀ record ∈ committed o r, record.stage.terminal = false) → m.Unended →
      (m.next o r).Unended := fun hc hu => hu.append (Progress.next_written m o r) hc
  match o, ho, ha, hr with
  | .provider (.apply asked), ho, _, _ => exact hkeep (List.forall_mem_nil _) ho
  | .provider (.rollback asked), _, _, hr => cases hr.2
  | .provider .snapshot, _, ha, hr | .provider (.preview _), _, ha, hr
  | .provider (.verify _), _, ha, hr =>
    exact hkeep (List.forall_mem_nil _) (h (by simpa [Op.isApply] using ha) hr.1)
  | .journal statement, ho, ha, hr =>
    have hm : m.applied = true := by simpa [Op.isApply] using ha
    refine hkeep (fun record hmem => ?_) (h hm hr.1)
    obtain ⟨_, _, _, _, rfl⟩ | ⟨records, hst, hc⟩ := mem_committed hmem
    · rfl
    · cases hst
      rw [hc] at hmem
      exact ho.elim (fun hn => hn record hmem) fun hn => absurd hr.1 (hn hm)

variable {w v : World σ} {tr : Trace σ}
  {q : Program Calls (Except ControlPlaneError LifecycleResult)}

lemma unended (hs : Steps (sem P) (P.plane.runLifecycle request).run w tr q v)
    (h : (Progress.start.run tr).applied = true ∧ (Progress.start.run tr).rollbacks = [] ∨
      ∃ asked, q.nextOp = some (.provider (.apply asked))) : (Progress.start.run tr).Unended := by
  rcases h with ⟨ha, hr⟩ | ⟨asked, hn⟩
  · have hi := hs.invariant (I := fun m _ => m.applied = true → m.rollbacks = [] → m.Unended)
      runLifecycle_closing nofun fun m w o r w' hm ho _ => unended_next ho hm
    exact hi ha hr
  · obtain ⟨next, rfl⟩ := Program.eq_call_of_nextOp hn
    exact (hs.obeys runLifecycle_closing).1

end Lifecycle

lemma Progress.run_written (m : Progress) (tr : Trace σ) :
    (m.run tr).written = m.written ++ tr.committed := by
  induction tr generalizing m with
  | nil => exact (List.append_nil _).symm
  | cons entry tr ih =>
    rw [run_cons, ih, next_written, List.append_assoc]
    rfl

lemma Reachable.leaks {s : Host σ} (h : Reachable s) {P : Provider σ} {request : ChangeRequest}
    {tr : Trace σ} {q : Program Calls (Except ControlPlaneError LifecycleResult)} {v : World σ}
    (hs : Steps (sem P) (P.plane.runLifecycle request).run s.world tr q v)
    (hu : (Progress.start.run tr).applied = true ∧ (Progress.start.run tr).rollbacks = [] ∨
      ∃ asked, q.nextOp = some (.provider (.apply asked))) :
    ∃ e, v.db.Leaks P.manifest.id e := by
  have hentered : Entered tr q := by
    refine hu.imp_left fun ha => ?_
    rw [← ha.1, Progress.run_applied]
    rfl
  obtain ⟨e, he, hi⟩ := intent_of_entered hs hentered
  have hwritten : (Progress.start.run tr).written = tr.committed := Progress.run_written _ tr
  have hopen := h.unclosed hs (hwritten ▸ Lifecycle.unended hs hu) he
  refine ⟨e, ⟨.intent P request e, ?_, rfl, rfl, rfl⟩, hopen⟩
  rw [steps_records hs]
  exact List.mem_append_right _ (hwritten ▸ hi)

end FpsMaxxing
