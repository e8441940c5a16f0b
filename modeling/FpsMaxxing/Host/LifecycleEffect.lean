import FpsMaxxing.Host.Scan

/-! What the calls of a lifecycle do to the journal and to the host. -/

namespace FpsMaxxing

open Effects Serde

variable {σ : Type}

abbrev Trace (σ : Type) := List (Entry Calls (World σ))

def Trace.committed (tr : Trace σ) : List Record :=
  tr.flatMap fun entry => FpsMaxxing.committed entry.op entry.res

def Op.isApply : Op → Bool
  | .provider (.apply _) => true
  | _ => false

def Op.rollback? : Op → Option StateSnapshot
  | .provider (.rollback snapshot) => some snapshot
  | _ => none

namespace Progress

def run (m : Progress) (tr : Trace σ) : Progress :=
  tr.foldl (fun m entry => m.next entry.op entry.res) m

variable {m : Progress} {tr : Trace σ}

lemma run_cons (m : Progress) (entry : Entry Calls (World σ)) (tr : Trace σ) :
    m.run (entry :: tr) = (m.next entry.op entry.res).run tr := rfl

lemma next_applied (m : Progress) (o : Op) (r : o.Res) :
    (m.next o r).applied = (m.applied || o.isApply) := by
  match o, r with
  | .provider .snapshot, .ok s =>
    rw [next_snapshot_ok]
    split_ifs <;> simp [Op.isApply]
  | .provider .snapshot, .error _ | .provider (.preview _), _ | .provider (.verify _), _
  | .provider (.rollback _), _ => simp [Op.isApply]
  | .provider (.apply _), _ => simp [Op.isApply]
  | .journal statement, .error _ => simp [Op.isApply]
  | .journal statement, .ok _ =>
    cases statement <;> exact (Bool.or_false _).symm

lemma run_applied : (m.run tr).applied = (m.applied || tr.any fun entry => entry.op.isApply) := by
  induction tr generalizing m with
  | nil => simp [run]
  | cons entry tr ih =>
    rw [run_cons, ih, next_applied, Bool.or_assoc, List.any_cons]

lemma next_rollbacks (m : Progress) (o : Op) (r : o.Res) :
    (m.next o r).rollbacks = m.rollbacks ++ o.rollback?.toList := by
  match o, r with
  | .provider .snapshot, .ok s =>
    rw [next_snapshot_ok]
    split_ifs <;> simp [Op.rollback?]
  | .provider .snapshot, .error _ | .provider (.preview _), _ | .provider (.verify _), _
  | .provider (.rollback _), _ | .provider (.apply _), _ => simp [Op.rollback?]
  | .journal statement, .error _ => simp [Op.rollback?]
  | .journal statement, .ok _ =>
    cases statement <;> exact (List.append_nil _).symm

lemma run_rollbacks :
    (m.run tr).rollbacks = m.rollbacks ++ tr.filterMap fun entry => entry.op.rollback? := by
  induction tr generalizing m with
  | nil => simp [run]
  | cons entry tr ih =>
    rw [run_cons, ih, next_rollbacks, List.append_assoc, List.filterMap_cons]
    cases hr : Op.rollback? entry.op <;> rfl

lemma next_lost (m : Progress) (o : Op) (r : o.Res) :
    (m.next o r).lost = false ↔ m.lost = false ∧ JournalWorks o r := by
  match o, r with
  | .provider .snapshot, .ok s =>
    rw [next_snapshot_ok]
    split_ifs <;> simp [JournalWorks]
  | .provider .snapshot, .error _ | .provider (.preview _), _ | .provider (.apply _), _
  | .provider (.verify _), _ | .provider (.rollback _), _ => simp [JournalWorks]
  | .journal statement, .error _ => simp [JournalWorks]
  | .journal statement, .ok _ =>
    cases statement <;> exact ⟨fun h => ⟨h, _, rfl⟩, And.left⟩

lemma run_lost : (m.run tr).lost = false ↔
    m.lost = false ∧ ∀ entry ∈ tr, JournalWorks entry.op entry.res := by
  induction tr generalizing m with
  | nil => simp [run]
  | cons entry tr ih => rw [run_cons, ih, next_lost, List.forall_mem_cons, and_assoc]

end Progress

lemma steps_records {P : Provider σ} {α : Type} {p q : Program Calls α} {w v : World σ}
    {tr : Trace σ} (h : Steps (sem P) p w tr q v) :
    v.db.records = w.db.records ++ tr.committed := by
  induction h with
  | start => simp [Trace.committed]
  | @call tr o next v r u _ hs ih =>
    rw [sem_records hs, ih]
    simp [Trace.committed]

lemma sem_journal_host {P : Provider σ} {w w' : World σ} {statement : Statement}
    {r : Except SqlError statement.Res} (h : sem P w (.journal statement) r w') :
    w'.host = w.host := by
  obtain ⟨e, _, rfl⟩ | ⟨now, b, db, _, _, rfl⟩ := h <;> rfl

lemma Progress.next_journal (m : Progress) (statement : Statement)
    (r : Except SqlError statement.Res) :
    (m.next (.journal statement) r).captured = m.captured ∧
      (m.next (.journal statement) r).applied = m.applied ∧
      (m.next (.journal statement) r).rollbacks = m.rollbacks := by
  cases r with
  | error e => cases statement <;> exact ⟨rfl, rfl, rfl⟩
  | ok b => cases statement <;> exact ⟨rfl, rfl, rfl⟩

namespace Lifecycle

structure Baseline (P : Provider σ) (request : ChangeRequest) (x : σ) (m : Progress)
    (w : World σ) : Prop where
  orderly : Orderly P request m
  captured : ∀ snapshot, m.captured = some snapshot → P.snapshot x (.ok snapshot)
  untouched : m.applied = false → w.host = x
  restored : P.Faithful → m.rollbacks ≠ [] → w.host = x

variable {P : Provider σ} {request : ChangeRequest} {x : σ} {m : Progress} {w w' : World σ}

lemma Baseline.next {o : Op} {r : o.Res} (h : Baseline P request x m w)
    (ha : m.lifecycleAllows P request o) (hs : sem P w o r w') :
    Baseline P request x (m.next o r) w' := by
  have hord := h.orderly.next ha r
  match o, r, ha, hs, hord with
  | .provider .snapshot, .ok s, ha, ⟨⟨hsn, hy⟩, _⟩, hord =>
    rw [Progress.next_snapshot_ok] at hord ⊢
    split_ifs at hord ⊢ with hn
    · have he : m.experiment = none := (ha.resolve_right (not_not_intro hn)).2
      have hx := h.untouched (h.orderly.idle he).2
      refine ⟨hord, ?_, fun ha' => hy.trans (h.untouched ha'), fun _ hr => absurd hn hr⟩
      rintro _ ⟨⟩
      rwa [← hx]
    · exact ⟨hord, h.captured, fun ha' => hy.trans (h.untouched ha'),
        fun hf hr => hy.trans (h.restored hf hr)⟩
  | .provider .snapshot, .error e, ha, ⟨⟨_, hy⟩, _⟩, hord
  | .provider (.preview _), r, ha, ⟨⟨_, hy⟩, _⟩, hord
  | .provider (.verify _), r, ha, ⟨⟨_, hy⟩, _⟩, hord =>
    exact ⟨hord, h.captured, fun ha' => hy.trans (h.untouched ha'),
      fun hf hr => hy.trans (h.restored hf hr)⟩
  | .provider (.apply asked), r, ⟨_, _, hn, _⟩, _, hord =>
    exact ⟨hord, h.captured, fun ha' => (by cases ha'), fun _ hr => absurd hn hr⟩
  | .provider (.rollback s), r, ⟨hap, _, hc⟩, ⟨hrb, _⟩, hord =>
    refine ⟨hord, h.captured, fun ha' => ?_, fun hf _ => (hf x s (h.captured s hc) _ _ _ hrb).2⟩
    exact absurd (hap.symm.trans ha') (by simp)
  | .journal statement, r, ha, hs, hord =>
    obtain ⟨hc, hap, hrb⟩ := m.next_journal statement r
    have hy := sem_journal_host hs
    refine ⟨hord, ?_, ?_, ?_⟩
    · rw [hc]
      exact h.captured
    · rw [hap, hy]
      exact h.untouched
    · rw [hrb, hy]
      exact h.restored

lemma baseline {q : Program Calls (Except ControlPlaneError LifecycleResult)} {v : World σ}
    {tr : Trace σ} (h : Steps (sem P) (P.plane.runLifecycle request).run w tr q v) :
    Baseline P request w.host (Progress.start.run tr) v := by
  refine h.invariant (I := Baseline P request w.host) runLifecycle_obeys ?_
    fun m w o r w' hb ha hs => hb.next ha hs
  exact ⟨orderly_start, by simp [Progress.start], fun _ => rfl, fun _ hr => absurd rfl hr⟩

end Lifecycle

end FpsMaxxing
