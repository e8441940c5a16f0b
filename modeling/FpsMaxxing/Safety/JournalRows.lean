import FpsMaxxing.Host.LifecycleEffect

/-! The rows of one lifecycle among those of any other processes on the journal. -/

namespace FpsMaxxing

open Effects Serde

variable {σ : Type}

def Effects.Process.Undisturbed (p : Proc σ) : Prop :=
  ∀ entry ∈ p.trace, JournalWorks entry.op entry.res

instance (p : Proc σ) : Decidable p.Undisturbed :=
  inferInstanceAs (Decidable (∀ entry ∈ p.trace, JournalWorks entry.op entry.res))

lemma Effects.Process.Undisturbed.lost {p : Proc σ} (h : p.Undisturbed) :
    p.progress.lost = false :=
  Progress.run_lost.mpr ⟨rfl, h⟩

def Stage.canonical (terminal : Stage) : List Stage :=
  [.snapshot, .preview, .applyIntent, .apply, .verify, .rollback, .rollbackVerify, terminal]

lemma Stage.canonical_of_order {stages : List Stage} {stage : Stage}
    (h : stages.Sublist (stage.before ++ [stage])) (hw : .watchdogRestore ∉ stages) :
    stages.Sublist (canonical .completed) ∨ stages.Sublist (canonical .failed) := by
  cases stage with
  | failed => exact .inr h
  | watchdogRestore =>
    cases stages with
    | nil => exact .inl (List.nil_sublist _)
    | cons a l =>
      have ha : a = .watchdogRestore := List.mem_singleton.mp (h.subset List.mem_cons_self)
      exact absurd List.mem_cons_self (ha ▸ hw)
  | _ => exact .inl (h.trans (by decide))

structure WellFormed (s : Host σ) (i : ℕ) (p : Proc σ) (P : Provider σ)
    (request : ChangeRequest) : Prop where
  silent : p.progress.experiment = none → p.progress.written = []
  oneId : ∀ e, p.progress.experiment = some e →
    ∀ record ∈ p.progress.written, record.experimentId = e
  ownId : ∀ e, p.progress.experiment = some e → ∀ j q, s.procs j = some q →
    q.progress.experiment = some e → j = i
  newId : ∀ e, p.progress.experiment = some e → ∃ earlier first later,
    s.world.db.records = earlier ++ first :: later ∧ p.progress.written.head? = some first ∧
      ∀ record ∈ earlier, record.experimentId < e
  inJournal : ∀ e, p.progress.experiment = some e → s.world.db.written e = p.progress.written
  first : ∀ e, p.progress.experiment = some e → p.progress.stages.head? = some .snapshot
  order : p.progress.stages.Sublist (Stage.canonical .completed) ∨
    p.progress.stages.Sublist (Stage.canonical .failed)
  intent : ∀ asked, p.residual.nextOp = some (.provider (.apply asked)) → asked = request ∧
    ∃ e, p.progress.experiment = some e ∧ .intent P request e ∈ s.world.db.records
  ok : ∀ r, p.residual = .done (.lifecycle r) → ((∃ result, r = .ok result) ↔
    p.progress.stages = Stage.canonical .completed ∧
      (∀ record ∈ p.progress.written, record.stage = .verify →
        record.payload.get "verified" = some (.bool true)) ∧
      ∀ record ∈ p.progress.written, record.stage = .rollbackVerify →
        record.payload.get "restored" = some (.bool true))
  terminal : ∀ r e, p.residual = .done (.lifecycle r) → p.progress.experiment = some e →
    p.Undisturbed → (p.progress.stages.filter Stage.terminal).length = 1

namespace Ledger

variable {s : Host σ} {i : ℕ} {p : Proc σ} {P : Provider σ} {request : ChangeRequest}

lemma finished (hh : (contract σ).Honest s) (hp : s.procs i = some p)
    (ht : p.task = .lifecycle P request) {r : Except ControlPlaneError LifecycleResult}
    (hr : p.residual = .done (.lifecycle r)) : Lifecycle.Finished P request r p.progress := by
  have hpost := hh.post hp hr
  rw [ht] at hpost
  obtain ⟨r', hr', hf⟩ := hpost
  cases hr'
  exact hf

lemma stages_order (h : Ledger s) (hp : s.procs i = some p) (ht : p.task = .lifecycle P request) :
    p.progress.stages.Sublist (Stage.canonical .completed) ∨
      p.progress.stages.Sublist (Stage.canonical .failed) := by
  have hord := h.orderly i p hp
  rw [ht] at hord
  have hord : Lifecycle.Orderly P request p.progress := hord
  obtain ⟨stage, hs⟩ := hord.order
  refine Stage.canonical_of_order hs fun hm => ?_
  obtain ⟨record, hr, hst⟩ := List.mem_map.mp hm
  cases he : p.progress.experiment with
  | none => simp [(hord.idle he).1] at hr
  | some e =>
    obtain ⟨snapshot, rest, _, _, hw, ho⟩ := hord.opened e he
    rw [hw, List.mem_cons] at hr
    rcases hr with rfl | hr
    · cases hst
    · exact (ho record hr).2.2.1.2 hst

lemma written_in_journal (h : Ledger s) {e : ℤ} (ho : s.Owns i p e) {record : Record}
    (hr : record ∈ p.progress.written) : record ∈ s.world.db.records ∧ record.experimentId = e := by
  rw [← h.recorded e i p ho, Database.written, List.mem_filter] at hr
  simp only [Bool.and_eq_true, decide_eq_true_eq] at hr
  exact ⟨hr.1, hr.2.1⟩

end Ledger

namespace Lifecycle

variable {P : Provider σ} {request : ChangeRequest} {m : Progress}
  {r : Except ControlPlaneError LifecycleResult}

lemma Finished.ok_iff (h : Finished P request r m) : (∃ result, r = .ok result) ↔
    m.stages = Stage.canonical .completed ∧
      (∀ record ∈ m.written, record.stage = .verify →
        record.payload.get "verified" = some (.bool true)) ∧
      ∀ record ∈ m.written, record.stage = .rollbackVerify →
        record.payload.get "restored" = some (.bool true) := by
  constructor
  · rintro ⟨result, rfl⟩
    obtain ⟨e, snapshot, hc⟩ | ⟨⟨e, he⟩, _⟩ := h
    · obtain ⟨_, _, _, preview, _, hw⟩ := hc.ok result rfl
      rw [Progress.stages, hw]
      refine ⟨rfl, ?_, ?_⟩ <;>
      · intro record hm hs
        simp only [succeeded, staged, probed, rolledBack, entry, Record.intent, List.cons_append,
          List.nil_append, List.mem_cons, List.not_mem_nil, or_false] at hm
        rcases hm with rfl | rfl | rfl | rfl | rfl | rfl | rfl | rfl <;> first | rfl | cases hs
    · cases he
  · rintro ⟨hs, _⟩
    cases r with
    | ok result => exact ⟨result, rfl⟩
    | error error =>
      obtain ⟨e, snapshot, hc⟩ | ⟨_, _, _, _, hw⟩ := h
      · exact absurd (hs ▸ (by decide : Stage.completed ∈ Stage.canonical .completed))
          (hc.failed error rfl).1
      · rw [Progress.stages, hw] at hs
        cases hs

lemma Finished.terminal_count (h : Finished P request r m) {e : ℤ} (he : m.experiment = some e)
    (hl : m.lost = false)
    (ho : m.stages.Sublist (Stage.canonical .completed) ∨
      m.stages.Sublist (Stage.canonical .failed)) :
    (m.stages.filter Stage.terminal).length = 1 := by
  have hle : (m.stages.filter Stage.terminal).length ≤ 1 := by
    rcases ho with ho | ho <;> exact (ho.filter _).length_le
  have hpos : ∃ stage ∈ m.stages, stage.terminal = true := by
    obtain ⟨e', snapshot, hc⟩ | ⟨_, hn, _⟩ := h
    · cases r with
      | ok result =>
        obtain ⟨_, _, _, preview, _, hw⟩ := hc.ok result rfl
        refine ⟨.completed, ?_, rfl⟩
        rw [Progress.stages, hw]
        show Stage.completed ∈ Stage.canonical .completed
        decide
      | error error =>
        obtain ⟨failure, body, _, _, hw⟩ := (hc.failed error rfl).2 hl
        exact ⟨.failed, by simp [Progress.stages, hw, entry], rfl⟩
    · simp [hn] at he
  obtain ⟨stage, hm, ht⟩ := hpos
  have := List.length_pos_of_mem (List.mem_filter.mpr ⟨hm, ht⟩)
  omega

end Lifecycle

theorem lifecycle_wellFormed {s : Host σ} (h : Reachable s) {i : ℕ} {p : Proc σ} {P : Provider σ}
    {request : ChangeRequest} (hp : s.procs i = some p) (ht : p.task = .lifecycle P request) :
    WellFormed s i p P request := by
  have hl := h.ledger
  have hord : Lifecycle.Orderly P request p.progress := by
    have ho := hl.orderly i p hp
    rwa [ht] at ho
  refine ⟨fun hn => (hord.idle hn).1, ?_, ?_, ?_, ?_, ?_, hl.stages_order hp ht, ?_, ?_, ?_⟩
  · exact fun e he record hr => (hl.written_in_journal ⟨hp, he⟩ hr).2
  · exact fun e he j q hq he' => hl.unique e j q i p ⟨hq, he'⟩ ⟨hp, he⟩
  · exact fun e he => hl.allocated e i p ⟨hp, he⟩
  · exact fun e he => hl.recorded e i p ⟨hp, he⟩
  · intro e he
    obtain ⟨snapshot, rest, _, _, hw, _⟩ := hord.opened e he
    rw [Progress.stages, hw]
    rfl
  · intro asked hn
    obtain ⟨next, hres⟩ := Program.eq_call_of_nextOp hn
    have ha := h.honest.allows hp hres
    rw [ht] at ha
    obtain ⟨hasked, _, _, e, he, hm⟩ := ha
    exact ⟨hasked, e, he, (hl.written_in_journal ⟨hp, he⟩ hm).1⟩
  · exact fun r hr => (Ledger.finished h.honest hp ht hr).ok_iff
  · exact fun r e hr he hu =>
      (Ledger.finished h.honest hp ht hr).terminal_count he hu.lost (hl.stages_order hp ht)

def interleaved : Host UInt64 :=
  (mockProvider "linux").play (Pool.init (World.initial 7))
    ((mockProvider "linux").opened ++
      [.spawn 1 (.lifecycle (mockProvider "linux").provider (mockRequest 42)), .go 1 6,
        .spawn 2 (.lifecycle (mockProvider "linux").provider (mockRequest 9)), .go 2 4,
        .go 1 20, .go 2 20])

lemma interleaved_reachable : Reachable interleaved :=
  Device.play_reachable 7 (by simp [Device.opened, Device.Plays, Task.provider])

theorem interleaved_wellFormed :
    (∃ p, interleaved.procs 1 = some p ∧
      WellFormed interleaved 1 p (mockProvider "linux").provider (mockRequest 42)) ∧
    ∃ p, interleaved.procs 2 = some p ∧
      WellFormed interleaved 2 p (mockProvider "linux").provider (mockRequest 9) :=
  ⟨⟨_, rfl, lifecycle_wellFormed interleaved_reachable rfl rfl⟩,
    ⟨_, rfl, lifecycle_wellFormed interleaved_reachable rfl rfl⟩⟩

end FpsMaxxing
