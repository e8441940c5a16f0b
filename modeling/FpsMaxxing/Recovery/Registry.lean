import FpsMaxxing.Apps.Refinement
import FpsMaxxing.Effects.Registry
import FpsMaxxing.Safety.Terminal

/-! The journal as a registry of experiments. -/

namespace FpsMaxxing

open Effects Effects.Registry Serde

variable {σ : Type}

namespace Stage

def marks : Stage → Bool
  | snapshot | applyIntent | completed | failed => true
  | _ => false

end Stage

namespace Database

def marked (db : Database) (stage : Stage) (experiment : ℤ) : Bool :=
  db.records.any fun record => record.experimentId = experiment && record.stage = stage

def status (db : Database) (experiment : ℤ) : Status :=
  if db.closed experiment then .closed
  else if db.marked .applyIntent experiment then .intended
  else if db.marked .snapshot experiment then .captured
  else .absent

variable {db db' : Database} {records : List Record} {e : ℤ} {stage : Stage}

lemma marked_iff : db.marked stage e = true ↔
    ∃ record ∈ db.records, record.experimentId = e ∧ record.stage = stage := by
  simp [marked]

lemma closed_append (hw : db'.records = db.records ++ records) (e : ℤ) : db'.closed e =
    (db.closed e || records.any fun record => record.experimentId = e && record.stage.terminal) := by
  rw [Bool.eq_iff_iff, Bool.or_eq_true, closed_iff, closed_iff, hw]
  simp [List.mem_append, or_and_right, exists_or]

lemma marked_append (hw : db'.records = db.records ++ records) (stage : Stage) (e : ℤ) :
    db'.marked stage e = (db.marked stage e ||
      records.any fun record => record.experimentId = e && record.stage = stage) := by
  rw [marked, marked, hw, List.any_append]

lemma status_append (hw : db'.records = db.records ++ records)
    (hn : ∀ record ∈ records, record.experimentId = e → record.stage.marks = false) :
    db'.status e = db.status e := by
  have hnone : ∀ p : Stage → Bool, (∀ stage, p stage = true → stage.marks = true) →
      (records.any fun record => record.experimentId = e && p record.stage) = false := by
    intro p hp
    rw [List.any_eq_false]
    intro record hm ht
    obtain ⟨he, ht⟩ := Bool.and_eq_true_iff.mp ht
    have hmarks := hn record hm (of_decide_eq_true he)
    rw [hp _ ht] at hmarks
    cases hmarks
  have hclosed := closed_append hw e
  have hintent := marked_append hw .applyIntent e
  have hsnapshot := marked_append hw .snapshot e
  rw [hnone Stage.terminal (by intro stage; cases stage <;> decide), Bool.or_false] at hclosed
  rw [hnone (fun stage => decide (stage = .applyIntent)) (by simp [Stage.marks]),
    Bool.or_false] at hintent
  rw [hnone (fun stage => decide (stage = .snapshot)) (by simp [Stage.marks]),
    Bool.or_false] at hsnapshot
  rw [status, status, hclosed, hintent, hsnapshot]

lemma status_update (hw : db'.records = db.records ++ records)
    (he : ∀ record ∈ records, record.experimentId = e) :
    db'.status = Function.update db.status e (db'.status e) := by
  funext x
  by_cases hx : x = e
  · rw [hx, Function.update_self]
  · rw [Function.update_of_ne hx]
    apply status_append hw
    exact fun record hm hxe => absurd (hxe.symm.trans (he record hm)) hx

lemma marked_mono (hw : db'.records = db.records ++ records) (h : db.marked stage e = true) :
    db'.marked stage e = true := by
  rw [marked_append hw, h, Bool.true_or]

lemma of_absent (h : db.status e = .absent) : db.closed e = false ∧
    db.marked .applyIntent e = false ∧ db.marked .snapshot e = false := by
  rw [status] at h
  split_ifs at h with hc hi hs
  exact ⟨Bool.eq_false_of_not_eq_true hc, Bool.eq_false_of_not_eq_true hi,
    Bool.eq_false_of_not_eq_true hs⟩

lemma step_capture {record : Record} (hw : db'.records = db.records ++ [record])
    (hs : record.stage = .snapshot)
    (hn : ∀ other ∈ db.records, other.experimentId ≠ record.experimentId) :
    Step db.status db'.status := by
  have hnone : ∀ stage, db.marked stage record.experimentId = false := by
    intro stage
    rw [← Bool.not_eq_true, marked_iff]
    rintro ⟨other, hm, he, _⟩
    exact hn other hm he
  have hopen : db.closed record.experimentId = false := by
    rw [← Bool.not_eq_true, closed_iff]
    rintro ⟨other, hm, he, _⟩
    exact hn other hm he
  have hstatus : db'.status record.experimentId = .captured := by
    rw [status, closed_append hw, marked_append hw, marked_append hw, hopen, hnone, hnone]
    simp [hs, Stage.terminal]
  rw [status_update hw fun _ hm => congrArg _ (List.mem_singleton.mp hm), hstatus]
  apply Step.capture
  rw [status, hopen, hnone, hnone]
  rfl

lemma step_intend {record : Record} (hw : db'.records = db.records ++ [record])
    (hs : record.stage = .applyIntent) (hc : db.status record.experimentId = .captured) :
    Step db.status db'.status := by
  have hopen : db.closed record.experimentId = false := by
    by_contra h
    rw [status, if_pos (Bool.not_eq_false _ ▸ h)] at hc
    cases hc
  have hstatus : db'.status record.experimentId = .intended := by
    rw [status, closed_append hw, marked_append hw, marked_append hw, hopen]
    simp [hs, Stage.terminal]
  rw [status_update hw fun _ hm => congrArg _ (List.mem_singleton.mp hm), hstatus]
  exact .intend hc

lemma run_close (hw : db'.records = db.records ++ records)
    (he : ∀ record ∈ records, record.experimentId = e)
    (ht : ∃ record ∈ records, record.stage.terminal = true) (hn : db.status e ≠ .absent) :
    Run db.status db'.status := by
  obtain ⟨record, hm, ht⟩ := ht
  have hclosed : db'.status e = .closed := by
    rw [status, if_pos (closed_iff.mpr ⟨record, hw ▸ List.mem_append_right _ hm, he record hm, ht⟩)]
  rw [status_update hw he, hclosed]
  cases hst : db.status e with
  | absent => exact absurd hst hn
  | captured => exact .single (.close (.inl hst))
  | intended => exact .single (.close (.inr hst))
  | closed =>
    rw [← hst, Function.update_eq_self]

end Database

structure Vouched (s : Host σ) : Prop where
  listed : ∀ i p, s.procs i = some p → ∀ row ∈ p.progress.listed,
    s.world.db.marked .applyIntent row.1 = true
  written : ∀ record ∈ s.world.db.records, record.byWatchdog = true →
    s.world.db.marked .applyIntent record.experimentId = true

namespace Vouched

variable {s s' : Host σ} {i : ℕ} {p : Proc σ} {w : World σ} {o : Op} {r : o.Res}

lemma init (w : World σ) (hw : w.db.records = []) : Vouched (Pool.init w : Host σ) where
  listed i p hp := by simp [Pool.init] at hp
  written record hm := by simp [Pool.init, hw] at hm

lemma same (h : Vouched s) {q : Proc σ} (hw : w.db.records = s.world.db.records)
    (hq : ∀ row ∈ q.progress.listed, s.world.db.marked .applyIntent row.1 = true) :
    Vouched (s.set i q w) := by
  have hmarked : ∀ e, w.db.marked .applyIntent e = s.world.db.marked .applyIntent e := by
    intro e
    rw [Database.marked, Database.marked, hw]
  refine ⟨Pool.forall_set (fun row hrow => ?_) fun j p' _ hp' row hrow => ?_, ?_⟩
  · exact (hmarked _).trans (hq row hrow)
  · exact (hmarked _).trans (h.listed j p' hp' row hrow)
  · intro record hm hb
    rw [Pool.set_world, hmarked]
    exact h.written record (hw ▸ hm) hb

lemma extend (h : Vouched s) {q : Proc σ} {records : List Record}
    (hw : w.db.records = s.world.db.records ++ records)
    (hq : ∀ row ∈ q.progress.listed, s.world.db.marked .applyIntent row.1 = true)
    (hr : ∀ record ∈ records, record.byWatchdog = true →
      s.world.db.marked .applyIntent record.experimentId = true) :
    Vouched (s.set i q w) := by
  refine ⟨Pool.forall_set (fun row hrow => ?_) fun j p' _ hp' row hrow => ?_, ?_⟩
  · exact Database.marked_mono hw (hq row hrow)
  · exact Database.marked_mono hw (h.listed j p' hp' row hrow)
  · intro record hm hb
    apply Database.marked_mono hw
    rw [Pool.set_world, hw] at hm
    exact (List.mem_append.mp hm).elim (h.written record · hb) (hr record · hb)

lemma current (h : Vouched s) (hp : s.procs i = some p) {policy : ReclaimPolicy}
    {y : UnclosedExperiment} (hc : p.progress.current policy = some y) :
    s.world.db.marked .applyIntent y.experimentId = true := by
  obtain ⟨row, hrow, _, hid⟩ := Progress.decoded (Progress.mem_of_current hc)
  rw [← hid]
  exact h.listed i p hp row hrow

lemma committed (h : Vouched s) (hl : Ledger s) (hp : s.procs i = some p)
    (ha : p.task.allows p.progress o) {record : Record} (hm : record ∈ FpsMaxxing.committed o r)
    (hb : record.byWatchdog = true) :
    s.world.db.marked .applyIntent record.experimentId = true := by
  obtain ⟨e, providerId, payload, _, rfl⟩ | ⟨records, rfl, hrec⟩ := mem_committed hm
  · cases hb
  · rw [hrec] at hm
    rcases hl.inserts hp ha with ⟨P, request, record', _, rfl, hr⟩ |
      ⟨P, policy, y, _, _, hc, _, hr⟩
    · rw [List.mem_singleton.mp hm, hr.own] at hb
      cases hb
    · rw [(hr record hm).1]
      exact h.current hp hc

lemma call (h : Vouched s) (hl : Ledger s) (hp : s.procs i = some p)
    (ha : p.task.allows p.progress o) (hs : sem p.task.provider s.world o r w)
    (next : Program Calls Outcome) :
    Vouched (s.set i (p.after s.world (o : Calls.Op) r next) w) := by
  apply h.extend (sem_records hs)
  · intro row hrow
    rw [progress_after] at hrow
    obtain hlisted | ⟨_, providerId, now, hlisted⟩ := listed_cases (m := p.progress) hs
    · exact h.listed i p hp row (hlisted ▸ hrow)
    · rw [hlisted] at hrow
      obtain ⟨⟨record, hm, hst, hid, _⟩, _⟩ :=
        (hl.unclosed_mem providerId now).mp (List.mem_map_of_mem (f := (·.1)) hrow)
      exact Database.marked_iff.mpr ⟨record, hm, hid, hst⟩
  · exact fun record hm hb => h.committed hl hp ha hm hb

end Vouched

namespace Ledger

variable {s : Host σ} {i : ℕ} {p : Proc σ} {e : ℤ}

lemma mem_own (hl : Ledger s) (ho : s.Owns i p e) {record : Record} :
    record ∈ p.progress.written ↔
      record ∈ s.world.db.records ∧ record.experimentId = e ∧ record.byWatchdog = false := by
  rw [← hl.recorded e i p ho, Database.written, List.mem_filter]
  simp

lemma captured (hl : Ledger s) (ho : s.Owns i p e) :
    s.world.db.marked .snapshot e = true := by
  obtain ⟨P, request, snapshot, rest, _, _, _, _, hw, _⟩ := hl.owner ho
  obtain ⟨hm, he, _⟩ := (hl.mem_own ho).mp (hw ▸ List.mem_cons_self)
  exact Database.marked_iff.mpr ⟨_, hm, he, rfl⟩

lemma before_intent (hl : Ledger s) (hv : Vouched s) (ho : s.Owns i p e)
    (hord : (p.progress.written.map Record.stage).Sublist [.snapshot, .preview]) :
    s.world.db.status e = .captured := by
  have hown : ∀ record ∈ s.world.db.records, record.experimentId = e →
      record.byWatchdog = false → record.stage = .snapshot ∨ record.stage = .preview := by
    intro record hm he hb
    have hw := List.mem_map_of_mem (f := Record.stage) ((hl.mem_own ho).mpr ⟨hm, he, hb⟩)
    simpa using hord.subset hw
  have hintent : s.world.db.marked .applyIntent e = false := by
    rw [← Bool.not_eq_true, Database.marked_iff]
    rintro ⟨record, hm, he, hs⟩
    rcases hown record hm he (by simp [Record.byWatchdog, hs]) with h | h <;> simp [hs] at h
  have hopen : s.world.db.closed e = false := by
    rw [← Bool.not_eq_true, Database.closed_iff]
    rintro ⟨record, hm, he, ht⟩
    cases hb : record.byWatchdog with
    | true =>
      have h := hv.written record hm hb
      rw [he, hintent] at h
      cases h
    | false => rcases hown record hm he hb with h | h <;> simp [h, Stage.terminal] at ht
  rw [Database.status, hopen, hintent, hl.captured ho]
  rfl

end Ledger

namespace Vouched

variable {s s' : Host σ} {i : ℕ} {p : Proc σ} {w : World σ} {o : Op} {r : o.Res}

lemma run_record (h : Vouched s) (hl : Ledger s) (hp : s.procs i = some p) {P : Provider σ}
    {request : ChangeRequest} {record : Record} (hr : p.progress.MayRecord P request record)
    (hw : w.db.records = s.world.db.records ++ [record]) :
    Run s.world.db.status w.db.status := by
  have ho : s.Owns i p record.experimentId := ⟨hp, hr.experiment⟩
  have hid : ∀ other ∈ [record], other.experimentId = record.experimentId := by simp
  cases hs : record.stage with
  | snapshot => exact absurd hs hr.later.1
  | applyIntent =>
    have hord := hr.order
    rw [hs] at hord
    exact .single (Database.step_intend hw hs (hl.before_intent h ho hord))
  | completed | failed =>
    apply Database.run_close hw hid ⟨record, List.mem_singleton_self _, by rw [hs]; rfl⟩
    intro hn
    cases (Database.of_absent hn).2.2.symm.trans (hl.captured ho)
  | _ =>
    have hsame : w.db.status = s.world.db.status := by
      funext e
      apply Database.status_append hw
      intro other hm _
      rw [List.mem_singleton.mp hm, hs]
      rfl
    rw [hsame]

lemma run_watchdog {records : List Record} {e : ℤ}
    (hm : s.world.db.marked .applyIntent e = true)
    (hr : ∀ record ∈ records, record.experimentId = e ∧ record.byWatchdog = true)
    (hw : w.db.records = s.world.db.records ++ records) : Run s.world.db.status w.db.status := by
  by_cases ht : ∃ record ∈ records, record.stage.terminal = true
  · apply Database.run_close hw (fun record hmem => (hr record hmem).1) ht
    intro hn
    cases (Database.of_absent hn).2.1.symm.trans hm
  · have hsame : w.db.status = s.world.db.status := by
      funext x
      apply Database.status_append hw
      intro record hmem _
      have hb := (hr record hmem).2
      have hnt : record.stage.terminal = false :=
        Bool.eq_false_of_not_eq_true fun hterm => ht ⟨record, hmem, hterm⟩
      cases hs : record.stage <;> simp_all [Record.byWatchdog, Stage.terminal, Stage.marks]
    rw [hsame]

lemma run_call (h : Vouched s) (hl : Ledger s) (hp : s.procs i = some p)
    (ha : p.task.allows p.progress o) (hs : sem p.task.provider s.world o r w) :
    Run s.world.db.status w.db.status := by
  have hw := sem_records hs
  have hquiet : FpsMaxxing.committed o r = [] → Run s.world.db.status w.db.status := by
    intro hn
    have hsame : w.db.status = s.world.db.status := by
      funext e
      exact Database.status_append (hw.trans (congrArg _ hn)) (by simp)
    rw [hsame]
  match o, r, ha, hs, hw, hquiet with
  | .journal (.beginExperiment providerId payload), .ok e, ha, hs, hw, _ =>
    refine .single (Database.step_capture hw rfl fun other hm => ?_)
    rw [sem_begin hs]
    exact (Database.lt_nextExperiment hm).ne
  | .journal (.insert records), .ok u, ha, hs, hw, _ =>
    rcases hl.inserts hp ha with ⟨P, request, record, _, rfl, hr⟩ |
      ⟨P, policy, y, _, _, hc, _, hr⟩
    · exact h.run_record hl hp hr hw
    · exact run_watchdog (h.current hp hc) hr hw
  | .journal statement, .error _, _, _, _, hquiet => exact hquiet (by cases statement <;> rfl)
  | .provider method, _, _, _, _, hquiet => exact hquiet (by cases method <;> rfl)
  | .journal .createTables, .ok _, _, _, _, hquiet | .journal .ready, .ok _, _, _, _, hquiet
  | .journal (.unclosed _), .ok _, _, _, _, hquiet
  | .journal (.lastRestore _), .ok _, _, _, _, hquiet
  | .journal (.recordTrial _), .ok _, _, _, _, hquiet
  | .journal (.readTrial _), .ok _, _, _, _, hquiet => exact hquiet rfl

lemma step {l : Label (Task σ)} (h : Vouched s) (hl : Ledger s) (hh : (contract σ).Honest s)
    (hs : (system σ).Step s l s') : Vouched s' ∧ Run s.world.db.status s'.world.db.status := by
  cases hs with
  | spawn t hi => exact ⟨h.same rfl nofun, .refl⟩
  | call hp _ hr hs =>
    have ha := hh.allows hp hr
    exact ⟨h.call hl hp ha hs _, h.run_call hl hp ha hs⟩
  | crash hp _ =>
    have hlisted := h.listed _ _ hp
    exact ⟨h.same rfl hlisted, .refl⟩
  | torn hp _ _ ht =>
    have hlisted := h.listed _ _ hp
    rw [Pool.set_world, torn_db ht]
    exact ⟨h.same (congrArg Database.records (torn_db ht)) hlisted, .refl⟩

end Vouched

lemma Reachable.vouched {s : Host σ} (h : Reachable s) : Vouched s := by
  obtain ⟨x, h⟩ := h
  exact ((contract σ).invariant (I := fun s => Ledger s ∧ Vouched s) h (Contract.honest_init _)
    ⟨Ledger.init _ rfl, .init _ rfl⟩
    fun _ _ _ hh hi _ hs => ⟨hi.1.step hh hs, (hi.2.step hi.1 hh hs).1⟩).2

lemma Reachable.run_status {s s' : Host σ} (h : Reachable s) (hr : (system σ).Reach s s') :
    Run s.world.db.status s'.world.db.status := by
  induction hr with
  | refl => exact .refl
  | tail hr hs ih =>
    obtain ⟨x, h⟩ := h
    have hmid : Reachable _ := ⟨x, h.trans hr⟩
    obtain ⟨l, _, hs⟩ := hs
    exact ih.trans (hmid.vouched.step hmid.ledger hmid.honest hs).2

end FpsMaxxing
