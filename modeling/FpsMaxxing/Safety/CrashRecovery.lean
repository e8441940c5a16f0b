import FpsMaxxing.Host.PassEffect
import FpsMaxxing.Safety.JournalRows
import FpsMaxxing.Safety.Terminal

/-! A lifecycle that dies at any point leaves either an untouched host or all a watchdog needs. -/

namespace FpsMaxxing

open Effects Serde

variable {σ : Type}

lemma Reachable.lifecycle {s : Host σ} (h : Reachable s) {P : Provider σ} {request : ChangeRequest}
    {tr : Trace σ} {q : Program Calls (Except ControlPlaneError LifecycleResult)} {v : World σ}
    (hs : Steps (sem P) (P.plane.runLifecycle request).run s.world tr q v) :
    ∃ (s' : Host σ) (i : ℕ) (p : Proc σ), Reachable s' ∧ s'.world = v ∧ s.procs i = none ∧
      s'.procs i = some p ∧ p.task = .lifecycle P request ∧
      p.progress = Progress.start.run tr ∧ ∀ j, j ≠ i → s'.procs j = s.procs j := by
  obtain ⟨s', i, p, hr, hw, hi, hp, ht, htrace, hj⟩ :=
    h.task (t := .lifecycle P request) (hs.map Outcome.lifecycle)
  exact ⟨s', i, p, hr, hw, hi, hp, ht, congrArg (Progress.run .start) htrace, hj⟩

def Entered (tr : Trace σ) (q : Program Calls (Except ControlPlaneError LifecycleResult)) : Prop :=
  (tr.any fun entry => entry.op.isApply) = true ∨
    ∃ asked, q.nextOp = some (.provider (.apply asked))

/-- What a lifecycle that died leaves behind: `w` is any world with the journal it left, since a
provider call that is cut short may leave any host. -/
structure CrashSafe (P : Provider σ) (request : ChangeRequest) (x : σ) (tr : Trace σ)
    (q : Program Calls (Except ControlPlaneError LifecycleResult)) (v : World σ) : Prop where
  untouched : (tr.any fun entry => entry.op.isApply) = false → v.host = x
  onRecord : Entered tr q → ∃ e snapshot, P.snapshot x (.ok snapshot) ∧
    Lifecycle.entry P e .snapshot (toValue snapshot) ∈ v.db.records ∧
    .intent P request e ∈ v.db.records ∧
    ∀ w : World σ, w.db = v.db →
      P.watchdog.scan.run.Ensures ((sem P).only JournalWorks) w fun r w' => w' = w ∧
        ∃ list, r = .ok list ∧ (list.map UnclosedExperiment.experimentId).Nodup ∧
          ∃ experiment ∈ list, experiment.experimentId = e ∧
            experiment.snapshot = snapshot ∧ experiment.request = request
  recovered : P.Restores → ∀ e, (Progress.start.run tr).experiment = some e →
    (∀ e', v.db.Leaks P.manifest.id e' ↔ e' = e) → ∀ w : World σ, w.db = v.db →
      (P.watchdog.reclaim .allUnclosed).run.Ensures ((sem P).only JournalWorks) w fun r u =>
        (∃ restoration, r = .ok [restoration] ∧ restoration.experimentId = e ∧
          restoration.restored = true) ∧ u.db.closed e = true ∧
        (∃ snapshot, P.snapshot x (.ok snapshot) ∧ ∀ t, P.snapshot u.host t → t = .ok snapshot) ∧
        ((∀ y z snapshot, P.snapshot y (.ok snapshot) → P.snapshot z (.ok snapshot) → y = z) →
          u.host = x)

section

variable {s : Host σ} {P : Provider σ} {request : ChangeRequest} {tr : Trace σ}
  {q : Program Calls (Except ControlPlaneError LifecycleResult)} {v : World σ}

lemma intent_of_entered
    (hs : Steps (sem P) (P.plane.runLifecycle request).run s.world tr q v) (he : Entered tr q) :
    ∃ e, (Progress.start.run tr).experiment = some e ∧
      .intent P request e ∈ (Progress.start.run tr).written := by
  rcases he with ha | ⟨asked, hn⟩
  · have hap := (Lifecycle.baseline hs).orderly.applied
    rw [Progress.run_applied] at hap
    exact hap (by simp [ha])
  · obtain ⟨next, rfl⟩ := Program.eq_call_of_nextOp hn
    have ho := hs.obeys Lifecycle.runLifecycle_obeys
    exact ho.1.2.2.2

lemma Reachable.unclosed (h : Reachable s)
    (hs : Steps (sem P) (P.plane.runLifecycle request).run s.world tr q v)
    (ht : ∀ record ∈ tr.committed, record.stage.terminal = false) {e : ℤ}
    (he : (Progress.start.run tr).experiment = some e) : v.db.closed e = false := by
  obtain ⟨s', i, p, hr, rfl, hn, hp, _, hprog, hother⟩ := h.lifecycle hs
  by_contra hc
  rw [Bool.not_eq_false, Database.closed_iff, steps_records hs] at hc
  obtain ⟨record, hm, hid, hst⟩ := hc
  rcases List.mem_append.mp hm with hm | hm
  · obtain ⟨j, q, ho⟩ := h.ledger.owned record hm
    have hj : j ≠ i := by
      rintro rfl
      cases hn.symm.trans ho.1
    refine hj (hr.ledger.unique e j q i p ?_ ⟨hp, hprog ▸ he⟩)
    exact ⟨(hother j hj).trans ho.1, hid ▸ ho.2⟩
  · simp [ht record hm] at hst

end

lemma Ledger.describes {s : Host σ} (h : Ledger s) {i : ℕ} {p : Proc σ} {P : Provider σ}
    {request : ChangeRequest} {x : UnclosedExperiment} (ho : s.Owns i p x.experimentId)
    (ht : p.task = .lifecycle P request) (hx : s.Describes x) :
    p.progress.captured = some x.snapshot ∧ x.request = request := by
  obtain ⟨j, q, P', request', ho', ht', hc, hr, _⟩ := hx
  obtain rfl := h.unique _ i p j q ho ho'
  obtain rfl : p = q := Option.some.inj (ho.1.symm.trans ho'.1)
  rw [ht] at ht'
  cases ht'
  exact ⟨hc, hr⟩

lemma Ledger.reclaim_single {s : Host σ} (h : Ledger s)
    (hr : s.world.db.ready = true ∨ s.world.db.records = []) {P : Provider σ} (hP : P.Restores)
    {e : ℤ} {snapshot : StateSnapshot} {x : σ} (hx : P.snapshot x (.ok snapshot))
    (he : ∀ e', s.world.db.Leaks P.manifest.id e' ↔ e' = e)
    (hd : ∀ y, s.Describes y → y.experimentId = e → y.snapshot = snapshot)
    {w : World σ} (hw : w.db = s.world.db) :
    (P.watchdog.reclaim .allUnclosed).run.Ensures ((sem P).only JournalWorks) w fun r u =>
      (∃ restoration, r = .ok [restoration] ∧ restoration.experimentId = e ∧
        restoration.restored = true) ∧ u.db.closed e = true ∧
      ∀ t, P.snapshot u.host t → t = .ok snapshot := by
  have hready : w.db.ready = true := by
    obtain ⟨record, hm, _⟩ := ((he e).mpr rfl).1
    rw [hw]
    refine hr.resolve_right fun hn => ?_
    rw [hn] at hm
    cases hm
  rw [Watchdog.reclaim, Program.ensures_run_bind]
  refine (h.scan_ensures hr P hw).mono ?_
  rintro _ _ ⟨rfl, list, rfl, hlist⟩
  have hids : list.map UnclosedExperiment.experimentId = [e] := by
    refine hlist.ascending.eq_of_mem_iff (List.pairwise_singleton _ _) fun e' => ?_
    rw [hlist.complete, he, List.mem_singleton]
  obtain ⟨y, rfl, hy⟩ := List.map_eq_singleton_iff.mp hids
  have hs := hd y (hlist.faithful y (List.mem_singleton_self y)) hy
  have hf : [y].filter (UnclosedExperiment.selectedBy .allUnclosed) = [y] := rfl
  dsimp only
  rw [hf, Watchdog.reclaimAll, Program.ensures_run_bind]
  refine (Pass.reclaimOne_ensures hready).mono ?_
  rintro _ u ⟨_, restoration, rfl, hid, r', hrb, hok⟩
  rw [hs] at hrb hok
  obtain ⟨rfl, hsnap⟩ := hP x snapshot hx _ _ _ hrb
  obtain ⟨hres, hrec⟩ := hok rfl hsnap
  refine ⟨⟨restoration, rfl, hid.trans hy, hres⟩, ?_, hsnap⟩
  rw [Database.closed_iff, hrec]
  refine ⟨⟨y.experimentId, .failed, P.watchdog.providerId, Watchdog.reclaimedPayload y⟩, ?_, hy, rfl⟩
  exact List.mem_append_right _ (by simp [Watchdog.successRecords])

theorem crash_safe {s : Host σ} (h : Reachable s) {P : Provider σ} {request : ChangeRequest}
    {tr : Trace σ} {q : Program Calls (Except ControlPlaneError LifecycleResult)} {v : World σ}
    (hs : Steps (sem P) (P.plane.runLifecycle request).run s.world tr q v)
    (ht : ∀ record ∈ tr.committed, record.stage.terminal = false) :
    CrashSafe P request s.world.host tr q v := by
  have hb := Lifecycle.baseline hs
  have hopen := fun e => h.unclosed hs ht (e := e)
  obtain ⟨s', i, p, hr, rfl, _, hp, htask, hprog, _⟩ := h.lifecycle hs
  have hl := hr.ledger
  rw [← hprog] at hb hopen
  -- what the lifecycle has on record when it has begun
  have hown : ∀ e, p.progress.experiment = some e → ∃ snapshot,
      P.snapshot s.world.host (.ok snapshot) ∧ p.progress.captured = some snapshot ∧
        Lifecycle.entry P e .snapshot (toValue snapshot) ∈ s'.world.db.records ∧
          ∀ y, s'.Describes y → y.experimentId = e →
            y.snapshot = snapshot ∧ y.request = request := by
    intro e he
    obtain ⟨snapshot, rest, hc, _, hw, _⟩ := hb.orderly.opened e he
    have hm := hl.written_in_journal ⟨hp, he⟩ (hw ▸ List.mem_cons_self)
    refine ⟨snapshot, hb.captured _ hc, hc, hm.1, fun y hy hye => ?_⟩
    obtain ⟨hc', hreq⟩ := hl.describes ⟨hp, hye ▸ he⟩ htask hy
    exact ⟨Option.some.inj (hc'.symm.trans hc), hreq⟩
  refine ⟨fun ha => hb.untouched ?_, fun he => ?_, fun hP e he hleak w hw => ?_⟩
  · rw [hprog, Progress.run_applied, ha]
    rfl
  · obtain ⟨e, he, hi⟩ := intent_of_entered hs he
    rw [← hprog] at he hi
    obtain ⟨snapshot, hsn, _, hrow, hd⟩ := hown e he
    have hrec := (hl.written_in_journal ⟨hp, he⟩ hi).1
    refine ⟨e, snapshot, hsn, hrow, hrec, fun w hw => ?_⟩
    refine (hl.scan_ensures hr.ready P hw).mono ?_
    rintro r w' ⟨hw', list, hr', hx⟩
    have hm : e ∈ list.map UnclosedExperiment.experimentId :=
      (hx.complete e).mpr ⟨⟨_, hrec, rfl, rfl, rfl⟩, hopen e he⟩
    obtain ⟨y, hy, hye⟩ := List.mem_map.mp hm
    obtain ⟨hys, hyr⟩ := hd y (hx.faithful y hy) hye
    exact ⟨hw', list, hr', hx.ascending.imp fun hab => hab.ne, y, hy, hye, hys, hyr⟩
  · rw [← hprog] at he
    obtain ⟨snapshot, hsn, _, _, hd⟩ := hown e he
    refine (hl.reclaim_single hr.ready hP hsn hleak (fun y hy hye => (hd y hy hye).1) hw).mono ?_
    rintro r u ⟨hres, hc, hsnap⟩
    refine ⟨hres, hc, ⟨snapshot, hsn, hsnap⟩, fun hinj => ?_⟩
    obtain ⟨t, ht'⟩ := P.snapshot_answers u.host
    rw [hsnap t ht'] at ht'
    exact hinj _ _ _ ht' hsn

def mockOpened : Host UInt64 :=
  (mockProvider "linux").play (Pool.init (World.initial 7)) (mockProvider "linux").opened

theorem crash_safe_mock : ∃ tr q v,
    Steps (sem (mockProvider "linux").provider)
      ((mockProvider "linux").provider.plane.runLifecycle (mockRequest 42)).run mockOpened.world
      tr q v ∧ Entered tr q ∧ v.host = 42 ∧
      CrashSafe (mockProvider "linux").provider (mockRequest 42) 7 tr q v := by
  have hr : Reachable mockOpened :=
    Device.play_reachable 7 (by simp [Device.opened, Device.Plays, Task.provider])
  have hs := Program.advance_steps (mockProvider "linux").answer_sem 6
    ((mockProvider "linux").provider.plane.runLifecycle (mockRequest 42)).run mockOpened.world
  exact ⟨_, _, _, hs, .inl rfl, rfl, crash_safe hr hs (by decide)⟩

end FpsMaxxing
