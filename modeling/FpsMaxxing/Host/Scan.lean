import FpsMaxxing.Host.Play
import Mathlib.Algebra.BigOperators.Group.Finset.Basic
import Mathlib.Algebra.Order.BigOperators.Group.Finset

/-! What a scan of a reachable journal lists, and what `doctor` counts. -/

namespace FpsMaxxing

open Effects Serde

variable {σ : Type}

def danglingCount (db : Database) : Option ℕ :=
  if db.ready then some db.dangling else none

def journalReport : Except SqlError (Option ℕ) → String
  | .ok (some 0) => "ready"
  | .ok (some count) =>
    "ready (" ++ toString count ++ " dangling experiment(s) missing a terminal outcome)"
  | .ok none => "unavailable (experiment_journal table missing)"
  | .error error => "unavailable (" ++ error.text ++ ")"

def Database.Leaks (db : Database) (providerId : String) (experiment : ℤ) : Prop :=
  (∃ record ∈ db.records, record.stage = .applyIntent ∧ record.experimentId = experiment ∧
    record.providerId = providerId) ∧ db.closed experiment = false

instance (db : Database) (providerId : String) (experiment : ℤ) :
    Decidable (db.Leaks providerId experiment) := inferInstanceAs (Decidable (_ ∧ _))

lemma Stage.count_le_one {stages : List Stage} {stage : Stage}
    (h : stages.Sublist (stage.before ++ [stage])) (x : Stage) : stages.count x ≤ 1 :=
  (h.count_le x).trans (by cases stage <;> cases x <;> decide)

lemma Database.count_eq (db : Database) (experiment : ℤ) (p : Stage → Bool) :
    db.count experiment p =
      (db.records.filter fun r => r.experimentId = experiment && p r.stage).length := by
  simp [Database.count, Database.records, List.filter_map, Function.comp_def]

lemma Database.count_eq_zero {db : Database} {experiment : ℤ} {p : Stage → Bool} :
    db.count experiment p = 0 ↔
      ∀ record ∈ db.records, record.experimentId = experiment → p record.stage = false := by
  rw [Database.count_eq, List.length_eq_zero_iff, List.filter_eq_nil_iff]
  simp

lemma Database.closed_eq {db : Database} {experiment : ℤ} :
    db.closed experiment = false ↔ db.count experiment Stage.terminal = 0 := by
  rw [Database.count_eq_zero]
  simp [Database.closed, Database.records]

lemma Database.candidatesOf_id {db : Database} {now : ℤ} {intent : Row}
    {candidate : Database.Candidate} (h : candidate ∈ db.candidatesOf now intent) :
    candidate.1 = intent.experimentId := by
  obtain ⟨_, _, rfl⟩ := List.mem_map.mp h
  rfl

structure Database.Single (db : Database) : Prop where
  snapshots : ∀ experiment, db.count experiment (· = .snapshot) ≤ 1
  intents : ∀ experiment, db.count experiment (· = .applyIntent) ≤ 1

namespace Database.Single

variable {db : Database} (h : db.Single)

include h

lemma candidates_nodup (now : ℤ) (intent : Row) :
    ((db.candidatesOf now intent).map (·.1)).Nodup := by
  have hc := h.snapshots intent.experimentId
  rw [Database.count] at hc
  rw [Database.candidatesOf, List.map_map]
  generalize db.rows.filter (fun row => row.experimentId = intent.experimentId &&
    decide (row.stage = .snapshot)) = snapshots at hc ⊢
  rcases snapshots with _ | ⟨row, _ | ⟨next, rest⟩⟩
  · exact List.nodup_nil
  · exact List.nodup_singleton _
  · simp at hc

lemma intents_nodup (p : Row → Bool) :
    ((db.rows.filter fun intent => intent.stage = .applyIntent && p intent).map
      fun row => row.experimentId).Nodup := by
  rw [List.nodup_iff_count_le_one]
  intro e
  refine le_trans ?_ (h.intents e)
  rw [List.count, List.countP_map, List.countP_filter, Database.count,
    ← List.countP_eq_length_filter]
  refine List.countP_mono_left fun row _ hr => ?_
  simp only [Function.comp_apply, Bool.and_eq_true, beq_iff_eq, decide_eq_true_eq] at hr ⊢
  exact ⟨hr.1, hr.2.1⟩

lemma unclosed_sorted (providerId : String) (now : ℤ) :
    ((db.unclosed providerId now).map (·.1)).Pairwise (· < ·) := by
  have hsort : ((db.unclosed providerId now).map (·.1)).Pairwise (· ≤ ·) := by
    rw [List.pairwise_map, Database.unclosed]
    exact List.pairwise_insertionSort _ _
  have hnd : ((db.unclosed providerId now).map (·.1)).Nodup := by
    rw [Database.unclosed, ((List.perm_insertionSort _ _).map _).nodup_iff, List.map_flatMap,
      List.nodup_flatMap]
    refine ⟨fun intent _ => h.candidates_nodup now intent, ?_⟩
    have hids := h.intents_nodup fun intent =>
      intent.providerId = providerId && !db.closed intent.experimentId
    simp only [← Bool.and_assoc] at hids
    refine (List.pairwise_map.mp hids).imp fun {a b} hne e ha hb => hne ?_
    obtain ⟨c, hc, rfl⟩ := List.mem_map.mp ha
    obtain ⟨d, hd, hcd⟩ := List.mem_map.mp hb
    calc a.experimentId = c.1 := (Database.candidatesOf_id hc).symm
      _ = d.1 := hcd.symm
      _ = b.experimentId := Database.candidatesOf_id hd
  exact (hsort.and hnd).imp fun hab => lt_of_le_of_ne hab.1 hab.2

end Database.Single

namespace Ledger

variable {s : Host σ} {i : ℕ} {p : Proc σ} {experiment : ℤ} (h : Ledger s)

include h

lemma count_own (ho : s.Owns i p experiment) (stage : Stage)
    (hs : stage ≠ .failed ∧ stage ≠ .watchdogRestore) :
    s.world.db.count experiment (· = stage) = p.progress.stages.count stage := by
  have hf : (fun r : Record => r.experimentId = experiment && decide (r.stage = stage)) =
      fun r => decide (r.stage = stage) &&
        (decide (r.experimentId = experiment) && !r.byWatchdog) := by
    funext r
    by_cases hr : r.stage = stage
    · have hb : r.byWatchdog = false := by
        rw [Record.byWatchdog, hr]
        cases stage <;> simp_all
      simp [hr, hb]
    · simp [hr]
  rw [Database.count_eq, hf, ← List.filter_filter]
  have hw := h.recorded experiment i p ho
  rw [Database.written] at hw
  rw [hw, Progress.stages, List.count, List.countP_map, List.countP_eq_length_filter]
  congr 1

lemma count_le_one (experiment : ℤ) (stage : Stage)
    (hs : stage ≠ .failed ∧ stage ≠ .watchdogRestore) :
    s.world.db.count experiment (· = stage) ≤ 1 := by
  by_cases hx : ∃ i p, s.Owns i p experiment
  · obtain ⟨i, p, ho⟩ := hx
    obtain ⟨P, request, _, _, _, hord, _⟩ := h.owner ho
    obtain ⟨st, hst⟩ := hord.order
    rw [h.count_own ho stage hs]
    exact Stage.count_le_one hst stage
  · have hz : s.world.db.count experiment (· = stage) = 0 := by
      rw [Database.count_eq_zero]
      intro record hr he
      obtain ⟨i, p, ho⟩ := h.owned record hr
      exact absurd ⟨i, p, he ▸ ho⟩ hx
    omega

lemma snapshot_count (ho : s.Owns i p experiment) :
    s.world.db.count experiment (· = .snapshot) = 1 := by
  obtain ⟨P, request, _, _, _, _, _, _, hw, _⟩ := h.owner ho
  have hle := h.count_le_one experiment .snapshot (by simp)
  rw [h.count_own ho .snapshot (by simp), Progress.stages, hw] at hle ⊢
  simp only [List.map_cons, Lifecycle.entry, List.count_cons_self] at hle ⊢
  omega

lemma candidates_ids {intent : Row} (hi : intent ∈ s.world.db.rows)
    (hs : intent.stage = .applyIntent) (now : ℤ) :
    (s.world.db.candidatesOf now intent).map (·.1) = [intent.experimentId] := by
  obtain ⟨i, p, P, request, ho, _⟩ := h.intent_row (List.mem_map_of_mem hi) hs
  have hc := h.snapshot_count ho
  rw [Database.count] at hc
  obtain ⟨snapshot, hsn⟩ := List.length_eq_one_iff.mp hc
  rw [Database.candidatesOf, hsn]
  rfl

lemma unclosed_ids (providerId : String) (now : ℤ) :
    ((s.world.db.unclosed providerId now).map (·.1)).Perm
      ((s.world.db.rows.filter fun intent =>
        intent.stage = .applyIntent && intent.providerId = providerId &&
          !s.world.db.closed intent.experimentId).map fun row => row.experimentId) := by
  rw [Database.unclosed]
  refine ((List.perm_insertionSort _ _).map _).trans (List.Perm.of_eq ?_)
  rw [List.map_flatMap, ← List.flatMap_singleton' (List.map _ _), List.flatMap_map]
  refine List.flatMap_congr fun intent hi => ?_
  simp only [List.mem_filter, Bool.and_eq_true, decide_eq_true_eq] at hi
  exact h.candidates_ids hi.1 hi.2.1.1 now

lemma unclosed_mem (providerId : String) (now : ℤ) :
    experiment ∈ (s.world.db.unclosed providerId now).map (·.1) ↔
      s.world.db.Leaks providerId experiment := by
  rw [(h.unclosed_ids providerId now).mem_iff]
  simp only [List.mem_map, List.mem_filter, Bool.and_eq_true, decide_eq_true_eq,
    Bool.not_eq_true', Database.Leaks, Database.records]
  constructor
  · rintro ⟨row, ⟨hr, ⟨hs, hp⟩, hc⟩, rfl⟩
    exact ⟨⟨row.toRecord, ⟨row, hr, rfl⟩, hs, rfl, hp⟩, hc⟩
  · rintro ⟨⟨_, ⟨row, hr, rfl⟩, hs, rfl, hp⟩, hc⟩
    exact ⟨row, ⟨hr, ⟨hs, hp⟩, hc⟩, rfl⟩

lemma single : s.world.db.Single where
  snapshots experiment := h.count_le_one experiment .snapshot (by simp)
  intents experiment := h.count_le_one experiment .applyIntent (by simp)

lemma unclosed_sorted (providerId : String) (now : ℤ) :
    ((s.world.db.unclosed providerId now).map (·.1)).Pairwise (· < ·) :=
  h.single.unclosed_sorted providerId now

end Ledger

def Effects.Pool.Describes (s : Host σ) (experiment : UnclosedExperiment) : Prop :=
  ∃ i p P request, s.Owns i p experiment.experimentId ∧ p.task = .lifecycle P request ∧
    p.progress.captured = some experiment.snapshot ∧ experiment.request = request ∧
    experiment.providerId = experiment.snapshot.providerId

structure Exact (s : Host σ) (providerId : String) (list : List UnclosedExperiment) : Prop where
  ascending : (list.map UnclosedExperiment.experimentId).Pairwise (· < ·)
  complete : ∀ experiment, experiment ∈ list.map UnclosedExperiment.experimentId ↔
    s.world.db.Leaks providerId experiment
  faithful : ∀ experiment ∈ list, s.Describes experiment

namespace Ledger

variable {s : Host σ} (h : Ledger s)

include h

lemma decodes {row : Database.Candidate} (hg : s.Genuine row) :
    ∃ experiment, Watchdog.decode row = .ok experiment ∧ s.Describes experiment := by
  obtain ⟨i, p, P, request, snapshot, ho, ht, hc, hs, hr⟩ := hg
  obtain ⟨P', request', _, _, ht', _, _, hv, _⟩ := h.owner ho
  obtain ⟨rfl, rfl⟩ : P' = P ∧ request' = request := by simpa [ht'] using ht
  obtain ⟨e, snapshotPayload, intentPayload, age⟩ := row
  dsimp only at hs hr
  subst hs hr
  have hr : fromValue (toValue request') = some request' :=
    (request_fromValue_toValue request').mpr (ControlPlane.object_of_validate _ _ hv)
  exact ⟨⟨e, snapshot.providerId, snapshot, request', leaseExpired age request'.leaseSeconds⟩,
    by simp [Watchdog.decode, hr], i, p, P', request', ho, ht', hc, rfl, rfl⟩

lemma exact_of_unclosed (providerId : String) (now : ℤ) : ∃ list,
    (s.world.db.unclosed providerId now).mapM Watchdog.decode = .ok list ∧
      Exact s providerId list := by
  have hd : ∀ row ∈ s.world.db.unclosed providerId now, ∃ x, Watchdog.decode row = .ok x :=
    fun row hr => (h.decodes (h.genuine hr)).imp fun _ hx => hx.1
  obtain ⟨list, hl⟩ := exists_mapM hd
  have hid := map_of_mapM (fun _ _ => Watchdog.decode_id) hl
  refine ⟨list, hl, by rw [hid]; exact h.unclosed_sorted _ _, fun e => ?_, fun x hx => ?_⟩
  · rw [hid]
    exact h.unclosed_mem _ _
  · obtain ⟨row, hrow, hd⟩ := exists_of_mem_mapM hl hx
    obtain ⟨x', hd', hx'⟩ := h.decodes (h.genuine hrow)
    rw [hd] at hd'
    cases hd'
    exact hx'

lemma scan_ensures (hr : s.world.db.ready = true ∨ s.world.db.records = []) (P : Provider σ)
    {w : World σ} (hw : w.db = s.world.db) :
    P.watchdog.scan.run.Ensures ((sem P).only JournalWorks) w fun r v =>
      v = w ∧ ∃ list, r = .ok list ∧ Exact s P.manifest.id list := by
  rw [Watchdog.scan, Program.ensures_run_bind, Program.ensures_mapErr]
  refine ensures_execute rfl ?_
  rintro now b db ⟨⟩
  simp only [Except.mapError]
  cases hb : w.db.ready with
  | false =>
    have hn : s.world.db.records = [] := by
      refine hr.resolve_left ?_
      rw [← hw, hb]
      simp
    refine ⟨rfl, [], rfl, by simp, fun e => ?_, by simp⟩
    simp [Database.Leaks, hn]
  | true =>
    simp only [if_true]
    rw [Program.ensures_run_bind, Program.ensures_mapErr]
    have hrun : ∀ now, Statement.run now (.unclosed P.watchdog.providerId) w.db =
        some (w.db.unclosed P.watchdog.providerId now, w.db) := by
      intro now
      simp [Statement.run, hb]
    refine ensures_execute (hrun 0) fun now b db h' => ?_
    rw [hrun now] at h'
    cases h'
    obtain ⟨list, hl, he⟩ := h.exact_of_unclosed P.watchdog.providerId now
    simp only [Except.mapError, ExceptT.run_mk, Program.pure_eq, Program.ensures_done]
    exact ⟨trivial, list, by rw [hw, hl], he⟩

lemma leaks_unique {experiment : ℤ} {p q : String} (hp : s.world.db.Leaks p experiment)
    (hq : s.world.db.Leaks q experiment) : p = q := by
  obtain ⟨⟨a, ha, hsa, hia, hpa⟩, _⟩ := hp
  obtain ⟨⟨b, hb, hsb, hib, hpb⟩, _⟩ := hq
  obtain ⟨i, p', P, request, ho, ht, _, hra⟩ := h.intent_row ha hsa
  obtain ⟨j, q', Q, request', ho', ht', _, hrb⟩ := h.intent_row hb hsb
  rw [hia] at ho
  rw [hib] at ho'
  obtain rfl := h.unique _ i p' j q' ho ho'
  obtain rfl : p' = q' := Option.some.inj (ho.1.symm.trans ho'.1)
  obtain ⟨rfl, rfl⟩ : P = Q ∧ request = request' := by simpa [ht] using ht'
  rw [← hpa, ← hpb, hra, hrb]
  rfl

omit h in
lemma mem_dangling {experiment : ℤ} :
    experiment ∈ s.world.db.experiments.filter (fun experiment =>
      0 < s.world.db.count experiment (· = .applyIntent) &&
        s.world.db.count experiment Stage.terminal = 0) ↔
      ∃ providerId, s.world.db.Leaks providerId experiment := by
  have hi : 0 < s.world.db.count experiment (· = .applyIntent) ↔
      ∃ record ∈ s.world.db.records, record.stage = .applyIntent ∧
        record.experimentId = experiment := by
    rw [Nat.pos_iff_ne_zero, ne_eq, Database.count_eq_zero]
    simp [and_comm]
  simp only [List.mem_filter, Bool.and_eq_true, decide_eq_true_eq, hi, Database.experiments,
    List.mem_dedup, List.mem_map, ← Database.closed_eq, Database.Leaks]
  constructor
  · rintro ⟨_, ⟨record, hr, hs, he⟩, hc⟩
    exact ⟨record.providerId, ⟨record, hr, hs, he, rfl⟩, hc⟩
  · rintro ⟨_, ⟨record, hr, hs, he, _⟩, hc⟩
    obtain ⟨row, hrow, rfl⟩ := List.mem_map.mp hr
    exact ⟨⟨row, hrow, he⟩, ⟨_, hr, hs, he⟩, hc⟩

lemma dangling_eq_sum {ids : String → List ℤ} (hn : ∀ providerId, (ids providerId).Nodup)
    (hm : ∀ providerId e, e ∈ ids providerId ↔ s.world.db.Leaks providerId e) :
    ∃ providers : Finset String, (∀ providerId ∉ providers, ids providerId = []) ∧
      s.world.db.dangling = ∑ providerId ∈ providers, (ids providerId).length := by
  classical
  let D := s.world.db.experiments.filter fun experiment =>
    0 < s.world.db.count experiment (· = .applyIntent) &&
      s.world.db.count experiment Stage.terminal = 0
  let f : ℤ → String := fun e =>
    if he : ∃ providerId, s.world.db.Leaks providerId e then he.choose else ""
  have hf : ∀ {providerId e}, s.world.db.Leaks providerId e → f e = providerId := by
    intro providerId e hl
    have he : ∃ providerId, s.world.db.Leaks providerId e := ⟨providerId, hl⟩
    simp only [f, he, dif_pos]
    exact h.leaks_unique he.choose_spec hl
  have hset : ∀ providerId, (ids providerId).toFinset = D.toFinset.filter (f · = providerId) := by
    intro providerId
    ext e
    rw [List.mem_toFinset, hm, Finset.mem_filter, List.mem_toFinset, mem_dangling]
    constructor
    · exact fun hl => ⟨⟨_, hl⟩, hf hl⟩
    · rintro ⟨⟨q, hl⟩, rfl⟩
      rwa [hf hl]
  have hlen : ∀ providerId,
      (ids providerId).length = (D.toFinset.filter (f · = providerId)).card := fun providerId => by
    rw [← hset, List.toFinset_card_of_nodup (hn providerId)]
  have hD : D.Nodup := (List.nodup_dedup _).filter _
  refine ⟨D.toFinset.image f, fun providerId hp => ?_, ?_⟩
  · rw [List.eq_nil_iff_forall_not_mem]
    intro e he
    have hl := (hm providerId e).mp he
    exact hp (Finset.mem_image.mpr ⟨e, List.mem_toFinset.mpr (mem_dangling.mpr ⟨_, hl⟩), hf hl⟩)
  · simp only [hlen]
    rw [← Finset.card_eq_sum_card_image f D.toFinset, List.toFinset_card_of_nodup hD]
    rfl

end Ledger

def ScansExactly (s : Host σ) : Prop :=
  ∃ ids : String → List ℤ,
    (∀ P : Provider σ, P.watchdog.scan.run.Ensures ((sem P).only JournalWorks) s.world fun r w =>
      w = s.world ∧ ∃ list, r = .ok list ∧
        list.map UnclosedExperiment.experimentId = ids P.manifest.id ∧
        ∀ experiment ∈ list, s.Describes experiment) ∧
    (∀ providerId, (ids providerId).Pairwise (· < ·) ∧
      ∀ experiment, experiment ∈ ids providerId ↔ s.world.db.Leaks providerId experiment) ∧
    ∃ providers : Finset String, (∀ providerId ∉ providers, ids providerId = []) ∧
      ∀ count, danglingCount s.world.db = some count →
        count = ∑ providerId ∈ providers, (ids providerId).length

theorem scan_exact {s : Host σ} (h : Reachable s) : ScansExactly s := by
  have hl := h.ledger
  have hx := fun providerId => hl.exact_of_unclosed providerId 0
  choose list hlist hexact using hx
  let ids : String → List ℤ := fun providerId =>
    (list providerId).map UnclosedExperiment.experimentId
  refine ⟨ids, fun P => ?_, fun providerId => ⟨(hexact providerId).ascending,
    (hexact providerId).complete⟩, ?_⟩
  · refine (hl.scan_ensures h.ready P rfl).mono ?_
    rintro r w ⟨hw, l, hr, he⟩
    refine ⟨hw, l, hr, ?_, he.faithful⟩
    refine he.ascending.eq_of_mem_iff (hexact _).ascending fun e => ?_
    rw [he.complete, (hexact _).complete]
  · obtain ⟨providers, hn, hs⟩ := hl.dangling_eq_sum
      (fun providerId => (hexact providerId).ascending.imp fun hab => hab.ne)
      fun providerId => (hexact providerId).complete
    refine ⟨providers, hn, fun count hc => ?_⟩
    rw [danglingCount, Option.ite_none_right_eq_some] at hc
    rw [← hs]
    exact (Option.some.inj hc.2).symm

def leaked : Host UInt64 :=
  (mockProvider "linux").play (Pool.init (World.initial 7))
    ((mockProvider "linux").opened ++
      [.spawn 1 (.lifecycle (mockProvider "linux").provider (mockRequest 42)), .go 1 6, .crash 1])

theorem scan_exact_leaked : danglingCount leaked.world.db = some 1 ∧ ScansExactly leaked :=
  ⟨by decide, scan_exact (Device.play_reachable 7 (by simp [Device.opened, Device.Plays, Task.provider]))⟩

end FpsMaxxing
