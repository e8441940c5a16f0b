import FpsMaxxing.Host.Scan

/-! When an experiment is closed once, although the watchdog and its lifecycle both may close it. -/

namespace FpsMaxxing

open Effects Serde

variable {σ : Type}

namespace Effects.Process

def Over (p : Proc σ) : Prop := p.alive = false ∨ ∃ a, p.residual = .done a

def Closing (p : Proc σ) (experiment : ℤ) : Prop :=
  ∃ records, p.residual.nextOp = some (.journal (.insert records)) ∧
    ∃ record ∈ records, record.experimentId = experiment ∧ record.stage.terminal = true

variable {p : Proc σ}

lemma not_over (ha : p.alive = true) {o : Op} {next : o.Res → Program Calls Outcome}
    (hr : p.residual = .call (o : Calls.Op) next) : ¬ p.Over := by
  rintro (hd | ⟨a, hd⟩)
  · simp [ha] at hd
  · simp [hr] at hd

end Effects.Process

lemma Database.count_append {db db' : Database} {records : List Record}
    (h : db'.records = db.records ++ records) (experiment : ℤ) (p : Stage → Bool) :
    db'.count experiment p = db.count experiment p +
      (records.filter fun r => r.experimentId = experiment && p r.stage).length := by
  rw [Database.count_eq, Database.count_eq, h, List.filter_append, List.length_append]

lemma Database.closed_iff {db : Database} {e : ℤ} : db.closed e = true ↔
    ∃ record ∈ db.records, record.experimentId = e ∧ record.stage.terminal = true := by
  simp [Database.closed, Database.records]

lemma Database.count_terminal_append {db db' : Database} {records : List Record}
    (h : db'.records = db.records ++ records) (honce : ∀ e, db.count e Stage.terminal ≤ 1)
    (hopen : ∀ record ∈ records, record.stage.terminal = true →
      db.closed record.experimentId = false ∧
        (records.filter fun r => r.stage.terminal).length = 1) (e : ℤ) :
    db'.count e Stage.terminal ≤ 1 := by
  rw [Database.count_append h]
  by_cases hx : ∃ record ∈ records, record.experimentId = e ∧ record.stage.terminal = true
  · obtain ⟨record, hm, rfl, ht⟩ := hx
    obtain ⟨hcl, hone⟩ := hopen record hm ht
    rw [Database.closed_eq.mp hcl, zero_add, ← hone]
    apply List.Sublist.length_le
    apply List.monotone_filter_right
    intro a ha
    exact (Bool.and_eq_true_iff.mp ha).2
  · have hnil : (records.filter fun r => r.experimentId = e && r.stage.terminal) = [] := by
      rw [List.filter_eq_nil_iff]
      intro record hm hb
      simp only [Bool.and_eq_true, decide_eq_true_eq] at hb
      exact hx ⟨record, hm, hb⟩
    rw [hnil]
    exact honce e

lemma Stage.not_terminal_of_before {stage terminal : Stage} (ht : terminal.terminal = true)
    (h : stage ∈ terminal.before) : stage.terminal = false := by
  cases terminal with
  | completed | failed =>
    revert stage
    decide
  | _ => cases ht

lemma committed_cases {s : Host σ} (h : Ledger s) {i : ℕ} {p : Proc σ} {o : Op} {r : o.Res}
    {w : World σ} (hp : s.procs i = some p) (ha : p.task.allows p.progress o)
    (hs : sem p.task.provider s.world o r w) :
    committed o r = [] ∨
    (∃ record, committed o r = [record] ∧ record.stage = .snapshot ∧
      p.progress.experiment = none ∧ record.experimentId = s.world.db.nextExperiment ∧
        (∃ P request, p.task = .lifecycle P request) ∧ (∃ providerId payload,
          o = .journal (.beginExperiment providerId payload))) ∨
    (∃ P request record, p.task = .lifecycle P request ∧ o = .journal (.insert [record]) ∧
      committed o r = [record] ∧ p.progress.MayRecord P request record) ∨
    ∃ P policy experiment, p.task = .pass P policy ∧ p.progress.experiment = none ∧
      p.progress.current policy = some experiment ∧
      (∃ j q, s.Owns j q experiment.experimentId) ∧
      (∀ record ∈ committed o r, record.experimentId = experiment.experimentId) ∧
      (o = .journal (.insert (P.watchdog.successRecords experiment)) ∧
          committed o r = P.watchdog.successRecords experiment ∨
        ∀ record ∈ committed o r, record.stage = .watchdogRestore) := by
  match o, r, ha, hs with
  | .journal (.beginExperiment providerId payload), .ok e, ha, hs =>
    right; left
    have he := sem_begin hs
    cases ht : p.task with
    | lifecycle P request =>
      rw [ht] at ha
      exact ⟨_, rfl, rfl, ha.1, he, ⟨P, request, rfl⟩, providerId, payload, rfl⟩
    | opens P os =>
      rw [ht] at ha
      cases ha
    | pass P policy =>
      rw [ht] at ha
      cases ha
  | .journal (.insert records), .ok u, ha, hs =>
    right; right
    obtain ⟨P, request, record, ht, rfl, hr⟩ | ⟨P, policy, x, ht, hn, hc, hown, hr⟩ := h.inserts hp ha
    · exact .inl ⟨P, request, record, ht, rfl, rfl, hr⟩
    · refine .inr ⟨P, policy, x, ht, hn, hc, hown, fun record hm => (hr record hm).1, ?_⟩
      rw [ht] at ha
      obtain ⟨x', hc', ⟨_, rfl⟩ | ⟨error, rfl⟩⟩ := ha
      · obtain rfl : x' = x := Option.some.inj (hc'.symm.trans hc)
        exact .inl ⟨rfl, rfl⟩
      · right
        rintro record hm
        rw [List.mem_singleton.mp hm]
  | .provider .snapshot, .ok _, _, _ | .provider .snapshot, .error _, _, _
  | .provider (.preview _), _, _, _ | .provider (.apply _), _, _, _
  | .provider (.verify _), _, _, _ | .provider (.rollback _), _, _, _
  | .journal .createTables, .ok _, _, _ | .journal .ready, .ok _, _, _
  | .journal (.unclosed _), .ok _, _, _ | .journal (.lastRestore _), .ok _, _, _
  | .journal (.recordTrial _), .ok _, _, _ | .journal (.readTrial _), .ok _, _, _ => exact .inl rfl
  | .journal statement, .error _, _, _ =>
    left
    cases statement <;> rfl

lemma Effects.Process.closing_of_committed {p : Proc σ} {o : Op}
    {next : o.Res → Program Calls Outcome} (hr : p.residual = .call (o : Calls.Op) next) {r : o.Res}
    {record : Record} (hm : record ∈ committed o r) (ht : record.stage.terminal = true) :
    p.Closing record.experimentId := by
  obtain ⟨_, _, _, rfl, rfl⟩ | ⟨records, rfl, hc⟩ := mem_committed hm
  · cases ht
  · exact ⟨records, by rw [hr]; rfl, record, hc ▸ hm, rfl, ht⟩

lemma Ledger.owner_before {s : Host σ} (h : Ledger s) {i : ℕ} {p : Proc σ} {o : Op} {r : o.Res}
    {w : World σ} {next : Program Calls Outcome} (hp : s.procs i = some p)
    (ha : p.task.allows p.progress o) (hs : sem p.task.provider s.world o r w) {j k : ℕ}
    {q q' : Proc σ} {e : ℤ} (ho : (s.set i (p.after s.world (o : Calls.Op) r next) w).Owns j q e)
    (ho' : s.Owns k q' e) : j = k ∧
      (k = i ∧ q' = p ∧ q = p.after s.world (o : Calls.Op) r next ∨ k ≠ i ∧ q = q') := by
  have hl := h.call hp ha hs next
  by_cases hk : k = i
  · subst hk
    obtain rfl : q' = p := Option.some.inj (ho'.1.symm.trans hp)
    have hself : (s.set k (q'.after s.world (o : Calls.Op) r next) w).Owns k
        (q'.after s.world (o : Calls.Op) r next) e := by
      refine ⟨Pool.set_procs_self _ _ _ _, ?_⟩
      rw [progress_after]
      exact (ha.keeps ho'.2 r).1
    obtain rfl := hl.unique e j q k _ ho hself
    exact ⟨rfl, .inl ⟨rfl, rfl, Option.some.inj (ho.1.symm.trans hself.1)⟩⟩
  · have hother : (s.set i (p.after s.world (o : Calls.Op) r next) w).Owns k q' e :=
      Pool.owns_set.mpr (.inr ⟨hk, ho'⟩)
    obtain rfl := hl.unique e j q k q' ho hother
    exact ⟨rfl, .inr ⟨hk, Option.some.inj (ho.1.symm.trans hother.1)⟩⟩

/-- A pass closes an experiment only when it is open and its lifecycle has ended. -/
def Exclusive (s : Host σ) (l : Label (Task σ)) : Prop :=
  ∀ i p P policy e, l = .call i → s.procs i = some p → p.task = .pass P policy → p.Closing e →
    s.world.db.closed e = false ∧ ∀ j q, s.Owns j q e → q.Over

lemma Exclusive.spawn {s : Host σ} {i : ℕ} {t : Task σ} : Exclusive s (.spawn i t) := by
  rintro _ _ _ _ _ ⟨⟩

lemma Exclusive.crash {s : Host σ} {i : ℕ} : Exclusive s (.crash i) := by
  rintro _ _ _ _ _ ⟨⟩

structure Settled (s : Host σ) : Prop where
  once : ∀ e, s.world.db.count e Stage.terminal ≤ 1
  ended : ∀ e i p, s.Owns i p e → s.world.db.closed e = true →
    p.Over ∨ ∃ stage ∈ p.progress.stages, stage.terminal = true

namespace Settled

variable {s s' : Host σ} {i : ℕ} {p q : Proc σ} {w : World σ}

lemma init (w : World σ) (hw : w.db.rows = []) : Settled (Pool.init w : Host σ) where
  once e := by simp [Pool.init, Database.count, hw]
  ended e i p ho := by simp [Pool.Owns, Pool.init] at ho

lemma quiet (h : Settled s) (hp : ∀ p, s.procs i = some p → q.progress = p.progress ∧
      (p.Over → q.Over)) (hn : s.procs i = none → q.progress.experiment = none)
    (hw : w.db.records = s.world.db.records) : Settled (s.set i q w) := by
  have hcount : ∀ e p, w.db.count e p = s.world.db.count e p := by
    intro e p
    rw [Database.count_eq, Database.count_eq, hw]
  refine ⟨fun e => by rw [Pool.set_world, hcount]; exact h.once e, fun e j p' ho hc => ?_⟩
  have hc' : s.world.db.closed e = true := by
    rw [Database.closed_iff] at hc ⊢
    rwa [← hw]
  rcases Pool.owns_set.mp ho with ⟨rfl, rfl, he⟩ | ⟨_, ho⟩
  · cases hi : s.procs j with
    | none => simp [hn hi] at he
    | some p =>
      obtain ⟨hpr, hov⟩ := hp p hi
      rw [hpr] at he ⊢
      exact (h.ended e j p ⟨hi, he⟩ hc').imp hov id
  · exact h.ended e j p' ho hc'

section Call

variable {o : Op} {next : o.Res → Program Calls Outcome} {r : o.Res} {record : Record}
  (h : Settled s) (hl : Ledger s) (hp : s.procs i = some p) (hal : p.alive = true)
  (hr : p.residual = .call (o : Calls.Op) next) (ha : p.task.allows p.progress o)
  (hs : sem p.task.provider s.world o r w) (hg : Exclusive s (.call i))

include h hl hp hal hr ha hs hg

lemma opened (hm : record ∈ committed o r) (ht : record.stage.terminal = true) :
    s.world.db.closed record.experimentId = false ∧
    ((committed o r).filter fun r => r.stage.terminal).length = 1 ∧
    ∃ j q, s.Owns j q record.experimentId ∧
      (j = i ∧ record ∈ (p.progress.next o r).written ∨ q.Over) := by
  rcases committed_cases hl hp ha hs with hn | ⟨row, hc, hst, _⟩ |
    ⟨P, request, row, htask, ho, hc, hmay⟩ |
    ⟨P, policy, x, htask, _, _, ⟨j, q, hown⟩, hid, ⟨ho, hc⟩ | hst⟩
  · simp [hn] at hm
  · rw [hc, List.mem_singleton] at hm
    rw [hm, hst] at ht
    cases ht
  · rw [hc, List.mem_singleton] at hm
    subst hm
    have hown : s.Owns i p record.experimentId := ⟨hp, hmay.experiment⟩
    refine ⟨?_, by simp [hc, ht], i, p, hown, .inl ⟨rfl, ?_⟩⟩
    · by_contra hcl
      rcases h.ended _ i p hown (Bool.not_eq_false _ ▸ hcl) with hov | ⟨stage, hst, hter⟩
      · exact Process.not_over hal hr hov
      · have hb := Stage.not_terminal_of_before ht (hmay.order.subset hst)
        simp [hb] at hter
    · rw [Progress.next_written, hc]
      simp
  · obtain ⟨hcl, hov⟩ := hg i p P policy _ rfl hp htask (Process.closing_of_committed hr hm ht)
    refine ⟨hcl, by rw [hc]; rfl, j, q, by rw [hid record hm]; exact hown, .inr (hov j q ?_)⟩
    rw [hid record hm]
    exact hown
  · rw [hst record hm] at ht
    cases ht

lemma ended_call {e : ℤ} {j : ℕ} {p' : Proc σ}
    (ho : (s.set i (p.after s.world (o : Calls.Op) r (next r)) w).Owns j p' e)
    (hc : w.db.closed e = true) :
    p'.Over ∨ ∃ stage ∈ p'.progress.stages, stage.terminal = true := by
  have hlive := Process.not_over hal hr
  rw [Database.closed_iff, sem_records hs] at hc
  obtain ⟨record, hm, rfl, ht⟩ := hc
  rcases List.mem_append.mp hm with hm | hm
  · obtain ⟨j₀, p₀, ho₀⟩ := hl.owned record hm
    have hcl : s.world.db.closed record.experimentId = true :=
      Database.closed_iff.mpr ⟨record, hm, rfl, ht⟩
    obtain ⟨rfl, ⟨_, rfl, rfl⟩ | ⟨_, rfl⟩⟩ := hl.owner_before hp ha hs ho ho₀
    · obtain ⟨stage, hst, hter⟩ := (h.ended _ _ _ ho₀ hcl).resolve_left hlive
      right
      rw [progress_after]
      refine ⟨stage, ?_, hter⟩
      rw [Progress.stages, Progress.next_written, List.map_append]
      exact List.mem_append_left _ hst
    · exact h.ended _ _ _ ho₀ hcl
  · obtain ⟨_, _, j₀, p₀, ho₀, hend⟩ := h.opened hl hp hal hr ha hs hg hm ht
    obtain ⟨rfl, ⟨_, rfl, rfl⟩ | ⟨hji, rfl⟩⟩ := hl.owner_before hp ha hs ho ho₀
    · rcases hend with ⟨_, hw⟩ | hov
      · right
        rw [progress_after]
        exact ⟨record.stage, List.mem_map_of_mem hw, ht⟩
      · exact absurd hov hlive
    · rcases hend with ⟨hji', _⟩ | hov
      · exact absurd hji' hji
      · exact .inl hov

lemma call : Settled (s.set i (p.after s.world (o : Calls.Op) r (next r)) w) where
  once e := by
    rw [Pool.set_world]
    apply Database.count_terminal_append (sem_records hs) h.once
    intro record hm ht
    obtain ⟨hcl, hone, _⟩ := h.opened hl hp hal hr ha hs hg hm ht
    exact ⟨hcl, hone⟩
  ended e j p' ho hc := h.ended_call hl hp hal hr ha hs hg ho hc

end Call

lemma step {l : Label (Task σ)} (h : Settled s) (hl : Ledger s) (hh : (contract σ).Honest s)
    (hg : Exclusive s l) (hs : (system σ).Step s l s') : Settled s' := by
  cases hs with
  | spawn t hi =>
    refine h.quiet (fun p hp => ?_) (fun _ => rfl) rfl
    cases hi.symm.trans hp
  | call hp hal hr hsem => exact h.call hl hp hal hr (hh.allows hp hr) hsem hg
  | @crash i p hp _ =>
    refine h.quiet (fun p' hp' => ?_) (fun hn => ?_) rfl
    · cases hp.symm.trans hp'
      exact ⟨rfl, fun _ => .inl rfl⟩
    · cases hp.symm.trans hn
  | torn hp _ _ ht =>
    refine h.quiet (fun p' hp' => ?_) (fun hn => ?_) (congrArg Database.records (torn_db ht))
    · cases hp.symm.trans hp'
      exact ⟨rfl, fun _ => .inl rfl⟩
    · cases hp.symm.trans hn

end Settled

theorem terminal_once {x : σ} {s : Host σ}
    (hrun : (system σ).Run Exclusive (Pool.init (World.initial x)) s) (e : ℤ) :
    s.world.db.count e Stage.terminal ≤ 1 := by
  have h : Ledger s ∧ Settled s := by
    refine (contract σ).invariant (I := fun s => Ledger s ∧ Settled s) hrun
      (Contract.honest_init _) ⟨Ledger.init _ rfl, Settled.init _ rfl⟩ ?_
    exact fun a l b hh ⟨hl, hset⟩ hg hs => ⟨hl.step hh hs, hset.step hl hh hg hs⟩
  exact h.2.once e

def abandoned : Host UInt64 :=
  (mockProvider "linux").play (Pool.init (World.initial 7))
    ((mockProvider "linux").opened ++
      [.spawn 1 (.lifecycle (mockProvider "linux").provider (mockRequest 42)), .go 1 6, .crash 1,
        .spawn 2 (.pass (mockProvider "linux").provider .allUnclosed)])

def reclaimed : Host UInt64 := (mockProvider "linux").act abandoned (.go 2 5)

theorem terminal_once_reclaimed :
    (system UInt64).Run Exclusive (Pool.init (World.initial 7)) reclaimed ∧
      ∀ e, reclaimed.world.db.count e Stage.terminal ≤ 1 := by
  obtain ⟨h₀, hd⟩ : (system UInt64).Run Exclusive (Pool.init (World.initial 7)) abandoned ∧ _ := by
    refine Device.play_run (Device.drives_init 7)
      (by simp [Device.opened, Device.Plays, Task.provider])
      ⟨.spawn, fun k _ => ?_, .spawn, fun k _ => ?_, .crash, .spawn, trivial⟩
    all_goals
      rintro i p P policy e ⟨⟩ hp ht
      cases hp
      cases ht
  obtain ⟨h₁, _⟩ : (system UInt64).Run Exclusive abandoned reclaimed ∧ _ := by
    refine Device.act_run hd trivial ?_
    rintro k hk i p P policy e ⟨⟩ hp ht ⟨records, hn, record, hm, rfl, hter⟩
    cases hp
    have hrecords : k = 4 ∧ ∀ record ∈ records, record.experimentId = 1 := by
      obtain rfl | rfl | rfl | rfl | rfl : k = 4 ∨ k = 0 ∨ k = 1 ∨ k = 2 ∨ k = 3 := by omega
      · cases hn
        exact ⟨rfl, by decide⟩
      all_goals cases hn
    obtain ⟨rfl, hid⟩ := hrecords
    rw [hid record hm]
    refine ⟨by decide, fun j q ho => ?_⟩
    obtain ⟨hq, he⟩ := ho
    rcases j with _ | _ | _ | j
    · cases hq
      cases he
    · cases hq
      exact .inl rfl
    · cases hq
      cases he
    · cases hq
  have hrun := h₀.trans h₁
  exact ⟨hrun, terminal_once hrun⟩

def closedTwice : Host UInt64 :=
  (mockProvider "linux").play (Pool.init (World.initial 7))
    ((mockProvider "linux").opened ++
      [.spawn 1 (.lifecycle (mockProvider "linux").provider (mockRequest 42)), .go 1 6,
        .spawn 2 (.pass (mockProvider "linux").provider .allUnclosed), .go 2 2,
        .go 1 20, .go 2 20])

theorem terminal_not_once : ¬ ∀ (s : Host UInt64) (e : ℤ), Reachable s →
    s.world.db.count e Stage.terminal ≤ 1 := by
  intro h
  have hr : Reachable closedTwice :=
    Device.play_reachable 7 (by simp [Device.opened, Device.Plays, Task.provider])
  exact absurd (h closedTwice 1 hr) (by decide)

end FpsMaxxing
