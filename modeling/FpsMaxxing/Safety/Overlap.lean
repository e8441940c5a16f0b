import FpsMaxxing.Host.LifecycleEffect
import FpsMaxxing.Safety.JournalRows

/-! Two control planes on one setting: each takes back its own change, to what it has captured. -/

namespace FpsMaxxing

open Effects Serde

variable {σ : Type}

/-- The change of a lifecycle is in force: `apply` has been entered and no rollback since. -/
def Effects.Process.Holding (p : Proc σ) : Prop :=
  p.progress.applied = true ∧ p.progress.rollbacks = []

def together (w : World σ) (t₀ t₁ : Task σ) : Host σ :=
  ((Pool.init w).set 0 (.fresh (system σ) t₀) w).set 1 (.fresh (system σ) t₁) w

/-- Nobody else comes, and nobody dies. -/
def Interleaved (_ : Host σ) (l : Label (Task σ)) : Prop := ∃ i, l = .call i

/-- The opening snapshot of a lifecycle is not taken while the change of another is in force. -/
def Apart (s : Host σ) (l : Label (Task σ)) : Prop :=
  ∃ i, l = .call i ∧ ∀ p, s.procs i = some p → p.progress.rollbacks = [] →
    p.residual.nextOp = some (.provider .snapshot) →
      ∀ j q, j ≠ i → s.procs j = some q → ¬ q.Holding

structure Common (x : σ) (s : Host σ) : Prop where
  lifecycles : ∀ i p, s.procs i = some p → i < 2 ∧ ∃ P request, p.task = .lifecycle P request ∧
    P.Faithful ∧ Lifecycle.Orderly P request p.progress ∧
      ∀ snapshot, p.progress.captured = some snapshot → P.snapshot x (.ok snapshot)
  free : (∀ i p, s.procs i = some p → ¬ p.Holding) → s.world.host = x

namespace Common

variable {x : σ} {s : Host σ} {i : ℕ} {p q : Proc σ} {w : World σ} {P : Provider σ}
  {request : ChangeRequest}

lemma set (h : Common x s) (hp : s.procs i = some p) (ht : q.task = .lifecycle P request)
    (hP : P.Faithful) (ho : Lifecycle.Orderly P request q.progress)
    (hc : ∀ snapshot, q.progress.captured = some snapshot → P.snapshot x (.ok snapshot))
    (hw : ¬ q.Holding → (∀ j q, j ≠ i → s.procs j = some q → ¬ q.Holding) → w.host = x) :
    Common x (s.set i q w) where
  lifecycles := by
    refine Pool.forall_set ?_ fun j p _ => h.lifecycles j p
    exact ⟨(h.lifecycles i p hp).1, P, request, ht, hP, ho, hc⟩
  free hn := by
    refine hw (hn i q (Pool.set_procs_self _ _ _ _)) fun j p' hj hp' => ?_
    exact hn j p' (by rwa [Pool.set_procs_ne _ hj])

lemma call (h : Common x s) (hp : s.procs i = some p) {o : Op} {r : o.Res}
    (ha : p.task.allows p.progress o) (hs : sem p.task.provider s.world o r w)
    (hg : p.progress.rollbacks = [] → o = .provider .snapshot →
      ∀ j q, j ≠ i → s.procs j = some q → ¬ q.Holding) (next : Program Calls Outcome) :
    Common x (s.set i (p.after s.world (o : Calls.Op) r next) w) := by
  obtain ⟨_, P, request, ht, hP, ho, hc⟩ := h.lifecycles i p hp
  rw [ht] at ha hs
  have hord := ho.next ha r
  -- with the process itself not under way the rest of the pool decides
  have hfree : ¬ p.Holding → (∀ j q, j ≠ i → s.procs j = some q → ¬ q.Holding) →
      s.world.host = x := by
    refine fun hi hn => h.free fun j q hq => ?_
    by_cases hj : j = i
    · subst hj
      obtain rfl : p = q := Option.some.inj (hp.symm.trans hq)
      exact hi
    · exact hn j q hj hq
  have hkeep : (p.progress.next o r).captured = p.progress.captured →
      (p.progress.next o r).applied = p.progress.applied →
      (p.progress.next o r).rollbacks = p.progress.rollbacks → w.host = s.world.host →
      Common x (s.set i (p.after s.world (o : Calls.Op) r next) w) := by
    intro hc' ha' hr' hw
    refine h.set hp ht hP (by rwa [progress_after]) ?_ fun hi hn => hw.trans (hfree ?_ hn)
    · rwa [progress_after, hc']
    · rwa [Process.Holding, progress_after, ha', hr'] at hi
  match o, r, ha, hs, hord, hg, hkeep with
  | .provider .snapshot, .ok snapshot, ha, ⟨⟨hsn, hw⟩, _⟩, hord, hg, hkeep =>
    by_cases hn : p.progress.rollbacks = []
    · have hidle := ho.idle (ha.resolve_right (not_not_intro hn)).2
      have hx : s.world.host = x := by
        refine hfree ?_ (hg hn rfl)
        simp [Process.Holding, hidle.2]
      refine h.set hp ht hP (by rwa [progress_after]) ?_ fun _ _ => hw.trans hx
      rw [progress_after, Progress.next_snapshot_ok, if_pos hn]
      rintro _ ⟨⟩
      rwa [← hx]
    · refine hkeep ?_ ?_ ?_ hw <;> rw [Progress.next_snapshot_ok, if_neg hn]
  | .provider .snapshot, .error _, _, ⟨⟨_, hw⟩, _⟩, _, _, hkeep
  | .provider (.preview _), _, _, ⟨⟨_, hw⟩, _⟩, _, _, hkeep
  | .provider (.verify _), _, _, ⟨⟨_, hw⟩, _⟩, _, _, hkeep => exact hkeep rfl rfl rfl hw
  | .provider (.apply _), r, ha, _, hord, _, _ =>
    refine h.set hp ht hP (by rwa [progress_after]) (by rwa [progress_after]) fun hi _ => ?_
    refine absurd ?_ hi
    rw [Process.Holding, progress_after]
    exact ⟨rfl, ha.2.2.1⟩
  | .provider (.rollback snapshot), r, ha, ⟨hrb, _⟩, hord, _, _ =>
    refine h.set hp ht hP (by rwa [progress_after]) (by rwa [progress_after]) fun _ _ => ?_
    exact (hP x snapshot (hc snapshot ha.2.2) _ _ _ hrb).2
  | .journal statement, r, _, hs, _, _, hkeep =>
    obtain ⟨h₁, h₂, h₃⟩ := p.progress.next_journal statement r
    exact hkeep h₁ h₂ h₃ (sem_journal_host hs)

end Common

section

variable {P Q : Provider σ} {request request' : ChangeRequest} {w : World σ} {s : Host σ}
  {p q : Proc σ}

lemma together_procs {t₀ t₁ : Task σ} {i : ℕ} (hp : (together w t₀ t₁).procs i = some p) :
    i = 0 ∧ p = .fresh (system σ) t₀ ∨ i = 1 ∧ p = .fresh (system σ) t₁ := by
  rw [together, Pool.set_procs] at hp
  split_ifs at hp with h₁
  · cases hp
    exact .inr ⟨h₁, rfl⟩
  rw [Pool.set_procs] at hp
  split_ifs at hp with h₀
  · cases hp
    exact .inl ⟨h₀, rfl⟩
  · cases hp

lemma together_honest (w : World σ) (t₀ t₁ : Task σ) :
    (contract σ).Honest (together w t₀ t₁) := by
  refine Contract.Honest.set (Contract.Honest.set (Contract.honest_init w) ?_) ?_
  · exact (contract σ).obeys t₀
  · exact (contract σ).obeys t₁

lemma Common.together (hP : P.Faithful) (hQ : Q.Faithful) (w : World σ) :
    Common w.host (together w (.lifecycle P request) (.lifecycle Q request')) where
  lifecycles i p hp := by
    obtain ⟨rfl, rfl⟩ | ⟨rfl, rfl⟩ := together_procs hp
    · exact ⟨by omega, P, request, rfl, hP, Lifecycle.orderly_start, by simp [Progress.start]⟩
    · exact ⟨by omega, Q, request', rfl, hQ, Lifecycle.orderly_start, by simp [Progress.start]⟩
  free _ := rfl

/-- A lifecycle that has returned a result has rolled back. -/
lemma not_holding_of_ok (hh : (contract σ).Honest s) {i : ℕ} (hp : s.procs i = some p)
    (ht : p.task = .lifecycle P request) {result : LifecycleResult}
    (hr : p.residual = .done (.lifecycle (.ok result))) : ¬ p.Holding := by
  rintro ⟨ha, hn⟩
  obtain ⟨e, snapshot, hc⟩ | ⟨⟨_, he⟩, _⟩ := Ledger.finished hh hp ht hr
  · have hrb := hc.rollbacks
    rw [ha, hn] at hrb
    cases hrb
  · cases he

theorem apart_restored (hP : P.Faithful) (hQ : Q.Faithful)
    (hrun : (system σ).Run Apart (together w (.lifecycle P request) (.lifecycle Q request')) s)
    (hp : s.procs 0 = some p) (hq : s.procs 1 = some q) {a b : LifecycleResult}
    (ha : p.residual = .done (.lifecycle (.ok a))) (hb : q.residual = .done (.lifecycle (.ok b))) :
    s.world.host = w.host := by
  have hh := together_honest w (.lifecycle P request) (.lifecycle Q request')
  have hcommon : Common w.host s := by
    refine (contract σ).invariant hrun hh (Common.together hP hQ w) ?_
    rintro s₁ l s₂ hh₁ hc ⟨i, rfl, hg⟩ hs
    cases hs with
    | @call _ p o next r w' hi _ hr hsem =>
      refine hc.call hi (hh₁.allows hi hr) hsem (fun hn ho => ?_) (next r)
      exact hg p hi hn (by rw [hr, ← ho]; rfl)
  have hend := hh.run hrun
  refine hcommon.free fun i p' hp' => ?_
  obtain ⟨hlt, P', request'', ht, _⟩ := hcommon.lifecycles i p' hp'
  obtain rfl | rfl : i = 0 ∨ i = 1 := by omega
  · obtain rfl : p = p' := Option.some.inj (hp.symm.trans hp')
    exact not_holding_of_ok hend hp ht ha
  · obtain rfl : q = p' := Option.some.inj (hq.symm.trans hp')
    exact not_holding_of_ok hend hq ht hb

end

def mockPair : Host UInt64 :=
  together ⟨⟨true, [], []⟩, 7⟩ (.lifecycle (mockProvider "linux").provider (mockRequest 42))
    (.lifecycle (mockProvider "linux").provider (mockRequest 50))

lemma mockPair_drives : (mockProvider "linux").Drives mockPair := by
  intro i p hp
  obtain ⟨_, rfl⟩ | ⟨_, rfl⟩ := together_procs hp <;> rfl

def staggered : Host UInt64 :=
  (mockProvider "linux").play mockPair [.go 0 1, .go 1 4, .go 0 20, .go 1 20]

def MockPaired (s : Host UInt64) : Prop :=
  (mockProvider "linux").Drives s ∧ ∀ k q, s.procs k = some q → k < 2

lemma apart_turn {s : Host UInt64} (hs : MockPaired s) {i j : ℕ} (hi : i < 2) (hij : j = 1 - i)
    {q : Proc UInt64} (hq : s.procs j = some q) (hn : ¬ q.Holding) (n : ℕ) :
    (system UInt64).Run Apart s ((mockProvider "linux").act s (.go i n)) ∧
      MockPaired ((mockProvider "linux").act s (.go i n)) := by
  have hother : ∀ {m k : ℕ} {q' : Proc UInt64},
      k ≠ i → ((mockProvider "linux").act s (.go i m)).procs k = some q' → k = j ∧ q' = q := by
    intro m k q' hk hq'
    rw [Device.act_go_ne hk] at hq'
    have hlt := hs.2 k q' hq'
    obtain rfl : k = j := by omega
    exact ⟨rfl, Option.some.inj (hq'.symm.trans hq)⟩
  have hchecks : (mockProvider "linux").Checks Apart s (.go i n) := fun m _ =>
    ⟨i, rfl, fun _ _ _ _ k q' hk hq' => (hother hk hq').2 ▸ hn⟩
  have hplays : (mockProvider "linux").Plays (.go i n) := trivial
  obtain ⟨hrun, hd⟩ := Device.act_run hs.1 hplays hchecks
  refine ⟨hrun, hd, fun k q' hq' => ?_⟩
  by_cases hk : k = i
  · exact hk ▸ hi
  · rw [(hother hk hq').1]
    omega

lemma staggered_apart : (system UInt64).Run Apart mockPair staggered := by
  have h₀ : MockPaired mockPair := ⟨mockPair_drives, fun k q hq => by
    obtain ⟨rfl, _⟩ | ⟨rfl, _⟩ := together_procs hq
    · exact Nat.two_pos
    · exact Nat.one_lt_two⟩
  obtain ⟨hrun₁, h₁⟩ := apart_turn h₀ Nat.two_pos rfl rfl (fun h => nomatch h.1) 1
  obtain ⟨hrun₂, h₂⟩ := apart_turn h₁ Nat.one_lt_two rfl rfl (fun h => nomatch h.1) 4
  obtain ⟨hrun₃, h₃⟩ := apart_turn h₂ Nat.two_pos rfl rfl (fun h => nomatch h.1) 20
  obtain ⟨hrun₄, _⟩ := apart_turn h₃ Nat.one_lt_two rfl rfl (fun h => nomatch h.2) 20
  exact hrun₁.trans (hrun₂.trans (hrun₃.trans hrun₄))

theorem apart_restored_mock : ∃ p q a b,
    (system UInt64).Run Apart mockPair staggered ∧ staggered.procs 0 = some p ∧
      staggered.procs 1 = some q ∧ p.residual = .done (.lifecycle (.ok a)) ∧
      q.residual = .done (.lifecycle (.ok b)) ∧ staggered.world.host = 7 := by
  refine ⟨_, _, _, _, staggered_apart, rfl, rfl, rfl, rfl, ?_⟩
  exact apart_restored (mockProvider_faithful "linux") (mockProvider_faithful "linux")
    staggered_apart rfl rfl rfl rfl

def overlapped : Host UInt64 :=
  (mockProvider "linux").play mockPair [.go 0 6, .go 1 1, .go 0 20, .go 1 20]

theorem overlap_not_restored : ¬ ∀ (P Q : Provider UInt64) (request request' : ChangeRequest)
    (w : World UInt64) (s : Host UInt64) (p q : Proc UInt64) (a b : LifecycleResult),
    P.Faithful → Q.Faithful →
      (system UInt64).Run Interleaved (together w (.lifecycle P request) (.lifecycle Q request')) s →
      s.procs 0 = some p → s.procs 1 = some q → p.residual = .done (.lifecycle (.ok a)) →
      q.residual = .done (.lifecycle (.ok b)) → s.world.host = w.host := by
  intro h
  have hrun : (system UInt64).Run Interleaved mockPair overlapped :=
    (Device.play_run mockPair_drives (by simp [Device.Plays])
      (Device.checksAll (by simp [Device.Checks, Interleaved]))).1
  have hx := h _ _ _ _ _ _ _ _ _ _ (mockProvider_faithful "linux") (mockProvider_faithful "linux")
    hrun rfl rfl rfl rfl
  exact absurd hx (by decide)

end FpsMaxxing
