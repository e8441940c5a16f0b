import FpsMaxxing.Effects.Monitor
import Mathlib.Data.Finset.Max
import Mathlib.Logic.Function.Basic

/-! Any number of programs over one world, interleaved call by call. A process may die between two
calls or inside one; the calls it made stay on record. -/

namespace FpsMaxxing.Effects

variable {S : Signature} {W T M α : Type}

structure Process (S : Signature) (W T α : Type) where
  task : T
  residual : Program S α
  trace : List (Entry S W)
  alive : Bool

structure Pool (S : Signature) (W T α : Type) where
  world : W
  procs : ℕ → Option (Process S W T α)

/-- What every task runs, how its calls act on the world, and what a call may leave behind when its
process dies inside it. -/
structure System (S : Signature) (W T α : Type) where
  start : T → Program S α
  sem : T → Semantics S W
  torn : T → S.Op → W → W → Prop

inductive Label (T : Type)
  | spawn (i : ℕ) (t : T)
  | call (i : ℕ)
  | crash (i : ℕ)

def Pool.init (w : W) : Pool S W T α := ⟨w, fun _ => none⟩

def Process.fresh (sys : System S W T α) (t : T) : Process S W T α := ⟨t, sys.start t, [], true⟩

def Process.after (p : Process S W T α) (w : W) (o : S.Op) (r : S.Res o) (q : Program S α) :
    Process S W T α :=
  { p with residual := q, trace := p.trace ++ [⟨w, o, r⟩] }

def Process.dead (p : Process S W T α) : Process S W T α := { p with alive := false }

def Pool.set (s : Pool S W T α) (i : ℕ) (p : Process S W T α) (w : W) : Pool S W T α :=
  ⟨w, Function.update s.procs i (some p)⟩

namespace System

variable {sys : System S W T α}

inductive Step (sys : System S W T α) : Pool S W T α → Label T → Pool S W T α → Prop
  | spawn {s i} (t : T) : s.procs i = none →
      Step sys s (.spawn i t) (s.set i (.fresh sys t) s.world)
  | call {s i p o next r w} : s.procs i = some p → p.alive = true →
      p.residual = .call o next → sys.sem p.task s.world o r w →
      Step sys s (.call i) (s.set i (p.after s.world o r (next r)) w)
  | crash {s i p} : s.procs i = some p → p.alive = true →
      Step sys s (.crash i) (s.set i p.dead s.world)
  | torn {s i p o next w} : s.procs i = some p → p.alive = true →
      p.residual = .call o next → sys.torn p.task o s.world w →
      Step sys s (.crash i) (s.set i p.dead w)

def Run (sys : System S W T α) (guard : Pool S W T α → Label T → Prop) :
    Pool S W T α → Pool S W T α → Prop :=
  Relation.ReflTransGen fun s s' => ∃ l, guard s l ∧ sys.Step s l s'

abbrev Reach (sys : System S W T α) : Pool S W T α → Pool S W T α → Prop :=
  sys.Run fun _ _ => True

end System

@[simp] lemma Pool.set_world (s : Pool S W T α) (i : ℕ) (p : Process S W T α) (w : W) :
    (s.set i p w).world = w := rfl

lemma Pool.set_procs (s : Pool S W T α) (i j : ℕ) (p : Process S W T α) (w : W) :
    (s.set i p w).procs j = if j = i then some p else s.procs j := by
  simp [Pool.set, Function.update_apply]

@[simp] lemma Pool.set_procs_self (s : Pool S W T α) (i : ℕ) (p : Process S W T α) (w : W) :
    (s.set i p w).procs i = some p := by
  simp [Pool.set]

lemma Pool.set_procs_ne (s : Pool S W T α) {i j : ℕ} (h : j ≠ i) (p : Process S W T α) (w : W) :
    (s.set i p w).procs j = s.procs j := by
  simp [Pool.set, h]

lemma Pool.forall_set {I : ℕ → Process S W T α → Prop} {s : Pool S W T α} {i : ℕ}
    {p : Process S W T α} {w : W} (hp : I i p)
    (h : ∀ j q, j ≠ i → s.procs j = some q → I j q) :
    ∀ j q, (s.set i p w).procs j = some q → I j q := by
  intro j q hq
  rw [Pool.set_procs] at hq
  split_ifs at hq with hj
  · cases hq
    exact hj ▸ hp
  · exact h j q hj hq

def Pool.advance (s : Pool S W T α) (answer : W → (o : S.Op) → S.Res o × W) (i : ℕ)
    (p : Process S W T α) (n : ℕ) : Pool S W T α :=
  let run := p.residual.advance answer n s.world
  s.set i { p with residual := run.2.1, trace := p.trace ++ run.1 } run.2.2

lemma Pool.advance_zero {s : Pool S W T α} {answer : W → (o : S.Op) → S.Res o × W} {i : ℕ}
    {p : Process S W T α} (hp : s.procs i = some p) : s.advance answer i p 0 = s := by
  simp [Pool.advance, Pool.set, ← hp]

/-- What every program of a system is known to do: one memory for all tasks, the calls each task may
make, and what it has done when it returns. -/
structure Contract (sys : System S W T α) (M : Type) where
  next : M → (o : S.Op) → S.Res o → M
  start : M
  allows : T → M → S.Op → Prop
  post : T → α → M → Prop
  obeys : ∀ t, (sys.start t).Obeys ⟨next, allows t⟩ start (post t)

namespace Contract

variable {sys : System S W T α} (c : Contract sys M) {s s' : Pool S W T α}

def monitor (t : T) : Monitor S M := ⟨c.next, c.allows t⟩

def memory (p : Process S W T α) : M := (c.monitor p.task).run c.start p.trace

@[simp] lemma memory_fresh (t : T) : c.memory (.fresh sys t) = c.start := rfl

@[simp] lemma memory_after (p : Process S W T α) (w : W) (o : S.Op) (r : S.Res o)
    (q : Program S α) : c.memory (p.after w o r q) = c.next (c.memory p) o r := by
  simp [memory, Process.after, monitor]

@[simp] lemma memory_dead (p : Process S W T α) : c.memory p.dead = c.memory p := rfl

def Honest (s : Pool S W T α) : Prop :=
  ∀ i p, s.procs i = some p → p.residual.Obeys (c.monitor p.task) (c.memory p) (c.post p.task)

variable {c}

lemma Honest.set {i : ℕ} {p : Process S W T α} {w : W} (h : c.Honest s)
    (hp : p.residual.Obeys (c.monitor p.task) (c.memory p) (c.post p.task)) :
    c.Honest (s.set i p w) :=
  Pool.forall_set hp fun j q _ => h j q

lemma honest_init (w : W) : c.Honest (Pool.init w) := by
  intro i p hp
  simp [Pool.init] at hp

lemma Honest.step {l : Label T} (h : c.Honest s) (hs : sys.Step s l s') : c.Honest s' := by
  cases hs with
  | spawn t _ => exact h.set (c.obeys t)
  | call hp _ hr _ =>
    have ho := h _ _ hp
    rw [hr] at ho
    refine h.set ?_
    rw [memory_after]
    exact ho.2 _
  | crash hp _ =>
    have ho := h _ _ hp
    exact h.set ho
  | torn hp _ _ _ =>
    have ho := h _ _ hp
    exact h.set ho

lemma Honest.run {guard : Pool S W T α → Label T → Prop} (h : c.Honest s)
    (hr : sys.Run guard s s') : c.Honest s' := by
  induction hr with
  | refl => exact h
  | tail _ hs ih =>
    obtain ⟨l, _, hs⟩ := hs
    exact ih.step hs

lemma Honest.allows {i : ℕ} {p : Process S W T α} {o : S.Op} {next : S.Res o → Program S α}
    (h : c.Honest s) (hp : s.procs i = some p) (hr : p.residual = .call o next) :
    c.allows p.task (c.memory p) o := by
  have ho := h _ _ hp
  rw [hr] at ho
  exact ho.1

lemma Honest.post {i : ℕ} {p : Process S W T α} {a : α} (h : c.Honest s)
    (hp : s.procs i = some p) (hr : p.residual = .done a) : c.post p.task a (c.memory p) := by
  have ho := h _ _ hp
  rw [hr] at ho
  exact ho

/-- The induction over runs: a property of pools that every guarded step of honest processes keeps
holds at the end of every guarded run. -/
lemma invariant {guard : Pool S W T α → Label T → Prop} {I : Pool S W T α → Prop}
    (hrun : sys.Run guard s s') (hs : c.Honest s) (hi : I s)
    (hstep : ∀ a l b, c.Honest a → I a → guard a l → sys.Step a l b → I b) : I s' := by
  induction hrun with
  | refl => exact hi
  | tail hr h ih =>
    obtain ⟨l, hg, h⟩ := h
    exact hstep _ l _ (hs.run hr) ih hg h

lemma ambient {guard : Pool S W T α → Label T → Prop} {I : T → M → W → Prop}
    (hrun : sys.Run guard s s') (hs : c.Honest s)
    (hi : ∀ i p, s.procs i = some p → I p.task (c.memory p) s.world) (h₀ : ∀ t w, I t c.start w)
    (hown : ∀ t m w o r w', I t m w → c.allows t m o → sys.sem t w o r w' → I t (c.next m o r) w')
    (hother : ∀ t m w u o r w', I t m w → sys.sem u w o r w' → I t m w')
    (htorn : ∀ t m w u o w', I t m w → sys.torn u o w w' → I t m w') :
    ∀ i p, s'.procs i = some p → I p.task (c.memory p) s'.world := by
  refine c.invariant (I := fun s => ∀ i p, s.procs i = some p → I p.task (c.memory p) s.world)
    hrun hs hi fun a l b ha hj _ hstep => ?_
  have hset : ∀ (j : ℕ) (q : Process S W T α) (w : W), I q.task (c.memory q) w →
      (∀ i p, a.procs i = some p → I p.task (c.memory p) w) →
      ∀ i p, (a.set j q w).procs i = some p → I p.task (c.memory p) w :=
    fun j q w hq hw => Pool.forall_set hq fun i p _ => hw i p
  cases hstep with
  | spawn t _ => exact hset _ _ _ (h₀ t _) hj
  | @call i p o next r w hp _ hr hsem =>
    refine hset _ _ _ ?_ fun j q hq => hother _ _ _ _ _ _ _ (hj j q hq) hsem
    rw [memory_after]
    exact hown _ _ _ o r _ (hj i p hp) (ha.allows hp hr) hsem
  | crash hp _ =>
    have hq := hj _ _ hp
    exact hset _ _ _ hq hj
  | torn hp _ _ ht =>
    have hq := hj _ _ hp
    exact hset _ _ _ (htorn _ _ _ _ _ _ hq ht) fun j q hq => htorn _ _ _ _ _ _ (hj j q hq) ht

end Contract

namespace System

variable {sys : System S W T α} {s s' : Pool S W T α}
  {guard guard' : Pool S W T α → Label T → Prop}

lemma Run.mono (h : sys.Run guard s s') (hg : ∀ a l, guard a l → guard' a l) :
    sys.Run guard' s s' := by
  induction h with
  | refl => exact .refl
  | tail _ hs ih =>
    obtain ⟨l, hl, hs⟩ := hs
    exact ih.tail ⟨l, hg _ l hl, hs⟩

lemma Run.world {G : W → W → Prop} (h : sys.Run guard s s') (hrefl : ∀ w, G w w)
    (htrans : ∀ u v w, G u v → G v w → G u w) (hsem : ∀ t w o r w', sys.sem t w o r w' → G w w')
    (htorn : ∀ t o w w', sys.torn t o w w' → G w w') : G s.world s'.world := by
  induction h with
  | refl => exact hrefl _
  | tail _ hs ih =>
    obtain ⟨l, _, hs⟩ := hs
    refine htrans _ _ _ ih ?_
    cases hs with
    | spawn t _ => exact hrefl _
    | call _ _ _ hc => exact hsem _ _ _ _ _ hc
    | crash _ _ => exact hrefl _
    | torn _ _ _ ht => exact htorn _ _ _ _ ht

lemma Step.eventually_none {l : Label T} (h : sys.Step s l s')
    (hs : ∃ n, ∀ i, n ≤ i → s.procs i = none) : ∃ n, ∀ i, n ≤ i → s'.procs i = none := by
  obtain ⟨n, hn⟩ := hs
  have hset : ∀ (j : ℕ) (p : Process S W T α) (w : W),
      ∃ n, ∀ i, n ≤ i → (s.set j p w).procs i = none := by
    intro j p w
    refine ⟨max n (j + 1), fun i hi => ?_⟩
    rw [Pool.set_procs_ne s (by omega : i ≠ j)]
    exact hn i (by omega)
  cases h <;> exact hset _ _ _

lemma Run.room {w : W} (h : sys.Run guard (Pool.init w) s) : ∃ i, s.procs i = none := by
  have hn : ∃ n, ∀ i, n ≤ i → s.procs i = none := by
    induction h with
    | refl => exact ⟨0, fun _ _ => rfl⟩
    | tail _ hs ih =>
      obtain ⟨l, _, hs⟩ := hs
      exact hs.eventually_none ih
  obtain ⟨n, hn⟩ := hn
  exact ⟨n, hn n le_rfl⟩

lemma run_of_steps {i : ℕ} {p : Process S W T α} {q : Program S α} {v : W}
    {tr : List (Entry S W)} (hp : s.procs i = some p) (ha : p.alive = true)
    (hg : ∀ a, guard a (.call i)) (hs : Steps (sys.sem p.task) p.residual s.world tr q v) :
    sys.Run guard s (s.set i { p with residual := q, trace := p.trace ++ tr } v) := by
  induction hs with
  | start =>
    have he : s.set i { p with trace := p.trace ++ [] } s.world = s := by
      simp [Pool.set, ← hp]
    rw [he]
    exact .refl
  | @call tr o next v r u hs hc ih =>
    refine ih.tail ⟨.call i, hg _, ?_⟩
    have h : sys.Step (s.set i { p with residual := .call o next, trace := p.trace ++ tr } v) _ _ :=
      .call (Pool.set_procs_self _ _ _ _) ha rfl hc
    simpa [Pool.set, Process.after] using h

lemma run_of_advance {answer : W → (o : S.Op) → S.Res o × W} {i : ℕ} {p : Process S W T α}
    (hp : s.procs i = some p) (ha : p.alive = true)
    (hc : ∀ w o, sys.sem p.task w o (answer w o).1 (answer w o).2) {n : ℕ}
    (hg : ∀ k < n, guard (s.advance answer i p k) (.call i)) :
    sys.Run guard s (s.advance answer i p n) := by
  induction n with
  | zero =>
    rw [Pool.advance_zero hp]
    exact .refl
  | succ n ih =>
    have hrun := ih fun k hk => hg k (Nat.lt_succ_of_lt hk)
    have hg := hg n n.lt_succ_self
    simp only [Pool.advance, Program.advance_succ] at hrun hg ⊢
    generalize p.residual.advance answer n s.world = run at hrun hg ⊢
    obtain ⟨tr, q, v⟩ := run
    cases q with
    | done a => exact hrun
    | call o next =>
      refine hrun.tail ⟨.call i, hg, ?_⟩
      have h : sys.Step (s.set i { p with residual := .call o next, trace := p.trace ++ tr } v) _ _ :=
        .call (Pool.set_procs_self _ _ _ _) ha rfl (hc v o)
      simpa [Pool.set, Process.after] using h

end System

end FpsMaxxing.Effects
