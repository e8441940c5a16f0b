import Mathlib.Logic.Relation
import Mathlib.Tactic.Common

/-! Programs that reach the world only through the calls of a signature. A program is a finite
tree: it either returns or makes one call and continues with the answer, so that every place
where it can be interrupted is a node of the tree. -/

namespace FpsMaxxing.Effects

structure Signature where
  Op : Type
  Res : Op → Type

inductive Program (S : Signature) (α : Type) : Type
  | done (a : α) : Program S α
  | call (o : S.Op) (next : S.Res o → Program S α) : Program S α

variable {S : Signature} {W α β γ : Type}

namespace Program

def bind : Program S α → (α → Program S β) → Program S β
  | .done a, f => f a
  | .call o next, f => .call o fun r => (next r).bind f

instance : Monad (Program S) where
  pure := .done
  bind := bind

def perform (o : S.Op) : Program S (S.Res o) := .call o .done

@[simp] lemma pure_eq (a : α) : (pure a : Program S α) = .done a := rfl

@[simp] lemma done_bind (a : α) (f : α → Program S β) : (.done a : Program S α) >>= f = f a := rfl

@[simp] lemma call_bind (o : S.Op) (next : S.Res o → Program S α) (f : α → Program S β) :
    .call o next >>= f = .call o fun r => next r >>= f := rfl

lemma id_map (p : Program S α) : id <$> p = p := by
  induction p with
  | done a => rfl
  | call o next ih => exact congrArg (Program.call o) (funext ih)

lemma bind_assoc (p : Program S α) (f : α → Program S β) (g : β → Program S γ) :
    p >>= f >>= g = p >>= fun a => f a >>= g := by
  induction p with
  | done a => rfl
  | call o next ih => exact congrArg (Program.call o) (funext ih)

instance : LawfulMonad (Program S) :=
  LawfulMonad.mk' (Program S) id_map (fun _ _ => rfl) bind_assoc

@[simp] lemma map_done (f : α → β) (a : α) : f <$> (.done a : Program S α) = .done (f a) := rfl

@[simp] lemma map_call (f : α → β) (o : S.Op) (next : S.Res o → Program S α) :
    f <$> Program.call o next = .call o fun r => f <$> next r := rfl

end Program

structure Entry (S : Signature) (W : Type) where
  before : W
  op : S.Op
  res : S.Res op

abbrev Semantics (S : Signature) (W : Type) :=
  W → (o : S.Op) → S.Res o → W → Prop

def Semantics.only (sem : Semantics S W) (good : (o : S.Op) → S.Res o → Prop) : Semantics S W :=
  fun w o r w' => sem w o r w' ∧ good o r

/-- `Steps sem p w tr q v`: started as `p` in `w`, the program has made the calls `tr`, is now at
`q`, and the world is `v`. The trace grows on the right, so an interrupted run is a run. -/
inductive Steps (sem : Semantics S W) (p : Program S α) (w : W) :
    List (Entry S W) → Program S α → W → Prop
  | start : Steps sem p w [] p w
  | call {tr o next v r u} : Steps sem p w tr (.call o next) v → sem v o r u →
      Steps sem p w (tr ++ [⟨v, o, r⟩]) (next r) u

namespace Steps

variable {sem sem' : Semantics S W} {p q : Program S α} {w v u : W} {tr tr' : List (Entry S W)}

lemma trans {s : Program S α} (h : Steps sem p w tr q v) (h' : Steps sem q v tr' s u) :
    Steps sem p w (tr ++ tr') s u := by
  induction h' with
  | start => simpa using h
  | call _ hs ih => simpa [List.append_assoc] using ih.call hs

lemma head {o : S.Op} {next : S.Res o → Program S α} {r : S.Res o} (hs : sem w o r v)
    (h : Steps sem (next r) v tr q u) : Steps sem (.call o next) w (⟨w, o, r⟩ :: tr) q u := by
  simpa using (Steps.start.call hs).trans h

lemma mono (hm : ∀ a o r b, sem a o r b → sem' a o r b) (h : Steps sem p w tr q v) :
    Steps sem' p w tr q v := by
  induction h with
  | start => exact .start
  | call _ hs ih => exact ih.call (hm _ _ _ _ hs)

lemma bind {f : α → Program S β} (h : Steps sem p w tr q v) :
    Steps sem (p >>= f) w tr (q >>= f) v := by
  induction h with
  | start => exact .start
  | call _ hs ih => exact ih.call hs

lemma map (f : α → β) (h : Steps sem p w tr q v) : Steps sem (f <$> p) w tr (f <$> q) v := by
  rw [← bind_pure_comp, ← bind_pure_comp]
  exact h.bind

lemma of_map {f : α → β} {q : Program S β} (h : Steps sem (f <$> p) w tr q v) :
    ∃ q', q = f <$> q' ∧ Steps sem p w tr q' v := by
  induction h with
  | start => exact ⟨p, rfl, .start⟩
  | call _ hs ih =>
    obtain ⟨q', hq, h⟩ := ih
    cases q' with
    | done a => cases hq
    | call o next =>
      cases hq
      exact ⟨_, rfl, h.call hs⟩

lemma of_append {e : Entry S W} (h : Steps sem p w (tr ++ e :: tr') q v) :
    ∃ next, Steps sem p w tr (.call e.op next) e.before := by
  generalize hl : tr ++ e :: tr' = full at h
  induction h generalizing tr' with
  | start => simp at hl
  | @call before o next v r u h _ ih =>
    rcases List.eq_nil_or_concat tr' with rfl | ⟨rest, last, rfl⟩
    · obtain ⟨rfl, he⟩ := List.append_inj' hl rfl
      cases he
      exact ⟨next, h⟩
    · rw [List.concat_eq_append, ← List.cons_append, ← List.append_assoc] at hl
      exact ih (List.append_inj' hl rfl).1

lemma of_mem (h : Steps sem p w tr q v) {e : Entry S W} (he : e ∈ tr) :
    ∃ tr' next, Steps sem p w tr' (.call e.op next) e.before := by
  obtain ⟨pre, post, rfl⟩ := List.append_of_mem he
  exact ⟨pre, h.of_append⟩

lemma only {good : (o : S.Op) → S.Res o → Prop} (h : Steps sem p w tr q v)
    (hg : ∀ e ∈ tr, good e.op e.res) : Steps (sem.only good) p w tr q v := by
  induction h with
  | start => exact .start
  | call _ hs ih =>
    refine (ih fun e he => hg e (by simp [he])).call ⟨hs, ?_⟩
    exact hg _ (List.mem_append_right _ (List.mem_singleton.mpr rfl))

lemma good {good : (o : S.Op) → S.Res o → Prop} (h : Steps (sem.only good) p w tr q v) :
    ∀ e ∈ tr, good e.op e.res := by
  induction h with
  | start => simp
  | call _ hs ih =>
    intro e he
    rcases List.mem_append.mp he with he | he
    · exact ih e he
    · rw [List.mem_singleton.mp he]
      exact hs.2

lemma done_inv {a : α} (h : Steps sem (.done a) w tr q v) : tr = [] ∧ q = .done a ∧ v = w := by
  induction h with
  | start => exact ⟨rfl, rfl, rfl⟩
  | call _ _ ih => cases ih.2.1

lemma call_inv {o : S.Op} {next : S.Res o → Program S α}
    (h : Steps sem (.call o next) w tr q v) : tr = [] ∧ q = .call o next ∧ v = w ∨
      ∃ r u tr', tr = ⟨w, o, r⟩ :: tr' ∧ sem w o r u ∧ Steps sem (next r) u tr' q v := by
  induction h with
  | start => exact .inl ⟨rfl, rfl, rfl⟩
  | call _ hs ih =>
    obtain ⟨rfl, hq, rfl⟩ | ⟨r, u, tr', rfl, hr, h⟩ := ih
    · cases hq
      exact .inr ⟨_, _, [], rfl, hs, .start⟩
    · exact .inr ⟨r, u, _, List.cons_append, hr, h.call hs⟩

lemma bind_inv {f : α → Program S β} {b : β} (h : Steps sem (p >>= f) w tr (.done b) v) :
    ∃ tr₁ a u tr₂, tr = tr₁ ++ tr₂ ∧ Steps sem p w tr₁ (.done a) u ∧
      Steps sem (f a) u tr₂ (.done b) v := by
  induction p generalizing w tr with
  | done a => exact ⟨[], a, w, tr, rfl, .start, h⟩
  | call o next ih =>
    obtain ⟨_, hq, _⟩ | ⟨r, u, tr', rfl, hr, h⟩ := call_inv h
    · cases hq
    · obtain ⟨tr₁, a, u', tr₂, rfl, h₁, h₂⟩ := ih r h
      exact ⟨_, a, u', tr₂, rfl, h₁.head hr, h₂⟩

end Steps

namespace Program

/-- Total correctness: no call is left without an answer, and whatever the answers are the
program returns a value and a world that satisfy `post`. -/
def Ensures (sem : Semantics S W) : Program S α → W → (α → W → Prop) → Prop
  | .done a, w, post => post a w
  | .call o next, w, post =>
    (∃ r v, sem w o r v) ∧ ∀ r v, sem w o r v → (next r).Ensures sem v post

variable {sem : Semantics S W} {p : Program S α} {w : W}

@[simp] lemma ensures_done (a : α) (post : α → W → Prop) :
    (Program.done a : Program S α).Ensures sem w post ↔ post a w := Iff.rfl

lemma ensures_bind (f : α → Program S β) (post : β → W → Prop) :
    (p >>= f).Ensures sem w post ↔ p.Ensures sem w fun a v => (f a).Ensures sem v post := by
  induction p generalizing w with
  | done a => rfl
  | call o next ih =>
    refine and_congr_right fun _ => forall_congr' fun r => forall_congr' fun v => ?_
    exact imp_congr_right fun _ => ih r

lemma ensures_map (f : α → β) (post : β → W → Prop) :
    (f <$> p).Ensures sem w post ↔ p.Ensures sem w fun a v => post (f a) v := by
  rw [← bind_pure_comp, ensures_bind]
  rfl

lemma Ensures.mono {post post' : α → W → Prop} (h : p.Ensures sem w post)
    (hm : ∀ a v, post a v → post' a v) : p.Ensures sem w post' := by
  induction p generalizing w with
  | done a => exact hm _ _ h
  | call o next ih => exact ⟨h.1, fun r v hs => ih r (h.2 r v hs)⟩

lemma Ensures.steps {post : α → W → Prop} (h : p.Ensures sem w post) {tr : List (Entry S W)}
    {q : Program S α} {v : W} (hs : Steps sem p w tr q v) : q.Ensures sem v post := by
  induction hs with
  | start => exact h
  | call _ hc ih => exact ih.2 _ _ hc

lemma Ensures.returns {post : α → W → Prop} (h : p.Ensures sem w post) :
    ∃ tr a v, Steps sem p w tr (.done a) v ∧ post a v := by
  induction p generalizing w with
  | done a => exact ⟨[], a, w, .start, h⟩
  | call o next ih =>
    obtain ⟨⟨r, v, hs⟩, hn⟩ := h
    obtain ⟨tr, a, u, hr, ha⟩ := ih r (hn r v hs)
    exact ⟨_, a, u, hr.head hs, ha⟩

lemma Ensures.from {q : Program S α} {v : W} {tr : List (Entry S W)} {post : α → W → Prop}
    (h : q.Ensures sem v post) (hs : Steps sem p w tr q v) :
    q.Ensures sem v fun a u => post a u ∧ ∃ tr, Steps sem p w tr (.done a) u := by
  induction q generalizing v tr with
  | done a => exact ⟨h, tr, hs⟩
  | call o next ih => exact ⟨h.1, fun r u hc => ih r (h.2 r u hc) (hs.call hc)⟩

lemma ensures_true (ht : ∀ w o, ∃ r v, sem w o r v) (p : Program S α) (w : W) :
    p.Ensures sem w fun _ _ => True := by
  induction p generalizing w with
  | done a => trivial
  | call o next ih => exact ⟨ht w o, fun r v _ => ih r v⟩

def advance (answer : W → (o : S.Op) → S.Res o × W) :
    Program S α → ℕ → W → List (Entry S W) × Program S α × W
  | p, 0, w => ([], p, w)
  | .done a, _ + 1, w => ([], .done a, w)
  | .call o next, n + 1, w =>
    let rest := (next (answer w o).1).advance answer n (answer w o).2
    (⟨w, o, (answer w o).1⟩ :: rest.1, rest.2)

lemma advance_steps {answer : W → (o : S.Op) → S.Res o × W}
    (hc : ∀ v o, sem v o (answer v o).1 (answer v o).2) (n : ℕ) (p : Program S α) (w : W) :
    Steps sem p w (p.advance answer n w).1 (p.advance answer n w).2.1
      (p.advance answer n w).2.2 := by
  induction n generalizing p w with
  | zero => cases p <;> exact .start
  | succ n ih =>
    cases p with
    | done a => exact .start
    | call o next => exact (ih _ _).head (hc w o)

@[simp] lemma advance_zero (answer : W → (o : S.Op) → S.Res o × W) (p : Program S α) (w : W) :
    p.advance answer 0 w = ([], p, w) := by
  cases p <;> rfl

lemma advance_succ (answer : W → (o : S.Op) → S.Res o × W) (p : Program S α) (n : ℕ) (w : W) :
    p.advance answer (n + 1) w =
      match p.advance answer n w with
      | (tr, .done a, v) => (tr, .done a, v)
      | (tr, .call o next, v) =>
        (tr ++ [⟨v, o, (answer v o).1⟩], next (answer v o).1, (answer v o).2) := by
  induction n generalizing p w with
  | zero => cases p <;> simp [advance]
  | succ n ih =>
    cases p with
    | done a => rfl
    | call o next =>
      rw [advance, ih, advance]
      split <;> simp_all

def interpret {T : Signature} (handle : (o : S.Op) → Program T (S.Res o)) :
    Program S α → Program T α
  | .done a => .done a
  | .call o next => handle o >>= fun r => (next r).interpret handle

section

variable {T : Signature} {handle : (o : S.Op) → Program T (S.Res o)}

@[simp] lemma interpret_done (a : α) : (Program.done a : Program S α).interpret handle = .done a :=
  rfl

@[simp] lemma interpret_perform (o : S.Op) : (perform o).interpret handle = handle o :=
  bind_pure (handle o)

@[simp] lemma interpret_bind (p : Program S α) (f : α → Program S β) :
    (p >>= f).interpret handle = p.interpret handle >>= fun a => (f a).interpret handle := by
  induction p with
  | done a => rfl
  | call o next ih =>
    rw [call_bind, interpret, interpret, bind_assoc]
    exact congrArg (handle o >>= ·) (funext ih)

@[simp] lemma interpret_map (f : α → β) (p : Program S α) :
    (f <$> p).interpret handle = f <$> p.interpret handle := by
  rw [← bind_pure_comp, interpret_bind, ← bind_pure_comp]
  rfl

end

def nextOp : Program S α → Option S.Op
  | .done _ => none
  | .call o _ => some o

def result : Program S α → Option α
  | .done a => some a
  | .call _ _ => none

lemma result_eq_some {a : α} : p.result = some a ↔ p = .done a := by
  cases p <;> simp [result]

lemma eq_call_of_nextOp {o : S.Op} (h : p.nextOp = some o) : ∃ next, p = .call o next := by
  cases p with
  | done a => cases h
  | call o next =>
    cases h
    exact ⟨next, rfl⟩

lemma advance_done {answer : W → (o : S.Op) → S.Res o × W} {n : ℕ} {a : α}
    (hc : ∀ v o, sem v o (answer v o).1 (answer v o).2)
    (h : (p.advance answer n w).2.1.result = some a) :
    Steps sem p w (p.advance answer n w).1 (.done a) (p.advance answer n w).2.2 := by
  have hs := advance_steps hc n p w
  rwa [result_eq_some.mp h] at hs

end Program

end FpsMaxxing.Effects
