import FpsMaxxing.Effects.Program
import Mathlib.Data.Sigma.Basic

/-! Monitors. A monitor remembers something about the calls made so far and says which call may
come next. That a program obeys one is a property of the program alone, checked over every answer
the world might give; along the runs of any semantics it then becomes an invariant. -/

namespace FpsMaxxing.Effects

structure Monitor (S : Signature) (M : Type) where
  next : M → (o : S.Op) → S.Res o → M
  allows : M → S.Op → Prop

variable {S : Signature} {W M α β ε ε' : Type} {mon : Monitor S M}

def Monitor.run (mon : Monitor S M) (m : M) (tr : List (Entry S W)) : M :=
  tr.foldl (fun m e => mon.next m e.op e.res) m

@[simp] lemma Monitor.run_nil (m : M) : mon.run m ([] : List (Entry S W)) = m := rfl

@[simp] lemma Monitor.run_append (m : M) (tr tr' : List (Entry S W)) :
    mon.run m (tr ++ tr') = mon.run (mon.run m tr) tr' := by
  simp [Monitor.run]

@[simp] lemma Monitor.run_cons (m : M) (e : Entry S W) (tr : List (Entry S W)) :
    mon.run m (e :: tr) = mon.run (mon.next m e.op e.res) tr := rfl

abbrev Signature.Event (S : Signature) := (o : S.Op) × S.Res o

instance [DecidableEq S.Op] [∀ o, DecidableEq (S.Res o)] : DecidableEq S.Event :=
  inferInstanceAs (DecidableEq ((o : S.Op) × S.Res o))

def Entry.event (e : Entry S W) : S.Event := ⟨e.op, e.res⟩

def Monitor.history (allows : List S.Event → S.Op → Prop) : Monitor S (List S.Event) where
  next events o r := events ++ [⟨o, r⟩]
  allows := allows

lemma Monitor.run_history (allows : List S.Event → S.Op → Prop) (events : List S.Event)
    (tr : List (Entry S W)) :
    (Monitor.history allows).run events tr = events ++ tr.map Entry.event := by
  induction tr generalizing events with
  | nil => simp
  | cons e tr ih =>
    rw [Monitor.run_cons, ih]
    simp [history, Entry.event]

namespace Program

def Obeys (mon : Monitor S M) : Program S α → M → (α → M → Prop) → Prop
  | .done a, m, post => post a m
  | .call o next, m, post => mon.allows m o ∧ ∀ r, (next r).Obeys mon (mon.next m o r) post

variable {p : Program S α} {m : M}

@[simp] lemma obeys_done (a : α) (post : α → M → Prop) :
    (Program.done a : Program S α).Obeys mon m post ↔ post a m := Iff.rfl

@[simp] lemma obeys_call (o : S.Op) (next : S.Res o → Program S α) (post : α → M → Prop) :
    (Program.call o next).Obeys mon m post ↔
      mon.allows m o ∧ ∀ r, (next r).Obeys mon (mon.next m o r) post := Iff.rfl

@[simp] lemma obeys_perform (o : S.Op) (post : S.Res o → M → Prop) :
    (perform o).Obeys mon m post ↔ mon.allows m o ∧ ∀ r, post r (mon.next m o r) := Iff.rfl

@[simp] lemma obeys_bind (f : α → Program S β) (post : β → M → Prop) :
    (p >>= f).Obeys mon m post ↔ p.Obeys mon m fun a m' => (f a).Obeys mon m' post := by
  induction p generalizing m with
  | done a => rfl
  | call o next ih => exact and_congr_right fun _ => forall_congr' fun r => ih r

@[simp] lemma obeys_map (f : α → β) (post : β → M → Prop) :
    (f <$> p).Obeys mon m post ↔ p.Obeys mon m fun a m' => post (f a) m' := by
  rw [← bind_pure_comp, obeys_bind]
  rfl

lemma Obeys.mono {post post' : α → M → Prop} (h : p.Obeys mon m post)
    (hm : ∀ a m', post a m' → post' a m') : p.Obeys mon m post' := by
  induction p generalizing m with
  | done a => exact hm _ _ h
  | call o next ih => exact ⟨h.1, fun r => ih r (h.2 r)⟩

lemma Obeys.simulate {N : Type} {mon' : Monitor S N} {R : M → N → Prop} {n : N}
    {post : α → M → Prop} {post' : α → N → Prop} (h : p.Obeys mon m post) (hr : R m n)
    (ha : ∀ m n o, R m n → mon.allows m o → mon'.allows n o)
    (hn : ∀ m n o r, R m n → mon.allows m o → R (mon.next m o r) (mon'.next n o r))
    (hp : ∀ a m n, R m n → post a m → post' a n) : p.Obeys mon' n post' := by
  induction p generalizing m n with
  | done a => exact hp a m n hr h
  | call o next ih =>
    exact ⟨ha m n o hr h.1, fun r => ih r (h.2 r) (hn m n o r hr h.1)⟩

lemma Obeys.interpret {T : Signature} {N : Type} {mon' : Monitor T N} {R : M → N → Prop} {n : N}
    {handle : (o : S.Op) → Program T (S.Res o)} {post : α → M → Prop} {post' : α → N → Prop}
    (h : p.Obeys mon m post) (hr : R m n)
    (hh : ∀ m n o, R m n → mon.allows m o →
      (handle o).Obeys mon' n fun r n' => R (mon.next m o r) n')
    (hp : ∀ a m n, R m n → post a m → post' a n) : (p.interpret handle).Obeys mon' n post' := by
  induction p generalizing m n with
  | done a => exact hp a m n hr h
  | call o next ih =>
    rw [Program.interpret, obeys_bind]
    exact (hh m n o hr h.1).mono fun r n' hr' => ih r (h.2 r) hr'

def Asks (good : (o : S.Op) → S.Res o → Prop) (ok : S.Op → Prop) : Program S α → Prop
  | .done _ => True
  | .call o next => ok o ∧ ∀ r, good o r → (next r).Asks good ok

end Program

namespace Steps

variable {sem : Semantics S W} {p q : Program S α} {w v : W} {tr : List (Entry S W)} {m : M}
  {post : α → M → Prop}

lemma obeys (hs : Steps sem p w tr q v) (h : p.Obeys mon m post) :
    q.Obeys mon (mon.run m tr) post := by
  induction hs with
  | start => exact h
  | call _ _ ih => simpa using ih.2 _

lemma allows_of_history {allows : List S.Event → S.Op → Prop} {o : S.Op}
    {post : α → List S.Event → Prop} (hs : Steps sem p w tr q v)
    (h : p.Obeys (.history allows) [] post) (hn : q.nextOp = some o) :
    allows (tr.map Entry.event) o := by
  have hq := hs.obeys h
  rw [Monitor.run_history, List.nil_append] at hq
  cases q with
  | done a => cases hn
  | call o' next =>
    cases hn
    exact hq.1

/-- The invariant rule: a relation between memory and world that every allowed call keeps holds at
every point where the run can be interrupted. -/
lemma invariant {I : M → W → Prop} (hs : Steps sem p w tr q v) (h : p.Obeys mon m post)
    (hi : I m w)
    (hn : ∀ m w o r w', I m w → mon.allows m o → sem w o r w' → I (mon.next m o r) w') :
    I (mon.run m tr) v := by
  induction hs with
  | start => exact hi
  | @call tr o next v r u hs hc ih => simpa using hn _ _ _ _ _ ih (hs.obeys h).1 hc

end Steps

/-! The same rules through the error layer of `ExceptT`. -/

def mapErr (f : ε → ε') (answer : Program S (Except ε α)) : ExceptT ε' (Program S) α :=
  ExceptT.mk (Except.mapError f <$> answer)

namespace Program

variable {m : M} {sem : Semantics S W} {w : W}

@[simp] lemma obeys_mapErr (f : ε → ε') (answer : Program S (Except ε α))
    (post : Except ε' α → M → Prop) :
    (mapErr f answer).run.Obeys mon m post ↔
      answer.Obeys mon m fun r m' => post (r.mapError f) m' := by
  simp [mapErr, ExceptT.run_mk]

lemma ensures_mapErr (f : ε → ε') (answer : Program S (Except ε α))
    (post : Except ε' α → W → Prop) :
    (mapErr f answer).run.Ensures sem w post ↔
      answer.Ensures sem w fun r v => post (r.mapError f) v := by
  simp [mapErr, ExceptT.run_mk, ensures_map]

@[simp] lemma obeys_run_pure (a : α) (post : Except ε α → M → Prop) :
    Program.Obeys mon (pure a : ExceptT ε (Program S) α).run m post ↔ post (.ok a) m := Iff.rfl

@[simp] lemma obeys_run_throw (e : ε) (post : Except ε α → M → Prop) :
    Program.Obeys mon (throw e : ExceptT ε (Program S) α).run m post ↔ post (.error e) m := Iff.rfl

@[simp] lemma obeys_run_bind (x : ExceptT ε (Program S) α) (f : α → ExceptT ε (Program S) β)
    (post : Except ε β → M → Prop) :
    Program.Obeys mon (x >>= f).run m post ↔
      Program.Obeys mon x.run m fun r m' =>
        match r with
        | .ok a => Program.Obeys mon (f a).run m' post
        | .error e => post (.error e) m' := by
  rw [ExceptT.run_bind, obeys_bind]
  refine ⟨fun h => h.mono ?_, fun h => h.mono ?_⟩ <;>
  · rintro (e | a) m' hp <;> exact hp

@[simp] lemma obeys_run_lift_bind (p : Program S α) (f : α → ExceptT ε (Program S) β)
    (post : Except ε β → M → Prop) :
    Program.Obeys mon (ExceptT.lift p >>= f).run m post ↔
      p.Obeys mon m fun a m' => Program.Obeys mon (f a).run m' post := by
  rw [obeys_run_bind, ExceptT.run_lift, obeys_map]

lemma ensures_run_bind (x : ExceptT ε (Program S) α) (f : α → ExceptT ε (Program S) β)
    (post : Except ε β → W → Prop) :
    Program.Ensures sem (x >>= f).run w post ↔
      Program.Ensures sem x.run w fun r v =>
        match r with
        | .ok a => Program.Ensures sem (f a).run v post
        | .error e => post (.error e) v := by
  rw [ExceptT.run_bind, ensures_bind]
  refine ⟨fun h => h.mono ?_, fun h => h.mono ?_⟩ <;>
  · rintro (e | a) v hp <;> exact hp

lemma ensures_run_lift_bind (p : Program S α) (f : α → ExceptT ε (Program S) β)
    (post : Except ε β → W → Prop) :
    Program.Ensures sem (ExceptT.lift p >>= f).run w post ↔
      p.Ensures sem w fun a v => Program.Ensures sem (f a).run v post := by
  rw [ensures_run_bind, ExceptT.run_lift, ensures_map]

end Program

end FpsMaxxing.Effects
