import FpsMaxxing.Effects.Runs

/-! What a program logs while the answers to its calls are good ones. -/

namespace FpsMaxxing.Effects

variable {S : Signature} {W α β : Type} {good : (o : S.Op) → S.Res o → Prop}

namespace Program

/-- The program can go on while the answers are good, and `lang` holds of the calls it has then made
and of what it returns. -/
def Logs (good : (o : S.Op) → S.Res o → Prop) :
    Program S α → (List S.Event → α → Prop) → Prop
  | .done a, lang => lang [] a
  | .call o next, lang =>
    (∃ r, good o r) ∧ ∀ r, good o r → (next r).Logs good fun log a => lang (⟨o, r⟩ :: log) a

variable {p : Program S α} {lang : List S.Event → α → Prop}

lemma Logs.mono {lang' : List S.Event → α → Prop} (h : p.Logs good lang)
    (hm : ∀ log a, lang log a → lang' log a) : p.Logs good lang' := by
  induction p generalizing lang lang' with
  | done a => exact hm _ _ h
  | call o next ih => exact ⟨h.1, fun r hr => ih r (h.2 r hr) fun log a => hm _ a⟩

@[simp] lemma logs_done (a : α) (lang : List S.Event → α → Prop) :
    (Program.done a : Program S α).Logs good lang ↔ lang [] a := Iff.rfl

lemma logs_bind (f : α → Program S β) (lang : List S.Event → β → Prop) :
    (p >>= f).Logs good lang ↔
      p.Logs good fun log a => (f a).Logs good fun log' b => lang (log ++ log') b := by
  induction p generalizing lang with
  | done a => rfl
  | call o next ih => exact and_congr_right fun _ => forall_congr' fun r => imp_congr_right fun _ => ih r _

lemma logs_map (f : α → β) (lang : List S.Event → β → Prop) :
    (f <$> p).Logs good lang ↔ p.Logs good fun log a => lang log (f a) := by
  induction p generalizing lang with
  | done a => rfl
  | call o next ih => exact and_congr_right fun _ => forall_congr' fun r => imp_congr_right fun _ => ih r _

variable {ε ε' : Type}

lemma logs_mapErr (f : ε → ε') (answer : Program S (Except ε α))
    (lang : List S.Event → Except ε' α → Prop) :
    (mapErr f answer).run.Logs good lang ↔ answer.Logs good fun log r => lang log (r.mapError f) := by
  rw [mapErr, ExceptT.run_mk, logs_map]

lemma logs_run_bind (x : ExceptT ε (Program S) α) (f : α → ExceptT ε (Program S) β)
    (lang : List S.Event → Except ε β → Prop) :
    Program.Logs good (x >>= f).run lang ↔
      Program.Logs good x.run fun log r =>
        match r with
        | .ok a => Program.Logs good (f a).run fun log' b => lang (log ++ log') b
        | .error e => lang log (.error e) := by
  rw [ExceptT.run_bind, logs_bind]
  refine ⟨fun h => h.mono ?_, fun h => h.mono ?_⟩ <;>
  · rintro log (e | a) h <;> simpa [Logs] using h

lemma logs_run_lift_bind (p : Program S α) (f : α → ExceptT ε (Program S) β)
    (lang : List S.Event → Except ε β → Prop) :
    Program.Logs good (ExceptT.lift p >>= f).run lang ↔
      p.Logs good fun log a => Program.Logs good (f a).run fun log' b => lang (log ++ log') b := by
  rw [logs_run_bind, ExceptT.run_lift, logs_map]

lemma logs_true (hr : ∀ o, ∃ r, good o r) (p : Program S α) : p.Logs good fun _ _ => True := by
  induction p with
  | done a => trivial
  | call o next ih => exact ⟨hr o, fun r _ => ih r⟩

lemma Logs.exists (h : p.Logs good lang) : ∃ log a, lang log a := by
  induction p generalizing lang with
  | done a => exact ⟨[], a, h⟩
  | call o next ih =>
    obtain ⟨⟨r, hr⟩, hn⟩ := h
    obtain ⟨log, a, hl⟩ := ih r (hn r hr)
    exact ⟨_, a, hl⟩

lemma Logs.steps {sem : Semantics S W} {w v : W} {tr : List (Entry S W)} {q : Program S α}
    (h : p.Logs good lang) (hs : Steps (sem.only good) p w tr q v) :
    ∃ log a, lang log a ∧ tr.map Entry.event <+: log ∧
      ∀ b, q = .done b → tr.map Entry.event = log ∧ b = a := by
  have hq : q.Logs good fun log a => lang (tr.map Entry.event ++ log) a := by
    induction hs with
    | start => exact h
    | call _ hc ih => exact (ih.2 _ hc.2).mono fun log a hl => by simpa [Entry.event] using hl
  cases q with
  | done b =>
    refine ⟨_, b, hq, List.prefix_append _ _, ?_⟩
    rintro _ ⟨⟩
    exact ⟨(List.append_nil _).symm, rfl⟩
  | call o next =>
    obtain ⟨log, a, hl⟩ := hq.exists
    exact ⟨_, a, hl, List.prefix_append _ _, fun b hb => by cases hb⟩

end Program

inductive Chain (sem : Semantics S W) : W → List S.Event → W → Prop
  | nil {w} : Chain sem w [] w
  | cons {w o r u log v} : sem w o r u → Chain sem u log v → Chain sem w (⟨o, r⟩ :: log) v

section

variable {sem sem' : Semantics S W} {w v : W} {log log' : List S.Event}

lemma chain_nil : Chain sem w [] v ↔ v = w := by
  constructor
  · rintro ⟨⟩
    rfl
  · rintro rfl
    exact .nil

lemma chain_cons {o : S.Op} {r : S.Res o} :
    Chain sem w (⟨o, r⟩ :: log) v ↔ ∃ u, sem w o r u ∧ Chain sem u log v := by
  constructor
  · rintro ⟨⟩
    exact ⟨_, ‹_›, ‹_›⟩
  · rintro ⟨u, hs, hc⟩
    exact .cons hs hc

lemma chain_append : Chain sem w (log ++ log') v ↔ ∃ u, Chain sem w log u ∧ Chain sem u log' v := by
  induction log generalizing w with
  | nil => simp [chain_nil]
  | cons e log ih =>
    obtain ⟨o, r⟩ := e
    rw [List.cons_append, chain_cons]
    simp only [ih, chain_cons]
    constructor
    · rintro ⟨u, hs, x, hc, hc'⟩
      exact ⟨x, ⟨u, hs, hc⟩, hc'⟩
    · rintro ⟨x, ⟨u, hs, hc⟩, hc'⟩
      exact ⟨u, hs, x, hc, hc'⟩

lemma Steps.chain {p q : Program S α} {tr : List (Entry S W)} (h : Steps sem p w tr q v) :
    Chain sem w (tr.map Entry.event) v := by
  induction h with
  | start => exact .nil
  | call _ hs ih =>
    rw [List.map_append, chain_append]
    exact ⟨_, ih, .cons hs .nil⟩

end

lemma Program.Logs.returned {sem : Semantics S W} {p : Program S α}
    {lang : List S.Event → α → Prop} (h : p.Logs good lang) {w v : W} {tr : List (Entry S W)}
    {a : α} (hs : Steps sem p w tr (.done a) v) (hg : ∀ e ∈ tr, good e.op e.res) :
    lang (tr.map Entry.event) a ∧ Chain sem w (tr.map Entry.event) v := by
  obtain ⟨log, b, hl, _, hd⟩ := h.steps (hs.only hg)
  obtain ⟨hlog, rfl⟩ := hd a rfl
  exact ⟨hlog ▸ hl, hs.chain⟩

end FpsMaxxing.Effects
