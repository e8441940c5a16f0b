import FpsMaxxing.Effects.Log
import FpsMaxxing.Effects.Pool
import FpsMaxxing.Host.Journal
import FpsMaxxing.Host.Provider

/-! The calls the programs of this repository make: the methods of their provider and the statements
they commit on the journal, both acting on one world. -/

namespace FpsMaxxing

open Effects

inductive Method
  | snapshot
  | preview (request : ChangeRequest)
  | apply (request : ChangeRequest)
  | verify (request : ChangeRequest)
  | rollback (snapshot : StateSnapshot)
  deriving DecidableEq

abbrev Method.Res : Method → Type
  | .snapshot => Except ProviderError StateSnapshot
  | .preview _ => Except ProviderError String
  | .apply _ => Except ProviderError Unit
  | .verify _ => Except ProviderError Bool
  | .rollback _ => Except ProviderError Unit

inductive Statement
  | createTables
  | beginExperiment (providerId : String) (payload : Value)
  | insert (records : List Record)
  | ready
  | unclosed (providerId : String)
  | lastRestore (experiment : ℤ)
  | recordTrial (payload : Value)
  | readTrial (id : ℤ)
  deriving DecidableEq

abbrev Statement.Res : Statement → Type
  | .createTables => Unit
  | .beginExperiment _ _ => ℤ
  | .insert _ => Unit
  | .ready => Bool
  | .unclosed _ => List Database.Candidate
  | .lastRestore _ => Option Value
  | .recordTrial _ => ℤ
  | .readTrial _ => Option Value

structure SqlError where
  text : String
  deriving DecidableEq

inductive Op
  | provider (method : Method)
  | journal (statement : Statement)
  deriving DecidableEq

abbrev Op.Res : Op → Type
  | .provider method => method.Res
  | .journal statement => Except SqlError statement.Res

abbrev Calls : Signature := ⟨Op, Op.Res⟩

instance : (method : Method) → DecidableEq method.Res
  | .snapshot => inferInstanceAs (DecidableEq (Except ProviderError StateSnapshot))
  | .preview _ => inferInstanceAs (DecidableEq (Except ProviderError String))
  | .apply _ | .rollback _ => inferInstanceAs (DecidableEq (Except ProviderError Unit))
  | .verify _ => inferInstanceAs (DecidableEq (Except ProviderError Bool))

instance : (statement : Statement) → DecidableEq statement.Res
  | .createTables | .insert _ => inferInstanceAs (DecidableEq Unit)
  | .beginExperiment _ _ | .recordTrial _ => inferInstanceAs (DecidableEq ℤ)
  | .ready => inferInstanceAs (DecidableEq Bool)
  | .unclosed _ => inferInstanceAs (DecidableEq (List Database.Candidate))
  | .lastRestore _ | .readTrial _ => inferInstanceAs (DecidableEq (Option Value))

instance : (o : Op) → DecidableEq o.Res
  | .provider method => inferInstanceAs (DecidableEq method.Res)
  | .journal statement => inferInstanceAs (DecidableEq (Except SqlError statement.Res))

def invoke (method : Method) : Program Calls method.Res := @Program.perform Calls (.provider method)

def execute (statement : Statement) : Program Calls (Except SqlError statement.Res) :=
  @Program.perform Calls (.journal statement)

section

variable {M : Type} {mon : Monitor Calls M} {m : M}

@[simp] lemma obeys_invoke (method : Method) (post : method.Res → M → Prop) :
    (invoke method).Obeys mon m post ↔
      mon.allows m (.provider method) ∧ ∀ r, post r (mon.next m (.provider method) r) := Iff.rfl

@[simp] lemma obeys_execute (statement : Statement)
    (post : Except SqlError statement.Res → M → Prop) :
    (execute statement).Obeys mon m post ↔
      mon.allows m (.journal statement) ∧
        ∀ r, post r (mon.next m (.journal statement) r) := Iff.rfl

end

/-- The effect of a statement that succeeds at the clock `now`; without tables most cannot. -/
def Statement.run (now : ℤ) : (statement : Statement) → Database →
    Option (statement.Res × Database)
  | .createTables, db => some ((), { db with ready := true })
  | .beginExperiment providerId payload, db =>
    if db.ready then
      some (db.nextExperiment,
        db.insert now [⟨db.nextExperiment, .snapshot, providerId, payload⟩])
    else none
  | .insert records, db => if db.ready then some ((), db.insert now records) else none
  | .ready, db => some (db.ready, db)
  | .unclosed providerId, db => if db.ready then some (db.unclosed providerId now, db) else none
  | .lastRestore experiment, db => if db.ready then some (db.lastRestore experiment, db) else none
  | .recordTrial payload, db =>
    if db.ready then
      some (db.nextTrial, { db with trials := db.trials ++ [⟨db.nextTrial, payload⟩] })
    else none
  | .readTrial id, db =>
    if db.ready then some ((db.trials.find? fun trial => trial.id = id).map Trial.payload, db)
    else none

structure World (σ : Type) where
  db : Database
  host : σ
  deriving DecidableEq

variable {σ : Type}

def Provider.Answers (P : Provider σ) : (method : Method) → σ → method.Res → σ → Prop
  | .snapshot, x, r, y => P.snapshot x r ∧ y = x
  | .preview request, x, r, y => P.preview request x r ∧ y = x
  | .apply request, x, r, y => P.apply request x r y
  | .verify request, x, r, y => P.verify request x r ∧ y = x
  | .rollback snapshot, x, r, y => P.rollback snapshot x r y

/-- A provider call moves the host alone. A statement fails and changes nothing, or it commits. -/
def sem (P : Provider σ) : Semantics Calls (World σ) := fun w o r w' =>
  match o, r with
  | .provider method, r => P.Answers method w.host r w'.host ∧ w'.db = w.db
  | .journal statement, r =>
    (∃ e, r = .error e ∧ w' = w) ∨
      ∃ now b db, statement.run now w.db = some (b, db) ∧ r = .ok b ∧ w' = ⟨db, w.host⟩

/-- A process killed inside `apply` or `rollback` may leave any host state; transactions are
atomic and the other methods only read. -/
def torn (w : World σ) : Op → World σ → Prop
  | .provider (.apply _), w' | .provider (.rollback _), w' => w'.db = w.db
  | _, w' => w' = w

def JournalWorks : (o : Op) → o.Res → Prop
  | .provider _, _ => True
  | .journal _, r => ∃ b, r = .ok b

instance : (o : Op) → (r : o.Res) → Decidable (JournalWorks o r)
  | .provider _, _ => .isTrue trivial
  | .journal _, .ok b => .isTrue ⟨b, rfl⟩
  | .journal _, .error _ => .isFalse (by rintro ⟨b, hb⟩; cases hb)

def anyAnswer (o : Op) (_ : o.Res) : Prop := True

lemma exists_answer (o : Op) : ∃ r : o.Res, anyAnswer o r := by
  cases o with
  | provider method => cases method <;> exact ⟨.error (.unavailable ""), trivial⟩
  | journal statement => exact ⟨.error ⟨""⟩, trivial⟩

lemma logs_invoke (method : Method) (lang : List Calls.Event → method.Res → Prop) :
    (invoke method).Logs anyAnswer lang ↔ ∀ r, lang [⟨.provider method, r⟩] r := by
  constructor
  · exact fun h r => h.2 r trivial
  · exact fun h => ⟨exists_answer (.provider method), fun r _ => h r⟩

lemma logs_execute (statement : Statement)
    (lang : List Calls.Event → Except SqlError statement.Res → Prop) :
    (execute statement).Logs anyAnswer lang ↔ ∀ r, lang [⟨.journal statement, r⟩] r := by
  constructor
  · exact fun h r => h.2 r trivial
  · exact fun h => ⟨exists_answer (.journal statement), fun r _ => h r⟩

section

variable {P : Provider σ} {w : World σ}

lemma Provider.Answers.exists (P : Provider σ) (method : Method) (x : σ) :
    ∃ r y, P.Answers method x r y := by
  cases method with
  | snapshot =>
    obtain ⟨r, h⟩ := P.snapshot_answers x
    exact ⟨r, x, h, rfl⟩
  | preview request =>
    obtain ⟨r, h⟩ := P.preview_answers request x
    exact ⟨r, x, h, rfl⟩
  | apply request => exact P.apply_answers request x
  | verify request =>
    obtain ⟨r, h⟩ := P.verify_answers request x
    exact ⟨r, x, h, rfl⟩
  | rollback snapshot => exact P.rollback_answers snapshot x

lemma sem_answers (P : Provider σ) (w : World σ) (o : Op) : ∃ r v, sem P w o r v := by
  cases o with
  | provider method =>
    obtain ⟨r, y, hr⟩ := Provider.Answers.exists P method w.host
    exact ⟨r, ⟨w.db, y⟩, hr, rfl⟩
  | journal statement => exact ⟨.error ⟨""⟩, w, .inl ⟨_, rfl, rfl⟩⟩

lemma ensures_invoke {method : Method} {post : method.Res → World σ → Prop}
    (h : ∀ r y, P.Answers method w.host r y → post r ⟨w.db, y⟩) :
    (invoke method).Ensures ((sem P).only JournalWorks) w post := by
  obtain ⟨r, y, hr⟩ := Provider.Answers.exists P method w.host
  refine ⟨⟨r, ⟨w.db, y⟩, ⟨hr, rfl⟩, trivial⟩, ?_⟩
  rintro r ⟨db, y⟩ ⟨⟨hr, hdb⟩, _⟩
  cases hdb
  exact h r y hr

lemma ensures_execute_any {statement : Statement}
    {post : Except SqlError statement.Res → World σ → Prop} (he : ∀ e, post (.error e) w)
    (hp : ∀ now b db, statement.run now w.db = some (b, db) → post (.ok b) ⟨db, w.host⟩) :
    (execute statement).Ensures (sem P) w post := by
  refine ⟨⟨.error ⟨""⟩, w, .inl ⟨_, rfl, rfl⟩⟩, ?_⟩
  rintro r v (⟨e, rfl, rfl⟩ | ⟨now, b, db, hrun, rfl, rfl⟩)
  · exact he e
  · exact hp now b db hrun

lemma ensures_execute {statement : Statement} {b : statement.Res} {db : Database}
    {post : Except SqlError statement.Res → World σ → Prop}
    (hr : statement.run 0 w.db = some (b, db))
    (hp : ∀ now b db, statement.run now w.db = some (b, db) → post (.ok b) ⟨db, w.host⟩) :
    (execute statement).Ensures ((sem P).only JournalWorks) w post := by
  refine ⟨⟨.ok b, ⟨db, w.host⟩, .inr ⟨0, b, db, hr, rfl, rfl⟩, b, rfl⟩, ?_⟩
  rintro r v ⟨⟨e, rfl, rfl⟩ | ⟨now, b, db, hrun, rfl, rfl⟩, hw⟩
  · obtain ⟨b, hb⟩ := hw
    cases hb
  · exact hp now b db hrun

end

namespace Device

def answers (d : Device σ) (x : σ) : (method : Method) → method.Res × σ
  | .snapshot => (d.snapshot x, x)
  | .preview request => (d.preview request x, x)
  | .apply request => d.apply request x
  | .verify request => (d.verify request x, x)
  | .rollback snapshot => d.rollback snapshot x

def answer (d : Device σ) (w : World σ) : (o : Op) → o.Res × World σ
  | .provider method => ((d.answers w.host method).1, ⟨w.db, (d.answers w.host method).2⟩)
  | .journal statement =>
    match statement.run 0 w.db with
    | some (b, db) => (.ok b, ⟨db, w.host⟩)
    | none => (.error ⟨"no such table"⟩, w)

lemma answer_sem (d : Device σ) (w : World σ) (o : Op) :
    sem d.provider w o (d.answer w o).1 (d.answer w o).2 := by
  cases o with
  | provider method =>
    refine ⟨?_, rfl⟩
    cases method <;> simp [answer, answers, Provider.Answers, provider]
  | journal statement =>
    simp only [sem, answer]
    cases h : statement.run 0 w.db with
    | none => exact .inl ⟨_, rfl, rfl⟩
    | some b => exact .inr ⟨0, b.1, b.2, h, rfl, rfl⟩

end Device

end FpsMaxxing
