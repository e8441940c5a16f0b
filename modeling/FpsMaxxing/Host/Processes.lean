import FpsMaxxing.Host.Watchdog

/-! The processes that share one journal and one host: control planes that open and run lifecycles,
and watchdog passes. `Progress` is what the calls of a process amount to. -/

namespace FpsMaxxing

open Effects Serde

variable {σ : Type}

inductive Task (σ : Type)
  | opens (P : Provider σ) (os : String)
  | lifecycle (P : Provider σ) (request : ChangeRequest)
  | pass (P : Provider σ) (policy : ReclaimPolicy)

def Task.provider : Task σ → Provider σ
  | .opens P _ | .lifecycle P _ | .pass P _ => P

inductive Outcome
  | opened (result : Except ControlPlaneError Unit)
  | lifecycle (result : Except ControlPlaneError LifecycleResult)
  | pass (result : Except WatchdogError (List Restoration))
  deriving DecidableEq

def Task.start : Task σ → Program Calls Outcome
  | .opens P os => Outcome.opened <$> (P.plane.opens os).run
  | .lifecycle P request => Outcome.lifecycle <$> (P.plane.runLifecycle request).run
  | .pass P policy => Outcome.pass <$> (P.watchdog.reclaim policy).run

def system (σ : Type) : System Calls (World σ) (Task σ) Outcome where
  start := Task.start
  sem task := sem task.provider
  torn _ o w w' := torn w o w'

abbrev Host (σ : Type) := Pool Calls (World σ) (Task σ) Outcome

def World.initial (x : σ) : World σ := ⟨⟨false, [], []⟩, x⟩

structure Progress where
  captured : Option StateSnapshot
  experiment : Option ℤ
  written : List Record
  applied : Bool
  rollbacks : List StateSnapshot
  confirmed : Bool
  lost : Bool
  listed : List Database.Candidate

namespace Progress

def start : Progress := ⟨none, none, [], false, [], false, false, []⟩

def write (m : Progress) (records : List Record) : Progress :=
  { m with written := m.written ++ records }

def next (m : Progress) : (o : Op) → o.Res → Progress
  | .provider .snapshot, .ok snapshot =>
    if m.rollbacks = [] then { m with captured := some snapshot }
    else { m with confirmed := decide (m.rollbacks.getLast? = some snapshot) }
  | .provider (.apply _), _ => { m with applied := true }
  | .provider (.rollback snapshot), _ =>
    { m with rollbacks := m.rollbacks ++ [snapshot], confirmed := false }
  | .provider _, _ => m
  | .journal (.beginExperiment providerId payload), .ok experiment =>
    { m with experiment := some experiment }.write [⟨experiment, .snapshot, providerId, payload⟩]
  | .journal (.insert records), .ok _ => m.write records
  | .journal (.unclosed _), .ok rows => { m with listed := rows }
  | .journal _, .ok _ => m
  | .journal _, .error _ => { m with lost := true }

section

variable (m : Progress)

@[simp] lemma next_snapshot_ok (snapshot : StateSnapshot) :
    m.next (.provider .snapshot) (.ok snapshot) =
      if m.rollbacks = [] then { m with captured := some snapshot }
      else { m with confirmed := decide (m.rollbacks.getLast? = some snapshot) } := rfl

@[simp] lemma next_snapshot_error (e : ProviderError) :
    m.next (.provider .snapshot) (.error e) = m := rfl

@[simp] lemma next_preview (request : ChangeRequest) (r : Except ProviderError String) :
    m.next (.provider (.preview request)) r = m := rfl

@[simp] lemma next_apply (request : ChangeRequest) (r : Except ProviderError Unit) :
    m.next (.provider (.apply request)) r = { m with applied := true } := rfl

@[simp] lemma next_verify (request : ChangeRequest) (r : Except ProviderError Bool) :
    m.next (.provider (.verify request)) r = m := rfl

@[simp] lemma next_rollback (snapshot : StateSnapshot) (r : Except ProviderError Unit) :
    m.next (.provider (.rollback snapshot)) r =
      { m with rollbacks := m.rollbacks ++ [snapshot], confirmed := false } := rfl

@[simp] lemma next_begin_ok (providerId : String) (payload : Value) (experiment : ℤ) :
    m.next (.journal (.beginExperiment providerId payload)) (.ok experiment) =
      { m with experiment := some experiment }.write
        [⟨experiment, .snapshot, providerId, payload⟩] := rfl

@[simp] lemma next_insert_ok (records : List Record) (u : Unit) :
    m.next (.journal (.insert records)) (.ok u) = m.write records := rfl

@[simp] lemma next_unclosed_ok (providerId : String) (rows : List Database.Candidate) :
    m.next (.journal (.unclosed providerId)) (.ok rows) = { m with listed := rows } := rfl

@[simp] lemma next_error (statement : Statement) (e : SqlError) :
    m.next (.journal statement) (.error e) = { m with lost := true } := by
  cases statement <;> rfl

lemma next_listed (o : Op) (r : o.Res) : (m.next o r).listed = m.listed ∨
    ∃ providerId rows, (⟨o, r⟩ : Calls.Event) = ⟨.journal (.unclosed providerId), .ok rows⟩ ∧
      (m.next o r).listed = rows := by
  match o, r with
  | .journal (.unclosed providerId), .ok rows => exact .inr ⟨providerId, rows, rfl, rfl⟩
  | .provider .snapshot, .ok s =>
    left
    rw [next_snapshot_ok]
    split_ifs <;> rfl
  | .journal statement, .error e =>
    left
    rw [next_error]
  | .provider .snapshot, .error _ | .provider (.preview _), _ | .provider (.apply _), _
  | .provider (.verify _), _ | .provider (.rollback _), _ | .journal .createTables, .ok _
  | .journal (.beginExperiment _ _), .ok _ | .journal (.insert _), .ok _ | .journal .ready, .ok _
  | .journal (.lastRestore _), .ok _ | .journal (.recordTrial _), .ok _
  | .journal (.readTrial _), .ok _ => exact .inl rfl

end

def selected (policy : ReclaimPolicy) (m : Progress) : List UnclosedExperiment :=
  match m.listed.mapM Watchdog.decode with
  | .ok experiments => experiments.filter (UnclosedExperiment.selectedBy policy)
  | .error _ => []

def pending (policy : ReclaimPolicy) (m : Progress) : List UnclosedExperiment :=
  (m.selected policy).drop m.rollbacks.length

def current (policy : ReclaimPolicy) (m : Progress) : Option UnclosedExperiment :=
  ((m.selected policy).take m.rollbacks.length).getLast?

end Progress

namespace Stage

def before : Stage → List Stage
  | snapshot | watchdogRestore => []
  | preview => [snapshot]
  | applyIntent => [snapshot, preview]
  | apply => [snapshot, preview, applyIntent]
  | verify => [snapshot, preview, applyIntent, apply]
  | rollback => [snapshot, preview, applyIntent, apply, verify]
  | rollbackVerify => [snapshot, preview, applyIntent, apply, verify, rollback]
  | completed | failed =>
    [snapshot, preview, applyIntent, apply, verify, rollback, rollbackVerify]

end Stage

def Record.byWatchdog (record : Record) : Bool :=
  match record.stage with
  | .watchdogRestore => true
  | .failed => record.payload.get "kind" == some (.string "watchdog-reclaimed")
  | _ => false

def Record.intent {σ : Type} (P : Provider σ) (request : ChangeRequest) (experiment : ℤ) : Record :=
  ⟨experiment, .applyIntent, P.manifest.id, toValue request⟩

namespace Progress

variable (P : Provider σ) (request : ChangeRequest) (policy : ReclaimPolicy)

structure MayRecord (m : Progress) (record : Record) : Prop where
  experiment : m.experiment = some record.experimentId
  providerId : record.providerId = P.manifest.id
  order : (m.written.map Record.stage).Sublist record.stage.before
  later : record.stage ≠ .snapshot ∧ record.stage ≠ .watchdogRestore
  intent : record.stage = .applyIntent → record = .intent P request record.experimentId
  own : record.byWatchdog = false

def lifecycleAllows (m : Progress) : Op → Prop
  | .provider .snapshot => m.captured = none ∧ m.experiment = none ∨ m.rollbacks ≠ []
  | .provider (.preview asked) => asked = request
  | .provider (.apply asked) =>
    asked = request ∧ m.applied = false ∧ m.rollbacks = [] ∧
      ∃ experiment, m.experiment = some experiment ∧
        .intent P request experiment ∈ m.written
  | .provider (.verify asked) => asked = request
  | .provider (.rollback snapshot) =>
    m.applied = true ∧ m.rollbacks = [] ∧ m.captured = some snapshot
  | .journal (.beginExperiment providerId payload) =>
    m.experiment = none ∧ providerId = P.manifest.id ∧ P.plane.validate request = .ok () ∧
      ∃ snapshot, m.captured = some snapshot ∧ payload = toValue snapshot
  | .journal (.insert records) => ∃ record, records = [record] ∧ m.MayRecord P request record
  | .journal _ => False

def passAllows (m : Progress) : Op → Prop
  | .provider .snapshot => m.rollbacks ≠ []
  | .provider (.rollback snapshot) =>
    ∃ experiment rest, m.pending policy = experiment :: rest ∧ experiment.snapshot = snapshot
  | .provider _ => False
  | .journal .ready => True
  | .journal (.unclosed providerId) =>
    providerId = P.manifest.id ∧ m.listed = [] ∧ m.rollbacks = []
  | .journal (.lastRestore _) => True
  | .journal (.insert records) => ∃ experiment, m.current policy = some experiment ∧
      (m.confirmed = true ∧ records = P.watchdog.successRecords experiment ∨
        ∃ error, records = P.watchdog.failureRecords experiment error)
  | .journal _ => False

end Progress

def Task.allows : Task σ → Progress → Op → Prop
  | .opens _ _ => fun _ o => o = .journal .createTables
  | .lifecycle P request => Progress.lifecycleAllows P request
  | .pass P policy => Progress.passAllows P policy

end FpsMaxxing
