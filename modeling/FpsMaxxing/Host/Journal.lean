import FpsMaxxing.Contracts.Request
import Mathlib.Data.List.Sort

/-! The journal database: its two tables in insertion order and the statements the programs run on
them. Every insertion is committed as one transaction. -/

namespace FpsMaxxing

inductive Stage
  | snapshot
  | preview
  | applyIntent
  | apply
  | verify
  | rollback
  | rollbackVerify
  | completed
  | failed
  | watchdogRestore
  deriving DecidableEq

namespace Stage

def text : Stage → String
  | snapshot => "snapshot"
  | preview => "preview"
  | applyIntent => "apply-intent"
  | apply => "apply"
  | verify => "verify"
  | rollback => "rollback"
  | rollbackVerify => "rollback-verify"
  | completed => "completed"
  | failed => "failed"
  | watchdogRestore => "watchdog-restore"

def terminal : Stage → Bool
  | completed | failed => true
  | _ => false

end Stage

structure Record where
  experimentId : ℤ
  stage : Stage
  providerId : String
  payload : Value
  deriving DecidableEq

/-- A row of `experiment_journal`; `recordedAt` is in milliseconds. -/
structure Row extends Record where
  recordedAt : ℤ
  deriving DecidableEq

structure Trial where
  id : ℤ
  payload : Value
  deriving DecidableEq

structure Database where
  ready : Bool
  rows : List Row
  trials : List Trial
  deriving DecidableEq

namespace Database

def insert (db : Database) (now : ℤ) (records : List Record) : Database :=
  { db with rows := db.rows ++ records.map fun record => ⟨record, now⟩ }

def records (db : Database) : List Record := db.rows.map Row.toRecord

def nextExperiment (db : Database) : ℤ :=
  (db.rows.map fun row => row.experimentId).max?.getD 0 + 1

def nextTrial (db : Database) : ℤ := (db.trials.map Trial.id).max?.getD 0 + 1

def closed (db : Database) (experiment : ℤ) : Bool :=
  db.rows.any fun terminal => terminal.experimentId = experiment && terminal.stage.terminal

def seconds (milliseconds : ℤ) : ℤ := milliseconds / 1000

/-- One row of the watchdog's query: experiment, snapshot payload, intent payload, age. -/
abbrev Candidate := ℤ × Value × Value × Option ℤ

def candidatesOf (db : Database) (now : ℤ) (intent : Row) : List Candidate :=
  (db.rows.filter fun snapshot =>
      snapshot.experimentId = intent.experimentId && snapshot.stage = .snapshot).map
    fun snapshot => (intent.experimentId, snapshot.payload, intent.payload,
      some (seconds now - seconds intent.recordedAt))

/-- The watchdog's query: intents of the provider joined with their snapshots, no terminal row,
ordered by experiment. -/
def unclosed (db : Database) (providerId : String) (now : ℤ) : List Candidate :=
  ((db.rows.filter fun intent =>
      intent.stage = .applyIntent && intent.providerId = providerId &&
        !db.closed intent.experimentId).flatMap (db.candidatesOf now)).insertionSort
    fun a b => a.1 ≤ b.1

def lastRestore (db : Database) (experiment : ℤ) : Option Value :=
  (db.rows.reverse.find? fun row =>
      row.experimentId = experiment && row.stage = .watchdogRestore).map fun row => row.payload

def experiments (db : Database) : List ℤ := (db.rows.map fun row => row.experimentId).dedup

def count (db : Database) (experiment : ℤ) (p : Stage → Bool) : ℕ :=
  (db.rows.filter fun row => row.experimentId = experiment && p row.stage).length

/-- The `doctor` query: groups with an apply intent and no terminal row. -/
def dangling (db : Database) : ℕ :=
  (db.experiments.filter fun experiment =>
    0 < db.count experiment (· = .applyIntent) && db.count experiment Stage.terminal = 0).length

end Database

end FpsMaxxing
