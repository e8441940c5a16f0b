import FpsMaxxing.Broker.Worker

/-! Any number of broker processes on one machine: one lock, one directory of socket entries, and
in each process a worker that outlives the `run` that started it. -/

namespace FpsMaxxing

open Effects Dispatch

variable {σ : Type}

inductive Phase
  | starting
  | locked
  | opened
  | cleared
  | bound
  | serving (identity : ℕ)
  | dropping (identity : ℕ)
  | closing
  | returned
  | exited
  deriving DecidableEq

def Phase.holds : Phase → Bool
  | locked | opened | cleared | bound | serving _ | dropping _ | closing => true
  | starting | returned | exited => false

def Phase.live : Phase → Bool
  | serving _ | dropping _ | closing | returned => true
  | _ => false

structure Instance (σ : Type) where
  socket : String
  phase : Phase
  broker : Broker σ

structure Machine (σ : Type) where
  world : World σ
  holder : Option ℕ
  entries : String → Option ℕ
  procs : ℕ → Option (Instance σ)

inductive Deed
  | moves
  | locks (i : ℕ)
  | unlinks (i : ℕ) (path : String) (inode : ℕ)

namespace Machine

def init (w : World σ) (entries : String → Option ℕ) : Machine σ := ⟨w, none, entries, fun _ => none⟩

def set (m : Machine σ) (i : ℕ) (p : Instance σ) : Machine σ :=
  { m with procs := Function.update m.procs i (some p) }

def Killed (m : Machine σ) (p : Instance σ) (w : World σ) : Prop :=
  w = m.world ∨ p.phase.live = true ∧
    ∃ job o next, p.broker.worker = .busy job (.call o next) ∧ torn m.world o w

variable (P : Provider σ) (os : String) (codec : Codec) (authorizer : PeerAuthorizer)

inductive Step : Machine σ → Deed → Machine σ → Prop
  | start {m i} (socket) : m.procs i = none →
      Step m .moves (m.set i ⟨socket, .starting, .init m.world⟩)
  | lock {m i p} : m.procs i = some p → p.phase = .starting → m.holder = none →
      Step m (.locks i) ({ m with holder := some i }.set i { p with phase := .locked })
  | refuse {m i j p} : m.procs i = some p → p.phase = .starting → m.holder = some j →
      Step m .moves (m.set i { p with phase := .exited })
  | opens {m i p tr w} : m.procs i = some p → p.phase = .locked →
      Steps (sem P) (P.plane.opens os).run m.world tr (.done (.ok ())) w →
      Step m .moves ({ m with world := w }.set i
        { p with phase := .opened, broker := .init w })
  -- the journal cannot be restricted or opened, and the worker thread ends
  | openFails {m i p tr q w} : m.procs i = some p → p.phase = .locked →
      Steps (sem P) (P.plane.opens os).run m.world tr q w →
      Step m .moves ({ m with world := w }.set i
        { p with phase := .closing, broker := { Broker.init w with worker := .stopped, serving := false } })
  | absent {m i p} : m.procs i = some p → p.phase = .opened → m.entries p.socket = none →
      Step m .moves (m.set i { p with phase := .cleared })
  | clear {m i p inode} : m.procs i = some p → p.phase = .opened →
      m.entries p.socket = some inode →
      Step m (.unlinks i p.socket inode)
        ({ m with entries := Function.update m.entries p.socket none }.set i
          { p with phase := .cleared })
  | bind {m i p} (inode) : m.procs i = some p → p.phase = .cleared → m.entries p.socket = none →
      (∀ path, m.entries path ≠ some inode) →
      Step m .moves ({ m with entries := Function.update m.entries p.socket (some inode) }.set i
        { p with phase := .bound })
  | identify {m i p inode} : m.procs i = some p → p.phase = .bound →
      m.entries p.socket = some inode → Step m .moves (m.set i { p with phase := .serving inode })
  -- the entry cannot be looked at, and is removed by name
  | lose {m i p inode} : m.procs i = some p → p.phase = .bound →
      m.entries p.socket = some inode →
      Step m (.unlinks i p.socket inode)
        ({ m with entries := Function.update m.entries p.socket none }.set i
          { p with phase := .closing, broker := { p.broker with serving := false } })
  | bindFails {m i p} : m.procs i = some p →
      p.phase = .opened ∨ p.phase = .cleared ∨ p.phase = .bound →
      Step m .moves (m.set i
        { p with phase := .closing, broker := { p.broker with serving := false } })
  | within {m i p b} : m.procs i = some p → p.phase.live = true →
      Broker.Step P codec authorizer { p.broker with world := m.world } b →
      Step m .moves ({ m with world := b.world }.set i { p with broker := b })
  -- a fatal accept failure, or the worker is gone
  | fail {m i p identity} : m.procs i = some p → p.phase = .serving identity →
      Step m .moves (m.set i
        { p with phase := .dropping identity, broker := { p.broker with serving := false } })
  | unbind {m i p identity} : m.procs i = some p → p.phase = .dropping identity →
      m.entries p.socket = some identity →
      Step m (.unlinks i p.socket identity)
        ({ m with entries := Function.update m.entries p.socket none }.set i
          { p with phase := .closing })
  | unbound {m i p identity} : m.procs i = some p → p.phase = .dropping identity →
      m.entries p.socket ≠ some identity → Step m .moves (m.set i { p with phase := .closing })
  | release {m i p} : m.procs i = some p → p.phase = .closing →
      Step m .moves ({ m with holder := none }.set i { p with phase := .returned })
  | exit {m i p w} : m.procs i = some p → p.phase = .returned → m.Killed p w →
      Step m .moves ({ m with world := w }.set i { p with phase := .exited })
  | crash {m i p w} : m.procs i = some p → p.phase ≠ .exited → m.Killed p w →
      Step m .moves ({ m with
        world := w
        holder := if p.phase.holds then none else m.holder }.set i { p with phase := .exited })

def Run (guard : Machine σ → Deed → Prop) (w : World σ) (entries : String → Option ℕ) :
    Machine σ → Prop :=
  Relation.ReflTransGen
    (fun m m' => ∃ deed, guard m deed ∧ Step P os codec authorizer m deed m') (init w entries)

end Machine

def Instance.Driving (p : Instance σ) : Prop :=
  p.phase.live = true ∧ ∃ job method next, p.broker.worker = .busy job (.call (.provider method) next)

def Broker.Quiet (b : Broker σ) : Prop :=
  b.serving = false ∧ (∀ client ∈ b.clients, client.alive = false) ∧ b.queue = [] ∧
    ((∃ ledger, b.worker = .idle ledger) ∨ b.worker = .stopped)

end FpsMaxxing
