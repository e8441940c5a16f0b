import FpsMaxxing.Broker.WorkerSpec
import FpsMaxxing.Dispatch.Counted

/-! The accept loop of `serve` beside the worker and the connections. A slot is taken before a peer is
accepted and goes with the connection, and a stopped worker is looked for first whenever the loop
is polled. -/

namespace FpsMaxxing

open Effects Dispatch

variable {σ : Type}

inductive Transport.ErrorKind
  | connectionAborted
  | interrupted
  | other
  deriving DecidableEq

structure Transport.Error where
  kind : Transport.ErrorKind
  text : String
  deriving DecidableEq

def isTransientAcceptError (error : Transport.Error) : Bool :=
  match error.kind with
  | .connectionAborted | .interrupted => true
  | .other => false

def workerStopped : Transport.Error :=
  ⟨.other, "broker control-plane worker stopped; restart the broker process"⟩

/-- Where `serve` stands; `slot` tells whether the pending `admit` has its permit. -/
inductive Acceptor
  | selecting (slot : Bool)
  | admitting (slot : Bool)
  | sleeping
  | returned (error : Transport.Error)

def Acceptor.slots : Acceptor → ℕ
  | selecting slot | admitting slot => slot.toNat
  | sleeping | returned _ => 0

def Acceptor.fuel : Acceptor → ℕ
  | returned _ => 0
  | selecting _ => 1
  | sleeping => 2
  | admitting true => 3
  | admitting false => 4

def Acceptor.room : Acceptor → ℕ
  | admitting _ => 1
  | _ => 0

def Broker.live (s : Broker σ) : ℕ := (s.clients.filter Client.alive).length

structure Serving (σ : Type) where
  broker : Broker σ
  acceptor : Acceptor
  -- the permits left
  connections : ℕ
  -- what `accept` has failed with
  failures : List Transport.Error

namespace Serving

def init (w : World σ) : Serving σ := ⟨.init w, .selecting false, maxConnections, []⟩

variable (P : Provider σ) (codec : Codec) (authorizer : PeerAuthorizer)

inductive Step : Serving σ → Bool → Serving σ → Prop
  | poll {s slot} : s.acceptor = .selecting slot → s.broker.worker ≠ .stopped →
      Step s true { s with acceptor := .admitting slot }
  -- the pending `admit` is dropped, with its permit if it has one
  | halt {s slot} : s.acceptor = .selecting slot → s.broker.worker = .stopped →
      Step s true { s with
        broker := { s.broker with serving := false }
        acceptor := .returned workerStopped
        connections := s.connections + slot.toNat }
  | acquire {s} : s.acceptor = .admitting false → 0 < s.connections →
      Step s true { s with acceptor := .admitting true, connections := s.connections - 1 }
  | pend {s slot} : s.acceptor = .admitting slot →
      Step s true { s with acceptor := .selecting slot }
  | accept {s} (accepted : Transport.Accepted) : s.acceptor = .admitting true →
      Step s true { s with
        broker := { s.broker with
          clients := s.broker.clients ++
            [⟨handleConnection codec authorizer accepted, none, 0, true⟩] }
        acceptor := .selecting false }
  | retry {s} (error) : s.acceptor = .admitting true → isTransientAcceptError error = true →
      Step s true { s with
        acceptor := .sleeping
        connections := s.connections + 1
        failures := s.failures ++ [error] }
  | wake {s} : s.acceptor = .sleeping → Step s true { s with acceptor := .selecting false }
  | fail {s} (error) : s.acceptor = .admitting true → isTransientAcceptError error = false →
      Step s true { s with
        broker := { s.broker with serving := false }
        acceptor := .returned error
        connections := s.connections + 1
        failures := s.failures ++ [error] }
  -- the worker and the connections among themselves
  | within {s b} : Broker.Step P codec authorizer s.broker b → b.serving = s.broker.serving →
      b.clients.map Client.alive = s.broker.clients.map Client.alive →
      Step s false { s with broker := b }
  -- the task of a connection ends, or is dropped, and gives its permit back
  | leave {s c client} : s.broker.clients[c]? = some client → client.alive = true →
      Step s false { s with
        broker := s.broker.setClient c { client with alive := false }
        connections := s.connections + 1 }

def Reach (w : World σ) : Serving σ → Prop :=
  Relation.ReflTransGen (Moves (Step P codec authorizer)) (init w)

structure Sound (w : World σ) (s : Serving σ) : Prop where
  refines : Broker.Reach P codec authorizer w s.broker
  slots : s.connections + s.acceptor.slots + s.broker.live = maxConnections
  serving : s.broker.serving = true ↔ ∀ error, s.acceptor ≠ .returned error
  returned : ∀ error, s.acceptor = .returned error →
    error = workerStopped ∧ Down s.broker.log ∨
      error ∈ s.failures ∧ isTransientAcceptError error = false
  transient : (∀ error, s.acceptor ≠ .returned error) →
    ∀ error ∈ s.failures, isTransientAcceptError error = true

end Serving

end FpsMaxxing
