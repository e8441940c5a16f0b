import FpsMaxxing.Broker.Connection
import FpsMaxxing.Ipc.Socket

/-! A client of the broker and the task that serves it, at the two ends of one socket. Each end is
where its program is; between them are the bytes that one has written and the other not yet read. -/

namespace FpsMaxxing

open Effects Streams

inductive ServerOp
  -- a call on the socket, unless the deadline passes before it returns
  | socket (deadline : ℕ) (o : SocketOp UInt8)
  | dispatch (request : BrokerRequest)

abbrev ServerOp.Res : ServerOp → Type
  | socket _ o => Option (o.Res IoError)
  | dispatch _ => BrokerResponse

abbrev ServerCalls : Signature := ⟨ServerOp, ServerOp.Res⟩

def timeout {α : Type} (deadline : ℕ) : Program SocketCalls α → Program ServerCalls (Option α) :=
  attempt fun o => @Program.perform ServerCalls (.socket deadline o)

namespace Server

variable (json : Json)

def dispatch (request : BrokerRequest) : Program ServerCalls BrokerResponse :=
  @Program.perform ServerCalls (.dispatch request)

def writeResponseWithin (response : BrokerResponse) (deadline : ℕ) :
    Program ServerCalls (Except FrameError Unit) :=
  match json.toVec response with
  | .error text => return .error (.io ⟨.other, text⟩)
  | .ok bytes => do
    match ← timeout deadline (Socket.writeFrame bytes) with
    | none => return .error (.io deadlineMissed)
    | some result => return result

def writeResponse (response : BrokerResponse) : Program ServerCalls (Except FrameError Unit) :=
  writeResponseWithin json response connectionIdleTimeout

def answer (frame : Bytes) : Program ServerCalls BrokerResponse :=
  match json.fromSlice frame with
  | .ok request => dispatch request
  | .error text => return Connection.undecodable text

def respond (response : BrokerResponse) :
    Program ServerCalls (Option (Except FrameError Unit)) := do
  match ← writeResponse json response with
  | .error error => return some (.error error)
  | .ok () => return none

def served : Option (Except FrameError (Option Bytes)) →
    Program ServerCalls (Option (Except FrameError Unit))
  | none | some (.ok none) => return some (.ok ())
  | some (.error .empty) => respond json (Connection.malformed "frame body is empty")
  | some (.error (.tooLarge length)) => do
    let _ ← writeResponse json (Connection.tooLong length)
    return some (.ok ())
  | some (.error (.io error)) => return some (.error (.io error))
  | some (.ok (some frame)) => do respond json (← answer json frame)

def round : Program ServerCalls (Option (Except FrameError Unit)) := do
  served json (← timeout connectionIdleTimeout Socket.readFrame)

def handleConnection (authorizer : PeerAuthorizer) (peer : PeerIdentity) :
    Program ServerCalls (Option (Except FrameError Unit)) :=
  match authorizer peer with
  | .error _ => do
    let _ ← writeResponseWithin json (.refused .unauthenticated unauthorizedMessage)
      rejectionWriteTimeout
    return some (.ok ())
  | .ok () => round json

def loop : Program ServerCalls (Option (Except FrameError Unit)) →
    Program ServerCalls (Option (Except FrameError Unit))
  | .done none => round json
  | task => task

def running {α : Type} : Program ServerCalls α → Bool
  | .done _ => false
  | .call _ _ => true

end Server

/-- The one that holds the `BrokerClient`: between two requests, in one, after one that failed, or
without the client. -/
inductive Caller
  | between
  | calling (task : Program SocketCalls (Except ClientError BrokerResponse))
  | failed
  | ended

def Caller.open : Caller → Bool
  | ended => false
  | _ => true

/-- `log` has what the worker was asked and answered; `retried` is whether a request was made after
one that failed. -/
structure Link where
  caller : Caller
  asked : List BrokerRequest
  answers : List BrokerResponse
  server : Program ServerCalls (Option (Except FrameError Unit))
  up : Bytes
  down : Bytes
  log : List (BrokerRequest × BrokerResponse)
  retried : Bool

namespace Link

def init (json : Json) (authorizer : PeerAuthorizer) (peer : PeerIdentity) : Link :=
  ⟨.between, [], [], Server.handleConnection json authorizer peer, [], [], [], false⟩

def resume (s : Link) (task : Program SocketCalls (Except ClientError BrokerResponse)) : Link :=
  match task with
  | .done (.ok response) => { s with caller := .between, answers := s.answers ++ [response] }
  | .done (.error _) => { s with caller := .failed }
  | task => { s with caller := .calling task }

variable (json : Json) (capacity : ℕ)

inductive Works : Link → Link → Prop
  | client {s : Link} {o next r up down} : s.caller = .calling (.call o next) →
      Transfers capacity (Server.running s.server) s.down s.up o r down up →
      Works s ({ s with up := up, down := down }.resume (next r))
  | server {s : Link} {deadline o next r up down} :
      s.server = .call (.socket deadline o) next →
      Transfers capacity s.caller.open s.up s.down o r up down →
      Works s { s with up := up, down := down, server := Server.loop json (next (some r)) }
  | dispatch {s : Link} {request next} (response) : s.server = .call (.dispatch request) next →
      Works s { s with
        server := Server.loop json (next response)
        log := s.log ++ [(request, response)] }

inductive Fails : Link → Link → Prop
  | client {s : Link} {o next} (e) : s.caller = .calling (.call o next) →
      Fails s (s.resume (next (o.fail e)))
  | drops {s : Link} : s.caller ≠ .ended → Fails s { s with caller := .ended }
  | server {s : Link} {deadline o next} (e) : s.server = .call (.socket deadline o) next →
      Fails s { s with server := Server.loop json (next (some (o.fail e))) }
  | expires {s : Link} {deadline o next} : s.server = .call (.socket deadline o) next →
      Fails s { s with server := Server.loop json (next none) }

/-- A request that fails before anything is sent leaves everything as it was and is no step. -/
inductive Step : Link → Bool → Link → Prop
  | works {s s'} : Works json capacity s s' → Step s true s'
  | fails {s s'} : Fails json s s' → Step s true s'
  | asks {s : Link} {request o next} : s.caller = .between →
      BrokerClient.request json request = .call o next →
      Step s false { s with caller := .calling (.call o next), asked := s.asked ++ [request] }
  | retries {s : Link} {request o next} : s.caller = .failed →
      BrokerClient.request json request = .call o next →
      Step s false { s with
        caller := .calling (.call o next)
        asked := s.asked ++ [request]
        retried := true }

end Link

end FpsMaxxing
