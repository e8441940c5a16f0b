import FpsMaxxing.Broker.Service
import FpsMaxxing.Ipc.RoundTrip

/-! One connection of the broker: the peer is authenticated, then its frames are answered in turn.
What the peer sends is the reader; the timer, the worker and the writes are calls. -/

namespace FpsMaxxing

open Effects

structure PeerIdentity where
  uid : UInt32
  pid : Option Int32
  deriving DecidableEq

inductive AuthError
  | foreignUid (expected actual : UInt32)
  deriving DecidableEq

abbrev PeerAuthorizer := PeerIdentity → Except AuthError Unit

def sameUidAuthorizer (expectedUid : UInt32) : PeerAuthorizer := fun peer =>
  if peer.uid = expectedUid then .ok () else .error (.foreignUid expectedUid peer.uid)

structure Transport.Accepted where
  stream : Reader
  peer : PeerIdentity

/-- The JSON of requests and responses; the error is the text of the parser's. -/
structure Codec where
  decode : Bytes → Except String BrokerRequest
  encode : BrokerResponse → Except String Bytes

/-- Both deadlines in milliseconds. -/
def connectionIdleTimeout : ℕ := 30000
def rejectionWriteTimeout : ℕ := 250

def unauthorizedMessage : String := "peer is not authorized"

def deadlineMissed : IoError :=
  ⟨.timedOut, "peer did not accept the response within its write deadline"⟩

def writeResponseWithin (codec : Codec) (fault : Option WriteFault) (response : BrokerResponse)
    (out : Bytes) : Except FrameError Unit × Bytes :=
  match codec.encode response with
  | .error text => (.error (.io ⟨.other, text⟩), out)
  | .ok bytes => writeFrame fault bytes out

inductive ConnectionOp
  -- whether the idle timeout passes before the next frame has been read
  | expired
  | dispatch (request : BrokerRequest)
  | write (response : BrokerResponse) (deadline : ℕ)

abbrev ConnectionOp.Res : ConnectionOp → Type
  | expired => Bool
  | dispatch _ => BrokerResponse
  | write _ _ => Except FrameError Unit

abbrev ConnectionCalls : Signature := ⟨ConnectionOp, ConnectionOp.Res⟩

namespace Connection

def expired : Program ConnectionCalls Bool := @Program.perform ConnectionCalls .expired

def dispatch (request : BrokerRequest) : Program ConnectionCalls BrokerResponse :=
  @Program.perform ConnectionCalls (.dispatch request)

def writeResponse (response : BrokerResponse) (deadline : ℕ) :
    Program ConnectionCalls (Except FrameError Unit) :=
  @Program.perform ConnectionCalls (.write response deadline)

def malformed (message : String) : BrokerResponse := .refused .malformed message

def tooLong (length : UInt64) : BrokerResponse :=
  malformed ("frame length " ++ toString length ++ " exceeds the maximum")

def undecodable (text : String) : BrokerResponse := malformed ("invalid request: " ++ echoed text)

lemma readFrame_empty_length {reader next : Reader} (h : readFrame reader = (.error .empty, next)) :
    next.content.length < reader.content.length := by
  have hc := (readFrame_empty h).1
  simp [hc]

def answer (codec : Codec) (frame : Bytes) : Program ConnectionCalls BrokerResponse :=
  match codec.decode frame with
  | .ok request => dispatch request
  | .error text => return undecodable text

end Connection

open Connection

def serveFrames (codec : Codec) (reader : Reader) :
    Program ConnectionCalls (Except FrameError Unit) := do
  if ← expired then
    return .ok ()
  else
    match _h : readFrame reader with
    | (.ok (some frame), reader) =>
      let response ← answer codec frame
      match ← writeResponse response connectionIdleTimeout with
      | .error error => return .error error
      | .ok () => serveFrames codec reader
    | (.ok none, _) => return .ok ()
    | (.error .empty, reader) =>
      match ← writeResponse (malformed "frame body is empty") connectionIdleTimeout with
      | .error error => return .error error
      | .ok () => serveFrames codec reader
    | (.error (.tooLarge length), _) =>
      let _ ← writeResponse (tooLong length) connectionIdleTimeout
      return .ok ()
    | (.error error, _) => return .error error
termination_by reader.content.length
decreasing_by
  · exact readFrame_length _h
  · exact readFrame_empty_length _h

def handleConnection (codec : Codec) (authorizer : PeerAuthorizer) (accepted : Transport.Accepted) :
    Program ConnectionCalls (Except FrameError Unit) :=
  match authorizer accepted.peer with
  | .error _ => do
    let _ ← writeResponse (.refused .unauthenticated unauthorizedMessage) rejectionWriteTimeout
    return .ok ()
  | .ok () => serveFrames codec accepted.stream

end FpsMaxxing
