import FpsMaxxing.Contracts.Wire
import FpsMaxxing.Ipc.RoundTrip
import FpsMaxxing.Streams.Duplex

/-! Frames as they go over a socket, read by read and write by write, and the client of the broker.
-/

namespace FpsMaxxing

open Effects Serde Streams

abbrev SocketCalls : Signature := Streams.Socket UInt8 IoError

namespace Socket

def read (n : ℕ) : Program SocketCalls (Except IoError Bytes) :=
  @Program.perform SocketCalls (.read n)

def write (bytes : Bytes) : Program SocketCalls (Except IoError ℕ) :=
  @Program.perform SocketCalls (.write bytes)

def writeAll : Bytes → Program SocketCalls (Except IoError Unit)
  | [] => return .ok ()
  | byte :: bytes => do
    match ← write (byte :: bytes) with
    | .error error => return .error error
    | .ok 0 => return .error ⟨.other, "write zero"⟩
    | .ok (n + 1) => writeAll ((byte :: bytes).drop (n + 1))
termination_by bytes => bytes.length
decreasing_by simp only [List.length_drop, List.length_cons]; omega

def fillPrefix (filled : Bytes) : Program SocketCalls (Except FrameError (Option Bytes)) :=
  if filled.length < 4 then do
    match ← read (4 - filled.length) with
    | .error error => return .error (.io error)
    | .ok [] => return if filled.isEmpty then .ok none else .error truncatedPrefix
    | .ok (byte :: bytes) => fillPrefix (filled ++ byte :: bytes)
  else return .ok (some filled)
termination_by 4 - filled.length
decreasing_by simp only [List.length_append, List.length_cons]; omega

def readExact (n : ℕ) (filled : Bytes) : Program SocketCalls (Except IoError Bytes) :=
  if filled.length < n then do
    match ← read (n - filled.length) with
    | .error error => return .error error
    | .ok [] => return .error ⟨.unexpectedEof, "early eof"⟩
    | .ok (byte :: bytes) => readExact n (filled ++ byte :: bytes)
  else return .ok filled
termination_by n - filled.length
decreasing_by simp only [List.length_append, List.length_cons]; omega

def readBody (len : UInt32) : Program SocketCalls (Except FrameError (Option Bytes)) :=
  if len = 0 then return .error .empty
  else if len > maxFrameBytes then return .error (.tooLarge len.toUInt64)
  else do
    match ← readExact len.toNat [] with
    | .error error => return .error (.io error)
    | .ok body => return .ok (some body)

def readFrame : Program SocketCalls (Except FrameError (Option Bytes)) := do
  match ← fillPrefix [] with
  | .error error => return .error error
  | .ok none => return .ok none
  | .ok (some lenBuf) => readBody (fromBeBytes lenBuf)

/-- A socket holds nothing back, so that there is nothing to flush. -/
def writeFrame (body : Bytes) : Program SocketCalls (Except FrameError Unit) :=
  if body.isEmpty then return .error .empty
  else
    let len : UInt64 := if body.length < 2 ^ 64 then .ofNat body.length else 0xFFFFFFFFFFFFFFFF
    if len > maxFrameBytes.toUInt64 then return .error (.tooLarge len)
    else do
      match ← writeAll (toBeBytes len.toUInt32) with
      | .error error => return .error (.io error)
      | .ok () =>
        match ← writeAll body with
        | .error error => return .error (.io error)
        | .ok () => return .ok ()

end Socket

structure Json where
  print : Value → Except String Bytes
  parse : Bytes → Except String Value
  mismatch : Value → String

namespace Json

variable {α : Type} [Serde α] (json : Json)

def toVec (a : α) : Except String Bytes := json.print (toValue a)

def fromSlice (bytes : Bytes) : Except String α :=
  match json.parse bytes with
  | .error text => .error text
  | .ok v =>
    match fromValue v with
    | some a => .ok a
    | none => .error (json.mismatch v)

def Carries (v : Value) : Prop := ∀ bytes, json.print v = .ok bytes → json.parse bytes = .ok v

variable {json}

lemma carries_of_parse {v : Value} {bytes : Bytes} (h : json.print v = .ok bytes)
    (hp : json.parse bytes = .ok v) : json.Carries v := by
  intro bytes' h'
  cases h.symm.trans h'
  exact hp

lemma Carries.fromSlice {a : α} {bytes : Bytes} (hc : json.Carries (toValue a)) (ha : RoundTrips a)
    (h : json.toVec a = .ok bytes) : json.fromSlice bytes = .ok a := by
  have hv : fromValue (toValue a) = some a := ha
  rw [Json.fromSlice, hc _ h]
  simp only [hv]

end Json

inductive ClientError
  | frame (error : FrameError)
  | codec (text : String)
  | closed
  deriving DecidableEq

namespace BrokerClient

variable (json : Json)

def response : Program SocketCalls (Except ClientError BrokerResponse) := do
  match ← Socket.readFrame with
  | .error error => return .error (.frame error)
  | .ok none => return .error .closed
  | .ok (some frame) => return Except.mapError .codec (json.fromSlice frame)

def request (request : BrokerRequest) : Program SocketCalls (Except ClientError BrokerResponse) :=
  match json.toVec request with
  | .error text => return .error (.codec text)
  | .ok bytes => do
    match ← Socket.writeFrame bytes with
    | .error error => return .error (.frame error)
    | .ok () => response json

end BrokerClient

end FpsMaxxing
