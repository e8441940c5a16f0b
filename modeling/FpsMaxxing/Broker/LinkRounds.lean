import FpsMaxxing.Broker.ConnectionSpec
import FpsMaxxing.Broker.Link
import FpsMaxxing.Ipc.SocketSpec

/-! The task at the broker's end of a link goes round by round through what `handleConnection` does
with the frames of a reader. -/

namespace FpsMaxxing

open Effects Connection Serde Streams

def Json.codec (json : Json) : Codec := ⟨json.fromSlice, json.toVec⟩

variable {json : Json} {codec : Codec}

namespace Connection

def respond (response : BrokerResponse) :
    Program ConnectionCalls (Option (Except FrameError Unit)) := do
  match ← writeResponse response connectionIdleTimeout with
  | .error error => return some (.error error)
  | .ok () => return none

def reply (codec : Codec) : Except FrameError (Option Bytes) →
    Program ConnectionCalls (Option (Except FrameError Unit))
  | .ok (some frame) => do respond (← answer codec frame)
  | .ok none => return some (.ok ())
  | .error .empty => respond (malformed "frame body is empty")
  | .error (.tooLarge length) => do
    let _ ← writeResponse (tooLong length) connectionIdleTimeout
    return some (.ok ())
  | .error (.io error) => return some (.error (.io error))

lemma respond_bind (response : BrokerResponse)
    (rest : Program ConnectionCalls (Except FrameError Unit)) :
    (respond response >>= fun result => result.elim rest pure) = (do
      match ← writeResponse response connectionIdleTimeout with
      | .error error => return .error error
      | .ok () => rest) := by
  refine congrArg (Program.call _) (funext ?_)
  rintro (error | _) <;> rfl

lemma turn_eq (rest : Program ConnectionCalls (Except FrameError Unit))
    (outcome : Except FrameError (Option Bytes)) :
    turn codec rest outcome = reply codec outcome >>= fun result => result.elim rest pure := by
  rcases outcome with (error | length | _) | _ | body
  · rfl
  · rfl
  · exact (respond_bind _ rest).symm
  · rfl
  · rw [turn, reply, Program.bind_assoc]
    exact congrArg (answer codec body >>= ·) (funext fun response => (respond_bind _ rest).symm)

lemma serveFrames_reply (reader : Reader) : serveFrames codec reader = (do
    if ← expired then return .ok ()
    else
      let result ← reply codec (readFrame reader).1
      result.elim (serveFrames codec (readFrame reader).2) pure) := by
  rw [serveFrames_eq]
  refine congrArg (expired >>= ·) (funext fun late => ?_)
  rw [turn_eq]

end Connection

namespace Server

/-- The idle timeout expires where the frame is read. -/
def carried (json : Json) : (o : ConnectionOp) → Program ServerCalls o.Res
  | .expired => return false
  | .dispatch request => dispatch request
  | .write response deadline => writeResponseWithin json response deadline

lemma respond_carried (response : BrokerResponse) :
    respond json response = (Connection.respond response).interpret (carried json) := by
  rw [Connection.respond, Program.interpret_bind, Connection.writeResponse,
    Program.interpret_perform, respond]
  refine congrArg (writeResponse json response >>= ·) (funext ?_)
  rintro (error | _) <;> rfl

lemma served_carried (outcome : Except FrameError (Option Bytes)) :
    served json (some outcome) = (reply json.codec outcome).interpret (carried json) := by
  rcases outcome with (error | length | _) | _ | body
  · rfl
  · rw [reply, Program.interpret_bind, Connection.writeResponse, Program.interpret_perform]
    rfl
  · exact respond_carried _
  · rfl
  · rw [reply, Program.interpret_bind, Connection.answer, served, answer]
    cases hd : json.fromSlice (α := BrokerRequest) body with
    | error text =>
      have hd' : json.codec.decode body = .error text := hd
      simp only [hd']
      exact respond_carried _
    | ok request =>
      have hd' : json.codec.decode body = .ok request := hd
      simp only [hd']
      refine congrArg (Program.call _) (funext fun response => ?_)
      exact respond_carried response

lemma handleConnection_carried {authorizer : PeerAuthorizer} {accepted : Transport.Accepted}
    {error : AuthError} (ha : authorizer accepted.peer = .error error) :
    handleConnection json authorizer accepted.peer =
      some <$> (FpsMaxxing.handleConnection json.codec authorizer accepted).interpret
        (carried json) := by
  rw [handleConnection, FpsMaxxing.handleConnection, ha]
  rw [Program.interpret_bind, Connection.writeResponse, Program.interpret_perform, map_bind]
  rfl

def reads : Semantics ServerCalls Reader
  | reader, .socket _ (.read n), r, next =>
    r = none ∧ next = reader ∨ ∃ read, r = some read ∧ reader.read n = (read, next)
  | reader, .socket _ (.write _), _, next => next = reader
  | reader, .dispatch _, _, next => next = reader

lemma steps_timeout {α : Type} {task : Program SocketCalls α} {deadline : ℕ}
    {f : Option α → Program ServerCalls (Option (Except FrameError Unit))}
    {post : α → Reader → Prop} {reader next : Reader} {tr : List (Entry ServerCalls Reader)}
    {result : Option (Except FrameError Unit)} (ht : task.Ensures Reader.answers reader post)
    (h : Steps reads (timeout deadline task >>= f) reader tr (.done result) next) :
    ∃ read mid tr', (∀ a, read = some a → post a mid) ∧
      Steps reads (f read) mid tr' (.done result) next := by
  induction task generalizing reader tr with
  | done a => exact ⟨some a, reader, tr, fun _ ha => Option.some.inj ha ▸ ht, h⟩
  | call o rest ih =>
    obtain ⟨_, hq, _⟩ | ⟨r, mid, tr', rfl, hr, hrest⟩ := h.call_inv
    · cases hq
    · cases o with
      | read n =>
        rcases hr with ⟨rfl, rfl⟩ | ⟨read, rfl, hread⟩
        · exact ⟨none, mid, tr', nofun, hrest⟩
        · exact ih read (ht.2 read mid hread) hrest
      | write units =>
        obtain ⟨_, _, hfalse⟩ := ht.1
        exact hfalse.elim

end Server

/-- A round that comes to an end was given up while it read, or is the round of `handleConnection`
for the frame that the reader gives next. -/
theorem Server.round_replies {reader next : Reader} {tr : List (Entry ServerCalls Reader)}
    {result : Option (Except FrameError Unit)}
    (h : Steps Server.reads (Server.round json) reader tr (.done result) next) :
    result = some (.ok ()) ∨ ∃ mid tr', mid.At reader.failure (readFrame reader).2.content ∧
      Steps Server.reads ((reply json.codec (readFrame reader).1).interpret (Server.carried json))
        mid tr' (.done result) next := by
  obtain ⟨read, mid, tr', hread, hrest⟩ := Server.steps_timeout Socket.readFrame_ensures h
  cases read with
  | none =>
    obtain ⟨_, hq, _⟩ := hrest.done_inv
    cases hq
    exact .inl rfl
  | some outcome =>
    obtain ⟨rfl, hat⟩ := hread outcome rfl
    rw [Server.served_carried] at hrest
    exact .inr ⟨mid, tr', hat, hrest⟩

end FpsMaxxing
