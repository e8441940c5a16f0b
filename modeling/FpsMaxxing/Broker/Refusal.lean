import FpsMaxxing.Broker.LinkAnswers
import FpsMaxxing.Effects.Monitor

/-! A peer that is not authorised: it is told so, and nothing it sends is read. -/

namespace FpsMaxxing

open Effects Serde Streams

variable {json : Json} {W : Type}

namespace Server

def refusal : BrokerResponse := .refused .unauthenticated unauthorizedMessage

def taken : (o : ServerOp) → o.Res → Bytes
  | .socket _ (.write units), some (.ok n) => units.take n
  | _, _ => []

def sent (tr : List (Entry ServerCalls W)) : Bytes := tr.flatMap fun e => taken e.op e.res

def sending (deadline : ℕ) (whole : Bytes) : Monitor ServerCalls Bytes where
  next sent o r := sent ++ taken o r
  allows sent o := ∃ units, o = .socket deadline (.write units) ∧ sent ++ units <+: whole

variable {deadline : ℕ} {whole bytes body : Bytes}

lemma run_sending (pre : Bytes) (tr : List (Entry ServerCalls W)) :
    (sending deadline whole).run pre tr = pre ++ sent tr := by
  induction tr generalizing pre with
  | nil => exact (List.append_nil _).symm
  | cons e tr ih =>
    rw [Monitor.run_cons, ih, sent, sent, List.flatMap_cons]
    exact List.append_assoc ..

lemma writeAll_obeys {pre : Bytes} (hp : pre ++ bytes <+: whole) :
    (timeout deadline (Socket.writeAll bytes)).Obeys (sending deadline whole) pre
      fun r pre' => pre' <+: whole ∧ (r = some (.ok ()) → pre' = pre ++ bytes) := by
  induction bytes using Socket.writeAll.induct generalizing pre with
  | case1 =>
    rw [Socket.writeAll]
    exact ⟨(List.append_nil pre) ▸ hp, fun _ => (List.append_nil pre).symm⟩
  | case2 byte bytes ih =>
    rw [Socket.writeAll]
    have hpre : pre ++ [] <+: whole := by
      rw [List.append_nil]
      exact (List.prefix_append _ _).trans hp
    refine ⟨⟨_, rfl, hp⟩, fun r => ?_⟩
    rcases r with _ | error | _ | n
    · exact ⟨hpre, fun h => by cases h⟩
    · exact ⟨hpre, fun h => by cases h⟩
    · exact ⟨hpre, fun h => by cases h⟩
    · have hsplit : (pre ++ (byte :: bytes).take (n + 1)) ++ (byte :: bytes).drop (n + 1) =
          pre ++ byte :: bytes := by
        rw [List.append_assoc, List.take_append_drop]
      refine (ih n (hsplit ▸ hp : (pre ++ (byte :: bytes).take (n + 1)) ++ _ <+: whole)).mono ?_
      rintro r pre' ⟨hpre', hall⟩
      exact ⟨hpre', fun hr => (hall hr).trans hsplit⟩

lemma writeFrame_obeys (hs : Sendable body) :
    (timeout deadline (Socket.writeFrame body)).Obeys (sending deadline (frame body)) []
      fun _ pre => pre <+: frame body := by
  have hlength : [] ++ toBeBytes (.ofNat body.length) <+: frame body := List.prefix_append _ _
  rw [Socket.writeFrame_of_sendable hs, timeout, attempt_bind, Program.obeys_bind]
  refine (writeAll_obeys hlength).mono ?_
  rintro (_ | error | _) pre ⟨hpre, hall⟩
  · exact hpre
  · exact hpre
  · obtain rfl := hall rfl
    change (attempt _ (_ >>= _)).Obeys _ _ _
    rw [attempt_bind, Program.obeys_bind]
    refine (writeAll_obeys (List.prefix_rfl : frame body <+: frame body)).mono ?_
    rintro (_ | error | _) pre ⟨hpre, _⟩
    · exact hpre
    · exact hpre
    · exact hpre

def message (json : Json) (response : BrokerResponse) : Bytes :=
  match json.toVec response with
  | .ok body => if Sendable body then frame body else []
  | .error _ => []

lemma writeResponseWithin_obeys (response : BrokerResponse) :
    (writeResponseWithin json response deadline).Obeys (sending deadline (message json response)) []
      fun _ pre => pre <+: message json response := by
  rw [writeResponseWithin, message]
  cases json.toVec response with
  | error text => exact List.prefix_rfl
  | ok body =>
    by_cases hs : Sendable body
    · simp only [if_pos hs]
      rw [Program.obeys_bind]
      refine (writeFrame_obeys hs).mono ?_
      rintro (_ | result) pre hpre
      · exact hpre
      · exact hpre
    · obtain ⟨error, he⟩ := Socket.writeFrame_refused hs
      simp only [he, if_neg hs]
      exact List.prefix_rfl

lemma handleConnection_obeys {authorizer : PeerAuthorizer} {peer : PeerIdentity} {error : AuthError}
    (ha : authorizer peer = .error error) :
    (handleConnection json authorizer peer).Obeys
      (sending rejectionWriteTimeout (message json refusal)) []
      fun result pre => result = some (.ok ()) ∧ pre <+: message json refusal := by
  rw [handleConnection, ha]
  exact (Program.obeys_bind _ _).mpr ((writeResponseWithin_obeys refusal).mono fun _ _ hp => ⟨rfl, hp⟩)

end Server

/-- Whatever a peer that is not authorised does at its end of the socket: it is never read from and
never reaches the worker, and what it is sent is the refusal or the beginning of it. -/
theorem peer_refused {semantics : Semantics ServerCalls W} {authorizer : PeerAuthorizer}
    {peer : PeerIdentity} {error : AuthError} {w v : W} {tr : List (Entry ServerCalls W)}
    {q : Program ServerCalls (Option (Except FrameError Unit))}
    (ha : authorizer peer = .error error)
    (h : Steps semantics (Server.handleConnection json authorizer peer) w tr q v) :
    (∀ e ∈ tr, ∃ units, e.op = .socket rejectionWriteTimeout (.write units)) ∧
      Server.sent tr <+: Server.message json Server.refusal ∧
      match q with
      | .done result => result = some (.ok ())
      | .call o _ => ∃ units, o = .socket rejectionWriteTimeout (.write units) := by
  have hobeys := @Server.handleConnection_obeys json _ _ _ ha
  have hq := h.obeys hobeys
  rw [Server.run_sending, List.nil_append] at hq
  refine ⟨fun e he => ?_, ?_, ?_⟩
  · obtain ⟨pre, next, hpre⟩ := h.of_mem he
    obtain ⟨⟨units, ho, _⟩, _⟩ := hpre.obeys hobeys
    exact ⟨units, ho⟩
  · cases q with
    | done result => exact hq.2
    | call o next =>
      obtain ⟨units, _, hp⟩ := hq.1
      exact (List.prefix_append _ _).trans hp
  · cases q with
    | done result => exact hq.1
    | call o next =>
      obtain ⟨units, ho, _⟩ := hq.1
      exact ⟨units, ho⟩

section

def refusalText : String := "\x7b\"outcome\":\"error\",\"error\":\x7b" ++
  "\"kind\":\"unauthenticated\",\"message\":\"peer is not authorized\"\x7d\x7d"

def refusalJson : Json := .table [(toValue Server.refusal, refusalText)]

def talkative : Semantics ServerCalls Unit
  | _, .socket _ (.read n), r, _ => r = some (.ok ((frame (ascii discoverText)).take n))
  | _, .socket _ (.write units), r, _ => r = some (.ok units.length)
  | _, .dispatch _, _, _ => True

lemma Server.sends_talkative {α β : Type} {deadline : ℕ} {whole : Bytes}
    {task task' : Program SocketCalls (Except α β)} (h : Sends Failed task whole task')
    (f : Option (Except α β) → Program ServerCalls (Option (Except FrameError Unit))) :
    ∃ tr, sent tr = whole ∧
      Steps talkative (timeout deadline task >>= f) () tr (timeout deadline task' >>= f) () := by
  induction h with
  | done task => exact ⟨[], rfl, .start⟩
  | @write units more next _ _ _ _ ih =>
    obtain ⟨tr, hsent, hr⟩ := ih units.length (List.length_pos_iff.mpr ‹_›) le_rfl
    rw [List.drop_length, List.nil_append] at hsent
    refine ⟨⟨(), .socket deadline (.write units), some (.ok units.length)⟩ :: tr, ?_, ?_⟩
    · rw [sent, List.flatMap_cons]
      exact congrArg₂ (· ++ ·) List.take_length hsent
    · have htaken : talkative () (.socket deadline (.write units)) (some (.ok units.length)) () := rfl
      exact hr.head htaken

theorem peer_refused_stranger : ∃ tr, Steps talkative
    (Server.handleConnection refusalJson (sameUidAuthorizer 1000) ⟨1001, none⟩) () tr
      (.done (some (.ok ()))) () ∧ Server.sent tr = frame (ascii refusalText) ∧
      ∀ e ∈ tr, ∃ units, e.op = .socket rejectionWriteTimeout (.write units) := by
  have hbody : refusalJson.toVec Server.refusal = .ok (ascii refusalText) := by decide +kernel
  have hs : Sendable (ascii refusalText) := by decide
  obtain ⟨tr, hsent, h⟩ := Server.sends_talkative (Socket.writeFrame_sends hs) _
  have h : Steps talkative
      (Server.handleConnection refusalJson (sameUidAuthorizer 1000) ⟨1001, none⟩) () tr
      (.done (some (.ok ()))) () := by
    change Steps talkative (Server.writeResponseWithin refusalJson Server.refusal _ >>= _) _ _ _ _
    rw [Server.writeResponseWithin, hbody, Program.bind_assoc]
    exact h
  exact ⟨tr, h, hsent, (peer_refused rfl h).1⟩

end

end FpsMaxxing
