import FpsMaxxing.Broker.ConnectionSpec
import FpsMaxxing.Broker.LinkSpec

/-! Requests over a link: they are answered in their order, each at most once and after a bounded
number of steps, and as long as nothing fails every one of them is. -/

namespace FpsMaxxing

open Effects Relation Serde Streams

variable {json : Json} {capacity : ℕ}

namespace Link

section whole

variable {s : Link} {message body : Bytes} {α : Type}

lemma client_sends {task task' : Program SocketCalls (Except ClientError BrokerResponse)}
    (h : Sends Failed task message task') (hrun : Server.running s.server = true)
    (hcap : s.up.length + message.length ≤ capacity) :
    ReflTransGen (Works json capacity) (s.resume task)
      ({ s with up := s.up ++ message }.resume task') := by
  refine h.runs (c := fun task up => { s with up := up }.resume task) ?_ hcap
  intro units next up hu hroom
  exact @Works.client json capacity
    { s with caller := .calling (.call (.write units) next), up := up } _ _ _ _ _ rfl
    (.whole hrun hu hroom)

lemma client_receives {task : Program SocketCalls (Except ClientError BrokerResponse)}
    {answer : Except ClientError BrokerResponse} (h : Receives Failed task message answer) :
    ReflTransGen (Works json capacity) ({ s with down := message }.resume task)
      ({ s with down := [] }.resume (.done answer)) := by
  refine h.runs (c := fun task down => { s with down := down }.resume task) ?_
  intro n next units rest hu hlen
  exact @Works.client json capacity
    { s with caller := .calling (.call (.read n) next), down := units ++ rest } _ _ _ _ _ rfl
    (.read hu hlen)

lemma server_receives {task : Program SocketCalls α} {bad : α → Prop} {a : α} {deadline : ℕ}
    (f : Option α → Program ServerCalls (Option (Except FrameError Unit)))
    (h : Receives bad task message a) :
    ReflTransGen (Works json capacity)
      { s with up := message, server := Server.loop json (timeout deadline task >>= f) }
      { s with up := [], server := Server.loop json (f (some a)) } := by
  refine h.runs (c := fun task up =>
    { s with up := up, server := Server.loop json (timeout deadline task >>= f) }) ?_
  intro n next units rest hu hlen
  have hs : Works json capacity { s with
      up := units ++ rest
      server := Server.loop json (timeout deadline (.call (.read n) next) >>= f) } _ :=
    .server rfl (.read hu hlen)
  exact hs

lemma server_sends {task task' : Program SocketCalls α} {bad : α → Prop} {deadline : ℕ}
    (f : Option α → Program ServerCalls (Option (Except FrameError Unit)))
    (h : Sends bad task message task') (hopen : s.caller.open = true)
    (hcap : s.down.length + message.length ≤ capacity) :
    ReflTransGen (Works json capacity)
      { s with server := Server.loop json (timeout deadline task >>= f) }
      { s with
        down := s.down ++ message
        server := Server.loop json (timeout deadline task' >>= f) } := by
  refine h.runs (c := fun task down =>
    { s with down := down, server := Server.loop json (timeout deadline task >>= f) }) ?_ hcap
  intro units next down hu hroom
  have hs : Works json capacity { s with
      down := down
      server := Server.loop json (timeout deadline (.call (.write units) next) >>= f) } _ :=
    .server rfl (.whole hopen hu hroom)
  exact hs

end whole

structure Idle (json : Json) (s : Link) : Prop where
  caller : s.caller = .between
  server : s.server = Server.round json
  up : s.up = []
  down : s.down = []

lemma Idle.answered {s₀ s : Link} {n₀ : ℕ} (h : s.Idle json)
    (hrun : Dispatch.Counted (Step json capacity) s₀ n₀ s) {request : BrokerRequest}
    {response : BrokerResponse} {asked answer : Bytes} (hr : json.toVec request = .ok asked)
    (hasked : Sendable asked) (hd : json.fromSlice asked = .ok request)
    (hv : json.toVec response = .ok answer) (hanswer : Sendable answer)
    (hc : json.Carries (toValue response)) (hcap : frameLimit ≤ capacity) :
    ∃ task, Dispatch.Counted (Step json capacity) s₀ n₀ { s with
        caller := .calling task
        asked := s.asked ++ [request] } ∧
      ∃ n, Dispatch.Counted (Step json capacity) s₀ n { s with
        asked := s.asked ++ [request]
        answers := s.answers ++ [response]
        log := s.log ++ [(request, response)] } := by
  obtain ⟨caller, requests, answers, server, up, down, log, retried⟩ := s
  obtain ⟨rfl, rfl, rfl, rfl⟩ := h
  have hsends := BrokerClient.request_sends hr hasked
  obtain ⟨units, next, hrequest, _⟩ := hsends.exists_write (frame_ne_nil asked)
  obtain ⟨n, wait, hwait, _⟩ := @BrokerClient.response_lost json
  obtain ⟨n', next', hround, _⟩ := (@Server.Reading.round json _ hasked).call (frame_ne_nil asked)
  obtain ⟨task, htask, hreads⟩ := @Server.Reading.round json _ hasked
  let between : Link := ⟨.between, requests ++ [request], answers, Server.round json, [], [], log,
    retried⟩
  let waiting : Link := { between with caller := .calling (.call (.read n) wait) }
  let worked : Link := { waiting with log := log ++ [(request, response)] }
  have hsent : ReflTransGen (Works json capacity) (between.resume (.call (.write units) next))
      { waiting with up := frame asked } := by
    have hlen := (frame_le_limit hasked).trans hcap
    rw [hrequest, hwait] at hsends
    exact client_sends hsends (Server.running_of_call hround) ((Nat.zero_add _).trans_le hlen)
  have hread : ReflTransGen (Works json capacity) { waiting with up := frame asked }
      { waiting with server := .call (.dispatch request) (Server.respond json) } := by
    have hserved : Server.served json (some (.ok (some asked))) =
        .call (.dispatch request) (Server.respond json) := by
      rw [Server.served, Server.answer, hd]
      rfl
    have h := @server_receives json capacity waiting _ _ _ _ _ connectionIdleTimeout
      (Server.served json) hreads
    rw [hserved, ← htask] at h
    exact h
  have hwritten : ReflTransGen (Works json capacity)
      { worked with server := Server.loop json (Server.respond json response) }
      { worked with down := frame answer } := by
    have hlen := (frame_le_limit hanswer).trans hcap
    have hrespond : Server.respond json response =
        timeout connectionIdleTimeout (Socket.writeFrame answer) >>= Server.wrote := by
      rw [Server.respond, Server.writeResponse, Server.writeResponseWithin, hv, Program.bind_assoc]
      rfl
    rw [hrespond]
    exact @server_sends json capacity worked _ _ _ _ _ connectionIdleTimeout Server.wrote
      (Socket.writeFrame_sends hanswer) rfl ((Nat.zero_add _).trans_le hlen)
  have hreceived : ReflTransGen (Works json capacity) { worked with down := frame answer }
      { worked with caller := .between, answers := answers ++ [response] } := by
    have hreceives := BrokerClient.response_receives hc hv hanswer
    rw [hwait] at hreceives
    exact @client_receives json capacity worked _ _ _ hreceives
  have hasks : Dispatch.Counted (Step json capacity) s₀ n₀
      (between.resume (.call (.write units) next)) := hrun.other (.asks rfl hrequest)
  have hworks := (hsent.trans hread).trans (.head (.dispatch response rfl) (hwritten.trans hreceived))
  exact ⟨_, hasks, hasks.runs (ReflTransGen.mono (fun _ _ hw => .works hw) _ _ hworks)⟩

end Link

/-- Over one connection the worker is asked what the client asks, in its order and once at most, and
the client gets the worker's answers, each for the request it was given to, as long as the client
does not go on after a request that failed. -/
theorem link_in_order {authorizer : PeerAuthorizer} {peer : PeerIdentity} {n : ℕ} {s : Link}
    (ha : authorizer peer = .ok ())
    (h : Dispatch.Counted (Link.Step json capacity) (Link.init json authorizer peer) n s)
    (ho : s.Orderly json) :
    s.log.map Prod.fst <+: s.asked ∧ s.answers <+: s.log.map Prod.snd := by
  obtain ⟨k, hs, _⟩ := Link.Sound.reach ha h ho
  cases hs with
  | between _ _ _ _ hasked hanswers =>
    rw [hasked, hanswers]
    exact ⟨List.prefix_rfl, List.prefix_rfl⟩
  | asking hasked hanswers =>
    rw [hasked, hanswers]
    exact ⟨List.prefix_append _ _, List.prefix_rfl⟩
  | answering hasked hanswers | lost hasked hanswers =>
    rw [hasked, hanswers]
    exact ⟨List.prefix_rfl, List.prefix_append _ _⟩

def Json.table (known : List (Value × String)) : Json where
  print v :=
    match known.find? fun entry => entry.1 = v with
    | some entry => .ok (ascii entry.2)
    | none => .error "unsupported"
  parse bytes :=
    match known.find? fun entry => ascii entry.2 = bytes with
    | some entry => .ok entry.1
    | none => .error "expected value at line 1 column 1"
  mismatch _ := "data did not match"

section

def discoverRequest : BrokerRequest := ⟨.discover, none, none⟩

def discoverText : String := "\x7b\"op\":\"discover\"\x7d"

def stoppedResponse : BrokerResponse := .refused .internal "broker worker has stopped"

def stoppedText : String := "\x7b\"outcome\":\"error\",\"error\":\x7b" ++
  "\"kind\":\"internal\",\"message\":\"broker worker has stopped\"\x7d\x7d"

def linkJson : Json :=
  .table [(toValue discoverRequest, discoverText), (toValue stoppedResponse, stoppedText)]

abbrev LinkRun (n : ℕ) (s : Link) : Prop := Dispatch.Counted (Link.Step linkJson Link.frameLimit)
  (Link.init linkJson (sameUidAuthorizer 1000) ⟨1000, none⟩) n s

lemma discoverRequest_named : discoverRequest.Named := by
  simp [discoverRequest, BrokerRequest.Named]

lemma linkJson_discover : linkJson.toVec discoverRequest = .ok (ascii discoverText) := by
  decide +kernel

lemma linkJson_stopped : linkJson.toVec stoppedResponse = .ok (ascii stoppedText) := by
  decide +kernel

lemma linkJson_carries_discover : linkJson.Carries (toValue discoverRequest) :=
  Json.carries_of_parse linkJson_discover (by decide +kernel)

lemma linkJson_carries_stopped : linkJson.Carries (toValue stoppedResponse) :=
  Json.carries_of_parse linkJson_stopped (by decide +kernel)

lemma discover_answered {n : ℕ} {s : Link} (h : LinkRun n s) (hs : s.Idle linkJson) :
    ∃ task, LinkRun n { s with
        caller := .calling task
        asked := s.asked ++ [discoverRequest] } ∧
      ∃ n, LinkRun n { s with
        asked := s.asked ++ [discoverRequest]
        answers := s.answers ++ [stoppedResponse]
        log := s.log ++ [(discoverRequest, stoppedResponse)] } :=
  hs.answered h linkJson_discover (by decide +kernel)
    (linkJson_carries_discover.fromSlice discoverRequest_named.roundTrips linkJson_discover)
    linkJson_stopped (by decide +kernel) linkJson_carries_stopped le_rfl

lemma discover_run : ∃ n s task, LinkRun n s ∧ s.asked = [discoverRequest, discoverRequest] ∧
    s.answers = [stoppedResponse] ∧ s.caller = .calling task ∧ s.Orderly linkJson := by
  obtain ⟨_, _, n, h⟩ := discover_answered .start ⟨rfl, rfl, rfl, rfl⟩
  obtain ⟨task, h, _⟩ := discover_answered h ⟨rfl, rfl, rfl, rfl⟩
  refine ⟨_, _, task, h, rfl, rfl, rfl, ?_, ?_, rfl⟩
  · intro request hm
    obtain rfl : request = discoverRequest := by simpa [Link.init] using hm
    exact ⟨discoverRequest_named, linkJson_carries_discover⟩
  · intro response hm
    obtain rfl : response = stoppedResponse := by simpa [Link.init] using hm
    exact linkJson_carries_stopped

theorem link_in_order_discover : ∃ n s, LinkRun n s ∧
    s.asked = [discoverRequest, discoverRequest] ∧ s.answers = [stoppedResponse] ∧
      s.log.map Prod.fst <+: s.asked ∧ s.answers <+: s.log.map Prod.snd := by
  obtain ⟨n, s, task, h, hasked, hanswers, _, ho⟩ := discover_run
  exact ⟨n, s, h, hasked, hanswers, link_in_order rfl h ho⟩

end

/-- Every request comes to an end: the link takes a bounded number of steps for each, and until the
call returns one is possible that is no failure. -/
theorem link_returns {authorizer : PeerAuthorizer} {peer : PeerIdentity} {n : ℕ} {s : Link}
    (ha : authorizer peer = .ok ()) (hcap : 0 < capacity)
    (h : Dispatch.Counted (Link.Step json capacity) (Link.init json authorizer peer) n s)
    (ho : s.Orderly json) :
    n ≤ Link.price * s.asked.length + 3 ∧
      ∀ task, s.caller = .calling task → ∃ s', Link.Works json capacity s s' := by
  obtain ⟨k, hs, hle⟩ := Link.Sound.reach ha h ho
  exact ⟨by omega, fun task hc => hs.exists_works hcap hc⟩

theorem link_returns_discover : ∃ n s s', LinkRun n s ∧ s.answers = [stoppedResponse] ∧
    n ≤ Link.price * 2 + 3 ∧ Link.Works linkJson Link.frameLimit s s' := by
  obtain ⟨n, s, task, h, hasked, hanswers, hcaller, ho⟩ := discover_run
  obtain ⟨hbound, hnext⟩ := link_returns rfl (by decide) h ho
  obtain ⟨s', hw⟩ := hnext task hcaller
  rw [hasked] at hbound
  exact ⟨n, s, s', h, hanswers, hbound, hw⟩

end FpsMaxxing
