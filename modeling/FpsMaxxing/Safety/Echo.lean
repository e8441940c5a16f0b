import FpsMaxxing.Contracts.Text
import FpsMaxxing.Safety.SecondOwner

/-! Whatever a client sends, the error it is answered with fits in a frame. -/

namespace FpsMaxxing

open Effects Dispatch String

variable {σ : Type}

lemma cutAtBoundary_spec (limit : ℕ) (cs : List Char) :
    utf8Len (cutAtBoundary limit cs) ≤ limit ∧ ∃ rest, cs = cutAtBoundary limit cs ++ rest ∧
      ∀ c ∈ rest.head?, limit < utf8Len (cutAtBoundary limit cs) + c.utf8Size := by
  induction cs generalizing limit with
  | nil => exact ⟨Nat.zero_le _, [], rfl, nofun⟩
  | cons c cs ih =>
    by_cases h : c.utf8Size ≤ limit
    · obtain ⟨hl, rest, hr, hn⟩ := ih (limit - c.utf8Size)
      rw [cutAtBoundary, if_pos h]
      refine ⟨?_, rest, congrArg (c :: ·) hr, fun d hd => ?_⟩
      · rw [utf8Len_cons]
        omega
      · have hd := hn d hd
        rw [utf8Len_cons]
        omega
    · rw [cutAtBoundary, if_neg h]
      refine ⟨Nat.zero_le _, c :: cs, rfl, fun d hd => ?_⟩
      obtain rfl := Option.some.inj hd
      rw [utf8Len_nil]
      omega

lemma echoed_short {text : String} (h : text.utf8ByteSize ≤ maxEchoedBytes) :
    echoed text = text := if_pos h

lemma echoed_long {text : String} (h : maxEchoedBytes < text.utf8ByteSize) :
    ∃ kept dropped, text = kept ++ dropped ∧ echoed text = kept ++ "..." ∧
      maxEchoedBytes - 3 ≤ kept.utf8ByteSize ∧ kept.utf8ByteSize ≤ maxEchoedBytes := by
  obtain ⟨hl, rest, hr, hn⟩ := cutAtBoundary_spec maxEchoedBytes text.toList
  refine ⟨.ofList (cutAtBoundary maxEchoedBytes text.toList), .ofList rest, ?_,
    if_neg (Nat.not_le.mpr h), ?_, ?_⟩
  · rw [← ofList_append, ← hr, ofList_toList]
  · rw [utf8ByteSize_ofList]
    cases rest with
    | nil =>
      rw [List.append_nil] at hr
      rw [← hr, utf8Len_toList] at hl
      omega
    | cons c rest =>
      have hc := c.utf8Size_le_four
      have hn := hn c rfl
      omega
  · rw [utf8ByteSize_ofList]
    exact hl

lemma echoed_size (text : String) : (echoed text).utf8ByteSize ≤ 123 := by
  have hmax : maxEchoedBytes = 120 := rfl
  by_cases h : text.utf8ByteSize ≤ maxEchoedBytes
  · rw [echoed_short h]
    omega
  · obtain ⟨kept, _, _, he, _, hk⟩ := echoed_long (Nat.not_le.mp h)
    have hd : "...".utf8ByteSize = 3 := rfl
    rw [he, utf8ByteSize_append, hd]
    omega

/-! The messages of errors. -/

def BrokerErrorBody.Short (body : BrokerErrorBody) : Prop := body.message.utf8ByteSize ≤ 160

def BrokerResponse.Short (response : BrokerResponse) : Prop :=
  ∀ body, response = .error body → body.Short

lemma short_refused {kind : BrokerErrorKind} {message : String}
    (h : message.utf8ByteSize ≤ 160) : (BrokerResponse.refused kind message).Short := by
  rintro _ ⟨⟩
  exact h

lemma short_echoed (kind : BrokerErrorKind) (before text after : String)
    (h : before.utf8ByteSize + after.utf8ByteSize ≤ 37) :
    (BrokerResponse.refused kind (before ++ echoed text ++ after)).Short := by
  apply short_refused
  have he := echoed_size text
  rw [utf8ByteSize_append, utf8ByteSize_append]
  omega

lemma short_wireError (e : ControlPlaneError) : (wireError e).Short := by
  have hkind : ("lifecycle failed: " ++ e.kind).utf8ByteSize ≤ 160 := by
    cases e <;> rw [ControlPlaneError.kind] <;> decide
  cases e with
  | unknownCapability id => exact short_refused ((echoed_size _).trans (by decide))
  | policyDenied message => exact short_refused ((echoed_size _).trans (by decide))
  | _ => exact short_refused hkind

lemma short_lifecycle (outcome : Except ControlPlaneError LifecycleResult) :
    (lifecycleResponse outcome).Short := by
  cases outcome with
  | ok result => rintro _ ⟨⟩
  | error e => exact short_wireError e

namespace BrokerService

variable (service : BrokerService) (ledger : OwnershipLedger) (request : BrokerRequest)

lemma short_enter {response : BrokerResponse}
    (he : service.enter ledger request = .error response) : response.Short := by
  have h := service.enter_cases ledger request BrokerResponse.Short (by rintro _ ⟨⟩)
    (short_refused (by decide)) (short_refused (by decide))
    (fun _ => short_echoed _ _ _ _ (by decide))
    (fun _ _ _ _ _ => short_refused ((echoed_size _).trans (by decide)))
  rw [he] at h
  exact h

lemma short_handle : (service.handle ledger request).Logs anyAnswer fun _ answer =>
    answer.1.Short := by
  rw [handle_eq]
  cases he : service.enter ledger request with
  | error response => exact service.short_enter ledger request he
  | ok frame =>
    rw [Program.logs_map]
    exact (Program.logs_true exists_answer _).mono fun _ outcome _ => short_lifecycle outcome

end BrokerService

lemma short_notices : brokerNotices.dropped.Short ∧ brokerNotices.stopped.Short :=
  ⟨short_refused (by decide), short_refused (by decide)⟩

namespace Connection

lemma short_undecodable (text : String) : (undecodable text).Short := by
  have h := short_echoed .malformed "invalid request: " text "" (by decide)
  rwa [String.append_empty] at h

lemma short_tooLong (length : UInt64) : (tooLong length).Short := by
  apply short_refused
  have hl : (toString length).utf8ByteSize ≤ 80 :=
    Json.utf8ByteSize_repr_le (k := 20) (by decide) (length.toNat_lt.trans (by decide))
  have hb : "frame length ".utf8ByteSize = 13 := rfl
  have ha : " exceeds the maximum".utf8ByteSize = 20 := rfl
  rw [utf8ByteSize_append, utf8ByteSize_append, hb, ha]
  omega

def Prompted : (o : ConnectionOp) → o.Res → Prop
  | .dispatch _, response => response.Short
  | .expired, _ | .write _ _, _ => True

def Shown : ConnectionOp → Prop
  | .write response _ => response.Short
  | .expired | .dispatch _ => True

lemma prompted_of_not_dispatch {o : ConnectionOp} (h : ∀ request, o ≠ .dispatch request)
    (r : o.Res) : Prompted o r := by
  cases o with
  | expired => trivial
  | dispatch request => exact absurd rfl (h request)
  | write response deadline => trivial

section

variable {codec : Codec} {response : BrokerResponse} {deadline : ℕ}

lemma asks_write {next : Except FrameError Unit → Program ConnectionCalls (Except FrameError Unit)}
    (h : response.Short) (hn : ∀ r, (next r).Asks Prompted Shown) :
    (writeResponse response deadline >>= next).Asks Prompted Shown :=
  ⟨h, fun r _ => hn r⟩

lemma asks_answered {rest : Program ConnectionCalls (Except FrameError Unit)} (h : response.Short)
    (hr : rest.Asks Prompted Shown) :
    Program.Asks Prompted Shown (do
      match ← writeResponse response deadline with
      | .error error => return .error error
      | .ok () => rest) := by
  apply asks_write h
  intro r
  cases r with
  | error error => trivial
  | ok _ => exact hr

lemma asks_turn {rest : Program ConnectionCalls (Except FrameError Unit)}
    {outcome : Except FrameError (Option Bytes)}
    (hf : ∀ frame, outcome = .ok (some frame) → rest.Asks Prompted Shown)
    (he : outcome = .error .empty → rest.Asks Prompted Shown) :
    (turn codec rest outcome).Asks Prompted Shown := by
  match outcome with
  | .ok (some frame) =>
    rw [turn, answer]
    cases codec.decode frame with
    | ok request => exact ⟨trivial, fun response hp => asks_answered hp (hf frame rfl)⟩
    | error text => exact asks_answered (short_undecodable text) (hf frame rfl)
  | .ok none => trivial
  | .error .empty => exact asks_answered (short_refused (by decide)) (he rfl)
  | .error (.tooLarge length) => exact asks_write (short_tooLong length) fun _ => trivial
  | .error (.io error) => trivial

lemma asks_serveFrames (reader : Reader) : (serveFrames codec reader).Asks Prompted Shown := by
  induction hn : reader.content.length using Nat.strong_induction_on generalizing reader with
  | _ n ih =>
    have hrest : (readFrame reader).2.content.length < reader.content.length →
        (serveFrames codec (readFrame reader).2).Asks Prompted Shown := by
      intro hl
      exact ih _ (hn ▸ hl) _ rfl
    rw [serveFrames_eq]
    refine ⟨trivial, fun late _ => ?_⟩
    cases late with
    | true => trivial
    | false =>
      apply asks_turn
      · intro frame h
        exact hrest (readFrame_length (Prod.ext h rfl))
      · intro h
        exact hrest (readFrame_empty_length (Prod.ext h rfl))

lemma asks_handleConnection (authorizer : PeerAuthorizer) (accepted : Transport.Accepted) :
    (handleConnection codec authorizer accepted).Asks Prompted Shown := by
  rw [handleConnection]
  cases authorizer accepted.peer with
  | error _ => exact asks_write (short_refused (by decide)) fun _ => trivial
  | ok _ => exact asks_serveFrames accepted.stream

end

end Connection

namespace Broker

open Connection

variable {P : Provider σ} {codec : Codec} {authorizer : PeerAuthorizer} {w : World σ}
  {s s' : Broker σ}

structure Terse (s : Broker σ) : Prop where
  worker : ∀ job residual, s.worker = .busy job residual →
    residual.Logs anyAnswer fun _ answer => answer.1.Short
  oneshots : ∀ slot response, s.oneshots slot = .sent response → response.Short
  clients : ∀ client ∈ s.clients, client.task.Asks Prompted Shown

lemma Terse.set {c : ℕ} {client : Client} {clients : List Client}
    (h : ∀ client ∈ clients, client.task.Asks Prompted Shown)
    (hc : client.task.Asks Prompted Shown) :
    ∀ other ∈ clients.set c client, other.task.Asks Prompted Shown := by
  intro other ho
  rcases List.mem_or_eq_of_mem_set ho with ho | rfl
  · exact h other ho
  · exact hc

lemma Terse.task {c : ℕ} {client : Client} (h : s.Terse) (hc : s.clients[c]? = some client) :
    client.task.Asks Prompted Shown :=
  h.clients client (List.mem_of_getElem? hc)

lemma Terse.resumed {c : ℕ} {client : Client} {request : BrokerRequest} {response : BrokerResponse}
    {next : BrokerResponse → Program ConnectionCalls (Except FrameError Unit)} (h : s.Terse)
    (hc : s.clients[c]? = some client) (ht : client.task = .call (.dispatch request) next)
    (hr : response.Short) : (next response).Asks Prompted Shown := by
  have ha := h.task hc
  rw [ht] at ha
  exact ha.2 response hr

lemma Terse.step (h : s.Terse) (hs : Step P codec authorizer s s') : s'.Terse := by
  cases hs with
  | accept accepted =>
    refine ⟨h.worker, h.oneshots, fun client hc => ?_⟩
    rcases List.mem_append.mp hc with hc | hc
    · exact h.clients client hc
    · rw [List.mem_singleton.mp hc]
      exact asks_handleConnection authorizer accepted
  | proceed r hc _ _ ht hn =>
    have ha := h.task hc
    rw [ht] at ha
    exact ⟨h.worker, h.oneshots, Terse.set h.clients (ha.2 r (prompted_of_not_dispatch hn r))⟩
  | send hc =>
    have ha := h.task hc
    exact ⟨h.worker, oneshots_update _ h.oneshots nofun, Terse.set h.clients ha⟩
  | decline hc _ _ ht =>
    exact ⟨h.worker, h.oneshots, Terse.set h.clients (h.resumed hc ht short_notices.2)⟩
  | receive hc _ _ ht ho =>
    exact ⟨h.worker, h.oneshots, Terse.set h.clients (h.resumed hc ht (h.oneshots _ _ ho))⟩
  | miss hc _ _ ht =>
    exact ⟨h.worker, h.oneshots, Terse.set h.clients (h.resumed hc ht short_notices.1)⟩
  | leave hc =>
    have ha := h.task hc
    exact ⟨h.worker, h.oneshots, Terse.set h.clients ha⟩
  | @take ledger job _ _ _ =>
    refine ⟨?_, h.oneshots, h.clients⟩
    rintro _ _ ⟨⟩
    exact BrokerService.short_handle _ ledger job.request
  | @call job o next r _ hw _ =>
    refine ⟨?_, h.oneshots, h.clients⟩
    rintro _ _ ⟨⟩
    exact (h.worker job _ hw).2 r trivial
  | answer hw =>
    refine ⟨nofun, oneshots_update _ h.oneshots ?_, h.clients⟩
    rintro response ⟨⟩
    exact h.worker _ _ hw
  | panic =>
    exact ⟨nofun, fun slot response ho => h.oneshots slot response (of_closing ho), h.clients⟩
  | stop => exact ⟨h.worker, h.oneshots, h.clients⟩
  | retire => exact ⟨nofun, h.oneshots, h.clients⟩

lemma Terse.reach (h : Reach P codec authorizer w s) : s.Terse := by
  induction h with
  | refl => exact ⟨nofun, nofun, nofun⟩
  | tail _ hs ih => exact ih.step hs

end Broker

/-! The bytes of errors. -/

def BrokerErrorBody.json (body : BrokerErrorBody) : String :=
  "\x7b\"outcome\":\"error\",\"error\":\x7b\"kind\":" ++ Json.quoted body.kind.name ++
    ",\"message\":" ++ Json.quoted body.message ++ "\x7d\x7d"

def Codec.WritesErrors (codec : Codec) : Prop :=
  ∀ body : BrokerErrorBody, codec.encode (.error body) = .ok body.json.toUTF8.data.toList

structure BrokerErrorBody.Framed (codec : Codec) (body : BrokerErrorBody) (bytes : Bytes) :
    Prop where
  encoded : codec.encode (.error body) = .ok bytes
  nonempty : 0 < bytes.length
  fits : bytes.length ≤ maxFrameBytes.toNat
  unrefused : ∀ fault out, (writeResponseWithin codec fault (.error body) out).1 ≠ .error .empty ∧
    ∀ length, (writeResponseWithin codec fault (.error body) out).1 ≠ .error (.tooLarge length)

def BrokerResponse.Fits (codec : Codec) (response : BrokerResponse) : Prop :=
  ∀ body, response = .error body → ∃ bytes, body.Framed codec bytes

lemma length_utf8 (text : String) : text.toUTF8.data.toList.length = text.utf8ByteSize := rfl

lemma kind_name_size (kind : BrokerErrorKind) : kind.name.utf8ByteSize ≤ 18 := by
  cases kind <;> decide

lemma BrokerErrorBody.json_size (body : BrokerErrorBody) :
    body.json.utf8ByteSize ≤ 6 * body.message.utf8ByteSize + 160 := by
  have hb : "\x7b\"outcome\":\"error\",\"error\":\x7b\"kind\":".utf8ByteSize ≤ 35 := by decide
  have hi : ",\"message\":".utf8ByteSize ≤ 11 := by decide
  have ha : "\x7d\x7d".utf8ByteSize ≤ 2 := by decide
  have hk := Json.utf8ByteSize_quoted_le body.kind.name
  have hn := kind_name_size body.kind
  have hm := Json.utf8ByteSize_quoted_le body.message
  have hsum := Json.utf8ByteSize_append_le (Json.utf8ByteSize_append_le
    (Json.utf8ByteSize_append_le (Json.utf8ByteSize_append_le hb hk) hi) hm) ha
  apply hsum.trans
  omega

lemma BrokerErrorBody.json_nonempty (body : BrokerErrorBody) : 0 < body.json.utf8ByteSize :=
  Json.utf8ByteSize_append_pos (by decide)

lemma BrokerErrorBody.Short.framed {codec : Codec} {body : BrokerErrorBody}
    (hc : codec.WritesErrors) (h : body.Short) :
    body.Framed codec body.json.toUTF8.data.toList := by
  have hmax : maxFrameBytes.toNat = 1048576 := rfl
  have hlow : 0 < body.json.toUTF8.data.toList.length := body.json_nonempty
  have hhigh : body.json.toUTF8.data.toList.length ≤ maxFrameBytes.toNat := by
    have hs := body.json_size
    have h : body.message.utf8ByteSize ≤ 160 := h
    rw [length_utf8, hmax]
    omega
  refine ⟨hc body, hlow, hhigh, fun fault out => ?_⟩
  rw [writeResponseWithin, hc body]
  dsimp only
  rw [Sendable.writeFrame_cases ⟨hlow, hhigh⟩]
  cases fault with
  | none => exact ⟨fun h => (by cases h), fun n h => by cases h⟩
  | some fault => exact ⟨fun h => (by cases h), fun n h => by cases h⟩

lemma BrokerResponse.Short.fits {codec : Codec} {response : BrokerResponse}
    (hc : codec.WritesErrors) (h : response.Short) : response.Fits codec :=
  fun body hb => ⟨_, (h body hb).framed hc⟩

theorem refusals_fit (P : Provider σ) (codec : Codec) (hc : codec.WritesErrors)
    (authorizer : PeerAuthorizer) :
    (∀ text, (text.utf8ByteSize ≤ 120 → echoed text = text) ∧
      (120 < text.utf8ByteSize → ∃ kept dropped, text = kept ++ dropped ∧
        echoed text = kept ++ "..." ∧ 117 ≤ kept.utf8ByteSize ∧ kept.utf8ByteSize ≤ 120)) ∧
    (∀ ledger request w tr response after v,
      Steps (sem P) ((BrokerService.new P.plane).handle ledger request) w tr
        (.done (response, after)) v → response.Fits codec) ∧
    ∀ w s, Broker.Reach P codec authorizer w s → ∀ client ∈ s.clients, ∀ response deadline next,
      client.task = .call (.write response deadline) next → response.Fits codec := by
  refine ⟨fun text => ⟨echoed_short, echoed_long⟩, ?_, ?_⟩
  · intro ledger request w tr response after v hs
    have hshort := (BrokerService.short_handle _ ledger request).returned hs fun _ _ => trivial
    exact hshort.1.fits hc
  · intro w s hr client hm response deadline next ht
    have ha := (Broker.Terse.reach hr).clients client hm
    rw [ht] at ha
    exact BrokerResponse.Short.fits hc ha.1

def errorTexts : Codec where
  decode := errorsCodec.decode
  encode
    | .error body => .ok body.json.toUTF8.data.toList
    | _ => .error "unsupported"

def nulOwner : String := .ofList (List.replicate 500 (.ofNat 0))

theorem refusals_fit_nul : (BrokerResponse.refused .ownerConflict
    (echoed (OwnerConflict.text ⟨"mock.value", nulOwner⟩))).Fits errorTexts := by
  obtain ⟨_, hfits, _⟩ := refusals_fit (mockProvider "linux").provider errorTexts (fun _ => rfl)
    (sameUidAuthorizer 1000)
  have hanswer : (BrokerService.new (mockProvider "linux").provider.plane).handle
      ⟨[("mock.value", nulOwner)]⟩ (mockRun "owner-b") =
        .done (.refused .ownerConflict (echoed (OwnerConflict.text ⟨"mock.value", nulOwner⟩)),
          ⟨[("mock.value", nulOwner)]⟩) := rfl
  apply hfits ⟨[("mock.value", nulOwner)]⟩ (mockRun "owner-b") ⟨⟨true, [], []⟩, 7⟩ []
  rw [hanswer]
  exact .start

end FpsMaxxing
