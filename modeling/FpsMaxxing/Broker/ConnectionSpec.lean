import FpsMaxxing.Broker.Connection
import FpsMaxxing.Effects.Log

/-! What a connection does with a byte stream: the requests it submits and the responses it writes,
frame by frame. -/

namespace FpsMaxxing

open Effects Connection

def channel (codec : Codec) : Semantics ConnectionCalls Bytes := fun out o r out' =>
  match o, r with
  | .write response _, r => ∃ fault, (r, out') = writeResponseWithin codec fault response out
  | _, _ => out' = out

def Quiet : (o : ConnectionOp) → o.Res → Prop
  | .expired, r => r = false
  | .dispatch _, _ => True
  | .write _ _, r => r = .ok ()

inductive Arrival
  | body (bytes : Bytes)
  | empty

inductive Ending
  | closed
  | truncated (error : IoError)
  | overlong (length : UInt32)

inductive Stream (failure : Option IoError) : List Arrival → Ending → Bytes → Prop
  | closed : failure = none → Stream failure [] .closed []
  | started {bytes error} : bytes.length < 4 → cutPrefix failure bytes = .error (.io error) →
      Stream failure [] (.truncated error) bytes
  | cut {n part} : 0 < n → n ≤ maxFrameBytes → part.length < n.toNat →
      Stream failure [] (.truncated (failure.getD ⟨.unexpectedEof, "early eof"⟩)) (toBeBytes n ++ part)
  | overlong {n rest} : maxFrameBytes < n → Stream failure [] (.overlong n) (toBeBytes n ++ rest)
  | empty {arrivals ending rest} : Stream failure arrivals ending rest →
      Stream failure (.empty :: arrivals) ending (toBeBytes 0 ++ rest)
  | body {arrivals ending bytes rest} : Sendable bytes → Stream failure arrivals ending rest →
      Stream failure (.body bytes :: arrivals) ending (frame bytes ++ rest)

def Ending.result : Ending → Except FrameError Unit
  | closed => .ok ()
  | truncated error => .error (.io error)
  | overlong _ => .ok ()

namespace Connection

abbrev Event := ConnectionCalls.Event

def read : Event := ⟨.expired, false⟩

def asked (request : BrokerRequest) (response : BrokerResponse) : Event :=
  ⟨.dispatch request, response⟩

def wrote (response : BrokerResponse) : Event := ⟨.write response connectionIdleTimeout, .ok ()⟩

inductive Conversation (codec : Codec) : List Arrival → Ending → List Event → Prop
  | closed : Conversation codec [] .closed [read]
  | truncated (error) : Conversation codec [] (.truncated error) [read]
  | overlong (n) : Conversation codec [] (.overlong n) [read, wrote (tooLong n.toUInt64)]
  | request {arrivals ending log bytes request} (response) : codec.decode bytes = .ok request →
      Conversation codec arrivals ending log →
      Conversation codec (.body bytes :: arrivals) ending
        (read :: asked request response :: wrote response :: log)
  | undecodable {arrivals ending log bytes text} : codec.decode bytes = .error text →
      Conversation codec arrivals ending log →
      Conversation codec (.body bytes :: arrivals) ending
        (read :: wrote (undecodable text) :: log)
  | empty {arrivals ending log} : Conversation codec arrivals ending log →
      Conversation codec (.empty :: arrivals) ending
        (read :: wrote (malformed "frame body is empty") :: log)

def rejection : ConnectionOp :=
  .write (.refused .unauthenticated unauthorizedMessage) rejectionWriteTimeout

def turn (codec : Codec) (rest : Program ConnectionCalls (Except FrameError Unit)) :
    Except FrameError (Option Bytes) → Program ConnectionCalls (Except FrameError Unit)
  | .ok (some frame) => do
    let response ← answer codec frame
    match ← writeResponse response connectionIdleTimeout with
    | .error error => return .error error
    | .ok () => rest
  | .ok none => return .ok ()
  | .error .empty => do
    match ← writeResponse (malformed "frame body is empty") connectionIdleTimeout with
    | .error error => return .error error
    | .ok () => rest
  | .error (.tooLarge length) => do
    let _ ← writeResponse (tooLong length) connectionIdleTimeout
    return .ok ()
  | .error error => return .error error

end Connection

lemma serveFrames_eq (codec : Codec) (reader : Reader) :
    serveFrames codec reader = (do
      if ← expired then return .ok ()
      else turn codec (serveFrames codec (readFrame reader).2) (readFrame reader).1) := by
  rw [serveFrames]
  congr 1
  funext late
  cases late with
  | true => rfl
  | false =>
    simp only [Bool.false_eq_true, if_false]
    split
    · next h =>
      rw [h]
      rfl
    · next h =>
      rw [h]
      rfl
    · next h =>
      rw [h]
      rfl
    · next h =>
      rw [h]
      rfl
    · next error _ he ht h =>
      rw [h]
      cases error with
      | io error => rfl
      | tooLarge length => exact absurd rfl (ht length)
      | empty => exact absurd rfl he

section

variable {codec : Codec} {lang : List Event → Except FrameError Unit → Prop}

lemma serveFrames_logs_of {reader next : Reader} {outcome : Except FrameError (Option Bytes)}
    (hr : readFrame reader = (outcome, next))
    (h : (turn codec (serveFrames codec next) outcome).Logs Quiet fun log result =>
      lang (read :: log) result) :
    (serveFrames codec reader).Logs Quiet lang := by
  rw [serveFrames_eq, hr]
  refine ⟨⟨false, rfl⟩, ?_⟩
  rintro r rfl
  exact h

lemma write_logs {response : BrokerResponse}
    {rest : Program ConnectionCalls (Except FrameError Unit)}
    (h : rest.Logs Quiet fun log result => lang (wrote response :: log) result) :
    Program.Logs Quiet (do
      match ← writeResponse response connectionIdleTimeout with
      | .error error => return .error error
      | .ok () => rest) lang := by
  refine ⟨⟨.ok (), rfl⟩, ?_⟩
  rintro r rfl
  exact h

lemma answer_logs {bytes : Bytes} {rest : Program ConnectionCalls (Except FrameError Unit)}
    (hq : ∀ request response, codec.decode bytes = .ok request →
      rest.Logs Quiet fun log result => lang (asked request response :: wrote response :: log) result)
    (hu : ∀ text, codec.decode bytes = .error text →
      rest.Logs Quiet fun log result => lang (wrote (undecodable text) :: log) result) :
    (turn codec rest (.ok (some bytes))).Logs Quiet lang := by
  rw [turn, answer]
  cases hd : codec.decode bytes with
  | ok request =>
    exact ⟨⟨.refused .internal "", trivial⟩, fun response _ => write_logs (hq request response hd)⟩
  | error text => exact write_logs (hu text hd)

end

section

variable {failure : Option IoError} {n : UInt32}

lemma takeFrame_started {bytes : Bytes} {error : FrameError} (hl : bytes.length < 4)
    (he : cutPrefix failure bytes = .error error) :
    takeFrame failure bytes = (.error error, []) := by
  rw [takeFrame, if_neg (Nat.not_le.mpr hl), he]

lemma takeFrame_part {part : Bytes} (h0 : 0 < n) (hm : n ≤ maxFrameBytes)
    (hl : part.length < n.toNat) :
    takeFrame failure (toBeBytes n ++ part) = (.error (cutBody failure), []) := by
  have hz : n ≠ 0 := by
    rintro rfl
    exact absurd h0 (by decide)
  rw [takeFrame_declared, takeBody, if_neg hz, if_neg (UInt32.not_lt.mpr hm), if_pos hl]

lemma takeFrame_overlong (rest : Bytes) (hm : maxFrameBytes < n) :
    takeFrame failure (toBeBytes n ++ rest) = (.error (.tooLarge n.toUInt64), rest) := by
  have hz : n ≠ 0 := by
    rintro rfl
    exact absurd hm (by decide)
  rw [takeFrame_declared, takeBody, if_neg hz, if_pos hm]

lemma takeFrame_zero (rest : Bytes) :
    takeFrame failure (toBeBytes 0 ++ rest) = (.error .empty, rest) := by
  rw [takeFrame_declared, takeBody, if_pos rfl]

end

lemma serveFrames_logs {codec : Codec} {failure : Option IoError} {arrivals : List Arrival}
    {ending : Ending} {content : Bytes} {reader : Reader}
    (hs : Stream failure arrivals ending content) (hat : reader.At failure content) :
    (serveFrames codec reader).Logs Quiet fun log result =>
      Conversation codec arrivals ending log ∧ result = ending.result := by
  induction hs generalizing reader with
  | closed hf =>
    obtain ⟨next, hr, _⟩ := readFrame_at hat
    subst hf
    exact serveFrames_logs_of hr ⟨.closed, rfl⟩
  | started hl he =>
    obtain ⟨next, hr, _⟩ := readFrame_at hat
    rw [takeFrame_started hl he] at hr
    exact serveFrames_logs_of hr ⟨.truncated _, rfl⟩
  | cut h0 hm hl =>
    obtain ⟨next, hr, _⟩ := readFrame_at hat
    rw [takeFrame_part h0 hm hl] at hr
    exact serveFrames_logs_of hr ⟨.truncated _, rfl⟩
  | overlong hm =>
    obtain ⟨next, hr, _⟩ := readFrame_at hat
    rw [takeFrame_overlong _ hm] at hr
    refine serveFrames_logs_of hr ⟨⟨.ok (), rfl⟩, ?_⟩
    rintro r rfl
    exact ⟨.overlong _, rfl⟩
  | empty _ ih =>
    obtain ⟨next, hr, hn⟩ := readFrame_at hat
    rw [takeFrame_zero] at hr hn
    exact serveFrames_logs_of hr (write_logs ((ih hn).mono fun log result hl => ⟨.empty hl.1, hl.2⟩))
  | body hb _ ih =>
    obtain ⟨next, hr, hn⟩ := readFrame_at hat
    rw [hb.takeFrame_whole] at hr hn
    exact serveFrames_logs_of hr (answer_logs
      (fun request response hd => (ih hn).mono fun log result hl => ⟨.request response hd hl.1, hl.2⟩)
      fun text hd => (ih hn).mono fun log result hl => ⟨.undecodable hd hl.1, hl.2⟩)

lemma Stream.of_short (failure : Option IoError) {content : Bytes} (h : content.length < 4) :
    ∃ ending, Stream failure [] ending content := by
  cases failure with
  | some error => exact ⟨_, .started h rfl⟩
  | none =>
    cases content with
    | nil => exact ⟨_, .closed rfl⟩
    | cons byte bytes => exact ⟨_, .started h rfl⟩

lemma frame_take {n : UInt32} {rest : Bytes} (h : n.toNat ≤ rest.length) :
    frame (rest.take n.toNat) ++ rest.drop n.toNat = toBeBytes n ++ rest := by
  have hl : (rest.take n.toNat).length = n.toNat := by rw [List.length_take, Nat.min_eq_left h]
  rw [frame, hl, UInt32.ofNat_toNat, List.append_assoc, List.take_append_drop]

lemma Stream.exists (failure : Option IoError) (content : Bytes) :
    ∃ arrivals ending, Stream failure arrivals ending content := by
  by_cases h4 : content.length < 4
  · obtain ⟨ending, h⟩ := Stream.of_short failure h4
    exact ⟨[], ending, h⟩
  · obtain ⟨n, rest, rfl⟩ : ∃ n rest, content = toBeBytes n ++ rest := by
      refine ⟨fromBeBytes (content.take 4), content.drop 4, ?_⟩
      have hl : (content.take 4).length = 4 := by
        rw [List.length_take, Nat.min_eq_left (Nat.le_of_not_lt h4)]
      rw [toBeBytes_fromBeBytes hl, List.take_append_drop]
    by_cases hz : n = 0
    · subst hz
      obtain ⟨arrivals, ending, h⟩ := Stream.exists failure rest
      exact ⟨_, _, h.empty⟩
    · by_cases hm : maxFrameBytes < n
      · exact ⟨_, _, .overlong hm⟩
      · have hpos : 0 < n.toNat := Nat.pos_iff_ne_zero.mpr fun h => hz (UInt32.toNat_inj.mp h)
        have hle : n.toNat ≤ maxFrameBytes.toNat := UInt32.le_iff_toNat_le.mp (UInt32.not_lt.mp hm)
        by_cases hl : rest.length < n.toNat
        · exact ⟨_, _, .cut (UInt32.lt_iff_toNat_lt.mpr hpos) (UInt32.not_lt.mp hm) hl⟩
        · have hlen : (rest.take n.toNat).length = n.toNat := by
            rw [List.length_take, Nat.min_eq_left (Nat.le_of_not_lt hl)]
          obtain ⟨arrivals, ending, h⟩ := Stream.exists failure (rest.drop n.toNat)
          have hs : Sendable (rest.take n.toNat) := by
            rw [Sendable, hlen]
            exact ⟨hpos, hle⟩
          rw [← frame_take (Nat.le_of_not_lt hl)]
          exact ⟨_, _, h.body hs⟩
termination_by content.length
decreasing_by
  · simp_all
  · simp_all
    omega

section

variable {codec : Codec}

def responses (log : List Event) : List BrokerResponse :=
  log.filterMap fun event => match event with
    | ⟨.write response _, _⟩ => some response
    | _ => none

def requests (log : List Event) : List BrokerRequest :=
  log.filterMap fun event => match event with
    | ⟨.dispatch request, _⟩ => some request
    | _ => none

def wire (codec : Codec) (log : List Event) : Bytes :=
  (responses log).flatMap fun response =>
    match codec.encode response with
    | .ok bytes => frame bytes
    | .error _ => []

@[simp] lemma wire_append (log log' : List Event) :
    wire codec (log ++ log') = wire codec log ++ wire codec log' := by
  simp [wire, responses]

def Arrival.request (codec : Codec) : Arrival → Option BrokerRequest
  | body bytes => (codec.decode bytes).toOption
  | empty => none

lemma Connection.Conversation.requests_eq {arrivals : List Arrival} {ending : Ending}
    {log : List Event} (h : Conversation codec arrivals ending log) :
    requests log = arrivals.filterMap (Arrival.request codec) := by
  induction h with
  | closed | truncated | overlong => rfl
  | request response hd _ ih =>
    rw [List.filterMap_cons_some (by rw [Arrival.request, hd]; rfl), ← ih]
    rfl
  | undecodable hd _ ih =>
    rw [List.filterMap_cons_none (by rw [Arrival.request, hd]; rfl), ← ih]
    rfl
  | empty _ ih => exact ih

lemma quiet_wire {α : Type} {p q : Program ConnectionCalls α} {out out' : Bytes}
    {tr : List (Entry ConnectionCalls Bytes)}
    (h : Steps ((channel codec).only Quiet) p out tr q out') :
    out' = out ++ wire codec (tr.map Entry.event) := by
  induction h with
  | start => simp [wire, responses]
  | @call tr o next v r u _ hs ih =>
    obtain ⟨hs, hq⟩ := hs
    rw [List.map_append, wire_append, ← List.append_assoc, ← ih]
    cases o with
    | expired =>
      obtain rfl : u = v := hs
      exact (List.append_nil _).symm
    | dispatch request =>
      obtain rfl : u = v := hs
      exact (List.append_nil _).symm
    | write response deadline =>
      obtain ⟨fault, hw⟩ := hs
      obtain rfl : r = .ok () := hq
      rw [writeResponseWithin] at hw
      cases he : codec.encode response with
      | error text =>
        rw [he] at hw
        cases hw
      | ok bytes =>
        rw [he] at hw
        rw [(writeFrame_ok hw.symm).2]
        simp [wire, responses, Entry.event, he]

end

def Runs (codec : Codec) (p : Program ConnectionCalls (Except FrameError Unit)) (log : List Event)
    (result : Except FrameError Unit) : Prop :=
  ∀ out, ∃ tr out', Steps ((channel codec).only Quiet) p out tr (.done result) out' ∧
    tr.map Entry.event = log

section

variable {codec : Codec} {log : List Event} {result : Except FrameError Unit}

lemma Runs.head {o : ConnectionOp} {r : o.Res}
    {next : o.Res → Program ConnectionCalls (Except FrameError Unit)} (hq : Quiet o r)
    (hs : ∀ out, ∃ out', channel codec out o r out') (h : Runs codec (next r) log result) :
    Runs codec (.call o next) (⟨o, r⟩ :: log) result := by
  intro out
  obtain ⟨mid, hm⟩ := hs out
  obtain ⟨tr, out', hr, hl⟩ := h mid
  exact ⟨_, out', hr.head ⟨hm, hq⟩, by rw [List.map_cons, hl]; rfl⟩

lemma channel_write {response : BrokerResponse} {deadline : ℕ}
    (he : ∃ bytes, codec.encode response = .ok bytes ∧ Sendable bytes) (out : Bytes) :
    ∃ out', channel codec out (.write response deadline) (.ok ()) out' := by
  obtain ⟨bytes, hb, hs⟩ := he
  refine ⟨out ++ frame bytes, none, ?_⟩
  rw [writeResponseWithin, hb]
  exact (hs.writeFrame_eq out).symm

lemma Runs.turn {reader next : Reader} {outcome : Except FrameError (Option Bytes)}
    (hr : readFrame reader = (outcome, next))
    (h : Runs codec (turn codec (serveFrames codec next) outcome) log result) :
    Runs codec (serveFrames codec reader) (read :: log) result := by
  rw [serveFrames_eq, hr]
  exact Runs.head rfl (fun out => ⟨out, rfl⟩) h

lemma Runs.write {response : BrokerResponse} {log : List Event}
    {next : Except FrameError Unit → Program ConnectionCalls (Except FrameError Unit)}
    (he : ∃ bytes, codec.encode response = .ok bytes ∧ Sendable bytes)
    (h : Runs codec (next (.ok ())) log result) :
    Runs codec (writeResponse response connectionIdleTimeout >>= next) (wrote response :: log)
      result :=
  Runs.head rfl (channel_write he) h

lemma Runs.done (result : Except FrameError Unit) : Runs codec (.done result) [] result :=
  fun out => ⟨[], out, .start, rfl⟩

def Framed (codec : Codec) (log : List Event) : Prop :=
  ∀ response ∈ responses log, ∃ bytes, codec.encode response = .ok bytes ∧ Sendable bytes

lemma Framed.head {response : BrokerResponse} (h : Framed codec (wrote response :: log)) :
    ∃ bytes, codec.encode response = .ok bytes ∧ Sendable bytes :=
  h response List.mem_cons_self

lemma Framed.tail {response : BrokerResponse} (h : Framed codec (wrote response :: log)) :
    Framed codec log := fun r hr => h r (List.mem_cons_of_mem _ hr)

lemma Connection.Conversation.runs {failure : Option IoError} {arrivals : List Arrival}
    {ending : Ending} {content : Bytes} {reader : Reader}
    (hs : Stream failure arrivals ending content) (hat : reader.At failure content)
    (hl : Conversation codec arrivals ending log) (he : Framed codec log) :
    Runs codec (serveFrames codec reader) log ending.result := by
  induction hl generalizing content reader with
  | closed =>
    obtain ⟨next, hr, hn⟩ := readFrame_at hat
    cases hs with
    | closed hf =>
      subst hf
      exact Runs.turn hr (Runs.done _)
  | truncated error =>
    obtain ⟨next, hr, hn⟩ := readFrame_at hat
    cases hs with
    | started h4 he =>
      rw [takeFrame_started h4 he] at hr
      exact Runs.turn hr (Runs.done _)
    | cut h0 hm hl =>
      rw [takeFrame_part h0 hm hl] at hr
      exact Runs.turn hr (Runs.done _)
  | overlong n =>
    obtain ⟨next, hr, hn⟩ := readFrame_at hat
    cases hs with
    | overlong hm =>
      rw [takeFrame_overlong _ hm] at hr
      exact Runs.turn hr (Runs.write he.head (Runs.done _))
  | request response hd _ ih =>
    obtain ⟨next, hr, hn⟩ := readFrame_at hat
    cases hs with
    | body hb hs =>
      rw [hb.takeFrame_whole] at hr hn
      refine Runs.turn hr ?_
      rw [turn, answer, hd]
      exact Runs.head trivial (fun out => ⟨out, rfl⟩) (Runs.write he.head (ih hs hn he.tail))
  | undecodable hd _ ih =>
    obtain ⟨next, hr, hn⟩ := readFrame_at hat
    cases hs with
    | body hb hs =>
      rw [hb.takeFrame_whole] at hr hn
      refine Runs.turn hr ?_
      rw [turn, answer, hd]
      exact Runs.write he.head (ih hs hn he.tail)
  | empty _ ih =>
    obtain ⟨next, hr, hn⟩ := readFrame_at hat
    cases hs with
    | empty hs =>
      rw [takeFrame_zero] at hr hn
      exact Runs.turn hr (Runs.write he.head (ih hs hn he.tail))

end

lemma serveFrames_dispatch {codec : Codec} {failure : Option IoError} {body rest : Bytes} {reader : Reader}
    {request : BrokerRequest} (hat : reader.At failure (frame body ++ rest)) (hs : Sendable body)
    (hd : codec.decode body = .ok request) : ∃ next, serveFrames codec reader =
      .call .expired fun late => if late then .done (.ok ()) else .call (.dispatch request) next := by
  obtain ⟨after, hr, _⟩ := readFrame_at hat
  rw [hs.takeFrame_whole] at hr
  rw [serveFrames_eq, hr, Connection.turn, Connection.answer, hd]
  exact ⟨_, rfl⟩

theorem connection_protocol (codec : Codec) (authorizer : PeerAuthorizer)
    (accepted : Transport.Accepted) :
    (authorizer accepted.peer = .ok () →
      (∃ arrivals ending,
        Stream accepted.stream.failure arrivals ending accepted.stream.content) ∧
      ∀ arrivals ending, Stream accepted.stream.failure arrivals ending accepted.stream.content →
        (∀ out tr q out', Steps ((channel codec).only Quiet)
            (handleConnection codec authorizer accepted) out tr q out' →
          ∃ log, Conversation codec arrivals ending log ∧
            requests log = arrivals.filterMap (Arrival.request codec) ∧
            tr.map Entry.event <+: log ∧ out' = out ++ wire codec (tr.map Entry.event) ∧
            ∀ result, q = .done result → tr.map Entry.event = log ∧ result = ending.result) ∧
        ∀ log, Conversation codec arrivals ending log → Framed codec log →
          Runs codec (handleConnection codec authorizer accepted) log ending.result) ∧
    ∀ error, authorizer accepted.peer = .error error →
      (∀ stream, handleConnection codec authorizer ⟨stream, accepted.peer⟩ =
        handleConnection codec authorizer accepted) ∧
      ∀ out tr q out',
        Steps (channel codec) (handleConnection codec authorizer accepted) out tr q out' →
          tr.map Entry.op <+: [rejection] ∧
            ∀ result, q = .done result → tr.map Entry.op = [rejection] ∧ result = .ok () := by
  refine ⟨fun ha => ⟨Stream.exists _ _, ?_⟩, fun error ha => ⟨fun stream => ?_, ?_⟩⟩
  · intro arrivals ending hs
    have hc : handleConnection codec authorizer accepted = serveFrames codec accepted.stream := by
      rw [handleConnection, ha]
    rw [hc]
    refine ⟨fun out tr q out' h => ?_, fun log hl he => hl.runs hs ⟨rfl, rfl⟩ he⟩
    obtain ⟨log, result, ⟨hl, rfl⟩, hp, hd⟩ := (serveFrames_logs hs ⟨rfl, rfl⟩).steps h
    exact ⟨log, hl, hl.requests_eq, hp, quiet_wire h, hd⟩
  · simp only [handleConnection, ha]
  · intro out tr q out' h
    have hl : (handleConnection codec authorizer accepted).Logs (fun _ _ => True)
        fun log result => log.map Sigma.fst = [rejection] ∧ result = .ok () := by
      rw [handleConnection, ha]
      exact ⟨⟨.ok (), trivial⟩, fun r _ => ⟨rfl, rfl⟩⟩
    have hops : tr.map Entry.op = (tr.map Entry.event).map Sigma.fst := by simp [Entry.event]
    obtain ⟨log, result, ⟨hlog, hres⟩, hp, hd⟩ := hl.steps (h.only fun _ _ => trivial)
    rw [hops]
    refine ⟨hlog ▸ hp.map Sigma.fst, fun b hb => ?_⟩
    obtain ⟨hlog', rfl⟩ := hd b hb
    exact ⟨hlog' ▸ hlog, hres⟩

section

def ascii (text : String) : Bytes := text.toList.map fun c => .ofNat c.toNat

def errorsCodec : Codec where
  decode bytes :=
    if bytes = ascii "\x7b\"op\":\"discover\"\x7d" then .ok ⟨.discover, none, none⟩
    else .error "expected value at line 1 column 1"
  encode response :=
    match response with
    | .error ⟨.malformed, message⟩ => .ok (ascii
      ("\x7b\"outcome\":\"error\",\"error\":\x7b\"kind\":\"malformed\",\"message\":\"" ++
        message ++ "\"\x7d\x7d"))
    | .error ⟨.internal, message⟩ => .ok (ascii
      ("\x7b\"outcome\":\"error\",\"error\":\x7b\"kind\":\"internal\",\"message\":\"" ++
        message ++ "\"\x7d\x7d"))
    | _ => .error "unsupported"

def discovery : Bytes := ascii "\x7b\"op\":\"discover\"\x7d"

def mixed : Bytes := frame discovery ++ (toBeBytes 0 ++ (frame [0x21] ++ toBeBytes 0xFFFFFFFF))

def mixedLog : List Event :=
  [read, asked ⟨.discover, none, none⟩ (.refused .internal "broker worker has stopped"),
    wrote (.refused .internal "broker worker has stopped"),
    read, wrote (malformed "frame body is empty"),
    read, wrote (undecodable "expected value at line 1 column 1"),
    read, wrote (tooLong 0xFFFFFFFF)]

lemma mixed_stream :
    Stream none [.body discovery, .empty, .body [0x21]] (.overlong 0xFFFFFFFF) mixed := by
  have hlast : Stream none [] (.overlong 0xFFFFFFFF) (toBeBytes 0xFFFFFFFF ++ []) :=
    .overlong (by decide)
  exact .body (by decide +kernel) (.empty (.body (by decide +kernel) hlast))

lemma mixed_conversation : Conversation errorsCodec [.body discovery, .empty, .body [0x21]]
    (.overlong 0xFFFFFFFF) mixedLog := by
  have hd : errorsCodec.decode discovery = .ok ⟨.discover, none, none⟩ := by decide +kernel
  have hu : errorsCodec.decode [0x21] = .error "expected value at line 1 column 1" := by
    decide +kernel
  exact .request _ hd (.empty (.undecodable hu (.overlong _)))

lemma mixed_framed : Framed errorsCodec mixedLog := by
  intro response hr
  have hr : response ∈ [.refused .internal "broker worker has stopped",
    malformed "frame body is empty", undecodable "expected value at line 1 column 1",
    tooLong 0xFFFFFFFF] := hr
  simp only [List.mem_cons, List.not_mem_nil, or_false] at hr
  rcases hr with rfl | rfl | rfl | rfl
  · exact ⟨_, rfl, by decide +kernel⟩
  · exact ⟨_, rfl, by decide +kernel⟩
  · exact ⟨_, rfl, by decide +kernel⟩
  · exact ⟨_, rfl, by decide +kernel⟩

theorem connection_protocol_mixed :
    (∃ (tr : List (Entry ConnectionCalls Bytes)) (log : List Event),
      Conversation errorsCodec [.body discovery, .empty, .body [0x21]] (.overlong 0xFFFFFFFF) log ∧
        tr.map Entry.event = log) ∧
    handleConnection errorsCodec (sameUidAuthorizer 1000)
        ⟨⟨.ofPieces [mixed.take 3, mixed.drop 3], none⟩, 1001, none⟩ =
      handleConnection errorsCodec (sameUidAuthorizer 1000) ⟨⟨.ended, none⟩, 1001, none⟩ := by
  have h := ((connection_protocol errorsCodec (sameUidAuthorizer 1000)
    ⟨⟨.ofPieces [mixed.take 3, mixed.drop 3], none⟩, 1000, none⟩).1 rfl).2 _ _ mixed_stream
  obtain ⟨tr, out', hr, _⟩ := h.2 mixedLog mixed_conversation mixed_framed []
  obtain ⟨log, hl, _, _, _, hd⟩ := h.1 _ _ _ _ hr
  have hf := ((connection_protocol errorsCodec (sameUidAuthorizer 1000)
    ⟨⟨.ended, none⟩, 1001, none⟩).2 (.foreignUid 1000 1001) rfl).1
  exact ⟨⟨tr, log, hl, (hd _ rfl).1⟩, hf _⟩

end

end FpsMaxxing
