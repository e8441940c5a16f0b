import FpsMaxxing.Broker.Link
import FpsMaxxing.Dispatch.Counted
import FpsMaxxing.Ipc.SocketSpec

/-! Over one socket the requests of a client are answered in their order and each at most once,
whatever pieces they travel in and wherever either end fails. -/

namespace FpsMaxxing

open Effects Serde Streams

variable {json : Json} {capacity : ℕ}

namespace Server

def wrote (written : Option (Except FrameError Unit)) :
    Program ServerCalls (Option (Except FrameError Unit)) := do
  match ← (match written with
    | none => return .error (.io deadlineMissed)
    | some result => return result : Program ServerCalls (Except FrameError Unit)) with
  | .error error => return some (.error error)
  | .ok () => return none

def Reading (json : Json) (server : Program ServerCalls (Option (Except FrameError Unit)))
    (message body : Bytes) : Prop :=
  ∃ task, server = loop json (timeout connectionIdleTimeout task >>= served json) ∧
    Receives Cut task message (.ok (some body))

def Writing (json : Json) (server : Program ServerCalls (Option (Except FrameError Unit)))
    (message : Bytes) : Prop :=
  ∃ task, server = loop json (timeout connectionIdleTimeout task >>= wrote) ∧
    Sends Failed task message (.done (.ok ()))

variable {server : Program ServerCalls (Option (Except FrameError Unit))}
  {message body left inward outward inward' outward' : Bytes} {deadline : ℕ}
  {o : SocketOp UInt8} {next : Option (o.Res IoError) → Program ServerCalls _}

lemma running_of_call {α : Type} {p : Program ServerCalls α} {o : ServerOp}
    {next : o.Res → Program ServerCalls α} (h : p = .call o next) : running p = true := by
  rw [h]
  rfl

lemma loop_call {α : Type} {f : Option α → Program ServerCalls (Option (Except FrameError Unit))}
    {task : Program SocketCalls α} {d : ℕ}
    (h : loop json (timeout d task >>= f) = .call (.socket deadline o) next)
    (ht : ∃ o' next', task = .call o' next') : ∃ next', task = .call o next' ∧
      next none = f none ∧ ∀ r, next (some r) = timeout d (next' r) >>= f := by
  obtain ⟨o', next', rfl⟩ := ht
  cases h
  exact ⟨next', rfl, rfl, fun _ => rfl⟩

def Closed (server : Program ServerCalls (Option (Except FrameError Unit))) : Prop :=
  ∃ result, server = .done (some result)

lemma Closed.running (h : Closed server) : running server = false := by
  obtain ⟨result, rfl⟩ := h
  rfl

lemma Closed.ne_call (h : Closed server) {o : ServerOp}
    {next : o.Res → Program ServerCalls (Option (Except FrameError Unit))} :
    server ≠ .call o next := by
  obtain ⟨result, rfl⟩ := h
  intro hcall
  cases hcall

lemma closed_of_cut {p : Program SocketCalls (Except FrameError (Option Bytes))} (h : Ends Cut p) :
    Closed (loop json (timeout connectionIdleTimeout p >>= served json)) := by
  obtain ⟨r, rfl, rfl | ⟨e, rfl⟩⟩ := h
  · exact ⟨_, rfl⟩
  · exact ⟨_, rfl⟩

lemma closed_of_failed {p : Program SocketCalls (Except FrameError Unit)} (h : Ends Failed p) :
    Closed (loop json (timeout connectionIdleTimeout p >>= wrote)) := by
  obtain ⟨r, rfl, e, rfl⟩ := h
  exact ⟨_, rfl⟩

namespace Reading

lemma round (hs : Sendable body) : Reading json (round json) (frame body) body := by
  refine ⟨Socket.readFrame, ?_, Socket.readFrame_receives hs⟩
  rw [Server.round, Socket.readFrame, Socket.fillPrefix]
  rfl

lemma call (h : Reading json server message body) (hm : message ≠ []) :
    ∃ n next, server = .call (.socket connectionIdleTimeout (.read n)) next ∧ 0 < n := by
  obtain ⟨task, rfl, ht⟩ := h
  obtain ⟨n, next, rfl, hn⟩ := ht.exists_read hm
  exact ⟨n, _, rfl, hn⟩

lemma dispatch {request : BrokerRequest} (hd : json.fromSlice body = .ok request)
    (h : Reading json server message body) (hm : message = []) :
    ∃ next, server = .call (.dispatch request) next ∧
      ∀ response, next response = respond json response := by
  obtain ⟨task, rfl, ht⟩ := h
  have hs : served json (some (.ok (some body))) =
      Server.dispatch request >>= respond json := by
    rw [served, answer, hd]
  rw [ht.of_nil hm]
  exact ⟨_, congrArg (loop json) hs, fun _ => rfl⟩

lemma ne_nil {request : BrokerRequest} (hd : json.fromSlice body = .ok request)
    (h : Reading json (.call (.socket deadline o) next) message body) : message ≠ [] := by
  intro hm
  obtain ⟨next', hn, _⟩ := h.dispatch hd hm
  cases hn

lemma fails (h : Reading json (.call (.socket deadline o) next) message body)
    (hm : message ≠ []) :
    Closed (loop json (next none)) ∧ ∀ e, Closed (loop json (next (some (o.fail e)))) := by
  obtain ⟨task, hserver, ht⟩ := h
  obtain ⟨n, next', htask, _⟩ := ht.exists_read hm
  obtain ⟨next'', rfl, hnone, hsome⟩ := loop_call hserver.symm ⟨_, _, htask⟩
  refine ⟨?_, fun e => ?_⟩
  · rw [hnone]
    exact ⟨_, rfl⟩
  · rw [hsome]
    exact closed_of_cut (ht.fail e)

lemma works {peer : Bool} {r : o.Res IoError}
    (h : Reading json (.call (.socket deadline o) next) (inward ++ left) body)
    (hm : inward ++ left ≠ []) (hp : Transfers capacity peer inward outward o r inward' outward') :
    outward' = outward ∧
      ((peer = false ∧ inward = [] ∧ inward' = [] ∧ Closed (loop json (next (some r)))) ∨
        ∃ units, units ≠ [] ∧ inward = units ++ inward' ∧
          Reading json (loop json (next (some r))) (inward' ++ left) body) := by
  obtain ⟨task, hserver, ht⟩ := h
  obtain ⟨n, next', htask, _⟩ := ht.exists_read hm
  obtain ⟨next'', rfl, _, hsome⟩ := loop_call hserver.symm ⟨_, _, htask⟩
  rw [hsome]
  obtain ⟨hout, ⟨hpeer, hin, hin', hend⟩ | ⟨units, hu, heq, hrest⟩⟩ := ht.transfers hp
  · exact ⟨hout, .inl ⟨hpeer, hin, hin', closed_of_cut hend⟩⟩
  · exact ⟨hout, .inr ⟨units, hu, heq, _, rfl, hrest⟩⟩

end Reading

namespace Writing

lemma respond (response : BrokerResponse) : Closed (loop json (respond json response)) ∨
    ∃ body, json.toVec response = .ok body ∧ Sendable body ∧
      Writing json (loop json (Server.respond json response)) (frame body) := by
  rw [Server.respond, writeResponse, writeResponseWithin]
  cases hv : json.toVec response with
  | error text => exact .inl ⟨_, rfl⟩
  | ok body =>
    by_cases hs : Sendable body
    · refine .inr ⟨body, rfl, hs, Socket.writeFrame body, ?_, Socket.writeFrame_sends hs⟩
      rw [Program.bind_assoc]
      rfl
    · obtain ⟨error, he⟩ := Socket.writeFrame_refused hs
      simp only [he]
      exact .inl ⟨_, rfl⟩

lemma call (h : Writing json server message) (hm : message ≠ []) :
    ∃ units next, server = .call (.socket connectionIdleTimeout (.write units)) next ∧
      units ≠ [] := by
  obtain ⟨task, rfl, ht⟩ := h
  obtain ⟨units, next, rfl, hu⟩ := ht.exists_write hm
  exact ⟨units, _, rfl, hu⟩

lemma written (h : Writing json server message) (hm : message = []) : server = Server.round json := by
  obtain ⟨task, rfl, ht⟩ := h
  rw [ht.of_nil hm]
  rfl

lemma fails (h : Writing json (.call (.socket deadline o) next) message) (hm : message ≠ []) :
    Closed (loop json (next none)) ∧ ∀ e, Closed (loop json (next (some (o.fail e)))) := by
  obtain ⟨task, hserver, ht⟩ := h
  obtain ⟨units, next', htask, _⟩ := ht.exists_write hm
  obtain ⟨next'', rfl, hnone, hsome⟩ := loop_call hserver.symm ⟨_, _, htask⟩
  refine ⟨?_, fun e => ?_⟩
  · rw [hnone]
    exact ⟨_, rfl⟩
  · rw [hsome]
    exact closed_of_failed (ht.fail hm e)

lemma works {peer : Bool} {r : o.Res IoError}
    (h : Writing json (.call (.socket deadline o) next) message) (hm : message ≠ [])
    (hp : Transfers capacity peer inward outward o r inward' outward') : inward' = inward ∧
      ((peer = false ∧ outward' = outward ∧ Closed (loop json (next (some r)))) ∨
        peer = true ∧ ∃ sent rest, sent ≠ [] ∧ message = sent ++ rest ∧ outward' = outward ++ sent ∧
          Writing json (loop json (next (some r))) rest) := by
  obtain ⟨task, hserver, ht⟩ := h
  obtain ⟨units, next', htask, _⟩ := ht.exists_write hm
  obtain ⟨next'', rfl, _, hsome⟩ := loop_call hserver.symm ⟨_, _, htask⟩
  rw [hsome]
  obtain ⟨hin, ⟨hpeer, hout, hend⟩ | ⟨hpeer, sent, rest, hne, heq, hout, hrest⟩⟩ := ht.transfers hm hp
  · exact ⟨hin, .inl ⟨hpeer, hout, closed_of_failed hend⟩⟩
  · exact ⟨hin, .inr ⟨hpeer, sent, rest, hne, heq, hout, _, rfl, hrest⟩⟩

end Writing

end Server

namespace BrokerClient

variable {o : SocketOp UInt8}
  {next : o.Res IoError → Program SocketCalls (Except ClientError BrokerResponse)}

lemma exists_call {p : Program SocketCalls (Except ClientError BrokerResponse)} {left : Bytes}
    (h : Sends Failed p left (response json)) : ∃ o next, p = .call o next := by
  by_cases hl : left = []
  · obtain ⟨n, next, hr, _⟩ := @response_lost json
    exact ⟨_, _, (h.of_nil hl).trans hr⟩
  · obtain ⟨units, next, rfl, _⟩ := h.exists_write hl
    exact ⟨_, _, rfl⟩

lemma response_waits {peer : Bool} {outward inward' outward' : Bytes} {r : o.Res IoError}
    (h : .call o next = response json) (hp : Transfers capacity peer [] outward o r inward' outward') :
    peer = false ∧ inward' = [] ∧ outward' = outward ∧ Ends Failed (next r) := by
  obtain ⟨n, next', hr, _, hend, _⟩ := @response_lost json
  cases h.trans hr
  generalize hin : ([] : Bytes) = inward at hp
  cases hp with
  | read hu => exact absurd (List.append_eq_nil_iff.mp hin.symm).1 hu
  | ended hpeer => exact ⟨hpeer, rfl, rfl, hend⟩

lemma response_fails (h : .call o next = response json) (e : IoError) :
    Ends Failed (next (o.fail e)) := by
  obtain ⟨n, next', hr, _, _, hfail⟩ := @response_lost json
  cases h.trans hr
  exact hfail e

end BrokerClient

def Caller.left : Caller → ℕ
  | between | calling _ => 2
  | failed => 1
  | ended => 0

def Caller.Over (caller : Caller) : Prop := caller = .failed ∨ caller = .ended

lemma Caller.Over.ne_calling {caller : Caller} (h : caller.Over)
    {task : Program SocketCalls (Except ClientError BrokerResponse)} : caller ≠ .calling task := by
  rintro rfl
  rcases h with h | h
  · cases h
  · cases h

lemma Caller.Over.ne_between {caller : Caller} (h : caller.Over) : caller ≠ .between := by
  rintro rfl
  rcases h with h | h
  · cases h
  · cases h

namespace Link

def frameLimit : ℕ := 4 + maxFrameBytes.toNat

lemma frame_le_limit {body : Bytes} (h : Sendable body) : (frame body).length ≤ frameLimit := by
  rw [frame_length, frameLimit]
  exact Nat.add_le_add_left h.2 4

def ends (caller : Caller)
    (server : Program ServerCalls (Option (Except FrameError Unit))) : ℕ :=
  caller.left + (Server.running server).toNat

def CallerAt (s : Link) (at_ : Program SocketCalls (Except ClientError BrokerResponse) → Prop) :
    Prop :=
  s.caller.Over ∨ ∃ o next, s.caller = .calling (.call o next) ∧ at_ (.call o next)

/-- Where a link can be: at most one message is under way, and its bytes are the ones that have been
read, the ones between the ends and the `left` ones, in this order. -/
inductive Sound (json : Json) (fuel : ℕ) (s : Link) : Prop
  | between : s.caller = .between ∨ s.caller.Over →
      Server.Closed s.server ∨ s.server = Server.round json → s.up = [] → s.down = [] →
      s.asked = s.log.map Prod.fst → s.answers = s.log.map Prod.snd → ends s.caller s.server ≤ fuel →
      Sound json fuel s
  | asking {request body left} : s.asked = s.log.map Prod.fst ++ [request] →
      s.answers = s.log.map Prod.snd → json.fromSlice body = .ok request → s.down = [] →
      s.CallerAt (fun task => Sends Failed task left (BrokerClient.response json)) →
      Server.Closed s.server ∨ Server.Reading json s.server (s.up ++ left) body →
      2 * left.length + s.up.length + (2 * frameLimit + 1) + ends s.caller s.server ≤ fuel →
      Sound json fuel s
  | answering {response left} : s.asked = s.log.map Prod.fst →
      s.log.map Prod.snd = s.answers ++ [response] → s.up = [] →
      s.CallerAt (fun task => Receives Failed task (s.down ++ left) (.ok response)) →
      Server.Closed s.server ∨ Server.Writing json s.server left →
      2 * left.length + s.down.length + ends s.caller s.server ≤ fuel → Sound json fuel s
  -- the response could not be written
  | lost {response} : s.asked = s.log.map Prod.fst →
      s.log.map Prod.snd = s.answers ++ [response] → s.up = [] → s.down = [] →
      s.CallerAt (fun task => task = BrokerClient.response json) → Server.Closed s.server →
      ends s.caller s.server ≤ fuel → Sound json fuel s

variable {s s' : Link} {fuel : ℕ}
  {task : Program SocketCalls (Except ClientError BrokerResponse)}

lemma resume_ends (h : Ends Failed task) : s.resume task = { s with caller := .failed } := by
  obtain ⟨r, rfl, e, rfl⟩ := h
  rfl

namespace Sound

lemma ended (h : Sound json fuel s) {caller : Caller} (ho : caller.Over)
    (hlt : caller.left < s.caller.left) :
    ∃ k, k < fuel ∧ Sound json k { s with caller := caller } := by
  have hends : ends caller s.server + 1 ≤ ends s.caller s.server := by
    rw [ends, ends]
    omega
  cases h with
  | between _ hs hu hd ha hr hf =>
    exact ⟨ends caller s.server, by omega, .between (.inr ho) hs hu hd ha hr le_rfl⟩
  | @asking request body left ha hr hb hd _ hs hf =>
    exact ⟨2 * left.length + s.up.length + (2 * frameLimit + 1) + ends caller s.server, by omega,
      .asking ha hr hb hd (.inl ho) hs le_rfl⟩
  | @answering response left ha hr hu _ hs hf =>
    exact ⟨2 * left.length + s.down.length + ends caller s.server, by omega,
      .answering ha hr hu (.inl ho) hs le_rfl⟩
  | lost ha hr hu hd _ hs hf =>
    exact ⟨ends caller s.server, by omega, .lost ha hr hu hd (.inl ho) hs le_rfl⟩

lemma closed (h : Sound json fuel s) {server} (hrun : Server.running s.server = true)
    (hc : Server.Closed server) : ∃ k, k < fuel ∧ Sound json k { s with server := server } := by
  have hends : ends s.caller server + 1 = ends s.caller s.server := by
    rw [ends, ends, hrun, hc.running]
    rfl
  cases h with
  | between hcaller _ hu hd ha hr hf =>
    exact ⟨ends s.caller server, by omega, .between hcaller (.inl hc) hu hd ha hr le_rfl⟩
  | @asking request body left ha hr hb hd hcaller _ hf =>
    exact ⟨2 * left.length + s.up.length + (2 * frameLimit + 1) + ends s.caller server, by omega,
      .asking ha hr hb hd hcaller (.inl hc) le_rfl⟩
  | @answering response left ha hr hu hcaller _ hf =>
    exact ⟨2 * left.length + s.down.length + ends s.caller server, by omega,
      .answering ha hr hu hcaller (.inl hc) le_rfl⟩
  | lost ha hr hu hd hcaller hs hf =>
    exact ⟨ends s.caller server, by omega, .lost ha hr hu hd hcaller hc le_rfl⟩

end Sound

section client

variable {o : SocketOp UInt8}
  {next : o.Res IoError → Program SocketCalls (Except ClientError BrokerResponse)}

lemma CallerAt.calling {at_ : Program SocketCalls (Except ClientError BrokerResponse) → Prop}
    (h : s.CallerAt at_) (hs : s.caller = .calling (.call o next)) : at_ (.call o next) := by
  rcases h with h | ⟨o', next', h, ht⟩
  · exact absurd hs h.ne_calling
  · cases hs.symm.trans h
    exact ht

lemma Sound.client_fails (h : Sound json fuel s) (hs : s.caller = .calling (.call o next))
    (e : IoError) : Ends Failed (next (o.fail e)) := by
  cases h with
  | between hc =>
    rcases hc with hc | hc
    · cases hs.symm.trans hc
    · exact absurd hs hc.ne_calling
  | @asking _ _ left _ _ _ _ hc =>
    have ht := hc.calling hs
    by_cases hl : left = []
    · exact BrokerClient.response_fails (ht.of_nil hl) e
    · exact ht.fail hl e
  | answering _ _ _ hc => exact (hc.calling hs).fail e
  | lost _ _ _ _ hc => exact BrokerClient.response_fails (hc.calling hs) e

lemma Sound.client_works {r : o.Res IoError} {up down : Bytes} (h : Sound json fuel s)
    (hs : s.caller = .calling (.call o next))
    (hp : Transfers capacity (Server.running s.server) s.down s.up o r down up) :
    ∃ k, k < fuel ∧ Sound json k ({ s with up := up, down := down }.resume (next r)) := by
  have hleft : s.caller.left = 2 := by
    rw [hs]
    rfl
  have hfailed : up = s.up → down = s.down → Ends Failed (next r) →
      ∃ k, k < fuel ∧ Sound json k ({ s with up := up, down := down }.resume (next r)) := by
    rintro rfl rfl hend
    rw [resume_ends hend]
    refine h.ended (.inl rfl) ?_
    rw [hleft]
    exact Nat.one_lt_two
  cases h with
  | between hc =>
    rcases hc with hc | hc
    · cases hs.symm.trans hc
    · exact absurd hs hc.ne_calling
  | @asking _ _ left ha hr hb hd hc hserver hf =>
    have ht := hc.calling hs
    by_cases hl : left = []
    · rw [hd] at hp
      obtain ⟨_, hdown, hup, hend⟩ := BrokerClient.response_waits (ht.of_nil hl) hp
      exact hfailed hup (hdown.trans hd.symm) hend
    · obtain ⟨hdown, ⟨_, hup, hend⟩ | ⟨hpeer, sent, rest, hsent, rfl, rfl, hrest⟩⟩ := ht.transfers hl hp
      · exact hfailed hup hdown hend
      · obtain ⟨o', next', hcall⟩ := BrokerClient.exists_call hrest
        rw [hcall] at hrest ⊢
        rw [← List.append_assoc] at hserver
        have hlt := List.length_pos_iff.mpr hsent
        have hends : ends (.calling (.call o' next')) s.server = ends s.caller s.server := by
          rw [ends, ends, hleft]
          rfl
        refine ⟨2 * rest.length + (s.up ++ sent).length + (2 * frameLimit + 1) +
          ends (.calling (.call o' next')) s.server, ?_, .asking ha hr hb (hdown.trans hd)
          (.inr ⟨o', next', rfl, hrest⟩) hserver le_rfl⟩
        rw [List.length_append] at hf ⊢
        omega
  | @answering response left ha hr hu hc hserver hf =>
    obtain ⟨hup, ⟨_, hdown, hdown', hend⟩ | ⟨units, hne, heq, hrest⟩⟩ := (hc.calling hs).transfers hp
    · exact hfailed hup (hdown'.trans hdown.symm) hend
    · have hlt := List.length_pos_iff.mpr hne
      have hlen := congrArg List.length heq
      rw [List.length_append] at hlen
      by_cases hm : down ++ left = []
      · obtain ⟨rfl, rfl⟩ := List.append_eq_nil_iff.mp hm
        rw [hrest.of_nil rfl]
        have hends : ends .between s.server = ends s.caller s.server := by
          rw [ends, ends, hleft]
          rfl
        exact ⟨ends .between s.server, by omega, .between (.inl rfl)
          (hserver.imp_right fun hw => hw.written rfl) (hup.trans hu) rfl ha hr.symm le_rfl⟩
      · obtain ⟨n, next', hcall, _⟩ := hrest.exists_read hm
        rw [hcall] at hrest ⊢
        have hends : ends (.calling (.call (.read n) next')) s.server =
            ends s.caller s.server := by
          rw [ends, ends, hleft]
          rfl
        exact ⟨2 * left.length + down.length + ends (.calling (.call (.read n) next')) s.server,
          by omega, .answering ha hr (hup.trans hu) (.inr ⟨_, next', rfl, hrest⟩) hserver le_rfl⟩
  | lost ha hr hu hd hc =>
    rw [hd] at hp
    obtain ⟨_, hdown, hup, hend⟩ := BrokerClient.response_waits (hc.calling hs) hp
    exact hfailed hup (hdown.trans hd.symm) hend

end client

section server

variable {deadline : ℕ} {o : SocketOp UInt8}
  {next : Option (o.Res IoError) → Program ServerCalls (Option (Except FrameError Unit))}

lemma Sound.server_fails (h : Sound json fuel s) (hs : s.server = .call (.socket deadline o) next) :
    Server.Closed (Server.loop json (next none)) ∧
      ∀ e, Server.Closed (Server.loop json (next (some (o.fail e)))) := by
  have hround : s.server = Server.round json → Server.Closed (Server.loop json (next none)) ∧
      ∀ e, Server.Closed (Server.loop json (next (some (o.fail e)))) := by
    intro hr
    have hread := @Server.Reading.round json [0] (by decide)
    rw [← hr, hs] at hread
    exact hread.fails (by decide)
  cases h with
  | between _ hserver =>
    rcases hserver with hserver | hserver
    · exact absurd hs hserver.ne_call
    · exact hround hserver
  | asking _ _ hb _ _ hserver =>
    rcases hserver with hserver | hserver
    · exact absurd hs hserver.ne_call
    · rw [hs] at hserver
      exact hserver.fails (hserver.ne_nil hb)
  | @answering _ left _ _ _ _ hserver =>
    rcases hserver with hserver | hserver
    · exact absurd hs hserver.ne_call
    · by_cases hl : left = []
      · exact hround (hserver.written hl)
      · rw [hs] at hserver
        exact hserver.fails hl
  | lost _ _ _ _ _ hserver => exact absurd hs hserver.ne_call

lemma round_works {peer : Bool} {outward inward' outward' : Bytes} {r : o.Res IoError}
    (hs : .call (.socket deadline o) next = Server.round json)
    (hp : Transfers capacity peer [] outward o r inward' outward') : inward' = [] ∧
      outward' = outward ∧ Server.Closed (Server.loop json (next (some r))) := by
  have hread := @Server.Reading.round json [0] (by decide)
  rw [← hs, ← List.nil_append (frame [0])] at hread
  obtain ⟨hout, ⟨_, _, hin, hclosed⟩ | ⟨units, hne, heq, _⟩⟩ := hread.works (by decide) hp
  · exact ⟨hin, hout, hclosed⟩
  · exact absurd (List.append_eq_nil_iff.mp heq.symm).1 hne

lemma Sound.server_works {r : o.Res IoError} {up down : Bytes} (h : Sound json fuel s)
    (hs : s.server = .call (.socket deadline o) next)
    (hp : Transfers capacity s.caller.open s.up s.down o r up down) :
    ∃ k, k < fuel ∧ Sound json k { s with
      up := up
      down := down
      server := Server.loop json (next (some r)) } := by
  have hrun : Server.running s.server = true := Server.running_of_call hs
  have hclosed : up = s.up → down = s.down → Server.Closed (Server.loop json (next (some r))) →
      ∃ k, k < fuel ∧ Sound json k { s with
        up := up
        down := down
        server := Server.loop json (next (some r)) } := by
    rintro rfl rfl hc
    exact h.closed hrun hc
  have hends : ends s.caller (Server.loop json (next (some r))) ≤ ends s.caller s.server := by
    rw [ends, ends, hrun]
    exact Nat.add_le_add_left (Bool.toNat_le _) _
  have hround : s.server = Server.round json → s.up = [] → ∃ k, k < fuel ∧ Sound json k { s with
      up := up
      down := down
      server := Server.loop json (next (some r)) } := by
    intro hr hu
    rw [hu] at hp
    obtain ⟨hup, hdown, hc⟩ := round_works (hs.symm.trans hr) hp
    exact hclosed (hup.trans hu.symm) hdown hc
  cases h with
  | between _ hserver hu =>
    rcases hserver with hserver | hserver
    · exact absurd hs hserver.ne_call
    · exact hround hserver hu
  | @asking request body left ha hr hb hd hc hserver hf =>
    rcases hserver with hserver | hserver
    · exact absurd hs hserver.ne_call
    · rw [hs] at hserver
      obtain ⟨hdown, ⟨_, hin, hin', hend⟩ | ⟨units, hne, heq, hrest⟩⟩ :=
        hserver.works (hserver.ne_nil hb) hp
      · exact hclosed (hin'.trans hin.symm) hdown hend
      · have hlt := List.length_pos_iff.mpr hne
        have hlen := congrArg List.length heq
        rw [List.length_append] at hlen
        exact ⟨2 * left.length + up.length + (2 * frameLimit + 1) +
          ends s.caller (Server.loop json (next (some r))), by omega,
          .asking ha hr hb (hdown.trans hd) hc (.inr hrest) le_rfl⟩
  | @answering response left ha hr hu hc hserver hf =>
    rcases hserver with hserver | hserver
    · exact absurd hs hserver.ne_call
    · by_cases hl : left = []
      · exact hround (hserver.written hl) hu
      · rw [hs] at hserver
        obtain ⟨hup, ⟨_, hdown, hend⟩ | ⟨_, sent, rest, hne, rfl, rfl, hrest⟩⟩ :=
          hserver.works hl hp
        · exact hclosed hup hdown hend
        · have hlt := List.length_pos_iff.mpr hne
          rw [← List.append_assoc] at hc
          refine ⟨2 * rest.length + (s.down ++ sent).length +
            ends s.caller (Server.loop json (next (some r))), ?_,
            .answering ha hr (hup.trans hu) hc (.inr hrest) le_rfl⟩
          rw [List.length_append] at hf ⊢
          omega
  | lost _ _ _ _ _ hserver => exact absurd hs hserver.ne_call

end server

lemma Sound.dispatched (h : Sound json fuel s) {request : BrokerRequest}
    {next : BrokerResponse → Program ServerCalls (Option (Except FrameError Unit))}
    (hs : s.server = .call (.dispatch request) next) (response : BrokerResponse)
    (hcarries : json.Carries (toValue response)) : ∃ k, k < fuel ∧ Sound json k { s with
      server := Server.loop json (next response)
      log := s.log ++ [(request, response)] } := by
  cases h with
  | between _ hserver =>
    rcases hserver with hserver | hserver
    · exact absurd hs hserver.ne_call
    · obtain ⟨n, next', hcall, _⟩ :=
        (@Server.Reading.round json [0] (by decide)).call (by decide)
      cases (hs.symm.trans hserver).trans hcall
  | @asking asked body left ha hr hb hd hc hserver hf =>
    rcases hserver with hserver | hserver
    · exact absurd hs hserver.ne_call
    · by_cases hm : s.up ++ left = []
      · obtain ⟨next', hcall, hnext⟩ := hserver.dispatch hb hm
        cases hs.symm.trans hcall
        obtain ⟨hup, rfl⟩ := List.append_eq_nil_iff.mp hm
        rw [hnext]
        have hends : ∀ server, ends s.caller server ≤ ends s.caller s.server := by
          intro server
          rw [ends, ends, Server.running_of_call hs]
          exact Nat.add_le_add_left (Bool.toNat_le _) _
        have hf' : 2 * frameLimit + 1 + ends s.caller s.server ≤ fuel := by
          rw [hup] at hf
          simpa using hf
        have ha' : s.asked = (s.log ++ [(request, response)]).map Prod.fst := by
          rw [ha, List.map_append]
          rfl
        have hr' : (s.log ++ [(request, response)]).map Prod.snd = s.answers ++ [response] := by
          rw [hr, List.map_append]
          rfl
        rcases Server.Writing.respond response with hend | ⟨body', hv, hs', hw⟩
        · have hle := hends (Server.loop json (Server.respond json response))
          refine ⟨ends s.caller (Server.loop json (Server.respond json response)), ?_,
            .lost ha' hr' hup hd (hc.imp_right ?_) hend le_rfl⟩
          · omega
          · rintro ⟨o, next, hcall, ht⟩
            exact ⟨o, next, hcall, ht.of_nil rfl⟩
        · have hle := hends (Server.loop json (Server.respond json response))
          have hlen := frame_le_limit hs'
          refine ⟨2 * (frame body').length + s.down.length +
            ends s.caller (Server.loop json (Server.respond json response)), ?_,
            .answering ha' hr' hup (hc.imp_right ?_) (.inr hw) le_rfl⟩
          · rw [hd, List.length_nil]
            omega
          · rintro ⟨o, next, hcall, ht⟩
            refine ⟨o, next, hcall, ?_⟩
            rw [ht.of_nil rfl, hd]
            exact BrokerClient.response_receives hcarries hv hs'
      · obtain ⟨n, next', hcall, _⟩ := hserver.call hm
        cases hs.symm.trans hcall
  | @answering _ left _ _ _ _ hserver =>
    rcases hserver with hserver | hserver
    · exact absurd hs hserver.ne_call
    · by_cases hl : left = []
      · obtain ⟨n, next', hcall, _⟩ :=
          (@Server.Reading.round json [0] (by decide)).call (by decide)
        cases (hs.symm.trans (hserver.written hl)).trans hcall
      · obtain ⟨units, next', hcall, _⟩ := hserver.call hl
        cases hs.symm.trans hcall
  | lost _ _ _ _ _ hserver => exact absurd hs hserver.ne_call

def price : ℕ := 4 * frameLimit + 1

lemma Sound.asks (h : Sound json fuel s) (hs : s.caller = .between) {request : BrokerRequest}
    (hn : request.Named) (hcarries : json.Carries (toValue request)) {o : SocketOp UInt8}
    {next : o.Res IoError → Program SocketCalls (Except ClientError BrokerResponse)}
    (hr : BrokerClient.request json request = .call o next) :
    ∃ k, k ≤ fuel + price ∧ Sound json k { s with
      caller := .calling (.call o next)
      asked := s.asked ++ [request] } := by
  have hcaller : ∀ at_, s.CallerAt at_ → False := by
    rintro at_ (hc | ⟨_, _, hc, _⟩)
    · exact hc.ne_between hs
    · cases hs.symm.trans hc
  cases h with
  | between _ hserver hu hd ha hlog hf =>
    rcases @BrokerClient.request_cases json request with ⟨error, he⟩ | ⟨body, hv, hb⟩
    · cases hr.symm.trans he
    · have hlen := frame_le_limit hb
      have hsends := BrokerClient.request_sends hv hb
      rw [hr] at hsends
      have hends : ends (.calling (.call o next)) s.server = ends s.caller s.server := by
        rw [ends, ends, hs]
        rfl
      refine ⟨2 * (frame body).length + s.up.length + (2 * frameLimit + 1) +
        ends (.calling (.call o next)) s.server, ?_, .asking (congrArg (· ++ [request]) ha) hlog
        (hcarries.fromSlice hn.roundTrips hv) hd (.inr ⟨o, next, rfl, hsends⟩) (hserver.imp_right ?_)
        le_rfl⟩
      · rw [hu, List.length_nil, price]
        omega
      · intro hround
        simp only [hu, List.nil_append, hround]
        exact Server.Reading.round hb
  | asking _ _ _ _ hc => exact (hcaller _ hc).elim
  | answering _ _ _ hc => exact (hcaller _ hc).elim
  | lost _ _ _ _ hc => exact (hcaller _ hc).elim

section progress

lemma transfers_read {α ε : Type} {n : ℕ} {peer : Bool} {inward outward : List α} (hn : 0 < n)
    (hi : inward ≠ []) : ∃ units rest,
      @Transfers α ε capacity peer inward outward (.read n) (.ok units) rest outward := by
  obtain ⟨unit, rest, rfl⟩ := List.exists_cons_of_ne_nil hi
  exact ⟨[unit], rest, @Transfers.read α ε capacity peer n [unit] rest outward (by simp) hn⟩

lemma transfers_write {α ε : Type} {inward units : List α} (hcap : 0 < capacity) (hu : units ≠ []) :
    @Transfers α ε capacity true inward [] (.write units) (.ok 1) inward ([] ++ units.take 1) :=
  .write rfl Nat.one_pos (List.length_pos_iff.mpr hu) ((Nat.zero_add 1).trans_le hcap)

lemma works_answered (hserver : Server.running s.server = false ∨ s.down ≠ [])
    {n : ℕ} {next : Except IoError Bytes → Program SocketCalls (Except ClientError BrokerResponse)}
    (hn : 0 < n) (hs : s.caller = .calling (.call (.read n) next)) :
    ∃ s', Works json capacity s s' := by
  by_cases hd : s.down = []
  · have hrun := hserver.resolve_right (not_not_intro hd)
    refine ⟨_, @Works.client json capacity s (.read n) next (.ok []) s.up [] hs ?_⟩
    rw [hd]
    exact .ended hrun
  · obtain ⟨units, rest, hp⟩ :=
      @transfers_read capacity _ IoError n (Server.running s.server) _ s.up hn hd
    exact ⟨_, .client hs hp⟩

lemma Sound.exists_works (h : Sound json fuel s) (hcap : 0 < capacity)
    {task : Program SocketCalls (Except ClientError BrokerResponse)}
    (hs : s.caller = .calling task) : ∃ s', Works json capacity s s' := by
  have hat : ∀ {at_}, s.CallerAt at_ → ∃ o next, s.caller = .calling (.call o next) ∧
      at_ (.call o next) := by
    intro at_ hc
    exact hc.resolve_left fun ho => ho.ne_calling hs
  have hopen : s.caller.open = true := by
    rw [hs]
    rfl
  obtain ⟨n₀, next₀, hresponse, hn₀, _⟩ := @BrokerClient.response_lost json
  cases h with
  | between hc =>
    rcases hc with hc | hc
    · cases hs.symm.trans hc
    · exact absurd hs hc.ne_calling
  | @asking request body left _ _ hb hd hc hserver =>
    obtain ⟨o, next, hcall, ht⟩ := hat hc
    rcases hserver with hserver | hserver
    · by_cases hl : left = []
      · rw [ht.of_nil hl, hresponse] at hcall
        exact works_answered (.inl hserver.running) hn₀ hcall
      · obtain ⟨units, next', hwrite, _⟩ := ht.exists_write hl
        rw [hwrite] at hcall
        exact ⟨_, .client hcall (.refused ⟨.other, ""⟩ hserver.running)⟩
    · by_cases hu : s.up = []
      · by_cases hl : left = []
        · obtain ⟨next', hdispatch, _⟩ := hserver.dispatch hb (by rw [hu, hl]; rfl)
          exact ⟨_, .dispatch (.refused .internal "") hdispatch⟩
        · obtain ⟨units, next', hwrite, hne⟩ := ht.exists_write hl
          obtain ⟨n, next'', hread, _⟩ := hserver.call (by simp [hl])
          rw [hwrite] at hcall
          have hp := @transfers_write capacity _ IoError s.down _ hcap hne
          rw [← Server.running_of_call hread, ← hu] at hp
          exact ⟨_, .client hcall hp⟩
      · obtain ⟨n, next', hread, hn⟩ := hserver.call (by simp [hu])
        obtain ⟨units, rest, hp⟩ := @transfers_read capacity _ IoError n s.caller.open _ s.down hn hu
        exact ⟨_, .server hread hp⟩
  | @answering response left _ _ _ hc hserver =>
    obtain ⟨o, next, hcall, ht⟩ := hat hc
    obtain ⟨n, next', hread, hn⟩ := ht.exists_read ht.ne_nil
    rw [hread] at hcall
    by_cases hd : s.down = []
    · rcases hserver with hserver | hserver
      · exact works_answered (.inl hserver.running) hn hcall
      · have hl : left ≠ [] := by
          have hne := ht.ne_nil
          rwa [hd, List.nil_append] at hne
        obtain ⟨units, next'', hwrite, hne⟩ := hserver.call hl
        have hp := @transfers_write capacity _ IoError s.up _ hcap hne
        rw [← hopen, ← hd] at hp
        exact ⟨_, .server hwrite hp⟩
    · exact works_answered (.inr hd) hn hcall
  | lost _ _ _ _ hc hserver =>
    obtain ⟨o, next, hcall, ht⟩ := hat hc
    rw [ht, hresponse] at hcall
    exact works_answered (.inl hserver.running) hn₀ hcall

end progress

lemma resume_kept : (s.resume task).asked = s.asked ∧ (s.resume task).log = s.log ∧
    (s.resume task).retried = s.retried := by
  rcases task with (error | response) | ⟨o, next⟩
  · exact ⟨rfl, rfl, rfl⟩
  · exact ⟨rfl, rfl, rfl⟩
  · exact ⟨rfl, rfl, rfl⟩

lemma Works.kept (hs : Works json capacity s s') :
    s'.asked = s.asked ∧ s.log <+: s'.log ∧ s'.retried = s.retried := by
  cases hs with
  | client =>
    obtain ⟨ha, hl, hr⟩ := resume_kept
    exact ⟨ha, by rw [hl], hr⟩
  | server => exact ⟨rfl, List.prefix_rfl, rfl⟩
  | dispatch => exact ⟨rfl, List.prefix_append _ _, rfl⟩

lemma Fails.kept (hs : Fails json s s') :
    s'.asked = s.asked ∧ s'.log = s.log ∧ s'.retried = s.retried := by
  cases hs with
  | client => exact resume_kept
  | drops | server | expires => exact ⟨rfl, rfl, rfl⟩

/-- The JSON carries what was asked and answered, and nothing was asked after a request that had
failed. -/
structure Orderly (json : Json) (s : Link) : Prop where
  requests : ∀ request ∈ s.asked, request.Named ∧ json.Carries (toValue request)
  responses : ∀ response ∈ s.log.map Prod.snd, json.Carries (toValue response)
  retried : s.retried = false

lemma Orderly.before {own : Bool} (h : s'.Orderly json) (hs : Step json capacity s own s') :
    s.Orderly json := by
  have hkept : s.asked <+: s'.asked → s.log <+: s'.log → s'.retried = s.retried →
      s.Orderly json := by
    intro ha hl hr
    exact ⟨fun request hm => h.requests request (ha.subset hm),
      fun response hm => h.responses response ((hl.map Prod.snd).subset hm), hr ▸ h.retried⟩
  cases hs with
  | works hw =>
    obtain ⟨ha, hl, hr⟩ := hw.kept
    exact hkept (ha ▸ List.prefix_rfl) hl hr
  | fails hf =>
    obtain ⟨ha, hl, hr⟩ := hf.kept
    exact hkept (ha ▸ List.prefix_rfl) (hl ▸ List.prefix_rfl) hr
  | asks => exact hkept (List.prefix_append _ _) List.prefix_rfl rfl
  | retries => exact absurd h.retried Bool.true_eq_false.mp

lemma Sound.init {authorizer : PeerAuthorizer} {peer : PeerIdentity}
    (ha : authorizer peer = .ok ()) : Sound json 3 (Link.init json authorizer peer) := by
  refine .between (.inl rfl) (.inr ?_) rfl rfl rfl rfl ?_
  · rw [Link.init, Server.handleConnection, ha]
  · exact Nat.add_le_add_left (Bool.toNat_le _) 2

lemma Sound.works (h : Sound json fuel s) (ho : s'.Orderly json) (hs : Works json capacity s s') :
    ∃ k, k < fuel ∧ Sound json k s' := by
  cases hs with
  | client hs hp => exact h.client_works hs hp
  | server hs hp => exact h.server_works hs hp
  | dispatch response hs =>
    exact h.dispatched hs response (ho.responses response (by simp))

lemma Sound.fails (h : Sound json fuel s) (hs : Fails json s s') :
    ∃ k, k < fuel ∧ Sound json k s' := by
  cases hs with
  | client e hs =>
    rw [resume_ends (h.client_fails hs e)]
    refine h.ended (.inl rfl) ?_
    rw [hs]
    exact Nat.one_lt_two
  | drops hs =>
    refine h.ended (.inr rfl) ?_
    cases hc : s.caller with
    | between | calling => exact Nat.two_pos
    | failed => exact Nat.one_pos
    | ended => exact absurd hc hs
  | server e hs => exact h.closed (Server.running_of_call hs) ((h.server_fails hs).2 e)
  | expires hs => exact h.closed (Server.running_of_call hs) (h.server_fails hs).1

lemma Sound.own (h : Sound json fuel s) (ho : s'.Orderly json)
    (hs : Step json capacity s true s') :
    ∃ k, k < fuel ∧ Sound json k s' ∧ s'.asked.length = s.asked.length := by
  cases hs with
  | works hw =>
    obtain ⟨k, hk, hsound⟩ := h.works ho hw
    exact ⟨k, hk, hsound, congrArg List.length hw.kept.1⟩
  | fails hf =>
    obtain ⟨k, hk, hsound⟩ := h.fails hf
    exact ⟨k, hk, hsound, congrArg List.length hf.kept.1⟩

lemma Sound.other (h : Sound json fuel s) (ho : s'.Orderly json)
    (hs : Step json capacity s false s') :
    ∃ k, k ≤ fuel + price ∧ Sound json k s' ∧ s'.asked.length = s.asked.length + 1 := by
  cases hs with
  | asks hs hr =>
    obtain ⟨hn, hc⟩ := ho.requests _ (List.mem_append_right _ (List.mem_singleton_self _))
    obtain ⟨k, hk, hsound⟩ := h.asks hs hn hc hr
    exact ⟨k, hk, hsound, List.length_append⟩
  | retries => exact absurd ho.retried Bool.true_eq_false.mp

lemma Sound.reach {authorizer : PeerAuthorizer} {peer : PeerIdentity} {n : ℕ}
    (ha : authorizer peer = .ok ())
    (h : Dispatch.Counted (Step json capacity) (Link.init json authorizer peer) n s)
    (ho : s.Orderly json) : ∃ k, Sound json k s ∧ n + k ≤ 3 + price * s.asked.length := by
  have hg := h.guarded (G := fun s => s.Orderly json) ho fun a own b hs hb => hb.before hs
  exact hg.paid (fun s => s.asked.length) (Sound.init ha)
    (fun m a b hm hs => hm.own hs.2 hs.1) fun m a b hm hs => hm.other hs.2 hs.1

end Link

end FpsMaxxing
