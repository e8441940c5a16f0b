import FpsMaxxing.Ipc.Socket

/-! What the calls on a socket come to: a frame is sent and received whole or not at all. -/

namespace FpsMaxxing

open Effects Serde Streams

def Failed {ε α : Type} (r : Except ε α) : Prop := ∃ e, r = .error e

def Cut (r : Except FrameError (Option Bytes)) : Prop := r = .ok none ∨ ∃ e, r = .error (.io e)

lemma Failed.ends {ε α : Type} (e : ε) :
    Ends Failed (.done (.error e) : Program SocketCalls (Except ε α)) := ⟨_, rfl, e, rfl⟩

lemma Cut.ends (e : IoError) :
    Ends Cut (.done (.error (.io e)) : Program SocketCalls (Except FrameError (Option Bytes))) :=
  ⟨_, rfl, .inr ⟨e, rfl⟩⟩

namespace Socket

lemma writeAll_sends (bytes : Bytes) : Sends Failed (writeAll bytes) bytes (.done (.ok ())) := by
  induction bytes using writeAll.induct with
  | case1 =>
    rw [writeAll]
    exact .done _
  | case2 byte bytes ih =>
    rw [writeAll]
    suffices h : Sends Failed _ ((byte :: bytes) ++ []) _ by rwa [List.append_nil] at h
    refine .write (List.cons_ne_nil _ _) (fun e => Failed.ends e) fun k h0 _ => ?_
    obtain ⟨n, rfl⟩ := Nat.exists_eq_succ_of_ne_zero (Nat.pos_iff_ne_zero.mp h0)
    rw [List.append_nil]
    exact ih n

lemma fillPrefix_receives (filled message : Bytes) (h : filled.length + message.length = 4) :
    Receives Cut (fillPrefix filled) message (.ok (some (filled ++ message))) := by
  induction filled using fillPrefix.induct generalizing message with
  | case1 filled hlt ih =>
    rw [fillPrefix, if_pos hlt]
    refine .read (by omega) (by omega) Cut.ends ?_ fun units rest hm hu _ => ?_
    · change Ends Cut (.done (if filled.isEmpty then .ok none else .error truncatedPrefix))
      split_ifs
      · exact ⟨_, rfl, .inl rfl⟩
      · exact Cut.ends _
    · subst hm
      obtain ⟨byte, bytes, rfl⟩ := List.exists_cons_of_ne_nil hu
      have hl : (filled ++ byte :: bytes).length + rest.length = 4 := by
        rw [List.length_append] at h ⊢
        omega
      rw [← List.append_assoc]
      exact ih byte bytes rest hl
  | case2 filled hlt =>
    have hm : message = [] := List.eq_nil_of_length_eq_zero (by omega)
    rw [fillPrefix, if_neg hlt, hm, List.append_nil]
    exact .done _

lemma readExact_receives (n : ℕ) (filled message : Bytes)
    (h : filled.length + message.length = n) :
    Receives Failed (readExact n filled) message (.ok (filled ++ message)) := by
  induction filled using readExact.induct n generalizing message with
  | case1 filled hlt ih =>
    rw [readExact, if_pos hlt]
    refine .read (by omega) (by omega) (fun e => Failed.ends e) (Failed.ends _)
      fun units rest hm hu _ => ?_
    subst hm
    obtain ⟨byte, bytes, rfl⟩ := List.exists_cons_of_ne_nil hu
    have hl : (filled ++ byte :: bytes).length + rest.length = n := by
      rw [List.length_append] at h ⊢
      omega
    rw [← List.append_assoc]
    exact ih byte bytes rest hl
  | case2 filled hlt =>
    have hm : message = [] := List.eq_nil_of_length_eq_zero (by omega)
    rw [readExact, if_neg hlt, hm, List.append_nil]
    exact .done _

end Socket

variable {body : Bytes}

lemma Sendable.length_checks (h : Sendable body) :
    ¬ UInt32.ofNat body.length = 0 ∧ ¬ UInt32.ofNat body.length > maxFrameBytes := by
  constructor
  · rw [← UInt32.toNat_inj, h.toNat_ofNat]
    exact Nat.pos_iff_ne_zero.mp h.1
  · rw [gt_iff_lt, UInt32.lt_iff_toNat_lt, h.toNat_ofNat]
    exact Nat.not_lt.mpr h.2

namespace Socket

lemma readFrame_receives (h : Sendable body) :
    Receives Cut readFrame (frame body) (.ok (some body)) := by
  rw [frame, readFrame]
  have hp := fillPrefix_receives [] (toBeBytes (.ofNat body.length)) rfl
  refine hp.seq ?_ ?_
  · rintro r (rfl | ⟨e, rfl⟩)
    · exact ⟨_, rfl, .inl rfl⟩
    · exact Cut.ends e
  · have hb := readExact_receives (UInt32.ofNat body.length).toNat [] body (by simp [h.toNat_ofNat])
    obtain ⟨h0, hmax⟩ := h.length_checks
    simp only [List.nil_append, fromBeBytes_toBeBytes, readBody, if_neg h0, if_neg hmax]
    refine hb.bind ?_ rfl
    rintro r ⟨e, rfl⟩
    exact Cut.ends e

lemma writeFrame_of_sendable (h : Sendable body) : writeFrame body = (do
    match ← writeAll (toBeBytes (.ofNat body.length)) with
    | .error error => return .error (.io error)
    | .ok () =>
      match ← writeAll body with
      | .error error => return .error (.io error)
      | .ok () => return .ok ()) := by
  have hmax : maxFrameBytes.toNat = 1048576 := rfl
  have hne : ¬ body.isEmpty = true := by
    rw [List.isEmpty_iff]
    rintro rfl
    exact absurd h.1 (by decide)
  have hlt : body.length < 2 ^ 64 := by
    have hu := h.2
    omega
  have hle := mt (sentLength_gt body.length).mp (Nat.not_lt.mpr h.2)
  have hlen : (if body.length < 2 ^ 64 then UInt64.ofNat body.length
      else 0xFFFFFFFFFFFFFFFF).toUInt32 = UInt32.ofNat body.length := by
    rw [if_pos hlt, ← UInt32.toNat_inj]
    simp
  rw [← hlen]
  exact (if_neg hne).trans (if_neg hle)

lemma writeFrame_sends (h : Sendable body) :
    Sends Failed (writeFrame body) (frame body) (.done (.ok ())) := by
  rw [writeFrame_of_sendable h]
  refine ((writeAll_sends _).bind ?_).trans ((writeAll_sends body).bind ?_)
  all_goals
    rintro r ⟨e, rfl⟩
    exact Failed.ends _

lemma writeFrame_refused (h : ¬ Sendable body) :
    ∃ error, writeFrame body = .done (.error error) := by
  rw [writeFrame]
  by_cases he : body.isEmpty = true
  · exact ⟨.empty, if_pos he⟩
  · have hlong : maxFrameBytes.toNat < body.length := by
      rw [List.isEmpty_iff, ← List.length_eq_zero_iff] at he
      by_contra hn
      exact h ⟨Nat.pos_iff_ne_zero.mpr he, Nat.not_lt.mp hn⟩
    rw [if_neg he]
    simp only [if_pos ((sentLength_gt _).mpr hlong)]
    exact ⟨_, rfl⟩

end Socket

namespace BrokerClient

variable {json : Json}

lemma response_receives {answer : BrokerResponse} (hc : json.Carries (toValue answer))
    (h : json.toVec answer = .ok body) (hs : Sendable body) :
    Receives Failed (response json) (frame body) (.ok answer) := by
  refine (Socket.readFrame_receives hs).bind ?_ ?_
  · rintro r (rfl | ⟨e, rfl⟩)
    · exact Failed.ends _
    · exact Failed.ends _
  · simp only [hc.fromSlice (roundTrips answer) h]
    rfl

lemma request_sends {asked : BrokerRequest} (h : json.toVec asked = .ok body) (hs : Sendable body) :
    Sends Failed (request json asked) (frame body) (response json) := by
  rw [request, h]
  refine (Socket.writeFrame_sends hs).bind ?_
  rintro r ⟨e, rfl⟩
  exact Failed.ends _

lemma request_cases (asked : BrokerRequest) :
    (∃ error, request json asked = .done (.error error)) ∨
      ∃ body, json.toVec asked = .ok body ∧ Sendable body := by
  rw [request]
  cases hv : json.toVec asked with
  | error text => exact .inl ⟨.codec text, rfl⟩
  | ok body =>
    by_cases hs : Sendable body
    · exact .inr ⟨body, rfl, hs⟩
    · obtain ⟨error, he⟩ := Socket.writeFrame_refused hs
      exact .inl ⟨.frame error, by simp only [he]; rfl⟩

lemma response_lost : ∃ n next, response json = .call (.read n) next ∧ 0 < n ∧
    Ends Failed (next (.ok [])) ∧ ∀ e, Ends Failed (next (.error e)) := by
  rw [response, Socket.readFrame, Socket.fillPrefix]
  exact ⟨4, _, rfl, by decide, Failed.ends _, fun e => Failed.ends _⟩

end BrokerClient

/-! On a socket at which a `Reader` waits, the calls come to what `readFrame` reads from it. -/

def Reader.answers : Semantics SocketCalls Reader
  | reader, .read n, r, next => reader.read n = (r, next)
  | _, .write _, _, _ => False

namespace Socket

variable {reader : Reader}

lemma fillPrefix_ensures (filled : Bytes) : (fillPrefix filled).Ensures Reader.answers reader
    fun r next => FpsMaxxing.fillPrefix filled reader = (r, next) := by
  induction filled using fillPrefix.induct generalizing reader with
  | case1 filled hlt ih =>
    rw [fillPrefix, if_pos hlt, FpsMaxxing.fillPrefix, if_pos hlt]
    refine ⟨⟨_, _, rfl⟩, fun r next hr => ?_⟩
    have hr : reader.read (4 - filled.length) = (r, next) := hr
    rw [hr]
    rcases r with error | _ | ⟨byte, bytes⟩
    · exact rfl
    · exact rfl
    · exact ih byte bytes
  | case2 filled hlt =>
    rw [fillPrefix, if_neg hlt, FpsMaxxing.fillPrefix, if_neg hlt]
    exact rfl

def takeExact (failure : Option IoError) (n : ℕ) (filled content : Bytes) :
    Except IoError Bytes × Bytes :=
  if filled.length + content.length < n then
    (.error (failure.getD ⟨.unexpectedEof, "early eof"⟩), [])
  else (.ok (filled ++ content.take (n - filled.length)), content.drop (n - filled.length))

lemma takeExact_read {failure : Option IoError} {n k : ℕ} {filled content : Bytes}
    (hk : k ≤ n - filled.length) (hl : k ≤ content.length) :
    takeExact failure n (filled ++ content.take k) (content.drop k) =
      takeExact failure n filled content := by
  have hlen : (filled ++ content.take k).length = filled.length + k := by simp [hl]
  have hcond : (filled ++ content.take k).length + (content.drop k).length < n ↔
      filled.length + content.length < n := by
    rw [hlen, List.length_drop]
    omega
  have hrest : n - filled.length = k + (n - (filled.length + k)) := by omega
  rw [takeExact, takeExact]
  by_cases h : filled.length + content.length < n
  · rw [if_pos (hcond.mpr h), if_pos h]
  · rw [if_neg fun h' => h (hcond.mp h'), if_neg h, hlen, hrest, List.take_add, List.append_assoc,
      List.drop_drop]

lemma readExact_ensures (n : ℕ) (filled : Bytes) (hn : filled.length ≤ n) :
    (readExact n filled).Ensures Reader.answers reader fun r next =>
      r = (takeExact reader.failure n filled reader.content).1 ∧
        next.At reader.failure (takeExact reader.failure n filled reader.content).2 := by
  induction filled using readExact.induct n generalizing reader with
  | case1 filled hlt ih =>
    rw [readExact, if_pos hlt]
    refine ⟨⟨_, _, rfl⟩, fun r next hr => ?_⟩
    have hr : reader.read (n - filled.length) = (r, next) := hr
    by_cases hc : reader.content = []
    · obtain ⟨r', hread, hat⟩ := reader.read_end (n - filled.length) hc
      rw [hr] at hread
      obtain ⟨rfl, rfl⟩ := Prod.mk.inj hread
      rw [hc, takeExact, List.length_nil, Nat.add_zero, if_pos hlt]
      cases hf : reader.failure with
      | none => exact ⟨rfl, hf ▸ hat⟩
      | some error => exact ⟨rfl, hf ▸ hat⟩
    · obtain ⟨k, r', hpos, hk, hl, hread, hat⟩ :=
        Reader.read_more (n := n - filled.length) (by omega) hc
      rw [hr] at hread
      obtain ⟨rfl, rfl⟩ := Prod.mk.inj hread
      have hne : reader.content.take k ≠ [] := by
        rw [Ne, List.take_eq_nil_iff]
        exact not_or.mpr ⟨Nat.pos_iff_ne_zero.mp hpos, hc⟩
      obtain ⟨byte, bytes, hbytes⟩ := List.exists_cons_of_ne_nil hne
      have hlen : (filled ++ byte :: bytes).length ≤ n := by
        rw [← hbytes, List.length_append, List.length_take_of_le hl]
        omega
      have hrest := @ih byte bytes next hlen
      rw [hat.1, hat.2, ← hbytes, takeExact_read hk hl] at hrest
      rw [hbytes] at hrest ⊢
      exact hrest
  | case2 filled hlt =>
    have hz : n - filled.length = 0 := by omega
    have hge : ¬ filled.length + reader.content.length < n := by omega
    rw [readExact, if_neg hlt, takeExact, if_neg hge, hz, List.take_zero, List.append_nil,
      List.drop_zero]
    exact ⟨rfl, rfl, rfl⟩

lemma readBody_ensures (len : UInt32) : (readBody len).Ensures Reader.answers reader fun r next =>
    r = (takeBody reader.failure len reader.content).1 ∧
      next.At reader.failure (takeBody reader.failure len reader.content).2 := by
  rw [readBody, takeBody]
  split_ifs with h0 hmax hl
  · exact ⟨rfl, rfl, rfl⟩
  · exact ⟨rfl, rfl, rfl⟩
  all_goals
    rw [Program.ensures_bind]
    refine (readExact_ensures len.toNat [] (Nat.zero_le _)).mono ?_
    rintro r next ⟨rfl, hat⟩
  · rw [takeExact, List.length_nil, Nat.zero_add, if_pos hl] at hat ⊢
    exact ⟨rfl, hat⟩
  · rw [takeExact, List.length_nil, Nat.zero_add, if_neg hl] at hat ⊢
    exact ⟨rfl, hat⟩

lemma readFrame_ensures : readFrame.Ensures Reader.answers reader fun r next =>
    r = (FpsMaxxing.readFrame reader).1 ∧
      next.At reader.failure (FpsMaxxing.readFrame reader).2.content := by
  obtain ⟨last, hlast, hat⟩ := readFrame_spec reader
  rw [hlast, hat.2, readFrame, Program.ensures_bind]
  refine (fillPrefix_ensures []).mono fun r next hfill => ?_
  obtain ⟨last', hlast', hat'⟩ := fillPrefix_spec [] reader (Nat.zero_le 4)
  rw [hfill] at hlast'
  obtain ⟨rfl, rfl⟩ := Prod.mk.inj hlast'
  rw [takeFrame]
  by_cases h : 4 ≤ reader.content.length
  · have h' : 4 ≤ ([] : Bytes).length + reader.content.length := by simpa using h
    rw [if_pos h]
    rw [takePrefix, if_pos h'] at hat' ⊢
    have hbody := @readBody_ensures next (fromBeBytes (reader.content.take 4))
    rwa [hat'.1, hat'.2] at hbody
  · have h' : ¬ 4 ≤ ([] : Bytes).length + reader.content.length := by simpa using h
    rw [if_neg h]
    rw [takePrefix, if_neg h', List.nil_append] at hat' ⊢
    cases hc : cutPrefix reader.failure reader.content with
    | error e => exact ⟨rfl, hat'⟩
    | ok found =>
      cases found with
      | none => exact ⟨rfl, hat'⟩
      | some body => exact absurd hc (cutPrefix_ne_some _ _ _)

end Socket

end FpsMaxxing
