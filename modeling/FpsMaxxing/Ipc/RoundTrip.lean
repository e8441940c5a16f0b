import FpsMaxxing.Ipc.FrameSpec

/-! What is written as frames is read back as the same frames, wherever the stream is cut and
however it arrives. -/

namespace FpsMaxxing

open Streams

lemma takeFrame_declared (failure : Option IoError) (n : UInt32) (rest : Bytes) :
    takeFrame failure (toBeBytes n ++ rest) = takeBody failure n rest := by
  have ht : (toBeBytes n ++ rest).take 4 = toBeBytes n := List.take_left' rfl
  have hd : (toBeBytes n ++ rest).drop 4 = rest := List.drop_left' rfl
  rw [takeFrame, if_pos (by simp), ht, hd, fromBeBytes_toBeBytes]

lemma takeBody_length {failure : Option IoError} {len : UInt32} {content body rest : Bytes}
    (h : takeBody failure len content = (.ok (some body), rest)) :
    rest.length ≤ content.length := by
  rw [takeBody] at h
  split_ifs at h
  · cases h
  · cases h
  · cases h
  · obtain ⟨_, rfl⟩ := Prod.mk.inj h
    simp

lemma takeFrame_length {failure : Option IoError} {content body rest : Bytes}
    (h : takeFrame failure content = (.ok (some body), rest)) : rest.length < content.length := by
  rw [takeFrame] at h
  split_ifs at h with hc
  · have hr := takeBody_length h
    rw [List.length_drop] at hr
    omega
  · exact absurd (Prod.mk.inj h).1 (cutPrefix_ne_some _ _ _)

lemma readFrame_length {reader next : Reader} {body : Bytes}
    (h : readFrame reader = (.ok (some body), next)) :
    next.content.length < reader.content.length := by
  obtain ⟨r, hr, hat⟩ := readFrame_spec reader
  rw [h] at hr
  obtain ⟨hb, rfl⟩ := Prod.mk.inj hr
  rw [hat.2]
  exact takeFrame_length (Prod.ext hb.symm rfl)

def readFrames (reader : Reader) : List Bytes × Except FrameError Unit :=
  match _h : readFrame reader with
  | (.ok (some body), next) =>
    let rest := readFrames next
    (body :: rest.1, rest.2)
  | (.ok none, _) => ([], .ok ())
  | (.error error, _) => ([], .error error)
termination_by reader.content.length
decreasing_by exact readFrame_length _h

def frame (body : Bytes) : Bytes := toBeBytes (.ofNat body.length) ++ body

def Sendable (body : Bytes) : Prop := 1 ≤ body.length ∧ body.length ≤ maxFrameBytes.toNat

instance (body : Bytes) : Decidable (Sendable body) := inferInstanceAs (Decidable (_ ∧ _))

lemma Sendable.writeFrame_cases {body : Bytes} (h : Sendable body) (fault : Option WriteFault)
    (out : Bytes) : writeFrame fault body out =
      match fault with
      | none => (.ok (), out ++ frame body)
      | some (n, error) => (.error (.io error), out ++ (frame body).take n) := by
  have hmax : maxFrameBytes.toNat = 1048576 := rfl
  obtain ⟨hl, hu⟩ := h
  have hne : body.isEmpty = false := by
    rw [List.isEmpty_eq_false_iff]
    rintro rfl
    simp at hl
  have hlt : body.length < 2 ^ 64 := by omega
  have hle : ¬ UInt64.ofNat body.length > maxFrameBytes.toUInt64 := by
    rw [gt_iff_lt, UInt64.lt_iff_toNat_lt, UInt64.toNat_ofNat_of_lt' hlt]
    simpa using hu
  have hlen : (UInt64.ofNat body.length).toUInt32 = UInt32.ofNat body.length := by
    rw [← UInt32.toNat_inj]
    simp
  simp only [writeFrame, hne, Bool.false_eq_true, if_false, if_pos hlt, if_neg hle, hlen]
  cases fault <;> rfl

lemma Sendable.writeFrame_eq {body : Bytes} (h : Sendable body) (out : Bytes) :
    writeFrame none body out = (.ok (), out ++ frame body) := h.writeFrame_cases none out

def written (bodies : List Bytes) : Bytes :=
  bodies.foldl (fun out body => (writeFrame none body out).2) []

lemma written_eq {bodies : List Bytes} (h : ∀ body ∈ bodies, Sendable body) :
    written bodies = (bodies.map frame).flatten := by
  have hgo : ∀ out, bodies.foldl (fun out body => (writeFrame none body out).2) out =
      out ++ (bodies.map frame).flatten := by
    induction bodies with
    | nil => simp
    | cons body bodies ih =>
      intro out
      have hs := (h body List.mem_cons_self).writeFrame_eq out
      rw [List.foldl_cons, hs, ih fun b hb => h b (List.mem_cons_of_mem _ hb)]
      simp
  exact hgo []

lemma written_cons {body : Bytes} {bodies : List Bytes}
    (h : ∀ b ∈ body :: bodies, Sendable b) : written (body :: bodies) = frame body ++ written bodies := by
  rw [written_eq h, written_eq fun b hb => h b (List.mem_cons_of_mem _ hb)]
  simp

structure Whole (bodies : List Bytes) (cut k : ℕ) : Prop where
  le : k ≤ bodies.length
  before : (written (bodies.take k)).length ≤ cut
  most : ∀ j ≤ bodies.length, (written (bodies.take j)).length ≤ cut → j ≤ k

lemma take_sendable {bodies : List Bytes} (h : ∀ b ∈ bodies, Sendable b) (k : ℕ) :
    ∀ b ∈ bodies.take k, Sendable b := fun b hb => h b (List.mem_of_mem_take hb)

lemma Whole.cons {body : Bytes} {bodies : List Bytes} {cut k : ℕ}
    (h : ∀ b ∈ body :: bodies, Sendable b) (w : Whole bodies cut k) :
    Whole (body :: bodies) ((frame body).length + cut) (k + 1) where
  le := Nat.succ_le_succ w.le
  before := by
    rw [List.take_succ_cons, written_cons (by simpa using take_sendable h (k + 1)),
      List.length_append]
    exact Nat.add_le_add_left w.before _
  most := by
    rintro (_ | j) hj hle
    · exact Nat.zero_le _
    · rw [List.take_succ_cons, written_cons (by simpa using take_sendable h (j + 1)),
        List.length_append] at hle
      exact Nat.succ_le_succ (w.most j (Nat.le_of_succ_le_succ hj) (Nat.le_of_add_le_add_left hle))

lemma Whole.zero {body : Bytes} {bodies : List Bytes} {cut : ℕ}
    (h : ∀ b ∈ body :: bodies, Sendable b) (hcut : cut < (frame body).length) :
    Whole (body :: bodies) cut 0 where
  le := Nat.zero_le _
  before := Nat.zero_le _
  most := by
    rintro (_ | j) _ hle
    · exact Nat.le_refl 0
    · rw [List.take_succ_cons, written_cons (by simpa using take_sendable h (j + 1)),
        List.length_append] at hle
      omega

@[simp] lemma frame_length (body : Bytes) : (frame body).length = 4 + body.length := by
  simp [frame]

lemma frame_ne_nil (body : Bytes) : frame body ≠ [] := by
  rw [← List.length_pos_iff, frame_length]
  omega

lemma Sendable.toNat_ofNat {body : Bytes} (h : Sendable body) :
    (UInt32.ofNat body.length).toNat = body.length := by
  have hmax : maxFrameBytes.toNat = 1048576 := rfl
  have hu := h.2
  exact UInt32.toNat_ofNat_of_lt' (by rw [show UInt32.size = 4294967296 from rfl]; omega)

lemma Sendable.takeBody_eq {body : Bytes} (h : Sendable body) (failure : Option IoError)
    (content : Bytes) : takeBody failure (.ofNat body.length) content =
      if content.length < body.length then (.error (cutBody failure), [])
      else (.ok (some (content.take body.length)), content.drop body.length) := by
  have h0 : ¬ UInt32.ofNat body.length = 0 := by
    rw [← UInt32.toNat_inj, h.toNat_ofNat]
    exact Nat.pos_iff_ne_zero.mp h.1
  have hm : ¬ UInt32.ofNat body.length > maxFrameBytes := by
    rw [gt_iff_lt, UInt32.lt_iff_toNat_lt, h.toNat_ofNat]
    exact Nat.not_lt.mpr h.2
  rw [takeBody, if_neg h0, if_neg hm, h.toNat_ofNat]

lemma Sendable.takeFrame_whole {body : Bytes} (h : Sendable body) (failure : Option IoError)
    (tail : Bytes) : takeFrame failure (frame body ++ tail) = (.ok (some body), tail) := by
  have hlen : ¬ (body ++ tail).length < body.length := by simp
  rw [frame, List.append_assoc, takeFrame_declared, h.takeBody_eq, if_neg hlen, List.take_left,
    List.drop_left]

lemma Sendable.takeFrame_cut {body : Bytes} (h : Sendable body) {cut : ℕ} (h0 : 0 < cut)
    (hcut : cut < (frame body).length) :
    ∃ e, takeFrame none ((frame body).take cut) = (.error (.io e), []) := by
  rw [frame_length] at hcut
  by_cases h4 : cut < 4
  · have hlen : ¬ 4 ≤ ((frame body).take cut).length := by
      rw [List.length_take, frame_length]
      omega
    have hne : ((frame body).take cut).isEmpty = false := by
      rw [List.isEmpty_eq_false_iff, Ne, List.take_eq_nil_iff]
      rintro (rfl | hf)
      · exact Nat.lt_irrefl 0 h0
      · simpa using congrArg List.length hf
    rw [takeFrame, if_neg hlen, cutPrefix, hne]
    exact ⟨_, rfl⟩
  · obtain ⟨n, rfl⟩ : ∃ n, cut = 4 + n := ⟨cut - 4, by omega⟩
    have ht : (frame body).take (4 + n) = toBeBytes (.ofNat body.length) ++ body.take n := by
      have hp : (toBeBytes (.ofNat body.length)).length ≤ 4 + n := Nat.le_add_right 4 n
      rw [frame, List.take_append, List.take_of_length_le hp, toBeBytes_length,
        Nat.add_sub_cancel_left]
    have hlen : (body.take n).length < body.length := by
      rw [List.length_take]
      omega
    rw [ht, takeFrame_declared, h.takeBody_eq, if_pos hlen]
    exact ⟨_, rfl⟩

lemma readFrame_at {reader : Reader} {failure : Option IoError} {content : Bytes}
    (hat : reader.At failure content) : ∃ next,
      readFrame reader = ((takeFrame failure content).1, next) ∧
        next.At failure (takeFrame failure content).2 := by
  obtain ⟨rfl, rfl⟩ := hat
  exact readFrame_spec reader

section

variable {reader : Reader} {failure : Option IoError} {content rest : Bytes}

lemma readFrames_body {body : Bytes} (hat : reader.At failure content)
    (h : takeFrame failure content = (.ok (some body), rest)) : ∃ next, next.At failure rest ∧
      readFrames reader = (body :: (readFrames next).1, (readFrames next).2) := by
  obtain ⟨next, hr, hn⟩ := readFrame_at hat
  rw [h] at hr hn
  refine ⟨next, hn, ?_⟩
  rw [readFrames]
  split <;> simp_all

lemma readFrames_none (hat : reader.At failure content)
    (h : takeFrame failure content = (.ok none, rest)) : readFrames reader = ([], .ok ()) := by
  obtain ⟨next, hr, _⟩ := readFrame_at hat
  rw [h] at hr
  rw [readFrames]
  split <;> simp_all

lemma readFrames_error {error : FrameError} (hat : reader.At failure content)
    (h : takeFrame failure content = (.error error, rest)) :
    readFrames reader = ([], .error error) := by
  obtain ⟨next, hr, _⟩ := readFrame_at hat
  rw [h] at hr
  rw [readFrames]
  split <;> simp_all

end

lemma takeFrame_nil : takeFrame none [] = (.ok none, []) := rfl

structure ReadBack (bodies : List Bytes) (cut k : ℕ) (reader : Reader) : Prop where
  whole : Whole bodies cut k
  bodies_eq : (readFrames reader).1 = bodies.take k
  closed : (written bodies).take cut = written (bodies.take k) → (readFrames reader).2 = .ok ()
  torn : (written bodies).take cut ≠ written (bodies.take k) →
    ∃ error, (readFrames reader).2 = .error (.io error)

section

variable {bodies : List Bytes} {body : Bytes} {cut k : ℕ} {reader next : Reader}

lemma ReadBack.nil (hat : reader.At none ((written []).take cut)) : ReadBack [] cut 0 reader := by
  have hc : (written []).take cut = [] := List.take_nil
  rw [hc] at hat
  have hr := readFrames_none hat takeFrame_nil
  exact ⟨⟨Nat.le_refl 0, Nat.zero_le cut, fun _ hj _ => hj⟩, by rw [hr]; rfl, fun _ => by rw [hr],
    fun hne => absurd hc hne⟩

lemma ReadBack.zero (h : ∀ b ∈ body :: bodies, Sendable b) (hat : reader.At none []) :
    ReadBack (body :: bodies) 0 0 reader := by
  have hr := readFrames_none hat takeFrame_nil
  have hl : 0 < (frame body).length := List.length_pos_iff.mpr (frame_ne_nil body)
  exact ⟨Whole.zero h hl, by rw [hr]; rfl, fun _ => by rw [hr], fun hne => absurd List.take_zero hne⟩

lemma ReadBack.inside (h : ∀ b ∈ body :: bodies, Sendable b) (hpos : 0 < cut)
    (hcut : cut < (frame body).length) (hat : reader.At none ((frame body).take cut)) :
    ReadBack (body :: bodies) cut 0 reader := by
  obtain ⟨e, he⟩ := (h body List.mem_cons_self).takeFrame_cut hpos hcut
  have hr := readFrames_error hat he
  have hne : (written (body :: bodies)).take cut ≠ written ((body :: bodies).take 0) := by
    rw [written_cons h, List.take_append_of_le_length (Nat.le_of_lt hcut)]
    intro heq
    have hl := congrArg List.length heq
    rw [List.length_take, Nat.min_eq_left (Nat.le_of_lt hcut)] at hl
    exact Nat.pos_iff_ne_zero.mp hpos hl
  exact ⟨Whole.zero h hcut, by rw [hr]; rfl, fun heq => absurd heq hne, fun _ => ⟨e, by rw [hr]⟩⟩

lemma ReadBack.cons (h : ∀ b ∈ body :: bodies, Sendable b)
    (hr : readFrames reader = (body :: (readFrames next).1, (readFrames next).2))
    (hk : ReadBack bodies cut k next) :
    ReadBack (body :: bodies) ((frame body).length + cut) (k + 1) reader := by
  have hsend : ∀ b ∈ body :: bodies.take k, Sendable b := by simpa using take_sendable h (k + 1)
  have hiff : (written (body :: bodies)).take ((frame body).length + cut) =
      written ((body :: bodies).take (k + 1)) ↔
        (written bodies).take cut = written (bodies.take k) := by
    rw [List.take_succ_cons, written_cons h, written_cons hsend, List.take_length_add_append,
      List.append_right_inj]
  refine ⟨hk.whole.cons h, ?_, fun heq => ?_, fun hne => ?_⟩
  · rw [hr, List.take_succ_cons, hk.bodies_eq]
  · rw [hr]
    exact hk.closed (hiff.mp heq)
  · rw [hr]
    exact hk.torn fun heq => hne (hiff.mpr heq)

end

theorem readBack (bodies : List Bytes) (cut : ℕ) (reader : Reader)
    (h : ∀ body ∈ bodies, Sendable body) (hat : reader.At none ((written bodies).take cut)) :
    ∃ k, ReadBack bodies cut k reader := by
  induction bodies generalizing cut reader with
  | nil => exact ⟨0, ReadBack.nil hat⟩
  | cons body bodies ih =>
    rw [written_cons h] at hat
    by_cases hcut : cut < (frame body).length
    · rw [List.take_append_of_le_length (Nat.le_of_lt hcut)] at hat
      rcases Nat.eq_zero_or_pos cut with rfl | hpos
      · exact ⟨0, ReadBack.zero h hat⟩
      · exact ⟨0, ReadBack.inside h hpos hcut hat⟩
    · obtain ⟨n, rfl⟩ : ∃ n, cut = (frame body).length + n := ⟨cut - (frame body).length, by omega⟩
      rw [List.take_length_add_append] at hat
      have hb := (h body List.mem_cons_self).takeFrame_whole none ((written bodies).take n)
      obtain ⟨next, hn, hr⟩ := readFrames_body hat hb
      obtain ⟨k, hk⟩ := ih n next (fun b hb => h b (List.mem_cons_of_mem _ hb)) hn
      exact ⟨k + 1, ReadBack.cons h hr hk⟩

def FrameError.Refusal : FrameError → Prop
  | .empty => True
  | .tooLarge _ => True
  | .io _ => False

def Refuses {α : Type} (outcome : Except FrameError α) : Prop :=
  ∃ error, outcome = .error error ∧ error.Refusal

def RefusedLength (n : ℕ) : Prop := n = 0 ∨ maxFrameBytes.toNat < n

lemma sentLength_gt (n : ℕ) :
    (if n < 2 ^ 64 then UInt64.ofNat n else 0xFFFFFFFFFFFFFFFF) > maxFrameBytes.toUInt64 ↔
      maxFrameBytes.toNat < n := by
  have hmax : maxFrameBytes.toNat = 1048576 := rfl
  split_ifs with hn
  · rw [gt_iff_lt, UInt64.lt_iff_toNat_lt, UInt64.toNat_ofNat_of_lt' hn]
    simp
  · exact iff_of_true (by decide) (by omega)

lemma writeFrame_cases (fault : Option WriteFault) (body out : Bytes) :
    (RefusedLength body.length ∧ ∃ error, error.Refusal ∧
      writeFrame fault body out = (.error error, out)) ∨
    (¬ RefusedLength body.length ∧ ∀ error, error.Refusal →
      (writeFrame fault body out).1 ≠ .error error) := by
  rw [writeFrame]
  by_cases he : body.isEmpty
  · rw [if_pos he]
    rw [List.isEmpty_iff] at he
    exact .inl ⟨.inl (by rw [he]; rfl), .empty, trivial, rfl⟩
  · have hl : body.length ≠ 0 := fun h => he (List.isEmpty_iff.mpr (List.eq_nil_of_length_eq_zero h))
    rw [if_neg he]
    by_cases hm : maxFrameBytes.toNat < body.length
    · simp only [if_pos ((sentLength_gt _).mpr hm)]
      exact .inl ⟨.inr hm, .tooLarge _, trivial, rfl⟩
    · simp only [if_neg (mt (sentLength_gt _).mp hm)]
      refine .inr ⟨not_or.mpr ⟨hl, hm⟩, fun error hr => ?_⟩
      cases fault with
      | none => exact nofun
      | some fault =>
        rintro ⟨rfl⟩
        exact hr

lemma takeFrame_refuses (failure : Option IoError) (n : UInt32) (rest : Bytes) :
    Refuses (takeFrame failure (toBeBytes n ++ rest)).1 ↔ RefusedLength n.toNat := by
  have h0 : n = 0 ↔ n.toNat = 0 := by rw [← UInt32.toNat_inj]; rfl
  have hm : n > maxFrameBytes ↔ maxFrameBytes.toNat < n.toNat := UInt32.lt_iff_toNat_lt
  rw [takeFrame_declared, takeBody, RefusedLength, ← h0, ← hm]
  split_ifs with hz hg hc
  · exact iff_of_true ⟨_, rfl, trivial⟩ (.inl hz)
  · exact iff_of_true ⟨_, rfl, trivial⟩ (.inr hg)
  · refine iff_of_false ?_ (not_or.mpr ⟨hz, hg⟩)
    rintro ⟨error, ⟨rfl⟩, hr⟩
    exact hr
  · refine iff_of_false ?_ (not_or.mpr ⟨hz, hg⟩)
    rintro ⟨error, ⟨⟩, hr⟩

lemma toBeBytes_fromBeBytes {bytes : Bytes} (h : bytes.length = 4) :
    toBeBytes (fromBeBytes bytes) = bytes := by
  match bytes, h with
  | [a, b, c, d], _ =>
    have ha := a.toNat_lt
    have hb := b.toNat_lt
    have hc := c.toNat_lt
    have hd := d.toNat_lt
    simp only [fromBeBytes, toBeBytes, UInt32.toNat_ofNat', List.cons.injEq, and_true,
      ← UInt8.toNat_inj, UInt8.toNat_ofNat']
    omega

lemma writeFrame_ok {fault : Option WriteFault} {body out out' : Bytes}
    (h : writeFrame fault body out = (.ok (), out')) : Sendable body ∧ out' = out ++ frame body := by
  rcases writeFrame_cases fault body out with ⟨_, error, _, he⟩ | ⟨hl, _⟩
  · rw [h] at he
    cases he
  · obtain ⟨hz, hm⟩ := not_or.mp hl
    have hs : Sendable body := ⟨Nat.pos_iff_ne_zero.mpr hz, Nat.le_of_not_lt hm⟩
    rw [hs.writeFrame_cases] at h
    cases fault with
    | none => exact ⟨hs, (Prod.mk.inj h).2.symm⟩
    | some fault => cases h

lemma takeFrame_empty {failure : Option IoError} {content rest : Bytes}
    (h : takeFrame failure content = (.error .empty, rest)) : content = toBeBytes 0 ++ rest := by
  rw [takeFrame] at h
  split_ifs at h with hl
  · rw [takeBody] at h
    split_ifs at h with h0
    · obtain ⟨_, rfl⟩ := Prod.mk.inj h
      have ht : (content.take 4).length = 4 := by rw [List.length_take, Nat.min_eq_left hl]
      rw [← h0, toBeBytes_fromBeBytes ht, List.take_append_drop]
    · cases h
    · cases h
    · cases h
  · cases failure with
    | some error => cases h
    | none =>
      rw [cutPrefix] at h
      split_ifs at h <;> cases h

lemma readFrame_empty {reader next : Reader} (h : readFrame reader = (.error .empty, next)) :
    reader.content = toBeBytes 0 ++ next.content ∧ next.failure = reader.failure := by
  obtain ⟨r, hr, hat⟩ := readFrame_spec reader
  rw [h] at hr
  obtain ⟨he, rfl⟩ := Prod.mk.inj hr
  exact ⟨takeFrame_empty (Prod.ext he.symm hat.2.symm), hat.1⟩

theorem frames_round_trip :
    (∀ (bodies : List Bytes) (cut : ℕ) (reader : Reader), (∀ body ∈ bodies, Sendable body) →
      reader.At none ((written bodies).take cut) → ∃ k, ReadBack bodies cut k reader) ∧
    (∀ (fault : Option WriteFault) (body out : Bytes),
      (Refuses (writeFrame fault body out).1 ↔ RefusedLength body.length) ∧
      (Refuses (writeFrame fault body out).1 → (writeFrame fault body out).2 = out)) ∧
    (∀ (reader : Reader) (n : UInt32) (rest : Bytes), reader.content = toBeBytes n ++ rest →
      (Refuses (readFrame reader).1 ↔ RefusedLength n.toNat)) ∧
    ∀ reader next : Reader, readFrame reader = (.error .empty, next) →
      reader.content = toBeBytes 0 ++ next.content ∧ next.failure = reader.failure := by
  refine ⟨readBack, fun fault body out => ?_, fun reader n rest hc => ?_, fun _ _ => readFrame_empty⟩
  · rcases writeFrame_cases fault body out with ⟨hl, error, hr, he⟩ | ⟨hl, hn⟩
    · have he₁ := congrArg Prod.fst he
      have he₂ := congrArg Prod.snd he
      exact ⟨iff_of_true ⟨error, he₁, hr⟩ hl, fun _ => he₂⟩
    · have hs : ¬ Refuses (writeFrame fault body out).1 := fun ⟨e, he, hr⟩ => hn e hr he
      exact ⟨iff_of_false hs hl, fun h => absurd h hs⟩
  · obtain ⟨next, hr, _⟩ := readFrame_spec reader
    have hfst : (readFrame reader).1 = (takeFrame reader.failure reader.content).1 := by rw [hr]
    rw [hfst, hc, takeFrame_refuses]

theorem frames_round_trip_cut : ∃ k, ReadBack [[7], [8, 9]] 10 k
    ⟨.ofPieces [[0, 0], [0, 1, 7, 0, 0], [0, 2, 8]], none⟩ :=
  frames_round_trip.1 [[7], [8, 9]] 10 ⟨.ofPieces [[0, 0], [0, 1, 7, 0, 0], [0, 2, 8]], none⟩
    (by simp [Sendable, maxFrameBytes]) ⟨rfl, by decide +kernel⟩

end FpsMaxxing
