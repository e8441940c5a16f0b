import FpsMaxxing.Ipc.Frame

/-! Reading frames depends on the bytes alone, not on the reads they arrive in. -/

namespace FpsMaxxing

open Streams

@[simp] lemma toBeBytes_length (n : UInt32) : (toBeBytes n).length = 4 := rfl

lemma fromBeBytes_toBeBytes (n : UInt32) : fromBeBytes (toBeBytes n) = n := by
  have hn := n.toNat_lt
  rw [toBeBytes, fromBeBytes, ← UInt32.toNat_inj]
  simp only [UInt8.toNat_ofNat', UInt32.toNat_ofNat']
  omega

namespace Reader

def content (reader : Reader) : Bytes := reader.stream.content

def At (reader : Reader) (failure : Option IoError) (bytes : Bytes) : Prop :=
  reader.failure = failure ∧ reader.content = bytes

def atEnd : Option IoError → Except IoError Bytes
  | some error => .error error
  | none => .ok []

variable {reader : Reader} {n : ℕ}

lemma read_end (n : ℕ) (hc : reader.content = []) : ∃ r, reader.read n = (atEnd reader.failure, r) ∧
    r.At reader.failure [] := by
  obtain ⟨k, _, _, hr, hs⟩ := reader.stream.read_spec n
  have hc' : reader.stream.content = [] := hc
  rw [hc', List.take_nil] at hr
  rw [hc', List.drop_nil] at hs
  rw [read]
  cases he : reader.stream.read n with
  | mk bytes stream =>
    rw [he] at hr hs
    obtain rfl : bytes = [] := hr
    cases hf : reader.failure with
    | none => exact ⟨_, rfl, rfl, hs⟩
    | some error => exact ⟨_, rfl, hf, hc⟩

lemma read_more (hn : 0 < n) (hc : reader.content ≠ []) : ∃ k r, 0 < k ∧ k ≤ n ∧
    k ≤ reader.content.length ∧ reader.read n = (.ok (reader.content.take k), r) ∧
      r.At reader.failure (reader.content.drop k) := by
  obtain ⟨k, hk, hl, hr, hs⟩ := reader.stream.read_spec n
  have hne : (reader.stream.read n).1 ≠ [] := fun h => hc ((Chunked.read_eq_nil hn _).mp h)
  have hpos : 0 < k := by
    rcases Nat.eq_zero_or_pos k with rfl | hpos
    · exact absurd (hr.trans List.take_zero) hne
    · exact hpos
  refine ⟨k, { reader with stream := (reader.stream.read n).2 }, hpos, hk, hl, ?_, rfl, hs⟩
  have hr : (reader.stream.read n).1 = reader.content.take k := hr
  rw [read, ← hr]
  cases he : reader.stream.read n with
  | mk bytes stream =>
    rw [he] at hne
    cases bytes with
    | nil => exact absurd rfl hne
    | cons byte bytes => rfl

end Reader

def cutPrefix (failure : Option IoError) (started : Bytes) : Except FrameError (Option Bytes) :=
  match failure with
  | some error => .error (.io error)
  | none => if started.isEmpty then .ok none else .error truncatedPrefix

def takePrefix (failure : Option IoError) (filled content : Bytes) :
    Except FrameError (Option Bytes) × Bytes :=
  if 4 ≤ filled.length + content.length then
    (.ok (some (filled ++ content.take (4 - filled.length))), content.drop (4 - filled.length))
  else (cutPrefix failure (filled ++ content), [])

lemma takePrefix_read {failure : Option IoError} {filled content : Bytes} {k : ℕ}
    (hk : k ≤ 4 - filled.length) (hl : k ≤ content.length) :
    takePrefix failure (filled ++ content.take k) (content.drop k) =
      takePrefix failure filled content := by
  have hlen : (filled ++ content.take k).length = filled.length + k := by simp [hl]
  have hcond : 4 ≤ (filled ++ content.take k).length + (content.drop k).length ↔
      4 ≤ filled.length + content.length := by
    rw [hlen, List.length_drop]
    omega
  have hrest : 4 - filled.length = k + (4 - (filled.length + k)) := by omega
  rw [takePrefix, takePrefix]
  by_cases h : 4 ≤ filled.length + content.length
  · rw [if_pos (hcond.mpr h), if_pos h, hlen, hrest, List.take_add, List.append_assoc,
      List.drop_drop]
  · rw [if_neg fun h' => h (hcond.mp h'), if_neg h, List.append_assoc, List.take_append_drop]

lemma fillPrefix_end {filled : Bytes} {reader : Reader} (hlt : filled.length < 4)
    (hc : reader.content = []) : ∃ r, fillPrefix filled reader = (cutPrefix reader.failure filled, r) ∧
      r.At reader.failure [] := by
  obtain ⟨r, hread, hat⟩ := reader.read_end (4 - filled.length) hc
  rw [fillPrefix, if_pos hlt, hread]
  cases hf : reader.failure with
  | none => exact ⟨r, rfl, hf ▸ hat⟩
  | some error => exact ⟨r, rfl, hf ▸ hat⟩

lemma fillPrefix_spec (filled : Bytes) (reader : Reader) (hf : filled.length ≤ 4) :
    ∃ r, fillPrefix filled reader = ((takePrefix reader.failure filled reader.content).1, r) ∧
      r.At reader.failure (takePrefix reader.failure filled reader.content).2 := by
  by_cases hlt : filled.length < 4
  · by_cases hc : reader.content = []
    · have hcond : ¬ 4 ≤ filled.length + ([] : Bytes).length := by simpa using hlt
      rw [hc, takePrefix, if_neg hcond, List.append_nil]
      exact fillPrefix_end hlt hc
    · obtain ⟨k, r, hpos, hk, hl, hread, hat⟩ :=
        Reader.read_more (n := 4 - filled.length) (by omega) hc
      have hne : reader.content.take k ≠ [] := by
        rw [Ne, List.take_eq_nil_iff]
        exact not_or.mpr ⟨Nat.pos_iff_ne_zero.mp hpos, hc⟩
      obtain ⟨byte, bytes, hbytes⟩ := List.exists_cons_of_ne_nil hne
      have hlen : (filled ++ byte :: bytes).length = filled.length + k := by
        rw [← hbytes]
        simp [hl]
      rw [fillPrefix, if_pos hlt, hread, hbytes, ← takePrefix_read hk hl, hbytes, ← hat.1, ← hat.2]
      exact fillPrefix_spec (filled ++ byte :: bytes) r (by omega)
  · have hz : filled.length = 4 := by omega
    rw [fillPrefix, if_neg hlt, takePrefix]
    simp [hz, Reader.At]
termination_by 4 - filled.length

def cutBody (failure : Option IoError) : FrameError :=
  .io (failure.getD ⟨.unexpectedEof, "early eof"⟩)

def takeBody (failure : Option IoError) (len : UInt32) (content : Bytes) :
    Except FrameError (Option Bytes) × Bytes :=
  if len = 0 then (.error .empty, content)
  else if len > maxFrameBytes then (.error (.tooLarge len.toUInt64), content)
  else if content.length < len.toNat then (.error (cutBody failure), [])
  else (.ok (some (content.take len.toNat)), content.drop len.toNat)

def takeFrame (failure : Option IoError) (content : Bytes) :
    Except FrameError (Option Bytes) × Bytes :=
  if 4 ≤ content.length then takeBody failure (fromBeBytes (content.take 4)) (content.drop 4)
  else (cutPrefix failure content, [])

lemma cutPrefix_ne_some (failure : Option IoError) (started body : Bytes) :
    cutPrefix failure started ≠ .ok (some body) := by
  cases failure with
  | some error => exact nofun
  | none =>
    rw [cutPrefix]
    split_ifs <;> exact nofun

lemma readExact_spec (reader : Reader) (n : ℕ) : ∃ r, reader.readExact n =
    (if reader.content.length < n then
      .error (reader.failure.getD ⟨.unexpectedEof, "early eof"⟩) else .ok (reader.content.take n), r) ∧
      r.At reader.failure (if reader.content.length < n then [] else reader.content.drop n) := by
  rw [Reader.readExact, Chunked.readExact]
  by_cases h : reader.stream.content.length < n
  · have h' : reader.content.length < n := h
    rw [if_pos h, if_pos h', if_pos h']
    exact ⟨_, rfl, rfl, rfl⟩
  · have h' : ¬ reader.content.length < n := h
    rw [if_neg h, if_neg h', if_neg h']
    exact ⟨_, rfl, rfl, Chunked.content_skip _ _⟩

lemma readFrame_spec (reader : Reader) : ∃ r,
    readFrame reader = ((takeFrame reader.failure reader.content).1, r) ∧
      r.At reader.failure (takeFrame reader.failure reader.content).2 := by
  obtain ⟨r, hr, hat⟩ := fillPrefix_spec [] reader (Nat.zero_le 4)
  rw [readFrame, hr, takeFrame]
  by_cases h : 4 ≤ reader.content.length
  · have h' : 4 ≤ ([] : Bytes).length + reader.content.length := by simpa using h
    rw [if_pos h]
    rw [takePrefix, if_pos h'] at hat ⊢
    simp only [List.length_nil, Nat.sub_zero, List.nil_append] at hat ⊢
    generalize fromBeBytes (reader.content.take 4) = len
    rw [takeBody, ← hat.2]
    split_ifs with h0 hm hl
    · exact ⟨r, rfl, hat.1, rfl⟩
    · exact ⟨r, rfl, hat.1, rfl⟩
    · obtain ⟨r', hr', hat'⟩ := readExact_spec r len.toNat
      rw [if_pos hl] at hr' hat'
      rw [hr', cutBody, ← hat.1]
      exact ⟨r', rfl, hat'⟩
    · obtain ⟨r', hr', hat'⟩ := readExact_spec r len.toNat
      rw [if_neg hl] at hr' hat'
      rw [hr', ← hat.1]
      exact ⟨r', rfl, hat'⟩
  · have h' : ¬ 4 ≤ ([] : Bytes).length + reader.content.length := by simpa using h
    rw [if_neg h]
    rw [takePrefix, if_neg h', List.nil_append] at hat ⊢
    cases hc : cutPrefix reader.failure reader.content with
    | error e => exact ⟨r, rfl, hat⟩
    | ok found =>
      cases found with
      | none => exact ⟨r, rfl, hat⟩
      | some body => exact absurd hc (cutPrefix_ne_some _ _ _)

end FpsMaxxing
