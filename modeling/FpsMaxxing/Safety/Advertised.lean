import FpsMaxxing.Contracts.Schema
import FpsMaxxing.Gateway.Server
import FpsMaxxing.Safety.Refusal

/-! The arguments that the gateway publishes a schema for, against those it starts a lifecycle on. -/

namespace FpsMaxxing

open Effects Schema Serde

def Working : (o : Op) → o.Res → Prop
  | .provider .snapshot, r => ∃ snapshot, r = .ok snapshot
  | .provider _, _ => True
  | .journal _, r => ∃ b, r = .ok b

lemma exists_working (o : Op) : ∃ r : o.Res, Working o r := by
  match o with
  | .provider .snapshot => exact ⟨.ok ⟨"", .null⟩, _, rfl⟩
  | .provider (.preview _) | .provider (.apply _) | .provider (.verify _)
  | .provider (.rollback _) => exact ⟨.error (.unavailable ""), trivial⟩
  | .journal .createTables | .journal (.insert _) => exact ⟨.ok (), _, rfl⟩
  | .journal (.beginExperiment _ _) | .journal (.recordTrial _) => exact ⟨.ok (0 : ℤ), _, rfl⟩
  | .journal .ready => exact ⟨.ok true, _, rfl⟩
  | .journal (.unclosed _) => exact ⟨.ok [], _, rfl⟩
  | .journal (.lastRestore _) | .journal (.readTrial _) => exact ⟨.ok (none : Option Value), _, rfl⟩

def Begins {α : Type} (p : Program Calls α) : Prop := p.Logs Working fun log _ => Starts log

def Untouched {α : Type} (p : Program Calls α) : Prop := ∃ a, p = .done a

lemma Untouched.not_begins {α : Type} {p : Program Calls α} (h : Untouched p) : ¬ Begins p := by
  obtain ⟨a, rfl⟩ := h
  rintro ⟨_, _, _, hm⟩
  cases hm

lemma ControlPlane.begins_runLifecycle {plane : ControlPlane} {request : ChangeRequest}
    (h : plane.validate request = .ok ()) : Begins (plane.runLifecycle request).run := by
  rw [Begins, runLifecycle, Program.logs_run_bind, ExceptT.run_mk, h]
  simp only [Program.pure_eq, Program.logs_done]
  rw [Program.logs_run_bind, Program.logs_mapErr]
  refine ⟨exists_working (.provider .snapshot), ?_⟩
  rintro _ ⟨snapshot, rfl⟩
  simp only [Program.logs_done, Except.mapError]
  rw [Program.logs_run_bind, Program.logs_mapErr]
  refine ⟨exists_working (.journal (.beginExperiment plane.manifest.id (toValue snapshot))), ?_⟩
  rintro _ ⟨experiment, rfl⟩
  simp only [Program.logs_done, Except.mapError]
  apply (Program.logs_true exists_working _).mono
  intro log _ _
  exact ⟨_, _, experiment, by simp⟩

lemma ControlPlane.untouched_runLifecycle {plane : ControlPlane} {request : ChangeRequest}
    {e : ControlPlaneError} (h : plane.validate request = .error e) :
    Untouched (plane.runLifecycle request).run := by
  rw [runLifecycle, ExceptT.run_bind, ExceptT.run_mk, h]
  exact ⟨_, rfl⟩

namespace Gateway

variable {texts : Texts} {plane : ControlPlane} {arguments : Value}

def published (name : String) : Option Value :=
  match tools.get "tools" with
  | some (.array items) =>
    (items.find? fun item => item.get "name" = some (.string name)) >>= fun item =>
      item.get "inputSchema"
  | _ => none

def lifecycleCall (arguments : Value) : Value := .object
  [("arguments", arguments), ("name", .string "fpsmaxxing.run_mock_lifecycle")]

structure AsAdvertised (texts : Texts) (plane : ControlPlane) (arguments schema : Value) :
    Prop where
  started : Valid schema schema arguments → Begins (callTool texts plane (lifecycleCall arguments))
  untouched : ¬ Valid schema schema arguments →
    Untouched (callTool texts plane (lifecycleCall arguments))

def Whole (v : Value) (least most : ℕ) : Prop :=
  ∃ q, v.rational = some q ∧ q.isInt = true ∧ least ≤ q ∧ q ≤ most

structure Asks (arguments v l : Value) : Prop where
  value : arguments.get "value" = some v
  leaseSeconds : arguments.get "lease_seconds" = some l
  valueRange : Whole v 0 100
  leaseRange : Whole l 1 300

def NothingElse (arguments : Value) : Prop :=
  ∀ name field, arguments.get name = some field → name = "value" ∨ name = "lease_seconds"

def Plain (v : Value) : Prop := ∃ n, v = .number (.posInt n)

def lifecycleSchema : Value := .object
  [("additionalProperties", .bool false),
    ("properties", .object [("lease_seconds", integer 1 300), ("value", integer 0 100)]),
    ("required", .array (["value", "lease_seconds"].map .string)), ("type", .string "object")]

lemma published_lifecycle : published "fpsmaxxing.run_mock_lifecycle" = some lifecycleSchema := by
  decide +kernel

lemma valid_lifecycle {root : Value} : Valid root lifecycleSchema arguments ↔
    (∃ v l, Asks arguments v l) ∧ NothingElse arguments := by
  rw [Closed.valid_iff ⟨rfl, rfl, rfl, rfl, rfl⟩]
  constructor
  · rintro ⟨fields, rfl, hnames, hfields⟩
    obtain ⟨v, hv⟩ := hnames "value" (by decide)
    obtain ⟨l, hl⟩ := hnames "lease_seconds" (by decide)
    obtain ⟨_, ⟨⟩, hvalue⟩ := hfields _ v hv
    obtain ⟨_, ⟨⟩, hlease⟩ := hfields _ l hl
    refine ⟨⟨v, l, hv, hl, valid_integer.mp hvalue, valid_integer.mp hlease⟩, ?_⟩
    intro name field hf
    obtain ⟨sub, hs, _⟩ := hfields name field hf
    have hmem := mem_keys_of_lookup hs
    simpa [or_comm] using hmem
  · rintro ⟨⟨v, l, ha⟩, honly⟩
    obtain ⟨fields, rfl, hv⟩ := Value.get_eq_some.mp ha.value
    have hl : fields.lookup "lease_seconds" = some l := ha.leaseSeconds
    refine ⟨fields, rfl, ?_, fun name field hf => ?_⟩
    · intro name hm
      rcases List.mem_pair.mp hm with rfl | rfl
      · exact ⟨v, hv⟩
      · exact ⟨l, hl⟩
    · rcases honly name field hf with rfl | rfl
      · cases hv.symm.trans hf
        exact ⟨_, rfl, valid_integer.mpr ha.valueRange⟩
      · cases hl.symm.trans hf
        exact ⟨_, rfl, valid_integer.mpr ha.leaseRange⟩

lemma whole_posInt {n : UInt64} {least most : ℕ} :
    Whole (.number (.posInt n)) least most ↔ least ≤ n.toNat ∧ n.toNat ≤ most := by
  constructor
  · rintro ⟨q, hq, _, hl, hu⟩
    cases hq
    exact ⟨Nat.cast_le.mp hl, Nat.cast_le.mp hu⟩
  · rintro ⟨hl, hu⟩
    exact ⟨n.toNat, rfl, rfl, Nat.cast_le.mpr hl, Nat.cast_le.mpr hu⟩

lemma asU64_getD {field : Option Value} {n : UInt64} :
    (field.getD .null).asU64 = some n ↔ field = some (.number (.posInt n)) := by
  cases field with
  | none => simp [Value.asU64]
  | some v => simp [Value.asU64_eq_some]

lemma fromValue_lifecycleRequest {request : ChangeRequest} :
    fromValue (lifecycleRequest arguments) = some request ↔ ∃ lease : NonZeroU64,
      arguments.get "lease_seconds" = some (.number (.posInt lease.val)) ∧
      request = ⟨"mock.value", .object [("value", (arguments.get "value").getD .null)], lease⟩ := by
  constructor
  · intro h
    simp [fromValue, lifecycleRequest, structFields, required, objectParameters, List.lookup_cons,
      Value.asStr, Value.isObject, Option.bind_eq_some_iff] at h
    obtain ⟨n, ⟨hn, _⟩, hne, rfl⟩ := h
    exact ⟨⟨n, hne⟩, asU64_getD.mp hn, rfl⟩
  · rintro ⟨lease, hl, rfl⟩
    simp [fromValue, lifecycleRequest, hl, structFields, required, objectParameters, List.lookup_cons,
      Value.asStr, Value.isObject, Value.asU64, lease.property]

lemma callTool_lifecycle : callTool texts plane (lifecycleCall arguments) =
    runMockLifecycle texts plane arguments := rfl

end Gateway

lemma Begins.bind {α β : Type} {p : Program Calls α} {f : α → Program Calls β} (h : Begins p) :
    Begins (p >>= f) := by
  rw [Begins, Program.logs_bind]
  apply Program.Logs.mono h
  rintro log a ⟨providerId, payload, experiment, hm⟩
  apply (Program.logs_true exists_working (f a)).mono
  intro log' _ _
  exact ⟨providerId, payload, experiment, List.mem_append_left _ hm⟩

namespace Gateway

variable {texts : Texts} {plane : ControlPlane} {arguments v l : Value}

def Offered (plane : ControlPlane) : Prop :=
  ∃ capability, (plane.manifest.capabilities.find? fun item => item.id = "mock.value") =
    some capability ∧ capability.risk = .reversible

lemma begins_of_plain (hp : Offered plane) (ha : Asks arguments v l) (hv : Plain v) (hl : Plain l) :
    Begins (callTool texts plane (lifecycleCall arguments)) := by
  obtain ⟨value, rfl⟩ := hv
  obtain ⟨lease, rfl⟩ := hl
  obtain ⟨_, hvalue⟩ := whole_posInt.mp ha.valueRange
  obtain ⟨hpositive, hlease⟩ := whole_posInt.mp ha.leaseRange
  have hne : lease ≠ 0 := by
    rintro rfl
    cases hpositive
  have hdecoded : fromValue (lifecycleRequest arguments) = some (⟨"mock.value",
      .object [("value", .number (.posInt value))], ⟨lease, hne⟩⟩ : ChangeRequest) :=
    fromValue_lifecycleRequest.mpr ⟨⟨lease, hne⟩, ha.leaseSeconds, by rw [ha.value]; rfl⟩
  rw [callTool_lifecycle, runMockLifecycle, hdecoded]
  apply Begins.bind
  apply ControlPlane.begins_runLifecycle
  rw [ControlPlane.validate_eq_ok]
  exact ⟨hp, UInt64.le_iff_toNat_le.mpr hlease, value, rfl, UInt64.le_iff_toNat_le.mpr hvalue⟩

lemma untouched_of_not (h : ∀ v l, Asks arguments v l → ¬ (Plain v ∧ Plain l)) :
    Untouched (callTool texts plane (lifecycleCall arguments)) := by
  rw [callTool_lifecycle, runMockLifecycle]
  cases hd : (fromValue (lifecycleRequest arguments) : Option ChangeRequest) with
  | none => exact ⟨_, rfl⟩
  | some request =>
    obtain ⟨lease, hl, rfl⟩ := fromValue_lifecycleRequest.mp hd
    cases hv : plane.validate ⟨"mock.value",
        .object [("value", (arguments.get "value").getD .null)], lease⟩ with
    | error e =>
      obtain ⟨answer, hdone⟩ := ControlPlane.untouched_runLifecycle hv
      dsimp only
      rw [hdone, Program.done_bind]
      cases answer <;> exact ⟨_, rfl⟩
    | ok u =>
      obtain ⟨_, hlease, value, hvalue, hbound⟩ := (plane.validate_eq_ok _).mp hv
      have hgiven : arguments.get "value" = some (.number (.posInt value)) := asU64_getD.mp hvalue
      have hpositive : lease.val.toNat ≠ 0 := fun h => lease.property (UInt64.toNat_inj.mp h)
      refine absurd ⟨⟨value, rfl⟩, ⟨lease.val, rfl⟩⟩ (h _ _ ⟨hgiven, hl, ?_, ?_⟩)
      · exact whole_posInt.mpr ⟨Nat.zero_le _, UInt64.le_iff_toNat_le.mp hbound⟩
      · exact whole_posInt.mpr
          ⟨Nat.one_le_iff_ne_zero.mpr hpositive, UInt64.le_iff_toNat_le.mp hlease⟩

theorem advertised_iff (texts : Texts) (plane : ControlPlane) (hp : Offered plane)
    (arguments schema : Value) (hs : published "fpsmaxxing.run_mock_lifecycle" = some schema) :
    AsAdvertised texts plane arguments schema ↔
      ∀ v l, Asks arguments v l → (NothingElse arguments ↔ Plain v ∧ Plain l) := by
  obtain rfl : lifecycleSchema = schema := Option.some.inj (published_lifecycle.symm.trans hs)
  constructor
  · intro hadv v l ha
    constructor
    · intro honly
      have hbegins := hadv.started (valid_lifecycle.mpr ⟨⟨v, l, ha⟩, honly⟩)
      by_contra hplain
      refine (untouched_of_not fun v' l' ha' => ?_).not_begins hbegins
      cases ha.value.symm.trans ha'.value
      cases ha.leaseSeconds.symm.trans ha'.leaseSeconds
      exact hplain
    · rintro ⟨hv, hl⟩
      by_contra honly
      refine (hadv.untouched fun hvalid => ?_).not_begins (begins_of_plain hp ha hv hl)
      exact honly (valid_lifecycle.mp hvalid).2
  · intro h
    constructor
    · intro hvalid
      obtain ⟨⟨v, l, ha⟩, honly⟩ := valid_lifecycle.mp hvalid
      obtain ⟨hv, hl⟩ := (h v l ha).mp honly
      exact begins_of_plain hp ha hv hl
    · intro hvalid
      apply untouched_of_not
      intro v l ha hplain
      exact hvalid (valid_lifecycle.mpr ⟨⟨v, l, ha⟩, (h v l ha).mpr hplain⟩)

lemma offered_mock (os : String) : Offered (mockProvider os).provider.plane :=
  ⟨_, rfl, rfl⟩

def withExtra : Value := .object
  [("extra", toValue (1 : UInt64)), ("lease_seconds", toValue (30 : UInt64)),
    ("value", toValue (40 : UInt64))]

def plainTexts : Texts := ⟨fun _ => "", fun _ => ""⟩

theorem extra_argument_runs : ¬ ∀ arguments schema,
    published "fpsmaxxing.run_mock_lifecycle" = some schema →
      AsAdvertised plainTexts (mockProvider "linux").provider.plane arguments schema := by
  intro h
  have hinvalid : ¬ Valid lifecycleSchema lifecycleSchema withExtra := by
    intro hvalid
    rcases (valid_lifecycle.mp hvalid).2 "extra" _ rfl with hname | hname
    all_goals exact absurd hname (by decide)
  obtain ⟨answer, hdone⟩ := (h withExtra lifecycleSchema published_lifecycle).untouched hinvalid
  cases hdone

theorem advertised_iff_plain : AsAdvertised plainTexts (mockProvider "linux").provider.plane
    (.object [("lease_seconds", toValue (30 : UInt64)), ("value", toValue (40 : UInt64))])
    lifecycleSchema := by
  refine (advertised_iff plainTexts _ (offered_mock "linux") _ _ published_lifecycle).mpr ?_
  intro v l ha
  cases ha.value
  cases ha.leaseSeconds
  refine iff_of_true (fun name field hf => ?_) ⟨⟨_, rfl⟩, ⟨_, rfl⟩⟩
  have hmem := mem_keys_of_lookup hf
  simpa [or_comm] using hmem

end Gateway

end FpsMaxxing
