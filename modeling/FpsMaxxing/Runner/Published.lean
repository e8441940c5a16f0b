import FpsMaxxing.Contracts.Lookup
import FpsMaxxing.Contracts.Schema
import FpsMaxxing.Runner.Gate

/-! The published schema of an experiment's specification, against the check that the runner makes. -/

namespace FpsMaxxing

open Numeric Schema Serde

def float (n : ℕ) : Value := .number (.float n)

def changeRequestSchema : Value := .object
  [("additionalProperties", .bool false),
    ("properties", .object
      [("capability_id", .object [("minLength", toValue (1 : UInt64)), ("type", .string "string")]),
        ("lease_seconds", integer 1 300), ("parameters", .object [("type", .string "object")])]),
    ("required", .array (["capability_id", "parameters", "lease_seconds"].map .string)),
    ("type", .string "object")]

def decisionBoundsSchema : Value := .object
  [("additionalProperties", .bool false),
    ("properties", .object
      [("max_errors", integer 0 0),
        ("max_power_w", .object
          [("exclusiveMinimum", float 0), ("maximum", float 250), ("type", .string "number")]),
        ("max_temperature_c", .object
          [("exclusiveMinimum", float 0), ("maximum", float 90), ("type", .string "number")]),
        ("min_fps_improvement", .object [("minimum", float 0), ("type", .string "number")]),
        ("min_samples", integer 1 10000)]),
    ("required", .array (["min_samples", "min_fps_improvement", "max_temperature_c", "max_power_w",
      "max_errors"].map .string)),
    ("type", .string "object")]

/-- `schemas/experiment.schema.json`, less its dialect, its identifier and its title. -/
def experimentSchema : Value := .object
  [("$defs", .object
      [("change_request", changeRequestSchema), ("decision_bounds", decisionBoundsSchema)]),
    ("additionalProperties", .bool false),
    ("properties", .object
      [("baseline_samples", integer 1 10000),
        ("bounds", .object [("$ref", .string "#/$defs/decision_bounds")]),
        ("candidate_samples", integer 1 10000),
        ("hypothesis", .object
          [("maxLength", toValue (4096 : UInt64)), ("minLength", toValue (1 : UInt64)),
            ("type", .string "string")]),
        ("target", .object [("$ref", .string "#/$defs/change_request")]),
        ("warmup_samples", integer 0 10000)]),
    ("required", .array (["hypothesis", "target", "warmup_samples", "baseline_samples",
      "candidate_samples", "bounds"].map .string)),
    ("type", .string "object")]

lemma resolve_changeRequest :
    experimentSchema.resolve "#/$defs/change_request" = some changeRequestSchema := by
  decide +kernel

lemma resolve_decisionBounds :
    experimentSchema.resolve "#/$defs/decision_bounds" = some decisionBoundsSchema := by
  decide +kernel

variable {root : Value}

lemma valid_count {least most : UInt64} {n : UInt32} :
    Valid root (integer least most) (toValue n) ↔
      least.toNat ≤ n.toNat ∧ n.toNat ≤ most.toNat := by
  have hn : (toValue n : Value) = .number (.posInt n.toUInt64) := rfl
  rw [hn, valid_integer_posInt, UInt64.le_iff_toNat_le, UInt64.le_iff_toNat_le,
    UInt32.toNat_toUInt64]

lemma valid_samples {n : NonZeroU32} :
    Valid root (integer 1 10000) (toValue n.val) ↔ n.val ≤ maxSamples := by
  rw [valid_count, UInt32.le_iff_toNat_le]
  refine and_iff_right ?_
  have hne : n.val.toNat ≠ 0 := fun h => n.property (UInt32.toNat_inj.mp h)
  exact Nat.one_le_iff_ne_zero.mpr hne

lemma valid_warmup {n : UInt32} : Valid root (integer 0 10000) (toValue n) ↔ n ≤ maxSamples := by
  rw [valid_count, UInt32.le_iff_toNat_le]
  exact and_iff_right (Nat.zero_le _)

lemma valid_ceiling {ceiling : ℕ} {x : F64} :
    Valid root (.object [("exclusiveMinimum", float 0), ("maximum", float ceiling),
        ("type", .string "number")]) (toValue x) ↔
      ∃ q, x = .finite q ∧ 0 < q ∧ q ≤ ceiling := by
  rw [Scalar.valid_iff ⟨rfl, rfl, rfl, rfl, rfl⟩]
  constructor
  · intro ha
    have htype := ha.type "number" rfl
    cases x
    case finite q => exact ⟨q, rfl, ha.exclusiveMinimum _ q rfl rfl, ha.maximum _ q rfl rfl⟩
    all_goals cases htype
  · rintro ⟨q, rfl, hl, hu⟩
    refine ⟨?_, nofun, nofun, nofun, nofun, ?_, ?_⟩
    · rintro _ ⟨⟩
      rfl
    · rintro _ _ ⟨⟩ ⟨⟩
      exact hu
    · rintro _ _ ⟨⟩ ⟨⟩
      exact hl

lemma valid_gain {x : F64} :
    Valid root (.object [("minimum", float 0), ("type", .string "number")]) (toValue x) ↔
      ∃ q, x = .finite q ∧ 0 ≤ q := by
  rw [Scalar.valid_iff ⟨rfl, rfl, rfl, rfl, rfl⟩]
  constructor
  · intro ha
    have htype := ha.type "number" rfl
    cases x
    case finite q => exact ⟨q, rfl, ha.minimum _ q rfl rfl⟩
    all_goals cases htype
  · rintro ⟨q, rfl, hl⟩
    refine ⟨?_, nofun, nofun, nofun, ?_, nofun, nofun⟩
    · rintro _ ⟨⟩
      rfl
    · rintro _ _ ⟨⟩ ⟨⟩
      exact hl

lemma valid_hypothesis {least most : UInt64} {s : String} :
    Valid root (.object [("maxLength", toValue most), ("minLength", toValue least),
        ("type", .string "string")]) (.string s) ↔
      least.toNat ≤ s.length ∧ s.length ≤ most.toNat := by
  rw [Scalar.valid_iff ⟨rfl, rfl, rfl, rfl, rfl⟩]
  constructor
  · intro ha
    exact ⟨Nat.cast_le.mp (ha.minLength _ s rfl rfl), Nat.cast_le.mp (ha.maxLength _ s rfl rfl)⟩
  · rintro ⟨hl, hu⟩
    refine ⟨?_, nofun, ?_, ?_, nofun, nofun, nofun⟩
    · rintro _ ⟨⟩
      rfl
    · rintro _ _ ⟨⟩ ⟨⟩
      exact Nat.cast_le.mpr hl
    · rintro _ _ ⟨⟩ ⟨⟩
      exact Nat.cast_le.mpr hu

lemma valid_capabilityId {s : String} :
    Valid root (.object [("minLength", toValue (1 : UInt64)), ("type", .string "string")])
      (.string s) ↔ 1 ≤ s.length := by
  rw [Scalar.valid_iff ⟨rfl, rfl, rfl, rfl, rfl⟩]
  constructor
  · exact fun ha => Nat.cast_le.mp (ha.minLength _ s rfl rfl)
  · intro hl
    refine ⟨?_, nofun, ?_, nofun, nofun, nofun, nofun⟩
    · rintro _ ⟨⟩
      rfl
    · rintro _ _ ⟨⟩ ⟨⟩
      exact Nat.cast_le.mpr hl

lemma valid_parameters {v : Value} :
    Valid root (.object [("type", .string "object")]) v ↔ v.isObject = true := by
  rw [Scalar.valid_iff ⟨rfl, rfl, rfl, rfl, rfl⟩]
  constructor
  · exact fun ha => ha.type "object" rfl
  · intro hv
    refine ⟨?_, nofun, nofun, nofun, nofun, nofun, nofun⟩
    rintro _ ⟨⟩
    exact hv

lemma valid_changeRequest {request : ChangeRequest} :
    Valid root changeRequestSchema (toValue request) ↔ 1 ≤ request.capabilityId.length ∧
      (1 ≤ request.leaseSeconds.val ∧ request.leaseSeconds.val ≤ 300) ∧
      request.parameters.isObject = true := by
  have hrecord : Valid root changeRequestSchema (.object
      [("capability_id", .string request.capabilityId),
        ("lease_seconds", .number (.posInt request.leaseSeconds.val)),
        ("parameters", request.parameters)]) ↔ _ :=
    Closed.valid_record ⟨rfl, rfl, rfl, rfl, rfl⟩ (by decide) (by decide) rfl
  refine hrecord.trans ?_
  simp only [List.forall₂_cons, List.forall₂_nil_left_iff, valid_capabilityId,
    valid_integer_posInt, valid_parameters, and_true]

lemma valid_decisionBounds {bounds : DecisionBounds} :
    Valid root decisionBoundsSchema (toValue bounds) ↔ bounds.Legal := by
  have hrecord : Valid root decisionBoundsSchema (.object
      [("max_errors", .number (.posInt bounds.maxErrors)),
        ("max_power_w", toValue bounds.maxPowerW),
        ("max_temperature_c", toValue bounds.maxTemperatureC),
        ("min_fps_improvement", toValue bounds.minFpsImprovement),
        ("min_samples", toValue bounds.minSamples.val)]) ↔ _ :=
    Closed.valid_record ⟨rfl, rfl, rfl, rfl, rfl⟩ (by decide) (by decide) rfl
  refine hrecord.trans ?_
  simp only [List.forall₂_cons, List.forall₂_nil_left_iff, valid_integer_posInt,
    valid_ceiling, valid_gain, valid_samples, and_true]
  constructor
  · rintro ⟨⟨_, he⟩, hp, ht, hi, hm⟩
    exact ⟨hm, ht, hp, hi, UInt64.le_zero_iff.mp he⟩
  · rintro ⟨hm, ht, hp, hi, he⟩
    exact ⟨⟨UInt64.zero_le, UInt64.le_zero_iff.mpr he⟩, hp, ht, hi, hm⟩

lemma valid_experiment {spec : ExperimentSpec} :
    Valid experimentSchema experimentSchema (toValue spec) ↔
      spec.baselineSamples.val ≤ maxSamples ∧ spec.bounds.Legal ∧
      spec.candidateSamples.val ≤ maxSamples ∧
      (1 ≤ spec.hypothesis.length ∧ spec.hypothesis.length ≤ 4096) ∧
      (1 ≤ spec.target.capabilityId.length ∧
        (1 ≤ spec.target.leaseSeconds.val ∧ spec.target.leaseSeconds.val ≤ maxLeaseSeconds) ∧
        spec.target.parameters.isObject = true) ∧
      spec.warmupSamples ≤ maxSamples := by
  have hrecord : Valid experimentSchema experimentSchema (.object
      [("baseline_samples", toValue spec.baselineSamples.val), ("bounds", toValue spec.bounds),
        ("candidate_samples", toValue spec.candidateSamples.val),
        ("hypothesis", .string spec.hypothesis), ("target", toValue spec.target),
        ("warmup_samples", toValue spec.warmupSamples)]) ↔ _ :=
    Closed.valid_record ⟨rfl, rfl, rfl, rfl, rfl⟩ (by decide) (by decide) rfl
  refine hrecord.trans ?_
  simp only [List.forall₂_cons, List.forall₂_nil_left_iff, valid_samples, valid_warmup,
    valid_hypothesis, valid_ref resolve_changeRequest, valid_ref resolve_decisionBounds,
    valid_decisionBounds, valid_changeRequest, and_true]
  rfl

/-- The schema leaves open which capability is asked for, what its parameters are, and how many
samples the bounds require. -/
theorem validateSpec_published (spec : ExperimentSpec) :
    (∃ value, validateSpec spec = .ok value) ↔
      Valid experimentSchema experimentSchema (toValue spec) ∧
      spec.target.capabilityId = "mock.value" ∧
      (∃ fields value, spec.target.parameters = .object fields ∧
        (∀ field ∈ fields, field.1 = "value") ∧
        fields.lookup "value" = some (.number (.posInt value)) ∧ value ≤ 100) ∧
      spec.bounds.minSamples.val ≤ spec.baselineSamples.val ∧
      spec.bounds.minSamples.val ≤ spec.candidateSamples.val := by
  simp only [validateSpec_eq_ok, valid_experiment]
  constructor
  · rintro ⟨value, hs⟩
    obtain ⟨fields, hp, hkeys⟩ := hs.parameters
    obtain ⟨v, hget, hv⟩ := Option.bind_eq_some_iff.mp hs.requested
    rw [hp] at hget
    obtain rfl := Value.asU64_eq_some.mp hv
    have hid : spec.target.capabilityId = "mock.value" := hs.capabilityId
    have hne : spec.target.leaseSeconds.val.toNat ≠ 0 :=
      fun h => spec.target.leaseSeconds.property (UInt64.toNat_inj.mp h)
    have hlease : 1 ≤ spec.target.leaseSeconds.val :=
      UInt64.le_iff_toNat_le.mpr (Nat.one_le_iff_ne_zero.mpr hne)
    refine ⟨⟨hs.baselineSamples.2, hs.bounds, hs.candidateSamples.2, hs.hypothesis,
      ⟨by rw [hid]; decide, ⟨hlease, hs.leaseSeconds⟩, by rw [hp]; rfl⟩, hs.warmupSamples⟩, hid,
      ⟨fields, value, hp, fun field hf => List.mem_singleton.mp (hkeys field hf), hget, hs.value⟩,
      hs.baselineSamples.1, hs.candidateSamples.1⟩
  · rintro ⟨⟨hb, hbounds, hc, hh, ⟨_, ⟨_, hlease⟩, _⟩, hw⟩, hid, ⟨fields, value, hp, hkeys, hget, hv⟩,
      hbm, hcm⟩
    have hrequested : (spec.target.parameters.get "value" >>= Value.asU64) = some value := by
      rw [hp, Value.get, hget]
      rfl
    exact ⟨value, hid, hbounds, hh, hw, ⟨hbm, hb⟩, ⟨hcm, hc⟩,
      ⟨fields, hp, fun field hf => List.mem_singleton.mpr (hkeys field hf)⟩, hrequested, hv, hlease⟩

end FpsMaxxing
