import FpsMaxxing.Contracts.Ipc
import FpsMaxxing.Contracts.Lookup

/-! The shapes of the broker's messages that are published, and those that its decoders accept. -/

namespace FpsMaxxing

open Serde

def Value.isArray : Value → Bool
  | .array _ => true
  | _ => false

def Value.HasKeys (v : Value) (names : List String) : Prop :=
  ∃ fields, v = .object fields ∧ ∀ key, key ∈ fields.map Prod.fst ↔ key ∈ names

structure PublishedChange (v : Value) : Prop where
  keys : v.HasKeys ["capability_id", "parameters", "lease_seconds"]
  capabilityId : ∃ id, v.get "capability_id" = some (.string id)
  parameters : ∃ parameters, v.get "parameters" = some parameters ∧ parameters.isObject = true
  leaseSeconds : ∃ n, v.get "lease_seconds" = some (.number (.posInt n)) ∧ 1 ≤ n

structure PublishedRequest (v : Value) : Prop where
  keys : ∃ fields, v = .object fields ∧ ∀ field ∈ fields, field.1 ∈ ["op", "owner", "change"]
  op : ∃ name ∈ ["discover", "run-lifecycle"], v.get "op" = some (.string name)
  owner : ∀ owner, v.get "owner" = some owner → owner = .null ∨ ∃ s, owner = .string s
  change : ∀ change, v.get "change" = some change → change = .null ∨ PublishedChange change

def outcomes : List (String × List String) :=
  [("capabilities", ["id", "protocol_version", "targets", "capabilities"]),
    ("lifecycle", ["provider_id", "preview", "verified", "rolled_back"]),
    ("error", ["kind", "message"])]

def PublishedResponse (v : Value) : Prop :=
  ∃ outcome ∈ outcomes, v.HasKeys ["outcome", outcome.1] ∧
    v.get "outcome" = some (.string outcome.1) ∧
    ∃ payload, v.get outcome.1 = some payload ∧ payload.HasKeys outcome.2

structure KeyedRequest (v : Value) : Prop where
  request : v.isArray = false
  op : ∀ op, v.get "op" = some op → op.isObject = false
  change : ∀ change, v.get "change" = some change → change.isArray = false

structure KeyedResponse (v : Value) : Prop where
  response : v.isArray = false
  payload : ∀ outcome ∈ outcomes, ∀ payload, v.get outcome.1 = some payload →
    payload.isArray = false

variable {v w : Value} {names : List String} {α : Type}

lemma Value.HasKeys.not_array (h : v.HasKeys names) : v.isArray = false := by
  obtain ⟨fields, rfl, _⟩ := h
  rfl

lemma structFields_object {fields : List (String × Value)} {read : List (Option Value)}
    (h : structFields names (.object fields) = some read) :
    (∀ field ∈ fields, field.1 ∈ names) ∧ read = names.map fun name => fields.lookup name := by
  rw [structFields] at h
  split_ifs at h with hk
  refine ⟨?_, (Option.some.inj h).symm⟩
  simpa using hk

lemma hasKeys_of_structFields {read : List (Option Value)} (h : structFields names v = some read)
    (hv : v.isArray = false) (hr : ∀ field ∈ read, field.isSome = true) : v.HasKeys names := by
  cases v with
  | object fields =>
    obtain ⟨hk, rfl⟩ := structFields_object h
    refine ⟨fields, rfl, fun key => ⟨fun hm => ?_, fun hm => ?_⟩⟩
    · obtain ⟨field, hf, rfl⟩ := List.mem_map.mp hm
      exact hk field hf
    · obtain ⟨w, hw⟩ := Option.isSome_iff_exists.mp (hr _ (List.mem_map_of_mem hm))
      exact mem_keys_of_lookup hw
  | array items => cases hv
  | _ => cases h

lemma isSome_of_bind {field : Option Value} {read : Value → Option α} {a : α}
    (h : field.bind read = some a) : field.isSome = true := by
  cases field with
  | none => cases h
  | some w => rfl

lemma asStr_eq_some {s : String} (h : v.asStr = some s) : v = .string s := by
  cases v with
  | string t => exact congrArg Value.string (Option.some.inj h)
  | _ => cases h

lemma required_string {field : Option Value} {s : String} (h : required field = some s) :
    field = some (.string s) := by
  obtain ⟨w, rfl, hw⟩ := Option.bind_eq_some_iff.mp h
  rw [asStr_eq_some hw]

lemma objectParameters_eq_some {field : Option Value} {parameters : Value}
    (h : objectParameters field = some parameters) :
    field = some parameters ∧ parameters.isObject = true := by
  simp only [objectParameters, Option.bind_eq_bind, Option.bind_eq_some_iff] at h
  obtain ⟨w, hw, h⟩ := h
  split_ifs at h with ho
  obtain rfl := Option.some.inj h
  exact ⟨hw, ho⟩

lemma required_nonZeroU64 {field : Option Value} {n : NonZeroU64} (h : required field = some n) :
    field = some (.number (.posInt n.val)) := by
  obtain ⟨w, rfl, hw⟩ := Option.bind_eq_some_iff.mp h
  obtain ⟨k, hk, hn⟩ := Option.bind_eq_some_iff.mp hw
  split_ifs at hn
  obtain rfl := Option.some.inj hn
  rw [Value.asU64_eq_some.mp hk]

lemma publishedChange {change : ChangeRequest} (h : fromValue v = some change)
    (hv : v.isArray = false) : PublishedChange v := by
  obtain ⟨read, hs, h⟩ := Option.bind_eq_some_iff.mp h
  cases v with
  | object fields =>
    obtain ⟨_, rfl⟩ := structFields_object hs
    simp only [List.map_cons, List.map_nil, Option.pure_def, Option.bind_eq_bind,
      Option.bind_eq_some_iff, Option.some.injEq] at h
    obtain ⟨id, hi, parameters, hp, lease, hl, rfl⟩ := h
    have hi := required_string hi
    obtain ⟨hp, ho⟩ := objectParameters_eq_some hp
    have hl := required_nonZeroU64 hl
    refine ⟨hasKeys_of_structFields hs rfl ?_, ⟨id, hi⟩, ⟨parameters, hp, ho⟩, ⟨lease.val, hl, ?_⟩⟩
    · simp [hi, hp, hl]
    · have hn : lease.val.toNat ≠ 0 := fun hz => lease.property (UInt64.toNat_inj.mp hz)
      exact UInt64.le_iff_toNat_le.mpr (Nat.one_le_iff_ne_zero.mpr hn)
  | array items => cases hv
  | _ => cases hs

lemma unitVariant_string {named : String → Option α} {a : α} (h : unitVariant named v = some a)
    (hv : v.isObject = false) : ∃ name, v = .string name ∧ named name = some a := by
  cases v with
  | string name => exact ⟨name, rfl, h⟩
  | object fields => cases hv
  | _ => cases h

lemma published_op {op : BrokerOp} (h : fromValue v = some op) (hv : v.isObject = false) :
    ∃ name ∈ ["discover", "run-lifecycle"], v = .string name := by
  obtain ⟨name, rfl, hn⟩ := unitVariant_string h hv
  have hf := List.find?_some hn
  obtain rfl : op.name = name := by simpa using hf
  exact ⟨op.name, by cases op <;> decide, rfl⟩

lemma optional_eq_some [Serde α] {field : Option Value} {a : Option α}
    (h : optional field = some a) (hf : field = some v) :
    v = .null ∨ ∃ b, fromValue v = some (b : α) := by
  subst hf
  by_cases hn : v = .null
  · exact .inl hn
  · have hv : (fromValue v : Option (Option α)) = some a := h
    rw [fromValue_option hn, Option.map_eq_some_iff] at hv
    obtain ⟨b, hb, _⟩ := hv
    exact .inr ⟨b, hb⟩

lemma publishedRequest {request : BrokerRequest} (h : fromValue v = some request)
    (hk : KeyedRequest v) : PublishedRequest v := by
  obtain ⟨read, hs, h⟩ := Option.bind_eq_some_iff.mp h
  cases v with
  | object fields =>
    obtain ⟨hkeys, rfl⟩ := structFields_object hs
    simp only [List.map_cons, List.map_nil, Option.pure_def, Option.bind_eq_bind,
      Option.bind_eq_some_iff, Option.some.injEq] at h
    obtain ⟨op, ho, owner, hw, change, hc, rfl⟩ := h
    refine ⟨⟨fields, rfl, hkeys⟩, ?_, fun v hv => ?_, fun v hv => ?_⟩
    · obtain ⟨v, hv, ho⟩ := Option.bind_eq_some_iff.mp ho
      obtain ⟨name, hm, rfl⟩ := published_op ho (hk.op v hv)
      exact ⟨name, hm, hv⟩
    · refine (optional_eq_some hw hv).imp_right ?_
      rintro ⟨s, hs⟩
      exact ⟨s, Option.some.inj (hv.symm.trans (required_string (hv ▸ hs)))⟩
    · refine (optional_eq_some hc hv).imp_right ?_
      rintro ⟨change, hr⟩
      exact publishedChange hr (hk.change v hv)
  | array items => cases hk.request
  | _ => cases hs

lemma PublishedRequest.keyed (h : PublishedRequest v) : KeyedRequest v where
  request := by
    obtain ⟨fields, rfl, _⟩ := h.keys
    rfl
  op op ho := by
    obtain ⟨name, _, hn⟩ := h.op
    rw [hn] at ho
    cases ho
    rfl
  change change hc := by
    obtain rfl | hp := h.change change hc
    · rfl
    · exact hp.keys.not_array

lemma keys_manifest {manifest : ProviderManifest} (h : ProviderManifest.ofContent v = some manifest)
    (hv : v.isArray = false) : v.HasKeys ["id", "protocol_version", "targets", "capabilities"] := by
  obtain ⟨read, hs, h⟩ := Option.bind_eq_some_iff.mp h
  refine hasKeys_of_structFields hs hv ?_
  split at h
  · simp only [Option.pure_def, Option.bind_eq_bind, Option.bind_eq_some_iff] at h
    obtain ⟨id, hi, version, hp, targets, ht, _⟩ := h
    simp [isSome_of_bind hi, isSome_of_bind hp, isSome_of_bind ht]
  · cases h

lemma keys_report {report : LifecycleReport} (h : fromValue v = some report)
    (hv : v.isArray = false) :
    v.HasKeys ["provider_id", "preview", "verified", "rolled_back"] := by
  obtain ⟨read, hs, h⟩ := Option.bind_eq_some_iff.mp h
  refine hasKeys_of_structFields hs hv ?_
  split at h
  · simp only [Option.pure_def, Option.bind_eq_bind, Option.bind_eq_some_iff] at h
    obtain ⟨id, hi, preview, hp, verified, hf, rolledBack, hb, _⟩ := h
    simp [isSome_of_bind hi, isSome_of_bind hp, isSome_of_bind hf, isSome_of_bind hb]
  · cases h

lemma keys_error {body : BrokerErrorBody} (h : BrokerErrorBody.ofContent v = some body)
    (hv : v.isArray = false) : v.HasKeys ["kind", "message"] := by
  obtain ⟨read, hs, h⟩ := Option.bind_eq_some_iff.mp h
  refine hasKeys_of_structFields hs hv ?_
  split at h
  · simp only [Option.pure_def, Option.bind_eq_bind, Option.bind_eq_some_iff] at h
    obtain ⟨kind, ⟨w, rfl, _⟩, message, hm, _⟩ := h
    simp [isSome_of_bind hm]
  · cases h

lemma published_payload {ofContent : Value → Option α} {a : α} {fields : List (String × Value)}
    {tag name : String} {keys : List String} (htag : fields.lookup tag = some w) (hne : name ≠ tag)
    (h : BrokerResponse.payload name ofContent
      (.object (fields.filter fun field => field.1 ≠ tag)) = some a)
    (hk : ∀ v, ofContent v = some a → v.isArray = false → v.HasKeys keys)
    (ha : ∀ payload, (Value.object fields).get name = some payload → payload.isArray = false) :
    (Value.object fields).HasKeys [tag, name] ∧
      ∃ payload, (Value.object fields).get name = some payload ∧ payload.HasKeys keys := by
  obtain ⟨read, hs, h⟩ := Option.bind_eq_some_iff.mp h
  obtain ⟨hkeys, rfl⟩ := structFields_object hs
  simp only [List.map_cons, List.map_nil, lookup_filter_ne, if_neg hne] at h
  obtain ⟨payload, hp, hd⟩ := Option.bind_eq_some_iff.mp h
  refine ⟨⟨fields, rfl, fun key => ⟨fun hm => ?_, fun hm => ?_⟩⟩, payload, hp, hk _ hd (ha _ hp)⟩
  · obtain ⟨field, hf, rfl⟩ := List.mem_map.mp hm
    by_cases ht : field.1 = tag
    · simp [ht]
    · have hn := hkeys field (List.mem_filter.mpr ⟨hf, by simpa using ht⟩)
      exact List.mem_cons_of_mem _ hn
  · rcases List.mem_cons.mp hm with rfl | hm
    · exact mem_keys_of_lookup htag
    · rw [List.mem_singleton.mp hm]
      exact mem_keys_of_lookup hp

lemma publishedResponse {response : BrokerResponse} (h : fromValue v = some response)
    (hk : KeyedResponse v) : PublishedResponse v := by
  cases v with
  | array items => cases hk.response
  | object fields =>
    obtain ⟨⟨tag, content⟩, ht, h⟩ := Option.bind_eq_some_iff.mp h
    obtain ⟨name, hl, hc⟩ := Option.bind_eq_some_iff.mp ht
    cases hc
    dsimp only at h
    obtain ⟨outcome, ho, hd⟩ := Option.bind_eq_some_iff.mp h
    obtain rfl := asStr_eq_some ho
    split at hd
    · obtain ⟨manifest, hm, _⟩ := Option.map_eq_some_iff.mp hd
      have ho : ("capabilities", ["id", "protocol_version", "targets", "capabilities"]) ∈
        outcomes := by decide
      obtain ⟨hkeys, hp⟩ := published_payload hl (by decide) hm (fun _ => keys_manifest)
        (hk.payload _ ho)
      exact ⟨_, ho, hkeys, hl, hp⟩
    · obtain ⟨report, hm, _⟩ := Option.map_eq_some_iff.mp hd
      have ho : ("lifecycle", ["provider_id", "preview", "verified", "rolled_back"]) ∈
        outcomes := by decide
      obtain ⟨hkeys, hp⟩ := published_payload hl (by decide) hm (fun _ => keys_report)
        (hk.payload _ ho)
      exact ⟨_, ho, hkeys, hl, hp⟩
    · obtain ⟨body, hm, _⟩ := Option.map_eq_some_iff.mp hd
      have ho : ("error", ["kind", "message"]) ∈ outcomes := by decide
      obtain ⟨hkeys, hp⟩ := published_payload hl (by decide) hm (fun _ => keys_error)
        (hk.payload _ ho)
      exact ⟨_, ho, hkeys, hl, hp⟩
    · cases hd
  | _ => cases h

lemma PublishedResponse.keyed (h : PublishedResponse v) : KeyedResponse v where
  response := by
    obtain ⟨outcome, _, hv, _⟩ := h
    exact hv.not_array
  payload outcome ho payload hp := by
    obtain ⟨named, _, ⟨fields, rfl, hkeys⟩, _, carried, hc, hcarried⟩ := h
    have hne : ∀ outcome ∈ outcomes, outcome.1 ≠ "outcome" := by decide
    have hm := (hkeys outcome.1).mp (mem_keys_of_lookup hp)
    have hn : outcome.1 = named.1 := by simpa [hne outcome ho] using hm
    rw [hn, hc] at hp
    obtain rfl := Option.some.inj hp
    exact hcarried.not_array

theorem published_shapes (v : Value) :
    (∀ request : BrokerRequest, fromValue v = some request →
      (PublishedRequest v ↔ KeyedRequest v)) ∧
    ∀ response : BrokerResponse, fromValue v = some response →
      (PublishedResponse v ↔ KeyedResponse v) :=
  ⟨fun _ h => ⟨PublishedRequest.keyed, publishedRequest h⟩,
    fun _ h => ⟨PublishedResponse.keyed, publishedResponse h⟩⟩

theorem published_shapes_samples :
    PublishedRequest (.object [("op", .string "discover")]) ∧
    PublishedResponse (toValue (BrokerResponse.lifecycle ⟨"mock", "set", true, true⟩)) := by
  refine ⟨((published_shapes _).1 ⟨.discover, none, none⟩ rfl).mpr ⟨rfl, fun op h => ?_, nofun⟩,
    ((published_shapes _).2 (.lifecycle ⟨"mock", "set", true, true⟩) rfl).mpr ⟨rfl, ?_⟩⟩
  · cases h
    rfl
  · intro outcome ho payload h
    simp only [outcomes, List.mem_cons, List.not_mem_nil, or_false] at ho
    obtain rfl | rfl | rfl := ho <;> cases h
    rfl

theorem positional_messages :
    (fromValue (.array [.string "discover"]) = some (⟨.discover, none, none⟩ : BrokerRequest) ∧
      ¬ PublishedRequest (.array [.string "discover"])) ∧
    fromValue (.array [.string "error", .array [.string "internal", .string ""]]) =
        some (BrokerResponse.error ⟨.internal, ""⟩) ∧
      ¬ PublishedResponse (.array [.string "error", .array [.string "internal", .string ""]]) := by
  refine ⟨⟨rfl, fun h => ?_⟩, rfl, fun h => ?_⟩
  · cases h.keyed.request
  · cases h.keyed.response

end FpsMaxxing
