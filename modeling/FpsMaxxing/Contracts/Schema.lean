import FpsMaxxing.Contracts.Lookup
import FpsMaxxing.Contracts.Value
import Mathlib.Algebra.Order.Ring.Cast
import Mathlib.Algebra.Order.Ring.Rat

/-! JSON Schema: which values a schema, itself a JSON value, allows. Of the vocabulary there are the
keywords for types, bounds, lengths, properties and references within one document. -/

namespace FpsMaxxing

namespace Value

def rational : Value → Option ℚ
  | .number (.posInt n) => some n.toNat
  | .number (.negInt n) => some (-(n + 1))
  | .number (.float q) => some q
  | _ => none

/-- An integer is any number without a fractional part, however it is written. -/
def hasType (v : Value) : String → Bool
  | "null" => v == .null
  | "boolean" => v.asBool.isSome
  | "string" => v.asStr.isSome
  | "number" => v.rational.isSome
  | "integer" => v.rational.any Rat.isInt
  | "object" => v.isObject
  | "array" => match v with | .array _ => true | _ => false
  | _ => false

def resolve (root : Value) (path : String) : Option Value :=
  match (path.toList.splitOn '/').map String.ofList with
  | "#" :: keys => keys.foldlM get root
  | _ => none

end Value

open Serde

namespace Schema

def bound (schema : Value) (keyword : String) : Option ℚ := schema.get keyword >>= Value.rational

def property (schema : Value) (name : String) : Option Value :=
  schema.get "properties" >>= fun properties => properties.get name

structure Asserts (schema v : Value) : Prop where
  type : ∀ name, schema.get "type" = some (.string name) → v.hasType name = true
  required : ∀ names, schema.get "required" = some (.array names) → v.isObject = true →
    ∀ name, .string name ∈ names → ∃ field, v.get name = some field
  minLength : ∀ least s, bound schema "minLength" = some least → v = .string s → least ≤ s.length
  maxLength : ∀ most s, bound schema "maxLength" = some most → v = .string s → s.length ≤ most
  minimum : ∀ least q, bound schema "minimum" = some least → v.rational = some q → least ≤ q
  maximum : ∀ most q, bound schema "maximum" = some most → v.rational = some q → q ≤ most
  exclusiveMinimum : ∀ least q, bound schema "exclusiveMinimum" = some least →
    v.rational = some q → least < q

inductive Valid (root : Value) : Value → Value → Prop
  | intro {schema v} : schema ≠ .bool false → Asserts schema v →
      (∀ name sub field, property schema name = some sub → v.get name = some field →
        Valid root sub field) →
      (∀ name sub field, property schema name = none →
        schema.get "additionalProperties" = some sub → v.get name = some field →
        Valid root sub field) →
      (∀ path, schema.get "$ref" = some (.string path) → ∃ target, root.resolve path = some target) →
      (∀ path target, schema.get "$ref" = some (.string path) → root.resolve path = some target →
        Valid root target v) →
      Valid root schema v

variable {root schema v : Value}

lemma not_valid_false : ¬ Valid root (.bool false) v := by
  rintro ⟨h, _⟩
  exact h rfl

lemma Valid.asserts (h : Valid root schema v) : Asserts schema v := by
  cases h with
  | intro _ ha _ _ _ _ => exact ha

lemma Valid.property {name : String} {sub field : Value} (h : Valid root schema v)
    (hs : property schema name = some sub) (hf : v.get name = some field) : Valid root sub field := by
  cases h with
  | intro _ _ hp _ _ _ => exact hp name sub field hs hf

lemma valid_ref {path : String} {target : Value} (hr : root.resolve path = some target) :
    Valid root (.object [("$ref", .string path)]) v ↔ Valid root target v := by
  constructor
  · intro h
    cases h with
    | intro _ _ _ _ _ ht => exact ht path target rfl hr
  · intro h
    refine .intro nofun ⟨nofun, nofun, nofun, nofun, nofun, nofun, nofun⟩ nofun ?_ ?_ ?_
    · rintro _ _ _ _ ⟨⟩
    · rintro _ ⟨⟩
      exact ⟨target, hr⟩
    · rintro _ _ ⟨⟩ ht
      cases hr.symm.trans ht
      exact h

structure Scalar (schema : Value) : Prop where
  isObject : schema.isObject = true
  properties : schema.get "properties" = none
  required : schema.get "required" = none
  additional : schema.get "additionalProperties" = none
  reference : schema.get "$ref" = none

lemma Scalar.valid_iff (h : Scalar schema) : Valid root schema v ↔ Asserts schema v := by
  have hproperty : ∀ name, Schema.property schema name = none := fun name => by
    rw [Schema.property, h.properties]
    rfl
  refine ⟨Valid.asserts, fun ha => .intro ?_ ha ?_ ?_ ?_ ?_⟩
  · rintro rfl
    exact Bool.noConfusion h.isObject
  · intro name sub field hs
    rw [hproperty] at hs
    cases hs
  · intro name sub field _ hs
    rw [h.additional] at hs
    cases hs
  · intro path hp
    rw [h.reference] at hp
    cases hp
  · intro path target hp
    rw [h.reference] at hp
    cases hp

def integer (minimum maximum : UInt64) : Value := .object
  [("maximum", toValue maximum), ("minimum", toValue minimum), ("type", .string "integer")]

lemma hasType_integer : v.hasType "integer" = true ↔ ∃ q, v.rational = some q ∧ q.isInt = true := by
  show v.rational.any Rat.isInt = true ↔ _
  cases v.rational <;> simp

lemma valid_integer {minimum maximum : UInt64} :
    Valid root (integer minimum maximum) v ↔
      ∃ q, v.rational = some q ∧ q.isInt = true ∧ minimum.toNat ≤ q ∧ q ≤ maximum.toNat := by
  rw [Scalar.valid_iff ⟨rfl, rfl, rfl, rfl, rfl⟩]
  constructor
  · intro ha
    have htype := ha.type "integer" rfl
    obtain ⟨q, hq, hi⟩ := hasType_integer.mp htype
    exact ⟨q, hq, hi, ha.minimum _ q rfl hq, ha.maximum _ q rfl hq⟩
  · rintro ⟨q, hq, hi, hl, hu⟩
    refine ⟨?_, nofun, nofun, nofun, ?_, ?_, nofun⟩
    · rintro _ ⟨⟩
      exact hasType_integer.mpr ⟨q, hq, hi⟩
    · rintro _ _ ⟨⟩ hr
      cases hq.symm.trans hr
      exact hl
    · rintro _ _ ⟨⟩ hr
      cases hq.symm.trans hr
      exact hu

lemma valid_integer_posInt {minimum maximum n : UInt64} :
    Valid root (integer minimum maximum) (.number (.posInt n)) ↔ minimum ≤ n ∧ n ≤ maximum := by
  rw [valid_integer, UInt64.le_iff_toNat_le, UInt64.le_iff_toNat_le]
  constructor
  · rintro ⟨q, hq, _, hl, hu⟩
    cases hq
    exact ⟨Nat.cast_le.mp hl, Nat.cast_le.mp hu⟩
  · rintro ⟨hl, hu⟩
    exact ⟨n.toNat, rfl, rfl, Nat.cast_le.mpr hl, Nat.cast_le.mpr hu⟩

structure Closed (schema : Value) (properties : List (String × Value)) (names : List String) :
    Prop where
  type : schema.get "type" = some (.string "object")
  properties : schema.get "properties" = some (.object properties)
  required : schema.get "required" = some (.array (names.map Value.string))
  additional : schema.get "additionalProperties" = some (.bool false)
  reference : schema.get "$ref" = none

variable {properties fields : List (String × Value)} {names : List String}

lemma Closed.property (h : Closed schema properties names) (name : String) :
    Schema.property schema name = properties.lookup name := by
  rw [Schema.property, h.properties]
  rfl

lemma asserts_object (h : Closed schema properties names) :
    Asserts schema (.object fields) ↔ ∀ name ∈ names, ∃ field, fields.lookup name = some field := by
  constructor
  · intro ha name hn
    exact ha.required _ h.required rfl name (List.mem_map_of_mem hn)
  · intro hn
    refine ⟨?_, ?_, nofun, nofun, nofun, nofun, nofun⟩
    · intro name hname
      rw [h.type] at hname
      cases hname
      rfl
    · intro listed hlisted _ name hm
      rw [h.required] at hlisted
      cases hlisted
      obtain ⟨other, ho, he⟩ := List.mem_map.mp hm
      cases he
      exact hn name ho

lemma Closed.valid_iff (h : Closed schema properties names) :
    Valid root schema v ↔ ∃ fields, v = .object fields ∧
      (∀ name ∈ names, ∃ field, fields.lookup name = some field) ∧
      ∀ name field, fields.lookup name = some field →
        ∃ sub, properties.lookup name = some sub ∧ Valid root sub field := by
  constructor
  · intro hv
    have htype := hv.asserts.type _ h.type
    cases v
    case object fields =>
      refine ⟨fields, rfl, (asserts_object h).mp hv.asserts, fun name field hf => ?_⟩
      cases hl : properties.lookup name with
      | some sub => exact ⟨sub, rfl, hv.property ((h.property name).trans hl) hf⟩
      | none =>
        cases hv with
        | intro _ _ _ hadd _ _ =>
          exact absurd (hadd name _ field ((h.property name).trans hl) h.additional hf)
            not_valid_false
    all_goals cases htype
  · rintro ⟨fields, rfl, hn, hf⟩
    refine .intro ?_ ((asserts_object h).mpr hn) ?_ ?_ ?_ ?_
    · rintro rfl
      cases h.type
    · intro name sub field hs hl
      obtain ⟨sub', hs', hv⟩ := hf name field hl
      rw [h.property, hs'] at hs
      cases hs
      exact hv
    · intro name sub field hs _ hl
      obtain ⟨sub', hs', _⟩ := hf name field hl
      rw [h.property, hs'] at hs
      cases hs
    · intro path hp
      rw [h.reference] at hp
      cases hp
    · intro path target hp
      rw [h.reference] at hp
      cases hp

lemma Closed.valid_record (h : Closed schema properties names)
    (hn : (properties.map Prod.fst).Nodup) (hr : ∀ name ∈ names, name ∈ properties.map Prod.fst)
    (hk : properties.map Prod.fst = fields.map Prod.fst) :
    Valid root schema (.object fields) ↔
      List.Forall₂ (fun property field => Valid root property.2 field.2) properties fields := by
  rw [h.valid_iff, ← forall_lookup hk (hk ▸ hn)]
  constructor
  · rintro ⟨_, ⟨⟩, _, hf⟩
    exact hf
  · intro hf
    exact ⟨fields, rfl, fun name hm => exists_lookup_of_mem_keys (hk ▸ hr name hm), hf⟩

end Schema

end FpsMaxxing
