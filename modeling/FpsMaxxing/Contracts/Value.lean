import Mathlib.Algebra.Group.Nat.Defs
import Mathlib.Data.Rat.Defs
import Mathlib.Tactic.Common

/-! JSON values as the code holds them, and the two directions of the derived wire forms. A journal
payload is kept as the value its text denotes. -/

namespace FpsMaxxing

inductive Number
  | posInt (n : UInt64)
  -- stands for `-(n + 1)`
  | negInt (n : ℕ)
  | float (q : ℚ)
  deriving DecidableEq

inductive Value
  | null
  | bool (b : Bool)
  | number (n : Number)
  | string (s : String)
  | array (items : List Value)
  -- the fields of the map in ascending key order
  | object (fields : List (String × Value))
  deriving Inhabited

namespace Value

mutual

def decEq : (a b : Value) → Decidable (a = b)
  | .null, .null => .isTrue rfl
  | .bool a, .bool b => decidable_of_iff (a = b) (by simp)
  | .number a, .number b => decidable_of_iff (a = b) (by simp)
  | .string a, .string b => decidable_of_iff (a = b) (by simp)
  | .array a, .array b =>
    match decEqItems a b with
    | .isTrue h => .isTrue (by rw [h])
    | .isFalse h => .isFalse (by simpa using h)
  | .object a, .object b =>
    match decEqFields a b with
    | .isTrue h => .isTrue (by rw [h])
    | .isFalse h => .isFalse (by simpa using h)
  | .null, .bool _ | .null, .number _ | .null, .string _ | .null, .array _ | .null, .object _
  | .bool _, .null | .bool _, .number _ | .bool _, .string _ | .bool _, .array _
  | .bool _, .object _ | .number _, .null | .number _, .bool _ | .number _, .string _
  | .number _, .array _ | .number _, .object _ | .string _, .null | .string _, .bool _
  | .string _, .number _ | .string _, .array _ | .string _, .object _ | .array _, .null
  | .array _, .bool _ | .array _, .number _ | .array _, .string _ | .array _, .object _
  | .object _, .null | .object _, .bool _ | .object _, .number _ | .object _, .string _
  | .object _, .array _ => .isFalse (by simp)

def decEqItems : (a b : List Value) → Decidable (a = b)
  | [], [] => .isTrue rfl
  | [], _ :: _ | _ :: _, [] => .isFalse (by simp)
  | a :: as, b :: bs =>
    match decEq a b, decEqItems as bs with
    | .isTrue h, .isTrue hs => .isTrue (by rw [h, hs])
    | .isFalse h, _ | _, .isFalse h => .isFalse (by simp [h])

def decEqFields : (a b : List (String × Value)) → Decidable (a = b)
  | [], [] => .isTrue rfl
  | [], _ :: _ | _ :: _, [] => .isFalse (by simp)
  | (k, a) :: as, (l, b) :: bs =>
    match decEq a b, decEqFields as bs with
    | .isTrue h, .isTrue hs => decidable_of_iff (k = l) (by simp [h, hs])
    | .isFalse h, _ | _, .isFalse h => .isFalse (by simp [h])

end

instance : DecidableEq Value := decEq

def get (v : Value) (key : String) : Option Value :=
  match v with
  | .object fields => fields.lookup key
  | _ => none

def asU64 : Value → Option UInt64
  | .number (.posInt n) => some n
  | _ => none

def asBool : Value → Option Bool
  | .bool b => some b
  | _ => none

def asStr : Value → Option String
  | .string s => some s
  | _ => none

def isObject : Value → Bool
  | .object _ => true
  | _ => false

lemma isObject_of_get {v w : Value} {key : String} (h : v.get key = some w) :
    v.isObject = true := by
  cases v <;> simp_all [get, isObject]

lemma get_eq_some {v w : Value} {key : String} :
    v.get key = some w ↔ ∃ fields, v = .object fields ∧ fields.lookup key = some w := by
  cases v <;> simp [get]

lemma asU64_eq_some {v : Value} {n : UInt64} : v.asU64 = some n ↔ v = .number (.posInt n) := by
  match v with
  | .number (.posInt _) => simp [asU64]
  | .number (.negInt _) | .number (.float _) | .null | .bool _ | .string _ | .array _ | .object _ =>
    simp [asU64]

end Value

abbrev NonZeroU64 := { n : UInt64 // n ≠ 0 }
abbrev NonZeroU32 := { n : UInt32 // n ≠ 0 }

/-- `Serialize` and `Deserialize`; a refused value decodes to `none`. -/
class Serde (α : Type) where
  toValue : α → Value
  fromValue : Value → Option α

open Serde

instance : Serde Value where
  toValue v := v
  fromValue v := some v

instance : Serde Bool where
  toValue b := .bool b
  fromValue := Value.asBool

instance : Serde String where
  toValue s := .string s
  fromValue := Value.asStr

instance : Serde UInt64 where
  toValue n := .number (.posInt n)
  fromValue := Value.asU64

instance : Serde UInt32 where
  toValue n := .number (.posInt n.toUInt64)
  fromValue v := do
    let n ← v.asU64
    if n.toNat < 2 ^ 32 then some n.toUInt32 else none

instance : Serde NonZeroU64 where
  toValue n := toValue n.val
  fromValue v := do
    let n : UInt64 ← fromValue v
    if h : n ≠ 0 then some ⟨n, h⟩ else none

instance : Serde NonZeroU32 where
  toValue n := toValue n.val
  fromValue v := do
    let n : UInt32 ← fromValue v
    if h : n ≠ 0 then some ⟨n, h⟩ else none

instance {α : Type} [Serde α] : Serde (List α) where
  toValue xs := .array (xs.map toValue)
  fromValue
    | .array items => items.mapM fromValue
    | _ => none

instance {α : Type} [Serde α] : Serde (Option α) where
  toValue
    | some a => toValue a
    | none => .null
  fromValue
    | .null => some none
    | v => (fromValue v).map some

lemma mem_of_mapM {α β : Type} {f : α → Option β} {as : List α} {bs : List β}
    (h : as.mapM f = some bs) {b : β} (hb : b ∈ bs) : ∃ a ∈ as, f a = some b := by
  induction as generalizing bs with
  | nil =>
    obtain rfl : bs = [] := by simpa using h.symm
    cases hb
  | cons a as ih =>
    simp only [List.mapM_cons, Option.pure_def, Option.bind_eq_bind, Option.bind_eq_some_iff,
      Option.some.injEq] at h
    obtain ⟨b', ha, bs', has, rfl⟩ := h
    rcases List.mem_cons.mp hb with rfl | hb
    · exact ⟨a, List.mem_cons_self, ha⟩
    · obtain ⟨a', hm, hf⟩ := ih has hb
      exact ⟨a', List.mem_cons_of_mem _ hm, hf⟩

lemma exists_fromValue_of_mem {α : Type} [Serde α] {v : Value} {xs : List α}
    (h : fromValue v = some xs) {x : α} (hx : x ∈ xs) : ∃ w, fromValue w = some x := by
  cases v with
  | array items =>
    obtain ⟨w, _, hw⟩ := mem_of_mapM h hx
    exact ⟨w, hw⟩
  | _ => cases h

/-- The fields of a derived struct with `deny_unknown_fields`: a map may omit fields but not add
any, an array has to give all of them in order. -/
def structFields (names : List String) : Value → Option (List (Option Value))
  | .object fields =>
    if fields.all fun field => names.contains field.1 then
      some (names.map fun name => fields.lookup name)
    else none
  | .array items => if items.length = names.length then some (items.map some) else none
  | _ => none

def required {α : Type} [Serde α] (field : Option Value) : Option α := field.bind fromValue

def optional {α : Type} [Serde α] : Option Value → Option (Option α)
  | none => some none
  | some v => fromValue v

def unitVariant {α : Type} (name : String → Option α) : Value → Option α
  | .string s => name s
  | .object [(key, .null)] => name key
  | _ => none

class LawfulSerde (α : Type) [Serde α] : Prop where
  fromValue_toValue (a : α) : fromValue (toValue a) = some a

export LawfulSerde (fromValue_toValue)

attribute [simp] fromValue_toValue

instance : LawfulSerde Value := ⟨fun _ => rfl⟩
instance : LawfulSerde Bool := ⟨fun _ => rfl⟩
instance : LawfulSerde String := ⟨fun _ => rfl⟩
instance : LawfulSerde UInt64 := ⟨fun _ => rfl⟩

instance : LawfulSerde NonZeroU64 where
  fromValue_toValue n := by
    simp [toValue, fromValue, Value.asU64, n.property]

def RoundTrips {α : Type} [Serde α] (a : α) : Prop := fromValue (toValue a) = some a

lemma roundTrips {α : Type} [Serde α] [LawfulSerde α] (a : α) : RoundTrips a := fromValue_toValue a

lemma RoundTrips.required {α : Type} [Serde α] {a : α} (h : RoundTrips a) :
    required (some (toValue a)) = some a := h

lemma RoundTrips.list {α : Type} [Serde α] {xs : List α} (h : ∀ x ∈ xs, RoundTrips x) :
    RoundTrips xs := by
  show (xs.map toValue).mapM fromValue = some xs
  induction xs with
  | nil => rfl
  | cons x xs ih =>
    have hx : fromValue (toValue x) = some x := h x List.mem_cons_self
    rw [List.map_cons, List.mapM_cons, hx, ih fun y hy => h y (List.mem_cons_of_mem _ hy)]
    rfl

lemma fromValue_option {α : Type} [Serde α] {v : Value} (h : v ≠ .null) :
    (fromValue v : Option (Option α)) = (fromValue v : Option α).map some := by
  cases v with
  | null => exact absurd rfl h
  | _ => rfl

lemma optional_toValue {α : Type} [Serde α] {o : Option α}
    (h : ∀ a, o = some a → RoundTrips a ∧ toValue a ≠ .null) :
    optional (some (toValue o)) = some o := by
  cases o with
  | none => rfl
  | some a =>
    obtain ⟨ha, hn⟩ := h a rfl
    show (fromValue (toValue a) : Option (Option α)) = some (some a)
    rw [fromValue_option hn, ha]
    rfl

instance : LawfulSerde UInt32 where
  fromValue_toValue n := by
    have h := n.toNat_lt
    simpa [toValue, fromValue, Value.asU64] using h

instance : LawfulSerde NonZeroU32 where
  fromValue_toValue n := by
    have h := n.val.toNat_lt
    have h : n.val.toNat < 4294967296 := h
    simp [toValue, fromValue, Value.asU64, n.property, h]

end FpsMaxxing
